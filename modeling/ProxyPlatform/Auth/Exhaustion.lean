import ProxyPlatform.Auth.Request

/-!
# Running out of audit nodes

The audit nodes are taken from a pool of a fixed size, and a request that needs a node
when none is free ends the process. The nodes in use are those of the accounts of the
map in force (`heldIds`) and those of accounts of replaced maps (`staleIds`): a reload
takes the nodes from the records at once, but a node is freed only when its connections
ended and its idle period is over. So a map that fits the pool is no guarantee:

* `acquireAuthInfo_eq_error`: a request fails exactly when its account has no node yet
  and the two kinds of nodes fill the pool;
* `neverExhausted_iff`: a run does not run out of nodes exactly when there is room for
  one more wherever one is needed;
* `HasRoom.of_records`: there is, as long as the nodes of replaced maps leave room for
  the whole map in force.
-/

namespace ProxyPlatform

namespace AuthLocalService

variable {T : AuthTimeouts} {s t : AuthLocalService} {out : List ℕ} {key : Bytes}

/-- The nodes of replaced maps: they are live, but no record of the map in force has them. -/
def staleIds (s : AuthLocalService) : List ℕ :=
  (s.localAuditTimeoutList.nodes ()).filter (· ∉ heldIds s.mapInForce)

/-- The account under `key` is listed and has no node. -/
def NeedsNode (s : AuthLocalService) (key : Bytes) : Prop :=
  ∃ localRecord, s.mapInForce.lookup key = some localRecord ∧ localRecord.localAuthId = 0

/-- The nodes of the map in force and those of replaced maps leave room for one more. -/
def HasRoom (s : AuthLocalService) : Prop :=
  (heldIds s.mapInForce).length + s.staleIds.length < localAuditNodePoolSize

/-! ## The nodes in use -/

theorem Consistent.nodup_heldIds (h : Consistent s out) : (heldIds s.mapInForce).Nodup := by
  rw [mapInForce]
  split
  · exact h.nodup
  · rw [heldIds_records]
    exact List.nodup_nil

/-- The nodes of the map in force are live. -/
theorem Consistent.mem_nodes (h : Consistent s out) {i : ℕ} (hi : i ∈ heldIds s.mapInForce) :
    i ∈ s.localAuditTimeoutList.nodes () := by
  rw [mapInForce] at hi
  split at hi
  · exact (h.listed i).2 (h.counts.live i (List.mem_append_left out hi))
  · rw [heldIds_records] at hi
    exact absurd hi List.not_mem_nil

/-- A live node belongs to the map in force or to a replaced one. -/
theorem Consistent.held_add_stale (h : Consistent s out) :
    (heldIds s.mapInForce).length + s.staleIds.length = s.localAuditNodePool.size := by
  have hnodup := s.localAuditTimeoutList.nodup ()
  have hheld : (heldIds s.mapInForce).Perm
      ((s.localAuditTimeoutList.nodes ()).filter (· ∈ heldIds s.mapInForce)) := by
    refine (List.perm_ext_iff_of_nodup h.nodup_heldIds (hnodup.filter _)).2 fun i => ?_
    rw [List.mem_filter, decide_eq_true_eq]
    exact ⟨fun hi => ⟨h.mem_nodes hi, hi⟩, And.right⟩
  have hsplit := List.length_eq_length_filter_add (l := s.localAuditTimeoutList.nodes ())
    fun i => decide (i ∈ heldIds s.mapInForce)
  rw [← Storage.length_eq_size hnodup h.listed, hheld.length_eq, staleIds, hsplit]
  simp only [decide_not]

/-- There is room when the nodes of replaced maps leave room for the whole map in force. -/
theorem HasRoom.of_records (hneeds : s.NeedsNode key)
    (h : s.mapInForce.entries.length + s.staleIds.length ≤ localAuditNodePoolSize) :
    s.HasRoom := by
  obtain ⟨localRecord, hrec, hid⟩ := hneeds
  have hlt : (heldIds s.mapInForce).length < s.mapInForce.entries.length := by
    rw [heldIds, ← List.length_map fun e : Σ _ : Bytes, AuthLocalRecord => e.2.localAuthId]
    refine List.length_filter_lt_length_iff_exists.2 ⟨0, ?_, by simp⟩
    exact List.mem_map.2 ⟨_, AList.mem_lookup_iff.1 hrec, hid⟩
  exact (Nat.add_lt_add_right hlt _).trans_le h

/-! ## The size of the pool -/

theorem dropReference_capacity {p q : Storage AuthLocalUsageAuditNode} {i : ℕ}
    (h : dropReference p i = .ok q) : q.capacity = p.capacity := by
  unfold dropReference at h
  split at h
  · cases h
  · split at h
    · cases h
    · cases h
      exact Storage.capacity_set _ _ _

theorem dropReferences_capacity {p q : Storage AuthLocalUsageAuditNode} {is : List ℕ}
    (h : dropReferences p is = .ok q) : q.capacity = p.capacity := by
  induction is generalizing p with
  | nil => cases h; rfl
  | cons i is ih =>
    rw [dropReferences] at h
    split at h
    · next u hu => exact (ih h).trans (dropReference_capacity hu)
    · cases h

/-- Swapping in a map leaves as many nodes, and as much room. -/
theorem swapAuthLocalMap_capacity (h : swapAuthLocalMap s = .ok t) :
    t.audit.unReleasedAuthInfoCount = s.audit.unReleasedAuthInfoCount ∧
      t.localAuditNodePool.capacity = s.localAuditNodePool.capacity := by
  unfold swapAuthLocalMap at h
  split at h
  · cases h
    exact ⟨rfl, rfl⟩
  · split at h
    · cases h
    · next p hp =>
      cases h
      exact ⟨rfl, dropReferences_capacity hp⟩

theorem checkAndSetLocalAuthId_capacity {old new : AuthLocalRecord} {node : AuthLocalUsageAuditNode}
    (h : checkAndSetLocalAuthId s key old = .ok (t, new, node)) :
    t.localAuditNodePool.capacity = s.localAuditNodePool.capacity := by
  unfold checkAndSetLocalAuthId at h
  split at h
  · split at h <;> cases h
    rfl
  · dsimp only at h
    split at h
    · cases h
    · next hacq =>
      cases h
      exact Storage.capacity_acquire hacq

variable (T s key) in
theorem checkLimits_capacity (old : AuthLocalRecord) (node : AuthLocalUsageAuditNode) :
    (checkLimits T s key old node).1.localAuditNodePool.capacity =
      s.localAuditNodePool.capacity := by
  simp only [checkLimits]
  split_ifs
  · rfl
  · rfl
  · rfl
  · exact Storage.capacity_set _ _ _

theorem acquireAuthInfo_capacity {res : Option AuthResult}
    (h : acquireAuthInfo T s key = .ok (t, res)) :
    t.localAuditNodePool.capacity = s.localAuditNodePool.capacity := by
  unfold acquireAuthInfo at h
  split at h
  · cases h
  next s₁ hs₁ =>
  rw [← (swapAuthLocalMap_capacity hs₁).2]
  split at h
  · cases h
    rfl
  · split at h
    · cases h
    · next s₂ new node hs₂ =>
      have hcheck := checkLimits_capacity T s₂ key new node
      rw [Except.ok.inj h] at hcheck
      exact hcheck.trans (checkAndSetLocalAuthId_capacity hs₂)

theorem releaseAuthInfo_capacity {i : ℕ} {usage : LocalUsage}
    (h : releaseAuthInfo s i usage = .ok t) :
    t.localAuditNodePool.capacity = s.localAuditNodePool.capacity := by
  unfold releaseAuthInfo at h
  split at h
  · cases h
  · dsimp only at h
    split at h
    · cases h
    · next p hp =>
      cases h
      exact (dropReference_capacity hp).trans (Storage.capacity_set _ _ _)

theorem reportNode_capacity {i : ℕ} (h : reportNode s i = .ok t) :
    t.localAuditNodePool.capacity = s.localAuditNodePool.capacity := by
  unfold reportNode at h
  split at h
  · cases h
  · dsimp only at h
    split at h
    · cases h
      exact Storage.capacity_set _ _ _
    · cases h
      rfl

theorem checkAndReportLocalAudit_capacity {fuel : ℕ}
    (h : checkAndReportLocalAudit T fuel s = .ok t) :
    t.localAuditNodePool.capacity = s.localAuditNodePool.capacity := by
  induction fuel generalizing s with
  | zero =>
    rw [checkAndReportLocalAudit] at h
    split at h <;> cases h
    rfl
  | succ fuel ih =>
    rw [checkAndReportLocalAudit] at h
    split at h
    · cases h
      rfl
    · split at h
      · cases h
      · next hu => exact (ih h).trans (reportNode_capacity hu)

theorem tick_capacity {nowMS : ℕ} (h : tick T s nowMS = .ok t) :
    t.localAuditNodePool.capacity = s.localAuditNodePool.capacity :=
  (checkAndReportLocalAudit_capacity h :)

/-! ## Requests that fail -/

/-- A record gets a node, unless it has none and the pool is full. -/
theorem checkAndSetLocalAuthId_eq_error {old : AuthLocalRecord} (h : Consistent s out)
    (hold : s.authLocalMap.lookup key = some old) :
    checkAndSetLocalAuthId s key old = .error .runtimeAssert ↔
      old.localAuthId = 0 ∧ s.localAuditNodePool.capacity ≤ s.localAuditNodePool.size := by
  by_cases hid : old.localAuthId = 0
  · rw [and_iff_right hid, ← Storage.acquire_eq_none]
    simp only [checkAndSetLocalAuthId, hid, ne_eq, not_true, if_false]
    split
    · next hacq => exact iff_of_true rfl hacq
    · next hacq =>
      rw [hacq]
      exact iff_of_false (fun hx => (by cases hx)) (fun hx => (by cases hx))
  · refine iff_of_false (fun hx => ?_) fun hx => hid hx.1
    have hmem : old.localAuthId ∈ heldIds s.authLocalMap :=
      mem_heldIds.2 ⟨hid, _, AList.mem_lookup_iff.1 hold, rfl⟩
    obtain ⟨node, hnode⟩ := h.counts.live _ (List.mem_append_left out hmem)
    simp only [checkAndSetLocalAuthId, ne_eq, hid, not_false_eq_true, if_true, hnode] at hx
    cases hx

/-- A request fails exactly when its account has no node and there is no room for one. -/
theorem acquireAuthInfo_eq_error (h : Consistent s out)
    (hcap : s.localAuditNodePool.capacity = localAuditNodePoolSize) :
    acquireAuthInfo T s key = .error .runtimeAssert ↔ s.NeedsNode key ∧ ¬s.HasRoom := by
  obtain ⟨s₁, hs₁, h₁, -⟩ := swapAuthLocalMap_spec h
  have hmap := swapAuthLocalMap_inForce hs₁
  obtain ⟨hun, hcap₁⟩ := swapAuthLocalMap_capacity hs₁
  have hsize : s₁.localAuditNodePool.size = s.localAuditNodePool.size := by
    rw [← h₁.unReleased, hun, h.unReleased]
  rw [HasRoom, h.held_add_stale, Nat.not_lt, ← hsize, ← hcap, ← hcap₁, NeedsNode, ← hmap]
  simp only [acquireAuthInfo, hs₁]
  split
  · next hrec =>
    rw [hrec]
    refine iff_of_false (fun hx => (by cases hx)) ?_
    rintro ⟨⟨_, hx, -⟩, -⟩
    cases hx
  · next old hrec =>
    have hcheck := checkAndSetLocalAuthId_eq_error h₁ hrec
    rw [hrec]
    simp only [Option.some.injEq, exists_eq_left']
    rw [← hcheck]
    split
    · next x hx => rw [hx, Except.error.injEq, Except.error.injEq]
    · next hx =>
      rw [hx]
      exact iff_of_false (fun hx => (by cases hx)) (fun hx => (by cases hx))

/-- A record without a node gets a new one. -/
theorem checkAndSetLocalAuthId_new {old new : AuthLocalRecord} {node : AuthLocalUsageAuditNode}
    (hid : old.localAuthId = 0) (h : checkAndSetLocalAuthId s key old = .ok (t, new, node)) :
    t.audit.unReleasedAuthInfoCount = s.audit.unReleasedAuthInfoCount + 1 := by
  simp only [checkAndSetLocalAuthId, hid, ne_eq, not_true, if_false] at h
  split at h <;> cases h
  rfl

variable (T s key) in
theorem checkLimits_audit (old : AuthLocalRecord) (node : AuthLocalUsageAuditNode) :
    (checkLimits T s key old node).1.audit = s.audit := by
  simp only [checkLimits]
  split_ifs <;> rfl

/-- A request that makes a node: there is one more, and the other accounts are as before. -/
theorem acquireAuthInfo_new (h : Consistent s out)
    (hcap : s.localAuditNodePool.capacity = localAuditNodePoolSize) (hneeds : s.NeedsNode key)
    (hroom : s.HasRoom) :
    ∃ t res, acquireAuthInfo T s key = .ok (t, res) ∧
      t.audit.unReleasedAuthInfoCount = s.audit.unReleasedAuthInfoCount + 1 ∧
      ∀ k, k ≠ key → s.NeedsNode k → t.NeedsNode k := by
  rcases acquireAuthInfo_spec T key h with hfull | ⟨t, res, ht, -⟩
  · exact absurd hroom ((acquireAuthInfo_eq_error h hcap).1 hfull).2
  obtain ⟨s₁, hs₁, ht₁⟩ := acquireAuthInfo_eq_ok ht
  have hmap := swapAuthLocalMap_inForce hs₁
  have hun := (swapAuthLocalMap_capacity hs₁).1
  have hnone := (swapAuthLocalMap_leaves hs₁).1
  have hleaves := acquireAuthInfo_leaves hnone ht₁
  obtain ⟨old, hold, hid⟩ := hneeds
  rw [← hmap] at hold
  refine ⟨t, res, ht, ?_, fun k hk => ?_⟩
  · rw [← hun]
    simp only [acquireAuthInfo, swapAuthLocalMap, hnone, hold] at ht₁
    split at ht₁
    · cases ht₁
    next s₂ new node hs₂ =>
    have hlimits := checkLimits_audit T s₂ key new node
    rw [Except.ok.inj ht₁] at hlimits
    rw [hlimits, checkAndSetLocalAuthId_new hid hs₂]
  · rintro ⟨other, hother, hid'⟩
    refine ⟨other, ?_, hid'⟩
    rw [mapInForce, hleaves.loadedAuthMap, hnone]
    dsimp only
    rw [hleaves.lookup k hk, hmap, hother]

end AuthLocalService

namespace AuthRun

open AuthLocalService

variable {T : AuthTimeouts} {r t : AuthRun} {e : AuthEvent} {es : List AuthEvent}

theorem step_capacity (h : step T r e = .ok t) :
    t.service.localAuditNodePool.capacity = r.service.localAuditNodePool.capacity := by
  cases e with
  | acquireAuthInfo key =>
    rw [step] at h
    split at h
    · cases h
    · next hs =>
      cases h
      exact acquireAuthInfo_capacity hs
  | releaseAuthInfo i usage =>
    rw [step] at h
    split at h
    · split at h
      · cases h
      · next hs =>
        cases h
        exact releaseAuthInfo_capacity hs
    · cases h
      rfl
  | publish newMap =>
    cases h
    rfl
  | tick nowMS =>
    rw [step] at h
    split at h
    · cases h
    · next hs =>
      cases h
      exact tick_capacity hs

theorem capacity_of_exec (h : exec (step T) init es = .ok r) :
    r.service.localAuditNodePool.capacity = localAuditNodePoolSize :=
  exec_invariant (I := fun r : AuthRun =>
    r.service.localAuditNodePool.capacity = localAuditNodePoolSize)
    (fun _ _ _ hr ht => (step_capacity ht).trans hr) rfl h

/-- Where a request needs a node, there is room for one. -/
def RoomForNode (r : AuthRun) : AuthEvent → Prop
  | .acquireAuthInfo accountPassView =>
    r.service.NeedsNode accountPassView → r.service.HasRoom
  | _ => True

/-- Only a request fails for want of a node. -/
theorem step_eq_error (h : Consistent r.service r.outstanding)
    (hcap : r.service.localAuditNodePool.capacity = localAuditNodePoolSize) :
    step T r e = .error .runtimeAssert ↔ ¬RoomForNode r e := by
  cases e with
  | acquireAuthInfo key =>
    rw [RoomForNode, Classical.not_imp, ← acquireAuthInfo_eq_error (T := T) h hcap, step]
    split
    · next x hx => rw [hx, Except.error.injEq, Except.error.injEq]
    · next hx =>
      rw [hx]
      exact iff_of_false (fun hx => (by cases hx)) (fun hx => (by cases hx))
  | releaseAuthInfo i usage =>
    refine iff_of_false (fun hx => ?_) (fun hx => hx trivial)
    rw [step] at hx
    split at hx
    · next hi =>
      have hperm : Consistent r.service (i :: r.outstanding.erase i) :=
        { h with counts := h.counts.perm ((List.perm_cons_erase hi).append_left _) }
      obtain ⟨t, n, -, ht, -⟩ := releaseAuthInfo_spec hperm usage
      rw [ht] at hx
      cases hx
    · cases hx
  | publish newMap => exact iff_of_false (fun hx => (by cases hx)) (fun hx => hx trivial)
  | tick nowMS =>
    refine iff_of_false (fun hx => ?_) (fun hx => hx trivial)
    rw [step] at hx
    rcases tick_spec T nowMS h with hno | ⟨t, ht, -⟩
    · rw [hno] at hx
      cases hx
    · rw [ht] at hx
      cases hx

/-- No step of a run fails for want of a node exactly when there is room for a node at every
    request that needs one. -/
theorem neverExhausted_iff (T : AuthTimeouts) (es : List AuthEvent) :
    (∀ pre e r, pre ++ [e] <+: es → exec (step T) init pre = .ok r →
      step T r e ≠ .error .runtimeAssert) ↔ Along (step T) RoomForNode init es := by
  rw [along_iff]
  refine forall_congr' fun pre => forall_congr' fun e => forall_congr' fun r =>
    imp_congr_right fun _ => forall_congr' fun hr => ?_
  rw [Ne, step_eq_error (consistent_of_exec hr) (capacity_of_exec hr), not_not]

/-! ## Two maps that fit the pool do not fit together -/

/-- Requests for accounts that have no node yet make one for each, as long as there is room. -/
theorem exec_fill (keys : List Bytes) (h : Consistent r.service r.outstanding)
    (hcap : r.service.localAuditNodePool.capacity = localAuditNodePoolSize) (hnodup : keys.Nodup)
    (hneeds : ∀ k ∈ keys, r.service.NeedsNode k)
    (hroom : r.service.audit.unReleasedAuthInfoCount + keys.length ≤ localAuditNodePoolSize) :
    ∃ t, exec (step T) r (keys.map .acquireAuthInfo) = .ok t ∧
      t.service.audit.unReleasedAuthInfoCount =
        r.service.audit.unReleasedAuthInfoCount + keys.length := by
  induction keys generalizing r with
  | nil => exact ⟨r, rfl, rfl⟩
  | cons key keys ih =>
    obtain ⟨hkey, hnodup⟩ := List.nodup_cons.1 hnodup
    rw [List.length_cons] at hroom
    have hhas : r.service.HasRoom := by
      rw [HasRoom, h.held_add_stale, ← h.unReleased]
      omega
    obtain ⟨s, res, hs, hcount, hother⟩ :=
      acquireAuthInfo_new (T := T) h hcap (hneeds key List.mem_cons_self) hhas
    have hstep : step T r (.acquireAuthInfo key) = .ok { r with
        service := s
        outstanding := (res.map AuthResult.localAuthId).toList ++ r.outstanding } := by
      simp only [step, hs]
    obtain ⟨t, ht, htcount⟩ := ih (consistent_of_step h hstep)
      ((step_capacity hstep).trans hcap) hnodup
      (fun k hk => hother k (ne_of_mem_of_not_mem hk hkey) (hneeds k (List.mem_cons_of_mem _ hk)))
      (by dsimp only; omega)
    refine ⟨t, ?_, ?_⟩
    · rw [List.map_cons, exec_cons_of_ok _ hstep, ht]
    · rw [htcount, List.length_cons]
      dsimp only
      omega

/-- The map is published, every account connects, and the map is published again. -/
def reloadEvents (newMap : LoadedAuthMap) : List AuthEvent :=
  .publish newMap :: (newMap.records.keys.map .acquireAuthInfo ++ [.publish newMap])

/-- The state after a map is published. -/
def published (r : AuthRun) (newMap : LoadedAuthMap) : AuthRun :=
  { r with service := { r.service with loadedAuthMap := some newMap } }

theorem step_publish (T : AuthTimeouts) (r : AuthRun) (newMap : LoadedAuthMap) :
    step T r (.publish newMap) = .ok (r.published newMap) := rfl

/-- The accounts of a map published have no nodes. -/
theorem needsNode_published (r : AuthRun) {newMap : LoadedAuthMap} {k : Bytes}
    (hk : k ∈ newMap.records.keys) : (r.published newMap).service.NeedsNode k := by
  obtain ⟨record, hrecord⟩ := Option.isSome_iff_exists.1 (AList.lookup_isSome.2 hk)
  exact ⟨record, hrecord, (newMap.fresh _ (AList.mem_lookup_iff.1 hrecord)).1⟩

/-- When a map that fills the pool is in use and is published again, the next request of an
    account ends the process. -/
theorem exhausted_of_reload (T : AuthTimeouts) {newMap : LoadedAuthMap}
    (hlength : newMap.records.keys.length = localAuditNodePoolSize) :
    ∃ t, exec (step T) init (reloadEvents newMap) = .ok t ∧
      ∀ k ∈ newMap.records.keys, step T t (.acquireAuthInfo k) = .error .runtimeAssert := by
  -- All nodes are taken for the map published first.
  have hinit := step_publish T init newMap
  have hzero : (init.published newMap).service.audit.unReleasedAuthInfoCount = 0 := rfl
  obtain ⟨r, hr, hcount⟩ := exec_fill (T := T) newMap.records.keys
    (consistent_of_step init_consistent hinit) (step_capacity hinit) newMap.records.nodupKeys
    (fun k hk => needsNode_published init hk) (by rw [hzero, Nat.zero_add, hlength])
  rw [hzero, Nat.zero_add, hlength] at hcount
  -- After the reload none of them belongs to a record.
  have ht : exec (step T) init (reloadEvents newMap) = .ok (r.published newMap) := by
    rw [reloadEvents, exec_cons_of_ok _ hinit, exec_append _ hr,
      exec_cons_of_ok _ (step_publish T r newMap), exec_nil]
  have hcons := consistent_of_exec ht
  refine ⟨_, ht, fun k hk => (step_eq_error hcons (capacity_of_exec ht)).2 fun hroom => ?_⟩
  have hlt := hroom (needsNode_published r hk)
  rw [HasRoom, hcons.held_add_stale, ← hcons.unReleased] at hlt
  exact hlt.ne hcount

/-- The key of the `i`-th of many accounts: a user name of three bytes, and the password `b`. -/
def accountKey (i : ℕ) : Bytes :=
  [UInt8.ofNat (i / 65536), UInt8.ofNat (i / 256), UInt8.ofNat i, 0, 98]

theorem accountKey_injOn {i j : ℕ} (hi : i < 16777216) (hj : j < 16777216)
    (h : accountKey i = accountKey j) : i = j := by
  simp only [accountKey, List.cons.injEq, and_true, ← UInt8.toNat_inj, UInt8.toNat_ofNat'] at h
  omega

/-- The rows of `n` accounts. -/
def accounts (n : ℕ) : List (Σ _ : Bytes, AuthLocalRecord) :=
  (List.range n).map fun i => ⟨accountKey i, {}⟩

theorem nodupKeys_accounts {n : ℕ} (hn : n ≤ 16777216) : (accounts n).NodupKeys := by
  rw [List.NodupKeys, List.keys, accounts, List.map_map]
  refine List.nodup_range.map_on fun i hi j hj h => ?_
  exact accountKey_injOn ((List.mem_range.1 hi).trans_le hn) ((List.mem_range.1 hj).trans_le hn) h

theorem fresh_accounts {n : ℕ} {e : Σ _ : Bytes, AuthLocalRecord} (he : e ∈ accounts n) :
    e.2.localAuthId = 0 ∧ e.2.blockStartTimestampMS = 0 := by
  obtain ⟨i, -, rfl⟩ := List.mem_map.1 he
  exact ⟨rfl, rfl⟩

/-- A map of `n` accounts. -/
def accountsMap (n : ℕ) (hn : n ≤ 16777216) : LoadedAuthMap where
  records := ⟨accounts n, nodupKeys_accounts hn⟩
  fresh _ he := fresh_accounts he

theorem length_accountsMap {n : ℕ} (hn : n ≤ 16777216) :
    (accountsMap n hn).records.entries.length = n := by
  change (accounts n).length = n
  rw [accounts, List.length_map, List.length_range]

theorem mem_accountsMap {n i : ℕ} (hn : n ≤ 16777216) (hi : i < n) :
    accountKey i ∈ (accountsMap n hn).records.keys :=
  List.mem_map.2 ⟨⟨accountKey i, {}⟩, List.mem_map.2 ⟨i, List.mem_range.2 hi, rfl⟩, rfl⟩

/-- Every map fits the pool, and yet a request ends the process. -/
theorem neverExhausted_counterexample :
    ¬∀ (T : AuthTimeouts) (es : List AuthEvent),
      (∀ newMap, .publish newMap ∈ es →
        newMap.records.entries.length ≤ localAuditNodePoolSize) →
      ∀ pre e r, pre ++ [e] <+: es → exec (step T) init pre = .ok r →
        step T r e ≠ .error .runtimeAssert := by
  intro h
  have hsize : 0 < localAuditNodePoolSize ∧ localAuditNodePoolSize ≤ 16777216 := by
    unfold localAuditNodePoolSize
    omega
  have hlength := length_accountsMap hsize.2
  have hkey := mem_accountsMap hsize.2 hsize.1
  generalize accountsMap localAuditNodePoolSize hsize.2 = fullMap at hlength hkey
  obtain ⟨t, ht, hfail⟩ := exhausted_of_reload .release ((List.length_map _).trans hlength)
  refine h .release (reloadEvents fullMap ++ [.acquireAuthInfo (accountKey 0)]) (fun m hm => ?_)
    (reloadEvents fullMap) (.acquireAuthInfo (accountKey 0)) t List.prefix_rfl ht (hfail _ hkey)
  obtain rfl : m = fullMap := by simpa [reloadEvents] using hm
  exact hlength.le

end AuthRun

end ProxyPlatform
