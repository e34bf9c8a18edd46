import ProxyPlatform.Auth.Run

/-!
# Requests and the state of an account

What a request decides depends on the record of its account and on the usage its node
collected: the account is blocked, exceeds a limit, or is granted (`Decision`). And it
leaves the records and the nodes of other accounts as they are (`Leaves`).

* `acquireAuthInfo_decides`: a request that swaps in no map is one of the three;
* `acquireAuthInfo_eq_ok`: one that does is such a request, after the map is swapped in;
* `tick_leaves`, `releaseAuthInfo_leaves`: a tick and a release leave the records.
-/

namespace ProxyPlatform

/-- The account is blocked, at the time `nowMS`. -/
def AuthLocalRecord.InForce (T : AuthTimeouts) (r : AuthLocalRecord) (nowMS : ℕ) : Prop :=
  r.blockStartTimestampMS ≠ 0 ∧ nowMS < r.blockStartTimestampMS + T.accountBlockTimeoutMS

/-- The usage `u` exceeds the bandwidth of the account. -/
def AuthLocalRecord.ExceedsBandwidth (r : AuthLocalRecord) (u : LocalUsage) : Prop :=
  r.bandwidthLimit ≠ 0 ∧ r.bandwidthLimit < AuthLocalService.totalConsumed u

/-- The usage `u` exceeds the connections of the account. -/
def AuthLocalRecord.ExceedsConnections (r : AuthLocalRecord) (u : LocalUsage) : Prop :=
  r.connectionLimit ≠ 0 ∧ r.connectionLimit < u.totalTcpConnections

namespace AuthLocalService

/-- The usage the node of a record collected. -/
def usageOf (s : AuthLocalService) (r : AuthLocalRecord) : LocalUsage :=
  match s.localAuditNodePool.get r.localAuthId with
  | none => {}
  | some n => n.audit

/-- The map the next request finds: the one published last, if it was not swapped in yet. -/
def mapInForce (s : AuthLocalService) : AuthLocalMap :=
  match s.loadedAuthMap with
  | none => s.authLocalMap
  | some newMap => newMap.records

/-- What a call leaves of the rest: all records but that of `key`, and the usage of the nodes. -/
structure Leaves (key : Bytes) (s t : AuthLocalService) : Prop where
  localTicker : t.localTicker = s.localTicker
  loadedAuthMap : t.loadedAuthMap = s.loadedAuthMap
  lookup : ∀ k, k ≠ key → t.authLocalMap.lookup k = s.authLocalMap.lookup k
  node : ∀ i n, s.localAuditNodePool.get i = some n →
    ∃ m, t.localAuditNodePool.get i = some m ∧ m.audit = n.audit

namespace Leaves

variable {key : Bytes} {s t u : AuthLocalService}

theorem refl (key : Bytes) (s : AuthLocalService) : Leaves key s s :=
  ⟨rfl, rfl, fun _ _ => rfl, fun _ n hn => ⟨n, hn, rfl⟩⟩

theorem trans (h : Leaves key s t) (h' : Leaves key t u) : Leaves key s u where
  localTicker := h'.localTicker.trans h.localTicker
  loadedAuthMap := h'.loadedAuthMap.trans h.loadedAuthMap
  lookup k hk := (h'.lookup k hk).trans (h.lookup k hk)
  node i n hn := by
    obtain ⟨m, hm, hma⟩ := h.node i n hn
    obtain ⟨m', hm', hma'⟩ := h'.node i m hm
    exact ⟨m', hm', hma'.trans hma⟩

end Leaves

variable {T : AuthTimeouts} {s t : AuthLocalService} {key : Bytes} {old : AuthLocalRecord}
  {res : Option AuthResult}

/-- The outcomes of a request for the account with the record `old`, that used `usage`. -/
inductive Decision (T : AuthTimeouts) (s : AuthLocalService) (key : Bytes) (old : AuthLocalRecord)
    (usage : LocalUsage) (t : AuthLocalService) (res : Option AuthResult) : Prop
  | blocked (hb : old.InForce T s.localTicker) (hres : res = none) (hcalls : t.calls = s.calls)
      (i : ℕ) (hi : old.localAuthId ≠ 0 → i = old.localAuthId)
      (hnew : t.authLocalMap.lookup key = some { old with localAuthId := i })
  | exceeded (hb : ¬old.InForce T s.localTicker)
      (hex : old.ExceedsBandwidth usage ∨ old.ExceedsConnections usage) (hres : res = none)
      (b : AuditBlockAccount) (hcalls : t.calls = s.calls ++ [.reportBlockAccount b])
      (i : ℕ) (hi : old.localAuthId ≠ 0 → i = old.localAuthId)
      (hnew : t.authLocalMap.lookup key = some { old with
        localAuthId := i, blockStartTimestampMS := s.localTicker })
  | granted (hb : ¬old.InForce T s.localTicker) (hbandwidth : ¬old.ExceedsBandwidth usage)
      (hconnections : ¬old.ExceedsConnections usage) (hres : res.isSome = true)
      (hcalls : t.calls = s.calls) (i : ℕ) (hi : old.localAuthId ≠ 0 → i = old.localAuthId)
      (hnew : t.authLocalMap.lookup key = some { old with
        localAuthId := i, blockStartTimestampMS := 0 })

/-- A record gets a node, if it has none, and is left as it is otherwise. -/
theorem checkAndSetLocalAuthId_leaves {new : AuthLocalRecord} {node : AuthLocalUsageAuditNode}
    (hold : s.authLocalMap.lookup key = some old)
    (h : checkAndSetLocalAuthId s key old = .ok (t, new, node)) :
    Leaves key s t ∧ t.calls = s.calls ∧ t.authLocalMap.lookup key = some new ∧
      t.localAuditNodePool.get new.localAuthId = some node ∧ node.audit = s.usageOf old ∧
      ∃ i, (old.localAuthId ≠ 0 → i = old.localAuthId) ∧ new = { old with localAuthId := i } := by
  unfold checkAndSetLocalAuthId at h
  split at h
  · next hid =>
    split at h
    · cases h
    · next n hn =>
      cases h
      refine ⟨.refl key s, rfl, hold, hn, ?_, old.localAuthId, fun _ => rfl, rfl⟩
      rw [usageOf, hn]
  · next hid =>
    have hid0 : old.localAuthId = 0 := not_not.1 hid
    dsimp only at h
    split at h
    · cases h
    · next i p hp =>
      cases h
      refine ⟨⟨rfl, rfl, fun k hk => AList.lookup_insert_ne hk, fun j n hn => ?_⟩, rfl,
        AList.lookup_insert _, ?_, ?_, i, fun h0 => absurd hid0 h0, rfl⟩
      · have hji : j ≠ i := by
          rintro rfl
          rw [Storage.get_of_acquire hp] at hn
          cases hn
        exact ⟨n, by rw [Storage.get_acquire hp, if_neg hji, hn], rfl⟩
      · rw [Storage.get_acquire hp, if_pos rfl]
      · rw [usageOf, hid0, Storage.get_zero]

/-- A request checks the block first, then the bandwidth, then the connections. -/
theorem checkLimits_decides {node : AuthLocalUsageAuditNode}
    (hold : s.authLocalMap.lookup key = some old)
    (hnode : s.localAuditNodePool.get old.localAuthId = some node)
    (h : checkLimits T s key old node = (t, res)) :
    Leaves key s t ∧ Decision T s key old node.audit t res := by
  unfold checkLimits at h
  dsimp only at h
  split at h
  · next hb =>
    cases h
    exact ⟨.refl key s, .blocked hb rfl rfl old.localAuthId (fun _ => rfl) hold⟩
  next hb =>
  have hinsert (new : AuthLocalRecord) (l : List AuditCall) :
      Leaves key s { s with authLocalMap := s.authLocalMap.insert key new, calls := l } :=
    ⟨rfl, rfl, fun k hk => AList.lookup_insert_ne hk, fun _ n hn => ⟨n, hn, rfl⟩⟩
  split at h
  · next hbandwidth =>
    cases h
    exact ⟨hinsert _ _, .exceeded hb (.inl hbandwidth) rfl _ rfl old.localAuthId (fun _ => rfl)
      (AList.lookup_insert _)⟩
  next hbandwidth =>
  split at h
  · next hconnections =>
    cases h
    exact ⟨hinsert _ _, .exceeded hb (.inr hconnections) rfl _ rfl old.localAuthId (fun _ => rfl)
      (AList.lookup_insert _)⟩
  next hconnections =>
  cases h
  refine ⟨⟨rfl, rfl, fun k hk => AList.lookup_insert_ne hk, fun j n hn => ?_⟩,
    .granted hb hbandwidth hconnections rfl rfl old.localAuthId (fun _ => rfl)
      (AList.lookup_insert _)⟩
  dsimp only
  rw [Storage.get_set hnode]
  split
  · next hj =>
    subst hj
    rw [hnode] at hn
    cases hn
    exact ⟨_, rfl, rfl⟩
  · exact ⟨n, hn, rfl⟩

/-- A request that swaps in no map, for an account that is listed. -/
theorem acquireAuthInfo_decides (hmap : s.loadedAuthMap = none)
    (hold : s.authLocalMap.lookup key = some old) (h : acquireAuthInfo T s key = .ok (t, res)) :
    Leaves key s t ∧ Decision T s key old (s.usageOf old) t res := by
  simp only [acquireAuthInfo, swapAuthLocalMap, hmap, hold] at h
  split at h
  · cases h
  next u new node hcheck =>
  obtain ⟨hleaves, hcalls, hnew, hnode, haudit, i, hi, rfl⟩ :=
    checkAndSetLocalAuthId_leaves hold hcheck
  obtain ⟨hleaves', hdecision⟩ := checkLimits_decides hnew hnode (Except.ok.inj h)
  refine ⟨hleaves.trans hleaves', ?_⟩
  rw [haudit] at hdecision
  cases hdecision with
  | blocked hb hres hcalls' j hj hnew' =>
    rw [hleaves.localTicker] at hb
    refine .blocked hb hres (hcalls'.trans hcalls) j (fun h0 => ?_) hnew'
    exact (hj (by rw [hi h0]; exact h0)).trans (hi h0)
  | exceeded hb hex hres b hcalls' j hj hnew' =>
    rw [hleaves.localTicker] at hb hnew'
    refine .exceeded hb hex hres b (by rw [hcalls', hcalls]) j (fun h0 => ?_) hnew'
    exact (hj (by rw [hi h0]; exact h0)).trans (hi h0)
  | granted hb hbandwidth hconnections hres hcalls' j hj hnew' =>
    rw [hleaves.localTicker] at hb
    refine .granted hb hbandwidth hconnections hres (hcalls'.trans hcalls) j (fun h0 => ?_) hnew'
    exact (hj (by rw [hi h0]; exact h0)).trans (hi h0)

/-- A request that swaps in no map leaves the usage of its account as it is. -/
theorem acquireAuthInfo_usageOf {new : AuthLocalRecord} (hmap : s.loadedAuthMap = none)
    (hold : s.authLocalMap.lookup key = some old) (h : acquireAuthInfo T s key = .ok (t, res))
    (hnew : t.authLocalMap.lookup key = some new) : t.usageOf new = s.usageOf old := by
  simp only [acquireAuthInfo, swapAuthLocalMap, hmap, hold] at h
  split at h
  · cases h
  next u new' node hcheck =>
  obtain ⟨-, -, hnew', hnode, haudit, -⟩ := checkAndSetLocalAuthId_leaves hold hcheck
  obtain ⟨hleaves, hdecision⟩ := checkLimits_decides hnew' hnode (Except.ok.inj h)
  have hid0 : new'.localAuthId ≠ 0 := (Storage.pos_of_get hnode).ne'
  have hid : new.localAuthId = new'.localAuthId := by
    cases hdecision with
    | blocked _ _ _ i hi hlookup =>
      rw [← Option.some.inj (hlookup.symm.trans hnew)]
      exact hi hid0
    | exceeded _ _ _ _ _ i hi hlookup =>
      rw [← Option.some.inj (hlookup.symm.trans hnew)]
      exact hi hid0
    | granted _ _ _ _ _ i hi hlookup =>
      rw [← Option.some.inj (hlookup.symm.trans hnew)]
      exact hi hid0
  obtain ⟨m, hm, hma⟩ := hleaves.node _ _ hnode
  rw [usageOf, hid, hm, ← haudit]
  exact hma

/-- Swapping in a map leaves no map that waits, and what it lists has no node and no block. -/
theorem swapAuthLocalMap_leaves {s₁ : AuthLocalService} (h : swapAuthLocalMap s = .ok s₁) :
    s₁.loadedAuthMap = none ∧ s₁.localTicker = s.localTicker ∧ s₁.calls = s.calls ∧
      (s₁ = s ∨ s.loadedAuthMap.isSome = true ∧ ∀ k record,
        s₁.authLocalMap.lookup k = some record → record.localAuthId = 0) := by
  unfold swapAuthLocalMap at h
  split at h
  · next hmap =>
    cases h
    exact ⟨hmap, rfl, rfl, .inl rfl⟩
  next newMap hmap =>
  split at h
  · cases h
  · cases h
    refine ⟨rfl, rfl, rfl, .inr ⟨by rw [hmap]; rfl, fun k record hrecord => ?_⟩⟩
    exact (newMap.fresh _ (AList.mem_lookup_iff.1 hrecord)).1

/-- The map that is swapped in is the map in force. -/
theorem swapAuthLocalMap_inForce {s₁ : AuthLocalService} (h : swapAuthLocalMap s = .ok s₁) :
    s₁.authLocalMap = s.mapInForce := by
  unfold swapAuthLocalMap at h
  split at h
  · next hmap =>
    cases h
    rw [mapInForce, hmap]
  · next newMap hmap =>
    split at h <;> cases h
    rw [mapInForce, hmap]

/-- A request that swaps in a map goes on as one that finds it. -/
theorem acquireAuthInfo_eq_ok (h : acquireAuthInfo T s key = .ok (t, res)) :
    ∃ s₁, swapAuthLocalMap s = .ok s₁ ∧ acquireAuthInfo T s₁ key = .ok (t, res) := by
  unfold acquireAuthInfo at h
  split at h
  · cases h
  next s₁ hs₁ =>
  refine ⟨s₁, hs₁, ?_⟩
  rw [acquireAuthInfo, swapAuthLocalMap, (swapAuthLocalMap_leaves hs₁).1]
  exact h

/-- A request for an account that is not listed does nothing, but for a map that is swapped in. -/
theorem acquireAuthInfo_unlisted (hmap : s.loadedAuthMap = none)
    (hold : s.authLocalMap.lookup key = none) : acquireAuthInfo T s key = .ok (s, none) := by
  simp only [acquireAuthInfo, swapAuthLocalMap, hmap, hold]

/-- A request for an account that is not in the map in force is refused. -/
theorem acquireAuthInfo_refused (hold : s.mapInForce.lookup key = none)
    (h : acquireAuthInfo T s key = .ok (t, res)) : res = none := by
  obtain ⟨s₁, hs₁, h₁⟩ := acquireAuthInfo_eq_ok h
  rw [← swapAuthLocalMap_inForce hs₁] at hold
  rw [acquireAuthInfo_unlisted (swapAuthLocalMap_leaves hs₁).1 hold] at h₁
  cases h₁
  rfl

/-- A request that swaps in no map leaves what is not of its account. -/
theorem acquireAuthInfo_leaves (hmap : s.loadedAuthMap = none)
    (h : acquireAuthInfo T s key = .ok (t, res)) : Leaves key s t := by
  cases hold : s.authLocalMap.lookup key with
  | none =>
    rw [acquireAuthInfo_unlisted hmap hold] at h
    cases h
    exact .refl key s
  | some old => exact (acquireAuthInfo_decides hmap hold h).1

/-! ## Releases and ticks -/

/-- A release adds its usage to its node. -/
theorem releaseAuthInfo_leaves {i : ℕ} {usage : LocalUsage}
    (h : releaseAuthInfo s i usage = .ok t) :
    t.localTicker = s.localTicker ∧ t.loadedAuthMap = s.loadedAuthMap ∧
      t.authLocalMap = s.authLocalMap ∧ ∀ j n, s.localAuditNodePool.get j = some n →
        ∃ m, t.localAuditNodePool.get j = some m ∧
          m.audit = if j = i then addUsage n.audit usage else n.audit := by
  unfold releaseAuthInfo at h
  split at h
  · cases h
  next n hn =>
  dsimp only at h
  split at h
  · cases h
  next p hp =>
  cases h
  refine ⟨rfl, rfl, rfl, fun j m hm => ?_⟩
  simp only [dropReference, Storage.get_set_self hn] at hp
  split at hp
  · cases hp
  cases hp
  have hset := Storage.get_set_self hn { n with audit := addUsage n.audit usage }
  dsimp only
  rw [Storage.get_set hset]
  by_cases hj : j = i
  · subst hj
    rw [hn] at hm
    cases hm
    exact ⟨_, if_pos rfl, by rw [if_pos rfl]⟩
  · rw [if_neg hj, Storage.get_set_of_ne _ hj]
    exact ⟨m, hm, by rw [if_neg hj]⟩

theorem reportNode_leaves {i : ℕ} (h : reportNode s i = .ok t) :
    t.localTicker = s.localTicker ∧ t.loadedAuthMap = s.loadedAuthMap ∧
      t.authLocalMap = s.authLocalMap := by
  unfold reportNode at h
  split at h
  · cases h
  · dsimp only at h
    split at h <;> cases h <;> exact ⟨rfl, rfl, rfl⟩

theorem checkAndReportLocalAudit_leaves {fuel : ℕ}
    (h : checkAndReportLocalAudit T fuel s = .ok t) :
    t.localTicker = s.localTicker ∧ t.loadedAuthMap = s.loadedAuthMap ∧
      t.authLocalMap = s.authLocalMap := by
  induction fuel generalizing s with
  | zero =>
    rw [checkAndReportLocalAudit] at h
    split at h
    · cases h
      exact ⟨rfl, rfl, rfl⟩
    · cases h
  | succ fuel ih =>
    rw [checkAndReportLocalAudit] at h
    split at h
    · cases h
      exact ⟨rfl, rfl, rfl⟩
    · split at h
      · cases h
      · next u hu =>
        obtain ⟨h₁, h₂, h₃⟩ := reportNode_leaves hu
        obtain ⟨h₁', h₂', h₃'⟩ := ih h
        exact ⟨h₁'.trans h₁, h₂'.trans h₂, h₃'.trans h₃⟩

/-- A tick sets the clock and leaves the records. -/
theorem tick_leaves {nowMS : ℕ} (h : tick T s nowMS = .ok t) :
    t.localTicker = nowMS ∧ t.loadedAuthMap = s.loadedAuthMap ∧
      t.authLocalMap = s.authLocalMap :=
  checkAndReportLocalAudit_leaves h

end AuthLocalService

end ProxyPlatform
