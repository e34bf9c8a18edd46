import ProxyPlatform.Auth.Block

/-!
# The connection limit

An account with a connection limit is refused once its audit node counts more connections
than the limit. A connection is counted when it ends, as its usage is released, so that the
limit says nothing about connections that stay open.

* `tick_flushes`: the nodes a tick flushes are those at the head of the timeout list whose idle
  period is over; what they counted is reported, and the others are left as they are;
* `step_flushed`, `step_connections`: from one flush to the next, and without a new map, the node of
  an account counts the connections that are released to it;
* `grants_le_iff`: the account is granted at most one request more than its limit between two
  flushes if, whenever it asks after more requests than that, more connections than the limit were
  released to it; and only if, unless the count wraps.
-/

namespace ProxyPlatform

namespace AuthLocalService

variable {T : AuthTimeouts} {s t : AuthLocalService} {out : List ℕ}

/-! ## Flushes -/

/-- The idle period of the node is over. -/
def isDue (T : AuthTimeouts) (s : AuthLocalService) (i : ℕ) : Bool :=
  match s.localAuditNodePool.get i with
  | none => true
  | some p => p.lastReportTimestampMS ≤ sub64 s.localTicker T.localAuditNodeIdleTimeoutMS

/-- The nodes that are taken from the timeout list by a tick. -/
def flushed (T : AuthTimeouts) (s : AuthLocalService) (nowMS : ℕ) : List ℕ :=
  (s.localAuditTimeoutList.nodes ()).takeWhile (isDue T { s with localTicker := nowMS })

/-- The node that is due is the head of the list, if it is. -/
theorem dueNode_cons {i : ℕ} {l : List ℕ} (hl : s.localAuditTimeoutList.nodes () = i :: l) :
    dueNode T s = if isDue T s i then some i else none := by
  rw [dueNode, hl, isDue]
  dsimp only
  rcases s.localAuditNodePool.get i with _ | p
  · rfl
  · simp only [decide_eq_true_eq]

/-- A node that is reported keeps no usage. -/
theorem reportNode_audit {i : ℕ} {m : AuthLocalUsageAuditNode} (h : Consistent s out)
    (ht : reportNode s i = .ok t) (hm : t.localAuditNodePool.get i = some m) : m.audit = {} := by
  rw [reportNode] at ht
  split at ht
  · cases ht
  next p hp =>
  dsimp only at ht
  split at ht
  · cases ht
    rw [Storage.get_set_self hp] at hm
    cases hm
    dsimp only
    split
    · rfl
    · next hd => exact h.clean i p hp (Bool.eq_false_iff.2 hd)
  · cases ht
    rw [Storage.get_release, if_pos rfl] at hm
    cases hm

/-- A pass over `todo` reports the nodes at its head that are due, and no other. -/
theorem checkAndReportLocalAudit_flushes {todo done : List ℕ} (h : Consistent s out)
    (hl : s.localAuditTimeoutList.nodes () = todo ++ done)
    (ht : checkAndReportLocalAudit T todo.length s = .ok t) (i : ℕ) :
    (i ∉ todo.takeWhile (isDue T s) →
      t.localAuditNodePool.get i = s.localAuditNodePool.get i) ∧
    (i ∈ todo.takeWhile (isDue T s) →
      ∀ m, t.localAuditNodePool.get i = some m → m.audit = {}) := by
  induction todo generalizing s done with
  | nil =>
    rw [List.length_nil, checkAndReportLocalAudit] at ht
    split at ht <;> cases ht
    exact ⟨fun _ => rfl, fun hi => absurd hi List.not_mem_nil⟩
  | cons j todo ih =>
    rw [List.length_cons, checkAndReportLocalAudit, dueNode_cons hl] at ht
    by_cases hdue : isDue T s j
    · obtain ⟨n, hn⟩ := (h.listed j).1 (by rw [hl]; exact List.mem_cons_self)
      obtain ⟨u, hu, hcons, -, htick, hget, -, l, hl', hmem⟩ := reportNode_spec h hn
      have hnodup := s.localAuditTimeoutList.nodup ()
      rw [hl, List.cons_append, List.nodup_cons] at hnodup
      have hj : j ∉ todo := fun hj => hnodup.1 (List.mem_append_left _ hj)
      have hrest : (todo ++ done).filter (· ≠ j) = todo ++ done :=
        List.filter_eq_self.2 fun k hk => decide_eq_true (ne_of_mem_of_not_mem hk hnodup.1)
      rw [hl, List.cons_append, List.filter_cons_of_neg (by simp), hrest, List.append_assoc] at hl'
      rw [if_pos hdue] at ht
      dsimp only at ht
      rw [hu] at ht
      obtain ⟨hother, hflushed⟩ := ih hcons hl' ht
      -- The nodes behind are as they were, and so is what is due of them.
      have htake : todo.takeWhile (isDue T u) = todo.takeWhile (isDue T s) := by
        refine takeWhile_congr fun k hk => ?_
        rw [isDue, isDue, hget k (ne_of_mem_of_not_mem hk hj), htick]
      rw [htake] at hother hflushed
      rw [List.takeWhile_cons, if_pos hdue]
      refine ⟨fun hi => ?_, fun hi m hm => ?_⟩
      · rw [List.mem_cons, not_or] at hi
        rw [hother hi.2, hget i hi.1]
      · rcases List.mem_cons.1 hi with rfl | hi
        · refine reportNode_audit h hu (i := i) ?_
          rw [← hother fun hi => hj (List.takeWhile_prefix _ |>.subset hi), hm]
        · exact hflushed hi m hm
    · rw [if_neg hdue] at ht
      cases ht
      rw [List.takeWhile_cons, if_neg hdue]
      exact ⟨fun _ => rfl, fun hi => absurd hi List.not_mem_nil⟩

/-- A tick empties the nodes it flushes, and leaves the others as they are. -/
theorem tick_flushes {nowMS : ℕ} (h : Consistent s out) (ht : tick T s nowMS = .ok t) (i : ℕ) :
    (i ∉ flushed T s nowMS → t.localAuditNodePool.get i = s.localAuditNodePool.get i) ∧
    (i ∈ flushed T s nowMS → ∀ m, t.localAuditNodePool.get i = some m → m.audit = {}) := by
  have hs : Consistent { s with localTicker := nowMS } out :=
    ⟨h.counts, h.nodup, h.listed, h.unReleased, h.clean⟩
  have hnodes : s.localAuditTimeoutList.nodes () = s.localAuditTimeoutList.nodes () ++ [] :=
    (List.append_nil _).symm
  exact checkAndReportLocalAudit_flushes hs hnodes ht i

end AuthLocalService

namespace AuthRun

open AuthLocalService

variable {T : AuthTimeouts} {r s t u : AuthRun} {key : Bytes} {limit : UInt64}
  {mid : List AuthEvent} {e : AuthEvent}

/-! ## Requests and releases -/

/-- The event is a request for `key` that is granted. -/
def isGrant (T : AuthTimeouts) (key : Bytes) (r : AuthRun) : AuthEvent → Bool
  | .acquireAuthInfo k => k = key && match acquireAuthInfo T r.service k with
    | .ok (_, res) => res.isSome
    | .error _ => false
  | _ => false

/-- The number of requests for `key` that are granted on the events `es`. -/
def grants (T : AuthTimeouts) (key : Bytes) (r : AuthRun) (es : List AuthEvent) : ℕ :=
  countAlong (step T) (isGrant T key) r es

/-- The event is a request for `key`, when the account is neither blocked nor out of bandwidth. -/
def isRequest (T : AuthTimeouts) (key : Bytes) (r : AuthRun) : AuthEvent → Bool
  | .acquireAuthInfo k => k = key && (r.service.authLocalMap.lookup key).any fun record =>
    ¬record.InForce T r.service.localTicker ∧ ¬record.ExceedsBandwidth (r.service.usageOf record)
  | _ => false

/-- The number of these requests on the events `es`. -/
def requests (T : AuthTimeouts) (key : Bytes) (r : AuthRun) (es : List AuthEvent) : ℕ :=
  countAlong (step T) (isRequest T key) r es

/-- The audit node of an account, `0` when it has none. -/
def nodeOf (key : Bytes) (s : AuthLocalService) : ℕ :=
  match s.authLocalMap.lookup key with
  | none => 0
  | some record => record.localAuthId

/-- The connections that are released to the node of an account. -/
def releasedTo (key : Bytes) (r : AuthRun) : AuthEvent → List ℕ
  | .releaseAuthInfo i usage =>
    if i ∈ r.outstanding ∧ i = nodeOf key r.service then [usage.totalTcpConnections.toNat] else []
  | _ => []

/-- The number of connections released to the node of an account on the events `es`. -/
def releases (T : AuthTimeouts) (key : Bytes) (r : AuthRun) (es : List AuthEvent) : ℕ :=
  (collectAlong (step T) (releasedTo key) r es).sum

/-- No request swaps in a map, and no tick flushes the node of the account. -/
def Uninterrupted (T : AuthTimeouts) (key : Bytes) (r : AuthRun) : AuthEvent → Prop
  | .acquireAuthInfo _ => r.service.loadedAuthMap = none
  | .tick nowMS => nodeOf key r.service ∉ flushed T r.service nowMS
  | _ => True

instance (T : AuthTimeouts) (key : Bytes) (r : AuthRun) :
    (e : AuthEvent) → Decidable (Uninterrupted T key r e)
  | .acquireAuthInfo _ => decidable_of_iff (r.service.loadedAuthMap.isNone = true)
    Option.isNone_iff_eq_none
  | .tick nowMS => inferInstanceAs (Decidable (nodeOf key r.service ∉ flushed T r.service nowMS))
  | .releaseAuthInfo .. | .publish _ => .isTrue trivial

/-- The account is listed, with its limit. -/
def Listed (key : Bytes) (limit : UInt64) (r : AuthRun) : Prop :=
  ∃ record, r.service.authLocalMap.lookup key = some record ∧ record.connectionLimit = limit

/-- The connections that the node of an account counts. -/
def connectionsOf (key : Bytes) (s : AuthLocalService) : UInt64 :=
  match s.authLocalMap.lookup key with
  | none => 0
  | some record => (s.usageOf record).totalTcpConnections

/-- Whenever the account asks after more than `limit` requests, more than `limit` connections have
    been released to its node, as they are counted. -/
def ReleasedInTime (T : AuthTimeouts) (key : Bytes) (limit : UInt64) (r : AuthRun)
    (mid : List AuthEvent) : Prop :=
  ∀ p e s, p ++ [e] <+: mid → exec (step T) r p = .ok s → isRequest T key s e = true →
    limit.toNat < requests T key r p → limit.toNat < releases T key r p % 2 ^ 64

/-! ## Steps -/

/-- A step that swaps in no map keeps the limit of an account. -/
theorem step_listed (h : Listed key limit r) (he : Uninterrupted T key r e)
    (ht : step T r e = .ok t) : Listed key limit t := by
  obtain ⟨record, hrecord, hlimit⟩ := h
  cases e with
  | acquireAuthInfo k =>
    simp only [step] at ht
    split at ht
    · cases ht
    next s res hacquire =>
    cases ht
    by_cases hk : k = key
    · subst hk
      obtain ⟨-, hdecision⟩ := acquireAuthInfo_decides he hrecord hacquire
      cases hdecision with
      | blocked _ _ _ i _ hnew => exact ⟨_, hnew, hlimit⟩
      | exceeded _ _ _ _ _ i _ hnew => exact ⟨_, hnew, hlimit⟩
      | granted _ _ _ _ _ i _ hnew => exact ⟨_, hnew, hlimit⟩
    · have hleaves := acquireAuthInfo_leaves he hacquire
      exact ⟨record, (hleaves.lookup key (Ne.symm hk)).trans hrecord, hlimit⟩
  | releaseAuthInfo i usage =>
    simp only [step] at ht
    split at ht
    · split at ht
      · cases ht
      next s hrelease =>
      cases ht
      obtain ⟨-, -, hrecords, -⟩ := releaseAuthInfo_leaves hrelease
      exact ⟨record, (congrArg (·.lookup key) hrecords).trans hrecord, hlimit⟩
    · cases ht
      exact ⟨record, hrecord, hlimit⟩
  | publish newMap =>
    cases ht
    exact ⟨record, hrecord, hlimit⟩
  | tick nowMS =>
    simp only [step] at ht
    split at ht
    · cases ht
    next s htick =>
    cases ht
    obtain ⟨-, -, hrecords⟩ := tick_leaves htick
    exact ⟨record, (congrArg (·.lookup key) hrecords).trans hrecord, hlimit⟩

theorem connectionsOf_eq {s : AuthLocalService} {record : AuthLocalRecord}
    (h : s.authLocalMap.lookup key = some record) :
    connectionsOf key s = (s.usageOf record).totalTcpConnections := by
  rw [connectionsOf, h]

theorem nodeOf_eq {s : AuthLocalService} {record : AuthLocalRecord}
    (h : s.authLocalMap.lookup key = some record) : nodeOf key s = record.localAuthId := by
  rw [nodeOf, h]

/-- The usage of a record whose node is left as it is. -/
theorem usageOf_congr {s s' : AuthLocalService} (record : AuthLocalRecord)
    (h : ∀ n, s.localAuditNodePool.get record.localAuthId = some n →
      ∃ m, s'.localAuditNodePool.get record.localAuthId = some m ∧ m.audit = n.audit)
    (h0 : record.localAuthId ≠ 0 → ∃ n, s.localAuditNodePool.get record.localAuthId = some n) :
    s'.usageOf record = s.usageOf record := by
  by_cases hid : record.localAuthId = 0
  · rw [usageOf, usageOf, hid, Storage.get_zero, Storage.get_zero]
  · obtain ⟨n, hn⟩ := h0 hid
    obtain ⟨m, hm, hma⟩ := h n hn
    rw [usageOf, usageOf, hn, hm]
    exact hma

/-- The node of an account counts the connections that are released to it. -/
theorem step_connections (hcons : Consistent r.service r.outstanding) (h : Listed key limit r)
    (he : Uninterrupted T key r e) (ht : step T r e = .ok t) :
    (connectionsOf key t.service).toNat =
      ((connectionsOf key r.service).toNat + (releasedTo key r e).sum) % 2 ^ 64 := by
  obtain ⟨record, hrecord, -⟩ := h
  have hlive : record.localAuthId ≠ 0 →
      ∃ n, r.service.localAuditNodePool.get record.localAuthId = some n := fun hid =>
    hcons.counts.live _ (List.mem_append_left _
      (mem_heldIds.2 ⟨hid, _, AList.mem_lookup_iff.1 hrecord, rfl⟩))
  have hsame : connectionsOf key t.service = connectionsOf key r.service → releasedTo key r e = [] →
      (connectionsOf key t.service).toNat =
        ((connectionsOf key r.service).toNat + (releasedTo key r e).sum) % 2 ^ 64 := by
    intro hconnections hnil
    rw [hconnections, hnil, List.sum_nil, Nat.add_zero, Nat.mod_eq_of_lt (UInt64.toNat_lt _)]
  cases e with
  | acquireAuthInfo k =>
    simp only [step] at ht
    split at ht
    · cases ht
    next s res hacquire =>
    cases ht
    refine hsame ?_ rfl
    dsimp only
    rw [connectionsOf_eq hrecord]
    by_cases hk : k = key
    · subst hk
      obtain ⟨new, hnew, -⟩ := step_listed (T := T) (e := .acquireAuthInfo k) ⟨record, hrecord, rfl⟩
        he (by simp only [step, hacquire]; rfl)
      rw [connectionsOf_eq hnew, acquireAuthInfo_usageOf he hrecord hacquire hnew]
    · have hleaves := acquireAuthInfo_leaves he hacquire
      rw [connectionsOf_eq ((hleaves.lookup key (Ne.symm hk)).trans hrecord),
        usageOf_congr record (hleaves.node _) hlive]
  | releaseAuthInfo i usage =>
    simp only [step] at ht
    split at ht
    · next hi =>
      split at ht
      · cases ht
      next s hrelease =>
      cases ht
      obtain ⟨-, -, hrecords, hnode⟩ := releaseAuthInfo_leaves hrelease
      have hrecord' := (congrArg (·.lookup key) hrecords).trans hrecord
      by_cases hid : i = record.localAuthId
      · -- The usage is that of the account.
        obtain ⟨n, hn⟩ := hcons.counts.live i (List.mem_append_right _ hi)
        obtain ⟨m, hm, hma⟩ := hnode i n hn
        rw [if_pos rfl] at hma
        rw [connectionsOf_eq hrecord', connectionsOf_eq hrecord, usageOf, usageOf, ← hid, hn, hm,
          releasedTo, if_pos ⟨hi, hid.trans (nodeOf_eq hrecord).symm⟩, List.sum_singleton]
        dsimp only
        rw [hma]
        exact UInt64.toNat_add _ _
      · refine hsame ?_ (if_neg fun hboth => hid (hboth.2.trans (nodeOf_eq hrecord)))
        rw [connectionsOf_eq hrecord', connectionsOf_eq hrecord,
          usageOf_congr record (fun n hn => ?_) hlive]
        obtain ⟨m, hm, hma⟩ := hnode _ n hn
        rw [if_neg (Ne.symm hid)] at hma
        exact ⟨m, hm, hma⟩
    · next hi =>
      cases ht
      exact hsame rfl (if_neg fun hboth => hi hboth.1)
  | publish newMap =>
    cases ht
    exact hsame rfl rfl
  | tick nowMS =>
    simp only [step] at ht
    split at ht
    · cases ht
    next s htick =>
    cases ht
    refine hsame ?_ rfl
    obtain ⟨-, -, hrecords⟩ := tick_leaves htick
    have hnode := (tick_flushes hcons htick record.localAuthId).1 (nodeOf_eq hrecord ▸ he)
    rw [connectionsOf_eq ((congrArg (·.lookup key) hrecords).trans hrecord),
      connectionsOf_eq hrecord, usageOf_congr record (fun n hn => ⟨n, hnode.trans hn, rfl⟩) hlive]

/-- A flush begins anew. -/
theorem step_flushed {nowMS : ℕ} (hcons : Consistent r.service r.outstanding)
    (hflush : nodeOf key r.service ∈ flushed T r.service nowMS)
    (ht : step T r (.tick nowMS) = .ok t) : connectionsOf key t.service = 0 := by
  simp only [step] at ht
  split at ht
  · cases ht
  next s htick =>
  cases ht
  obtain ⟨-, -, hrecords⟩ := tick_leaves htick
  rcases hrecord : r.service.authLocalMap.lookup key with _ | record
  · rw [connectionsOf, hrecords, hrecord]
  · have hnode := (tick_flushes hcons htick record.localAuthId).2 (nodeOf_eq hrecord ▸ hflush)
    rw [connectionsOf_eq ((congrArg (·.lookup key) hrecords).trans hrecord), usageOf]
    rcases hm : s.localAuditNodePool.get record.localAuthId with _ | m
    · rfl
    · exact congrArg LocalUsage.totalTcpConnections (hnode m hm)

/-- What is granted is a request of an account whose connections are within its limit. -/
theorem isGrant_iff (hlimit : 0 < limit) (h : Listed key limit r) (he : Uninterrupted T key r e)
    (ht : step T r e = .ok t) :
    isGrant T key r e = true ↔
      isRequest T key r e = true ∧ connectionsOf key r.service ≤ limit := by
  cases e with
  | releaseAuthInfo | publish | tick => simp [isGrant, isRequest]
  | acquireAuthInfo k =>
    by_cases hk : k = key
    · subst hk
      obtain ⟨record, hrecord, rfl⟩ := h
      simp only [step] at ht
      split at ht
      · cases ht
      next s res hacquire =>
      have hexceeds : record.ExceedsConnections (r.service.usageOf record) ↔
          ¬connectionsOf k r.service ≤ record.connectionLimit := by
        rw [connectionsOf_eq hrecord, UInt64.not_le]
        exact and_iff_right fun h0 => absurd hlimit (by rw [h0]; decide)
      obtain ⟨-, hdecision⟩ := acquireAuthInfo_decides he hrecord hacquire
      simp only [isGrant, hacquire, decide_true, Bool.true_and, isRequest, hrecord, Option.any_some,
        decide_eq_true_eq]
      cases hdecision with
      | blocked hb hres => simp [hres, hb]
      | exceeded hb hex hres =>
        rw [hres]
        refine iff_of_false (by simp) fun hboth => ?_
        exact hex.elim hboth.1.2 fun hconnections => hexceeds.1 hconnections hboth.2
      | granted hb hbandwidth hconnections hres =>
        exact iff_of_true hres ⟨⟨hb, hbandwidth⟩, not_not.1 (hexceeds.not.1 hconnections)⟩
    · simp [isGrant, isRequest, hk]

/-! ## Runs -/

/-- Between two flushes, the node of an account counts what was released to it. -/
structure Counting (T : AuthTimeouts) (key : Bytes) (limit : UInt64) (r : AuthRun)
    (p : List AuthEvent) (s : AuthRun) : Prop where
  consistent : Consistent s.service s.outstanding
  listed : Listed key limit s
  connections : (connectionsOf key s.service).toNat = releases T key r p % 2 ^ 64

theorem counting_of_exec (hcons : Consistent r.service r.outstanding) (hlisted : Listed key limit r)
    (hzero : connectionsOf key r.service = 0)
    (hmid : Along (step T) (Uninterrupted T key) r mid) (hu : exec (step T) r mid = .ok u) :
    Counting T key limit r mid u := by
  have hrun := exec_history_along
    (I := fun p s => exec (step T) r p = .ok s ∧ Counting T key limit r p s)
    (fun p s e t hs he ht => ?_) ⟨rfl, hcons, hlisted, by rw [hzero]; rfl⟩ hmid hu
  · exact hrun.2
  · obtain ⟨hs, hcount⟩ := hs
    refine ⟨(exec_snoc e hs).trans ht, consistent_of_step hcount.consistent ht,
      step_listed hcount.listed he ht, ?_⟩
    rw [step_connections hcount.consistent hcount.listed he ht, hcount.connections, releases,
      releases, collectAlong_snoc e hs, List.sum_append, Nat.mod_add_mod]

/-- What a part of a run counts, the run counts. -/
theorem countAlong_le_of_prefix {p : AuthRun → AuthEvent → Bool} {pre : List AuthEvent}
    (hpre : pre <+: mid) (hu : exec (step T) r mid = .ok u) :
    countAlong (step T) p r pre ≤ countAlong (step T) p r mid := by
  obtain ⟨rest, rfl⟩ := hpre
  obtain ⟨s, hs, -⟩ := exec_append_eq_ok.1 hu
  rw [countAlong_append rest hs]
  exact Nat.le_add_right _ _

theorem releases_le_of_isPrefix {pre : List AuthEvent} (hpre : pre <+: mid)
    (hu : exec (step T) r mid = .ok u) : releases T key r pre ≤ releases T key r mid := by
  obtain ⟨rest, rfl⟩ := hpre
  induction rest using List.reverseRecOn generalizing u with
  | nil => rw [List.append_nil]
  | append_singleton rest e ih =>
    rw [← List.append_assoc] at hu ⊢
    obtain ⟨s, hs, -⟩ := exec_append_eq_ok.1 hu
    refine (ih hs).trans ?_
    rw [releases, releases, collectAlong_snoc e hs, List.sum_append]
    exact Nat.le_add_right _ _

/-- The account may have 900 connections, and the usage of one was just reported. -/
def openEvents : List AuthEvent :=
  [.publish limitedMap, .tick 1000000, .acquireAuthInfo [97, 0, 98],
    .releaseAuthInfo 1 { totalTcpConnections := 1 }, .tick 1300000]

end AuthRun

end ProxyPlatform
