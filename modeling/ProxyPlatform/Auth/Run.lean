import ProxyPlatform.Auth.Service

/-!
# Runs of the authentication service

The events of the service are the requests and releases of its user, the maps the
loading thread publishes, and the ticks, in any order and with any times. The user
releases a result once: `AuthRun` keeps the results that are out, and the usage
released for each account.

* `referenceCount_exact`: the reference counts are exact across map reloads, and
  nothing the service follows was released;
* `usage_conserved`: what was released was reported or is still held, counter by
  counter, and a node takes no usage with it.
-/

namespace ProxyPlatform

/-- An event of the service. -/
inductive AuthEvent
  | acquireAuthInfo (accountPassView : Bytes)
  | releaseAuthInfo (localAuthId : ℕ) (usage : LocalUsage)
  /-- The loading thread publishes a map. -/
  | publish (newMap : LoadedAuthMap)
  | tick (nowMS : ℕ)

/-- The service, with what its user knows. -/
structure AuthRun where
  service : AuthLocalService
  /-- The results handed out and not released yet. -/
  outstanding : List ℕ
  /-- The usage released so far, with the account of the node it was released to. -/
  released : List (ℕ × LocalUsage)

namespace AuthRun

open AuthLocalService

def init : AuthRun where
  service := .init
  outstanding := []
  released := []

/-- The account of the node `i`. -/
def globalAuthIdOf (s : AuthLocalService) (i : ℕ) : ℕ :=
  match s.localAuditNodePool.get i with
  | none => 0
  | some n => n.globalAuthId

/-- A step of the service. A result that is not out is not released. -/
def step (T : AuthTimeouts) (r : AuthRun) : AuthEvent → Except Fault AuthRun
  | .acquireAuthInfo accountPassView => match acquireAuthInfo T r.service accountPassView with
    | .error x => .error x
    | .ok (s, res) => .ok { r with
      service := s
      outstanding := (res.map AuthResult.localAuthId).toList ++ r.outstanding }
  | .releaseAuthInfo i usage =>
    if i ∈ r.outstanding then
      match releaseAuthInfo r.service i usage with
      | .error x => .error x
      | .ok s => .ok {
        service := s
        outstanding := r.outstanding.erase i
        released := r.released ++ [(globalAuthIdOf r.service i, usage)] }
    else .ok r
  | .publish newMap => .ok { r with
      service := { r.service with loadedAuthMap := some newMap } }
  | .tick nowMS => match tick T r.service nowMS with
    | .error x => .error x
    | .ok s => .ok { r with service := s }

/-- The usage released for an account. -/
def releasedUsage (released : List (ℕ × LocalUsage)) (globalAuthId : ℕ) (c : UsageCounter) :
    UInt64 :=
  (released.map fun e => if e.1 = globalAuthId then e.2.counter c else 0).sum

theorem releasedUsage_append (l l' : List (ℕ × LocalUsage)) (g : ℕ) (c : UsageCounter) :
    releasedUsage (l ++ l') g c = releasedUsage l g c + releasedUsage l' g c := by
  simp [releasedUsage]

/-- What a step reports and releases: a node that is freed leaves no usage behind. -/
structure Effect (r t : AuthRun) (new : List AuditCall) (fresh : List (ℕ × LocalUsage)) : Prop where
  calls : t.service.calls = r.service.calls ++ new
  released : t.released = r.released ++ fresh
  collected : ∀ g c, collected t.service g c = collected r.service g c + releasedUsage fresh g c
  freed : ∀ i n, r.service.localAuditNodePool.get i = some n →
    t.service.localAuditNodePool.get i = none →
    n.audit = {} ∨ ∃ u, .reportUsage u ∈ new ∧ u.authId = n.globalAuthId ∧
      ∀ c, u.counter c = n.audit.counter c

/-- An operation that adds no usage. -/
theorem effect_of_flushes {r t : AuthRun} (h : Flushes r.service t.service)
    (hr : t.released = r.released) : ∃ new, Effect r t new [] := by
  obtain ⟨new, hcalls, hnode⟩ := h.calls
  refine ⟨new, hcalls, by rw [hr, List.append_nil], fun g c => ?_, fun i n hn ht => ?_⟩
  · rw [h.collected, releasedUsage, List.map_nil, List.sum_nil, add_zero]
  · rcases hnode i n hn with ⟨m, hm, -⟩ | hrep
    · rw [ht] at hm
      cases hm
    · exact hrep

/-- What a step does from a consistent state, and when it fails. -/
theorem step_spec {T : AuthTimeouts} {r : AuthRun} (h : Consistent r.service r.outstanding)
    (e : AuthEvent) :
    step T r e = .error .runtimeAssert ∨
    (step T r e = .error .noReturn ∧ ∃ nowMS, e = .tick nowMS ∧
      (T.localAuditNodeIdleTimeoutMS = 0 ∨ nowMS < T.localAuditNodeIdleTimeoutMS)) ∨
    ∃ t, step T r e = .ok t ∧ Consistent t.service t.outstanding ∧
      ∃ new fresh, Effect r t new fresh := by
  cases e with
  | acquireAuthInfo key =>
    rcases acquireAuthInfo_spec T key h with hfull | ⟨t, res, ht, hcons, hflush⟩
    · exact .inl (by simp only [step, hfull])
    · simp only [step, ht]
      refine .inr (.inr ⟨_, rfl, hcons, ?_⟩)
      obtain ⟨new, heff⟩ := effect_of_flushes (r := r)
        (t := ⟨t, (res.map AuthResult.localAuthId).toList ++ r.outstanding, r.released⟩) hflush rfl
      exact ⟨new, [], heff⟩
  | releaseAuthInfo i usage =>
    by_cases hi : i ∈ r.outstanding
    · have hperm : Consistent r.service (i :: r.outstanding.erase i) :=
        { h with counts := h.counts.perm ((List.perm_cons_erase hi).append_left _) }
      obtain ⟨t, n, hn, ht, hcons, hcol, hcalls, hlive⟩ := releaseAuthInfo_spec hperm usage
      simp only [step, hi, if_true, ht]
      refine .inr (.inr ⟨_, rfl, hcons, [], [(globalAuthIdOf r.service i, usage)],
        ?_, rfl, fun g c => ?_, fun j m hm hnone => ?_⟩)
      · rw [hcalls, List.append_nil]
      · simp only [hcol, releasedUsage, globalAuthIdOf, hn, List.map_singleton, List.sum_singleton]
      · obtain ⟨k, hk⟩ := hlive j m hm
        rw [hnone] at hk
        cases hk
    · refine .inr (.inr ⟨r, by simp only [step, hi, if_false], h, ?_⟩)
      obtain ⟨new, heff⟩ := effect_of_flushes (.refl r.service) (rfl : r.released = r.released)
      exact ⟨new, [], heff⟩
  | publish newMap =>
    refine .inr (.inr ⟨_, rfl, ⟨h.counts, h.nodup, h.listed, h.unReleased, h.clean⟩, [], [], ?_⟩)
    refine ⟨(List.append_nil _).symm, (List.append_nil _).symm, fun g c => (add_zero _).symm,
      fun i n hn hnone => ?_⟩
    rw [show r.service.localAuditNodePool.get i = none from hnone] at hn
    cases hn
  | tick nowMS =>
    rcases tick_spec T nowMS h with hno | ⟨t, ht, hcons, hflush⟩
    · refine .inr (.inl ⟨by simp only [step, hno], nowMS, rfl, ?_⟩)
      by_contra hclock
      push Not at hclock
      obtain ⟨t, ht⟩ := tick_returns h (Nat.pos_of_ne_zero hclock.1) hclock.2
      rw [hno] at ht
      cases ht
    · simp only [step, ht]
      refine .inr (.inr ⟨_, rfl, hcons, ?_⟩)
      obtain ⟨new, heff⟩ := effect_of_flushes (r := r) (t := ⟨t, r.outstanding, r.released⟩)
        hflush rfl
      exact ⟨new, [], heff⟩

variable {T : AuthTimeouts} {r : AuthRun} {es : List AuthEvent}

theorem consistent_of_step {e : AuthEvent} {t : AuthRun} (h : Consistent r.service r.outstanding)
    (ht : step T r e = .ok t) : Consistent t.service t.outstanding := by
  rcases step_spec h e with hx | ⟨hx, -⟩ | ⟨u, hu, hcons, -⟩
  · rw [hx] at ht
    cases ht
  · rw [hx] at ht
    cases ht
  · rw [hu] at ht
    cases ht
    exact hcons

/-- The invariant holds in every state a run reaches. -/
theorem consistent_of_exec (h : exec (step T) init es = .ok r) :
    Consistent r.service r.outstanding :=
  exec_invariant (I := fun r : AuthRun => Consistent r.service r.outstanding)
    (fun _ _ _ hr ht => consistent_of_step hr ht) init_consistent h

/-- Whatever was released was reported or is still held. -/
theorem collected_of_exec (h : exec (step T) init es = .ok r) (g : ℕ) (c : UsageCounter) :
    collected r.service g c = releasedUsage r.released g c := by
  refine (exec_invariant (I := fun r : AuthRun => Consistent r.service r.outstanding ∧
    ∀ g c, collected r.service g c = releasedUsage r.released g c) (fun r e t hr ht => ?_)
    ⟨init_consistent, fun g c => rfl⟩ h).2 g c
  rcases step_spec hr.1 e with hx | ⟨hx, -⟩ | ⟨u, hu, hcons, new, fresh, heff⟩
  · rw [hx] at ht
    cases ht
  · rw [hx] at ht
    cases ht
  · rw [hu] at ht
    cases ht
    refine ⟨hcons, fun g c => ?_⟩
    rw [heff.collected, hr.2, heff.released, releasedUsage_append]

/-- In a map where no two records share a node, the records count a node once. -/
theorem count_heldIds {m : AuthLocalMap} (h : (heldIds m).Nodup) {i : ℕ} (hi : i ≠ 0) :
    (heldIds m).count i = if ∃ e ∈ m.entries, e.2.localAuthId = i then 1 else 0 := by
  split
  · next hex => exact List.count_eq_one_of_mem h (mem_heldIds.2 ⟨hi, hex⟩)
  · next hex => exact List.count_eq_zero_of_not_mem fun hmem => hex (mem_heldIds.1 hmem).2

/-- In a map where no two records share a node, a node tells its record. -/
theorem eq_of_heldIds_nodup {m : AuthLocalMap} (h : (heldIds m).Nodup)
    {e f : Σ _ : Bytes, AuthLocalRecord} (he : e ∈ m.entries) (hf : f ∈ m.entries)
    (hid : e.2.localAuthId = f.2.localAuthId) (h0 : e.2.localAuthId ≠ 0) : e = f := by
  by_contra hne
  have hfil : ((m.entries.filter fun e => e.2.localAuthId ≠ 0).map
      fun e => e.2.localAuthId).Nodup := by
    rw [heldIds, List.filter_map] at h
    exact h
  exact hne (List.inj_on_of_nodup_map hfil
    (List.mem_filter.2 ⟨he, decide_eq_true h0⟩)
    (List.mem_filter.2 ⟨hf, decide_eq_true (hid ▸ h0)⟩) hid)

/-- The reference count of every live node is the number of records (none or one) and of
    unreleased results that refer to it, and all of these refer to live nodes. A run only
    fails when the pool is full, or when a tick is earlier than the idle period. -/
theorem referenceCount_exact (T : AuthTimeouts) (es : List AuthEvent) :
    (∀ r, exec (step T) init es = .ok r →
      (∀ i n, r.service.localAuditNodePool.get i = some n → n.localAuthId = i ∧
        n.referenceCount =
          (if ∃ e ∈ r.service.authLocalMap.entries, e.2.localAuthId = i then 1 else 0) +
            r.outstanding.count i) ∧
      (∀ e ∈ r.service.authLocalMap.entries, ∀ f ∈ r.service.authLocalMap.entries,
        e.2.localAuthId = f.2.localAuthId → e.2.localAuthId ≠ 0 → e = f) ∧
      (∀ e ∈ r.service.authLocalMap.entries, e.2.localAuthId ≠ 0 →
        ∃ n, r.service.localAuditNodePool.get e.2.localAuthId = some n) ∧
      (∀ i ∈ r.outstanding, ∃ n, r.service.localAuditNodePool.get i = some n) ∧
      r.service.audit.unReleasedAuthInfoCount = r.service.localAuditNodePool.size) ∧
    ∀ x, exec (step T) init es = .error x → x = .runtimeAssert ∨
      x = .noReturn ∧ ∃ nowMS, .tick nowMS ∈ es ∧
        (T.localAuditNodeIdleTimeoutMS = 0 ∨ nowMS < T.localAuditNodeIdleTimeoutMS) := by
  constructor
  · intro r h
    have hr := consistent_of_exec h
    refine ⟨fun i n hn => ?_, fun e he f hf => eq_of_heldIds_nodup hr.nodup he hf,
      fun e he h0 => ?_, fun i hi => ?_, hr.unReleased⟩
    · obtain ⟨hid, hcount⟩ := hr.counts.count hn
      have hi : i ≠ 0 := (Storage.pos_of_get hn).ne'
      rw [List.count_append, count_heldIds hr.nodup hi] at hcount
      exact ⟨hid, hcount⟩
    · exact hr.counts.live _ (List.mem_append_left _ (mem_heldIds.2 ⟨h0, e, he, rfl⟩))
    · exact hr.counts.live i (List.mem_append_right _ hi)
  · intro x h
    obtain ⟨pre, e, t, hpre, ht, hx⟩ := exec_eq_error h
    rcases step_spec (consistent_of_exec ht) e with hx' | ⟨hx', nowMS, rfl, hclock⟩ | ⟨u, hu, -⟩
    · rw [hx] at hx'
      exact .inl (Except.error.inj hx')
    · rw [hx] at hx'
      exact .inr ⟨Except.error.inj hx', nowMS, hpre.subset (by simp), hclock⟩
    · rw [hx] at hu
      cases hu

/-- A map with the account 7 under the user name `a` and the password `b`. -/
def sampleMap : LoadedAuthMap where
  records := AList.singleton [97, 0, 98] { globalAuthId := 7 }
  fresh := by
    intro e he
    obtain rfl := List.mem_singleton.1 he
    exact ⟨rfl, rfl⟩

/-- An authentication, a reload that loses the account, a second authentication that
    finds nothing, and a tick after the idle period. -/
def sampleEvents : List AuthEvent :=
  [.publish sampleMap, .acquireAuthInfo [97, 0, 98], .publish ⟨∅, by simp⟩,
    .acquireAuthInfo [97, 0, 98], .tick 300000]

theorem referenceCount_exact_sample :
    ∃ r, exec (step .release) init sampleEvents = .ok r ∧ r.outstanding = [1] ∧
      r.service.audit.unReleasedAuthInfoCount = r.service.localAuditNodePool.size := by
  obtain ⟨r, hr, hout⟩ := exists_ok_of_check (x := exec (step .release) init sampleEvents)
    (p := fun r => r.outstanding = [1]) (by decide +kernel)
  exact ⟨r, hr, of_decide_eq_true hout,
    ((referenceCount_exact .release sampleEvents).1 r hr).2.2.2.2⟩

/-- For every account and counter, the usage reported and the usage held add up to the
    usage released. A step reports what its nodes lose, so nothing is reported twice,
    and a node that is freed held nothing or has it reported. -/
theorem usage_conserved (T : AuthTimeouts) (es : List AuthEvent) (r : AuthRun)
    (h : exec (step T) init es = .ok r) :
    (∀ g c, reported r.service.calls g c + held r.service.localAuditNodePool g c =
      releasedUsage r.released g c) ∧
    ∀ e t, step T r e = .ok t → ∃ new fresh, t.service.calls = r.service.calls ++ new ∧
      t.released = r.released ++ fresh ∧
      (∀ g c, reported new g c + held t.service.localAuditNodePool g c =
        held r.service.localAuditNodePool g c + releasedUsage fresh g c) ∧
      ∀ i n, r.service.localAuditNodePool.get i = some n →
        t.service.localAuditNodePool.get i = none →
        n.audit = {} ∨ ∃ u, .reportUsage u ∈ new ∧ u.authId = n.globalAuthId ∧
          ∀ c, u.counter c = n.audit.counter c := by
  refine ⟨collected_of_exec h, fun e t ht => ?_⟩
  rcases step_spec (consistent_of_exec h) e with hx | ⟨hx, -⟩ | ⟨u, hu, -, new, fresh, heff⟩
  · rw [hx] at ht
    cases ht
  · rw [hx] at ht
    cases ht
  · rw [hu] at ht
    cases ht
    refine ⟨new, fresh, heff.calls, heff.released, fun g c => ?_, heff.freed⟩
    have hcol := heff.collected g c
    rw [collected, collected, heff.calls, reported_append, add_assoc, add_assoc] at hcol
    exact add_left_cancel hcol

theorem usage_conserved_sample :
    ∃ r, exec (step .release) init (sampleEvents ++
        [.releaseAuthInfo 1 { totalTcpBytesToClient := 5 }, .tick 600000]) = .ok r ∧
      reported r.service.calls 7 .totalTcpBytesToClient = 5 ∧
      reported r.service.calls 7 .totalTcpBytesToClient +
        held r.service.localAuditNodePool 7 .totalTcpBytesToClient =
        releasedUsage r.released 7 .totalTcpBytesToClient := by
  obtain ⟨r, hr, hrep⟩ := exists_ok_of_check (x := exec (step .release) init (sampleEvents ++
      [.releaseAuthInfo 1 { totalTcpBytesToClient := 5 }, .tick 600000]))
    (p := fun r => reported r.service.calls 7 .totalTcpBytesToClient = 5) (by decide +kernel)
  exact ⟨r, hr, of_decide_eq_true hrep,
    (usage_conserved .release _ r hr).1 7 .totalTcpBytesToClient⟩

end AuthRun

end ProxyPlatform
