import ProxyPlatform.Audit.Service
import ProxyPlatform.Auth.Run

/-!
# What becomes of the usage

The authentication service bound to the audit service. Every report of usage is delivered
when it is made, and either is posted to a collector or, as there is none, is dropped:
`UsageRun.outcomes` has the reports in their order, each with the message posted for it.

* `Delivered`: the messages posted are those of the reports that found a collector, and
  what was reported is what was posted and what was dropped;
* `usage_accounted`: what was released is held, was posted, or was dropped, and a report is
  dropped if and only if the list of the collectors is empty when it is made.
-/

namespace ProxyPlatform

/-- An event of the two services. -/
inductive UsageEvent
  | auth (e : AuthEvent)
  | onServerListUpdated (call : ServerListCall)

/-- The two services. -/
structure UsageRun where
  auth : AuthRun
  audit : AuditService
  /-- The reports of usage so far, with the message posted for each, if one was. -/
  outcomes : List (AuditUsage × Option PPAuditCollect)

namespace UsageRun

open AuthLocalService

def init : UsageRun where
  auth := .init
  audit := .init
  outcomes := []

/-- A call of the authentication service, as it reaches the audit service. -/
def deliver (x : AuditService × List (AuditUsage × Option PPAuditCollect)) (call : AuditCall) :
    AuditService × List (AuditUsage × Option PPAuditCollect) :=
  (x.1.call call, match call with
    | .reportUsage u => x.2 ++
      [(u, if x.1.connections.size = 0 then none else some (AuditService.auditCollect u))]
    | .reportBlockAccount _ => x.2)

/-- A step of the two services. -/
def step (T : AuthTimeouts) (acquireId : TcpClientPool → ℕ) (r : UsageRun) :
    UsageEvent → Except Fault UsageRun
  | .auth e => match AuthRun.step T r.auth e with
    | .error x => .error x
    | .ok auth =>
      let new := auth.service.calls.drop r.auth.service.calls.length
      let (audit, outcomes) := new.foldl deliver (r.audit, r.outcomes)
      .ok { auth := auth, audit := audit, outcomes := outcomes }
  | .onServerListUpdated call => match r.audit.onServerListUpdated acquireId call with
    | .error x => .error x
    | .ok audit => .ok { r with audit := audit }

/-- The usage of an account in the messages posted. -/
def posted (outcomes : List (AuditUsage × Option PPAuditCollect)) (g : ℕ) (c : UsageCounter) :
    UInt64 :=
  (outcomes.map fun o => match o.2 with
    | none => 0
    | some m => if o.1.authId = g then m.counter c else 0).sum

/-- The usage of an account in the reports that found no collector. -/
def dropped (outcomes : List (AuditUsage × Option PPAuditCollect)) (g : ℕ) (c : UsageCounter) :
    UInt64 :=
  (outcomes.map fun o => match o.2 with
    | none => if o.1.authId = g then o.1.counter c else 0
    | some _ => 0).sum

/-- The usage posted in a `Cmd_AuditReport`. -/
def usageMessage (p : AuditPost) : Option PPAuditCollect :=
  match p.message with
  | .auditCollect m => if p.commandId = cmdAuditReport then some m else none
  | _ => none

/-! ## Deliveries -/

/-- What became of the calls made so far. -/
structure Delivered (calls : List AuditCall)
    (x : AuditService × List (AuditUsage × Option PPAuditCollect)) : Prop where
  reported : ∀ g c, reported calls g c = posted x.2 g c + dropped x.2 g c
  posts : x.1.posts.filterMap usageMessage = x.2.filterMap Prod.snd
  message : ∀ o ∈ x.2, ∀ m, o.2 = some m → m = AuditService.auditCollect o.1
  counted : (x.2.filter fun o => o.2.isNone).length ≤ x.1.noServerReport

variable {T : AuthTimeouts} {acquireId : TcpClientPool → ℕ} {r t : UsageRun} {calls new : List AuditCall}
  {x : AuditService × List (AuditUsage × Option PPAuditCollect)}

/-- What is posted for a report leaves the list of the collectors as it is. -/
theorem connections_call (s : AuditService) (call : AuditCall) :
    (s.call call).connections = s.connections := by
  have hpost (authId commandId message) :
      (s.post authId commandId message).connections = s.connections := by
    unfold AuditService.post
    split <;> rfl
  cases call with
  | reportUsage u => exact hpost _ _ _
  | reportBlockAccount b => exact hpost _ _ _

theorem Delivered.deliver (h : Delivered calls x) (call : AuditCall) :
    Delivered (calls ++ [call]) (deliver x call) := by
  obtain ⟨s, outcomes⟩ := x
  cases call with
  | reportBlockAccount b =>
    have hreported (g c) : AuthLocalService.reported [.reportBlockAccount b] g c = 0 := by
      simp [AuthLocalService.reported, callUsage]
    refine ⟨fun g c => ?_, ?_, h.message, ?_⟩
    · rw [reported_append, hreported, add_zero]
      exact h.reported g c
    · refine Eq.trans ?_ h.posts
      change (s.reportBlockAccount b).posts.filterMap usageMessage = _
      unfold AuditService.reportBlockAccount AuditService.post
      split
      · rfl
      · simp [usageMessage]
    · refine h.counted.trans ?_
      change s.noServerReport ≤ (s.reportBlockAccount b).noServerReport
      unfold AuditService.reportBlockAccount AuditService.post
      split
      · exact Nat.le_succ _
      · exact le_rfl
  | reportUsage u =>
    have hreported (g c) : AuthLocalService.reported [.reportUsage u] g c =
        if u.authId = g then u.counter c else 0 := by
      simp [AuthLocalService.reported, callUsage]
    by_cases hempty : s.connections.size = 0
    · have hdeliver : UsageRun.deliver (s, outcomes) (.reportUsage u) =
          ({ s with noServerReport := s.noServerReport + 1 }, outcomes ++ [(u, none)]) := by
        simp [UsageRun.deliver, AuditService.call, AuditService.reportUsage, AuditService.post, hempty]
      rw [hdeliver]
      refine ⟨fun g c => ?_, ?_, fun o ho m hm => ?_, ?_⟩
      · rw [reported_append, hreported, h.reported]
        simp [posted, dropped, add_assoc]
      · simpa using h.posts
      · rcases List.mem_append.1 ho with ho | ho
        · exact h.message o ho m hm
        · rw [List.mem_singleton.1 ho] at hm
          cases hm
      · simpa using h.counted
    · have hdeliver : UsageRun.deliver (s, outcomes) (.reportUsage u) =
          (s.reportUsage u, outcomes ++ [(u, some (AuditService.auditCollect u))]) := by
        simp [UsageRun.deliver, AuditService.call, hempty]
      rw [hdeliver]
      refine ⟨fun g c => ?_, ?_, fun o ho m hm => ?_, ?_⟩
      · rw [reported_append, hreported, h.reported]
        simp only [posted, dropped, List.map_append, List.map_singleton, List.sum_append,
          List.sum_singleton, counter_auditCollect, add_zero]
        ac_rfl
      · have hposts := h.posts
        simp only [AuditService.reportUsage, AuditService.post, hempty, if_false,
          List.filterMap_append, hposts]
        simp [usageMessage]
      · rcases List.mem_append.1 ho with ho | ho
        · exact h.message o ho m hm
        · rw [List.mem_singleton.1 ho] at hm ⊢
          exact (Option.some.inj hm).symm
      · simpa [AuditService.reportUsage, AuditService.post, hempty] using h.counted

theorem Delivered.foldl (h : Delivered calls x) (new : List AuditCall) :
    Delivered (calls ++ new) (new.foldl UsageRun.deliver x) := by
  induction new generalizing calls x with
  | nil => rwa [List.append_nil]
  | cons call new ih =>
    rw [List.append_cons]
    exact ih (h.deliver call)

/-- A report is dropped if and only if there is no collector when it is made. -/
theorem outcomes_foldl (new : List AuditCall) :
    ∃ fresh, (new.foldl UsageRun.deliver x).2 = x.2 ++ fresh ∧
      ∀ o ∈ fresh, (o.2 = none ↔ x.1.connections.size = 0) := by
  induction new generalizing x with
  | nil => exact ⟨[], (List.append_nil _).symm, fun _ ho => absurd ho List.not_mem_nil⟩
  | cons call new ih =>
    obtain ⟨fresh, hfresh, hnone⟩ := ih (x := deliver x call)
    rw [show (deliver x call).1.connections = x.1.connections from connections_call x.1 call] at hnone
    rw [List.foldl_cons, hfresh]
    cases call with
    | reportBlockAccount b => exact ⟨fresh, rfl, hnone⟩
    | reportUsage u =>
      refine ⟨_ :: fresh, List.append_assoc _ _ _, fun o ho => ?_⟩
      rcases List.mem_cons.1 ho with rfl | ho
      · by_cases hempty : x.1.connections.size = 0 <;> simp [hempty]
      · exact hnone o ho

/-! ## Runs -/

/-- The event of the authentication service, if it is one. -/
def authEvent : UsageEvent → Option AuthEvent
  | .auth e => some e
  | .onServerListUpdated .. => none

/-- What holds of a run of the two services. -/
structure Accounted (T : AuthTimeouts) (es : List UsageEvent) (r : UsageRun) : Prop where
  exec : exec (AuthRun.step T) .init (es.filterMap authEvent) = .ok r.auth
  delivered : Delivered r.auth.service.calls (r.audit, r.outcomes)

/-- A step adds to the calls made so far. -/
theorem exists_calls {r t : AuthRun} {e : AuthEvent} (h : Consistent r.service r.outstanding)
    (ht : AuthRun.step T r e = .ok t) : ∃ new, t.service.calls = r.service.calls ++ new := by
  rcases AuthRun.step_spec h e with hx | ⟨hx, -⟩ | ⟨u, hu, -, new, fresh, heff⟩
  · rw [hx] at ht
    cases ht
  · rw [hx] at ht
    cases ht
  · rw [hu] at ht
    cases ht
    exact ⟨new, heff.calls⟩

theorem Accounted.step {es : List UsageEvent} {e : UsageEvent} (h : Accounted T es r)
    (ht : step T acquireId r e = .ok t) : Accounted T (es ++ [e]) t := by
  cases e with
  | auth e =>
    simp only [UsageRun.step] at ht
    split at ht
    · cases ht
    next auth hauth =>
    cases ht
    obtain ⟨new, hnew⟩ := exists_calls (AuthRun.consistent_of_exec h.exec) hauth
    refine ⟨?_, ?_⟩
    · rw [List.filterMap_append]
      exact (exec_snoc e h.exec).trans hauth
    · have hfold := h.delivered.foldl new
      rw [← hnew] at hfold
      rw [hnew, List.drop_left, ← hnew]
      exact hfold
  | onServerListUpdated call =>
    simp only [UsageRun.step] at ht
    split at ht
    · cases ht
    next audit haudit =>
    cases ht
    have hposts : audit.posts = r.audit.posts ∧ audit.noServerReport = r.audit.noServerReport := by
      unfold AuditService.onServerListUpdated at haudit
      split at haudit
      · cases haudit
      · cases haudit
        exact ⟨rfl, rfl⟩
    refine ⟨?_, h.delivered.reported, ?_, h.delivered.message, ?_⟩
    · rw [List.filterMap_append]
      exact (List.append_nil _).symm ▸ h.exec
    · exact (congrArg (List.filterMap usageMessage) hposts.1).trans h.delivered.posts
    · exact h.delivered.counted.trans hposts.2.ge

theorem accounted_of_exec {es : List UsageEvent} (h : exec (step T acquireId) init es = .ok r) :
    Accounted T es r :=
  exec_history (fun _ _ _ _ h ht => h.step ht)
    ⟨rfl, fun _ _ => rfl, rfl, fun _ ho => absurd ho List.not_mem_nil, le_rfl⟩ h

/-- The usage released is held, was posted in a report, or was in a report that was dropped and
    counted: and reports are dropped while, and only while, no collector is known. -/
theorem usage_accounted (T : AuthTimeouts) (acquireId : TcpClientPool → ℕ) (es : List UsageEvent)
    (r : UsageRun) (h : exec (step T acquireId) init es = .ok r) :
    (∀ g c, held r.auth.service.localAuditNodePool g c + posted r.outcomes g c +
      dropped r.outcomes g c = AuthRun.releasedUsage r.auth.released g c) ∧
    r.audit.posts.filterMap usageMessage = r.outcomes.filterMap Prod.snd ∧
    (∀ o ∈ r.outcomes, ∀ m, o.2 = some m → m = AuditService.auditCollect o.1) ∧
    (r.outcomes.filter fun o => o.2.isNone).length ≤ r.audit.noServerReport ∧
    ∀ e t, step T acquireId r e = .ok t → ∃ fresh, t.outcomes = r.outcomes ++ fresh ∧
      ∀ o ∈ fresh, (o.2 = none ↔ r.audit.connections.size = 0) := by
  have hr := accounted_of_exec h
  refine ⟨fun g c => ?_, hr.delivered.posts, hr.delivered.message, hr.delivered.counted,
    fun e t ht => ?_⟩
  · rw [← AuthRun.collected_of_exec hr.exec, collected, hr.delivered.reported]
    ac_rfl
  · cases e with
    | auth e =>
      simp only [step] at ht
      split at ht
      · cases ht
      cases ht
      exact outcomes_foldl _
    | onServerListUpdated call =>
      simp only [step] at ht
      split at ht
      · cases ht
      cases ht
      exact ⟨[], (List.append_nil _).symm, fun _ ho => absurd ho List.not_mem_nil⟩

/-- A connection of the account 7 ends, and its usage is reported. -/
def usageEvents : List UsageEvent :=
  [.auth (.publish AuthRun.sampleMap), .auth (.tick 1000000), .auth (.acquireAuthInfo [97, 0, 98]),
    .auth (.releaseAuthInfo 1 { totalTcpBytesToClient := 5 }), .auth (.tick 1300000)]

theorem usage_accounted_sample :
    ∃ r, exec (step .release AuditConnections.nextId) init
        (.onServerListUpdated ⟨.auditCollector, fun _ => { serverId := 1 }, 1⟩ :: usageEvents) = .ok r ∧
      posted r.outcomes 7 .totalTcpBytesToClient = 5 ∧
      held r.auth.service.localAuditNodePool 7 .totalTcpBytesToClient +
        posted r.outcomes 7 .totalTcpBytesToClient + dropped r.outcomes 7 .totalTcpBytesToClient =
        AuthRun.releasedUsage r.auth.released 7 .totalTcpBytesToClient := by
  obtain ⟨r, hr, hrp⟩ := exists_ok_of_check (x := exec (step .release AuditConnections.nextId) init
      (.onServerListUpdated ⟨.auditCollector, fun _ => { serverId := 1 }, 1⟩ :: usageEvents))
    (p := fun r => posted r.outcomes 7 .totalTcpBytesToClient = 5) (by decide +kernel)
  exact ⟨r, hr, of_decide_eq_true hrp, (usage_accounted _ _ _ r hr).1 7 _⟩

/-- With no collector, the usage is neither held any more nor posted. -/
theorem usage_posted_counterexample :
    ¬∀ r, exec (step .release AuditConnections.nextId) init usageEvents = .ok r →
      held r.auth.service.localAuditNodePool 7 .totalTcpBytesToClient +
        posted r.outcomes 7 .totalTcpBytesToClient =
        AuthRun.releasedUsage r.auth.released 7 .totalTcpBytesToClient := by
  intro h
  obtain ⟨r, hr, hrp⟩ := exists_ok_of_check
    (x := exec (step .release AuditConnections.nextId) init usageEvents)
    (p := fun r => held r.auth.service.localAuditNodePool 7 .totalTcpBytesToClient +
      posted r.outcomes 7 .totalTcpBytesToClient = 0 ∧
      AuthRun.releasedUsage r.auth.released 7 .totalTcpBytesToClient = 5) (by decide +kernel)
  obtain ⟨hlost, hreleased⟩ := of_decide_eq_true hrp
  have heq := h r hr
  rw [hlost, hreleased] at heq
  exact absurd heq (by decide)

end UsageRun

end ProxyPlatform
