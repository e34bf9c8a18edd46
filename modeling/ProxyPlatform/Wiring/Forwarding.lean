import ProxyPlatform.Proxy.Supply
import ProxyPlatform.Relay.Lists
import ProxyPlatform.Wiring.Basic

/-!
# The ids that a body is forwarded with

`OnHttpBody` asserts that the client has a relay server and a relay connection when it passes a
body on. The relay that is in the same process has no server: `AcquireDevice` answers every
request with the id 0, so that the first of these assertions fails whenever it is made. The second
holds, as the relay completes a future with the id of a connection only.

* `Bound`: what holds of the two services in every state of a run (`bound_of_exec`);
* `Unforwarded`: no data is presented for a client that has a relay connection;
* `forwardingAsserts_iff`: exactly then the assertions hold.
-/

namespace ProxyPlatform

/-- The device of a relay that has no server. -/
def DeviceReference.IsLocal (d : DeviceReference) : Prop := d.relayServerId = 0

/-- The turns of the calls of the proxy that destroy nothing. -/
def RelayLabel.IsCall : RelayLabel → Prop
  | .quiet | .lookup | .create _ | .createUdp _ => True
  | _ => False

/-! ## What the relay supplies -/

namespace RelayLocalBindingService

variable {alive : ℕ → Bool} {s t : RelayLocalBindingService} {o : List ProxyEvent}
  {Q : DeviceReference → Prop}

/-- A future that is completed without a result. -/
theorem supplies_complete (handle : Option ℕ) :
    ∀ e ∈ complete alive handle none, ProxyEvent.Supplies Q e := by
  intro e he
  unfold complete at he
  split at he
  · cases he
  · split at he
    · rw [List.mem_singleton] at he
      rw [he]
      exact fun _ hr => by cases hr
    · cases he

/-- A turn of the relay completes futures with the ids of its connections. -/
theorem RelayTurn.supplies {l : RelayLabel} (h : RelayTurn alive s l o t) :
    ∀ e ∈ o, e.Supplies Q := by
  cases h with
  | fail => exact supplies_complete _
  | connected k c f hc =>
    intro e he
    rw [List.mem_singleton] at he
    rw [he]
    intro r hr
    cases hr
    exact (Storage.pos_of_get hc).ne'
  | data | closed | dataUdp =>
    intro e he
    rw [List.mem_singleton] at he
    rw [he]
    trivial
  | mark l k c o hc hmark hl =>
    rcases hl with ⟨-, rfl⟩ | ⟨-, rfl⟩ | ⟨-, -, -, rfl⟩
    · exact List.forall_mem_cons.2 ⟨trivial, supplies_complete _⟩
    · exact fun _ he => by cases he
    · exact supplies_complete _
  | _ => exact fun _ he => by cases he

theorem RelayTurns.supplies {L : RelayLabel → Prop} (h : RelayTurns alive L s o t) :
    ∀ e ∈ o, e.Supplies Q := by
  induction h with
  | refl => exact fun _ he => by cases he
  | tail h hl ht ih => exact List.forall_mem_append.2 ⟨ih, ht.supplies⟩

/-- No call of the proxy is answered with a relay connection at once. -/
theorem createConnection_ne_some {R : RelayPlatform} {d i f r : ℕ} {target : Target} :
    (createConnection R s d i target f).2 ≠ .ready (some r) := by
  cases target with
  | address b =>
    rw [createConnection]
    rcases createConnectionToAddress_cases (R := R) s d i f b with ⟨_, _, -, h⟩ | ⟨_, _, _, _, -, -, h⟩
    · rw [h]
      simp
    · rw [h]
      simp
  | hostname name port =>
    simp only [createConnection, createConnectionToHostname]
    split
    · simp
    · split
      · simp
      · simp

end RelayLocalBindingService

namespace ProxyWithRelay

open ProxyAccessService

variable {α : Type*} {R : RelayPlatform} {A : AuthServiceStub α} {P : Platform}
  {w w' : ProxyWithRelay α} {devices : List RelayLocalDevice} {a : α}

/-- The relay answers with devices of its own, and completes the futures later. -/
theorem wiredServices_supplies : (wiredServices R A).Supplies DeviceReference.IsLocal where
  acquireDevice s request f d h := by
    change Completion.ready (s.1.acquireDevice request) = _ at h
    rw [Completion.ready.injEq, RelayLocalBindingService.acquireDevice] at h
    split at h
    · cases h
    · obtain ⟨device, -, rfl⟩ := Option.map_eq_some_iff.1 h
      rfl
  createConnection _ _ _ _ _ _ _ h := absurd h RelayLocalBindingService.createConnection_ne_some

open RelayLocalBindingService in
/-- What the turns of these calls keep, the relay keeps when the proxy calls it, but to destroy a
    connection or a UDP channel. -/
theorem wiredServices_retains {I : RelayLocalBindingService → Prop}
    (hI : ∀ alive s l o t, l.IsCall → Tidy s → I s → RelayTurn alive s l o t → I t) :
    (wiredServices R A).Retains fun x => Tidy x.1 ∧ I x.1 := by
  -- The calls are steps of the relay.
  have hstep {s : RelayLocalBindingService} (e : RelayEvent) (he : ∀ l, e.Allows l → l.IsCall)
      (hs : Tidy s ∧ I s) : Tidy (RelayLocalBindingService.step R (fun _ => false) s e).1 ∧
        I (RelayLocalBindingService.step R (fun _ => false) s e).1 :=
    (step_turns R _ hs.1 e).keeps (fun _ _ _ _ hl => hI _ _ _ _ _ (he _ hl)) hs.1 hs.2
  refine ⟨fun s view t result h hs => ?_, fun s i usage t h hs => ?_, fun _ _ _ hs => hs,
    fun _ _ d k target f hs => hstep (.createConnection d k target f) ?_ hs,
    fun _ _ d u _ hs => hstep (.createUdpChannel d u) ?_ hs,
    fun _ _ k data hs => hstep (.postData k data) ?_ hs,
    fun _ _ u b data hs => hstep (.postUdpData u b data) ?_ hs⟩
  · change (A.acquireAuthInfo s.2 view).map _ = _ at h
    rcases hx : A.acquireAuthInfo s.2 view with x | ⟨b, y⟩
    · rw [hx] at h
      cases h
    · rw [hx] at h
      cases h
      exact hs
  · change (A.releaseAuthInfo s.2 i usage).map _ = _ at h
    rcases hx : A.releaseAuthInfo s.2 i usage with x | b
    · rw [hx] at h
      cases h
    · rw [hx] at h
      cases h
      exact hs
  · rintro l (rfl | rfl | ⟨_, rfl⟩)
    all_goals trivial
  · rintro l (rfl | ⟨_, rfl⟩)
    all_goals trivial
  all_goals
    rintro l rfl
    trivial

open RelayLocalBindingService in
/-- What the turns of the relay keep, it keeps when the proxy calls it. -/
theorem wiredServices_preserves_turns {I : RelayLocalBindingService → Prop}
    (hI : ∀ alive s l o t, Tidy s → I s → RelayTurn alive s l o t → I t) :
    (wiredServices R A).Preserves fun x => Tidy x.1 ∧ I x.1 where
  toRetains := wiredServices_retains fun _ _ _ _ _ _ => hI _ _ _ _ _
  destroyConnection _ _ k hs :=
    (step_turns R (fun _ => false) hs.1 (.destroyConnection k)).keeps (fun _ _ _ _ _ => hI _ _ _ _ _)
      hs.1 hs.2
  destroyUdpChannel _ _ u hs :=
    (step_turns R (fun _ => false) hs.1 (.destroyUdpChannel u)).keeps (fun _ _ _ _ _ => hI _ _ _ _ _)
      hs.1 hs.2

/-- The relay is tidy after every call of the proxy. -/
theorem wiredServices_preserves :
    (wiredServices R A).Preserves fun x => RelayLocalBindingService.Tidy x.1 := by
  simpa only [and_true] using wiredServices_preserves_turns (R := R) (A := A) (I := fun _ => True)
    fun _ _ _ _ _ _ _ _ => trivial

/-! ## The states of a run -/

/-- What holds of the two services. -/
structure Bound (w : ProxyWithRelay α) : Prop where
  sound : Sound w
  tidy : w.relay.Tidy
  supplied : Supplied DeviceReference.IsLocal w
  conserves : ∀ k, ∃ header body, Conserves k header body w

theorem bound_init (devices : List RelayLocalDevice) (a : α) : Bound (init devices a) where
  sound := sound_init _
  tidy := RelayLocalBindingService.tidy_init devices
  supplied := supplied_init _
  conserves _ := ⟨[], [], fun _ => ⟨rfl, rfl, rfl⟩, fun _ h => (by cases h), fun _ h => (by cases h)⟩

/-- The services change on their own. -/
theorem Bound.congr (h : Bound w) (services : RelayLocalBindingService × α)
    (htidy : services.1.Tidy) : Bound { w with services := services } where
  sound := h.sound.congr (fun _ => rfl) rfl fun _ => rfl
  tidy := htidy
  supplied := ⟨h.supplied.results, h.supplied.equipped⟩
  conserves k := by
    obtain ⟨header, body, hk⟩ := h.conserves k
    exact ⟨header, body, hk.congr rfl rfl⟩

/-- Calls of the proxy, by the transport or by the relay. -/
theorem Bound.exec {es : List ProxyEvent} (h : Bound w)
    (hes : ∀ e ∈ es, e.Supplies DeviceReference.IsLocal)
    (hw : ProxyPlatform.exec (ProxyAccessService.step (wiredServices R A) P) w es = .ok w') :
    Bound w' := by
  obtain ⟨hsound, hsupplied⟩ := exec_supplied wiredServices_supplies rfl h.sound hes h.supplied hw
  refine ⟨hsound, exec_preserves wiredServices_preserves h.sound hw h.tidy, hsupplied, fun k => ?_⟩
  refine (exec_invariant (I := fun w => Sound w ∧ ∃ header body, Conserves k header body w)
    (fun s e t hs ht => ?_) ⟨h.sound, h.conserves k⟩ hw).2
  obtain ⟨hs, header, body, hk⟩ := hs
  exact ⟨step_sound s e t hs ht, _, _, step_conserves hs hk ht⟩

/-- The transport completes no future. -/
theorem supplies_of_toCall {e : WiredEvent α} {e' : ProxyEvent} (h : e.toCall = .proxy e')
    (Q : DeviceReference → Prop) : e'.Supplies Q := by
  cases e with
  | onNewConnection | onPeerClose | onFlush | onData | onUdpData | tick =>
    cases h
    trivial
  | _ => cases h

/-- A step of the two services. -/
theorem Bound.step {e : WiredEvent α} (h : Bound w) (hw : step R A P w e = .ok w') : Bound w' := by
  rw [ProxyWithRelay.step] at hw
  split at hw
  · next e' hcall =>
    have hexec : ProxyPlatform.exec (ProxyAccessService.step (wiredServices R A) P) w [e'] = .ok w' := by
      rw [exec_cons_of_ok [] hw, exec_nil]
    exact h.exec (List.forall_mem_singleton.2 (supplies_of_toCall hcall _)) hexec
  · next e' hcall =>
    have hturns := RelayLocalBindingService.step_turns R (alive w) h.tidy e'
    exact (h.congr ((relayCall R w e').1, w.services.2) (hturns.tidy h.tidy)).exec hturns.supplies hw
  · cases hw
    exact h.congr _ h.tidy

theorem bound_of_exec {es : List (WiredEvent α)}
    (h : ProxyPlatform.exec (step R A P) (init devices a) es = .ok w) : Bound w :=
  exec_invariant (fun _ _ _ hs ht => hs.step ht) (bound_init devices a) h

/-! ## Forwarding -/

/-- The assertions of `OnHttpBody`, in the branch that passes the data on. -/
def ForwardingAsserts (w : ProxyWithRelay α) : WiredEvent α → Prop
  | .onData i _ => ∀ c ∈ w.clientConnectionPool.get i, c.dataProcessor = .onHttpBody →
    c.deleteMark = false → c.http.content = [] →
    c.deviceReference.relayServerId ≠ 0 ∧ c.relaySideConnectionId ≠ 0
  | _ => True

/-- No data is presented for a client with a body that has a relay connection, unless it is marked. -/
def Unforwarded (w : ProxyWithRelay α) : WiredEvent α → Prop
  | .onData i _ => ∀ c ∈ w.clientConnectionPool.get i, c.dataProcessor = .onHttpBody →
    c.deleteMark = false → c.relaySideConnectionId = 0
  | _ => True

/-- Only the second assertion holds. -/
theorem Bound.forwarding {i : ℕ} {c : ClientConnection} (h : Bound w)
    (hc : w.clientConnectionPool.get i = some c) (hp : c.dataProcessor = .onHttpBody) :
    c.deviceReference.relayServerId = 0 ∧ (c.http.content = [] ↔ c.relaySideConnectionId ≠ 0) := by
  have hequipped := h.supplied.equipped i c hc
  obtain ⟨header, body, hk⟩ := h.conserves i
  exact ⟨hequipped.deviceReference, hequipped.relaySideConnectionId hp, (hk.sent c hc hp).2⟩

theorem Bound.asserts_iff {e : WiredEvent α} (h : Bound w) :
    ForwardingAsserts w e ↔ Unforwarded w e := by
  cases e with
  | onData i data =>
    refine forall₄_congr fun c hc hp hmark => ?_
    obtain ⟨hserver, hcontent⟩ := h.forwarding hc hp
    rw [hcontent, hserver]
    exact ⟨fun hall => not_not.1 fun hne => (hall hne).1 rfl, fun hzero hne => absurd hzero hne⟩
  | _ => exact Iff.rfl

/-- In a run, the assertions hold exactly when the branch that makes them is never taken: the relay
    has no server, and the client has a relay connection as soon as nothing is kept for it. -/
theorem forwardingAsserts_iff (devices : List RelayLocalDevice) (a : α) (es : List (WiredEvent α)) :
    Along (step R A P) ForwardingAsserts (init devices a) es ↔
      Along (step R A P) Unforwarded (init devices a) es :=
  along_congr (fun _ _ hs => hs.asserts_iff) (fun _ _ _ hs ht => hs.step ht)
    (bound_init devices a)

/-- An authentication service that grants everything. -/
def grantingStub : AuthServiceStub Unit where
  acquireAuthInfo _ view := grantingServices.acquireAuthInfo () view
  localAuthId_ne_zero h := grantingServices.localAuthId_ne_zero h
  releaseAuthInfo _ _ _ := .ok ()

/-- A device that is found without an export address. -/
def anyDevice : RelayLocalDevice :=
  { RelayLocalBindingService.loopbackDevice with exportAddress := {} }

/-- A client that sends a part of its body when its relay connection is there. -/
def lateBody : List (WiredEvent Unit) :=
  [.tick 200000, .relayTick 200000, .onNewConnection localAddress localAddress true,
    .onData 1 (ascii "POST http://a/b HTTP/1.1\r\n"), .onData 1 (ascii "Host: a\r\n\r\n"),
    .tick 200001, .dnsResult 1 (some { a4 := localAddress }), .relayTick 200002,
    .relayOnConnected 1, .tick 200003, .onData 1 (ascii "z")]

/-- The rest of the body is passed on with the relay server 0. -/
theorem forwardingAsserts_counterexample :
    ¬Along (step RelayLocalBindingService.openPlatform grantingStub localPlatform) ForwardingAsserts
      (init [anyDevice] ()) lateBody := by
  intro h
  replace h : Along (step _ _ _) _ _ (lateBody.take 10 ++ [.onData 1 (ascii "z")]) := h
  obtain ⟨w, hw, hcheck⟩ := exists_ok_of_check
    (x := exec (step RelayLocalBindingService.openPlatform grantingStub localPlatform)
      (init [anyDevice] ()) (lateBody.take 10))
    (p := fun w => ∃ c ∈ w.clientConnectionPool.get 1, c.dataProcessor = .onHttpBody ∧
      c.deleteMark = false ∧ c.http.content = [] ∧ c.deviceReference.relayServerId = 0)
    (by decide +kernel)
  obtain ⟨c, hc, hp, hmark, hcontent, hserver⟩ := of_decide_eq_true hcheck
  have hlast : ForwardingAsserts w (.onData 1 (ascii "z")) := (Along.of_append h hw).1
  exact (hlast c hc hp hmark hcontent).1 hserver

end ProxyWithRelay

end ProxyPlatform
