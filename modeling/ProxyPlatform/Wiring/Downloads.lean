import ProxyPlatform.Wiring.Uploads

/-!
# What a target sends reaches its client

Data of a target goes back through the relay and the proxy. The relay passes it on with the id of the
client, as soon as the relay connection is connected, and so before the client learns of the
connection: data may arrive early, but it arrives at the right client only.

* `arrived`: what the socket of a target presents while neither its connection nor its client is
  marked;
* `downloads_reach`: in every run, a client gets what its target sends, in order, and nothing else.
-/

namespace ProxyPlatform

namespace ProxyWithRelay

open ProxyAccessService RelayLocalBindingService

variable {α : Type*} {R : RelayPlatform} {A : AuthServiceStub α} {P : Platform}
  {w w' : ProxyWithRelay α} {e : WiredEvent α} {i k : ℕ} {c : ClientConnection}

/-- What the socket of the relay connection `k` presents while neither the connection nor its client
    is marked. -/
def arrived (k : ℕ) (w : ProxyWithRelay α) : WiredEvent α → Bytes
  | .relayOnData m data => match w.relay.localConnectionPool.get m with
    | some d => match w.clientConnectionPool.get d.proxySideConnectionId with
      | some c => if m = k ∧ (d.isConnected = true ∧ d.deleteMark = false) ∧ c.deleteMark = false then
          data else []
      | none => []
    | none => []
  | _ => []

/-- What came in on the connections is sent to their clients. -/
def HandsOver (came : ℕ → Bytes) (w : ProxyWithRelay α) (hw : Sound w) : Prop :=
  Returned (fun i => handed i w.calls) came (routesOf w hw) w.relay.linksOf

/-- A step of the tunnels, after the data of the step has gone through. -/
theorem HandsOver.of_steps {came : ℕ → Bytes} {hw : Sound w} {hw' : Sound w'} {L : TunnelLabel → Prop}
    (hsteps : TunnelSteps L (halvesOf w hw) (halvesOf w' hw'))
    (hm : Mirrored (routesOf w hw) w.relay.linksOf)
    (h : Returned (fun i => handed i w'.calls) came (routesOf w hw) w.relay.linksOf) :
    HandsOver came w' hw' :=
  (hsteps.invariant (I := fun a => Mirrored a.1 a.2 ∧ Returned (fun i => handed i w'.calls) came a.1 a.2)
    (fun _ _ _ _ ha hstep => ⟨ha.1.step hstep, ha.2.step ha.1 hstep⟩) ⟨hm, h⟩).2

/-- The calls of the relay that pass no data on send the clients none. -/
theorem handed_callbacks {es : List ProxyEvent} (hs : Sound w)
    (hes : ∀ e ∈ es, ∀ k data, e ≠ .postData k data)
    (hw : ProxyPlatform.exec (ProxyAccessService.step (wiredServices R A) P) w es = .ok w') (j : ℕ) :
    handed j w'.calls = handed j w.calls := by
  induction es generalizing w with
  | nil =>
    cases hw
    rfl
  | cons e es ih =>
    obtain ⟨v, hv, hw⟩ := exec_cons_eq_ok.1 hw
    obtain ⟨he, hes⟩ := List.forall_mem_cons.1 hes
    rw [ih ((step_turns hs hv).sound hs) hes hw, step_handed he hs hv]

/-- What the relay does with data of a socket. -/
theorem relayCall_onData (w : ProxyWithRelay α) (m : ℕ) (data : Bytes) :
    (∃ d, w.relay.localConnectionPool.get m = some d ∧ (d.isConnected = true ∧ d.deleteMark = false) ∧
        (relayCall R w (.onData m data)).2 = [.postData d.proxySideConnectionId data]) ∨
      (∀ d, w.relay.localConnectionPool.get m = some d → ¬(d.isConnected = true ∧ d.deleteMark = false)) ∧
        (relayCall R w (.onData m data)).2 = [] := by
  rw [relayCall, RelayLocalBindingService.step, RelayLocalBindingService.onConnection]
  cases hd : w.relay.localConnectionPool.get m with
  | none => exact .inr ⟨by simp, rfl⟩
  | some d =>
    dsimp only
    cases hconnected : d.isConnected with
    | false => exact .inr ⟨by simp [hconnected], rfl⟩
    | true =>
      rw [if_pos rfl, RelayLocalBindingService.onData, RelayLocalBindingService.keepAlive]
      cases hmark : d.deleteMark with
      | true => exact .inr ⟨by simp [hmark], rfl⟩
      | false => exact .inl ⟨d, rfl, ⟨hconnected, hmark⟩, rfl⟩

/-- A step hands no client anything, or it hands data of a socket to the client of its connection. -/
theorem handed_step (h : Joint w) (hw : ProxyWithRelay.step R A P w e = .ok w') :
    (∀ j, handed j w'.calls = handed j w.calls) ∧ (∀ k, arrived k w e = []) ∨
      ∃ k data d c, e = .relayOnData k data ∧ w.relay.localConnectionPool.get k = some d ∧
        (d.isConnected = true ∧ d.deleteMark = false) ∧
        w.clientConnectionPool.get d.proxySideConnectionId = some c ∧ c.deleteMark = false ∧
        ∀ j, handed j w'.calls = handed j w.calls ++ if j = d.proxySideConnectionId then data else [] := by
  by_cases hdata : ∃ m data, e = .relayOnData m data
  · obtain ⟨m, data, rfl⟩ := hdata
    have hp : Sound { w with services := ((relayCall R w (.onData m data)).1, w.services.2) } :=
      h.sound.congr (fun _ => rfl) rfl fun _ => rfl
    change relayStep R A P w (.onData m data) = .ok w' at hw
    rcases relayCall_onData (R := R) w m data with ⟨d, hd, hopen, hes⟩ | ⟨hclosed, hes⟩
    · rw [relayStep, hes, exec_cons_eq_ok] at hw
      obtain ⟨v, hw, hv⟩ := hw
      cases hv
      have hcalls := handed_postData hp hw
      change ∀ j, handed j w'.calls = handed j w.calls ++ match w.clientConnectionPool.get _ with
        | some c => _
        | none => _ at hcalls
      cases hc : w.clientConnectionPool.get d.proxySideConnectionId with
      | none =>
        refine .inl ⟨fun j => ?_, fun k => ?_⟩
        · rw [hcalls, hc, List.append_nil]
        · simp only [arrived, hd, hc]
      | some c =>
        cases hmark : c.deleteMark with
        | true =>
          refine .inl ⟨fun j => ?_, fun k => ?_⟩
          · simp only [hcalls, hc, hmark]
            simp
          · simp only [arrived, hd, hc, hmark]
            simp
        | false =>
          refine .inr ⟨m, data, d, c, rfl, hd, hopen, hc, hmark, fun j => ?_⟩
          rw [hcalls, hc]
          simp [hmark, eq_comm]
    · refine .inl ⟨fun j => ?_, fun k => ?_⟩
      · rw [relayStep, hes] at hw
        cases hw
        rfl
      · simp only [arrived]
        split
        · next d hd =>
          split
          · exact if_neg fun hpass => hclosed d hd hpass.2.1
          · rfl
        · rfl
  -- No data goes through.
  refine .inl ⟨fun j => ?_, fun k => ?_⟩
  · rw [ProxyWithRelay.step] at hw
    split at hw
    · next e' hcall =>
      refine step_handed ?_ h.sound hw j
      rintro i data rfl
      cases e <;> cases hcall
    · next e' hcall =>
      have hp : Sound { w with services := ((relayCall R w e').1, w.services.2) } :=
        h.sound.congr (fun _ => rfl) rfl fun _ => rfl
      refine handed_callbacks hp (fun x hx i data hxe => ?_) hw j
      obtain ⟨m, -, rfl, -⟩ := (postData_iff h.tidy hcall).1 (hxe ▸ hx)
      exact hdata ⟨m, data, rfl⟩
    · cases hw
      rfl
  · cases e with
    | relayOnData m data => exact absurd ⟨m, data, rfl⟩ hdata
    | _ => rfl

/-- A step keeps what came in and what was sent on together. -/
theorem HandsOver.step {came : ℕ → Bytes} (h : Joint w) (hd : HandsOver came w h.sound)
    (hw : ProxyWithRelay.step R A P w e = .ok w') :
    HandsOver (fun k => came k ++ arrived k w e) w' (h.step hw).sound := by
  have hsteps := step_tunnel h.toBound (h.step hw).sound hw
  refine .of_steps hsteps h.mirrored ?_
  rcases handed_step h hw with ⟨hcalls, hcame⟩ | ⟨m, data, d, c, rfl, hd', hopen, hc, hmark, hgot⟩
  · simp only [hcame, List.append_nil]
    rwa [funext hcalls]
  · have hlink : w.relay.linksOf.link m = some (d.proxySideConnectionId, .opened) :=
      (link_opened_iff h.reported hd').2 ⟨rfl, hopen.2, hopen.1⟩
    have hi : (routesOf w h.sound).client d.proxySideConnectionId =
        some (c.deleteMark, c.relaySideConnectionId) := by
      change (w.clientConnectionPool.get _).map _ = _
      rw [hc, Option.map_some]
    have hcame (k : ℕ) : came k ++ arrived k w (.relayOnData m data) =
        came k ++ if k = m then data else [] := by
      simp only [arrived, hd', hc]
      simp [hmark, hopen, eq_comm]
    exact Returned.pass hd h.mirrored hlink hi hgot hcame

/-! ## Runs -/

/-- In every run, what a client was sent of the relay is what the socket of its target presented, in
    order, while neither the relay connection nor the client was marked. -/
theorem downloads_reach (devices : List RelayLocalDevice) (a : α) (es : List (WiredEvent α))
    (w : ProxyWithRelay α) (h : ProxyPlatform.exec (step R A P) (init devices a) es = .ok w) (i : ℕ)
    (c : ClientConnection) (hc : w.clientConnectionPool.get i = some c) (hk : c.relaySideConnectionId ≠ 0) :
    handed i w.calls =
      collectAlong (step R A P) (arrived c.relaySideConnectionId) (init devices a) es := by
  obtain ⟨-, hjoint, hover⟩ : ProxyPlatform.exec (step R A P) (init devices a) es = .ok w ∧
      ∃ hjoint : Joint w, HandsOver (fun k => collectAlong (step R A P) (arrived k) (init devices a) es) w
        hjoint.sound := by
    refine exec_history (I := fun pre w => ProxyPlatform.exec (step R A P) (init devices a) pre = .ok w ∧
      ∃ hjoint : Joint w, HandsOver (fun k => collectAlong (step R A P) (arrived k) (init devices a) pre) w
        hjoint.sound) (fun pre s e t hs ht => ?_) ⟨rfl, joint_init devices a, ?_⟩ h
    · obtain ⟨hpre, hjoint, hover⟩ := hs
      refine ⟨(exec_snoc e hpre).trans ht, hjoint.step ht, ?_⟩
      simp only [collectAlong_snoc e hpre]
      exact hover.step hjoint ht
    · exact {
        known := fun _ _ _ h => by cases h
        answered := fun _ _ _ h => by cases h
        waiting := fun _ _ h => by cases h
        fresh := fun _ _ => rfl
        met := fun _ h => absurd rfl h }
  have hi : (routesOf w hjoint.sound).client i = some (c.deleteMark, c.relaySideConnectionId) := by
    change (w.clientConnectionPool.get i).map _ = _
    rw [hc, Option.map_some]
  exact hover.known i _ _ hi hk

theorem downloads_reach_chattingTunnel :
    ∃ w c, ProxyPlatform.exec (step openPlatform grantingStub localPlatform) (init [anyDevice] ())
        chattingTunnel = .ok w ∧ w.clientConnectionPool.get 1 = some c ∧ c.relaySideConnectionId = 1 ∧
      handed 1 w.calls = ascii "xyz" ∧ handed 1 w.calls =
        collectAlong (step openPlatform grantingStub localPlatform) (arrived c.relaySideConnectionId)
          (init [anyDevice] ()) chattingTunnel := by
  obtain ⟨w, hw, hcheck⟩ := exists_ok_of_check
    (x := ProxyPlatform.exec (step openPlatform grantingStub localPlatform) (init [anyDevice] ())
      chattingTunnel)
    (p := fun w => handed 1 w.calls = ascii "xyz" ∧
      ∃ c ∈ w.clientConnectionPool.get 1, c.relaySideConnectionId = 1) (by decide +kernel)
  obtain ⟨hhanded, c, hc, hk⟩ := of_decide_eq_true hcheck
  exact ⟨w, c, hw, hc, hk, hhanded,
    downloads_reach [anyDevice] () chattingTunnel w hw 1 c hc (by omega)⟩

end ProxyWithRelay

end ProxyPlatform
