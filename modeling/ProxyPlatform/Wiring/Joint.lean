import ProxyPlatform.Proxy.Greeted
import ProxyPlatform.Wiring.Forwarding
import ProxyPlatform.Wiring.Mirror

/-!
# The two services as one

A step of the proxy that is bound to the relay is a sequence of steps of the tunnels, so that the
two halves stay mirrored whatever the order of the events is.

* `Drives`: what the relay does in a call, with what it makes the proxy do, in the terms of the
  tunnels;
* `Tunnels`: the steps that an event is made of; `step_tunnel`: it is made of nothing else;
* `Joint`: what holds in every state of a run (`joint_of_exec`);
* `exec_refines_tunnels`: the runs of the services are runs of the tunnels;
* `exec_isolates`: no data goes astray.
-/

namespace ProxyPlatform

namespace ProxyWithRelay

open ProxyAccessService RelayLocalBindingService

variable {α : Type*} {R : RelayPlatform} {A : AuthServiceStub α} {P : Platform} {w w' : ProxyWithRelay α}

/-- The two halves. -/
def halvesOf (w : ProxyWithRelay α) (hw : Sound w) : Routes × Links := (routesOf w hw, w.relay.linksOf)

/-! ## Events of the proxy -/

theorem turns_tunnel {L : TurnLabel → Prop} {M : TunnelLabel → Prop}
    (hL : ∀ l, L l → l ≠ .ready ∧ ∀ k, l ≠ .close k) (hM : ∀ l m, L l → l.IsTunnel m → M m)
    (h : Turns (wiredServices R A) L w w') (hs : Sound w) (hs' : Sound w') (htidy : w.relay.Tidy) :
    TunnelSteps M (halvesOf w hs) (halvesOf w' hs') := by
  refine (h.invariant (I := fun t : ProxyWithRelay α => t.relay.Tidy ∧
      ∀ ht : Sound t, TunnelSteps M (halvesOf w hs) (halvesOf t ht))
    (fun t l u hl ht hI hturn => ?_) hs ⟨htidy, fun _ => .refl _⟩).2 hs'
  refine ⟨hturn.preserves wiredServices_preserves hI.1, fun hu => ?_⟩
  obtain ⟨m, hm, hstep⟩ := turn_tunnel hturn ht hu hI.1 (hL l hl)
  exact (hI.2 ht).trans (.single (hM l m hl hm) hstep)

/-! ## Events of the relay -/

section

variable {σ : Type*} {S : Services σ} {live : ℕ → Bool} {s t u : RelayLocalBindingService}
  {o o' : List ProxyEvent} {L M : TunnelLabel → Prop} {N : RelayLabel → Prop}

variable (S P live) in
/-- What the relay does from `s` to `t`, and the calls of the proxy that it makes, are steps of the
    tunnels with labels in `L`. -/
def Drives (L : TunnelLabel → Prop) (s : RelayLocalBindingService) (o : List ProxyEvent)
    (t : RelayLocalBindingService) : Prop :=
  ∀ p p' (hp : Sound p), Covers live (routesOf p hp) →
    exec (ProxyAccessService.step S P) p o = .ok p' →
    ∃ hp' : Sound p', TunnelSteps L (routesOf p hp, s.linksOf) (routesOf p' hp', t.linksOf) ∧
      Covers live (routesOf p' hp') ∧ p'.services = p.services

theorem Drives.refl (s : RelayLocalBindingService) : Drives P S live L s [] s := by
  intro p p' hp hlive h
  cases h
  exact ⟨hp, .refl _, hlive, rfl⟩

theorem Drives.trans (h : Drives P S live L s o t) (h' : Drives P S live L t o' u) :
    Drives P S live L s (o ++ o') u := by
  intro p p' hp hlive hexec
  obtain ⟨q, hq, hexec⟩ := exec_append_eq_ok.1 hexec
  obtain ⟨hsound, hsteps, hlive', hservices⟩ := h p q hp hlive hq
  obtain ⟨hsound', hsteps', hlive'', hservices'⟩ := h' q p' hsound hlive' hexec
  exact ⟨hsound', hsteps.trans hsteps', hlive'', hservices'.trans hservices⟩

theorem Drives.mono (hLM : ∀ m, L m → M m) (h : Drives P S live L s o t) : Drives P S live M s o t := by
  intro p p' hp hlive hexec
  obtain ⟨hsound, hsteps, hlive', hservices⟩ := h p p' hp hlive hexec
  exact ⟨hsound, hsteps.mono hLM, hlive', hservices⟩

theorem Drives.of_turn {l : RelayLabel} (h : RelayTurn live s l o t) (hs : Tidy s)
    (hl : l ≠ .lookup ∧ ∀ k, l ≠ .create k ∧ l ≠ .destroy k) (hL : ∀ m, l.IsTunnel m → L m) :
    Drives P S live L s o t := by
  intro p p' hp hlive hexec
  have hp' : Sound p' := exec_invariant step_sound hp hexec
  obtain ⟨⟨m, hm, hstep⟩, hlive', hservices⟩ := relayTurn_tunnel h hs hp hp' hlive hl hexec
  exact ⟨hp', .single (hL m hm) hstep, hlive', hservices⟩

theorem Drives.of_turns (h : RelayTurns live N s o t) (hs : Tidy s)
    (hN : ∀ l, N l → l ≠ .lookup ∧ ∀ k, l ≠ .create k ∧ l ≠ .destroy k)
    (hL : ∀ l, N l → ∀ m, l.IsTunnel m → L m) : Drives P S live L s o t := by
  induction h with
  | refl => exact .refl s
  | tail h hl ht ih => exact ih.trans (.of_turn ht (h.tidy hs) (hN _ hl) (hL _ hl))

variable (R) in
/-- The end of a lookup. -/
theorem processDnsResult_drives (hs : Tidy s) (hquiet : L .quiet) (i : ℕ) :
    ∃ o t, (∀ o₀, processDnsResult R live (s, o₀) i = (t, o₀ ++ o)) ∧
      Drives P S live L s o t ∧ Tidy t := by
  cases hi : s.dnsFutureManager.get i with
  | none => exact ⟨[], s, fun o₀ => by simp [processDnsResult, hi], .refl s, hs⟩
  | some dnsFuture =>
    rcases processDnsResult_cases R live hi with ⟨attempts, q, hq, h⟩ |
      ⟨attempts, y, k, q, halive, hq, hnew, h⟩
    · have hturn : RelayTurn live s .resolve _ _ := .fail i dnsFuture attempts q hi hq
      refine ⟨_, _, h, .of_turn hturn hs (by simp) ?_, hturn.tidy hs⟩
      rintro m rfl
      exact hquiet
    · have hturn : RelayTurn live s (.create k) [] _ := .resolve i dnsFuture attempts y k q hi halive hq hnew
      refine ⟨[], _, fun o₀ => by rw [h, List.append_nil], fun p p' hp hlive hexec => ?_, hturn.tidy hs⟩
      cases hexec
      have hd : s.linksOf.lookup i = some (dnsFuture.context.proxySideConnectionId,
          dnsFuture.context.createConnectionFutureHandle) := by
        simp only [linksOf, hi, Option.map_some]
      obtain ⟨hlink, hlt, hlast⟩ := link_acquire (t := { s with
        attempts := attempts, localConnectionPool := q
        dnsFutureManager := s.dnsFutureManager.releaseFuture i }) hq hnew
      refine ⟨hp, .single hquiet (.resolve i k _ _ hd hlt ⟨rfl, rfl, le_rfl, le_rfl⟩
        ⟨hlink, funext fun d => ?_, hlt.le.trans hlast.ge⟩), hlive, rfl⟩
      simp only [linksOf, FuturePoolManager.get_releaseFuture, Function.update_apply]
      split
      · rfl
      · rfl

variable (R) in
theorem processDnsResults_drives (hs : Tidy s) (hquiet : L .quiet) :
    Drives P S live L s (processDnsResults R live s).2 (processDnsResults R live s).1 := by
  obtain ⟨o, t, ht, hdrives, -⟩ := foldl_does (D := Drives P S live L) (I := fun _ s => Tidy s)
    .refl .trans (fun i _ _ hs => processDnsResult_drives R hs hquiet i)
    s.dnsFutureManager.futureList hs []
  rw [processDnsResults, ht]
  exact hdrives

/-- A tick of the relay. -/
theorem tick_drives (hs : Tidy s) (nowMS : ℕ) (hquiet : L .quiet)
    (hidle : ∀ k ∈ s.dueConnections nowMS, L (.idle k)) :
    Drives P S live L s (tick R live s nowMS).2 (tick R live s nowMS).1 := by
  have hclock : RelayTurn live s .quiet [] { s with localTicker := nowMS } :=
    quiet_turn nowMS s.attempts s.posts
  have hs' := hclock.tidy hs
  have h₁ : Drives P S live L s [] _ := .of_turn hclock hs (by simp) (by rintro m rfl; exact hquiet)
  have h₂ := h₁.trans (processDnsResults_drives (P := P) (S := S) R hs' hquiet)
  have htidy : Tidy (processDnsResults R live { s with localTicker := nowMS }).1 :=
    (processDnsResults_turns R live _).tidy hs'
  have hturns := (deferDestroyIdleConnections_turns live htidy).1
  rw [dueConnections_processDnsResults R live hs] at hturns
  have h₃ := h₂.trans (.of_turns hturns htidy ?_ ?_)
  · have htidy' := hturns.tidy htidy
    have h₄ := h₃.trans (.of_turns (cleanup_turns live htidy') htidy' ?_ ?_)
    · rw [List.append_nil] at h₄
      exact h₄
    · rintro l ⟨k, rfl | rfl | rfl⟩
      all_goals simp
    · rintro l ⟨k, rfl | rfl | rfl⟩ m rfl
      all_goals exact hquiet
  · rintro l ⟨k, -, rfl⟩
    simp
  · rintro l ⟨k, hk, rfl⟩ m rfl
    exact hidle k hk

/-- A call of the relay from outside. -/
theorem relayStep_drives (hs : Tidy s) {e : RelayEvent} (hquiet : L .quiet)
    (htick : ∀ nowMS, e = .tick nowMS → ∀ k ∈ s.dueConnections nowMS, L (.idle k))
    (he : (∃ nowMS, e = .tick nowMS) ∨ ∀ l, e.Allows l →
      (l ≠ .lookup ∧ ∀ k, l ≠ .create k ∧ l ≠ .destroy k) ∧ ∀ m, l.IsTunnel m → L m) :
    Drives P S live L s (RelayLocalBindingService.step R live s e).2
      (RelayLocalBindingService.step R live s e).1 := by
  rcases he with ⟨nowMS, rfl⟩ | he
  · exact tick_drives hs nowMS hquiet (htick nowMS rfl)
  · exact .of_turns (step_turns R live hs e) hs (fun l hl => (he l hl).1) fun l hl => (he l hl).2

end

/-! ## Steps -/

/-- The steps of the tunnels that an event is made of. -/
def Tunnels (w : ProxyWithRelay α) : WiredEvent α → TunnelLabel → Prop
  | .onPeerClose i, m => m = .quiet ∨ m = .peerClose i
  | .tick _, m => m = .quiet ∨ ∃ i, m = .take i ∨ m = .drop i
  | .relayOnConnected k, m => m = .quiet ∨ m = .connect k
  | .relayTick nowMS, m => m = .quiet ∨ ∃ k ∈ w.relay.dueConnections nowMS, m = .idle k
  | _, m => m = .quiet

/-- The turns of an event of the proxy. -/
theorem tunnels_of_proxy {e : WiredEvent α} {e' : ProxyEvent} {l : TurnLabel}
    (h : e.toCall = .proxy e') (hl : e'.Allows l) :
    (l ≠ .ready ∧ ∀ k, l ≠ .close k) ∧ ∀ m, l.IsTunnel m → Tunnels w e m := by
  cases e with
  | onNewConnection | onFlush | onData =>
    cases h
    obtain rfl := hl
    exact ⟨by simp, fun m hm => hm⟩
  | onPeerClose i =>
    cases h
    rcases hl with rfl | rfl
    · exact ⟨by simp, fun m hm => .inr hm⟩
    · exact ⟨by simp, fun m hm => .inl hm⟩
  | onUdpData =>
    cases h
    rcases hl with rfl | ⟨k, rfl⟩
    · exact ⟨by simp, fun m hm => hm⟩
    · exact ⟨by simp, fun m hm => hm⟩
  | tick nowMS =>
    cases h
    rcases hl with rfl | ⟨κ, rfl⟩ | ⟨_, rfl⟩ | ⟨k, rfl⟩
    · exact ⟨by simp, fun m hm => .inl hm⟩
    · exact ⟨by simp, fun m hm => hm.imp_right fun hm => hm.imp fun _ => .inl⟩
    · exact ⟨by simp, fun m hm => .inl hm⟩
    · exact ⟨by simp, fun m hm => .inr ⟨k, .inr hm⟩⟩
  | _ => cases h

/-- The turns of an event of the relay. -/
theorem tunnels_of_relay {e : WiredEvent α} {e' : RelayEvent} (h : e.toCall = .relay e') :
    (∃ nowMS, e' = .tick nowMS) ∨ ∀ l, e'.Allows l →
      (l ≠ .lookup ∧ ∀ k, l ≠ .create k ∧ l ≠ .destroy k) ∧ ∀ m, l.IsTunnel m → Tunnels w e m := by
  cases e with
  | relayTick nowMS =>
    cases h
    exact .inl ⟨nowMS, rfl⟩
  | relayOnConnected | relayOnPeerClose | relayOnData | relayOnUdpData | dnsResult =>
    cases h
    refine .inr fun l hl => ?_
    obtain rfl := hl
    exact ⟨by simp, fun m hm => hm⟩
  | _ => cases h

/-- A step of the two services is made of steps of the tunnels. -/
theorem step_tunnel {e : WiredEvent α} (h : Bound w) (h' : Sound w') (hw : step R A P w e = .ok w') :
    TunnelSteps (Tunnels w e) (halvesOf w h.sound) (halvesOf w' h') := by
  rw [step] at hw
  split at hw
  · next e' hcall =>
    have hlabel {l : TurnLabel} (hl : e'.Allows l) := tunnels_of_proxy (w := w) hcall hl
    exact turns_tunnel (fun l hl => (hlabel hl).1) (fun l m hl hm => (hlabel hl).2 m hm)
      (step_turns h.sound hw) h.sound h' h.tidy
  · next e' hcall =>
    have hdrives : Drives P (wiredServices R A) (alive w) (Tunnels w e) w.relay (relayCall R w e').2
        (relayCall R w e').1 := by
      refine relayStep_drives h.tidy ?_ ?_ (tunnels_of_relay hcall)
      · cases e <;> first | rfl | exact .inl rfl
      · rintro nowMS rfl k hk
        cases e <;> cases hcall
        exact .inr ⟨k, hk, rfl⟩
    have hp : Sound { w with services := ((relayCall R w e').1, w.services.2) } :=
      h.sound.congr (fun _ => rfl) rfl fun _ => rfl
    obtain ⟨hp', hsteps, -, hservices⟩ := hdrives _ w' hp (covers_alive h.sound) hw
    have hrelay : w'.relay = (relayCall R w e').1 := congrArg Prod.fst hservices
    change TunnelSteps _ _ (routesOf w' h', w'.relay.linksOf)
    rw [hrelay]
    exact hsteps
  · cases hw
    exact .refl _

/-- The calls that the relay makes leave it as it is. -/
theorem relay_of_relayStep {e : WiredEvent α} {e' : RelayEvent} (h : Bound w) (hcall : e.toCall = .relay e')
    (hw : relayStep R A P w e' = .ok w') : w'.relay = (relayCall R w e').1 := by
  have hp : Sound { w with services := ((relayCall R w e').1, w.services.2) } :=
    h.sound.congr (fun _ => rfl) rfl fun _ => rfl
  have hdrives : Drives P (wiredServices R A) (alive w) (fun _ => True) w.relay (relayCall R w e').2
      (relayCall R w e').1 := by
    refine relayStep_drives h.tidy trivial (fun _ _ _ _ => trivial) ?_
    exact (tunnels_of_relay (w := w) hcall).imp_right fun hl l hal => ⟨(hl l hal).1, fun _ _ => trivial⟩
  obtain ⟨-, -, -, hservices⟩ := hdrives _ w' hp (covers_alive h.sound) hw
  exact congrArg Prod.fst hservices

/-! ## Runs -/

theorem mirrored_init (devices : List RelayLocalDevice) (a : α) :
    Mirrored (routesOf (init devices a) (sound_init _)) (init devices a).relay.linksOf where
  awaited z i f h := by cases z <;> cases h
  once z _ _ _ _ h := by cases z <;> cases h
  opened _ _ h := by cases h
  answered _ _ _ h := by cases h
  known _ _ _ h := by cases h

/-- What holds of the two services, and of the tunnels between them. -/
structure Joint (w : ProxyWithRelay α) : Prop extends Bound w where
  mirrored : Mirrored (routesOf w sound) w.relay.linksOf
  reported : w.relay.Reported
  greeted : Greeted w
  queued : ∀ κ, (w.futureManager κ).Queued

theorem joint_init (devices : List RelayLocalDevice) (a : α) : Joint (init devices a) where
  toBound := bound_init devices a
  mirrored := mirrored_init devices a
  reported := reported_init devices
  greeted := greeted_init _
  queued _ := FuturePoolManager.Queued.empty _

/-- Calls of the proxy, by the transport or by the relay. -/
theorem exec_greeted {es : List ProxyEvent} (h : Bound w) (hg : Greeted w)
    (hes : ∀ e ∈ es, e.Supplies DeviceReference.IsLocal)
    (hw : ProxyPlatform.exec (ProxyAccessService.step (wiredServices R A) P) w es = .ok w') :
    Greeted w' := by
  induction es generalizing w with
  | nil =>
    cases hw
    exact hg
  | cons e es ih =>
    obtain ⟨v, hv, hw⟩ := exec_cons_eq_ok.1 hw
    obtain ⟨he, hes⟩ := List.forall_mem_cons.1 hes
    have hexec : ProxyPlatform.exec (ProxyAccessService.step (wiredServices R A) P) w [e] = .ok v := by
      rw [exec_cons_of_ok [] hv, exec_nil]
    exact ih (h.exec (List.forall_mem_singleton.2 he) hexec)
      (ProxyAccessService.step_greeted wiredServices_supplies h.sound h.supplied hg hv) hes hw

/-- What the turns of the relay keep, a step of the two services keeps. -/
theorem relay_invariant {I : RelayLocalBindingService → Prop} {e : WiredEvent α}
    (hI : ∀ alive s l o t, Tidy s → I s → RelayTurn alive s l o t → I t) (h : Bound w)
    (hi : I w.relay) (hw : step R A P w e = .ok w') : I w'.relay := by
  have hexec {v : ProxyWithRelay α} {es : List ProxyEvent} (hv : Sound v) (hvi : Tidy v.relay ∧ I v.relay)
      (hw : ProxyPlatform.exec (ProxyAccessService.step (wiredServices R A) P) v es = .ok w') :
      I w'.relay :=
    (exec_preserves (wiredServices_preserves_turns hI) hv hw hvi).2
  rw [ProxyWithRelay.step] at hw
  split at hw
  · next e' hcall =>
    have hone : ProxyPlatform.exec (ProxyAccessService.step (wiredServices R A) P) w [e'] = .ok w' := by
      rw [exec_cons_of_ok [] hw, exec_nil]
    exact hexec h.sound ⟨h.tidy, hi⟩ hone
  · next e' hcall =>
    have hturns := RelayLocalBindingService.step_turns R (alive w) h.tidy e'
    refine hexec (v := { w with services := ((relayCall R w e').1, w.services.2) })
      (h.sound.congr (fun _ => rfl) rfl fun _ => rfl) ?_ hw
    exact hturns.keeps (fun _ _ _ _ _ => hI _ _ _ _ _) h.tidy hi
  · cases hw
    exact hi

/-- What the turns of the proxy keep, whatever its services are, a step of the two services keeps. -/
theorem proxy_invariant {I : ProxyWithRelay α → Prop} {e : WiredEvent α}
    (hI : ∀ s l t, I s → Turn (wiredServices R A) s l t → I t)
    (hservices : ∀ s x, I s → I { s with services := x }) (h : Bound w) (hi : I w)
    (hw : step R A P w e = .ok w') : I w' := by
  rw [ProxyWithRelay.step] at hw
  split at hw
  · next e' hcall =>
    exact (step_turns h.sound hw).invariant (fun s l t _ _ => hI s l t) h.sound hi
  · next e' hcall =>
    refine (exec_turns ?_ hw).invariant (fun s l t _ _ => hI s l t) ?_ (hservices w _ hi)
    all_goals exact h.sound.congr (fun _ => rfl) rfl fun _ => rfl
  · cases hw
    exact hservices w _ hi

theorem step_greeted {e : WiredEvent α} (h : Bound w) (hg : Greeted w)
    (hw : step R A P w e = .ok w') : Greeted w' := by
  rw [ProxyWithRelay.step] at hw
  split at hw
  · next e' hcall =>
    exact ProxyAccessService.step_greeted wiredServices_supplies h.sound h.supplied hg hw
  · next e' hcall =>
    have hturns := RelayLocalBindingService.step_turns R (alive w) h.tidy e'
    exact exec_greeted (h.congr ((relayCall R w e').1, w.services.2) (hturns.tidy h.tidy)) hg
      hturns.supplies hw
  · cases hw
    exact hg

theorem Joint.step {e : WiredEvent α} (h : Joint w) (hw : step R A P w e = .ok w') : Joint w' := by
  have hbound := h.toBound.step hw
  refine ⟨hbound, (step_tunnel h.toBound hbound.sound hw).invariant (I := fun a => Mirrored a.1 a.2)
    (fun a l b _ ha hstep => ha.step hstep) h.mirrored, ?_, step_greeted h.toBound h.greeted hw, ?_⟩
  · exact relay_invariant (fun _ _ _ _ _ hs hr ht => ht.reported hs hr) h.toBound h.reported hw
  · exact proxy_invariant (I := fun s => ∀ κ, (s.futureManager κ).Queued)
      (fun _ _ _ hs ht => ht.queued hs) (fun _ _ hs => hs) h.toBound h.queued hw

theorem joint_of_exec {devices : List RelayLocalDevice} {a : α} {es : List (WiredEvent α)}
    (h : ProxyPlatform.exec (step R A P) (init devices a) es = .ok w) : Joint w :=
  exec_invariant (fun _ _ _ hs ht => hs.step ht) (joint_init devices a) h

/-- What the two services do in a run, in the terms of the tunnels, is a sequence of the steps of
    `TunnelStep`, and leaves the halves mirrored. -/
theorem exec_refines_tunnels (devices : List RelayLocalDevice) (a : α) (es : List (WiredEvent α))
    (w : ProxyWithRelay α) (h : ProxyPlatform.exec (step R A P) (init devices a) es = .ok w) :
    ∃ hs : Sound w, Mirrored (routesOf w hs) w.relay.linksOf ∧
      TunnelSteps (fun _ => True) (halvesOf (init devices a) (sound_init _)) (halvesOf w hs) := by
  refine (exec_invariant (I := fun w => Joint w ∧ ∃ hs : Sound w, Mirrored (routesOf w hs) w.relay.linksOf ∧
    TunnelSteps (fun _ => True) (halvesOf (init devices a) (sound_init _)) (halvesOf w hs))
    (fun s e t hs ht => ?_) ⟨joint_init devices a, sound_init _, mirrored_init devices a, .refl _⟩ h).2
  obtain ⟨hjoint, hs, -, hsteps⟩ := hs
  have hjoint' := hjoint.step ht
  exact ⟨hjoint', hjoint'.sound, hjoint'.mirrored,
    hsteps.trans ((step_tunnel hjoint.toBound hjoint'.sound ht).mono fun _ _ => trivial)⟩

theorem exec_refines_tunnels_lateBody :
    ∃ w, ProxyPlatform.exec (step openPlatform grantingStub localPlatform) (init [anyDevice] ())
        (lateBody.take 10) = .ok w ∧ w.clientOf 1 = some (false, 1) ∧ ∃ hs : Sound w,
      Mirrored (routesOf w hs) w.relay.linksOf ∧
      TunnelSteps (fun _ => True) (halvesOf (init [anyDevice] ()) (sound_init _)) (halvesOf w hs) := by
  obtain ⟨w, hw, hcheck⟩ := exists_ok_of_check
    (x := ProxyPlatform.exec (step openPlatform grantingStub localPlatform) (init [anyDevice] ())
      (lateBody.take 10))
    (p := fun w => w.clientOf 1 = some (false, 1)) (by decide +kernel)
  exact ⟨w, hw, of_decide_eq_true hcheck, exec_refines_tunnels [anyDevice] () _ w hw⟩

/-- No data reaches a client, or a target, that it is not for: a client and a relay connection that
    know of each other agree, and the client of a connected one knows it, or has its id in a future
    that is to be taken up. -/
theorem exec_isolates (devices : List RelayLocalDevice) (a : α) (es : List (WiredEvent α))
    (w : ProxyWithRelay α) (h : ProxyPlatform.exec (step R A P) (init devices a) es = .ok w) :
    (∀ i c d, w.clientConnectionPool.get i = some c → c.relaySideConnectionId ≠ 0 →
      w.relay.localConnectionPool.get c.relaySideConnectionId = some d → d.proxySideConnectionId = i) ∧
    ∀ k d c, w.relay.localConnectionPool.get k = some d → d.deleteMark = false →
      d.isConnected = true → w.clientConnectionPool.get d.proxySideConnectionId = some c →
      c.relaySideConnectionId = k ∨
        ∃ f future, c.futures .acquireDeviceConnection = some f ∧
          (w.futureManager .acquireDeviceConnection).get f = some future ∧
          future.isReady = true ∧ future.result = some k := by
  have hjoint := joint_of_exec h
  refine ⟨fun i c d hc hne hd => ?_, fun k d c hd hmark hconnected hc => ?_⟩
  · have hi : w.clientOf i = some (c.deleteMark, c.relaySideConnectionId) := by
      rw [clientOf, hc, Option.map_some]
    exact (hjoint.mirrored.known i _ _ hi hne).client _ (linksOf_link hd)
  · have hi : w.clientOf d.proxySideConnectionId = some (c.deleteMark, c.relaySideConnectionId) := by
      rw [clientOf, hc, Option.map_some]
    have hlink : w.relay.linksOf.link k = some (d.proxySideConnectionId, .opened) := by
      rw [linksOf_link hd, RelayLocalDeviceConnection.phase_opened hmark
        ((hjoint.reported k d hd hmark).1 hconnected)]
    refine ((hjoint.mirrored.opened k _ hlink).knows _ _ hi).imp_right ?_
    rintro ⟨f, hf⟩
    obtain ⟨future, hget, heq⟩ := Option.map_eq_some_iff.1 hf
    have hwait := hjoint.sound.toPaired.futureOf_of_future hf
    rw [futureOf, hc, Option.bind_some] at hwait
    refine ⟨f, future, hwait, hget, ?_⟩
    cases hready : future.isReady with
    | false => simp [answerOf, hready] at heq
    | true => simpa [answerOf, hready] using (Prod.mk.inj heq).2

theorem exec_isolates_lateBody :
    ∃ w, ProxyPlatform.exec (step openPlatform grantingStub localPlatform) (init [anyDevice] ())
        (lateBody.take 9) = .ok w ∧
      ∃ d c, w.relay.localConnectionPool.get 1 = some d ∧ d.deleteMark = false ∧ d.isConnected = true ∧
        w.clientConnectionPool.get d.proxySideConnectionId = some c ∧
        (c.relaySideConnectionId = 1 ∨ ∃ f future, c.futures .acquireDeviceConnection = some f ∧
          (w.futureManager .acquireDeviceConnection).get f = some future ∧
          future.isReady = true ∧ future.result = some 1) := by
  obtain ⟨w, hw, hcheck⟩ := exists_ok_of_check
    (x := ProxyPlatform.exec (step openPlatform grantingStub localPlatform) (init [anyDevice] ())
      (lateBody.take 9))
    (p := fun w => ∃ d ∈ w.relay.localConnectionPool.get 1, d.deleteMark = false ∧ d.isConnected = true ∧
      (w.clientConnectionPool.get d.proxySideConnectionId).isSome) (by decide +kernel)
  obtain ⟨d, hd, hmark, hconnected, hlive⟩ := of_decide_eq_true hcheck
  obtain ⟨c, hc⟩ := Option.isSome_iff_exists.1 hlive
  exact ⟨w, hw, d, c, hd, hmark, hconnected, hc,
    (exec_isolates [anyDevice] () _ w hw).2 1 d c hd hmark hconnected hc⟩

end ProxyWithRelay

end ProxyPlatform
