import ProxyPlatform.Proxy.Deadline
import ProxyPlatform.Wiring.Joint

/-!
# The authentication deadline of the two services

The deadline law of the proxy assumes that the relay posts to and closes a connection only if it
was granted something. Here this is shown of the relay that the proxy is bound to, so that only
what comes from outside is left as a condition.

The relay has connections and lookups for those clients alone that asked for one. They asked when
they had a grant, and keep it; but they may have taken up the end of the connection in the
meantime, and neither wait for one any more nor have one, when the peer of the marked
connection closes it once more.

* `Links.Serves`: the clients that the relay has a connection or a lookup for;
* `ServesOn`: what the relay does on its own, for nobody new;
* `RelayServesGranted`: whom the relay serves was granted something, if it is live;
* `relayGranted_of_exec`: every call that the relay makes in a run is for such a client;
* `keepsDeadline_iff`: a run of the two services meets the deadline exactly when no
  body comes in for a connection without a grant.
-/

namespace ProxyPlatform

/-! ## Whom the relay serves -/

/-- There is a connection or a lookup for the client `i`. -/
def Links.Serves (r : Links) (i : ℕ) : Prop :=
  (∃ k p, r.link k = some (i, p)) ∨ ∃ d f, r.lookup d = some (i, f)

section

variable {x y : Routes} {r t : Links} {i j k n : ℕ}

/-- An entry of an updated table is the new one, or was there. -/
theorem eq_or_of_update {β : Type*} {table : ℕ → Option β} {o : Option β} {v : β}
    (h : Function.update table k o j = some v) : o = some v ∨ table j = some v := by
  rw [Function.update_apply] at h
  split at h
  · exact .inl h
  · exact .inr h

namespace Links

theorem Serves.of_link {p : LinkPhase} (h : r.link k = some (i, p)) : r.Serves i := .inl ⟨k, p, h⟩

theorem Serves.of_lookup {d f : ℕ} (h : r.lookup d = some (i, f)) : r.Serves i := .inr ⟨d, f, h⟩

/-- What is left when an entry is removed was there. -/
theorem Serves.of_link_removed {p : LinkPhase}
    (h : Function.update r.link n none k = some (i, p)) : r.Serves i :=
  .of_link ((eq_or_of_update h).resolve_left fun hnone => by cases hnone)

theorem Serves.of_lookup_removed {d f : ℕ}
    (h : Function.update r.lookup n none d = some (i, f)) : r.Serves i :=
  .of_lookup ((eq_or_of_update h).resolve_left fun hnone => by cases hnone)

/-- A closed connection is for the same client. -/
theorem Serves.of_closed {p : LinkPhase} (h : r.closed n k = some (i, p)) : r.Serves i := by
  unfold closed at h
  split at h
  · obtain ⟨⟨m, q⟩, hv, heq⟩ := Option.map_eq_some_iff.1 h
    cases heq
    exact .of_link hv
  · exact .of_link h

/-- Whoever is served has an entry in one of the tables. -/
theorem Becomes.serves {link : ℕ → Option (ℕ × LinkPhase)} {lookup : ℕ → Option (ℕ × ℕ)} {Q : Prop}
    (hr : r.Becomes link lookup t) (hi : t.Serves i) (hlink : ∀ k p, link k = some (i, p) → Q)
    (hlookup : ∀ d f, lookup d = some (i, f) → Q) : Q := by
  rw [Serves, hr.link, hr.lookup] at hi
  rcases hi with ⟨k, p, hk⟩ | ⟨d, f, hd⟩
  · exact hlink k p hk
  · exact hlookup d f hd

end Links

open Links in
/-- Whoever is served after a step was served before, or asked for a connection in the step, and
    has a future. -/
theorem TunnelStep.serves {l : TunnelLabel} (h : TunnelStep x r l y t) (hi : t.Serves i) :
    r.Serves i ∨ ∃ f z, y.future f = some (i, z) := by
  have hasks {f : ℕ} {z : Completion ℕ} (hf : y.future = Function.update x.future f (some (i, z))) :
      ∃ f z, y.future f = some (i, z) := ⟨f, z, by rw [hf, Function.update_self]⟩
  cases h with
  | quiet hx hr | accept _ _ _ _ hr | refuse _ _ _ _ _ _ hr | take _ _ _ _ _ _ _ hr
  | drop _ _ hr => exact .inl (hr.serves hi (fun _ _ => .of_link) fun _ _ => .of_lookup)
  | peerClose _ n _ _ hr | close n _ _ _ _ hr | idle n _ _ _ _ hr =>
    exact .inl (hr.serves hi (fun _ _ => .of_closed) fun _ _ => .of_lookup)
  | look j f d b hj hf hd hx hr =>
    refine hr.serves hi (fun _ _ hm => .inl (.of_link hm)) fun e g he => ?_
    rcases eq_or_of_update he with hnew | he
    · cases hnew
      exact .inr (hasks hx.future)
    · exact .inl (.of_lookup he)
  | «open» j f k b hj hf hk hx hr =>
    refine hr.serves hi (fun m p hm => ?_) fun _ _ he => .inl (.of_lookup he)
    rcases eq_or_of_update hm with hnew | hm
    · cases hnew
      exact .inr (hasks hx.future)
    · exact .inl (.of_link hm)
  | resolve d k j f hd hk hx hr =>
    refine .inl (hr.serves hi (fun m p hm => ?_) fun _ _ => .of_lookup_removed)
    rcases eq_or_of_update hm with hnew | hm
    · cases hnew
      exact .of_lookup hd
    · exact .of_link hm
  | fail d j f hd hx hr =>
    exact .inl (hr.serves hi (fun _ _ => .of_link) fun _ _ => .of_lookup_removed)
  | connect k j f hk hx hr =>
    refine .inl (hr.serves hi (fun m p hm => ?_) fun _ _ => .of_lookup)
    rcases eq_or_of_update hm with hnew | hm
    · cases hnew
      exact .of_link hk
    · exact .of_link hm
  | clean k j hk hx hr =>
    exact .inl (hr.serves hi (fun _ _ => .of_link_removed) fun _ _ => .of_lookup)

end

/-- A call that the relay makes of the proxy, for the clients in `D` only. -/
def ProxyEvent.CallsFor (D : ℕ → Prop) : ProxyEvent → Prop
  | .postData k _ | .closeConnection k => D k
  | .setReady .. | .postUdpData .. => True
  | _ => False

theorem ProxyEvent.CallsFor.mono {D E : ℕ → Prop} {e : ProxyEvent} (h : e.CallsFor D)
    (hDE : ∀ i, D i → E i) : e.CallsFor E := by
  cases e with
  | postData | closeConnection => exact hDE _ h
  | setReady | postUdpData => trivial
  | _ => exact h.elim

namespace RelayLocalBindingService

variable {live : ℕ → Bool} {s t u : RelayLocalBindingService} {o o' : List ProxyEvent}
  {l : RelayLabel}

theorem serves_iff {i : ℕ} : s.linksOf.Serves i ↔
    (∃ k c, s.localConnectionPool.get k = some c ∧ c.proxySideConnectionId = i) ∨
      ∃ d f, s.dnsFutureManager.get d = some f ∧ f.context.proxySideConnectionId = i := by
  simp [Links.Serves, linksOf]

/-- What the relay does is for nobody that it did not serve. -/
structure ServesOn (s : RelayLocalBindingService) (o : List ProxyEvent)
    (t : RelayLocalBindingService) : Prop where
  serves : ∀ i, t.linksOf.Serves i → s.linksOf.Serves i
  calls : ∀ e ∈ o, e.CallsFor s.linksOf.Serves

namespace ServesOn

theorem refl (s : RelayLocalBindingService) : ServesOn s [] s :=
  ⟨fun _ => id, fun _ h => by cases h⟩

theorem trans (h : ServesOn s o t) (h' : ServesOn t o' u) : ServesOn s (o ++ o') u := by
  refine ⟨fun i hi => h.serves i (h'.serves i hi), fun e he => ?_⟩
  rcases List.mem_append.1 he with he | he
  · exact h.calls e he
  · exact (h'.calls e he).mono h.serves

end ServesOn

/-- Completing a future is for no client. -/
theorem callsFor_complete {D : ℕ → Prop} (handle : Option ℕ) :
    ∀ e ∈ complete live handle none, e.CallsFor D := by
  intro e he
  unfold complete at he
  split at he
  · cases he
  · split at he
    · rw [List.mem_singleton] at he
      rw [he]
      trivial
    · cases he

/-- A turn that creates nothing leaves the connections to their clients. -/
theorem RelayTurn.connection_of_get {k : ℕ} {d : RelayLocalDeviceConnection}
    (h : RelayTurn live s l o t) (hs : Tidy s) (hl : ∀ k, l ≠ .create k)
    (hd : t.localConnectionPool.get k = some d) :
    ∃ c, s.localConnectionPool.get k = some c ∧
      c.proxySideConnectionId = d.proxySideConnectionId := by
  cases h.moved hs k with
  | gone hnone =>
    rw [hnone] at hd
    cases hd
  | created c i f hcreate => exact absurd hcreate (hl k)
  | kept hget => exact ⟨d, by rw [← hget, hd], rfl⟩
  | orphaned c _ hc _ _ hd' | connected c f _ _ hc _ _ _ _ hd' | data c _ hc _ _ hd'
  | marked c _ hc _ hd' =>
    rw [hd'] at hd
    cases hd
    exact ⟨c, hc, rfl⟩

/-- A turn that starts no lookup leaves the lookups to their clients. -/
theorem RelayTurn.lookup_of_get {d : ℕ} {f : Future RelayDnsRequest DnsResult}
    (h : RelayTurn live s l o t) (hl : l ≠ .lookup) (hf : t.dnsFutureManager.get d = some f) :
    ∃ g, s.dnsFutureManager.get d = some g ∧ g.context = f.context := by
  have hrelease {m : FuturePoolManager RelayDnsRequest DnsResult} {e : ℕ}
      (hf : (m.releaseFuture e).get d = some f) : m.get d = some f ∧ d ≠ e := by
    rw [FuturePoolManager.get_releaseFuture] at hf
    split at hf
    · cases hf
    · next hne => exact ⟨hf, hne⟩
  cases h with
  | lookup => exact absurd rfl hl
  | refuse attempts request i m hacquire =>
    obtain ⟨hm, hne⟩ := hrelease hf
    rw [(FuturePoolManager.acquireFuture_eq_some hacquire).2.2.2, if_neg hne] at hm
    exact ⟨f, hm, rfl⟩
  | answer i dnsFuture result hi =>
    change (s.dnsFutureManager.setReady i result).get d = some f at hf
    rw [FuturePoolManager.get_setReady hi] at hf
    split at hf
    · next hd =>
      cases hf
      exact ⟨dnsFuture, by rw [hd, hi], rfl⟩
    · exact ⟨f, hf, rfl⟩
  | fail | resolve => exact ⟨f, (hrelease hf).1, rfl⟩
  | _ => exact ⟨f, hf, rfl⟩

/-- The calls of a turn are for the client of its connection. -/
theorem RelayTurn.callsFor (h : RelayTurn live s l o t) : ∀ e ∈ o, e.CallsFor s.linksOf.Serves := by
  cases h with
  | fail => exact callsFor_complete _
  | data k c data hc | closed k c hc =>
    exact List.forall_mem_singleton.2 (serves_iff.2 (.inl ⟨k, c, hc, rfl⟩))
  | connected | dataUdp => exact List.forall_mem_singleton.2 trivial
  | mark l k c o hc hmark hl =>
    rcases hl with ⟨-, rfl⟩ | ⟨-, rfl⟩ | ⟨-, -, -, rfl⟩
    · exact List.forall_mem_cons.2 ⟨serves_iff.2 (.inl ⟨k, c, hc, rfl⟩), callsFor_complete _⟩
    · exact fun _ he => by cases he
    · exact callsFor_complete _
  | _ => exact fun _ he => by cases he

theorem RelayTurn.servesOn (h : RelayTurn live s l o t) (hs : Tidy s)
    (hl : l ≠ .lookup ∧ ∀ k, l ≠ .create k) : ServesOn s o t := by
  refine ⟨fun i hi => ?_, h.callsFor⟩
  rw [serves_iff] at hi ⊢
  rcases hi with ⟨k, d, hd, hdi⟩ | ⟨d, f, hf, hfi⟩
  · obtain ⟨c, hc, hcd⟩ := h.connection_of_get hs hl.2 hd
    exact .inl ⟨k, c, hc, hcd.trans hdi⟩
  · obtain ⟨g, hg, hgf⟩ := h.lookup_of_get hl.1 hf
    exact .inr ⟨d, g, hg, by rw [hgf, hfi]⟩

theorem RelayTurns.servesOn {L : RelayLabel → Prop} (h : RelayTurns live L s o t) (hs : Tidy s)
    (hL : ∀ l, L l → l ≠ .lookup ∧ ∀ k, l ≠ .create k) : ServesOn s o t := by
  induction h with
  | refl => exact .refl s
  | tail h hl ht ih => exact ih.trans (ht.servesOn (h.tidy hs) (hL _ hl))

variable (R : RelayPlatform) (live)

/-- A lookup that ends leads to a connection for the client that it was for. -/
theorem processDnsResult_servesOn (hs : Tidy s) (d : ℕ) :
    ∃ o t, (∀ o₀, processDnsResult R live (s, o₀) d = (t, o₀ ++ o)) ∧ ServesOn s o t ∧ Tidy t := by
  cases hd : s.dnsFutureManager.get d with
  | none => exact ⟨[], s, fun o₀ => by simp [processDnsResult, hd], .refl s, hs⟩
  | some dnsFuture =>
    rcases processDnsResult_cases R live hd with ⟨attempts, q, hq, h⟩ |
      ⟨attempts, y, k, q, halive, hq, hnew, h⟩
    · have hturn : RelayTurn live s .resolve _ _ := .fail d dnsFuture attempts q hd hq
      exact ⟨_, _, h, hturn.servesOn hs (by simp), hturn.tidy hs⟩
    · have hturn : RelayTurn live s (.create k) [] _ :=
        .resolve d dnsFuture attempts y k q hd halive hq hnew
      refine ⟨[], _, fun o₀ => by rw [h, List.append_nil], ⟨fun i hi => ?_, fun _ he => by cases he⟩,
        hturn.tidy hs⟩
      rw [serves_iff] at hi ⊢
      rcases hi with ⟨j, c, hc, hci⟩ | ⟨e, f, hf, hfi⟩
      · change q.get j = some c at hc
        rw [Storage.get_acquire hq] at hc
        split at hc
        · cases hc
          exact .inr ⟨d, dnsFuture, hd, by rw [← hnew.proxySideConnectionId, hci]⟩
        · exact .inl ⟨j, c, hc, hci⟩
      · obtain ⟨g, hg, hgf⟩ := hturn.lookup_of_get (by simp) hf
        exact .inr ⟨e, g, hg, by rw [hgf, hfi]⟩

theorem processDnsResults_servesOn (hs : Tidy s) :
    ServesOn s (processDnsResults R live s).2 (processDnsResults R live s).1 := by
  obtain ⟨o, t, ht, hserves, -⟩ := foldl_does (D := ServesOn) (I := fun _ s => Tidy s) .refl .trans
    (fun d _ _ hs => processDnsResult_servesOn live R hs d) s.dnsFutureManager.futureList hs []
  rw [processDnsResults, ht]
  exact hserves

theorem tick_servesOn (hs : Tidy s) (nowMS : ℕ) :
    ServesOn s (tick R live s nowMS).2 (tick R live s nowMS).1 := by
  have hclock : RelayTurn live s .quiet [] { s with localTicker := nowMS } :=
    quiet_turn nowMS s.attempts s.posts
  have hs' := hclock.tidy hs
  have h₁ := (hclock.servesOn hs (by simp)).trans (processDnsResults_servesOn live R hs')
  have htidy : Tidy (processDnsResults R live { s with localTicker := nowMS }).1 :=
    (processDnsResults_turns R live _).tidy hs'
  refine h₁.trans ((passes_turns live htidy).servesOn htidy fun l hl => ?_)
  obtain ⟨k, rfl | rfl | rfl | rfl⟩ := hl
  all_goals simp

/-- A call from outside is for nobody new. -/
theorem step_servesOn (hs : Tidy s) {e : RelayEvent}
    (he : (∃ nowMS, e = .tick nowMS) ∨ ∀ l, e.Allows l → l ≠ .lookup ∧ ∀ k, l ≠ .create k) :
    ServesOn s (step R live s e).2 (step R live s e).1 := by
  rcases he with ⟨nowMS, rfl⟩ | he
  · exact tick_servesOn live R hs nowMS
  · exact (step_turns R live hs e).servesOn hs he

end RelayLocalBindingService

namespace ProxyAccessService

variable {σ : Type*} {S : Services σ} {P : Platform} {s t : ProxyAccessService σ} {i : ℕ}

/-- The client `i` was accepted, and was granted something, if it is live. -/
structure GrantedClient (s : ProxyAccessService σ) (i : ℕ) : Prop where
  le_lastId : i ≤ s.clientConnectionPool.lastId
  granted : ∀ c ∈ s.clientConnectionPool.get i, c.localAuthId ≠ 0

theorem GrantedClient.later (h : GrantedClient s i) (hlater : Later s t) : GrantedClient t i := by
  refine ⟨h.le_lastId.trans hlater.lastId, fun d hd => ?_⟩
  obtain ⟨c, hc, -, -, hid⟩ := hlater.connection i d h.le_lastId hd
  have hz := h.granted c hc
  rwa [hid hz]

/-- A client that waits for a relay connection was granted something. -/
theorem ServesGranted.grantedClient {f : ℕ} {z : Completion ℕ} (hg : ServesGranted s) (hs : Sound s)
    (hf : s.connectionFutureOf f = some (i, z)) : GrantedClient s i := by
  obtain ⟨c, hc, hcf⟩ := Option.bind_eq_some_iff.1 (hs.toPaired.futureOf_of_future hf)
  refine ⟨Storage.le_lastId_of_get hc, fun d hd => ?_⟩
  obtain rfl : c = d := Option.some.inj (hc.symm.trans hd)
  exact hg.granted hc (.inr (.inl (by rw [hcf]; rfl)))

/-- The relay keeps to the conditions of the deadline when it calls for granted clients only. -/
theorem along_punctual {es : List ProxyEvent} (hs : Sound s)
    (hes : ∀ e ∈ es, e.CallsFor (GrantedClient s)) : Along (step S P) Punctual s es := by
  induction es generalizing s with
  | nil => trivial
  | cons e es ih =>
    obtain ⟨he, hes⟩ := List.forall_mem_cons.1 hes
    refine ⟨?_, fun t ht => ih (step_sound s e t hs ht) fun e' he' => ?_⟩
    · cases e with
      | postData | closeConnection => exact ⟨trivial, GrantedClient.granted he, trivial⟩
      | setReady | postUdpData => exact ⟨trivial, trivial, trivial⟩
      | _ => exact he.elim
    · exact (hes e' he').mono fun i hi => hi.later ((step_turns hs ht).later hs)

/-- Nothing of the grants is in the services. -/
theorem Accounted.services (h : Accounted s) (x : σ) : Accounted { s with services := x } where
  sound := h.sound.congr (fun _ => rfl) rfl fun _ => rfl
  ledger := ⟨h.ledger.live, h.ledger.dead, h.ledger.fresh, h.ledger.ne_zero, h.ledger.destroyed⟩
  served := ⟨h.served.unserved⟩

theorem Timely.services (h : Timely s) (x : σ) : Timely { s with services := x } where
  toAccounted := h.toAccounted.services x
  waiting := ⟨h.waiting.listed⟩
  ordered := ⟨h.ordered.live, h.ordered.sorted⟩

end ProxyAccessService

namespace ProxyWithRelay

open ProxyAccessService RelayLocalBindingService

variable {α : Type*} {R : RelayPlatform} {A : AuthServiceStub α} {P : Platform}
  {w w' : ProxyWithRelay α} {l : TurnLabel}

/-- Whom the relay serves was granted something, if it is live. -/
structure RelayServesGranted (w : ProxyWithRelay α) : Prop where
  tidy : w.relay.Tidy
  granted : ∀ i, w.relay.linksOf.Serves i → GrantedClient w i

/-- The calls of the relay leave the services as they are. -/
theorem services_of_turn (h : Turn (wiredServices R A) w l w')
    (hl : l = .ready ∨ ∃ k, l = .close k) : w'.services = w.services := by
  obtain rfl | ⟨k, rfl⟩ := hl
  · cases h with
    | ready κ f r =>
      unfold ProxyAccessService.setReady
      split
      · rfl
      · split
        · rfl
        · rfl
  · cases h with
    | close k c hc =>
      have hspec := closeConnection_spec w c
      simp only [Prod.mk.injEq] at hspec
      exact hspec.1.2.2

/-- A turn of the proxy that serves no connection without a grant makes the relay serve none. -/
theorem RelayServesGranted.turn (h : Turn (wiredServices R A) w l w') (hs : Accounted w)
    (ht : Accounted w') (hr : RelayServesGranted w) : RelayServesGranted w' := by
  have hlater := h.later hs.sound
  refine ⟨h.preserves wiredServices_preserves hr.tidy, fun i hi => ?_⟩
  -- The turns that the relay makes of the proxy do not lead back to the relay.
  by_cases hl : l ≠ .ready ∧ ∀ k, l ≠ .close k
  · obtain ⟨m, -, hstep⟩ := turn_tunnel h hs.sound ht.sound hr.tidy hl
    -- Whoever asked in this turn has a future for it, and so was granted something.
    rcases hstep.serves hi with hi | ⟨f, z, hf⟩
    · exact (hr.granted i hi).later hlater
    · exact ht.served.grantedClient ht.sound hf
  · have hservices : w'.services = w.services := by
      refine services_of_turn h ?_
      rw [not_and_or, not_not, not_forall] at hl
      exact hl.imp_right fun ⟨k, hk⟩ => ⟨k, not_not.1 hk⟩
    have hrelay : w'.relay = w.relay := congrArg Prod.fst hservices
    rw [hrelay] at hi
    exact (hr.granted i hi).later hlater

/-- What holds of the grants in every state of a run. -/
structure Granting (w : ProxyWithRelay α) : Prop where
  accounted : Accounted w
  relay : RelayServesGranted w

theorem granting_init (devices : List RelayLocalDevice) (a : α) : Granting (init devices a) where
  accounted := accounted_init _
  relay := by
    refine ⟨tidy_init devices, fun i hi => ?_⟩
    rcases serves_iff.1 hi with ⟨_, _, h, -⟩ | ⟨_, _, h, -⟩
    all_goals cases h

/-- Steps of the proxy, by the transport or by the relay. -/
theorem Granting.exec {es : List ProxyEvent} (h : Granting w)
    (hw : ProxyPlatform.exec (ProxyAccessService.step (wiredServices R A) P) w es = .ok w') :
    Granting w' := by
  refine exec_invariant (I := Granting) (fun s e t hs ht => ?_) h hw
  obtain ⟨ht, hr⟩ := step_keeps (I := RelayServesGranted)
    (fun _ _ _ hs ht hturn hr => hr.turn hturn hs ht) hs.accounted hs.relay ht
  exact ⟨ht, hr⟩

/-- What a call of the relay from outside does is for nobody new. -/
theorem relayCall_servesOn {e : WiredEvent α} {e' : RelayEvent} (h : Granting w)
    (he : e.toCall = .relay e') : ServesOn w.relay (relayCall R w e').2 (relayCall R w e').1 := by
  have hlabels := tunnels_of_relay (w := w) he
  refine step_servesOn (alive w) R h.relay.tidy (hlabels.imp_right fun hl l hallows => ?_)
  obtain ⟨⟨hlookup, hcreate⟩, -⟩ := hl l hallows
  exact ⟨hlookup, fun k => (hcreate k).1⟩

/-- The state in which the relay makes its calls, and the clients that they are for. -/
theorem Granting.relayCall {e : WiredEvent α} {e' : RelayEvent} (h : Granting w)
    (he : e.toCall = .relay e') :
    Granting { w with services := ((relayCall R w e').1, w.services.2) } ∧
      ∀ x ∈ (relayCall R w e').2, x.CallsFor (GrantedClient w) := by
  have hserves := relayCall_servesOn (R := R) h he
  refine ⟨⟨h.accounted.services _, (step_turns R (alive w) h.relay.tidy e').tidy h.relay.tidy,
    fun i hi => ?_⟩, fun x hx => (hserves.calls x hx).mono h.relay.granted⟩
  obtain ⟨hle, hgranted⟩ := h.relay.granted i (hserves.serves i hi)
  exact ⟨hle, hgranted⟩

theorem Granting.step {e : WiredEvent α} (h : Granting w) (hw : step R A P w e = .ok w') :
    Granting w' := by
  rw [ProxyWithRelay.step] at hw
  split at hw
  · next e' hcall =>
    have hone : ProxyPlatform.exec (ProxyAccessService.step (wiredServices R A) P) w [e'] = .ok w' := by
      rw [exec_cons_of_ok [] hw, exec_nil]
    exact h.exec hone
  · next e' hcall => exact (h.relayCall hcall).1.exec hw
  · cases hw
    exact ⟨h.accounted.services _, h.relay.tidy, fun i hi =>
      ⟨(h.relay.granted i hi).le_lastId, (h.relay.granted i hi).granted⟩⟩

theorem granting_of_exec {devices : List RelayLocalDevice} {a : α} {es : List (WiredEvent α)}
    (h : ProxyPlatform.exec (step R A P) (init devices a) es = .ok w) : Granting w :=
  exec_invariant (fun _ _ _ hs ht => hs.step ht) (granting_init devices a) h

/-- In every run, each call that the relay makes of the proxy to post data to a client or to close
    it finds the client gone, or with a grant. -/
theorem relayGranted_of_exec {devices : List RelayLocalDevice} {a : α} {es : List (WiredEvent α)}
    {e : WiredEvent α} {e' : RelayEvent}
    (h : ProxyPlatform.exec (step R A P) (init devices a) es = .ok w) (he : e.toCall = .relay e') :
    Along (ProxyAccessService.step (wiredServices R A) P) RelayGranted
      { w with services := ((relayCall R w e').1, w.services.2) } (relayCall R w e').2 := by
  obtain ⟨hw, hcalls⟩ := (granting_of_exec h).relayCall (R := R) he
  refine Along.of_invariant (I := fun _ => True) (fun _ _ _ he => he.2.1)
    (fun _ _ _ _ _ _ => trivial) trivial (along_punctual hw.accounted.sound fun x hx => ?_)
  exact (hcalls x hx).mono fun i hi => ⟨hi.le_lastId, hi.granted⟩

/-! ## The deadline -/

/-- The condition `C` holds of what the event does to the proxy. -/
def OnProxy (C : ProxyWithRelay α → ProxyEvent → Prop) (w : ProxyWithRelay α) (e : WiredEvent α) :
    Prop :=
  ∀ e', e.toCall = .proxy e' → C w e'

variable (R A P) in
/-- On the events `es`, no connection without a grant outlives its deadline, and none gets to
    the idle list. -/
structure KeepsDeadline (devices : List RelayLocalDevice) (a : α) (es : List (WiredEvent α)) :
    Prop where
  expired : ∀ pre remoteAddress localAddress k mid nowMS s t u c,
    pre ++ .onNewConnection remoteAddress localAddress true :: (mid ++ [.tick nowMS]) <+: es →
    ProxyPlatform.exec (step R A P) (init devices a) pre = .ok s →
    step R A P s (.onNewConnection remoteAddress localAddress true) = .ok t →
    s.clientConnectionPool.get k = none → (t.clientConnectionPool.get k).isSome →
    ProxyPlatform.exec (step R A P) t (mid ++ [.tick nowMS]) = .ok u →
    u.clientConnectionPool.get k = some c → c.localAuthId = 0 →
    sub64 nowMS paClientAuthTimeoutMS < s.localTicker
  idle : ∀ s, Visits (step R A P) (init devices a) es s → ∀ k c,
    s.clientConnectionPool.get k = some c → c.localAuthId = 0 →
    k ∉ s.timeoutLists.nodes .idleTimeout

/-- The conditions on what comes from outside. -/
def PunctualOutside (w : ProxyWithRelay α) (e : WiredEvent α) : Prop :=
  OnProxy TickForward w e ∧ OnProxy BodyGranted w e

theorem step_timely {e : WiredEvent α} (hg : Granting w) (hs : Timely w) (he : PunctualOutside w e)
    (hw : step R A P w e = .ok w') : Timely w' ∧ Aged w w' := by
  obtain ⟨hforward, hbody⟩ := he
  rw [ProxyWithRelay.step] at hw
  split at hw
  · next e' hcall =>
    have hrelay : RelayGranted w e' := by
      cases e <;> cases hcall <;> trivial
    exact ProxyAccessService.step_timely hs ⟨hforward e' hcall, hrelay, hbody e' hcall⟩ hw
  · next e' hcall =>
    obtain ⟨hw', hcalls⟩ := hg.relayCall (R := R) hcall
    have hes : Along (ProxyAccessService.step (wiredServices R A) P) Punctual
        { w with services := ((ProxyWithRelay.relayCall R w e').1, w.services.2) }
        (ProxyWithRelay.relayCall R w e').2 :=
      along_punctual hw'.accounted.sound fun x hx =>
        (hcalls x hx).mono fun i hi => ⟨hi.le_lastId, hi.granted⟩
    obtain ⟨ht, ha⟩ := ProxyAccessService.exec_timely (hs.services _) hes hw
    exact ⟨ht, ⟨ha.lastId, ha.old⟩⟩
  · cases hw
    exact ⟨hs.services _, ⟨le_rfl, fun k d _ hd hz => ⟨d, hd, hz, rfl⟩⟩⟩

theorem exec_timely {es : List (WiredEvent α)} (hg : Granting w) (hs : Timely w)
    (hes : Along (step R A P) PunctualOutside w es)
    (h : ProxyPlatform.exec (step R A P) w es = .ok w') : Granting w' ∧ Timely w' ∧ Aged w w' := by
  refine exec_invariant_along (I := fun t => Granting t ∧ Timely t ∧ Aged w t)
    (fun u e v hu hC hv => ?_) ⟨hg, hs, .refl w⟩ hes h
  obtain ⟨hgu, hu, ha⟩ := hu
  obtain ⟨hv', ha'⟩ := step_timely hgu hu hC hv
  exact ⟨hgu.step hv, hv', ha.trans ha'⟩

/-- The two services keep the deadline, if and only if no body comes in for an unmarked connection
    without a grant. -/
theorem keepsDeadline_iff (devices : List RelayLocalDevice) (a : α) (es : List (WiredEvent α))
    (hforward : Along (step R A P) (OnProxy TickForward) (init devices a) es) :
    KeepsDeadline R A P devices a es ↔
      Along (step R A P) (OnProxy BodyGranted) (init devices a) es := by
  constructor
  · intro h
    refine along_iff.2 fun pre e s hpre hs => ?_
    cases e with
    | onData k data =>
      intro e' he'
      cases he'
      intro c hc hp
      -- A body without a grant puts the client into the idle list, in the state after it.
      by_contra hno
      rw [not_or, Bool.not_eq_true, not_not] at hno
      obtain ⟨t, d, ht, hd, hz, hidle⟩ := step_onHttpBody (S := wiredServices R A) (P := P) data
        (granting_of_exec hs).accounted.sound hc hp hno.1 hno.2
      exact h.idle t ⟨_, hpre, (exec_snoc _ hs).trans ht⟩ k d hd hz hidle
    | onNewConnection | onPeerClose | onFlush | onUdpData | tick =>
      intro e' he'
      cases he'
      trivial
    | _ =>
      intro e' he'
      cases he'
  · intro hbody
    have hes : Along (step R A P) PunctualOutside (init devices a) es := hforward.and hbody
    have hinit : Timely (init devices a) := timely_init _
    refine ⟨?_, fun s hs k c hc hz => ?_⟩
    · intro pre remoteAddress localAddress k mid nowMS s t u c hpre hs ht hfree hk hu hc hz
      obtain ⟨hgs, hs', -⟩ := exec_timely (granting_init devices a) hinit
        (hes.of_prefix ((List.prefix_append _ _).trans hpre)) hs
      have hrest := (hes.of_prefix hpre).of_append hs
      have ht' := (step_timely hgs hs' hrest.1 ht).1
      obtain ⟨v, hv, hu⟩ := exec_append_eq_ok.1 hu
      obtain ⟨w, hw, hu⟩ := exec_cons_eq_ok.1 hu
      cases hu
      have hmid := hrest.2 t ht
      obtain ⟨-, hv', hav⟩ := exec_timely (hgs.step ht) ht'
        (hmid.of_prefix (List.prefix_append _ _)) hv
      -- The tick comes when the deadline of the new connection is over.
      have htick : v.localTicker ≤ nowMS := (hmid.of_append hv).1.1 _ rfl
      have hnew := step_accepts (S := wiredServices R A) (P := P) ht hfree hk
      exact tick_expired hnew hav hv' htick hw hc hz
    · obtain ⟨pre, hpre, hs⟩ := hs
      obtain ⟨-, hs', -⟩ := exec_timely (granting_init devices a) hinit (hes.of_prefix hpre) hs
      exact hs'.waiting.not_mem_idle hc hz

end ProxyWithRelay

end ProxyPlatform
