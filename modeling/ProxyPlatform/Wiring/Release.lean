import ProxyPlatform.Wiring.Silence

/-!
# What a client leaves behind

A client that is destroyed may have a connection or a UDP channel of the relay. `OnPeerClose` hands
back what it finds in the client; the other ways to the kill list, and `DestroyConnection` itself, do
not tell the relay, and no result is looked at that was not taken up yet.

* `Unmarked`, `UdpOpen`: what the turns of the relay leave to live, but for those that end it;
* `ClientCloses`, `ClientClosesUdp`: the peer of a client closes, and the client knows what it holds;
* `Estate`: a run, with which connections and UDP channels of the relay are marked;
* `releases_iff`: the relay releases what a destroyed client held exactly if its peer closed so.
-/

namespace ProxyPlatform

/-! ## Marks of the relay -/

namespace RelayLocalBindingService

variable {R : RelayPlatform} {alive : ℕ → Bool} {s t : RelayLocalBindingService} {k u : ℕ} {l : RelayLabel}
  {o : List ProxyEvent}

/-- The connection `k` is not marked. -/
def Unmarked (k : ℕ) (s : RelayLocalBindingService) : Prop :=
  ∀ d, s.localConnectionPool.get k = some d → d.deleteMark = false

/-- No UDP channel waits for its timeout, and the UDP channel `u` is not marked. -/
structure UdpOpen (u : ℕ) (s : RelayLocalBindingService) : Prop where
  idle : s.udpChannelLists.nodes .idleTimeout = []
  unmarked : ∀ x, s.localUdpChannelPool.get u = some x → x.deleteMark = false

/-- The turns that mark the connection `k` have it in their label. -/
theorem RelayTurn.unmarked (h : RelayTurn alive s l o t) (hs : Tidy s) (hk : Unmarked k s)
    (hl : l ≠ .close k ∧ l ≠ .destroy k ∧ l ≠ .idle k) : Unmarked k t := by
  intro d hd
  cases h.moved hs k with
  | gone hnone => rw [hnone] at hd; cases hd
  | created c i f _ _ hc hnew => rw [hc] at hd; cases hd; exact hnew.deleteMark
  | kept hget => exact hk d (hget ▸ hd)
  | orphaned c _ hc _ _ hc' | connected c _ _ _ hc _ _ _ _ hc' | data c _ hc _ _ hc' =>
    rw [hc'] at hd
    cases hd
    exact hk c hc
  | marked c hl' => exact absurd hl' (by simp [hl])

theorem nodes_idleTimeout_of_turn (h : RelayTurn alive s l o t)
    (hs : s.udpChannelLists.nodes .idleTimeout = []) (hl : ∀ v, l ≠ .keepUdp v) :
    t.udpChannelLists.nodes .idleTimeout = [] := by
  cases h with
  | keepUdp v => exact absurd rfl (hl v)
  -- The other turns only take a UDP channel off the list.
  | markUdp l v x =>
    refine List.eq_nil_iff_forall_not_mem.2 fun j hj => ?_
    change j ∈ (s.udpChannelLists.grabTail .kill v).nodes .idleTimeout at hj
    rw [Linked.mem_grabTail] at hj
    split at hj
    · cases hj
    · rw [hs] at hj
      cases hj
  | cleanUdp v =>
    refine List.eq_nil_iff_forall_not_mem.2 fun j hj => ?_
    change j ∈ (s.udpChannelLists.unlink v).nodes .idleTimeout at hj
    rw [Linked.mem_unlink, hs] at hj
    cases hj.2
  | _ => exact hs

/-- As no UDP channel is kept alive, none is idle. -/
theorem RelayTurn.udpOpen (h : RelayTurn alive s l o t) (hs : Tidy s) (hu : UdpOpen u s)
    (hl : (∀ v, l ≠ .keepUdp v) ∧ l ≠ .destroyUdp u) : UdpOpen u t := by
  refine ⟨nodes_idleTimeout_of_turn h hu.idle hl.1, fun y hy => ?_⟩
  cases h.udpMoved hs u with
  | gone hnone => rw [hnone] at hy; cases hy
  | created x _ _ hx hmark => rw [hx] at hy; cases hy; exact hmark
  | kept hget => exact hu.unmarked y (hget ▸ hy)
  | touched x hl' => exact absurd hl' (hl.1 u)
  | marked x hl' =>
    rcases hl' with hl' | ⟨-, hidle⟩
    · exact absurd hl' hl.2
    · rw [hu.idle] at hidle
      cases hidle

/-- `DestroyConnection` marks the connection. -/
theorem destroyConnection_dying {d : RelayLocalDeviceConnection} (hs : Tidy s)
    (hd : s.localConnectionPool.get k = some d) : Dying k (destroyConnection s k) := by
  obtain rfl := hs.connectionId hd
  refine ⟨?_, fun c hc => ?_⟩
  · have hturns : RelayTurns (fun _ => false) _ s [] _ := destroyConnection_turns hs d.connectionId
    exact hturns.invariant (I := fun t => d.connectionId ≤ t.localConnectionPool.lastId)
      (fun _ _ _ _ _ hle ht => hle.trans ht.lastId.1) (Storage.le_lastId_of_get hd)
  · simp only [destroyConnection, hd, deferDestroyConnection] at hc
    split at hc
    · next hmark =>
      change (s.localConnectionPool.set _ _).get _ = _ at hc
      rw [Storage.get_set_self hd] at hc
      cases hc
      exact hmark
    · change ((s.localConnectionPool.set _ _).set _ _).get _ = _ at hc
      rw [Storage.set_set, Storage.get_set_self hd] at hc
      cases hc
      rfl

/-- `DestroyUdpChannel` marks the UDP channel. -/
theorem destroyUdpChannel_dying {x : RelayLocalDeviceUdpChannel} (hs : Tidy s)
    (hx : s.localUdpChannelPool.get u = some x) : UdpDying u (destroyUdpChannel s u) := by
  obtain rfl := hs.udpChannelId hx
  simp only [destroyUdpChannel, hx]
  refine ⟨(Storage.le_lastId_of_get hx).trans (Storage.lastId_set _ _ _).ge, fun y hy => ?_⟩
  change (s.localUdpChannelPool.set _ _).get _ = _ at hy
  rw [Storage.get_set_self hx] at hy
  cases hy
  rfl

end RelayLocalBindingService

namespace ProxyWithRelay

open ProxyAccessService RelayLocalBindingService

variable {α : Type*} {R : RelayPlatform} {A : AuthServiceStub α} {P : Platform}
  {s w w' : ProxyWithRelay α} {e : WiredEvent α} {pre es : List (WiredEvent α)} {i k u : ℕ}

/-! ## What ends a connection or a UDP channel -/

/-- The relay ends the connection `k` of its own: its peer closes it, or it is idle. -/
def RelayCloses (w : ProxyWithRelay α) (k : ℕ) : WiredEvent α → Prop
  | .relayOnPeerClose j => j = k ∧ (w.relay.localConnectionPool.get k).isSome
  | e => IdlesOut w k e

/-- The peer of an unmarked client closes, and the client knows the relay connection `k`. -/
def ClientCloses (w : ProxyWithRelay α) (k : ℕ) : WiredEvent α → Prop
  | .onPeerClose i => (w.relay.localConnectionPool.get k).isSome ∧
    ∃ c, w.clientConnectionPool.get i = some c ∧ c.deleteMark = false ∧ c.relaySideConnectionId = k
  | _ => False

/-- The peer of an unmarked client closes, and the relay's UDP channel `u` is that of the client. -/
def ClientClosesUdp (w : ProxyWithRelay α) (u : ℕ) : WiredEvent α → Prop
  | .onPeerClose i => (w.relay.localUdpChannelPool.get u).isSome ∧
    ∃ c j x, w.clientConnectionPool.get i = some c ∧ c.deleteMark = false ∧ c.relaySideConnectionId = 0 ∧
      c.type = .s5Udp ∧ c.bindUdpChannel = some j ∧ w.clientUdpChannelPool.get j = some x ∧
      x.relaySideUdpChannelId = u
  | _ => False

/-! ## What an event does to the relay -/

/-- What the peer of a client does to the relay. -/
theorem relay_onPeerClose (hw : step R A P w (.onPeerClose i) = .ok w') :
    (∃ c, w.clientConnectionPool.get i = some c ∧ c.deleteMark = false ∧ c.relaySideConnectionId ≠ 0 ∧
      w'.relay = w.relay.destroyConnection c.relaySideConnectionId) ∨
    (∃ c j x, w.clientConnectionPool.get i = some c ∧ c.deleteMark = false ∧
      c.relaySideConnectionId = 0 ∧ c.type = .s5Udp ∧ c.bindUdpChannel = some j ∧
      w.clientUdpChannelPool.get j = some x ∧
      w'.relay = w.relay.destroyUdpChannel x.relaySideUdpChannelId) ∨
    (∀ c, w.clientConnectionPool.get i = some c → c.deleteMark = false → c.relaySideConnectionId = 0 ∧
      (c.type ≠ .s5Udp ∨ c.bindUdpChannel = none)) ∧ w'.relay = w.relay := by
  have hw : w.onConnection i (fun c => onPeerClose (wiredServices R A) w c) = .ok w' := hw
  obtain ⟨hnone, rfl⟩ | ⟨c, s', c', hc, hp, rfl⟩ := onConnection_eq_ok hw
  · refine .inr (.inr ⟨fun c hc => ?_, rfl⟩)
    rw [hnone] at hc
    cases hc
  by_cases hmark : c.deleteMark = true
  · rw [ProxyAccessService.onPeerClose, if_pos hmark] at hp
    cases hp
    refine .inr (.inr ⟨fun d hd hmark' => ?_, rfl⟩)
    cases hc.symm.trans hd
    rw [hmark] at hmark'
    cases hmark'
  rw [Bool.not_eq_true] at hmark
  obtain ⟨v, l, heq, hcases⟩ := onPeerClose_eq_ok hmark hp
  cases heq
  rcases hcases with ⟨hne, rfl, -⟩ | ⟨hzero, ⟨j, x, htype, hbind, hx, rfl, -⟩⟩ | ⟨hzero, hno, rfl, -⟩
  · exact .inl ⟨c, hc, hmark, hne, rfl⟩
  · exact .inr (.inl ⟨c, j, x, hc, hmark, hzero, htype, hbind, hx, rfl⟩)
  · refine .inr (.inr ⟨fun d hd _ => ?_, rfl⟩)
    cases hc.symm.trans hd
    exact ⟨hzero, hno⟩

/-- The turns of the events of the proxy, but for the ends of the clients. -/
theorem ne_peerClose_of_allows {e' : ProxyEvent} {l : TurnLabel} (hcall : e.toCall = .proxy e')
    (he : ∀ i, e ≠ .onPeerClose i) (hl : e'.Allows l) (j : ℕ) : l ≠ .peerClose j := by
  cases e with
  | onPeerClose i => exact absurd rfl (he i)
  | onNewConnection | onFlush | onData =>
    cases hcall
    obtain rfl := hl
    simp
  | onUdpData =>
    cases hcall
    rcases hl with rfl | ⟨_, rfl⟩
    all_goals simp
  | tick nowMS =>
    cases hcall
    rcases hl with rfl | ⟨_, rfl⟩ | ⟨_, rfl⟩ | ⟨_, rfl⟩
    all_goals simp
  | _ => cases hcall

/-- What a step keeps of the relay: what the calls of the proxy keep that destroy nothing, the peer
    of a client, and the events of the relay. -/
theorem relay_keeps {I : RelayLocalBindingService → Prop} (h : Bound w) (hi : I w.relay)
    (hcalls : ∀ alive s l o t, l.IsCall → Tidy s → I s → RelayTurn alive s l o t → I t)
    (hclose : ∀ i, e = .onPeerClose i → I w'.relay)
    (hrelay : ∀ e', e.toCall = .relay e' → I (relayCall R w e').1)
    (hw : ProxyWithRelay.step R A P w e = .ok w') : I w'.relay := by
  by_cases he : ∃ i, e = .onPeerClose i
  · obtain ⟨i, he⟩ := he
    exact hclose i he
  rw [ProxyWithRelay.step] at hw
  split at hw
  · next e' hcall =>
    exact ((ProxyAccessService.step_turns h.sound hw).invariant
      (I := fun t : ProxyWithRelay α => Tidy t.relay ∧ I t.relay)
      (fun _ _ _ hl _ hi ht => ht.retains (wiredServices_retains hcalls)
        (ne_peerClose_of_allows hcall (not_exists.1 he) hl) hi) h.sound ⟨h.tidy, hi⟩).2
  · next e' hcall =>
    rw [relay_of_relayStep h hcall hw]
    exact hrelay e' hcall
  · cases hw
    exact hi

/-- A call of the relay marks no connection that it does not end. -/
theorem relayCall_unmarked {e' : RelayEvent} (h : w.relay.Tidy) (hcall : e.toCall = .relay e')
    (hk : Unmarked k w.relay) (he : ¬RelayCloses w k e) : Unmarked k (relayCall R w e').1 := by
  have hturns {L : RelayLabel → Prop} {o : List ProxyEvent} {r : RelayLocalBindingService}
      (hr : RelayTurns (alive w) L w.relay o r)
      (hL : ∀ l, L l → l ≠ .close k ∧ l ≠ .destroy k ∧ l ≠ .idle k) : Unmarked k r :=
    (hr.keeps (fun _ _ _ _ hl hs hk ht => ht.unmarked hs hk (hL _ hl)) h hk).2
  have hstep := RelayLocalBindingService.step_turns R (alive w) h e'
  cases e with
  | relayOnPeerClose j =>
    cases hcall
    by_cases hj : j = k
    · subst hj
      -- A connection that the event would end is not there.
      have hnone := Option.not_isSome_iff_eq_none.1 fun hlive => he ⟨rfl, hlive⟩
      simpa only [relayCall, RelayLocalBindingService.step, RelayLocalBindingService.onConnection, hnone]
        using hk
    · refine hturns hstep ?_
      rintro l rfl
      simp [hj]
  | relayTick nowMS =>
    cases hcall
    refine hturns (tick_turns_due R (alive w) h nowMS) ?_
    rintro l (rfl | (rfl | ⟨_, rfl⟩) | ⟨m, hm, rfl⟩ | ⟨_, rfl | rfl | rfl⟩)
    case inr.inr.inl =>
      refine ⟨by simp, by simp, ?_⟩
      rintro ⟨⟩
      exact he hm
    all_goals simp
  | relayOnConnected | relayOnData | relayOnUdpData | dnsResult =>
    cases hcall
    refine hturns hstep ?_
    rintro l rfl
    simp
  | _ => cases hcall

/-- An event marks no connection that it does not end. -/
theorem step_unmarked (h : Bound w) (hk : Unmarked k w.relay) (hclient : ¬ClientCloses w k e)
    (hrelay : ¬RelayCloses w k e) (hw : step R A P w e = .ok w') : Unmarked k w'.relay := by
  refine relay_keeps h hk (fun alive s l o t hl hs hk ht => ht.unmarked hs hk ?_) ?_
    (fun e' hcall => relayCall_unmarked h.tidy hcall hk hrelay) hw
  · cases l <;> simp [RelayLabel.IsCall] at hl ⊢
  rintro i rfl
  rcases relay_onPeerClose hw with ⟨c, hc, hmark, -, hr⟩ | ⟨c, j, x, -, -, -, -, -, -, hr⟩ | ⟨-, hr⟩
  · rw [hr]
    -- The client knows another connection, or one that is gone: then `DestroyConnection` does nothing.
    cases hlive : w.relay.localConnectionPool.get c.relaySideConnectionId with
    | none => simpa only [RelayLocalBindingService.destroyConnection, hlive] using hk
    | some d =>
      have hne : c.relaySideConnectionId ≠ k := by
        rintro rfl
        exact hclient ⟨Option.isSome_iff_exists.2 ⟨d, hlive⟩, c, hc, hmark, rfl⟩
      refine ((RelayLocalBindingService.step_turns R (alive w) h.tidy
        (.destroyConnection c.relaySideConnectionId)).keeps
        (fun _ l _ _ hl hs hk ht => ht.unmarked hs hk ?_) h.tidy hk).2
      rcases hl with rfl | rfl <;> simp [hne]
  · rw [hr]
    refine ((RelayLocalBindingService.step_turns R (alive w) h.tidy
      (.destroyUdpChannel x.relaySideUdpChannelId)).keeps
      (fun _ l _ _ hl hs hk ht => ht.unmarked hs hk ?_) h.tidy hk).2
    obtain rfl := hl
    simp
  · rwa [hr]

/-- A call of the relay marks no UDP channel. -/
theorem relayCall_udpOpen {e' : RelayEvent} (h : w.relay.Tidy) (hcall : e.toCall = .relay e')
    (hu : UdpOpen u w.relay) : UdpOpen u (relayCall R w e').1 := by
  refine ((RelayLocalBindingService.step_turns R (alive w) h e').keeps
    (fun _ l _ _ hl hs hu ht => ht.udpOpen hs hu ?_) h hu).2
  cases e with
  | relayTick nowMS =>
    cases hcall
    rcases hl with rfl | rfl | ⟨_, rfl | rfl | rfl⟩ | ⟨_, rfl | rfl⟩
    all_goals simp
  | relayOnConnected | relayOnPeerClose | relayOnData | relayOnUdpData | dnsResult =>
    cases hcall
    obtain rfl := hl
    simp
  | _ => cases hcall

/-- An event marks no UDP channel but that of a client whose peer closes. -/
theorem step_udpOpen (h : Bound w) (hu : UdpOpen u w.relay) (hclient : ¬ClientClosesUdp w u e)
    (hw : step R A P w e = .ok w') : UdpOpen u w'.relay := by
  refine relay_keeps h hu (fun alive s l o t hl hs hu ht => ht.udpOpen hs hu ?_) ?_
    (fun e' hcall => relayCall_udpOpen h.tidy hcall hu) hw
  -- The proxy never calls `KeepUdpChannelAlive`.
  · cases l <;> simp [RelayLabel.IsCall] at hl ⊢
  rintro i rfl
  rcases relay_onPeerClose hw with ⟨c, -, -, -, hr⟩ | ⟨c, j, x, hc, hmark, hzero, htype, hbind, hx, hr⟩ |
    ⟨-, hr⟩
  · rw [hr]
    refine ((RelayLocalBindingService.step_turns R (alive w) h.tidy
      (.destroyConnection c.relaySideConnectionId)).keeps
      (fun _ l _ _ hl hs hu ht => ht.udpOpen hs hu ?_) h.tidy hu).2
    rcases hl with rfl | rfl <;> simp
  · rw [hr]
    cases hlive : w.relay.localUdpChannelPool.get x.relaySideUdpChannelId with
    | none => simpa only [destroyUdpChannel, hlive] using hu
    | some y =>
      have hne : x.relaySideUdpChannelId ≠ u := by
        rintro rfl
        exact hclient ⟨Option.isSome_iff_exists.2 ⟨y, hlive⟩, c, j, x, hc, hmark, hzero, htype, hbind, hx, rfl⟩
      refine ((RelayLocalBindingService.step_turns R (alive w) h.tidy
        (.destroyUdpChannel x.relaySideUdpChannelId)).keeps
        (fun _ l _ _ hl hs hu ht => ht.udpOpen hs hu ?_) h.tidy hu).2
      obtain rfl := hl
      simp [hne]
  · rwa [hr]

/-- The peer of a client that knows its relay connection marks it. -/
theorem dying_of_clientCloses (h : Bound w) (he : ClientCloses w k e) (hw : step R A P w e = .ok w') :
    Dying k w'.relay := by
  cases e with
  | onPeerClose i =>
    obtain ⟨hlive, c, hc, hmark, rfl⟩ := he
    obtain ⟨d, hd⟩ := Option.isSome_iff_exists.1 hlive
    -- A live connection has an id, so that `OnPeerClose` takes its first branch.
    have hne : c.relaySideConnectionId ≠ 0 := (Storage.pos_of_get hd).ne'
    rcases relay_onPeerClose hw with ⟨c', hc', -, -, hr⟩ | ⟨c', _, _, hc', -, hzero, -⟩ | ⟨hno, -⟩
    · cases hc.symm.trans hc'
      rw [hr]
      exact destroyConnection_dying h.tidy hd
    · cases hc.symm.trans hc'
      exact absurd hzero hne
    · exact absurd (hno c hc hmark).1 hne
  | _ => exact he.elim

theorem udpDying_of_clientClosesUdp (h : Bound w) (he : ClientClosesUdp w u e)
    (hw : step R A P w e = .ok w') : UdpDying u w'.relay := by
  cases e with
  | onPeerClose i =>
    obtain ⟨hlive, c, j, x, hc, hmark, hzero, htype, hbind, hx, rfl⟩ := he
    obtain ⟨y, hy⟩ := Option.isSome_iff_exists.1 hlive
    rcases relay_onPeerClose hw with ⟨c', hc', -, hne, -⟩ | ⟨c', j', x', hc', -, -, -, hbind', hx', hr⟩ |
      ⟨hno, -⟩
    · cases hc.symm.trans hc'
      exact absurd hzero hne
    · cases hc.symm.trans hc'
      cases hbind.symm.trans hbind'
      cases hx.symm.trans hx'
      rw [hr]
      exact destroyUdpChannel_dying h.tidy hy
    · rcases (hno c hc hmark).2 with hno | hno
      · exact absurd htype hno
      · rw [hbind] at hno
        cases hno
  | _ => exact he.elim

/-! ## Along a run -/

variable (R A P) in
/-- The marks of the relay, in the terms of the events so far. -/
structure Estate (s : ProxyWithRelay α) (pre : List (WiredEvent α)) (w : ProxyWithRelay α) : Prop where
  reached : exec (step R A P) s pre = .ok w
  bound : Bound w
  marked : ∀ k, Occurs (step R A P) (ClientCloses · k) s pre → Dying k w.relay
  unmarked : ∀ k, ¬Occurs (step R A P) (ClientCloses · k) s pre →
    ¬Occurs (step R A P) (RelayCloses · k) s pre → Unmarked k w.relay
  udpMarked : ∀ u, Occurs (step R A P) (ClientClosesUdp · u) s pre → UdpDying u w.relay
  udpOpen : ∀ u, ¬Occurs (step R A P) (ClientClosesUdp · u) s pre → UdpOpen u w.relay

theorem Estate.init (devices : List RelayLocalDevice) (a : α) :
    Estate R A P (ProxyWithRelay.init devices a) [] (ProxyWithRelay.init devices a) where
  reached := rfl
  bound := bound_init devices a
  marked _ h := absurd h (not_occurs_nil _ _)
  unmarked _ _ _ _ hd := by cases hd
  udpMarked _ h := absurd h (not_occurs_nil _ _)
  udpOpen _ _ := ⟨rfl, fun _ hx => by cases hx⟩

theorem Estate.step (h : Estate R A P s pre w) (hw : ProxyWithRelay.step R A P w e = .ok w') :
    Estate R A P s (pre ++ [e]) w' where
  reached := (exec_snoc e h.reached).trans hw
  bound := h.bound.step hw
  marked k hk := by
    rcases (occurs_snoc h.reached).1 hk with hk | hk
    · exact relay_invariant (fun _ _ _ _ _ hs hd ht => ht.dying hs hd) h.bound (h.marked k hk) hw
    · exact dying_of_clientCloses h.bound hk hw
  unmarked k hclient hrelay := by
    obtain ⟨hclient, hc⟩ := not_or.1 (mt (occurs_snoc h.reached).2 hclient)
    obtain ⟨hrelay, hr⟩ := not_or.1 (mt (occurs_snoc h.reached).2 hrelay)
    exact step_unmarked h.bound (h.unmarked k hclient hrelay) hc hr hw
  udpMarked u hu := by
    rcases (occurs_snoc h.reached).1 hu with hu | hu
    · exact relay_invariant (fun _ _ _ _ _ hs hd ht => ht.udpDying hs hd) h.bound (h.udpMarked u hu) hw
    · exact udpDying_of_clientClosesUdp h.bound hu hw
  udpOpen u hu := by
    obtain ⟨hu, hc⟩ := not_or.1 (mt (occurs_snoc h.reached).2 hu)
    exact step_udpOpen h.bound (h.udpOpen u hu) hc hw

theorem estate_of_exec {devices : List RelayLocalDevice} {a : α}
    (h : exec (step R A P) (init devices a) es = .ok w) : Estate R A P (init devices a) es w :=
  exec_history (fun _ _ _ _ h ht => h.step ht) (.init devices a) h

variable (R) in
/-- The connection `k` is marked, or is not connected yet, and `OnConnected` would mark it. -/
def Released (w : ProxyWithRelay α) (k : ℕ) : Prop :=
  ∀ d, w.relay.localConnectionPool.get k = some d → d.deleteMark = true ∨
    d.isConnected = false ∧ ∀ d', (relayCall R w (.onConnected k)).1.localConnectionPool.get k = some d' →
      d'.deleteMark = true

/-- `OnConnected` marks nothing, so that a connection that is released is marked. -/
theorem not_released_of_unmarked {d : RelayLocalDeviceConnection} (h : w.relay.Tidy)
    (hk : Unmarked k w.relay) (hd : w.relay.localConnectionPool.get k = some d) : ¬Released R w k := by
  intro hreleased
  -- `OnConnected` completes the future if it is live, and does not look at the entry otherwise.
  have hlives : Lives k d (relayCall R w (.onConnected k)).1 := by
    refine (RelayLocalBindingService.step_turns R (alive w) h (.onConnected k)).lives h
      ⟨d, hd, hk d hd, rfl⟩ ?_
    rintro l rfl
    simp
  rcases hreleased d hd with hmark | ⟨-, hall⟩
  · rw [hk d hd] at hmark
    cases hmark
  · obtain ⟨d', hd', hmark', -⟩ := hlives
    rw [hall d' hd'] at hmark'
    cases hmark'

/-- After every run, and so after the tick that destroys a client: a connection of the relay whose
    client was destroyed is released, unless the relay ended it of its own, exactly if the peer of the
    client closed when the client was not marked and knew the connection; and a UDP channel of the relay
    whose client was destroyed is marked exactly if the peer of the client closed when the client was
    not marked and knew the channel. (The client's half of a UDP channel goes with the client, and the
    relay ends no UDP channel of its own.) -/
theorem releases_iff (devices : List RelayLocalDevice) (a : α) (es : List (WiredEvent α))
    (w : ProxyWithRelay α) (h : exec (step R A P) (init devices a) es = .ok w) :
    (∀ k d, w.relay.localConnectionPool.get k = some d →
      w.clientConnectionPool.get d.proxySideConnectionId = none →
      ¬Occurs (step R A P) (RelayCloses · k) (init devices a) es →
      (Released R w k ↔ Occurs (step R A P) (ClientCloses · k) (init devices a) es)) ∧
    ∀ u x, w.relay.localUdpChannelPool.get u = some x →
      w.clientUdpChannelPool.get x.proxySideUdpChannelId = none →
      (x.deleteMark = true ↔ Occurs (step R A P) (ClientClosesUdp · u) (init devices a) es) := by
  have hestate := estate_of_exec h
  refine ⟨fun k d hd _ hrelay => ⟨fun hreleased => ?_, fun hclient d' hd' => ?_⟩,
    fun u x hx _ => ⟨fun hmark => ?_, fun hclient => ?_⟩⟩
  · by_contra hclient
    exact not_released_of_unmarked hestate.bound.tidy (hestate.unmarked k hclient hrelay) hd hreleased
  · exact .inl ((hestate.marked k hclient).2 d' hd')
  · by_contra hclient
    rw [(hestate.udpOpen u hclient).unmarked x hx] at hmark
    cases hmark
  · exact (hestate.udpMarked u hclient).2 x hx

/-- Four clients that go: one with a tunnel, one whose connection was not taken up yet, one whose
    connection is not connected yet, and one with a UDP channel, which is idle. -/
def departures : List (WiredEvent Unit) :=
  [.tick 200000, .onNewConnection localAddress localAddress true, .onData 1 [5, 1, 0],
    .onNewConnection localAddress localAddress true, .onData 2 [5, 1, 0],
    .onNewConnection localAddress localAddress true, .onData 3 [5, 1, 0],
    .onNewConnection localAddress localAddress true, .onData 4 [5, 1, 0], .tick 200001,
    .onData 1 [5, 1, 0, 1, 127, 0, 0, 1, 0, 80], .onData 4 [5, 3, 0, 1, 0, 0, 0, 0, 0, 0],
    .relayOnConnected 1, .tick 200002, .onData 2 [5, 1, 0, 1, 127, 0, 0, 1, 0, 80],
    .onData 3 [5, 1, 0, 1, 127, 0, 0, 1, 0, 80], .relayOnConnected 2, .onPeerClose 1, .onPeerClose 2,
    .onPeerClose 3, .tick 200003, .tick 325003]

/-- The relay ends none of their connections. -/
theorem not_occurs_departures (k : ℕ) :
    ¬Occurs (step openPlatform grantingStub localPlatform) (RelayCloses · k) (init [anyDevice] ()) departures := by
  rintro ⟨pre, e, v, hpre, -, hclose⟩
  have hnone : ∀ e ∈ departures, ¬RelayCloses v k e := by simp [departures, RelayCloses, IdlesOut]
  exact hnone e (hpre.subset (by simp)) hclose

/-- The relay keeps what a client leaves behind, whose peer closed but who did not know the
    connection, whose connection was not even connected, or who was idle. -/
theorem releases_counterexample :
    ∃ w, exec (step openPlatform grantingStub localPlatform) (init [anyDevice] ()) departures = .ok w ∧
      (∃ d, w.relay.localConnectionPool.get 2 = some d ∧ d.isConnected = true ∧
        w.clientConnectionPool.get d.proxySideConnectionId = none ∧ ¬Released openPlatform w 2) ∧
      (∃ d, w.relay.localConnectionPool.get 3 = some d ∧ d.isConnected = false ∧
        w.clientConnectionPool.get d.proxySideConnectionId = none ∧ ¬Released openPlatform w 3) ∧
      (∃ x, w.relay.localUdpChannelPool.get 1 = some x ∧
        w.clientUdpChannelPool.get x.proxySideUdpChannelId = none ∧ x.deleteMark = false) ∧
      ∀ k, ¬Occurs (step openPlatform grantingStub localPlatform) (RelayCloses · k) (init [anyDevice] ())
        departures := by
  obtain ⟨w, hw, hcheck⟩ := exists_ok_of_check
    (x := exec (step openPlatform grantingStub localPlatform) (init [anyDevice] ()) departures)
    (p := fun w =>
      (∃ d ∈ w.relay.localConnectionPool.get 2, d.deleteMark = false ∧ d.isConnected = true ∧
        (w.clientConnectionPool.get d.proxySideConnectionId).isNone) ∧
      (∃ d ∈ w.relay.localConnectionPool.get 3, d.deleteMark = false ∧ d.isConnected = false ∧
        (w.clientConnectionPool.get d.proxySideConnectionId).isNone) ∧
      ∃ x ∈ w.relay.localUdpChannelPool.get 1, x.deleteMark = false ∧
        (w.clientUdpChannelPool.get x.proxySideUdpChannelId).isNone) (by decide +kernel)
  have htidy := (estate_of_exec hw).bound.tidy
  have hkept {k : ℕ} {d : RelayLocalDeviceConnection} (hd : w.relay.localConnectionPool.get k = some d)
      (hmark : d.deleteMark = false) : ¬Released openPlatform w k :=
    not_released_of_unmarked htidy (fun d' hd' => by cases hd.symm.trans hd'; exact hmark) hd
  obtain ⟨⟨d₂, hd₂, hmark₂, hconn₂, hgone₂⟩, ⟨d₃, hd₃, hmark₃, hconn₃, hgone₃⟩, x, hx, hmark, hgone⟩ :=
    of_decide_eq_true hcheck
  exact ⟨w, hw, ⟨d₂, hd₂, hconn₂, Option.isNone_iff_eq_none.1 hgone₂, hkept hd₂ hmark₂⟩,
    ⟨d₃, hd₃, hconn₃, Option.isNone_iff_eq_none.1 hgone₃, hkept hd₃ hmark₃⟩,
    ⟨x, hx, Option.isNone_iff_eq_none.1 hgone, hmark⟩, not_occurs_departures⟩

theorem releases_departures :
    ∃ w d₁ d₂ x, exec (step openPlatform grantingStub localPlatform) (init [anyDevice] ()) departures =
        .ok w ∧
      w.relay.localConnectionPool.get 1 = some d₁ ∧ d₁.deleteMark = true ∧
      w.relay.localConnectionPool.get 2 = some d₂ ∧ d₂.deleteMark = false ∧
      w.relay.localUdpChannelPool.get 1 = some x ∧ x.deleteMark = false ∧
      (Released openPlatform w 1 ↔ Occurs (step openPlatform grantingStub localPlatform) (ClientCloses · 1)
        (init [anyDevice] ()) departures) ∧
      (Released openPlatform w 2 ↔ Occurs (step openPlatform grantingStub localPlatform) (ClientCloses · 2)
        (init [anyDevice] ()) departures) ∧
      (x.deleteMark = true ↔ Occurs (step openPlatform grantingStub localPlatform) (ClientClosesUdp · 1)
        (init [anyDevice] ()) departures) := by
  obtain ⟨w, hw, hcheck⟩ := exists_ok_of_check
    (x := exec (step openPlatform grantingStub localPlatform) (init [anyDevice] ()) departures)
    (p := fun w =>
      (∃ d ∈ w.relay.localConnectionPool.get 1, d.deleteMark = true ∧
        (w.clientConnectionPool.get d.proxySideConnectionId).isNone) ∧
      (∃ d ∈ w.relay.localConnectionPool.get 2, d.deleteMark = false ∧
        (w.clientConnectionPool.get d.proxySideConnectionId).isNone) ∧
      ∃ x ∈ w.relay.localUdpChannelPool.get 1, x.deleteMark = false ∧
        (w.clientUdpChannelPool.get x.proxySideUdpChannelId).isNone) (by decide +kernel)
  obtain ⟨⟨d₁, hd₁, hmark₁, hgone₁⟩, ⟨d₂, hd₂, hmark₂, hgone₂⟩, x, hx, hmark, hgone⟩ :=
    of_decide_eq_true hcheck
  obtain ⟨hconnections, hudpChannels⟩ := releases_iff [anyDevice] () departures w hw
  exact ⟨w, d₁, d₂, x, hw, hd₁, hmark₁, hd₂, hmark₂, hx, hmark,
    hconnections 1 d₁ hd₁ (Option.isNone_iff_eq_none.1 hgone₁) (not_occurs_departures 1),
    hconnections 2 d₂ hd₂ (Option.isNone_iff_eq_none.1 hgone₂) (not_occurs_departures 2),
    hudpChannels 1 x hx (Option.isNone_iff_eq_none.1 hgone)⟩

end ProxyWithRelay

end ProxyPlatform
