import ProxyPlatform.Base.Stamped
import ProxyPlatform.Relay.Lists

/-!
# Idle connections of the relay

A tick destroys the connections and UDP channels at the head of their idle lists whose
timestamps are old. A timestamp is that of the last `KeepAlive`: when a connection was
connected, or received bytes. Bytes that are posted to a connection do not refresh it, and a UDP
channel is refreshed by `KeepUdpChannelAlive` only, not by the datagrams that pass it. A tick at a
time below the timeout takes every timestamp for old.

* `RelayTurn.idleStamped`, `RelayTurn.udpIdleStamped`: the idle lists are ordered by the
  timestamps;
* `mem_idleConnections`, `mem_idleUdpChannels`: what a tick destroys;
* `step_idle`, `step_udpIdle`: a step links what it refreshes, with the present time, and leaves
  the timestamps of the rest;
* `IsLast`: the time of the last event of a kind; `tracked_of_exec`: each timestamp in an idle
  list is that of the last refresh;
* `needsIdleness_iff`: a run destroys only what is idle, if and only if whatever was used in the
  time before a tick was also refreshed in that time, and the tick is not below the timeout.
-/

namespace ProxyPlatform.RelayLocalBindingService

variable {R : RelayPlatform} {alive : ℕ → Bool} {s t : RelayLocalBindingService}

/-! ## Use -/

/-- Bytes are received from the target of the connection `k`. -/
def Received (k : ℕ) (s : RelayLocalBindingService) (x : RelayInput) : Prop :=
  ∃ c data, s.localConnectionPool.get k = some c ∧ c.isConnected = true ∧ data ≠ [] ∧
    x.event = .onData k data

/-- The proxy posts bytes to the connection `k`, which are sent. -/
def Posted (k : ℕ) (s : RelayLocalBindingService) (x : RelayInput) : Prop :=
  ∃ c data, s.localConnectionPool.get k = some c ∧ c.isConnected = true ∧ c.deleteMark = false ∧
    data ≠ [] ∧ x.event = .postData k data

/-- A datagram passes the UDP channel `u`, in either direction. -/
def Passed (u : ℕ) (s : RelayLocalBindingService) (x : RelayInput) : Prop :=
  ∃ y, s.localUdpChannelPool.get u = some y ∧ ((∃ data a, x.event = .onUdpData u data a) ∨
    y.deleteMark = false ∧ ∃ a data, x.event = .postUdpData u a data)

/-- The connection `k` is connected while its future is live, or `OnData` is called for it. -/
def Refreshed (k : ℕ) (s : RelayLocalBindingService) (x : RelayInput) : Prop :=
  ∃ c, s.localConnectionPool.get k = some c ∧
    ((c.isConnected = false ∧ x.event = .onConnected k ∧
      ∃ f, c.createConnectionFutureHandle = some f ∧ x.alive f = true) ∨
    c.isConnected = true ∧ ∃ data, x.event = .onData k data)

/-- `KeepUdpChannelAlive` is called for the UDP channel `u`. -/
def RefreshedUdp (u : ℕ) (s : RelayLocalBindingService) (x : RelayInput) : Prop :=
  (∃ y, s.localUdpChannelPool.get u = some y) ∧ x.event = .keepUdpChannelAlive u

/-- An event of the run met `T`, after `nowMS - idleConnectionTimeoutMS`. -/
def Recently (R : RelayPlatform) (s₀ : RelayLocalBindingService) (es : List RelayInput)
    (T : RelayLocalBindingService → RelayInput → Prop) (nowMS : ℕ) : Prop :=
  ∃ pre x s, pre ++ [x] <+: es ∧ exec (next R) s₀ pre = .ok s ∧
    nowMS < s.localTicker + idleConnectionTimeoutMS ∧ T s x

/-- The connections that `DeferDestroyIdleConnections` destroys in a tick. -/
def idleConnections (R : RelayPlatform) (alive : ℕ → Bool) (s : RelayLocalBindingService)
    (nowMS : ℕ) : List ℕ :=
  let s := (processDnsResults R alive { s with localTicker := nowMS }).1
  (s.connectionLists.nodes .idleTimeout).takeWhile s.isIdle

/-- The UDP channels that `DeferDestroyIdleUdpChannels` destroys in a tick. -/
def idleUdpChannels (R : RelayPlatform) (alive : ℕ → Bool) (s : RelayLocalBindingService)
    (nowMS : ℕ) : List ℕ :=
  let s := (deferDestroyIdleConnections alive
    (processDnsResults R alive { s with localTicker := nowMS }).1).1
  (s.udpChannelLists.nodes .idleTimeout).takeWhile s.isUdpIdle

/-- On the events `es`, what a tick destroys as idle has not been used in time. -/
structure NeedsIdleness (R : RelayPlatform) (s₀ : RelayLocalBindingService) (es : List RelayInput) :
    Prop where
  connection : ∀ pre alive nowMS s k, pre ++ [⟨alive, .tick nowMS⟩] <+: es →
    exec (next R) s₀ pre = .ok s → k ∈ idleConnections R alive s nowMS →
    ¬Recently R s₀ pre (Received k) nowMS ∧ ¬Recently R s₀ pre (Posted k) nowMS
  udpChannel : ∀ pre alive nowMS s u, pre ++ [⟨alive, .tick nowMS⟩] <+: es →
    exec (next R) s₀ pre = .ok s → u ∈ idleUdpChannels R alive s nowMS →
    ¬Recently R s₀ pre (Passed u) nowMS

/-- On the events `es`, what was used in the time before a tick, and is in an idle list, was
    refreshed in that time, too, and the tick is not below the timeout. -/
structure RefreshedIfUsed (R : RelayPlatform) (s₀ : RelayLocalBindingService)
    (es : List RelayInput) : Prop where
  connection : ∀ pre alive nowMS s k, pre ++ [⟨alive, .tick nowMS⟩] <+: es →
    exec (next R) s₀ pre = .ok s → k ∈ s.connectionLists.nodes .idleTimeout →
    Recently R s₀ pre (Received k) nowMS ∨ Recently R s₀ pre (Posted k) nowMS →
    idleConnectionTimeoutMS ≤ nowMS ∧ Recently R s₀ pre (Refreshed k) nowMS
  udpChannel : ∀ pre alive nowMS s u, pre ++ [⟨alive, .tick nowMS⟩] <+: es →
    exec (next R) s₀ pre = .ok s → u ∈ s.udpChannelLists.nodes .idleTimeout →
    Recently R s₀ pre (Passed u) nowMS →
    idleConnectionTimeoutMS ≤ nowMS ∧ Recently R s₀ pre (RefreshedUdp u) nowMS

/-- Ticks do not go back. -/
def TicksOnward (s : RelayLocalBindingService) (x : RelayInput) : Prop :=
  match x.event with
  | .tick nowMS => s.localTicker ≤ nowMS
  | _ => True

instance (s : RelayLocalBindingService) (x : RelayInput) : Decidable (TicksOnward s x) := by
  unfold TicksOnward; split <;> infer_instance

section

variable {l : RelayLabel} {o : List ProxyEvent} {c : RelayLocalDeviceConnection} {k u now time : ℕ}

/-! ## Order -/

/-- The idle list of the connections is ordered by their timestamps. -/
def IdleStamped (now : ℕ) (s : RelayLocalBindingService) : Prop :=
  Stamped (s.localConnectionPool.stamps RelayLocalDeviceConnection.timestampMS) now
    (s.connectionLists.nodes .idleTimeout)

/-- The idle list of the UDP channels is ordered by their timestamps. -/
def UdpIdleStamped (now : ℕ) (s : RelayLocalBindingService) : Prop :=
  Stamped (s.localUdpChannelPool.stamps RelayLocalDeviceUdpChannel.timestampMS) now
    (s.udpChannelLists.nodes .idleTimeout)

/-- The turns that give a connection the present time. -/
def Refreshes (l : RelayLabel) : Prop := ∃ k, l = .connected k ∨ l = .data k

theorem RelayTurn.idleStamped (h : RelayTurn alive s l o t) (hs : Tidy s) (ho : IdleStamped now s)
    (hl : Refreshes l → s.localTicker = now) : IdleStamped now t := by
  have hset {k : ℕ} {c d : RelayLocalDeviceConnection} {L : Linked RelayConnectionList}
      (hc : s.localConnectionPool.get k = some c) (hid : d.connectionId = c.connectionId)
      (htime : d.timestampMS = c.timestampMS)
      (hsub : (L.nodes .idleTimeout).Sublist (s.connectionLists.nodes .idleTimeout)) :
      IdleStamped now ({ s with connectionLists := L }.store d) := by
    have hk : d.connectionId = k := hid.trans (hs.connectionId hc)
    subst hk
    exact Stamped.set ho hc htime hsub
  have htouch {k : ℕ} {c d : RelayLocalDeviceConnection} (hc : s.localConnectionPool.get k = some c)
      (hid : d.connectionId = c.connectionId) (htime : d.timestampMS = now) :
      IdleStamped now ({ s with
        connectionLists := s.connectionLists.grabTail .idleTimeout k }.store d) := by
    have hk : d.connectionId = k := hid.trans (hs.connectionId hc)
    subst hk
    exact Stamped.touch ho hc htime
  cases h with
  | quiet nowMS attempts posts p q hp hq => exact ho.congr_get hp.2
  | fail i dnsFuture attempts p hi hp => exact ho.congr_get hp.2
  | resolve i dnsFuture attempts x k p hi halive hacquire hnew => exact ho.acquire hacquire
  | create attempts x k p i future hacquire hnew => exact ho.acquire hacquire
  | orphan k c hc hconnected hdead => exact hset hc rfl rfl (.refl _)
  | connected k c f hc hconnected hmark hf halive => exact htouch hc rfl (hl ⟨k, .inl rfl⟩)
  | data k c data hc hconnected hmark => exact htouch hc rfl (hl ⟨k, .inr rfl⟩)
  | mark l k c o hc hmark hl =>
    refine hset hc rfl rfl ?_
    rw [Linked.nodes_grabTail_of_ne (by decide)]
    exact List.filter_sublist
  | clean k c hc hk => exact ho.release
  | _ => exact ho

theorem RelayTurn.udpIdleStamped (h : RelayTurn alive s l o t) (hs : Tidy s)
    (ho : UdpIdleStamped now s) (hl : (∃ u, l = .keepUdp u) → s.localTicker = now) :
    UdpIdleStamped now t := by
  cases h with
  | quiet nowMS attempts posts p q hp hq => exact ho.congr_get hq.2
  | createUdp attempts x u p hacquire hid hmark => exact ho.acquire hacquire
  | keepUdp u x hx hmark =>
    obtain rfl := hs.udpChannelId hx
    exact Stamped.touch ho hx (hl ⟨_, rfl⟩)
  | markUdp l u x hx hl =>
    obtain rfl := hs.udpChannelId hx
    refine Stamped.set ho hx rfl ?_
    change ((s.udpChannelLists.grabTail .kill x.udpChannelId).nodes .idleTimeout).Sublist _
    rw [Linked.nodes_grabTail_of_ne (by decide)]
    exact List.filter_sublist
  | cleanUdp u x hx hu => exact ho.release
  | _ => exact ho

/-- The relay is tidy, and its idle lists are ordered. -/
structure Ordered (now : ℕ) (s : RelayLocalBindingService) : Prop where
  tidy : Tidy s
  idle : IdleStamped now s
  udpIdle : UdpIdleStamped now s

theorem RelayTurn.localTicker (h : RelayTurn alive s l o t) (hl : l ≠ .quiet) :
    t.localTicker = s.localTicker := by
  cases h with
  | quiet | refuse => exact absurd rfl hl
  | _ => rfl

/-- Turns keep the lists in order, if none of them refreshes, or none changes the clock. -/
theorem RelayTurns.ordered {L : RelayLabel → Prop} (h : RelayTurns alive L s o t)
    (hL : (∀ l, L l → ¬Refreshes l ∧ ∀ u, l ≠ .keepUdp u) ∨
      (∀ l, L l → l ≠ .quiet) ∧ s.localTicker = now) (ho : Ordered now s) : Ordered now t := by
  have hkept : Ordered now t ∧ ((∀ l, L l → ¬Refreshes l ∧ ∀ u, l ≠ .keepUdp u) ∨
      (∀ l, L l → l ≠ .quiet) ∧ t.localTicker = now) := by
    refine h.invariant (I := fun t => Ordered now t ∧
      ((∀ l, L l → ¬Refreshes l ∧ ∀ u, l ≠ .keepUdp u) ∨
        (∀ l, L l → l ≠ .quiet) ∧ t.localTicker = now)) (fun u l o v hl hI hturn => ?_) ⟨ho, hL⟩
    obtain ⟨hou, hL⟩ := hI
    have hclock : Refreshes l ∨ (∃ i, l = .keepUdp i) → u.localTicker = now := by
      rcases hL with hno | ⟨-, hu⟩
      · rintro (hr | ⟨i, hi⟩)
        · exact absurd hr (hno l hl).1
        · exact absurd hi ((hno l hl).2 i)
      · exact fun _ => hu
    refine ⟨⟨hturn.tidy hou.tidy, hturn.idleStamped hou.tidy hou.idle fun hr => hclock (.inl hr),
      hturn.udpIdleStamped hou.tidy hou.udpIdle fun hr => hclock (.inr hr)⟩, ?_⟩
    exact hL.imp_right fun ⟨hno, hu⟩ => ⟨hno, (hturn.localTicker (hno l hl)).trans hu⟩
  exact hkept.1

/-! ## Steps -/

theorem RelayTurns.localTicker {L : RelayLabel → Prop} (h : RelayTurns alive L s o t)
    (hL : ∀ l, L l → l ≠ .quiet) : t.localTicker = s.localTicker :=
  h.invariant (I := fun t => t.localTicker = s.localTicker)
    (fun _ l _ _ hl hI hturn => (hturn.localTicker (hL l hl)).trans hI) rfl

theorem isDns_ne_quiet (l : RelayLabel) (h : IsDns l) : l ≠ .quiet := by
  rcases h with rfl | ⟨k, rfl⟩ <;> simp

theorem isPass_ne_quiet (l : RelayLabel) (h : IsPass l) : l ≠ .quiet := by
  obtain ⟨k, rfl | rfl | rfl | rfl⟩ := h <;> simp

variable (R alive) in
theorem tick_localTicker (hs : Tidy s) (nowMS : ℕ) :
    (tick R alive s nowMS).1.localTicker = nowMS := by
  obtain ⟨o, t, hdns, htick⟩ := tick_eq R alive nowMS s
  have hs' : Tidy { s with localTicker := nowMS } :=
    hs.congr (fun _ => rfl) (fun _ => rfl) rfl rfl
  rw [htick]
  calc _ = t.localTicker := (passes_turns alive (hdns.tidy hs')).localTicker isPass_ne_quiet
    _ = nowMS := hdns.localTicker isDns_ne_quiet

variable (R alive) in
theorem createConnection_localTicker (s : RelayLocalBindingService) (d i f : ℕ) (target : Target) :
    (createConnection R s d i target f).1.localTicker = s.localTicker := by
  unfold createConnection
  split
  · unfold createConnectionToAddress
    split
    · rfl
    · unfold createConnectionFrom
      dsimp only
      split
      · rfl
      · split <;> rfl
  · unfold createConnectionToHostname
    dsimp only
    split
    · rfl
    · split <;> rfl

variable (R alive) in
/-- The clock is that of the last tick. -/
theorem step_localTicker (hs : Tidy s) (e : RelayEvent) :
    (step R alive s e).1.localTicker = match e with
      | .tick nowMS => nowMS
      | _ => s.localTicker := by
  have hturns := step_turns R alive hs e
  cases e with
  | tick nowMS => exact tick_localTicker R alive hs nowMS
  | createConnection d i target f => exact createConnection_localTicker R s d i f target
  | createUdpChannel d i =>
    simp only [step, createUdpChannel]
    split
    · rfl
    · split
      · rfl
      · split <;> rfl
  | destroyConnection k =>
    simp only [step, destroyConnection]
    split
    · rfl
    · rw [deferDestroyConnection]
      split <;> rfl
  | postData k data =>
    simp only [step, postData]
    split
    · rfl
    · split <;> rfl
  | postUdpData u a data =>
    simp only [step, postUdpData]
    split
    · rfl
    · split <;> rfl
  | _ => exact hturns.localTicker fun l hl => by rw [show l = _ from hl]; simp

/-- A step keeps the lists in order, if the clock does not go back. -/
theorem step_ordered {x : RelayInput} (ho : Ordered s.localTicker s) (hx : TicksOnward s x)
    (ht : next R s x = .ok t) : Ordered t.localTicker t ∧ s.localTicker ≤ t.localTicker := by
  cases ht
  obtain ⟨alive, e⟩ := x
  have hturns := step_turns R alive ho.tidy e
  rw [step_localTicker R alive ho.tidy e]
  have hquiet (hL : (∀ l, e.Allows l → ¬Refreshes l ∧ ∀ u, l ≠ .keepUdp u) ∨
      ∀ l, e.Allows l → l ≠ .quiet) :
      Ordered s.localTicker (step R alive s e).1 ∧ s.localTicker ≤ s.localTicker :=
    ⟨hturns.ordered (hL.imp_right fun h => ⟨h, rfl⟩) ho, le_rfl⟩
  cases e with
  | tick nowMS =>
    have ho' : Ordered nowMS s := ⟨ho.tidy, ho.idle.mono hx, ho.udpIdle.mono hx⟩
    refine ⟨hturns.ordered (.inl fun l hl => ?_) ho', hx⟩
    -- The clock is set first, and no turn of a tick refreshes anything.
    rcases hl with rfl | rfl | ⟨k, rfl | rfl | rfl⟩ | ⟨u, rfl | rfl⟩ <;> simp [Refreshes]
  | createConnection d i target f =>
    exact hquiet (.inl fun l hl => by
      rcases hl with rfl | rfl | ⟨k, rfl⟩ <;> simp [Refreshes])
  | createUdpChannel d i =>
    exact hquiet (.inl fun l hl => by rcases hl with rfl | ⟨u, rfl⟩ <;> simp [Refreshes])
  | destroyConnection k =>
    exact hquiet (.inl fun l hl => by rcases hl with rfl | rfl <;> simp [Refreshes])
  | postData k data =>
    exact hquiet (.inl fun l hl => by rw [show l = _ from hl]; simp [Refreshes])
  | postUdpData u a data =>
    exact hquiet (.inl fun l hl => by rw [show l = _ from hl]; simp [Refreshes])
  | _ => exact hquiet (.inr fun l hl => by rw [show l = _ from hl]; simp)

/-! ## Timestamps -/

/-- A turn that does not refresh a connection does not link it, and leaves its timestamp. -/
theorem RelayTurn.idle (h : RelayTurn alive s l o t) (hs : Tidy s)
    (hl : l ≠ .data k ∧ (l = .connected k → ∀ c f, s.localConnectionPool.get k = some c →
      c.isConnected = false → c.createConnectionFutureHandle = some f → alive f = false))
    {d : RelayLocalDeviceConnection} (hk : k ∈ t.connectionLists.nodes .idleTimeout)
    (hd : t.localConnectionPool.get k = some d) :
    k ∈ s.connectionLists.nodes .idleTimeout ∧
      ∃ c, s.localConnectionPool.get k = some c ∧ c.timestampMS = d.timestampMS := by
  cases h.moved hs k with
  | gone hnone => rw [hnone] at hd; cases hd
  | created c i f hl' hj hc hnew hlists => exact absurd ⟨_, hk⟩ hlists
  | kept hget hlists => exact ⟨(hlists _).1 hk, d, hget ▸ hd, rfl⟩
  | orphaned c hl' hc hconnected hdead hd' hlists =>
    rw [hd'] at hd
    cases hd
    exact ⟨(hlists _).1 hk, c, hc, rfl⟩
  | connected c f hl' ho hc hconnected hmark hf halive =>
    rw [hl.2 hl' c f hc hconnected hf] at halive
    cases halive
  | data c hl' => exact absurd hl' hl.1
  | marked c hl' hc hmark hd' hlists => exact absurd ((hlists _).1 hk) (by decide)

/-- A turn that does not refresh a UDP channel does not link it, and leaves its timestamp. -/
theorem RelayTurn.udpIdle (h : RelayTurn alive s l o t) (hs : Tidy s) (hl : l ≠ .keepUdp u)
    {y : RelayLocalDeviceUdpChannel} (hu : u ∈ t.udpChannelLists.nodes .idleTimeout)
    (hy : t.localUdpChannelPool.get u = some y) :
    u ∈ s.udpChannelLists.nodes .idleTimeout ∧
      ∃ x, s.localUdpChannelPool.get u = some x ∧ x.timestampMS = y.timestampMS := by
  cases h.udpMoved hs u with
  | gone hnone => rw [hnone] at hy; cases hy
  | created x hl' hj hx hmark hlists => exact absurd ⟨_, hu⟩ hlists
  | kept hget hlists => exact ⟨(hlists _).1 hu, y, hget ▸ hy, rfl⟩
  | touched x hl' => exact absurd hl' hl
  | marked x hl' hx hy' hlists => exact absurd ((hlists _).1 hu) (by decide)

/-- Turns that do not refresh a connection do not put it into the idle list, and leave its time. -/
theorem RelayTurns.idle {L : RelayLabel → Prop} (h : RelayTurns alive L s o t) (hs : Tidy s)
    (hL : ∀ l, L l → l ≠ .data k ∧ l ≠ .connected k) {d : RelayLocalDeviceConnection}
    (hk : k ∈ t.connectionLists.nodes .idleTimeout) (hd : t.localConnectionPool.get k = some d) :
    k ∈ s.connectionLists.nodes .idleTimeout ∧
      ∃ c, s.localConnectionPool.get k = some c ∧ c.timestampMS = d.timestampMS := by
  induction h generalizing d with
  | refl => exact ⟨hk, d, hd, rfl⟩
  | tail h hl ht ih =>
    obtain ⟨hdata, hconnected⟩ := hL _ hl
    obtain ⟨hk, c, hc, hcd⟩ := ht.idle (h.tidy hs) ⟨hdata, fun h => absurd h hconnected⟩ hk hd
    obtain ⟨hk, c', hc', hcd'⟩ := ih hk hc
    exact ⟨hk, c', hc', hcd'.trans hcd⟩

theorem RelayTurns.udpIdle {L : RelayLabel → Prop} (h : RelayTurns alive L s o t) (hs : Tidy s)
    (hL : ∀ l, L l → l ≠ .keepUdp u) {y : RelayLocalDeviceUdpChannel}
    (hu : u ∈ t.udpChannelLists.nodes .idleTimeout) (hy : t.localUdpChannelPool.get u = some y) :
    u ∈ s.udpChannelLists.nodes .idleTimeout ∧
      ∃ z, s.localUdpChannelPool.get u = some z ∧ z.timestampMS = y.timestampMS := by
  induction h generalizing y with
  | refl => exact ⟨hu, y, hy, rfl⟩
  | tail h hl ht ih =>
    obtain ⟨hu, z, hz, hzy⟩ := ht.udpIdle (h.tidy hs) (hL _ hl) hu hy
    obtain ⟨hu, z', hz', hzy'⟩ := ih hu hz
    exact ⟨hu, z', hz', hzy'.trans hzy⟩

/-- A connection that is refreshed gets the present time. -/
theorem Refreshed.timestampMS {x : RelayInput} {d : RelayLocalDeviceConnection} (hs : Tidy s)
    (hr : Refreshed k s x) (ht : next R s x = .ok t)
    (hk : k ∈ t.connectionLists.nodes .idleTimeout) (hd : t.localConnectionPool.get k = some d) :
    d.timestampMS = s.localTicker := by
  cases ht
  -- A connection in the idle list is not marked, so that `KeepAlive` went through.
  have hmark := ((step_turns R x.alive hs x.event).tidy hs).filed.not_marked hd hk (by decide)
  obtain ⟨alive, e⟩ := x
  obtain ⟨c, hc, ⟨hconnected, rfl, f, hf, halive⟩ | ⟨hconnected, data, rfl⟩⟩ := hr
  · have hid := hs.connectionId hc
    simp only [step, onConnection, hc, hconnected, Bool.false_eq_true, if_false, onConnected, hf,
      show alive f = true from halive, if_true, keepAlive] at hd
    split at hd
    · next hm =>
      rw [Option.getD_none, get_store hc (by exact hid), if_pos rfl] at hd
      cases hd
      rw [show c.deleteMark = true from hm] at hmark
      cases hmark
    · rw [Option.getD_some, store, store, Storage.set_set] at hd
      rw [hid, Storage.get_set_self hc] at hd
      cases hd
      rfl
  · have hid := hs.connectionId hc
    simp only [step, onConnection, hc, hconnected, if_true, onData, keepAlive] at hd
    split at hd
    · next hnone =>
      split at hnone
      · next hm =>
        rw [hc] at hd
        cases hd
        rw [hmark] at hm
        cases hm
      · cases hnone
    · next u hsome =>
      split at hsome
      · cases hsome
      · cases hsome
        rw [get_store (by exact hc) (by exact hid), if_pos rfl] at hd
        cases hd
        rfl

/-- A connection that is linked after a step is refreshed by it, or is linked as it was. -/
theorem step_idle {x : RelayInput} {d : RelayLocalDeviceConnection} (hs : Tidy s)
    (ht : next R s x = .ok t) (hk : k ∈ t.connectionLists.nodes .idleTimeout)
    (hd : t.localConnectionPool.get k = some d) :
    (Refreshed k s x ∧ d.timestampMS = s.localTicker) ∨
    (¬Refreshed k s x ∧ k ∈ s.connectionLists.nodes .idleTimeout ∧
      ∃ c, s.localConnectionPool.get k = some c ∧ c.timestampMS = d.timestampMS) := by
  by_cases hr : Refreshed k s x
  · exact .inl ⟨hr, hr.timestampMS hs ht hk hd⟩
  refine .inr ⟨hr, ?_⟩
  cases ht
  obtain ⟨alive, e⟩ := x
  dsimp only at hk hd
  have hturns (hno : ∀ l, e.Allows l → l ≠ .data k ∧ l ≠ .connected k) :=
    (step_turns R alive hs e).idle hs hno hk hd
  cases e with
  | onConnected j =>
    by_cases hj : j = k
    · subst hj
      simp only [step, onConnection] at hk hd
      rcases hc : s.localConnectionPool.get j with _ | c <;> rw [hc] at hk hd
      · exact ⟨hk, d, hc ▸ hd, rfl⟩
      dsimp only at hk hd
      split at hk
      · next hconnected =>
        rw [if_pos hconnected] at hd
        exact ⟨hk, d, hc ▸ hd, rfl⟩
      · next hconnected =>
        rw [if_neg hconnected] at hd
        rw [← hc]
        refine (onConnected_turn hs hc (eq_false_of_ne_true hconnected)).idle hs
          ⟨by simp, fun _ c' f hc' hnot hf => ?_⟩ hk hd
        -- With a live future the event would have refreshed the connection.
        by_contra halive
        exact hr ⟨c', hc', .inl ⟨hnot, rfl, f, hf, eq_true_of_ne_false halive⟩⟩
    · exact hturns fun l hl => by rw [show l = _ from hl]; simp [hj]
  | onData j data =>
    by_cases hj : j = k
    · subst hj
      simp only [step, onConnection] at hk hd
      rcases hc : s.localConnectionPool.get j with _ | c <;> rw [hc] at hk hd
      · exact ⟨hk, d, hc ▸ hd, rfl⟩
      dsimp only at hk hd
      have hnot : ¬c.isConnected = true := fun h => hr ⟨c, hc, .inr ⟨h, data, rfl⟩⟩
      rw [if_neg hnot] at hk hd
      exact ⟨hk, d, hc ▸ hd, rfl⟩
    · exact hturns fun l hl => by rw [show l = _ from hl]; simp [hj]
  | tick nowMS =>
    refine hturns fun l hl => ?_
    rcases hl with rfl | rfl | ⟨k, rfl | rfl | rfl⟩ | ⟨u, rfl | rfl⟩ <;> simp
  | createConnection d i target f =>
    exact hturns fun l hl => by rcases hl with rfl | rfl | ⟨k, rfl⟩ <;> simp
  | createUdpChannel d i => exact hturns fun l hl => by rcases hl with rfl | ⟨u, rfl⟩ <;> simp
  | destroyConnection k => exact hturns fun l hl => by rcases hl with rfl | rfl <;> simp
  | _ => exact hturns fun l hl => by rw [show l = _ from hl]; simp

/-- A UDP channel that is linked after a step is refreshed by it, or is linked as it was. -/
theorem step_udpIdle {x : RelayInput} {y : RelayLocalDeviceUdpChannel} (hs : Tidy s)
    (ht : next R s x = .ok t) (hu : u ∈ t.udpChannelLists.nodes .idleTimeout)
    (hy : t.localUdpChannelPool.get u = some y) :
    (RefreshedUdp u s x ∧ y.timestampMS = s.localTicker) ∨
    (¬RefreshedUdp u s x ∧ u ∈ s.udpChannelLists.nodes .idleTimeout ∧
      ∃ z, s.localUdpChannelPool.get u = some z ∧ z.timestampMS = y.timestampMS) := by
  cases ht
  have hmark := ((step_turns R x.alive hs x.event).tidy hs).udpFiled.not_marked hy hu (by decide)
  obtain ⟨alive, e⟩ := x
  dsimp only at hu hy
  have hturns (hr : ¬RefreshedUdp u s ⟨alive, e⟩) (hno : ∀ l, e.Allows l → l ≠ .keepUdp u) :=
    And.intro hr ((step_turns R alive hs e).udpIdle hs hno hu hy)
  have hother (hr : ∀ v, e ≠ .keepUdpChannelAlive v) : ¬RefreshedUdp u s ⟨alive, e⟩ := fun h =>
    hr u h.2
  cases e with
  | keepUdpChannelAlive v =>
    by_cases hv : v = u
    · subst hv
      simp only [step, keepUdpChannelAlive] at hu hy
      rcases hz : s.localUdpChannelPool.get v with _ | z <;> rw [hz] at hu hy
      · rw [hz] at hy
        cases hy
      refine .inl ⟨⟨⟨z, hz⟩, rfl⟩, ?_⟩
      dsimp only at hy
      rw [keepUdpAlive] at hy
      split at hy
      · next hm =>
        rw [hz] at hy
        cases hy
        rw [hmark] at hm
        cases hm
      · have hid : z.udpChannelId = v := hs.udpChannelId hz
        rw [get_storeUdp (by exact hz) (by exact hid), if_pos rfl] at hy
        cases hy
        rfl
    · refine .inr (hturns (fun hr => hv (RelayEvent.keepUdpChannelAlive.inj hr.2)) fun l hl => ?_)
      rw [show l = _ from hl]
      simp [hv]
  | tick nowMS =>
    refine .inr (hturns (hother (by simp)) fun l hl => ?_)
    rcases hl with rfl | rfl | ⟨k, rfl | rfl | rfl⟩ | ⟨u, rfl | rfl⟩ <;> simp
  | createConnection d i target f =>
    exact .inr (hturns (hother (by simp)) fun l hl => by
      rcases hl with rfl | rfl | ⟨k, rfl⟩ <;> simp)
  | createUdpChannel d i =>
    exact .inr (hturns (hother (by simp)) fun l hl => by rcases hl with rfl | ⟨u, rfl⟩ <;> simp)
  | destroyConnection k =>
    exact .inr (hturns (hother (by simp)) fun l hl => by rcases hl with rfl | rfl <;> simp)
  | _ => exact .inr (hturns (hother (by simp)) fun l hl => by rw [show l = _ from hl]; simp)

/-! ## The last event of a kind -/

/-- The last event of the run that met `T` came at the time `time`. -/
structure IsLast (R : RelayPlatform) (s₀ : RelayLocalBindingService) (es : List RelayInput)
    (T : RelayLocalBindingService → RelayInput → Prop) (time : ℕ) : Prop where
  exists_event : ∃ pre x u, pre ++ [x] <+: es ∧ exec (next R) s₀ pre = .ok u ∧ T u x ∧
    u.localTicker = time
  le : ∀ pre x u, pre ++ [x] <+: es → exec (next R) s₀ pre = .ok u → T u x → u.localTicker ≤ time

namespace IsLast

variable {s₀ : RelayLocalBindingService} {es : List RelayInput} {x : RelayInput}
  {T : RelayLocalBindingService → RelayInput → Prop}

theorem recently_iff {nowMS : ℕ} (h : IsLast R s₀ es T time) :
    Recently R s₀ es T nowMS ↔ nowMS < time + idleConnectionTimeoutMS := by
  constructor
  · rintro ⟨pre, x, u, hpre, hu, hnow, hT⟩
    have hle := h.le pre x u hpre hu hT
    omega
  · intro hnow
    obtain ⟨pre, x, u, hpre, hu, hT, rfl⟩ := h.exists_event
    exact ⟨pre, x, u, hpre, hu, hnow, hT⟩

/-- The event that comes last is of the kind. -/
theorem of_last (hs : exec (next R) s₀ es = .ok s) (hT : T s x)
    (hclock : ∀ pre y u, pre ++ [y] <+: es → exec (next R) s₀ pre = .ok u →
      u.localTicker ≤ s.localTicker) : IsLast R s₀ (es ++ [x]) T s.localTicker := by
  refine ⟨⟨es, x, s, List.prefix_refl _, hs, hT, rfl⟩, fun pre y u hpre hu _ => ?_⟩
  rcases List.prefix_concat_iff.1 hpre with heq | hpre
  · obtain ⟨rfl, -⟩ := List.append_inj' heq rfl
    rw [hs] at hu
    cases hu
    exact le_rfl
  · exact hclock pre y u hpre hu

/-- The event that comes last is of another kind. -/
theorem snoc (h : IsLast R s₀ es T time) (hs : exec (next R) s₀ es = .ok s) (hT : ¬T s x) :
    IsLast R s₀ (es ++ [x]) T time := by
  obtain ⟨pre, y, u, hpre, hu, hTu, htime⟩ := h.exists_event
  refine ⟨⟨pre, y, u, hpre.trans (List.prefix_append _ _), hu, hTu, htime⟩, fun pre y u hpre hu hTu => ?_⟩
  rcases List.prefix_concat_iff.1 hpre with heq | hpre
  · obtain ⟨rfl, hx⟩ := List.append_inj' heq rfl
    rw [hs] at hu
    cases hu
    exact absurd (List.singleton_inj.1 hx ▸ hTu) hT
  · exact h.le pre y u hpre hu hTu

end IsLast

/-- What a run keeps in which ticks do not go back: a timestamp in an idle list is that of the last
    refresh. -/
structure Tracked (R : RelayPlatform) (s₀ : RelayLocalBindingService) (es : List RelayInput)
    (s : RelayLocalBindingService) : Prop where
  exec : exec (next R) s₀ es = .ok s
  ordered : Ordered s.localTicker s
  clock : ∀ pre x u, pre ++ [x] <+: es → ProxyPlatform.exec (next R) s₀ pre = .ok u →
    u.localTicker ≤ s.localTicker
  connection : ∀ k c, k ∈ s.connectionLists.nodes .idleTimeout →
    s.localConnectionPool.get k = some c → IsLast R s₀ es (Refreshed k) c.timestampMS
  udpChannel : ∀ u y, u ∈ s.udpChannelLists.nodes .idleTimeout →
    s.localUdpChannelPool.get u = some y → IsLast R s₀ es (RefreshedUdp u) y.timestampMS

theorem Tracked.step {s₀ : RelayLocalBindingService} {es : List RelayInput} {x : RelayInput}
    (h : Tracked R s₀ es s) (hx : TicksOnward s x) (ht : next R s x = .ok t) :
    Tracked R s₀ (es ++ [x]) t := by
  obtain ⟨ho, hclock⟩ := step_ordered h.ordered hx ht
  refine ⟨(exec_snoc x h.exec).trans ht, ho, fun pre y u hpre hu => ?_, fun k d hk hd => ?_,
    fun u y hu hy => ?_⟩
  · rcases List.prefix_concat_iff.1 hpre with heq | hpre
    · obtain ⟨rfl, -⟩ := List.append_inj' heq rfl
      rw [h.exec] at hu
      cases hu
      exact hclock
    · exact (h.clock pre y u hpre hu).trans hclock
  · rcases step_idle h.ordered.tidy ht hk hd with ⟨hr, htime⟩ | ⟨hr, hk, c, hc, htime⟩
    · rw [htime]
      exact .of_last h.exec hr h.clock
    · rw [← htime]
      exact (h.connection k c hk hc).snoc h.exec hr
  · rcases step_udpIdle h.ordered.tidy ht hu hy with ⟨hr, htime⟩ | ⟨hr, hu, z, hz, htime⟩
    · rw [htime]
      exact .of_last h.exec hr h.clock
    · rw [← htime]
      exact (h.udpChannel u z hu hz).snoc h.exec hr

theorem tracked_of_exec {devices : List RelayLocalDevice} {es : List RelayInput}
    (hes : Along (next R) TicksOnward (init devices) es)
    (h : exec (next R) (init devices) es = .ok s) : Tracked R (init devices) es s := by
  refine exec_history_along (I := Tracked R (init devices)) (fun es s x t hI hx ht => hI.step hx ht)
    ⟨rfl, ⟨tidy_init devices, .nil, .nil⟩, fun pre x u hpre => ?_, fun k c hk => ?_, fun u y hu => ?_⟩
    hes h
  · simp at hpre
  · cases hk
  · cases hu

/-! ## The passes of a tick -/

theorem RelayTurn.lists_of_dns (h : RelayTurn alive s l o t) (hl : IsDns l) :
    t.connectionLists = s.connectionLists ∧ t.udpChannelLists = s.udpChannelLists := by
  have hno : ∀ k, l ≠ .connected k ∧ l ≠ .data k ∧ l ≠ .close k ∧ l ≠ .destroy k ∧ l ≠ .idle k ∧
      l ≠ .clean k ∧ l ≠ .keepUdp k ∧ l ≠ .destroyUdp k ∧ l ≠ .idleUdp k ∧ l ≠ .cleanUdp k := by
    rcases hl with rfl | ⟨i, rfl⟩ <;> simp
  cases h with
  | mark l k c o hc hmark hl => rcases hl with ⟨rfl, -⟩ | ⟨rfl, -⟩ | ⟨rfl, -⟩ <;> simp at hno
  | markUdp l u x hx hl => rcases hl with rfl | ⟨rfl, -⟩ <;> simp at hno
  | connected k | data k | clean k | keepUdp k | cleanUdp k => simp at hno
  | _ => exact ⟨rfl, rfl⟩

variable (R alive) in
/-- The lookups that end in a tick leave the idle lists, and what is in them. -/
theorem processDnsResults_kept (hs : Tidy s) (nowMS : ℕ) :
    KeptByDns { s with localTicker := nowMS }
        (processDnsResults R alive { s with localTicker := nowMS }).1 ∧
      (processDnsResults R alive { s with localTicker := nowMS }).1.connectionLists =
        s.connectionLists ∧
      (processDnsResults R alive { s with localTicker := nowMS }).1.udpChannelLists =
        s.udpChannelLists := by
  have hdns := processDnsResults_turns R alive { s with localTicker := nowMS }
  have hs' : Tidy { s with localTicker := nowMS } :=
    hs.congr (fun _ => rfl) (fun _ => rfl) rfl rfl
  refine ⟨hdns.keptByDns hs', ?_⟩
  refine hdns.invariant (I := fun t => t.connectionLists = s.connectionLists ∧
    t.udpChannelLists = s.udpChannelLists) (fun u l o v hl hI hturn => ?_) ⟨rfl, rfl⟩
  obtain ⟨h₁, h₂⟩ := hturn.lists_of_dns hl
  exact ⟨h₁.trans hI.1, h₂.trans hI.2⟩

/-- A tick destroys the connections whose timestamps are old, or all, if it is below the timeout. -/
theorem mem_idleConnections {nowMS : ℕ} (ho : Ordered s.localTicker s)
    (hnow : s.localTicker ≤ nowMS) :
    k ∈ idleConnections R alive s nowMS ↔ k ∈ s.connectionLists.nodes .idleTimeout ∧
      ∀ c, s.localConnectionPool.get k = some c → nowMS < idleConnectionTimeoutMS ∨
        c.timestampMS + idleConnectionTimeoutMS ≤ nowMS := by
  obtain ⟨hkept, hlists, -⟩ := processDnsResults_kept R alive ho.tidy nowMS
  have hdue {j : ℕ} {c : RelayLocalDeviceConnection}
      (hc : s.localConnectionPool.get j = some c) :
      isIdle (processDnsResults R alive { s with localTicker := nowMS }).1 j = true ↔
        c.timestampMS ≤ sub64 nowMS idleConnectionTimeoutMS := by
    rw [isIdle, (hkept.kept j c hc).1, hkept.localTicker, decide_eq_true_iff]
  have hbound {c : RelayLocalDeviceConnection} (hk : k ∈ s.connectionLists.nodes .idleTimeout)
      (hc : s.localConnectionPool.get k = some c) :
      c.timestampMS ≤ sub64 nowMS idleConnectionTimeoutMS ↔ nowMS < idleConnectionTimeoutMS ∨
        c.timestampMS + idleConnectionTimeoutMS ≤ nowMS := by
    obtain ⟨time, htime, hle⟩ := ho.idle.bound k hk
    rw [Storage.stamps, hc] at htime
    cases htime
    exact le_sub64_iff (hle.trans hnow) (by decide)
  rw [idleConnections, hlists]
  constructor
  · intro hk
    have hmem := (List.takeWhile_sublist _).subset hk
    exact ⟨hmem, fun c hc => (hbound hmem hc).1 ((hdue hc).1 (List.mem_takeWhile_imp hk))⟩
  · rintro ⟨hmem, htime⟩
    obtain ⟨c, hc⟩ := ho.tidy.filed.live ⟨_, hmem⟩
    refine Stamped.mem_takeWhile (t := sub64 nowMS idleConnectionTimeoutMS) ho.idle
      (fun j x hx => ?_) hmem (by rw [Storage.stamps, hc]; rfl) ((hbound hmem hc).2 (htime c hc))
    obtain ⟨d, hd, rfl⟩ := Option.map_eq_some_iff.1 hx
    exact hdue hd

/-- A tick destroys the UDP channels whose timestamps are old, or all, if it is below the timeout. -/
theorem mem_idleUdpChannels {nowMS : ℕ} (ho : Ordered s.localTicker s)
    (hnow : s.localTicker ≤ nowMS) :
    u ∈ idleUdpChannels R alive s nowMS ↔ u ∈ s.udpChannelLists.nodes .idleTimeout ∧
      ∀ y, s.localUdpChannelPool.get u = some y → nowMS < idleConnectionTimeoutMS ∨
        y.timestampMS + idleConnectionTimeoutMS ≤ nowMS := by
  obtain ⟨hkept, -, hlists⟩ := processDnsResults_kept R alive ho.tidy nowMS
  obtain ⟨hpool, hudp, hticker⟩ := deferDestroyIdleConnections_udp alive
    (processDnsResults R alive { s with localTicker := nowMS }).1
  have hdue {j : ℕ} {x : RelayLocalDeviceUdpChannel} (hx : s.localUdpChannelPool.get j = some x) :
      isUdpIdle (deferDestroyIdleConnections alive
          (processDnsResults R alive { s with localTicker := nowMS }).1).1 j = true ↔
        x.timestampMS ≤ sub64 nowMS idleConnectionTimeoutMS := by
    rw [isUdpIdle, hpool, (hkept.udpKept j x hx).1, hticker, hkept.localTicker, decide_eq_true_iff]
  have hbound {y : RelayLocalDeviceUdpChannel} (hu : u ∈ s.udpChannelLists.nodes .idleTimeout)
      (hy : s.localUdpChannelPool.get u = some y) :
      y.timestampMS ≤ sub64 nowMS idleConnectionTimeoutMS ↔ nowMS < idleConnectionTimeoutMS ∨
        y.timestampMS + idleConnectionTimeoutMS ≤ nowMS := by
    obtain ⟨time, htime, hle⟩ := ho.udpIdle.bound u hu
    rw [Storage.stamps, hy] at htime
    cases htime
    exact le_sub64_iff (hle.trans hnow) (by decide)
  rw [idleUdpChannels, hudp, hlists]
  constructor
  · intro hu
    have hmem := (List.takeWhile_sublist _).subset hu
    exact ⟨hmem, fun y hy => (hbound hmem hy).1 ((hdue hy).1 (List.mem_takeWhile_imp hu))⟩
  · rintro ⟨hmem, htime⟩
    obtain ⟨y, hy⟩ := ho.tidy.udpFiled.live ⟨_, hmem⟩
    refine Stamped.mem_takeWhile (t := sub64 nowMS idleConnectionTimeoutMS) ho.udpIdle
      (fun j z hz => ?_) hmem (by rw [Storage.stamps, hy]; rfl) ((hbound hmem hy).2 (htime y hy))
    obtain ⟨w, hw, rfl⟩ := Option.map_eq_some_iff.1 hz
    exact hdue hw

/-! ## Runs -/

/-- A tick destroys the connections that were not refreshed in time, or all, if it is below the
    timeout. -/
theorem Tracked.mem_idleConnections {s₀ : RelayLocalBindingService} {pre : List RelayInput}
    {nowMS : ℕ} (h : Tracked R s₀ pre s) (hnow : s.localTicker ≤ nowMS) :
    k ∈ idleConnections R alive s nowMS ↔ k ∈ s.connectionLists.nodes .idleTimeout ∧
      ¬(idleConnectionTimeoutMS ≤ nowMS ∧ Recently R s₀ pre (Refreshed k) nowMS) := by
  rw [RelayLocalBindingService.mem_idleConnections h.ordered hnow]
  refine and_congr_right fun hk => ?_
  obtain ⟨c, hc⟩ := h.ordered.tidy.filed.live ⟨_, hk⟩
  rw [(h.connection k c hk hc).recently_iff, not_and_or, not_le, not_lt, hc]
  simp only [Option.some.injEq, forall_eq']

/-- A tick destroys the UDP channels that were not refreshed in time, or all, if it is below the
    timeout. -/
theorem Tracked.mem_idleUdpChannels {s₀ : RelayLocalBindingService} {pre : List RelayInput}
    {nowMS : ℕ} (h : Tracked R s₀ pre s) (hnow : s.localTicker ≤ nowMS) :
    u ∈ idleUdpChannels R alive s nowMS ↔ u ∈ s.udpChannelLists.nodes .idleTimeout ∧
      ¬(idleConnectionTimeoutMS ≤ nowMS ∧ Recently R s₀ pre (RefreshedUdp u) nowMS) := by
  rw [RelayLocalBindingService.mem_idleUdpChannels h.ordered hnow]
  refine and_congr_right fun hu => ?_
  obtain ⟨y, hy⟩ := h.ordered.tidy.udpFiled.live ⟨_, hu⟩
  rw [(h.udpChannel u y hu hy).recently_iff, not_and_or, not_le, not_lt, hy]
  simp only [Option.some.injEq, forall_eq']

/-- When ticks do not go back, a run destroys as idle only what has not been used in time, if and
    only if what was used in the time before a tick was also refreshed in that time, by `OnConnected`,
    `OnData` or `KeepUdpChannelAlive`, and the tick is not below the timeout. -/
theorem needsIdleness_iff (R : RelayPlatform) (devices : List RelayLocalDevice)
    (es : List RelayInput) (hes : Along (next R) TicksOnward (init devices) es) :
    NeedsIdleness R (init devices) es ↔ RefreshedIfUsed R (init devices) es := by
  have htick {pre : List RelayInput} {alive : ℕ → Bool} {nowMS : ℕ} {s : RelayLocalBindingService}
      (hpre : pre ++ [⟨alive, .tick nowMS⟩] <+: es) (hs : exec (next R) (init devices) pre = .ok s) :
      Tracked R (init devices) pre s ∧ s.localTicker ≤ nowMS := by
    have honward : TicksOnward s ⟨alive, .tick nowMS⟩ := along_iff.1 hes pre _ s hpre hs
    exact ⟨tracked_of_exec (hes.of_prefix ((List.prefix_append _ _).trans hpre)) hs, honward⟩
  constructor
  · intro h
    refine ⟨fun pre alive nowMS s k hpre hs hk hused => ?_,
      fun pre alive nowMS s u hpre hs hu hused => ?_⟩
    · obtain ⟨htracked, hnow⟩ := htick hpre hs
      by_contra hidle
      have hdestroyed : k ∈ idleConnections R alive s nowMS :=
        (htracked.mem_idleConnections hnow).2 ⟨hk, hidle⟩
      obtain ⟨hreceived, hposted⟩ := h.connection pre alive nowMS s k hpre hs hdestroyed
      exact hused.elim hreceived hposted
    · obtain ⟨htracked, hnow⟩ := htick hpre hs
      by_contra hidle
      have hdestroyed : u ∈ idleUdpChannels R alive s nowMS :=
        (htracked.mem_idleUdpChannels hnow).2 ⟨hu, hidle⟩
      exact h.udpChannel pre alive nowMS s u hpre hs hdestroyed hused
  · intro h
    refine ⟨fun pre alive nowMS s k hpre hs hk => ?_, fun pre alive nowMS s u hpre hs hu hused => ?_⟩
    · obtain ⟨htracked, hnow⟩ := htick hpre hs
      obtain ⟨hmem, hidle⟩ := (htracked.mem_idleConnections hnow).1 hk
      exact ⟨fun hused => hidle (h.connection pre alive nowMS s k hpre hs hmem (.inl hused)),
        fun hused => hidle (h.connection pre alive nowMS s k hpre hs hmem (.inr hused))⟩
    · obtain ⟨htracked, hnow⟩ := htick hpre hs
      obtain ⟨hmem, hidle⟩ := (htracked.mem_idleUdpChannels hnow).1 hu
      exact hidle (h.udpChannel pre alive nowMS s u hpre hs hmem hused)

/-- An upload of more than two minutes, of which the target says nothing. -/
def longUpload : List RelayInput :=
  [⟨fun _ => true, .tick 200000⟩,
    ⟨fun _ => true, .createConnection (makeLocalDeviceId 0) 7 (.address loopbackAddress) 1⟩,
    ⟨fun _ => true, .onConnected 1⟩, ⟨fun _ => true, .tick 300000⟩,
    ⟨fun _ => true, .postData 1 [1]⟩, ⟨fun _ => true, .tick 325000⟩]

theorem needsIdleness_iff_longUpload :
    Along (next openPlatform) TicksOnward (init [loopbackDevice]) longUpload ∧
      (NeedsIdleness openPlatform (init [loopbackDevice]) longUpload ↔
        RefreshedIfUsed openPlatform (init [loopbackDevice]) longUpload) :=
  ⟨along_of_check (by decide +kernel),
    needsIdleness_iff openPlatform [loopbackDevice] longUpload (along_of_check (by decide +kernel))⟩

/-- Bytes that are received just before a tick below the timeout. -/
def earlyTick : List RelayInput :=
  [⟨fun _ => true, .tick 1000⟩,
    ⟨fun _ => true, .createConnection (makeLocalDeviceId 0) 7 (.address loopbackAddress) 1⟩,
    ⟨fun _ => true, .onConnected 1⟩, ⟨fun _ => true, .onData 1 [1]⟩, ⟨fun _ => true, .tick 1001⟩]

/-- The connection is destroyed 25 seconds after the last bytes were posted to it, or a millisecond
    after it received bytes. -/
theorem needsIdleness_counterexample :
    ¬NeedsIdleness openPlatform (init [loopbackDevice]) longUpload ∧
      ¬NeedsIdleness openPlatform (init [loopbackDevice]) earlyTick := by
  constructor
  · intro h
    obtain ⟨s, hs, hidle⟩ := exists_ok_of_check
      (x := exec (next openPlatform) (init [loopbackDevice]) (longUpload.take 5))
      (p := fun s => 1 ∈ idleConnections openPlatform (fun _ => true) s 325000) (by decide +kernel)
    obtain ⟨u, hu, hp⟩ := exists_ok_of_check
      (x := exec (next openPlatform) (init [loopbackDevice]) (longUpload.take 4))
      (p := fun u => u.localTicker = 300000 ∧ (u.localConnectionPool.get 1).map
        (fun c => (c.isConnected, c.deleteMark)) = some (true, false)) (by decide +kernel)
    obtain ⟨hticker, hget⟩ := of_decide_eq_true hp
    obtain ⟨c, hc, hcm⟩ := Option.map_eq_some_iff.1 hget
    rw [Prod.mk.injEq] at hcm
    refine (h.connection (longUpload.take 5) (fun _ => true) 325000 s 1 (List.prefix_refl _) hs
      (of_decide_eq_true hidle)).2 ⟨longUpload.take 4, ⟨fun _ => true, .postData 1 [1]⟩, u,
        List.prefix_refl _, hu, ?_, c, [1], hc, hcm.1, hcm.2, by simp, rfl⟩
    rw [hticker]
    decide
  · intro h
    obtain ⟨s, hs, hidle⟩ := exists_ok_of_check
      (x := exec (next openPlatform) (init [loopbackDevice]) (earlyTick.take 4))
      (p := fun s => 1 ∈ idleConnections openPlatform (fun _ => true) s 1001) (by decide +kernel)
    obtain ⟨u, hu, hp⟩ := exists_ok_of_check
      (x := exec (next openPlatform) (init [loopbackDevice]) (earlyTick.take 3))
      (p := fun u => u.localTicker = 1000 ∧ (u.localConnectionPool.get 1).map
        (fun c => c.isConnected) = some true) (by decide +kernel)
    obtain ⟨hticker, hget⟩ := of_decide_eq_true hp
    obtain ⟨c, hc, hconnected⟩ := Option.map_eq_some_iff.1 hget
    refine (h.connection (earlyTick.take 4) (fun _ => true) 1001 s 1 (List.prefix_refl _) hs
      (of_decide_eq_true hidle)).1 ⟨earlyTick.take 3, ⟨fun _ => true, .onData 1 [1]⟩, u,
        List.prefix_refl _, hu, ?_, c, [1], hc, hconnected, by simp, rfl⟩
    rw [hticker]
    decide

end

end ProxyPlatform.RelayLocalBindingService
