import ProxyPlatform.Relay.Step

/-!
# Connections that no tick releases

A connection or a UDP channel of the relay is linked in no list when it is created. What
links it is a later event, a *touch*: it is connected while its future is live, has data
or is closed by its peer; it is kept alive; it is destroyed by the proxy. Until then no
tick sees it.

* `isLinked_step`, `isUdpLinked_step`: what a step links is what it touches;
* `linked_iff_touched`: in a state reached, an entry is linked if and only if it was
  touched since it was created;
* `tick_releases`: a tick that is late enough releases what is linked;
* `reclaimed_iff_touched`: the entries of a state reached are all linked, in one list
  each, and released by late ticks, if and only if all were touched.
-/

namespace ProxyPlatform.RelayLocalBindingService

variable {R : RelayPlatform} {alive : ℕ → Bool} {s t : RelayLocalBindingService}

/-- An event touches the connection `k`. -/
def Touches (s : RelayLocalBindingService) (x : RelayInput) (k : ℕ) : Prop :=
  ∃ c, s.localConnectionPool.get k = some c ∧ match x.event with
    | .onConnected j => j = k ∧ c.isConnected = false ∧
      ∃ f, c.createConnectionFutureHandle = some f ∧ x.alive f = true
    | .onData j _ => j = k ∧ c.isConnected = true
    | .onPeerClose j | .destroyConnection j => j = k
    | _ => False

/-- An event touches the UDP channel `u`. -/
def TouchesUdp (s : RelayLocalBindingService) (x : RelayInput) (u : ℕ) : Prop :=
  (s.localUdpChannelPool.get u).isSome = true ∧ match x.event with
    | .keepUdpChannelAlive v | .destroyUdpChannel v => v = u
    | _ => False

/-- An event of the run touched the connection `k`. -/
def Touched (R : RelayPlatform) (s₀ : RelayLocalBindingService) (es : List RelayInput) (k : ℕ) :
    Prop :=
  ∃ pre x s, pre ++ [x] <+: es ∧ exec (next R) s₀ pre = .ok s ∧ Touches s x k

/-- An event of the run touched the UDP channel `u`. -/
def TouchedUdp (R : RelayPlatform) (s₀ : RelayLocalBindingService) (es : List RelayInput) (u : ℕ) :
    Prop :=
  ∃ pre x s, pre ++ [x] <+: es ∧ exec (next R) s₀ pre = .ok s ∧ TouchesUdp s x u

/-- Every entry is linked, in one list, and released by every tick that is late enough. -/
def Reclaimed (R : RelayPlatform) (s : RelayLocalBindingService) : Prop :=
  (∀ k c, s.localConnectionPool.get k = some c → (∃! m, k ∈ s.connectionLists.nodes m) ∧
    ∃ T, ∀ alive nowMS, T ≤ nowMS → (tick R alive s nowMS).1.localConnectionPool.get k = none) ∧
  ∀ u x, s.localUdpChannelPool.get u = some x → (∃! m, u ∈ s.udpChannelLists.nodes m) ∧
    ∃ T, ∀ alive nowMS, T ≤ nowMS → (tick R alive s nowMS).1.localUdpChannelPool.get u = none

section

variable {l : RelayLabel} {o : List ProxyEvent} {c : RelayLocalDeviceConnection} {k u : ℕ}

/-! ## What is not touched -/

/-- The labels of the turns that may link the connection `k`. -/
def IsTouch (k : ℕ) (l : RelayLabel) : Prop :=
  l = .connected k ∨ l = .data k ∨ l = .close k ∨ l = .destroy k

/-- The connection `k` is linked in `t` as it was in `s`, unless it is gone for good. -/
structure StillLinked (k : ℕ) (s t : RelayLocalBindingService) : Prop where
  mpr : t.connectionLists.IsLinked k → s.connectionLists.IsLinked k
  mp : s.connectionLists.IsLinked k → t.connectionLists.IsLinked k ∨
    k ≤ t.localConnectionPool.lastId ∧ t.localConnectionPool.get k = none

/-- A turn that does not touch a connection does not link it, and unlinks it only to release it. -/
theorem RelayTurn.stillLinked {s₀ : RelayLocalBindingService} (hs₀ : Tidy s₀)
    (h : RelayTurn alive s l o t) (hl : ¬IsTouch k l) (hs : Tidy s)
    (hk : s₀.localConnectionPool.lastId ≤ s.localConnectionPool.lastId)
    (hstill : StillLinked k s₀ s) : StillLinked k s₀ t := by
  have hlast := (h.lastId).1
  cases h.moved hs k with
  | gone hnone hkill =>
    refine ⟨fun hm => ?_, fun hm => .inr ⟨?_, hnone⟩⟩
    · exact absurd hm ((h.tidy hs).filed.not_linked hnone)
    · obtain ⟨c, hc⟩ := hs₀.filed.live hm
      exact (Storage.le_lastId_of_get hc).trans (hk.trans hlast)
  | created c i f hl hj hc hnew hlists =>
    refine ⟨fun hm => absurd hm hlists, fun hm => ?_⟩
    obtain ⟨d, hd⟩ := hs₀.filed.live hm
    exact absurd ((Storage.le_lastId_of_get hd).trans hk) (Nat.not_le.2 hj)
  | kept hget hlists =>
    refine ⟨fun ⟨m, hm⟩ => hstill.mpr ⟨m, (hlists m).1 hm⟩, fun hm => ?_⟩
    rcases hstill.mp hm with ⟨m, hm⟩ | ⟨hle, hnone⟩
    · exact .inl ⟨m, (hlists m).2 hm⟩
    · exact .inr ⟨hle.trans hlast, hget.trans hnone⟩
  | marked c hl' hc hmark hd hlists =>
    rcases hl' with rfl | rfl | ⟨-, hidle⟩
    · exact absurd (.inr (.inr (.inl rfl))) hl
    · exact absurd (.inr (.inr (.inr rfl))) hl
    · exact ⟨fun _ => hstill.mpr ⟨_, hidle⟩, fun _ => .inl ⟨_, (hlists .kill).2 rfl⟩⟩
  | orphaned c hl' => exact absurd (.inl hl') hl
  | connected c f hl' => exact absurd (.inl hl') hl
  | data c hl' => exact absurd (.inr (.inl hl')) hl

/-- A step that does not touch a connection does not link it, and unlinks it only to release it. -/
theorem step_stillLinked {e : RelayEvent} (hs : Tidy s) (he : ∀ l, e.Allows l → ¬IsTouch k l) :
    StillLinked k s (step R alive s e).1 := by
  have hI := (step_turns R alive hs e).invariant
    (I := fun t => Tidy t ∧ s.localConnectionPool.lastId ≤ t.localConnectionPool.lastId ∧
      StillLinked k s t)
    (fun t l o u hl hI h => ⟨h.tidy hI.1, hI.2.1.trans h.lastId.1,
      h.stillLinked hs (he l hl) hI.1 hI.2.1 hI.2.2⟩)
    ⟨hs, le_rfl, ⟨id, .inl⟩⟩
  exact hI.2.2

theorem StillLinked.iff (h : StillLinked k s t) {d : RelayLocalDeviceConnection}
    (hd : t.localConnectionPool.get k = some d) :
    t.connectionLists.IsLinked k ↔ s.connectionLists.IsLinked k := by
  refine ⟨h.mpr, fun hm => ?_⟩
  rcases h.mp hm with hm | ⟨-, hnone⟩
  · exact hm
  · rw [hd] at hnone; cases hnone

/-! ## What is touched -/

theorem isLinked_of_mark (hs : Tidy s) (hc : s.localConnectionPool.get k = some c)
    (hmark : c.deleteMark = true) : s.connectionLists.IsLinked k :=
  ⟨.kill, (hs.filed.marked hc).2 hmark⟩

variable (alive) in
/-- A connection that is connected is linked if its future is live. -/
theorem isLinked_onConnected (hs : Tidy s) (hc : s.localConnectionPool.get k = some c) :
    (onConnected alive s c).1.connectionLists.IsLinked k ↔ s.connectionLists.IsLinked k ∨
      ∃ f, c.createConnectionFutureHandle = some f ∧ alive f = true := by
  obtain rfl := hs.connectionId hc
  cases hf : c.createConnectionFutureHandle with
  | none => simp [onConnected, hf, store]
  | some f =>
    have hmark : c.deleteMark = false := by
      by_contra hmark
      rw [hs.handle hc (eq_true_of_ne_false hmark)] at hf
      cases hf
    cases halive : alive f with
    | false => simp [onConnected, hf, halive, store]
    | true => simp [onConnected, hf, halive, keepAlive, hmark, store, Linked.isLinked_grabTail]

/-- Data links a connection. -/
theorem isLinked_onData (hs : Tidy s) (hc : s.localConnectionPool.get k = some c) (data : Bytes) :
    (onData s c data).1.connectionLists.IsLinked k := by
  obtain rfl := hs.connectionId hc
  cases hmark : c.deleteMark with
  | true => simpa [onData, keepAlive, hmark] using isLinked_of_mark hs hc hmark
  | false => simp [onData, keepAlive, hmark, store, Linked.isLinked_grabTail]

variable (alive) in
/-- What is destroyed is linked. -/
theorem isLinked_deferDestroyConnection (hs : Tidy s) (hc : s.localConnectionPool.get k = some c) :
    (deferDestroyConnection alive s c).1.connectionLists.IsLinked k := by
  obtain rfl := hs.connectionId hc
  cases hmark : c.deleteMark with
  | true => simpa [deferDestroyConnection, hmark] using isLinked_of_mark hs hc hmark
  | false => simp [deferDestroyConnection, hmark, store, Linked.isLinked_grabTail]

theorem isLinked_destroyConnection (hs : Tidy s) (hc : s.localConnectionPool.get k = some c) :
    (destroyConnection s k).connectionLists.IsLinked k := by
  obtain rfl := hs.connectionId hc
  cases hmark : c.deleteMark with
  | true =>
    simpa [destroyConnection, hc, deferDestroyConnection, hmark, store] using
      isLinked_of_mark hs hc hmark
  | false =>
    simp [destroyConnection, hc, deferDestroyConnection, hmark, store, Linked.isLinked_grabTail]

/-- What a step links is what it touches. -/
theorem isLinked_step (hs : Tidy s) (x : RelayInput) (k : ℕ) {d : RelayLocalDeviceConnection}
    (hd : (step R x.alive s x.event).1.localConnectionPool.get k = some d) :
    (step R x.alive s x.event).1.connectionLists.IsLinked k ↔
      s.connectionLists.IsLinked k ∨ Touches s x k := by
  have hno (he : ∀ l, x.event.Allows l → ¬IsTouch k l) (htouch : ¬Touches s x k) :
      (step R x.alive s x.event).1.connectionLists.IsLinked k ↔
        s.connectionLists.IsLinked k ∨ Touches s x k := by
    rw [or_iff_left htouch]
    exact (step_stillLinked hs he).iff hd
  obtain ⟨alive, e⟩ := x
  dsimp only at hd hno ⊢
  cases e with
  | onConnected j =>
    by_cases hj : j = k
    · subst hj
      cases hc : s.localConnectionPool.get j with
      | none => simp [step, onConnection, hc, Touches]
      | some c =>
        cases hconnected : c.isConnected with
        | true => simp [step, onConnection, hc, hconnected, Touches]
        | false =>
          have h := isLinked_onConnected alive hs hc
          simpa [step, onConnection, hc, hconnected, Touches] using h
    · exact hno (by simp [RelayEvent.Allows, IsTouch, hj]) (by simp [Touches, hj])
  | onData j data =>
    by_cases hj : j = k
    · subst hj
      cases hc : s.localConnectionPool.get j with
      | none => simp [step, onConnection, hc, Touches]
      | some c =>
        cases hconnected : c.isConnected with
        | false => simp [step, onConnection, hc, hconnected, Touches]
        | true =>
          have h := isLinked_onData hs hc data
          simpa [step, onConnection, hc, hconnected, Touches] using h
    · exact hno (by simp [RelayEvent.Allows, IsTouch, hj]) (by simp [Touches, hj])
  | onPeerClose j =>
    by_cases hj : j = k
    · subst hj
      cases hc : s.localConnectionPool.get j with
      | none => simp [step, onConnection, hc, Touches]
      | some c =>
        have h := isLinked_deferDestroyConnection alive hs hc
        simpa [step, onConnection, hc, Touches, onPeerClose] using h
    · exact hno (by simp [RelayEvent.Allows, IsTouch, hj]) (by simp [Touches, hj])
  | destroyConnection j =>
    by_cases hj : j = k
    · subst hj
      cases hc : s.localConnectionPool.get j with
      | none => simp [step, destroyConnection, hc, Touches]
      | some c =>
        have h := isLinked_destroyConnection hs hc
        simpa [step, hc, Touches] using h
    · exact hno (by simp [RelayEvent.Allows, IsTouch, hj]) (by simp [Touches, hj])
  | createConnection | createUdpChannel | destroyUdpChannel | keepUdpChannelAlive | postData
  | postUdpData | onUdpData | dnsResult =>
    exact hno (by simp [RelayEvent.Allows, IsTouch]) (by simp [Touches])
  | tick nowMS =>
    refine hno ?_ (by simp [Touches])
    rintro l (rfl | rfl | ⟨_, rfl | rfl | rfl⟩ | ⟨_, rfl | rfl⟩) <;> simp [IsTouch]

/-! ## UDP channels -/

/-- The labels of the turns that may link the UDP channel `u`. -/
def IsUdpTouch (u : ℕ) (l : RelayLabel) : Prop := l = .keepUdp u ∨ l = .destroyUdp u

/-- The UDP channel `u` is linked in `t` as it was in `s`, unless it is gone for good. -/
structure UdpStillLinked (u : ℕ) (s t : RelayLocalBindingService) : Prop where
  mpr : t.udpChannelLists.IsLinked u → s.udpChannelLists.IsLinked u
  mp : s.udpChannelLists.IsLinked u → t.udpChannelLists.IsLinked u ∨
    u ≤ t.localUdpChannelPool.lastId ∧ t.localUdpChannelPool.get u = none

/-- A turn that does not touch a UDP channel does not link it, and unlinks it only to release it. -/
theorem RelayTurn.udpStillLinked {s₀ : RelayLocalBindingService} (hs₀ : Tidy s₀)
    (h : RelayTurn alive s l o t) (hl : ¬IsUdpTouch u l) (hs : Tidy s)
    (hu : s₀.localUdpChannelPool.lastId ≤ s.localUdpChannelPool.lastId)
    (hstill : UdpStillLinked u s₀ s) : UdpStillLinked u s₀ t := by
  have hlast := (h.lastId).2
  cases h.udpMoved hs u with
  | gone hnone hkill =>
    refine ⟨fun hm => ?_, fun hm => .inr ⟨?_, hnone⟩⟩
    · exact absurd hm ((h.tidy hs).udpFiled.not_linked hnone)
    · obtain ⟨x, hx⟩ := hs₀.udpFiled.live hm
      exact (Storage.le_lastId_of_get hx).trans (hu.trans hlast)
  | created x hl hj hx hmark hlists =>
    refine ⟨fun hm => absurd hm hlists, fun hm => ?_⟩
    obtain ⟨y, hy⟩ := hs₀.udpFiled.live hm
    exact absurd ((Storage.le_lastId_of_get hy).trans hu) (Nat.not_le.2 hj)
  | kept hget hlists =>
    refine ⟨fun ⟨m, hm⟩ => hstill.mpr ⟨m, (hlists m).1 hm⟩, fun hm => ?_⟩
    rcases hstill.mp hm with ⟨m, hm⟩ | ⟨hle, hnone⟩
    · exact .inl ⟨m, (hlists m).2 hm⟩
    · exact .inr ⟨hle.trans hlast, hget.trans hnone⟩
  | touched x hl' => exact absurd (.inl hl') hl
  | marked x hl' hx hy hlists =>
    rcases hl' with rfl | ⟨-, hidle⟩
    · exact absurd (.inr rfl) hl
    · exact ⟨fun _ => hstill.mpr ⟨_, hidle⟩, fun _ => .inl ⟨_, (hlists .kill).2 rfl⟩⟩

theorem step_udpStillLinked {e : RelayEvent} (hs : Tidy s)
    (he : ∀ l, e.Allows l → ¬IsUdpTouch u l) : UdpStillLinked u s (step R alive s e).1 := by
  have hI := (step_turns R alive hs e).invariant
    (I := fun t => Tidy t ∧ s.localUdpChannelPool.lastId ≤ t.localUdpChannelPool.lastId ∧
      UdpStillLinked u s t)
    (fun t l o v hl hI h => ⟨h.tidy hI.1, hI.2.1.trans h.lastId.2,
      h.udpStillLinked hs (he l hl) hI.1 hI.2.1 hI.2.2⟩)
    ⟨hs, le_rfl, ⟨id, .inl⟩⟩
  exact hI.2.2

theorem UdpStillLinked.iff (h : UdpStillLinked u s t) {y : RelayLocalDeviceUdpChannel}
    (hy : t.localUdpChannelPool.get u = some y) :
    t.udpChannelLists.IsLinked u ↔ s.udpChannelLists.IsLinked u := by
  refine ⟨h.mpr, fun hm => ?_⟩
  rcases h.mp hm with hm | ⟨-, hnone⟩
  · exact hm
  · rw [hy] at hnone; cases hnone

/-- What a step links of the UDP channels is what it touches. -/
theorem isUdpLinked_step (hs : Tidy s) (x : RelayInput) (u : ℕ) {y : RelayLocalDeviceUdpChannel}
    (hy : (step R x.alive s x.event).1.localUdpChannelPool.get u = some y) :
    (step R x.alive s x.event).1.udpChannelLists.IsLinked u ↔
      s.udpChannelLists.IsLinked u ∨ TouchesUdp s x u := by
  have hno (he : ∀ l, x.event.Allows l → ¬IsUdpTouch u l) (htouch : ¬TouchesUdp s x u) :
      (step R x.alive s x.event).1.udpChannelLists.IsLinked u ↔
        s.udpChannelLists.IsLinked u ∨ TouchesUdp s x u := by
    rw [or_iff_left htouch]
    exact (step_udpStillLinked hs he).iff hy
  obtain ⟨alive, e⟩ := x
  dsimp only at hy hno ⊢
  cases e with
  | keepUdpChannelAlive j =>
    by_cases hj : j = u
    · subst hj
      cases hx : s.localUdpChannelPool.get j with
      | none => simp [step, keepUdpChannelAlive, hx, TouchesUdp]
      | some x =>
        obtain rfl := hs.udpChannelId hx
        cases hmark : x.deleteMark with
        | true =>
          have h : s.udpChannelLists.IsLinked x.udpChannelId :=
            ⟨.kill, (hs.udpFiled.marked hx).2 hmark⟩
          simpa [step, keepUdpChannelAlive, hx, keepUdpAlive, hmark, TouchesUdp] using h
        | false =>
          simp [step, keepUdpChannelAlive, hx, keepUdpAlive, hmark, TouchesUdp, storeUdp,
            Linked.isLinked_grabTail]
    · exact hno (by simp [RelayEvent.Allows, IsUdpTouch, hj]) (by simp [TouchesUdp, hj])
  | destroyUdpChannel j =>
    by_cases hj : j = u
    · subst hj
      cases hx : s.localUdpChannelPool.get j with
      | none => simp [step, destroyUdpChannel, hx, TouchesUdp]
      | some x =>
        obtain rfl := hs.udpChannelId hx
        simp [step, destroyUdpChannel, hx, deferDestroyUdpChannel, TouchesUdp, storeUdp,
          Linked.isLinked_grabTail]
    · exact hno (by simp [RelayEvent.Allows, IsUdpTouch, hj]) (by simp [TouchesUdp, hj])
  | createConnection =>
    refine hno ?_ (by simp [TouchesUdp])
    rintro l (rfl | rfl | ⟨_, rfl⟩) <;> simp [IsUdpTouch]
  | createUdpChannel =>
    refine hno ?_ (by simp [TouchesUdp])
    rintro l (rfl | ⟨_, rfl⟩) <;> simp [IsUdpTouch]
  | destroyConnection | postData | postUdpData | onConnected | onPeerClose | onData | onUdpData
  | dnsResult =>
    exact hno (by simp [RelayEvent.Allows, IsUdpTouch]) (by simp [TouchesUdp])
  | tick nowMS =>
    refine hno ?_ (by simp [TouchesUdp])
    rintro l (rfl | rfl | ⟨_, rfl | rfl | rfl⟩ | ⟨_, rfl | rfl⟩) <;> simp [IsUdpTouch]

/-! ## Runs -/

theorem Touches.live {x : RelayInput} (h : Touches s x k) : k ≤ s.localConnectionPool.lastId :=
  let ⟨_, hc, _⟩ := h
  Storage.le_lastId_of_get hc

theorem TouchesUdp.live {x : RelayInput} (h : TouchesUdp s x u) :
    u ≤ s.localUdpChannelPool.lastId := by
  obtain ⟨y, hy⟩ := Option.isSome_iff_exists.1 h.1
  exact Storage.le_lastId_of_get hy

variable (R alive) in
theorem step_lastId (hs : Tidy s) (e : RelayEvent) :
    s.localConnectionPool.lastId ≤ (step R alive s e).1.localConnectionPool.lastId ∧
      s.localUdpChannelPool.lastId ≤ (step R alive s e).1.localUdpChannelPool.lastId :=
  (step_turns R alive hs e).invariant
    (I := fun t => s.localConnectionPool.lastId ≤ t.localConnectionPool.lastId ∧
      s.localUdpChannelPool.lastId ≤ t.localUdpChannelPool.lastId)
    (fun _ _ _ _ _ hI h => ⟨hI.1.trans h.lastId.1, hI.2.trans h.lastId.2⟩) ⟨le_rfl, le_rfl⟩

/-- What is not live any more is not live again. -/
theorem step_gone (hs : Tidy s) (e : RelayEvent) (hk : k ≤ s.localConnectionPool.lastId)
    (hnone : s.localConnectionPool.get k = none) :
    (step R alive s e).1.localConnectionPool.get k = none :=
  ((step_turns R alive hs e).invariant
    (I := fun t => Tidy t ∧ k ≤ t.localConnectionPool.lastId ∧ t.localConnectionPool.get k = none)
    (fun _ _ _ _ _ hI h => ⟨h.tidy hI.1, hI.2.1.trans h.lastId.1, h.gone hI.2.1 hI.1 hI.2.2⟩)
    ⟨hs, hk, hnone⟩).2.2

theorem step_udpGone (hs : Tidy s) (e : RelayEvent) (hu : u ≤ s.localUdpChannelPool.lastId)
    (hnone : s.localUdpChannelPool.get u = none) :
    (step R alive s e).1.localUdpChannelPool.get u = none :=
  ((step_turns R alive hs e).invariant
    (I := fun t => Tidy t ∧ u ≤ t.localUdpChannelPool.lastId ∧ t.localUdpChannelPool.get u = none)
    (fun _ _ _ _ _ hI h => ⟨h.tidy hI.1, hI.2.1.trans h.lastId.2, h.udpGone hI.2.1 hI.1 hI.2.2⟩)
    ⟨hs, hu, hnone⟩).2.2

/-- What a run linked is what it touched. -/
structure LinkedAsTouched (R : RelayPlatform) (s₀ : RelayLocalBindingService) (es : List RelayInput)
    (s : RelayLocalBindingService) : Prop where
  exec : exec (next R) s₀ es = .ok s
  tidy : Tidy s
  touched_le : ∀ k, Touched R s₀ es k → k ≤ s.localConnectionPool.lastId
  linked : ∀ k c, s.localConnectionPool.get k = some c →
    (s.connectionLists.IsLinked k ↔ Touched R s₀ es k)
  udpTouched_le : ∀ u, TouchedUdp R s₀ es u → u ≤ s.localUdpChannelPool.lastId
  udpLinked : ∀ u x, s.localUdpChannelPool.get u = some x →
    (s.udpChannelLists.IsLinked u ↔ TouchedUdp R s₀ es u)

theorem LinkedAsTouched.step {s₀ : RelayLocalBindingService} {es : List RelayInput} {x : RelayInput}
    (h : LinkedAsTouched R s₀ es s) (ht : next R s x = .ok t) :
    LinkedAsTouched R s₀ (es ++ [x]) t := by
  have hexec : ProxyPlatform.exec (next R) s₀ (es ++ [x]) = .ok t := (exec_snoc x h.exec).trans ht
  cases ht
  have hlast := step_lastId R x.alive h.tidy x.event
  refine ⟨hexec, (step_turns R x.alive h.tidy x.event).tidy h.tidy, fun k hk => ?_, fun k c hc => ?_,
    fun u hu => ?_, fun u y hy => ?_⟩
  · rcases (occurs_snoc h.exec).1 hk with hk | hk
    · exact (h.touched_le k hk).trans hlast.1
    · exact hk.live.trans hlast.1
  · rw [isLinked_step h.tidy x k hc]
    refine Iff.trans (or_congr_left ?_) (occurs_snoc (C := (Touches · · k)) h.exec).symm
    cases hold : s.localConnectionPool.get k with
    | some d => exact h.linked k d hold
    | none =>
      refine iff_of_false (h.tidy.filed.not_linked hold) fun hk => ?_
      rw [step_gone h.tidy x.event (h.touched_le k hk) hold] at hc
      cases hc
  · rcases (occurs_snoc h.exec).1 hu with hu | hu
    · exact (h.udpTouched_le u hu).trans hlast.2
    · exact hu.live.trans hlast.2
  · rw [isUdpLinked_step h.tidy x u hy]
    refine Iff.trans (or_congr_left ?_) (occurs_snoc (C := (TouchesUdp · · u)) h.exec).symm
    cases hold : s.localUdpChannelPool.get u with
    | some z => exact h.udpLinked u z hold
    | none =>
      refine iff_of_false (h.tidy.udpFiled.not_linked hold) fun hu => ?_
      rw [step_udpGone h.tidy x.event (h.udpTouched_le u hu) hold] at hy
      cases hy

theorem linked_iff_touched {devices : List RelayLocalDevice} {es : List RelayInput}
    (h : exec (next R) (init devices) es = .ok s) : LinkedAsTouched R (init devices) es s := by
  refine exec_history (I := LinkedAsTouched R (init devices)) (fun _ _ _ _ h ht => h.step ht) ?_ h
  refine ⟨rfl, tidy_init devices, ?_, fun k c hc => (by cases hc), ?_, fun u x hx => (by cases hx)⟩
  · rintro k ⟨pre, x, t, hpre, -⟩
    simp at hpre
  · rintro k ⟨pre, x, t, hpre, -⟩
    simp at hpre

/-! ## Release -/

/-- No connection waits in the establish list. -/
def NoneEstablishing (s : RelayLocalBindingService) : Prop :=
  ∀ k, k ∉ s.connectionLists.nodes .establishTimeout

theorem RelayTurn.noneEstablishing (h : RelayTurn alive s l o t) (hs : Tidy s)
    (hI : NoneEstablishing s) : NoneEstablishing t := by
  intro k hk
  cases h.moved hs k with
  | gone hnone => exact (h.tidy hs).filed.not_linked hnone ⟨_, hk⟩
  | created c i f hl hj hc hnew hlists => exact hlists ⟨_, hk⟩
  | kept hget hlists => exact hI k ((hlists _).1 hk)
  | orphaned c hl hc hconnected hdead hd hlists => exact hI k ((hlists _).1 hk)
  | connected c f hl ho hc hconnected hmark hf halive hd hlists => cases (hlists _).1 hk
  | data c hl hc hconnected hmark hd hlists => cases (hlists _).1 hk
  | marked c hl hc hmark hd hlists => cases (hlists _).1 hk

theorem noneEstablishing_of_exec {devices : List RelayLocalDevice} {es : List RelayInput}
    (h : exec (next R) (init devices) es = .ok s) : NoneEstablishing s := by
  refine (exec_invariant (I := fun s => Tidy s ∧ NoneEstablishing s) (fun s e t hI ht => ?_)
    ⟨tidy_init devices, fun _ hk => by cases hk⟩ h).2
  cases ht
  exact (step_turns R e.alive hI.1 e.event).invariant (I := fun s => Tidy s ∧ NoneEstablishing s)
    (fun _ _ _ _ _ hI h => ⟨h.tidy hI.1, h.noneEstablishing hI.1 hI.2⟩) hI

/-- The first part of a tick leaves what is live, and its place in the lists. -/
theorem RelayTurn.kept_of_dns (h : RelayTurn alive s l o t) (hl : IsDns l) (hs : Tidy s)
    (hc : s.localConnectionPool.get k = some c) :
    t.localConnectionPool.get k = some c ∧
      ∀ m, k ∈ t.connectionLists.nodes m ↔ k ∈ s.connectionLists.nodes m := by
  cases h.moved hs k with
  | kept hget hlists => exact ⟨hget.trans hc, hlists⟩
  | gone hnone hkill =>
    rcases hkill with h | ⟨rfl, -⟩
    · rw [hc] at h; cases h
    · simp [IsDns] at hl
  | created d i f hl' hj => exact absurd (Storage.le_lastId_of_get hc) (Nat.not_le.2 hj)
  | marked d hl' => rcases hl' with rfl | rfl | ⟨rfl, -⟩ <;> simp [IsDns] at hl
  | orphaned d hl' | connected d f hl' | data d hl' => rw [hl'] at hl; simp [IsDns] at hl

theorem RelayTurn.udpKept_of_dns {x : RelayLocalDeviceUdpChannel} (h : RelayTurn alive s l o t)
    (hl : IsDns l) (hs : Tidy s) (hx : s.localUdpChannelPool.get u = some x) :
    t.localUdpChannelPool.get u = some x ∧
      ∀ m, u ∈ t.udpChannelLists.nodes m ↔ u ∈ s.udpChannelLists.nodes m := by
  cases h.udpMoved hs u with
  | kept hget hlists => exact ⟨hget.trans hx, hlists⟩
  | gone hnone hkill =>
    rcases hkill with h | ⟨rfl, -⟩
    · rw [hx] at h; cases h
    · simp [IsDns] at hl
  | created y hl' hj => exact absurd (Storage.le_lastId_of_get hx) (Nat.not_le.2 hj)
  | marked y hl' => rcases hl' with rfl | ⟨rfl, -⟩ <;> simp [IsDns] at hl
  | touched y hl' => rw [hl'] at hl; simp [IsDns] at hl

/-- What the first part of a tick leaves. -/
structure KeptByDns (s t : RelayLocalBindingService) : Prop where
  tidy : Tidy t
  kept : ∀ k c, s.localConnectionPool.get k = some c → t.localConnectionPool.get k = some c ∧
    ∀ m, k ∈ t.connectionLists.nodes m ↔ k ∈ s.connectionLists.nodes m
  linked : ∀ k, t.connectionLists.IsLinked k → s.connectionLists.IsLinked k
  udpKept : ∀ u x, s.localUdpChannelPool.get u = some x → t.localUdpChannelPool.get u = some x ∧
    ∀ m, u ∈ t.udpChannelLists.nodes m ↔ u ∈ s.udpChannelLists.nodes m
  udpLinked : ∀ u, t.udpChannelLists.IsLinked u → s.udpChannelLists.IsLinked u
  localTicker : t.localTicker = s.localTicker

theorem RelayTurn.localTicker_of_dns (h : RelayTurn alive s l o t) (hl : IsDns l) :
    t.localTicker = s.localTicker := by
  cases h with
  | quiet => simp [IsDns] at hl
  | _ => rfl

theorem RelayTurns.keptByDns (h : RelayTurns alive IsDns s o t) (hs : Tidy s) : KeptByDns s t := by
  refine (h.invariant (I := fun t => KeptByDns s t ∧
      s.localConnectionPool.lastId ≤ t.localConnectionPool.lastId ∧
      s.localUdpChannelPool.lastId ≤ t.localUdpChannelPool.lastId ∧
      (∀ k, StillLinked k s t) ∧ ∀ u, UdpStillLinked u s t)
    (fun t l o t' hl hI hturn => ?_)
    ⟨⟨hs, fun k c hc => ⟨hc, fun _ => .rfl⟩, fun _ => id, fun u x hx => ⟨hx, fun _ => .rfl⟩,
      fun _ => id, rfl⟩, le_rfl, le_rfl, fun _ => ⟨id, .inl⟩, fun _ => ⟨id, .inl⟩⟩).1
  obtain ⟨hkept, hlast, hudpLast, hstill, hudpStill⟩ := hI
  have hno (k : ℕ) : ¬IsTouch k l := by rcases hl with rfl | ⟨_, rfl⟩ <;> simp [IsTouch]
  have hudpNo (u : ℕ) : ¬IsUdpTouch u l := by rcases hl with rfl | ⟨_, rfl⟩ <;> simp [IsUdpTouch]
  have hstill' (k : ℕ) := hturn.stillLinked hs (hno k) hkept.tidy hlast (hstill k)
  have hudpStill' (u : ℕ) := hturn.udpStillLinked hs (hudpNo u) hkept.tidy hudpLast (hudpStill u)
  refine ⟨⟨hturn.tidy hkept.tidy, fun k c hc => ?_, fun k => (hstill' k).mpr, fun u x hx => ?_,
    fun u => (hudpStill' u).mpr, (hturn.localTicker_of_dns hl).trans hkept.localTicker⟩,
    hlast.trans hturn.lastId.1, hudpLast.trans hturn.lastId.2, hstill', hudpStill'⟩
  · obtain ⟨hget, hmem⟩ := hkept.kept k c hc
    obtain ⟨hget', hmem'⟩ := hturn.kept_of_dns hl hkept.tidy hget
    exact ⟨hget', fun m => (hmem' m).trans (hmem m)⟩
  · obtain ⟨hget, hmem⟩ := hkept.udpKept u x hx
    obtain ⟨hget', hmem'⟩ := hturn.udpKept_of_dns hl hkept.tidy hget
    exact ⟨hget', fun m => (hmem' m).trans (hmem m)⟩

/-- What is dying before the connections are cleaned is gone afterwards. -/
theorem Dying.cleaned (hs : Tidy s) (hk : Dying k s) :
    (cleanDyingConnections s).localConnectionPool.get k = none := by
  obtain ⟨hturns, hkill⟩ := cleanDyingConnections_turns (fun _ => true) hs
  rw [Option.eq_none_iff_forall_ne_some]
  intro c hc
  have hmem := ((hturns.tidy hs).filed.marked hc).2 ((hturns.dying hs hk).2 c hc)
  rw [hkill] at hmem
  cases hmem

theorem UdpDying.cleaned (hs : Tidy s) (hu : UdpDying u s) :
    (cleanDyingUdpChannels s).localUdpChannelPool.get u = none := by
  obtain ⟨hturns, hkill⟩ := cleanDyingUdpChannels_turns (fun _ => true) hs
  rw [Option.eq_none_iff_forall_ne_some]
  intro x hx
  have hmem := ((hturns.tidy hs).udpFiled.marked hx).2 ((hturns.udpDying hs hu).2 x hx)
  rw [hkill] at hmem
  cases hmem

/-- A tick that is late enough releases every connection that is linked. -/
theorem tick_releases (hs : Tidy s) (hnone : NoneEstablishing s) :
    ∃ T, ∀ alive nowMS k, T ≤ nowMS → s.connectionLists.IsLinked k →
      (tick R alive s nowMS).1.localConnectionPool.get k = none := by
  obtain ⟨b, hb⟩ := s.localConnectionPool.exists_bound RelayLocalDeviceConnection.timestampMS
  refine ⟨b + idleConnectionTimeoutMS, fun alive nowMS k hT hk => ?_⟩
  obtain ⟨o, t, hdns, htick⟩ := tick_eq R alive nowMS s
  have hs' : Tidy { s with localTicker := nowMS } :=
    hs.congr (fun _ => rfl) (fun _ => rfl) rfl rfl
  have hkept := hdns.keptByDns hs'
  obtain ⟨hidle, hdying⟩ :=
    deferDestroyIdleConnections_turns alive hkept.tidy
  obtain ⟨c, hc⟩ := hs.filed.live hk
  have hct := (hkept.kept k c hc).1
  have hk' : Dying k (deferDestroyIdleConnections alive t).1 := by
    obtain ⟨m, hm⟩ := hk
    have hmt := ((hkept.kept k c hc).2 m).2 hm
    cases m with
    | establishTimeout => exact absurd hm (hnone k)
    | kill =>
      refine hidle.dying hkept.tidy ⟨Storage.le_lastId_of_get hct, fun d hd => ?_⟩
      exact (hkept.tidy.filed.marked hd).1 hmt
    | idleTimeout =>
      -- The time of all connections of the idle list is up.
      have hall : ∀ j ∈ t.connectionLists.nodes .idleTimeout, t.isIdle j = true := by
        intro j hj
        obtain ⟨d, hd⟩ := hs.filed.live (hkept.linked j ⟨_, hj⟩)
        have htime := hb j d hd
        have hle : idleConnectionTimeoutMS ≤ nowMS := by omega
        rw [isIdle, (hkept.kept j d hd).1, hkept.localTicker, sub64_of_le hle]
        exact decide_eq_true (by omega)
      refine hdying k ?_
      rw [List.takeWhile_eq_self_iff.2 hall]
      exact hmt
  have h₂ := hidle.tidy hkept.tidy
  obtain ⟨hudp, -⟩ := deferDestroyIdleUdpChannels_turns alive h₂
  have h₃ := hudp.tidy h₂
  have hgone := Dying.cleaned h₃ (hudp.dying h₂ hk')
  obtain ⟨hclean, -⟩ := cleanDyingConnections_turns alive h₃
  obtain ⟨hcleanUdp, -⟩ :=
    cleanDyingUdpChannels_turns alive (hclean.tidy h₃)
  rw [htick]
  refine (hcleanUdp.invariant
    (I := fun t => Tidy t ∧ k ≤ t.localConnectionPool.lastId ∧ t.localConnectionPool.get k = none)
    (fun _ _ _ _ _ hI h => ⟨h.tidy hI.1, hI.2.1.trans h.lastId.1, h.gone hI.2.1 hI.1 hI.2.2⟩)
    ⟨hclean.tidy h₃, ?_, hgone⟩).2.2
  exact (hclean.dying h₃ (hudp.dying h₂ hk')).1

variable (alive) in
/-- The connections whose time is up are no concern of the UDP channels. -/
theorem deferDestroyIdleConnections_udp (s : RelayLocalBindingService) :
    (deferDestroyIdleConnections alive s).1.localUdpChannelPool = s.localUdpChannelPool ∧
      (deferDestroyIdleConnections alive s).1.udpChannelLists = s.udpChannelLists ∧
      (deferDestroyIdleConnections alive s).1.localTicker = s.localTicker := by
  rw [deferDestroyIdleConnections]
  generalize (s.connectionLists.nodes .idleTimeout).takeWhile s.isIdle = is
  induction is using List.reverseRecOn with
  | nil => exact ⟨rfl, rfl, rfl⟩
  | append_singleton is i ih =>
    rw [List.foldl_concat]
    generalize is.foldl (deferDestroyIdleConnection alive) (s, []) = x at ih ⊢
    rw [deferDestroyIdleConnection]
    split
    · exact ih
    · rw [deferDestroyConnection]
      split_ifs <;> exact ih

/-- A tick that is late enough releases every UDP channel that is linked. -/
theorem tick_releases_udp (hs : Tidy s) :
    ∃ T, ∀ alive nowMS u, T ≤ nowMS → s.udpChannelLists.IsLinked u →
      (tick R alive s nowMS).1.localUdpChannelPool.get u = none := by
  obtain ⟨b, hb⟩ := s.localUdpChannelPool.exists_bound RelayLocalDeviceUdpChannel.timestampMS
  refine ⟨b + idleConnectionTimeoutMS, fun alive nowMS u hT hu => ?_⟩
  obtain ⟨o, t, hdns, htick⟩ := tick_eq R alive nowMS s
  have hs' : Tidy { s with localTicker := nowMS } :=
    hs.congr (fun _ => rfl) (fun _ => rfl) rfl rfl
  have hkept := hdns.keptByDns hs'
  obtain ⟨hidle, -⟩ := deferDestroyIdleConnections_turns alive hkept.tidy
  obtain ⟨hpool, hlists, hticker⟩ := deferDestroyIdleConnections_udp alive t
  have h₂ := hidle.tidy hkept.tidy
  obtain ⟨hudp, hdying⟩ := deferDestroyIdleUdpChannels_turns alive h₂
  obtain ⟨x, hx⟩ := hs.udpFiled.live hu
  have hxt := (hkept.udpKept u x hx).1
  have hu' : UdpDying u (deferDestroyIdleUdpChannels (deferDestroyIdleConnections alive t).1) := by
    obtain ⟨m, hm⟩ := hu
    have hmt := ((hkept.udpKept u x hx).2 m).2 hm
    cases m with
    | kill =>
      refine hudp.udpDying h₂ ⟨?_, fun y hy => ?_⟩
      · rw [hpool]
        exact Storage.le_lastId_of_get hxt
      · rw [hpool] at hy
        exact (hkept.tidy.udpFiled.marked hy).1 hmt
    | idleTimeout =>
      have hall : ∀ v ∈ t.udpChannelLists.nodes .idleTimeout,
          isUdpIdle (deferDestroyIdleConnections alive t).1 v = true := by
        intro v hv
        obtain ⟨y, hy⟩ := hs.udpFiled.live (hkept.udpLinked v ⟨_, hv⟩)
        have htime := hb v y hy
        have hle : idleConnectionTimeoutMS ≤ nowMS := by omega
        rw [isUdpIdle, hpool, (hkept.udpKept v y hy).1, hticker, hkept.localTicker, sub64_of_le hle]
        exact decide_eq_true (by omega)
      refine hdying u ?_
      rw [hlists, List.takeWhile_eq_self_iff.2 hall]
      exact hmt
  have h₃ := hudp.tidy h₂
  obtain ⟨hclean, -⟩ := cleanDyingConnections_turns alive h₃
  rw [htick]
  exact UdpDying.cleaned (hclean.tidy h₃) (hclean.udpDying h₃ hu')

/-- What is live is linked in one list, and released by late ticks, if and only if it was touched
    since it was created. -/
theorem reclaimed_iff_touched (R : RelayPlatform) (devices : List RelayLocalDevice)
    (es : List RelayInput) (s : RelayLocalBindingService)
    (h : exec (next R) (init devices) es = .ok s) :
    Reclaimed R s ↔
      (∀ k c, s.localConnectionPool.get k = some c → Touched R (init devices) es k) ∧
      ∀ u x, s.localUdpChannelPool.get u = some x → TouchedUdp R (init devices) es u := by
  have hlinked := linked_iff_touched h
  constructor
  · rintro ⟨hconnections, hudpChannels⟩
    refine ⟨fun k c hc => ?_, fun u x hx => ?_⟩
    · exact (hlinked.linked k c hc).1 (hconnections k c hc).1.exists
    · exact (hlinked.udpLinked u x hx).1 (hudpChannels u x hx).1.exists
  · rintro ⟨hconnections, hudpChannels⟩
    obtain ⟨T, hT⟩ := tick_releases (R := R) hlinked.tidy (noneEstablishing_of_exec h)
    obtain ⟨T', hT'⟩ := tick_releases_udp (R := R) hlinked.tidy
    refine ⟨fun k c hc => ?_, fun u x hx => ?_⟩
    · have hk := (hlinked.linked k c hc).2 (hconnections k c hc)
      exact ⟨hk.existsUnique, T, fun alive nowMS hnow => hT alive nowMS k hnow hk⟩
    · have hu := (hlinked.udpLinked u x hx).2 (hudpChannels u x hx)
      exact ⟨hu.existsUnique, T', fun alive nowMS hnow => hT' alive nowMS u hnow hu⟩

/-- A relay with one device, whose sockets and lookups all succeed. -/
def openPlatform : RelayPlatform where
  initConnection _ := true
  initUdpChannel _ := true
  resolveDns _ := true

def loopbackAddress : NetAddress := { type := .ipv4, bytes := [127, 0, 0, 1], port := 443 }

def loopbackDevice : RelayLocalDevice where
  deviceId := makeLocalDeviceId 0
  bindAddress := loopbackAddress.ip
  exportAddress := loopbackAddress.ip
  enableTcp := true
  enableUdp := true

/-- A connection that is asked for by address, with the future `1`, and connected. -/
def openedEvents : List RelayInput :=
  [⟨fun _ => true, .createConnection (makeLocalDeviceId 0) 7 (.address loopbackAddress) 1⟩,
    ⟨fun _ => true, .onConnected 1⟩]

theorem reclaimed_iff_touched_sample :
    ∃ s, exec (next openPlatform) (init [loopbackDevice]) openedEvents = .ok s ∧
      s.connectionLists.nodes .idleTimeout = [1] ∧ (Reclaimed openPlatform s ↔
        (∀ k c, s.localConnectionPool.get k = some c →
          Touched openPlatform (init [loopbackDevice]) openedEvents k) ∧
        ∀ u x, s.localUdpChannelPool.get u = some x →
          TouchedUdp openPlatform (init [loopbackDevice]) openedEvents u) := by
  obtain ⟨s, hs, hidle⟩ := exists_ok_of_check
    (x := exec (next openPlatform) (init [loopbackDevice]) openedEvents)
    (p := fun s => s.connectionLists.nodes .idleTimeout = [1]) (by decide +kernel)
  exact ⟨s, hs, of_decide_eq_true hidle, reclaimed_iff_touched _ _ _ s hs⟩

/-- A connection that is never connected. -/
theorem reclaimed_iff_touched_counterexample :
    ¬∀ s, exec (next openPlatform) (init [loopbackDevice]) (openedEvents.take 1) = .ok s →
      Reclaimed openPlatform s := by
  intro h
  obtain ⟨s, hs, hp⟩ := exists_ok_of_check
    (x := exec (next openPlatform) (init [loopbackDevice]) (openedEvents.take 1))
    (p := fun s => (s.localConnectionPool.get 1).isSome ∧
      ∀ m ∈ [RelayConnectionList.establishTimeout, .idleTimeout, .kill],
        1 ∉ s.connectionLists.nodes m)
    (by decide +kernel)
  obtain ⟨hlive, hlists⟩ := of_decide_eq_true hp
  obtain ⟨c, hc⟩ := Option.isSome_iff_exists.1 hlive
  obtain ⟨m, hm⟩ := ((h s hs).1 1 c hc).1.exists
  cases m <;> exact hlists _ (by simp) hm

end

end ProxyPlatform.RelayLocalBindingService
