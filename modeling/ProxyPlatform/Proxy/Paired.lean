import ProxyPlatform.Base.Pairing
import ProxyPlatform.Proxy.Effect

/-!
# Connections, futures and UDP channels

A connection and each of its futures lead to each other, and so do a connection and its
UDP channel (`Paired`). A state is `Sound` when moreover every connection is at a stage
of its handshake, and the authentication futures are all ready.

* `Act.futures`, `Act.channels`: what an act does to the futures and to the UDP channels;
* `Paired.effect`: a call keeps connections, futures and UDP channels together;
* `Paired.finish`: so does releasing a future.
-/

namespace ProxyPlatform

/-- What the stages and the tables are about, of a connection. -/
def ClientConnection.outline (c : ClientConnection) :=
  (c.connectionId, c.type, c.dataProcessor, c.futures, c.localAuthId, c.relaySideConnectionId,
    c.bindUdpChannel)

theorem AtStage.congr {c c' : ClientConnection} {g : Stage} (hg : AtStage c g)
    (h : c'.outline = c.outline) : AtStage c' g := by
  simp only [ClientConnection.outline, Prod.mk.injEq] at h
  obtain ⟨-, htype, hp, hfut, hid, hrelay, hbind⟩ := h
  refine ⟨?_, fun κ => ?_, fun h => ?_, fun h => ?_, fun h => ?_⟩
  · rw [htype, hp]; exact hg.shape
  · rw [hfut]; exact hg.awaits κ
  · rw [hid]; exact hg.localAuthId h
  · rw [hrelay]; exact hg.relaySideConnectionId h
  · rw [hbind] at h; exact hg.bindUdpChannel h

namespace ProxyAccessService

variable {σ : Type*} {S : Services σ} {P : Platform}

/-! ## Sound states -/

section

variable (s : ProxyAccessService σ)

/-- The future of each kind that the connection `k` carries. -/
def futureOf (κ : FutureKind) (k : ℕ) : Option ℕ :=
  (s.clientConnectionPool.get k).bind fun c => c.futures κ

/-- The connection for which the future `f` was acquired. -/
def contextOf (κ : FutureKind) (f : ℕ) : Option ℕ :=
  ((s.futureManager κ).get f).map Future.context

/-- The UDP channel of the connection `k`. -/
def channelOf (k : ℕ) : Option ℕ :=
  (s.clientConnectionPool.get k).bind fun c => c.bindUdpChannel

/-- The connection of the UDP channel `u`. -/
def parentOf (u : ℕ) : Option ℕ :=
  (s.clientUdpChannelPool.get u).map ClientUdpChannel.parentConnection

/-- Connections, futures and UDP channels belong together. -/
structure Paired : Prop where
  connectionId : ∀ k c, s.clientConnectionPool.get k = some c → c.connectionId = k
  futures : ∀ κ, Pairing (s.futureOf κ) (s.contextOf κ)
  channels : Pairing s.channelOf s.parentOf
  /-- A UDP channel that the relay serves belongs to a UDP association. -/
  type : ∀ u udpChannel c, s.clientUdpChannelPool.get u = some udpChannel →
    udpChannel.relaySideUdpChannelId ≠ 0 →
    s.clientConnectionPool.get udpChannel.parentConnection = some c → c.type = .s5Udp

structure Sound : Prop extends Paired s where
  stage : ∀ k c, s.clientConnectionPool.get k = some c → ∃ g, AtStage c g
  auth : ∀ f future, (s.futureManager .auth).get f = some future →
    f ∈ (s.futureManager .auth).futureList

end

/-! ## The acts, on the tables -/

section

variable {s s' : ProxyAccessService σ} {c c' : ClientConnection} {x : Core σ}
  {taken : Option ((κ : FutureKind) × Option κ.Result)}

theorem get_store {k : ℕ} {c₀ : ClientConnection} (hk : s.clientConnectionPool.get k = some c₀)
    (hid : c.connectionId = k) (j : ℕ) : (s.store c).clientConnectionPool.get j =
      if j = k then some c else s.clientConnectionPool.get j := by
  subst hid
  exact Storage.get_set hk c j

/-- Writing back a connection of a state with the same connections. -/
theorem get_store_of_pool {k : ℕ} (hpool : s'.clientConnectionPool = s.clientConnectionPool)
    (hc : s.clientConnectionPool.get k = some c) (hid : c'.connectionId = k) (j : ℕ) :
    (s'.store c').clientConnectionPool.get j =
      if j = k then some c' else s.clientConnectionPool.get j := by
  rw [get_store (by rw [hpool]; exact hc) hid, hpool]

theorem futureOf_store {k : ℕ} {c₀ : ClientConnection}
    (hk : s.clientConnectionPool.get k = some c₀) (hid : c.connectionId = k) (κ : FutureKind) :
    (s.store c).futureOf κ = Function.update (s.futureOf κ) k (c.futures κ) := by
  funext j
  by_cases hj : j = k
  · simp [futureOf, get_store hk hid, hj]
  · simp [futureOf, get_store hk hid, hj]

theorem channelOf_store {k : ℕ} {c₀ : ClientConnection}
    (hk : s.clientConnectionPool.get k = some c₀) (hid : c.connectionId = k) :
    (s.store c).channelOf = Function.update s.channelOf k c.bindUdpChannel := by
  funext j
  by_cases hj : j = k
  · simp [channelOf, get_store hk hid, hj]
  · simp [channelOf, get_store hk hid, hj]

/-- A request leaves the futures of the other kinds alone. -/
theorem request_cases (y : Core σ) (ι : FutureKind) (f : ℕ) (m : FuturePoolManager ℕ ι.Result)
    (t : σ) (κ : FutureKind) :
    ((y.request ι f m t).futureManager κ = y.futureManager κ ∧
      (y.request ι f m t).futures κ = y.futures κ) ∨
      ∃ h : ι = κ, (y.request ι f m t).futures κ = some f ∧
        (y.request ι f m t).futureManager κ = h ▸ m := by
  by_cases hκ : κ = ι
  · subst hκ
    exact .inr ⟨rfl, by simp [Core.request], by simp [Core.request]⟩
  · exact .inl ⟨by simp [Core.request, hκ], by simp [Core.request, hκ]⟩

/-- The futures of a kind are left alone by an act, or one more is acquired by a connection that
    had none. While a result is taken up, only the next kind of futures grows. -/
theorem Act.futures (h : Act S s c s' x taken) (κ : FutureKind) :
    (x.futureManager κ = s.futureManager κ ∧ x.futures κ = c.futures κ) ∨
      ∃ f m y, (s.futureManager κ).acquireFuture c.connectionId = some (f, m) ∧
        c.futures κ = none ∧ x.futures κ = some f ∧ x.futureManager κ = m.complete f y ∧
        (κ = .auth → ∃ r, y = .ready r) ∧ (taken = none ∨
          κ = .acquireDevice ∧ (∃ r, taken = some ⟨.auth, r⟩) ∨
          κ = .acquireDeviceConnection ∧ ∃ r, taken = some ⟨.acquireDevice, r⟩) := by
  cases h with
  | quiet _ hcore _ | grant _ _ hcore _ | unbound _ _ _ _ hcore _ | bind _ _ _ _ _ _ _ hcore _
  | establish _ _ _ hcore _ | establishNormal _ _ _ _ _ hcore _ | channelReady _ _ _ _ _ _ hcore _
  | forward _ _ hcore _ _ => rw [hcore]; exact .inl ⟨rfl, rfl⟩
  | authenticate f m key t r hacquire hauth hfuture hid hcore hcalls =>
    rw [hcore]
    rcases request_cases (core s c) .auth f (m.setReady f r) t κ with h | ⟨rfl, h₁, h₂⟩
    · exact .inl h
    · exact .inr ⟨f, m, .ready r, hacquire, hfuture, h₁, h₂, fun _ => ⟨r, rfl⟩, .inl rfl⟩
  | locate r f m request t y hacquire hdevice hfuture hid hcore hcalls =>
    rw [hcore]
    rcases request_cases (core s c) .acquireDevice f (m.complete f y) t κ with h | ⟨rfl, h₁, h₂⟩
    · exact .inl h
    · exact .inr ⟨f, m, y, hacquire, hfuture, h₁, h₂, by simp, .inr (.inl ⟨rfl, _, rfl⟩)⟩
  | connect f m a b target t y htaken hacquire hcreate hfuture hrelay hcore htalk =>
    rw [hcore]
    rcases request_cases (core s c) .acquireDeviceConnection f (m.complete f y) t κ with
      h | ⟨rfl, h₁, h₂⟩
    · exact .inl h
    · refine .inr ⟨f, m, y, hacquire, hfuture, h₁, h₂, by simp, ?_⟩
      rcases htaken with htaken | ⟨d, htaken⟩
      · exact .inl htaken
      · exact .inr (.inr ⟨rfl, _, htaken⟩)
  | associate u p udpChannel f m a b t y hudp hparent hid hbind hacquire hcreate hfuture hcore _ =>
    rw [hcore]
    rcases request_cases (core s c) .acquireDeviceUdpChannel f (m.complete f y) t κ with
      h | ⟨rfl, h₁, h₂⟩
    · exact .inl h
    · exact .inr ⟨f, m, y, hacquire, hfuture, h₁, h₂, by simp, .inl rfl⟩

/-- The UDP channels are left alone by an act, or one more is bound by a connection that had
    none, or the relay side of the channel of a UDP association becomes known. -/
theorem Act.channels (h : Act S s c s' x taken) :
    (x.bindUdpChannel = c.bindUdpChannel ∧
      ∀ u, x.clientUdpChannelPool.get u = s.clientUdpChannelPool.get u) ∨
    (∃ u udpChannel, c.bindUdpChannel = none ∧ x.bindUdpChannel = some u ∧
      s.clientUdpChannelPool.get u = none ∧ udpChannel.parentConnection = c.connectionId ∧
      udpChannel.relaySideUdpChannelId = 0 ∧
      ∀ i, x.clientUdpChannelPool.get i =
        if i = u then some udpChannel else s.clientUdpChannelPool.get i) ∨
    ∃ u udpChannel e, taken = some ⟨.acquireDeviceUdpChannel, some e⟩ ∧
      c.bindUdpChannel = some u ∧ x.bindUdpChannel = some u ∧ c.type = .s5Udp ∧
      s.clientUdpChannelPool.get u = some udpChannel ∧
      ∀ i, x.clientUdpChannelPool.get i =
        if i = u then some { udpChannel with relaySideUdpChannelId := e }
        else s.clientUdpChannelPool.get i := by
  cases h with
  | quiet _ hcore _ | authenticate _ _ _ _ _ _ _ _ _ hcore _ | grant _ _ hcore _
  | locate _ _ _ _ _ _ _ _ _ _ hcore _ | connect _ _ _ _ _ _ _ _ _ _ _ _ hcore _
  | establish _ _ _ hcore _ | establishNormal _ _ _ _ _ hcore _ | forward _ _ hcore _ _ =>
    rw [hcore]
    exact .inl ⟨rfl, fun _ => rfl⟩
  | unbound u p udpChannel hacquire hcore _ =>
    rw [hcore]
    refine .inl ⟨rfl, fun i => ?_⟩
    change (p.release u).get i = _
    rw [Storage.get_release, Storage.get_acquire hacquire]
    split
    · next hi => rw [hi, Storage.get_of_acquire hacquire]
    · rfl
  | bind u p udpChannel hacquire hparent hid hbind hcore _ =>
    rw [hcore]
    exact .inr (.inl ⟨u, udpChannel, hbind, rfl, Storage.get_of_acquire hacquire, hparent, hid,
      Storage.get_acquire hacquire⟩)
  | associate u p udpChannel f m a b t y hudp hparent hid hbind hacquire hcreate hfuture hcore _ =>
    rw [hcore]
    exact .inr (.inl ⟨u, udpChannel, hbind, rfl, Storage.get_of_acquire hudp, hparent, hid,
      Storage.get_acquire hudp⟩)
  | channelReady e u udpChannel htype hbind hudp hcore _ =>
    rw [hcore]
    exact .inr (.inr ⟨u, udpChannel, e, rfl, hbind, hbind, htype, hudp, Storage.get_set hudp _⟩)

/-- What completes a future keeps what it was acquired for. -/
theorem context_complete {χ ρ : Type*} (m : FuturePoolManager χ ρ) (f : ℕ) (y : Completion ρ)
    (i : ℕ) : ((m.complete f y).get i).map Future.context = (m.get i).map Future.context := by
  cases y with
  | pending => rfl
  | ready r =>
    cases hf : m.get f with
    | none =>
      rw [show m.complete f (.ready r) = m from FuturePoolManager.setReady_of_none hf r]
    | some future =>
      rw [show (m.complete f (.ready r)).get i = _ from FuturePoolManager.get_setReady hf r i]
      split
      · next hi => rw [hi, hf]; rfl
      · rfl

/-- The tables only depend on the pools and the managers. -/
theorem futureOf_congr (h : s'.clientConnectionPool = s.clientConnectionPool) (κ : FutureKind) :
    s'.futureOf κ = s.futureOf κ := by
  funext k
  simp only [futureOf, h]

theorem channelOf_congr (h : s'.clientConnectionPool = s.clientConnectionPool) :
    s'.channelOf = s.channelOf := by
  funext k
  simp only [channelOf, h]

/-- An act keeps connections and futures together. -/
theorem Paired.effect_futures {k : ℕ} (hs : Paired s)
    (hc : s.clientConnectionPool.get k = some c) (h : Effect S taken s c s' c') (κ : FutureKind) :
    Pairing ((s'.store c').futureOf κ) ((s'.store c').contextOf κ) := by
  have hid : c.connectionId = k := hs.connectionId k c hc
  have hc₁ : s'.clientConnectionPool.get k = some c := by rw [h.clientConnectionPool, hc]
  have hfut : s.futureOf κ k = c.futures κ := by simp [futureOf, hc]
  rw [futureOf_store hc₁ (h.connectionId.trans hid), futureOf_congr h.clientConnectionPool]
  rcases h.act.futures κ with ⟨hm, hf⟩ | ⟨f, m, y, hacquire, hnone, hf, hm, -, -⟩
  · have hctx : (s'.store c').contextOf κ = s.contextOf κ := by
      funext i
      exact congrArg (fun n => (n.get i).map Future.context) hm
    rw [show c'.futures κ = c.futures κ from hf, ← hfut, Function.update_eq_self, hctx]
    exact hs.futures κ
  · obtain ⟨hfree, -, -, hget⟩ := FuturePoolManager.acquireFuture_eq_some hacquire
    have hctx : (s'.store c').contextOf κ = Function.update (s.contextOf κ) f (some k) := by
      funext i
      change ((s'.futureManager κ).get i).map Future.context = _
      rw [show s'.futureManager κ = m.complete f y from hm, context_complete, hget]
      by_cases hi : i = f
      · subst hi; simp [hid]
      · simp [hi, contextOf]
    rw [show c'.futures κ = some f from hf, hctx]
    exact (hs.futures κ).insert (hfut.trans hnone) (by simp [contextOf, hfree])

/-- An act keeps connections and UDP channels together. -/
theorem Paired.effect_channels {k : ℕ} (hs : Paired s)
    (hc : s.clientConnectionPool.get k = some c) (h : Effect S taken s c s' c') :
    Pairing (s'.store c').channelOf (s'.store c').parentOf := by
  have hid : c.connectionId = k := hs.connectionId k c hc
  have hc₁ : s'.clientConnectionPool.get k = some c := by rw [h.clientConnectionPool, hc]
  have hch : s.channelOf k = c.bindUdpChannel := by simp [channelOf, hc]
  rw [channelOf_store hc₁ (h.connectionId.trans hid), channelOf_congr h.clientConnectionPool]
  rcases h.act.channels with ⟨hb, hg⟩ | ⟨u, udpChannel, hnone, hb, hfree, hparent, -, hg⟩ |
    ⟨u, udpChannel, e, -, hbind, hb, -, hu, hg⟩
  · have hpar : (s'.store c').parentOf = s.parentOf := by
      funext i
      exact congrArg (Option.map ClientUdpChannel.parentConnection) (hg i)
    rw [hpar, show c'.bindUdpChannel = c.bindUdpChannel from hb, ← hch, Function.update_eq_self]
    exact hs.channels
  · have hpar : (s'.store c').parentOf = Function.update s.parentOf u (some k) := by
      funext i
      change (s'.clientUdpChannelPool.get i).map ClientUdpChannel.parentConnection = _
      rw [show s'.clientUdpChannelPool.get i = _ from hg i]
      by_cases hi : i = u
      · subst hi; simp [hparent, hid]
      · simp [hi, parentOf]
    rw [hpar, show c'.bindUdpChannel = some u from hb]
    exact hs.channels.insert (hch.trans hnone) (by simp [parentOf, hfree])
  · have hpar : (s'.store c').parentOf = s.parentOf := by
      funext i
      change (s'.clientUdpChannelPool.get i).map ClientUdpChannel.parentConnection = _
      rw [show s'.clientUdpChannelPool.get i = _ from hg i]
      by_cases hi : i = u
      · subst hi; simp [parentOf, hu]
      · simp [hi, parentOf]
    rw [hpar, show c'.bindUdpChannel = some u from hb, ← hbind, ← hch, Function.update_eq_self]
    exact hs.channels

/-- The parent of a channel that is known to the connection `c`. -/
theorem Paired.parent {k u : ℕ} {udpChannel : ClientUdpChannel} (hs : Paired s)
    (hc : s.clientConnectionPool.get k = some c) (hb : c.bindUdpChannel = some u)
    (hu : s.clientUdpChannelPool.get u = some udpChannel) : udpChannel.parentConnection = k := by
  have hpar : s.parentOf u = some k := (hs.channels k u).1 (by simp [channelOf, hc, hb])
  simpa [parentOf, hu] using hpar

/-- The live parent of a live channel knows it. -/
theorem Paired.exists_parent {u : ℕ} {udpChannel : ClientUdpChannel} (hs : Paired s)
    (hu : s.clientUdpChannelPool.get u = some udpChannel) :
    ∃ c, s.clientConnectionPool.get udpChannel.parentConnection = some c ∧
      c.bindUdpChannel = some u := by
  have hch : s.channelOf udpChannel.parentConnection = some u :=
    (hs.channels _ u).2 (by simp [parentOf, hu])
  exact Option.bind_eq_some_iff.1 hch

/-- After an act, a channel with a relay side still belongs to a UDP association. -/
theorem Paired.effect_type {k u : ℕ} {udpChannel : ClientUdpChannel} {d : ClientConnection}
    (hs : Paired s) (hc : s.clientConnectionPool.get k = some c) (h : Effect S taken s c s' c')
    (hu : s'.clientUdpChannelPool.get u = some udpChannel)
    (hne : udpChannel.relaySideUdpChannelId ≠ 0)
    (hd : (s'.store c').clientConnectionPool.get udpChannel.parentConnection = some d) :
    d.type = .s5Udp := by
  have hid : c.connectionId = k := hs.connectionId k c hc
  have hc₁ : s'.clientConnectionPool.get k = some c := by rw [h.clientConnectionPool, hc]
  rw [get_store hc₁ (h.connectionId.trans hid), h.clientConnectionPool] at hd
  -- It is enough to look at the parent before the act.
  have hkeep (hold : ∀ e, s.clientConnectionPool.get udpChannel.parentConnection = some e →
      e.type = .s5Udp) : d.type = .s5Udp := by
    split at hd
    · next hk =>
      have htype := hold c (by rw [hk, hc])
      cases hd
      rcases h.type with ht | ht | ht
      · rw [htype] at ht; cases ht
      · rw [htype] at ht; cases ht
      · rw [ht, htype]
    · exact hold d hd
  refine hkeep fun e he => ?_
  rcases h.act.channels with ⟨-, hg⟩ | ⟨v, w, -, -, -, -, hzero, hg⟩ |
    ⟨v, w, r, -, hbind, -, htype, hv, hg⟩
  · exact hs.type u udpChannel e (by rw [← hg]; exact hu) hne he
  · rw [show s'.clientUdpChannelPool.get u = _ from hg u] at hu
    split at hu
    · cases hu; exact absurd hzero hne
    · exact hs.type u udpChannel e hu hne he
  · rw [show s'.clientUdpChannelPool.get u = _ from hg u] at hu
    split at hu
    · cases hu
      have hk : w.parentConnection = k := hs.parent hc hbind hv
      change s.clientConnectionPool.get w.parentConnection = some e at he
      rw [hk, hc] at he
      cases he
      exact htype
    · exact hs.type u udpChannel e hu hne he

/-- An act keeps connections, futures and UDP channels together. -/
theorem Paired.effect {k : ℕ} (hs : Paired s) (hc : s.clientConnectionPool.get k = some c)
    (h : Effect S taken s c s' c') : Paired (s'.store c') where
  connectionId j d hd := by
    have hc₁ : s'.clientConnectionPool.get k = some c := by rw [h.clientConnectionPool, hc]
    have hid' : c'.connectionId = k := h.connectionId.trans (hs.connectionId k c hc)
    rw [get_store hc₁ hid'] at hd
    split at hd
    · next hj => cases hd; rw [hj, hid']
    · rw [h.clientConnectionPool] at hd
      exact hs.connectionId j d hd
  futures := hs.effect_futures hc h
  channels := hs.effect_channels hc h
  type _ _ _ hu hne hd := hs.effect_type hc h hu hne hd

/-- Releasing the future that a connection carries keeps them together. -/
theorem Paired.finish {k f : ℕ} {κ : FutureKind} (hs : Paired s)
    (hc : s.clientConnectionPool.get k = some c) (hf : c.futures κ = some f) :
    Paired ((s.setFutureManager κ ((s.futureManager κ).releaseFuture f)).store
      (c.setFuture κ none)) := by
  have hid : (c.setFuture κ none).connectionId = k := hs.connectionId k c hc
  have hc₁ : (s.setFutureManager κ ((s.futureManager κ).releaseFuture
    f)).clientConnectionPool.get k = some c := hc
  refine ⟨fun j d hd => ?_, fun ι => ?_, ?_, fun u udpChannel d hu hne hd => ?_⟩
  · rw [get_store hc₁ hid] at hd
    split at hd
    · next hj => cases hd; rw [hj]; exact hid
    · exact hs.connectionId j d hd
  · rw [futureOf_store hc₁ hid]
    by_cases hι : ι = κ
    · subst hι
      have hctx : ((s.setFutureManager ι ((s.futureManager ι).releaseFuture f)).store
          (c.setFuture ι none)).contextOf ι = Function.update (s.contextOf ι) f none := by
        funext i
        by_cases hi : i = f
        · subst hi; simp [contextOf, store, setFutureManager]
        · simp [contextOf, store, setFutureManager, hi]
      rw [hctx]
      simp only [ClientConnection.setFuture, Function.update_self]
      exact (hs.futures ι).erase (by simp [futureOf, hc, hf])
    · have hctx : ((s.setFutureManager κ ((s.futureManager κ).releaseFuture f)).store
          (c.setFuture κ none)).contextOf ι = s.contextOf ι := by
        funext i
        simp [contextOf, store, setFutureManager, hι]
      have hfut : (c.setFuture κ none).futures ι = s.futureOf ι k := by
        simp [ClientConnection.setFuture, hι, futureOf, hc]
      rw [hctx, hfut, futureOf_congr (s := s) (by rfl), Function.update_eq_self]
      exact hs.futures ι
  · have hch : (c.setFuture κ none).bindUdpChannel = s.channelOf k := by
      simp [ClientConnection.setFuture, channelOf, hc]
    rw [channelOf_store hc₁ hid, hch, channelOf_congr (s := s) (by rfl), Function.update_eq_self]
    exact hs.channels
  · rw [get_store hc₁ hid] at hd
    split at hd
    · next hk =>
      cases hd
      exact hs.type u udpChannel c hu hne (by rw [hk]; exact hc)
    · exact hs.type u udpChannel d hu hne hd

end

end ProxyAccessService

end ProxyPlatform
