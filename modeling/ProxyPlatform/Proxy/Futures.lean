import ProxyPlatform.Proxy.Channels
import ProxyPlatform.Proxy.Ledger

/-!
# Futures and client connections

A connection and each of its futures designate each other in every state reached
(`FuturesPaired`), and so they do inside a tick, wherever a future is taken up
(`TakesUp`) or a connection is destroyed (`Destroys`): the calls that release a future
there find it, and what they assert holds (`ResultAsserted`).

There is one more call that releases a future: `OnS5Target`, which does so for a request to
connect to an address of an unknown type. No future was acquired for it, so that it follows a
null pointer (`onS5Target_eq_ok_iff`). `staysPaired_iff`: a run is free of it, and keeps
futures and connections paired, if and only if no such request is processed.

What the kernel answers to the bind of a UDP channel is assumed to be an address.
-/

namespace ProxyPlatform.ProxyAccessService

variable {σ : Type*} {S : Services σ} {P : Platform}

/-! ## What is asserted -/

/-- Futures and live connections designate each other. -/
structure FuturesPaired (s : ProxyAccessService σ) : Prop where
  /-- A pointer of a live connection leads to a live future of this connection. -/
  live : ∀ κ k c f, s.clientConnectionPool.get k = some c → c.futures κ = some f →
    ∃ future, (s.futureManager κ).get f = some future ∧ future.context = k
  /-- A live future is designated by exactly one live connection. -/
  designated : ∀ κ f future, (s.futureManager κ).get f = some future →
    ∃! k, ∃ c, s.clientConnectionPool.get k = some c ∧ c.futures κ = some f
  /-- No connection has two live futures of one kind. -/
  unique : ∀ κ f g x y, (s.futureManager κ).get f = some x → (s.futureManager κ).get g = some y →
    x.context = y.context → f = g

/-- What the handlers of the results assert of the future `f`, which they take up. -/
def ResultAsserted (κ : FutureKind) (s : ProxyAccessService σ) (f : ℕ) : Prop :=
  ∃ future c, (s.futureManager κ).get f = some future ∧
    s.clientConnectionPool.get future.context = some c ∧ c.futures κ = some f ∧
    (κ = .acquireDeviceUdpChannel → c.type = .s5Udp ∧ ∃ u udpChannel,
      c.bindUdpChannel = some u ∧ s.clientUdpChannelPool.get u = some udpChannel ∧
      udpChannel.bindAddress.isSet)

/-! ## Inside a tick -/

/-- The loop over the ready futures of the kind `κ` from `s` calls its handler on the future `f`,
    in the state `u`. -/
inductive ReadyLoop (κ : FutureKind)
    (onReady : ProxyAccessService σ → ℕ → Except Fault (ProxyAccessService σ)) :
    ProxyAccessService σ → ProxyAccessService σ → ℕ → Prop
  | here {s f m} (hpop : (s.futureManager κ).popHead = some (f, m)) :
      ReadyLoop κ onReady s (s.setFutureManager κ m) f
  | next {s f m t u g} (hpop : (s.futureManager κ).popHead = some (f, m))
      (ht : onReady (s.setFutureManager κ m) f = .ok t) (h : ReadyLoop κ onReady t u g) :
      ReadyLoop κ onReady s u g

/-- The loop over the kill list from `s` destroys the connection `c`, in the state `u`. -/
inductive KillLoop (S : Services σ) :
    ProxyAccessService σ → ProxyAccessService σ → ClientConnection → Prop
  | here {s k lists c} (hpop : s.timeoutLists.popHead .kill = some (k, lists))
      (hc : s.clientConnectionPool.get k = some c) :
      KillLoop S s { s with timeoutLists := lists } c
  | next {s k lists c t u d} (hpop : s.timeoutLists.popHead .kill = some (k, lists))
      (hc : s.clientConnectionPool.get k = some c)
      (ht : destroyConnection S { s with timeoutLists := lists } c = .ok t)
      (h : KillLoop S t u d) : KillLoop S s u d

/-- The handler of the results of each kind. -/
def onReady (S : Services σ) (P : Platform) :
    FutureKind → ProxyAccessService σ → ℕ → Except Fault (ProxyAccessService σ)
  | .auth => onAuthResult S P
  | .acquireDevice => onAcquireDeviceResult S P
  | .acquireDeviceConnection => onAcquireDeviceConnectionResult S P
  | .acquireDeviceUdpChannel => onAcquireDeviceUdpChannelResult P

/-- The loops of a tick before that of the kind `κ`. -/
def loopsBefore (S : Services σ) (P : Platform) (s : ProxyAccessService σ) :
    FutureKind → Except Fault (ProxyAccessService σ)
  | .auth => .ok s
  | .acquireDevice => processReady .auth (onAuthResult S P) s
  | .acquireDeviceConnection => do
    let s ← processReady .auth (onAuthResult S P) s
    processReady .acquireDevice (onAcquireDeviceResult S P) s
  | .acquireDeviceUdpChannel => do
    let s ← processReady .auth (onAuthResult S P) s
    let s ← processReady .acquireDevice (onAcquireDeviceResult S P) s
    processReady .acquireDeviceConnection (onAcquireDeviceConnectionResult S P) s

/-- A tick from `s` takes up the future `f` of the kind `κ`, in the state `u`. -/
def TakesUp (S : Services σ) (P : Platform) (s : ProxyAccessService σ) (nowMS : ℕ) (κ : FutureKind)
    (u : ProxyAccessService σ) (f : ℕ) : Prop :=
  ∃ t, loopsBefore S P { s with localTicker := nowMS } κ = .ok t ∧ ReadyLoop κ (onReady S P κ) t u f

/-- A tick from `s` destroys the connection `c`, in the state `u`. -/
def Destroys (S : Services σ) (P : Platform) (s : ProxyAccessService σ) (nowMS : ℕ)
    (u : ProxyAccessService σ) (c : ClientConnection) : Prop :=
  ∃ t, processResults S P { s with localTicker := nowMS } = .ok t ∧
    KillLoop S (deferKillTimeouts t) u c

section

variable {s t u s' : ProxyAccessService σ} {c c' : ClientConnection}

theorem Paired.futuresPaired (hs : Paired s) : FuturesPaired s where
  live κ k c f hc hf := by
    have hctx : s.contextOf κ f = some k := (hs.futures κ k f).1 (by simp [futureOf, hc, hf])
    exact Option.map_eq_some_iff.1 hctx
  designated κ f future hf := by
    have hfut : s.futureOf κ future.context = some f :=
      (hs.futures κ _ f).2 (by simp [contextOf, hf])
    refine ⟨future.context, Option.bind_eq_some_iff.1 hfut, ?_⟩
    rintro k ⟨c, hc, hcf⟩
    have hctx : s.contextOf κ f = some k := (hs.futures κ k f).1 (by simp [futureOf, hc, hcf])
    simpa [contextOf, hf, eq_comm] using hctx
  unique κ f g x y hf hg hxy := by
    have hx : s.futureOf κ x.context = some f := (hs.futures κ _ f).2 (by simp [contextOf, hf])
    have hy : s.futureOf κ y.context = some g := (hs.futures κ _ g).2 (by simp [contextOf, hg])
    rw [hxy, hy] at hx
    exact (Option.some.inj hx).symm

/-! ## UDP channels -/

/-- The UDP channels are bound to addresses. -/
def ChannelsBound (s : ProxyAccessService σ) : Prop :=
  ∀ u udpChannel, s.clientUdpChannelPool.get u = some udpChannel → udpChannel.bindAddress.isSet

/-- Who waits for a relayed UDP channel has bound one. -/
def WaitersBound (s : ProxyAccessService σ) : Prop :=
  ∀ k c f, s.clientConnectionPool.get k = some c → c.futures .acquireDeviceUdpChannel = some f →
    c.bindUdpChannel.isSome

/-- An act keeps a connection that waits for a relayed UDP channel bound. -/
theorem Act.bound {x : Core σ} {taken : Option ((κ : FutureKind) × Option κ.Result)}
    (h : Act S s c s' x taken)
    (hc : ∀ f, c.futures .acquireDeviceUdpChannel = some f → c.bindUdpChannel.isSome) (f : ℕ)
    (hf : x.futures .acquireDeviceUdpChannel = some f) : x.bindUdpChannel.isSome := by
  rcases h.channels with ⟨hb, -⟩ | ⟨u, _, -, hb, -⟩ | ⟨u, _, _, -, -, hb, -⟩
  · cases h with
    | associate u p udpChannel g m _ _ t y hudp hparent hid hbind hacquire hcreate hfuture hcore _ =>
      rw [hcore]; rfl
    | quiet _ hcore _ | grant _ _ hcore _ | unbound _ _ _ _ hcore _ | bind _ _ _ _ _ _ _ hcore _
    | establish _ _ _ hcore _ | establishNormal _ _ _ _ _ hcore _ | channelReady _ _ _ _ _ _ hcore _
    | forward _ _ hcore _ _ =>
      rw [hb]
      rw [hcore] at hf
      exact hc f hf
    | authenticate _ _ _ _ _ _ _ _ _ hcore _ | locate _ _ _ _ _ _ _ _ _ _ hcore _
    | connect _ _ _ _ _ _ _ _ _ _ _ _ hcore _ =>
      rw [hb]
      rw [hcore] at hf
      refine hc f ?_
      simpa [Core.request, core] using hf
  · rw [hb]; rfl
  · rw [hb]; rfl

theorem Turn.waitersBound {l : TurnLabel} (h : Turn S s l t) (hs : Sound s) (hw : WaitersBound s) :
    WaitersBound t := by
  have hkeep {k : ℕ} {c c' : ClientConnection} {s' : ProxyAccessService σ}
      (hpool : s'.clientConnectionPool = s.clientConnectionPool)
      (hc : s.clientConnectionPool.get k = some c) (hid : c'.connectionId = k)
      (hc' : ∀ f, c'.futures .acquireDeviceUdpChannel = some f → c'.bindUdpChannel.isSome) :
      WaitersBound (s'.store c') := by
    intro j d f hd hf
    rw [get_store_of_pool hpool hc hid] at hd
    split at hd
    · cases hd; exact hc' f hf
    · exact hw j d f hd hf
  cases h with
  | clock | forwardUdp | expire => exact hw
  | accept remoteAddress localAddress k p hacquire =>
    intro j d f hd hf
    change p.get j = some d at hd
    rw [Storage.get_acquire hacquire] at hd
    split at hd
    · cases hd; cases hf
    · exact hw j d f hd hf
  | refuse x k p hacquire =>
    intro j d f hd hf
    change (p.release k).get j = some d at hd
    rw [Storage.get_release, Storage.get_acquire hacquire] at hd
    split at hd
    · cases hd
    · exact hw j d f hd hf
  | call k c s' c' hc heffect hstage =>
    exact hkeep heffect.clientConnectionPool hc
      (heffect.connectionId.trans (hs.connectionId k c hc)) (heffect.act.bound (hw k c · hc))
  | result κ f m future c s' c' hpop hf hc hcf heffect hcf' hstage =>
    have hpool : (s'.setFutureManager κ
        ((s'.futureManager κ).releaseFuture f)).clientConnectionPool = s.clientConnectionPool :=
      heffect.clientConnectionPool
    refine hkeep hpool hc
      (heffect.connectionId.trans (hs.connectionId _ c hc)) fun g hg => ?_
    refine heffect.act.bound (hw _ c · hc) g ?_
    by_cases hκ : κ = .acquireDeviceUdpChannel
    · subst hκ
      simp [ClientConnection.setFuture] at hg
    · simpa [ClientConnection.setFuture, Ne.symm hκ, core] using hg
  | touch k c s' c' l hc hframe hcore =>
    simp only [core, Core.mk.injEq] at hcore
    obtain ⟨-, -, -, hfut, -, -, hbind⟩ := hcore
    refine hkeep hframe.clientConnectionPool hc
      (hframe.connectionId.trans (hs.connectionId k c hc)) fun f hf => ?_
    rw [hbind]
    exact hw k c f hc (by rwa [← hfut])
  | peerClose k c s' c' hc hmark h =>
    obtain ⟨u, l, heq, -⟩ := onPeerClose_eq_ok hmark h
    cases heq
    exact hkeep rfl hc (hs.connectionId k c hc) (hw k c · hc)
  | flush k c hc =>
    rcases onFlush_eq s c with ⟨-, heq⟩ | ⟨-, heq⟩
    all_goals
      rw [heq]
      exact hkeep rfl hc (hs.connectionId k c hc) (hw k c · hc)
  | close k c hc =>
    rcases closeConnection_eq s c with ⟨-, heq⟩ | ⟨-, -, heq⟩ | ⟨-, -, heq⟩
    all_goals
      rw [heq]
      exact hkeep rfl hc (hs.connectionId k c hc) (hw k c · hc)
  | ready κ f r =>
    have hpool : (s.setReady κ f r).clientConnectionPool = s.clientConnectionPool := by
      unfold setReady
      split
      · rfl
      · split <;> rfl
    intro j d g hd
    rw [hpool] at hd
    exact hw j d g hd
  | destroy k lists c t hpop hc hready h =>
    intro j d f hd
    rw [(destroyConnection_eq_ok h).1, Storage.get_release] at hd
    split at hd
    · cases hd
    · exact hw j d f hd

/-- What is asked of the kernel: a UDP channel that is bound to an ip gets an address. -/
def BindsAddresses (P : Platform) : Prop :=
  ∀ n a b, a.isSet → P.bindUdp n a = some b → b.isSet

theorem Keeps.channelsBound (h : Keeps s t) (hb : ChannelsBound s) : ChannelsBound t := by
  intro i y hy
  obtain ⟨x, hx, hyx⟩ := h i y hy
  rw [hyx.bindAddress]
  exact hb i x hx

/-- A step binds UDP channels to addresses only. -/
theorem step_channelsBound {e : ProxyEvent} (hP : BindsAddresses P) (hs : Sound s)
    (hb : ChannelsBound s) (h : step S P s e = .ok t) : ChannelsBound t := by
  intro i y hy
  rcases step_comes hs h i y hy with ⟨x, hx, hyx⟩ | ⟨c, -, hnew⟩
  · rw [hyx.bindAddress]
    exact hb i x hx
  · obtain ⟨n, a, ha, hbind⟩ := hnew.bindAddress
    exact hP n a y.bindAddress ha hbind

/-! ## Inside a tick, from a state in which everything is tied up -/

/-- Connections, futures and UDP channels are tied up. -/
structure Tied (s : ProxyAccessService σ) : Prop extends Sound s where
  waiters : WaitersBound s
  channelsBound : ChannelsBound s

theorem tied_init (services : σ) : Tied (init services) where
  toSound := sound_init services
  waiters _ _ _ h := by cases h
  channelsBound _ _ h := by cases h

theorem step_tied (hP : BindsAddresses P) (s : ProxyAccessService σ) (e : ProxyEvent)
    (t : ProxyAccessService σ) (hs : Tied s) (h : step S P s e = .ok t) : Tied t where
  toSound := step_sound s e t hs.toSound h
  waiters := (step_turns hs.toSound h).invariant
    (fun _ _ _ _ hs hw hturn => hturn.waitersBound hs hw) hs.toSound hs.waiters
  channelsBound := step_channelsBound hP hs.toSound hs.channelsBound h

variable {nowMS : ℕ} {κ : FutureKind} {f : ℕ} {m : FuturePoolManager ℕ κ.Result}

/-- The turns of a tick keep everything tied up. -/
theorem Turns.tied (h : Turns S (ProxyEvent.tick nowMS).Allows s t) (hs : Tied s) : Tied t where
  toSound := h.sound hs.toSound
  waiters := h.invariant (fun _ _ _ _ hs hw hturn => hturn.waitersBound hs hw) hs.toSound hs.waiters
  channelsBound := (h.keeps hs.toSound).channelsBound hs.channelsBound

theorem onReady_spec (κ : FutureKind) : ∃ handle, onReady S P κ = onResult κ handle ∧
    Handles S κ handle ∧ Answers κ handle := by
  cases κ with
  | auth => exact onAuthResult_spec
  | acquireDevice => exact onAcquireDeviceResult_spec
  | acquireDeviceConnection => exact onAcquireDeviceConnectionResult_spec
  | acquireDeviceUdpChannel => exact onAcquireDeviceUdpChannelResult_spec

/-- The future at the head of the ready list is that of a live connection. -/
theorem Sound.exists_waiter (hs : Sound s) (hpop : (s.futureManager κ).popHead = some (f, m)) :
    ∃ future c, (s.futureManager κ).get f = some future ∧
      s.clientConnectionPool.get future.context = some c ∧ c.futures κ = some f := by
  obtain ⟨future, hf, -⟩ := (s.futureManager κ).ready_live f (popHead_eq_some hpop).2.1
  have hfut : s.futureOf κ future.context = some f :=
    (hs.futures κ _ f).2 (by rw [contextOf, show (s.futureManager κ).get f = _ from hf]; rfl)
  obtain ⟨c, hc, hcf⟩ := Option.bind_eq_some_iff.1 hfut
  exact ⟨future, c, hf, hc, hcf⟩

/-- Who waits for a relayed UDP channel is a UDP association, with a channel that is bound. -/
theorem Tied.association {k : ℕ} (hs : Tied s) (hc : s.clientConnectionPool.get k = some c)
    (hf : c.futures .acquireDeviceUdpChannel = some f) :
    c.type = .s5Udp ∧ ∃ u udpChannel, c.bindUdpChannel = some u ∧
      s.clientUdpChannelPool.get u = some udpChannel ∧ udpChannel.bindAddress.isSet := by
  obtain ⟨g, hg⟩ := hs.stage k c hc
  obtain rfl : g = .associating := by
    have h := hg.awaits_of_futures hf
    cases g <;> simp [Stage.awaits] at h ⊢
  obtain ⟨u, hu⟩ := Option.isSome_iff_exists.1 (hs.waiters k c f hc hf)
  have hpar : s.parentOf u = some k := (hs.channels k u).1 (by simp [channelOf, hc, hu])
  obtain ⟨x, hx, -⟩ := Option.map_eq_some_iff.1 hpar
  exact ⟨hg.shape.1, u, x, hu, hx, hs.channelsBound u x hx⟩

theorem Tied.resultAsserted (hs : Tied s) (hpop : (s.futureManager κ).popHead = some (f, m)) :
    ResultAsserted κ (s.setFutureManager κ m) f := by
  obtain ⟨future, c, hf, hc, hcf⟩ := hs.exists_waiter hpop
  refine ⟨future, c, ?_, hc, hcf, fun hκ => ?_⟩
  · simpa [setFutureManager, (popHead_eq_some hpop).1] using hf
  · subst hκ
    exact hs.association hc hcf

/-- The handler of the future at the head of the ready list takes it up and releases it. -/
theorem Tied.onReady_ok (hs : Tied s) (hpop : (s.futureManager κ).popHead = some (f, m)) :
    ∃ v, onReady S P κ (s.setFutureManager κ m) f = .ok v ∧
      (v.futureManager κ).get f = none ∧ Tied v := by
  obtain ⟨handle, heq, hhandles, hanswers⟩ := onReady_spec (S := S) (P := P) κ
  obtain ⟨future, c, hf, hc, hcf⟩ := hs.exists_waiter hpop
  obtain ⟨⟨s', c'⟩, hp⟩ := hanswers (s.setFutureManager κ m) c future.result fun hκ => by
    subst hκ
    obtain ⟨-, u, x, hu, hx, -⟩ := hs.association hc hcf
    exact ⟨u, x, hu, hx⟩
  obtain ⟨g, hg⟩ := hs.stage _ c hc
  obtain ⟨heffect, -⟩ := hhandles _ c _ s' c' g hg (hg.awaits_of_futures hcf) hp
  have hcf' : c'.futures κ = some f := by
    rcases heffect.act.futures κ with ⟨-, hkeep⟩ | ⟨_, _, _, _, hnone, -⟩
    · exact Eq.trans hkeep hcf
    · rw [hcf] at hnone; cases hnone
  have hv : onReady S P κ (s.setFutureManager κ m) f =
      .ok ((s'.setFutureManager κ ((s'.futureManager κ).releaseFuture f)).store
        (c'.setFuture κ none)) := by
    have hm : ((s.setFutureManager κ m).futureManager κ).get f = some future := by
      simpa [setFutureManager, (popHead_eq_some hpop).1] using hf
    rw [heq, onResult, hm]
    dsimp only
    rw [show (s.setFutureManager κ m).clientConnectionPool.get future.context = some c from hc]
    simp only [hp, hcf']
  refine ⟨_, hv, by simp [store, setFutureManager], ?_⟩
  rw [heq] at hv
  have hturn := (onResult_turn hs.toSound hpop hhandles hv).1
  have hturns : Turns S (ProxyEvent.tick 0).Allows s _ := .single (.inr (.inl ⟨κ, rfl⟩)) hturn
  exact hturns.tied hs

/-- The future that a loop takes up is at the head of the ready list. -/
theorem ReadyLoop.exists_pop (h : ReadyLoop κ (onReady S P κ) s u f) (hs : Tied s) :
    ∃ t m, Tied t ∧ (t.futureManager κ).popHead = some (f, m) ∧ u = t.setFutureManager κ m := by
  induction h with
  | @here s f m hpop => exact ⟨s, m, hs, hpop, rfl⟩
  | next hpop ht _ ih =>
    obtain ⟨v, hv, -, htied⟩ := hs.onReady_ok hpop
    rw [hv] at ht
    cases ht
    exact ih htied

/-- A loop over the ready futures of a kind keeps everything tied up. -/
theorem Tied.processReady (hs : Tied s) (h : processReady κ (onReady S P κ) s = .ok t) : Tied t := by
  have hturns : Turns S (ProxyEvent.tick 0).Allows s t :=
    (processReadyFutures_turns (onReady_spec κ) _ hs.toSound h).1.mono fun _ h => .inr (.inl h)
  exact hturns.tied hs

theorem Tied.loopsBefore (hs : Tied s) (h : loopsBefore S P s κ = .ok t) : Tied t := by
  cases κ with
  | auth => cases h; exact hs
  | acquireDevice => exact hs.processReady (S := S) (P := P) h
  | acquireDeviceConnection =>
    obtain ⟨s₁, h₁, h₂⟩ := bind_eq_ok.1 h
    have hs₁ : Tied s₁ := hs.processReady (S := S) (P := P) h₁
    exact hs₁.processReady (S := S) (P := P) h₂
  | acquireDeviceUdpChannel =>
    obtain ⟨s₁, h₁, h⟩ := bind_eq_ok.1 h
    obtain ⟨s₂, h₂, h₃⟩ := bind_eq_ok.1 h
    have hs₁ : Tied s₁ := hs.processReady (S := S) (P := P) h₁
    have hs₂ : Tied s₂ := hs₁.processReady (S := S) (P := P) h₂
    exact hs₂.processReady (S := S) (P := P) h₃

/-- What a loop over the kill list destroys is there, with its futures. -/
theorem KillLoop.paired (h : KillLoop S s u c) (hs : Sound s) :
    Paired u ∧ u.clientConnectionPool.get c.connectionId = some c := by
  induction h with
  | @here s k lists c hpop hc =>
    refine ⟨hs.toPaired.congr (fun _ => rfl) (fun _ => rfl) fun _ => rfl, ?_⟩
    rw [hs.connectionId k c hc]
    exact hc
  | next hpop hc ht _ ih => exact ih (hs.destroy hc ht)

/-! ## The request that releases no future -/

/-- A SOCKS5 request for a TCP connection whose type of address is none of the three. -/
def UnknownAddressType (data : Bytes) : Prop :=
  10 ≤ data.length ∧ data.length < 6 + 256 ∧ data.getD 0 0 = 5 ∧ data.getD 1 0 = 1 ∧
    data.getD 2 0 = 0 ∧ data.getD 3 0 ≠ 1 ∧ data.getD 3 0 ≠ 3 ∧ data.getD 3 0 ≠ 4

instance (data : Bytes) : Decidable (UnknownAddressType data) := inferInstanceAs (Decidable (_ ∧ _))

/-- No such request is processed. -/
def TypeKnown (s : ProxyAccessService σ) : ProxyEvent → Prop
  | .onData k data => ∀ c ∈ s.clientConnectionPool.get k,
    c.dataProcessor = .onS5Target → ¬UnknownAddressType data
  | _ => True

/-- What `readS5Target` reads from a long enough request: a target, unless bytes are missing or
    the type is unknown. -/
theorem readS5Target_eq_none_target {data : Bytes} {offset : ℕ} :
    readS5Target data = some (none, offset) ↔
      offset = 4 ∧ data.getD 3 0 ≠ 1 ∧ data.getD 3 0 ≠ 3 ∧ data.getD 3 0 ≠ 4 := by
  unfold readS5Target
  dsimp only
  generalize data.getD 3 0 = addrType
  split
  · next h => simp [h]
  split
  · next h => split <;> simp [h]
  split
  · next h => split <;> simp [h]
  · next h₁ h₄ h₃ => simp [h₁, h₃, h₄, eq_comm]

/-- A request on a connection without a future for a relay connection is processed, unless it
    has to release that future. -/
theorem onS5Target_eq_ok_iff {data : Bytes} (hc : c.futures .acquireDeviceConnection = none) :
    (∃ r, onS5Target S P s c data = .ok r) ↔ ¬UnknownAddressType data := by
  unfold onS5Target UnknownAddressType
  dsimp only
  split
  · next h => exact iff_of_true ⟨_, rfl⟩ fun hu => absurd hu.1 (not_le.2 h)
  split
  · next h => exact iff_of_true ⟨_, rfl⟩ fun hu => absurd hu.2.1 (not_lt.2 h)
  split
  · next h =>
    refine iff_of_true ⟨_, rfl⟩ fun ⟨_, _, h₀, _, h₂, _⟩ => ?_
    rcases h with h | h
    · exact h h₀
    · exact h h₂
  next hmin hmax hhead =>
  rw [not_or, not_not, not_not] at hhead
  cases hr : readS5Target data with
  | none =>
    refine iff_of_true ⟨_, rfl⟩ fun ⟨_, _, _, _, _, h⟩ => ?_
    rw [readS5Target_eq_none_target.2 ⟨rfl, h⟩] at hr
    cases hr
  | some p =>
    obtain ⟨target, offset⟩ := p
    dsimp only
    split
    · next hcmd =>
      cases target with
      | none =>
        rw [readS5Target_eq_none_target] at hr
        simp only [hc]
        refine iff_of_false (fun ⟨_, h⟩ => by cases h) (not_not.2 ?_)
        exact ⟨not_lt.1 hmin, not_le.1 hmax, hhead.1, hcmd, hhead.2, hr.2⟩
      | some target =>
        refine iff_of_true ?_ fun ⟨_, _, _, _, _, h⟩ => ?_
        · dsimp only
          split <;> exact ⟨_, rfl⟩
        · rw [readS5Target_eq_none_target.2 ⟨rfl, h⟩] at hr
          cases hr
    · next hcmd =>
      refine iff_of_true ?_ fun h => hcmd h.2.2.2.1
      split <;> exact ⟨_, rfl⟩

/-- The events `es` keep futures and connections paired, and every call on the way that releases a
    future finds it. -/
structure StaysPaired (S : Services σ) (P : Platform) (services : σ) (es : List ProxyEvent) :
    Prop where
  paired : ∀ s, Visits (step S P) (init services) es s → FuturesPaired s
  target : ∀ pre k data s c, pre ++ [.onData k data] <+: es →
    exec (step S P) (init services) pre = .ok s → s.clientConnectionPool.get k = some c →
    c.dataProcessor = .onS5Target → ∃ r, onS5Target S P s c data = .ok r
  result : ∀ pre nowMS s κ u f, pre ++ [.tick nowMS] <+: es →
    exec (step S P) (init services) pre = .ok s → TakesUp S P s nowMS κ u f →
    FuturesPaired u ∧ ResultAsserted κ u f ∧
      ∃ v, onReady S P κ u f = .ok v ∧ (v.futureManager κ).get f = none
  destroy : ∀ pre nowMS s u c, pre ++ [.tick nowMS] <+: es →
    exec (step S P) (init services) pre = .ok s → Destroys S P s nowMS u c →
    FuturesPaired u ∧ u.clientConnectionPool.get c.connectionId = some c

theorem tied_of_exec {services : σ} {es : List ProxyEvent} (hP : BindsAddresses P)
    (h : exec (step S P) (init services) es = .ok s) : Tied s :=
  exec_invariant (step_tied hP) (tied_init services) h

/-- The clock going on leaves everything tied up. -/
theorem Tied.clock (hs : Tied s) (nowMS : ℕ) : Tied { s with localTicker := nowMS } where
  toSound := hs.toSound.congr (fun _ => rfl) rfl fun _ => rfl
  waiters := hs.waiters
  channelsBound := hs.channelsBound

theorem TakesUp.asserted (h : TakesUp S P s nowMS κ u f) (hs : Tied s) :
    FuturesPaired u ∧ ResultAsserted κ u f ∧
      ∃ v, onReady S P κ u f = .ok v ∧ (v.futureManager κ).get f = none := by
  obtain ⟨t, ht, hloop⟩ := h
  obtain ⟨w, m, hw, hpop, rfl⟩ := hloop.exists_pop ((hs.clock nowMS).loopsBefore ht)
  obtain ⟨v, hv, hf, -⟩ := hw.onReady_ok (S := S) (P := P) hpop
  exact ⟨(hw.toPaired.popHead hpop).futuresPaired, hw.resultAsserted hpop, v, hv, hf⟩

theorem Destroys.asserted (h : Destroys S P s nowMS u c) (hs : Tied s) :
    FuturesPaired u ∧ u.clientConnectionPool.get c.connectionId = some c := by
  obtain ⟨t, ht, hloop⟩ := h
  have hturns : Turns S (ProxyEvent.tick nowMS).Allows { s with localTicker := nowMS }
      (deferKillTimeouts t) :=
    ((processResults_turns (hs.clock nowMS).toSound ht).1.mono fun _ h => .inr (.inl h)).trans
      ((deferKillTimeouts_turns t).mono fun _ h => h.imp_right fun h => .inr (.inl h))
  obtain ⟨hu, hc⟩ := hloop.paired (hturns.sound (hs.clock nowMS).toSound)
  exact ⟨hu.futuresPaired, hc⟩

/-- A connection that waits for a request has no future. -/
theorem Sound.futures_of_onS5Target {k : ℕ} (hs : Sound s)
    (hc : s.clientConnectionPool.get k = some c) (hp : c.dataProcessor = .onS5Target)
    (κ : FutureKind) : c.futures κ = none := by
  obtain ⟨g, hg⟩ := hs.stage k c hc
  obtain rfl : g = .choosing := by
    have hshape := hg.shape
    cases g <;> simp [Stage.Shape, hp] at hshape ⊢
  exact hg.futures_eq_none (by simp [Stage.awaits])

/-- Futures and connections stay paired, and no future is released that is not there, if and only
    if no request to connect to an address of an unknown type is processed. -/
theorem staysPaired_iff (hP : BindsAddresses P) (services : σ) (es : List ProxyEvent) :
    StaysPaired S P services es ↔ Along (step S P) TypeKnown (init services) es := by
  constructor
  · intro h
    refine along_iff.2 fun pre e s hpre hs => ?_
    cases e with
    | onData k data =>
      intro c hc hp
      rw [← onS5Target_eq_ok_iff ((sound_of_exec hs).futures_of_onS5Target hc hp _)]
      exact h.target pre k data s c hpre hs hc hp
    | _ => trivial
  · intro h
    refine ⟨fun s hs => ?_, fun pre k data s c hpre hs hc hp => ?_,
      fun pre nowMS s κ u f _ hs htakes => htakes.asserted (tied_of_exec hP hs),
      fun pre nowMS s u c _ hs hdestroys => hdestroys.asserted (tied_of_exec hP hs)⟩
    · obtain ⟨pre, -, hs⟩ := hs
      exact (sound_of_exec hs).toPaired.futuresPaired
    · rw [onS5Target_eq_ok_iff ((sound_of_exec hs).futures_of_onS5Target hc hp _)]
      exact along_iff.1 h pre _ s hpre hs c hc hp

/-- Services that grant every request, and locate a device for it. -/
def locatingServices : Services Unit where
  __ := grantingServices
  acquireDevice _ _ _ := ((), .ready (some { relayServerId := 1, relaySideDeviceId := 1 }))

theorem bindsAddresses_localPlatform : BindsAddresses localPlatform := by
  intro n a b ha hb
  cases hb
  exact ha

/-- A client that is authenticated by its ip, and asks to connect to an address of the type
    `addrType`. -/
def connectingClient (addrType : UInt8) : List ProxyEvent :=
  [.tick 200000, .onNewConnection localAddress localAddress true, .onData 1 [5, 1, 0],
    .tick 200001, .onData 1 [5, 1, 0, addrType, 127, 0, 0, 1, 0, 80], .tick 200002]

instance (s : ProxyAccessService σ) (e : ProxyEvent) : Decidable (TypeKnown s e) := by
  cases e <;> unfold TypeKnown <;> infer_instance

theorem staysPaired_sample : StaysPaired locatingServices localPlatform () (connectingClient 1) :=
  (staysPaired_iff bindsAddresses_localPlatform () _).2 (along_of_check (by decide +kernel))

/-- The request releases a future that is not there. -/
theorem staysPaired_counterexample :
    ¬StaysPaired locatingServices localPlatform () (connectingClient 2) := by
  intro h
  obtain ⟨s, hs, hp⟩ := exists_ok_of_check
    (x := exec (step locatingServices localPlatform) (init ()) ((connectingClient 2).take 4))
    (p := fun s => (s.clientConnectionPool.get 1).map (fun c => c.dataProcessor) =
      some .onS5Target) (by decide +kernel)
  obtain ⟨c, hc, hproc⟩ := Option.map_eq_some_iff.1 (of_decide_eq_true hp)
  have hok := h.target _ 1 [5, 1, 0, 2, 127, 0, 0, 1, 0, 80] s c
    ⟨[.tick 200002], rfl⟩ hs hc hproc
  rw [onS5Target_eq_ok_iff ((sound_of_exec hs).futures_of_onS5Target hc hproc _)] at hok
  exact hok (by decide)

end

end ProxyPlatform.ProxyAccessService
