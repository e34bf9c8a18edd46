import ProxyPlatform.Proxy.Service

/-!
# The stages of a handshake

A client connection goes through the stages below (`Stage`). The stage says which data
processor it has, which future it waits for, and what it holds (`AtStage`): at most one
future at any time, a relay connection in a `tunnel` only, nothing before it is
authenticated.

* SOCKS5: `greeting`, `authenticating`, `locating`, `choosing`, then `connecting` and
  `tunnel`, or `associating` and `associated`;
* HTTP: `greeting`, `authenticating`, `locating`, `connecting`, `tunnel`;
* a request refused leads to `stopped`, or leaves the connection where it is.

What a call on a connection does is an `Effect`: what it leaves alone (`Frame`), and one of
the acts of `Act`. The acts are stated on the part of the service and of the connection
that they reach (`Core`).
-/

namespace ProxyPlatform

/-! ## Stages -/

/-- The stages of a handshake. -/
inductive Stage
  | greeting
  | authenticating
  | locating
  | choosing
  | connecting
  | tunnel
  | associating
  | associated
  | stopped
  deriving DecidableEq

namespace Stage

/-- The future a connection waits for. -/
def awaits : Stage → Option FutureKind
  | authenticating => some .auth
  | locating => some .acquireDevice
  | connecting => some .acquireDeviceConnection
  | associating => some .acquireDeviceUdpChannel
  | greeting | choosing | tunnel | associated | stopped => none

/-- The type and the data processor of a connection. -/
def Shape : Stage → ConnectionType → TcpDataProcessor → Prop
  | greeting, t, p => t = .undetermined ∧ p = .onGuessProxyType ∨
    t = .s5Challenge ∧ p = .onS5AuthInfo ∨ t = .httpRaw ∧ p = .onHttpRawHeaderProcessor ∨
    t = .httpNormal ∧ p = .onHttpNormalHeaderProcessor
  | authenticating, t, p | locating, t, p => t = .s5Challenge ∧ p = .killConnectionOnData ∨
    t = .httpRaw ∧ p = .killConnectionOnData ∨ t = .httpNormal ∧ p = .onHttpBody
  | choosing, t, p => t = .s5Challenge ∧ p = .onS5Target
  | connecting, t, p => t = .s5Tcp ∧ p = .killConnectionOnData ∨
    t = .httpRaw ∧ p = .killConnectionOnData ∨ t = .httpNormal ∧ p = .onHttpBody
  | tunnel, t, p => t = .s5Tcp ∧ p = .onRawData ∨ t = .httpRaw ∧ p = .onRawData ∨
    t = .httpNormal ∧ p = .onHttpBody
  | associating, t, p | associated, t, p => t = .s5Udp ∧ p = .killConnectionOnData
  | stopped, _, p => p = .killConnectionOnData ∨ p = .onHttpBody

end Stage

/-- The connection `c` is at the stage `g`. -/
structure AtStage (c : ClientConnection) (g : Stage) : Prop where
  shape : g.Shape c.type c.dataProcessor
  awaits : ∀ κ, (c.futures κ).isSome ↔ g.awaits = some κ
  localAuthId : g = .greeting ∨ g = .authenticating → c.localAuthId = 0
  relaySideConnectionId : g ≠ .tunnel → c.relaySideConnectionId = 0
  bindUdpChannel : c.bindUdpChannel.isSome → g = .associating ∨ g = .associated ∨ g = .stopped

namespace AtStage

variable {c : ClientConnection} {g : Stage} {κ : FutureKind}

/-- A connection has no other future than the one it waits for. -/
theorem futures_eq_none (h : AtStage c g) (hκ : g.awaits ≠ some κ) : c.futures κ = none := by
  rw [← Option.not_isSome_iff_eq_none, h.awaits]
  exact hκ

theorem awaits_of_futures (h : AtStage c g) {f : ℕ} (hf : c.futures κ = some f) :
    g.awaits = some κ :=
  (h.awaits κ).1 (by rw [hf]; rfl)

theorem bindUdpChannel_eq_none (h : AtStage c g)
    (hg : g ≠ .associating ∧ g ≠ .associated ∧ g ≠ .stopped) : c.bindUdpChannel = none := by
  rw [← Option.not_isSome_iff_eq_none]
  intro hb
  rcases h.bindUdpChannel hb with rfl | rfl | rfl <;> simp at hg

end AtStage

namespace ClientConnection

variable {c : ClientConnection} {κ : FutureKind}

theorem setFuture_of_none (h : c.futures κ = none) : c.setFuture κ none = c := by
  have h : Function.update c.futures κ none = c.futures := Function.update_eq_self_iff.2 h.symm
  simp only [setFuture, h]

/-- A connection without a future that gets one waits for it. -/
theorem isSome_setFuture {f : ℕ} (h : ∀ κ, c.futures κ = none) (ι : FutureKind) :
    ((c.setFuture κ (some f)).futures ι).isSome ↔ some κ = some ι := by
  by_cases hι : ι = κ
  · subst hι; simp [setFuture]
  · simp [setFuture, hι, h ι, Ne.symm hι]

end ClientConnection

/-! ## Effects -/

/-- A call that only concerns the client or the target reports, or that asks the relay for
    something. -/
def ProxyCall.IsTalk : ProxyCall → Prop
  | .post _ origin _ => origin = .reply
  | .reportTarget .. | .createConnection .. | .createUdpChannel .. => True
  | _ => False

/-- What the acts on a connection reach, of the service and of the connection. -/
structure Core (σ : Type*) where
  services : σ
  futureManager : (κ : FutureKind) → FuturePoolManager ℕ κ.Result
  clientUdpChannelPool : Storage ClientUdpChannel
  futures : FutureKind → Option ℕ
  localAuthId : ℕ
  relaySideConnectionId : ℕ
  bindUdpChannel : Option ℕ

namespace Core

variable {σ : Type*}

/-- A request to a service, which leaves `t`: the future `f` in the manager `m`. -/
def request (x : Core σ) (κ : FutureKind) (f : ℕ) (m : FuturePoolManager ℕ κ.Result) (t : σ) :
    Core σ :=
  { x with
    services := t
    futureManager := Function.update x.futureManager κ m
    futures := Function.update x.futures κ (some f) }

end Core

namespace ProxyAccessService

variable {σ : Type*}

def core (s : ProxyAccessService σ) (c : ClientConnection) : Core σ where
  services := s.services
  futureManager := s.futureManager
  clientUdpChannelPool := s.clientUdpChannelPool
  futures := c.futures
  localAuthId := c.localAuthId
  relaySideConnectionId := c.relaySideConnectionId
  bindUdpChannel := c.bindUdpChannel

/-- What no call on a connection changes. -/
structure Frame (s : ProxyAccessService σ) (c : ClientConnection) (s' : ProxyAccessService σ)
    (c' : ClientConnection) : Prop where
  clientConnectionPool : s'.clientConnectionPool = s.clientConnectionPool
  localTicker : s'.localTicker = s.localTicker
  destroyed : s'.destroyed = s.destroyed
  connectionId : c'.connectionId = c.connectionId
  remoteAddress : c'.remoteAddress = c.remoteAddress
  deleteMark : c'.deleteMark = c.deleteMark
  hasPendingWrites : c.hasPendingWrites → c'.hasPendingWrites
  /-- Once it is known what a connection is for, it stays so. -/
  type : c.type = .undetermined ∨ c.type = .s5Challenge ∨ c'.type = c.type
  /-- The connection stays where it is linked, or is kept alive. -/
  timeoutLists : s'.timeoutLists = s.timeoutLists ∧ c'.timestampMS = c.timestampMS ∨
    c.deleteMark = false ∧
      s'.timeoutLists = s.timeoutLists.grabTail .idleTimeout c.connectionId ∧
      c'.timestampMS = s.localTicker

/-- The calls in between only talk. -/
def Talk (s s' : ProxyAccessService σ) : Prop :=
  ∃ l, s'.calls = s.calls ++ l ∧ ∀ x ∈ l, x.IsTalk

/-- What a call does in addition, leading to the core `x`, and the result of a future that it
    takes, if any. -/
inductive Act (S : Services σ) (s : ProxyAccessService σ) (c : ClientConnection)
    (s' : ProxyAccessService σ) (x : Core σ) :
    Option ((κ : FutureKind) × Option κ.Result) → Prop
  /-- It talks to the client. -/
  | quiet {taken}
      (htaken : ∀ κ r, taken = some ⟨κ, some r⟩ → κ = .acquireDevice)
      (hcore : x = core s c) (htalk : Talk s s') : Act S s c s' x taken
  | authenticate (f m key t r)
      (hacquire : (s.futureManager .auth).acquireFuture c.connectionId = some (f, m))
      (hauth : S.acquireAuthInfo s.services key = .ok (t, r))
      (hfuture : c.futures .auth = none) (hid : c.localAuthId = 0)
      (hcore : x = (core s c).request .auth f (m.setReady f r) t)
      (hcalls : s'.calls = s.calls ++ [.acquireAuthInfo c.connectionId c.remoteAddress key r]) :
      Act S s c s' x none
  /-- It takes up a grant, and has no future to ask for a device. -/
  | grant (r : AuthResult) (hid : c.localAuthId = 0)
      (hcore : x = { core s c with localAuthId := r.localAuthId })
      (htalk : Talk s s') :
      Act S s c s' x (some ⟨.auth, some r⟩)
  /-- It takes up a grant and asks for a device. -/
  | locate (r : AuthResult) (f m request t y)
      (hacquire : (s.futureManager .acquireDevice).acquireFuture c.connectionId = some (f, m))
      (hdevice : S.acquireDevice s.services request f = (t, y))
      (hfuture : c.futures .acquireDevice = none) (hid : c.localAuthId = 0)
      (hcore : x = { (core s c).request .acquireDevice f (m.complete f y) t with
        localAuthId := r.localAuthId })
      (hcalls : s'.calls = s.calls) : Act S s c s' x (some ⟨.auth, some r⟩)
  /-- It asks for a relay connection. -/
  | connect {taken} (f m relayServerId deviceId target t y)
      (htaken : taken = none ∨ ∃ d, taken = some ⟨.acquireDevice, some d⟩)
      (hacquire :
        (s.futureManager .acquireDeviceConnection).acquireFuture c.connectionId = some (f, m))
      (hcreate : S.createConnection s.services relayServerId deviceId c.connectionId target f =
        (t, y))
      (hfuture : c.futures .acquireDeviceConnection = none)
      (hrelay : c.relaySideConnectionId = 0)
      (hcore : x = (core s c).request .acquireDeviceConnection f (m.complete f y) t)
      (htalk : Talk s s') : Act S s c s' x taken
  /-- Its UDP channel cannot be bound. -/
  | unbound (u p udpChannel)
      (hacquire : s.clientUdpChannelPool.acquire (fun _ => udpChannel) = some (u, p))
      (hcore : x = { core s c with clientUdpChannelPool := p.release u })
      (htalk : Talk s s') : Act S s c s' x none
  /-- It binds a UDP channel, and has no future to ask the relay for one. -/
  | bind (u p udpChannel)
      (hacquire : s.clientUdpChannelPool.acquire (fun _ => udpChannel) = some (u, p))
      (hparent : udpChannel.parentConnection = c.connectionId)
      (hid : udpChannel.relaySideUdpChannelId = 0) (hbind : c.bindUdpChannel = none)
      (hcore : x = { core s c with clientUdpChannelPool := p, bindUdpChannel := some u })
      (htalk : Talk s s') : Act S s c s' x none
  /-- It binds a UDP channel and asks the relay for one. -/
  | associate (u p udpChannel) (f m relayServerId deviceId t y)
      (hudp : s.clientUdpChannelPool.acquire (fun _ => udpChannel) = some (u, p))
      (hparent : udpChannel.parentConnection = c.connectionId)
      (hid : udpChannel.relaySideUdpChannelId = 0) (hbind : c.bindUdpChannel = none)
      (hacquire :
        (s.futureManager .acquireDeviceUdpChannel).acquireFuture c.connectionId = some (f, m))
      (hcreate : S.createUdpChannel s.services relayServerId deviceId u f = (t, y))
      (hfuture : c.futures .acquireDeviceUdpChannel = none)
      (hcore : x = { (core s c).request .acquireDeviceUdpChannel f (m.complete f y) t with
        clientUdpChannelPool := p
        bindUdpChannel := some u })
      (htalk : Talk s s') :
      Act S s c s' x none
  /-- It takes up a relay connection and tells the client. -/
  | establish (relaySideConnectionId : ℕ) (reply : Bytes)
      (hrelay : c.relaySideConnectionId = 0)
      (hcore : x = { core s c with relaySideConnectionId := relaySideConnectionId })
      (hcalls : s'.calls = s.calls ++ [.post c.connectionId .established reply]) :
      Act S s c s' x (some ⟨.acquireDeviceConnection, some relaySideConnectionId⟩)
  /-- It takes up a relay connection and sends it the request. -/
  | establishNormal (relaySideConnectionId relayServerId : ℕ) (data : Bytes)
      (hrelay : c.relaySideConnectionId = 0) (htype : c.type = .httpNormal)
      (hcore : x = { core s c with
        services := S.postData s.services relayServerId relaySideConnectionId data
        relaySideConnectionId := relaySideConnectionId })
      (hcalls : s'.calls = s.calls ++ [.relayPostData c.connectionId relaySideConnectionId data]) :
      Act S s c s' x (some ⟨.acquireDeviceConnection, some relaySideConnectionId⟩)
  /-- It takes up a relayed UDP channel and tells the client. -/
  | channelReady (relaySideUdpChannelId u udpChannel)
      (htype : c.type = .s5Udp) (hbind : c.bindUdpChannel = some u)
      (hudp : s.clientUdpChannelPool.get u = some udpChannel)
      (hcore : x = { core s c with
        clientUdpChannelPool := s.clientUdpChannelPool.set u { udpChannel with
          relaySideUdpChannelId := relaySideUdpChannelId } })
      (htalk : Talk s s') :
      Act S s c s' x (some ⟨.acquireDeviceUdpChannel, some relaySideUdpChannelId⟩)
  /-- It sends data to the relay connection. -/
  | forward (relayServerId : ℕ) (data : Bytes)
      (hcore : x = { core s c with
        services := S.postData s.services relayServerId c.relaySideConnectionId data })
      (hcalls : s'.calls = s.calls ++ [.relayPostData c.connectionId c.relaySideConnectionId data])
      (hmark : c.deleteMark = false) : Act S s c s' x none

/-- What a call on the connection `c` does. -/
structure Effect (S : Services σ) (taken : Option ((κ : FutureKind) × Option κ.Result))
    (s : ProxyAccessService σ) (c : ClientConnection) (s' : ProxyAccessService σ)
    (c' : ClientConnection) : Prop extends Frame s c s' c' where
  act : Act S s c s' (core s' c') taken

end ProxyAccessService

/-! ## Moves between stages -/

namespace AtStage

open ProxyAccessService

variable {σ : Type*} {s s' : ProxyAccessService σ} {c c' : ClientConnection} {g : Stage}

/-- A connection that holds the same stays at a stage whose shape it has. -/
theorem keep (hg : AtStage c g) (h : core s' c' = core s c)
    (hshape : g.Shape c'.type c'.dataProcessor) : AtStage c' g where
  shape := hshape
  awaits κ := by rw [← hg.awaits, show c'.futures = c.futures from congrArg Core.futures h]
  localAuthId hstage := (congrArg Core.localAuthId h).trans (hg.localAuthId hstage)
  relaySideConnectionId hstage :=
    (congrArg Core.relaySideConnectionId h).trans (hg.relaySideConnectionId hstage)
  bindUdpChannel hb :=
    hg.bindUdpChannel (by rwa [show c'.bindUdpChannel = _ from congrArg Core.bindUdpChannel h] at hb)

/-- A connection without a future and without a relay connection may stop. -/
theorem stop (hfutures : ∀ κ, c.futures κ = none) (hrelay : c.relaySideConnectionId = 0)
    (hshape : Stage.stopped.Shape c.type c.dataProcessor) : AtStage c .stopped where
  shape := hshape
  awaits κ := by simp [hfutures κ, Stage.awaits]
  localAuthId h := by rcases h with h | h <;> cases h
  relaySideConnectionId _ := hrelay
  bindUdpChannel _ := .inr (.inr rfl)

/-- A connection that waits for a future has no other. -/
theorem take {κ : FutureKind} (hg : AtStage c g) (hκ : g.awaits = some κ) (ι : FutureKind) :
    Function.update c.futures κ none ι = none := by
  by_cases hι : ι = κ
  · subst hι; simp
  · rw [Function.update_of_ne hι]
    refine hg.futures_eq_none fun h => hι ?_
    rw [hκ] at h
    exact (Option.some.inj h).symm

/-- A connection that waited for a future and asked for another one waits for the latter. -/
theorem isSome_next {κ ι : FutureKind} (hg : AtStage c g) (hκ : g.awaits = some κ) (hι : ι ≠ κ)
    (f : ℕ) (j : FutureKind) :
    (Function.update (Function.update c.futures ι (some f)) κ none j).isSome ↔ some ι = some j := by
  rw [Function.update_comm hι]
  by_cases hj : j = ι
  · subst hj; simp
  · simp [hj, hg.take hκ, Ne.symm hj]

/-- A connection that waits has nothing of the relay yet. -/
theorem ne_tunnel {κ : FutureKind} (hκ : g.awaits = some κ) : g ≠ .tunnel := by
  rintro rfl; cases hκ

/-- A connection that waited for a future in vain stops. -/
theorem finish {κ : FutureKind} (hg : AtStage c g) (hκ : g.awaits = some κ)
    (hfutures : c'.futures = c.futures)
    (hrelay : c'.relaySideConnectionId = c.relaySideConnectionId)
    (hp : c'.dataProcessor = c.dataProcessor) : AtStage (c'.setFuture κ none) .stopped := by
  refine .stop (fun ι => ?_) (hrelay.trans (hg.relaySideConnectionId (ne_tunnel hκ))) ?_
  · change Function.update c'.futures κ none ι = none
    rw [hfutures, hg.take hκ]
  · have hshape := hg.shape
    change c'.dataProcessor = _ ∨ c'.dataProcessor = _
    rw [hp]
    cases g <;> simp only [Stage.awaits, Stage.Shape, reduceCtorEq] at hκ hshape <;> tauto

/-- A connection that has taken up a relay connection is a tunnel. -/
theorem connected (hg : AtStage c .connecting) (hfutures : c'.futures = c.futures)
    (hbind : c'.bindUdpChannel = c.bindUdpChannel)
    (hshape : Stage.tunnel.Shape c'.type c'.dataProcessor) :
    AtStage (c'.setFuture .acquireDeviceConnection none) .tunnel where
  shape := hshape
  awaits ι := by
    simp only [ClientConnection.setFuture, hfutures, hg.take rfl]
    simp [Stage.awaits]
  localAuthId h := by rcases h with h | h <;> cases h
  relaySideConnectionId h := absurd rfl h
  bindUdpChannel hb := by
    change c'.bindUdpChannel.isSome = true at hb
    rw [hbind, hg.bindUdpChannel_eq_none (by simp)] at hb
    cases hb

end AtStage

end ProxyPlatform
