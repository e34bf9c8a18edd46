import ProxyPlatform.Proxy.Rounds
import ProxyPlatform.Relay.Step

/-!
# The proxy, bound to the relay

`xProxyAccessService` asks `xRelayLocalBindingService` for devices, connections and UDP
channels, and the relay calls the proxy back: with data, with the end of a connection, and
with the results of its futures. Here the two are bound to each other.

* `wiredServices`: the services of the proxy, the relay being the device locator and the
  relay service. The authentication service stays a parameter;
* `WiredEvent`: what comes from outside: the sockets of both, the DNS service, and the
  ticks, in any order;
* `relayStep`: what the relay does to the proxy reaches it within the step. None of these
  calls leads back to the relay.
-/

namespace ProxyPlatform

/-- The authentication service of the proxy. -/
structure AuthServiceStub (α : Type*) where
  acquireAuthInfo : α → Bytes → Except Fault (α × Option AuthResult)
  /-- A result has a non-zero id. -/
  localAuthId_ne_zero : ∀ {a b : α} {accountPassView : Bytes} {r : AuthResult},
    acquireAuthInfo a accountPassView = .ok (b, some r) → r.localAuthId ≠ 0
  releaseAuthInfo : α → (localAuthId : ℕ) → LocalUsage → Except Fault α

/-- The proxy, with the relay and the authentication service it is bound to. -/
abbrev ProxyWithRelay (α : Type*) := ProxyAccessService (RelayLocalBindingService × α)

/-- The services of the proxy. -/
def wiredServices {α : Type*} (R : RelayPlatform) (A : AuthServiceStub α) :
    Services (RelayLocalBindingService × α) where
  acquireAuthInfo s accountPassView :=
    (A.acquireAuthInfo s.2 accountPassView).map fun (a, result) => ((s.1, a), result)
  localAuthId_ne_zero {s t accountPassView r} h := by
    cases ha : A.acquireAuthInfo s.2 accountPassView with
    | error x => rw [ha] at h; cases h
    | ok p =>
      obtain ⟨b, result⟩ := p
      rw [ha] at h
      cases h
      exact A.localAuthId_ne_zero ha
  releaseAuthInfo s localAuthId usage :=
    (A.releaseAuthInfo s.2 localAuthId usage).map fun a => (s.1, a)
  acquireDevice s request _ := (s, .ready (s.1.acquireDevice request))
  createConnection s _ deviceId proxySideConnectionId target future :=
    let (relay, result) := s.1.createConnection R deviceId proxySideConnectionId target future
    ((relay, s.2), result)
  createUdpChannel s _ deviceId proxySideUdpChannelId _ :=
    let (relay, result) := s.1.createUdpChannel R deviceId proxySideUdpChannelId
    ((relay, s.2), .ready result)
  postData s _ connectionId data := (s.1.postData connectionId data, s.2)
  postUdpData s _ udpChannelId targetAddress data :=
    (s.1.postUdpData udpChannelId targetAddress data, s.2)
  destroyConnection s _ connectionId := (s.1.destroyConnection connectionId, s.2)
  destroyUdpChannel s _ udpChannelId := (s.1.destroyUdpChannel udpChannelId, s.2)

/-- What happens to the two services from outside. -/
inductive WiredEvent (α : Type*)
  | onNewConnection (remoteAddress localAddress : NetAddress) (initOk : Bool)
  | onPeerClose (i : ℕ)
  | onFlush (i : ℕ)
  | onData (i : ℕ) (data : Bytes)
  | onUdpData (u : ℕ) (data : Bytes) (sourceAddress : NetAddress)
  | tick (nowMS : ℕ)
  | relayOnConnected (k : ℕ)
  | relayOnPeerClose (k : ℕ)
  | relayOnData (k : ℕ) (data : Bytes)
  | relayOnUdpData (v : ℕ) (data : Bytes) (remoteAddress : NetAddress)
  | relayTick (nowMS : ℕ)
  | dnsResult (a : ℕ) (result : Option DnsResult)
  /-- The authentication service changes on its own. -/
  | auth (state : α)

/-- The service that an event is for. -/
inductive WiredCall (α : Type*)
  | proxy (e : ProxyEvent)
  | relay (e : RelayEvent)
  | auth (state : α)

/-- The call that an event makes. -/
def WiredEvent.toCall {α : Type*} : WiredEvent α → WiredCall α
  | .onNewConnection remoteAddress localAddress initOk =>
    .proxy (.onNewConnection remoteAddress localAddress initOk)
  | .onPeerClose i => .proxy (.onPeerClose i)
  | .onFlush i => .proxy (.onFlush i)
  | .onData i data => .proxy (.onData i data)
  | .onUdpData u data sourceAddress => .proxy (.onUdpData u data sourceAddress)
  | .tick nowMS => .proxy (.tick nowMS)
  | .relayOnConnected k => .relay (.onConnected k)
  | .relayOnPeerClose k => .relay (.onPeerClose k)
  | .relayOnData k data => .relay (.onData k data)
  | .relayOnUdpData v data remoteAddress => .relay (.onUdpData v data remoteAddress)
  | .relayTick nowMS => .relay (.tick nowMS)
  | .dnsResult a result => .relay (.dnsResult a result)
  | .auth state => .auth state

namespace ProxyWithRelay

variable {α : Type*} (R : RelayPlatform) (A : AuthServiceStub α) (P : Platform)

/-- The relay. -/
def relay (w : ProxyWithRelay α) : RelayLocalBindingService := w.services.1

/-- The future `f` of a relay connection is live. -/
def alive {σ : Type*} (w : ProxyAccessService σ) (f : ℕ) : Bool :=
  ((w.futureManager .acquireDeviceConnection).get f).isSome

/-- What a call of the relay does to the relay, and to the proxy. -/
def relayCall (w : ProxyWithRelay α) (e : RelayEvent) :
    RelayLocalBindingService × List ProxyEvent :=
  RelayLocalBindingService.step R (alive w) w.relay e

/-- A call of the relay, and the calls of the proxy that it makes. -/
def relayStep (w : ProxyWithRelay α) (e : RelayEvent) : Except Fault (ProxyWithRelay α) :=
  exec (ProxyAccessService.step (wiredServices R A) P)
    { w with services := ((relayCall R w e).1, w.services.2) } (relayCall R w e).2

/-- A step of the two services. -/
def step (w : ProxyWithRelay α) (e : WiredEvent α) : Except Fault (ProxyWithRelay α) :=
  match e.toCall with
  | .proxy e => ProxyAccessService.step (wiredServices R A) P w e
  | .relay e => relayStep R A P w e
  | .auth state => .ok { w with services := (w.relay, state) }

/-- The two services after `Init`. -/
def init (devices : List RelayLocalDevice) (a : α) : ProxyWithRelay α :=
  ProxyAccessService.init (RelayLocalBindingService.init devices, a)

end ProxyWithRelay

end ProxyPlatform
