import ProxyPlatform.Auth.Basic
import ProxyPlatform.Base.Bytes
import ProxyPlatform.Future
import Mathlib.Logic.Function.Basic

/-!
# The proxy access service: state and operations on connections

`xProxyAccessService` takes client connections through the SOCKS5 and HTTP handshakes
to a relay connection or a relayed UDP channel. A request to another service
(authentication, device, relay connection, relay UDP channel) leaves a future on the
connection, taken up by the next tick once it is ready.

The services are parameters: a state `σ` and the functions of their stubs on it
(`Services`), which the relay of this repository instantiates later. So is what the
transport, the libraries and the kernel decide (`Platform`). The calls of the proxy to
the outside, the writes to its clients included, are kept, in order, in `calls`, and
what it destroys in `destroyed`.

A function of the source that gets a pointer to a connection gets and returns the
connection here; `store` writes it back to the pool.
-/

namespace ProxyPlatform

/-! ## Requests and their results -/

/-- `xDeviceReference`. -/
structure DeviceReference where
  relayServerId : ℕ := 0
  relaySideDeviceId : ℕ := 0
  deriving DecidableEq

def dssStaticExportAddress : ℕ := 2 ^ 6

/-- `xDeviceRequest`, with the condition the proxy fills in. -/
structure DeviceRequest where
  exportAddress : NetAddress
  strategy : ℕ

/-- The target of a relay connection. -/
inductive Target
  | address (targetAddress : NetAddress)
  | hostname (targetHostnameView : Bytes) (targetPort : ℕ)
  deriving DecidableEq

/-- The four kinds of futures. -/
inductive FutureKind
  | auth
  | acquireDevice
  | acquireDeviceConnection
  | acquireDeviceUdpChannel
  deriving DecidableEq

/-- The result a future of each kind carries. -/
@[reducible] def FutureKind.Result : FutureKind → Type
  | .auth => AuthResult
  | .acquireDevice => DeviceReference
  | .acquireDeviceConnection => ℕ
  | .acquireDeviceUdpChannel => ℕ

/-- The services the proxy is bound to: authentication, device locator and relay. -/
structure Services (σ : Type*) where
  acquireAuthInfo : σ → Bytes → Except Fault (σ × Option AuthResult)
  /-- A result has a non-zero id. -/
  localAuthId_ne_zero : ∀ {s t : σ} {accountPassView : Bytes} {r : AuthResult},
    acquireAuthInfo s accountPassView = .ok (t, some r) → r.localAuthId ≠ 0
  releaseAuthInfo : σ → (localAuthId : ℕ) → LocalUsage → Except Fault σ
  acquireDevice : σ → DeviceRequest → (future : ℕ) → σ × Completion DeviceReference
  createConnection : σ → (relayServerId deviceId proxySideConnectionId : ℕ) → Target →
    (future : ℕ) → σ × Completion ℕ
  createUdpChannel : σ → (relayServerId deviceId proxySideUdpChannelId : ℕ) → (future : ℕ) →
    σ × Completion ℕ
  postData : σ → (relayServerId connectionId : ℕ) → Bytes → σ
  postUdpData : σ → (relayServerId udpChannelId : ℕ) → NetAddress → Bytes → σ
  destroyConnection : σ → (relayServerId connectionId : ℕ) → σ
  destroyUdpChannel : σ → (relayServerId udpChannelId : ℕ) → σ

/-- What the libraries compute and the kernel answers, the latter by the number of
    calls made so far. -/
structure Platform where
  base64Decode : Bytes → Bytes
  ipToString : NetAddress → Bytes
  /-- The data posted to a client is written out at once. -/
  sentAtOnce : ℕ → Bool
  /-- The address a UDP channel gets when it is bound to an ip. -/
  bindUdp : ℕ → NetAddress → Option NetAddress
  /-- There is a service to report targets to. -/
  targetReportService : Bool

/-! ## Connections -/

/-- `xPA_ClientConnection::eType`. -/
inductive ConnectionType
  | undetermined
  | s5Challenge
  | s5Tcp
  | s5Udp
  | httpRaw
  | httpNormal
  deriving DecidableEq

/-- The values of `DataProcessor`. -/
inductive TcpDataProcessor
  | killConnectionOnData
  | onGuessProxyType
  | onS5AuthInfo
  | onS5Target
  | onRawData
  | onHttpRawHeaderProcessor
  | onHttpNormalHeaderProcessor
  | onHttpBody
  deriving DecidableEq

/-- `xHttpData`. -/
structure HttpData where
  targetHost : Bytes := []
  targetPort : ℕ := 0
  content : Bytes := []
  tempHeaderLine : Bytes := []
  contentLengthLeft : ℕ := 0
  deriving DecidableEq

/-- `xPA_ClientConnection`, with the state of its socket. -/
structure ClientConnection where
  connectionId : ℕ
  remoteAddress : NetAddress
  localAddress : NetAddress
  hasPendingWrites : Bool := false
  timestampMS : ℕ
  bindUdpChannel : Option ℕ := none
  deleteMark : Bool := false
  noAuth : Bool := false
  enableUdpTarget : Bool := false
  dataProcessor : TcpDataProcessor
  type : ConnectionType := .undetermined
  /-- The futures of the connection, by their ids. -/
  futures : FutureKind → Option ℕ := fun _ => none
  localAuthId : ℕ := 0
  globalAuthId : ℕ := 0
  deviceReference : DeviceReference := {}
  relaySideConnectionId : ℕ := 0
  totalTcpBytesFromClient : UInt64 := 0
  totalTcpBytesToClient : UInt64 := 0
  totalUdpBytesFromClient : UInt64 := 0
  totalUdpBytesToClient : UInt64 := 0
  http : HttpData := {}

/-- `xPA_ClientUdpChannel`. -/
structure ClientUdpChannel where
  bindAddress : NetAddress
  parentConnection : ℕ
  relaySideUdpChannelId : ℕ := 0
  clientIpCheckAddress : NetAddress
  lastClientIpAddress : NetAddress := {}

/-- The timeout lists of the client connections. -/
inductive ClientList
  | initTimeout
  | idleTimeout
  | kill
  | gracefulKill
  deriving DecidableEq

/-- Where the bytes written to a client come from. -/
inductive Origin
  /-- The reply that the relay connection is established. -/
  | established
  /-- Any other reply of the handshake. -/
  | reply
  /-- Data from the target. -/
  | target
  deriving DecidableEq

/-- A call of the proxy to the outside, with the client connection it is made for. -/
inductive ProxyCall
  | acquireAuthInfo (connectionId : ℕ) (remoteAddress : NetAddress) (accountPassView : Bytes)
      (result : Option AuthResult)
  | releaseAuthInfo (connectionId localAuthId : ℕ) (usage : LocalUsage)
  | reportTarget (globalAuthId : ℕ) (address : NetAddress) (targetHost : Bytes)
  | createConnection (connectionId : ℕ) (target : Target)
  | createUdpChannel (connectionId : ℕ)
  | relayPostData (connectionId relaySideConnectionId : ℕ) (data : Bytes)
  | relayPostUdpData (connectionId relaySideUdpChannelId : ℕ) (targetAddress : NetAddress)
      (data : Bytes)
  | destroyConnection (connectionId relaySideConnectionId : ℕ)
  | destroyUdpChannel (connectionId relaySideUdpChannelId : ℕ)
  /-- `PostData` on the client connection. -/
  | post (connectionId : ℕ) (origin : Origin) (data : Bytes)
  /-- `PostData` on a UDP channel. -/
  | postUdp (connectionId : ℕ) (address : NetAddress) (data : Bytes)
  deriving DecidableEq

/-- `xAudit`: the counters that are incremented. -/
structure ProxyAudit where
  invalidS5AuthTypeCount : ℕ := 0
  invalidS5AuthInfo : ℕ := 0
  invalidS5Target : ℕ := 0
  requestAuthenticationOOM : ℕ := 0
  initConnectionTimeoutCount : ℕ := 0

def paClientAuthTimeoutMS : ℕ := 5000
def paGracefulKillTimeoutMS : ℕ := 60000
def clientConnectionIdleTimeoutMS : ℕ := 125000
def paMaxClientConnection : ℕ := 200000
def paMaxClientRequestPerSecond : ℕ := 50000
def paMaxUdpPacketSize : ℕ := 4200

/-- `xProxyAccessService`, with the state of the services it is bound to. -/
structure ProxyAccessService (σ : Type*) where
  localTicker : ℕ
  clientConnectionPool : Storage ClientConnection
  clientUdpChannelPool : Storage ClientUdpChannel
  timeoutLists : Linked ClientList
  /-- The future managers; the context of a future is its `ClientConnection`. -/
  futureManager : (κ : FutureKind) → FuturePoolManager ℕ κ.Result
  services : σ
  audit : ProxyAudit
  /-- The calls to the outside so far. -/
  calls : List ProxyCall
  /-- The connections destroyed so far, with what their auth futures carried. -/
  destroyed : List (ClientConnection × Option AuthResult)

namespace ProxyAccessService

variable {σ : Type*}

/-- The service after `Init`. -/
def init (services : σ) : ProxyAccessService σ where
  localTicker := 0
  clientConnectionPool := .empty paMaxClientConnection
  clientUdpChannelPool := .empty paMaxClientConnection
  timeoutLists := .empty
  futureManager _ := .empty paMaxClientRequestPerSecond
  services := services
  audit := {}
  calls := []
  destroyed := []

/-- Writing a connection back to the pool. -/
def store (s : ProxyAccessService σ) (c : ClientConnection) : ProxyAccessService σ :=
  { s with clientConnectionPool := s.clientConnectionPool.set c.connectionId c }

/-- Noting a call to the outside. -/
def call (s : ProxyAccessService σ) (x : ProxyCall) : ProxyAccessService σ :=
  { s with calls := s.calls ++ [x] }

def setFutureManager (s : ProxyAccessService σ) (κ : FutureKind)
    (m : FuturePoolManager ℕ κ.Result) : ProxyAccessService σ :=
  { s with futureManager := Function.update s.futureManager κ m }

def linkTail (s : ProxyAccessService σ) (l : ClientList) (k : ℕ) : ProxyAccessService σ :=
  { s with timeoutLists := s.timeoutLists.grabTail l k }

end ProxyAccessService

def ClientConnection.setFuture (c : ClientConnection) (κ : FutureKind) (f : Option ℕ) :
    ClientConnection :=
  { c with futures := Function.update c.futures κ f }

namespace ProxyAccessService

variable {σ : Type*} (S : Services σ) (P : Platform)

/-! ## Timeouts -/

/-- `KeepAlive`: nothing, if the connection is marked. -/
def keepAlive (s : ProxyAccessService σ) (c : ClientConnection) :
    Option (ProxyAccessService σ × ClientConnection) :=
  if c.deleteMark then none
  else some (s.linkTail .idleTimeout c.connectionId, { c with timestampMS := s.localTicker })

/-- `DeferKill`. -/
def deferKill (s : ProxyAccessService σ) (c : ClientConnection) :
    ProxyAccessService σ × ClientConnection :=
  (s.linkTail .kill c.connectionId, { c with deleteMark := true })

/-- `DeferGracefulKill`. -/
def deferGracefulKill (s : ProxyAccessService σ) (c : ClientConnection) :
    ProxyAccessService σ × ClientConnection :=
  -- A connection without pending writes is marked, and linked in no other list.
  if c.deleteMark then (s, c)
  else if c.hasPendingWrites then
    (s.linkTail .gracefulKill c.connectionId,
      { c with deleteMark := true, timestampMS := s.localTicker })
  else (s, { c with deleteMark := true })

/-! ## Writes -/

/-- `PostData` on a client connection: what is not written out at once is pending. -/
def post (s : ProxyAccessService σ) (c : ClientConnection) (origin : Origin) (data : Bytes) :
    ProxyAccessService σ × ClientConnection :=
  (s.call (.post c.connectionId origin data),
    { c with hasPendingWrites := c.hasPendingWrites || !P.sentAtOnce s.calls.length })

/-- The bytes of a port, in network order. -/
def portBytes (port : ℕ) : Bytes := [(port / 256).toUInt8, port.toUInt8]

def s5ConnectionEstablished : Bytes := [5, 0, 0, 1, 0, 0, 0, 0, 0, 0]
def s5ConnectionGenericError : Bytes := [5, 1, 0, 1, 0, 0, 0, 0, 0, 0]
def s5UdpChannelGenericError : Bytes := [5, 1, 0, 1, 0, 0, 0, 0, 0, 0]
def http200 : Bytes := ascii "HTTP/1.1 200 Connection Established\r\n\r\n"
def http404 : Bytes := ascii "HTTP/1.1 404 Not Found\r\n\r\n"
def http407 : Bytes := ascii ("HTTP/1.1 407 Proxy Authentication Required\r\n" ++
  "Proxy-Authenticate: Basic realm=\"generic\"\r\nConnection: close\r\n\r\n")
def http500 : Bytes := ascii "HTTP/1.1 500 Server Error\r\n\r\n"
def http502 : Bytes := ascii "HTTP/1.1 502 Bad Gateway\r\n\r\n"

/-- `SendS5AuthError`. -/
def sendS5AuthError (s : ProxyAccessService σ) (c : ClientConnection) :
    ProxyAccessService σ × ClientConnection :=
  if c.noAuth then post P s c .reply [5, 255] else post P s c .reply [1, 1]

/-- `SendS5AuthAccepted`. -/
def sendS5AuthAccepted (s : ProxyAccessService σ) (c : ClientConnection) :
    ProxyAccessService σ × ClientConnection :=
  if c.noAuth then post P s c .reply [5, 0] else post P s c .reply [1, 0]

/-! ## Requests -/

/-- `RequestAuthentication`: the future is ready at once. -/
def requestAuthentication (s : ProxyAccessService σ) (c : ClientConnection) (authView : Bytes) :
    Except Fault (ProxyAccessService σ × Option ℕ) :=
  match (s.futureManager .auth).acquireFuture c.connectionId with
  | none => .ok (s, none)
  | some (f, m) => match S.acquireAuthInfo s.services authView with
    | .error x => .error x
    | .ok (t, result) =>
      .ok (({ s with services := t }.setFutureManager .auth (m.setReady f result)).call
        (.acquireAuthInfo c.connectionId c.remoteAddress authView result), some f)

/-- `RequestDevice`. -/
def requestDevice (s : ProxyAccessService σ) (c : ClientConnection) (request : DeviceRequest) :
    ProxyAccessService σ × Option ℕ :=
  match (s.futureManager .acquireDevice).acquireFuture c.connectionId with
  | none => (s, none)
  | some (f, m) =>
    let (t, result) := S.acquireDevice s.services request f
    ({ s with services := t }.setFutureManager .acquireDevice (m.complete f result), some f)

/-- `ReportTarget`. -/
def reportTarget (s : ProxyAccessService σ) (globalAuthId : ℕ) (target : Target) :
    ProxyAccessService σ :=
  if P.targetReportService then
    match target with
    | .address a => s.call (.reportTarget globalAuthId a.ip [])
    | .hostname h _ => s.call (.reportTarget globalAuthId {} h)
  else s

/-- `RequestDeviceConnection`, for an address or a host name. -/
def requestDeviceConnection (s : ProxyAccessService σ) (c : ClientConnection) (target : Target) :
    ProxyAccessService σ × Option ℕ :=
  let s := reportTarget P s c.globalAuthId target
  match (s.futureManager .acquireDeviceConnection).acquireFuture c.connectionId with
  | none => (s, none)
  | some (f, m) =>
    let (t, result) := S.createConnection s.services c.deviceReference.relayServerId
      c.deviceReference.relaySideDeviceId c.connectionId target f
    (({ s with services := t }.setFutureManager .acquireDeviceConnection (m.complete f result)).call
      (.createConnection c.connectionId target), some f)

/-- `RequestDeviceUdpChannel`, for the UDP channel `u` of the connection. -/
def requestDeviceUdpChannel (s : ProxyAccessService σ) (c : ClientConnection) (u : ℕ) :
    ProxyAccessService σ × Option ℕ :=
  match (s.futureManager .acquireDeviceUdpChannel).acquireFuture c.connectionId with
  | none => (s, none)
  | some (f, m) =>
    let (t, result) := S.createUdpChannel s.services c.deviceReference.relayServerId
      c.deviceReference.relaySideDeviceId u f
    (({ s with services := t }.setFutureManager .acquireDeviceUdpChannel (m.complete f result)).call
      (.createUdpChannel c.connectionId), some f)

/-- `PostData` of the relay service, on the relay connection of the client. -/
def relayPostData (s : ProxyAccessService σ) (c : ClientConnection) (data : Bytes) :
    ProxyAccessService σ :=
  let t := S.postData s.services c.deviceReference.relayServerId c.relaySideConnectionId data
  { s with services := t }.call (.relayPostData c.connectionId c.relaySideConnectionId data)

end ProxyAccessService

end ProxyPlatform
