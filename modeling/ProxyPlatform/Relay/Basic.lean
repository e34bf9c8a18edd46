import ProxyPlatform.Dns.Basic
import ProxyPlatform.Proxy.Service

/-!
# The relay: state and events

`xRelayLocalBindingService` opens connections and UDP channels to the targets, on the
devices it was configured with, on behalf of a proxy. A connection is asked for by
address, or by host name, which takes a DNS lookup first; the proxy learns of its id
through a future, once it is connected.

* The calls of the proxy are `acquireDevice`, `createConnection`, `createUdpChannel`,
  `postData`, `destroyConnection` and the like; those of the sockets `onConnected`,
  `onPeerClose`, `onData`.
* The relay knows a future of the proxy by its id. Whether it is still live is up to the
  proxy: `alive` is a parameter of what depends on it.
* What the relay does to the proxy, completing its futures included, are events of the
  proxy (`ProxyEvent`), returned in their order.

Whether the kernel lets a socket be opened, and the DNS service takes a request, is read
from `RelayPlatform`, by the number of such attempts made so far.
-/

namespace ProxyPlatform

/-! ## State -/

/-- `xRelayLocalBindingOption`. -/
structure RelayLocalBindingOption where
  bindAddress : NetAddress
  exportAddress : NetAddress
  enableTcp : Bool := false
  enableUdp : Bool := false

/-- `xRelayLocalDevice`. -/
structure RelayLocalDevice where
  deviceId : ℕ
  bindAddress : NetAddress
  exportAddress : NetAddress
  enableTcp : Bool
  enableUdp : Bool

/-- What a DNS lookup is for: `xRelayDnsResultFuture` without its result. -/
structure RelayDnsRequest where
  relaySideDeviceId : ℕ
  proxySideConnectionId : ℕ
  createConnectionFutureHandle : ℕ
  targetPort : ℕ

/-- `xRelayLocalDeviceConnection`, with the state of its socket. -/
structure RelayLocalDeviceConnection where
  connectionId : ℕ
  proxySideConnectionId : ℕ
  createConnectionFutureHandle : Option ℕ
  deleteMark : Bool := false
  timestampMS : ℕ := 0
  isConnected : Bool := false
  bindAddress : NetAddress
  targetAddress : NetAddress

/-- `xRelayLocalDeviceUdpChannel`. -/
structure RelayLocalDeviceUdpChannel where
  udpChannelId : ℕ
  proxySideUdpChannelId : ℕ
  deleteMark : Bool := false
  timestampMS : ℕ := 0
  bindAddress : NetAddress

/-- The timeout lists of the relay connections. -/
inductive RelayConnectionList
  | establishTimeout
  | idleTimeout
  | kill
  deriving DecidableEq

/-- The timeout lists of the relayed UDP channels. -/
inductive RelayUdpChannelList
  | idleTimeout
  | kill
  deriving DecidableEq

/-- Data of the proxy, as it is written to a socket or lost. -/
inductive RelayPost
  | sent (connectionId : ℕ) (data : Bytes)
  | lost (connectionId : ℕ) (data : Bytes)
  | sentUdp (udpChannelId : ℕ) (targetAddress : NetAddress) (data : Bytes)
  | lostUdp (udpChannelId : ℕ) (targetAddress : NetAddress) (data : Bytes)
  deriving DecidableEq

/-- What the kernel and the DNS service answer, by the number of attempts made so far. -/
structure RelayPlatform where
  initConnection : ℕ → Bool
  initUdpChannel : ℕ → Bool
  resolveDns : ℕ → Bool

def deviceIdHigh32Magic : ℕ := 0xCDEF7788
def maxManagedConnectionSize : ℕ := 150000
def maxManagedUdpChannelSize : ℕ := 100000
def idleConnectionTimeoutMS : ℕ := 125000
def maxDnsFutureCount : ℕ := 10000

/-- `xRelayLocalBindingService`. -/
structure RelayLocalBindingService where
  localTicker : ℕ
  localDeviceList : List RelayLocalDevice
  localConnectionPool : Storage RelayLocalDeviceConnection
  localUdpChannelPool : Storage RelayLocalDeviceUdpChannel
  dnsFutureManager : FuturePoolManager RelayDnsRequest DnsResult
  connectionLists : Linked RelayConnectionList
  udpChannelLists : Linked RelayUdpChannelList
  /-- The attempts made so far at opening a socket, or at looking up a host name. -/
  attempts : ℕ
  /-- What came of the data of the proxy. -/
  posts : List RelayPost

namespace RelayLocalBindingService

/-! ## Devices -/

/-- `MakeLocalDeviceId`. -/
def makeLocalDeviceId (index : ℕ) : ℕ := deviceIdHigh32Magic * 2 ^ 32 + index

/-- `CreateLocalDeviceList`: ids fit their 32 bits, and no two devices are exported under
    one address. -/
def createLocalDeviceList (optionList : List RelayLocalBindingOption) :
    Except Fault (List RelayLocalDevice) :=
  if optionList.length < 2 ^ 32 ∧ (optionList.map RelayLocalBindingOption.exportAddress).Nodup then
    .ok (optionList.mapIdx fun index o =>
      { deviceId := makeLocalDeviceId index
        bindAddress := o.bindAddress
        exportAddress := o.exportAddress
        enableTcp := o.enableTcp
        enableUdp := o.enableUdp })
  else .error .runtimeAssert

/-- The relay after `Init`, for a list of devices. -/
def init (localDeviceList : List RelayLocalDevice) : RelayLocalBindingService where
  localTicker := 0
  localDeviceList := localDeviceList
  localConnectionPool := .empty (min (40000 * localDeviceList.length) maxManagedConnectionSize)
  localUdpChannelPool := .empty (min (60000 * localDeviceList.length) maxManagedUdpChannelSize)
  dnsFutureManager := .empty maxDnsFutureCount
  connectionLists := .empty
  udpChannelLists := .empty
  attempts := 0
  posts := []

/-- `GetDevice`. -/
def getDevice (s : RelayLocalBindingService) (deviceId : ℕ) : Option RelayLocalDevice :=
  if deviceId / 2 ^ 32 ≠ deviceIdHigh32Magic then none
  else s.localDeviceList[deviceId % 2 ^ 32]?

/-- `AcquireDevice`, which is answered at once. -/
def acquireDevice (s : RelayLocalBindingService) (request : DeviceRequest) :
    Option DeviceReference :=
  if request.strategy &&& dssStaticExportAddress = 0 then none
  else (s.localDeviceList.find? fun d => d.exportAddress = request.exportAddress).map fun d =>
    { relayServerId := 0, relaySideDeviceId := d.deviceId }

/-! ## Connections and UDP channels -/

/-- Writing a connection back to the pool. -/
def store (s : RelayLocalBindingService) (c : RelayLocalDeviceConnection) :
    RelayLocalBindingService :=
  { s with localConnectionPool := s.localConnectionPool.set c.connectionId c }

/-- Writing a UDP channel back to the pool. -/
def storeUdp (s : RelayLocalBindingService) (x : RelayLocalDeviceUdpChannel) :
    RelayLocalBindingService :=
  { s with localUdpChannelPool := s.localUdpChannelPool.set x.udpChannelId x }

/-- `KeepAlive` of a connection: nothing, if it is marked. -/
def keepAlive (s : RelayLocalBindingService) (c : RelayLocalDeviceConnection) :
    Option RelayLocalBindingService :=
  if c.deleteMark then none
  else some ({ s with connectionLists := s.connectionLists.grabTail .idleTimeout c.connectionId }.store
    { c with timestampMS := s.localTicker })

/-- `KeepAlive` of a UDP channel: nothing, if it is marked. -/
def keepUdpAlive (s : RelayLocalBindingService) (x : RelayLocalDeviceUdpChannel) :
    RelayLocalBindingService :=
  if x.deleteMark then s
  else { s with udpChannelLists := s.udpChannelLists.grabTail .idleTimeout x.udpChannelId }.storeUdp
    { x with timestampMS := s.localTicker }

/-- Completing a future of the proxy that is looked up by its handle. -/
def complete (alive : ℕ → Bool) (handle : Option ℕ) (result : Option ℕ) : List ProxyEvent :=
  match handle with
  | none => []
  | some f => if alive f then [.setReady .acquireDeviceConnection f result] else []

/-- `DeferDestroyConnection`. -/
def deferDestroyConnection (alive : ℕ → Bool) (s : RelayLocalBindingService)
    (c : RelayLocalDeviceConnection) : RelayLocalBindingService × List ProxyEvent :=
  if c.deleteMark then (s, [])
  else ({ s with connectionLists := s.connectionLists.grabTail .kill c.connectionId }.store
      { c with deleteMark := true, createConnectionFutureHandle := none },
    complete alive c.createConnectionFutureHandle none)

/-- `DeferDestroyUdpChannel`. -/
def deferDestroyUdpChannel (s : RelayLocalBindingService) (x : RelayLocalDeviceUdpChannel) :
    RelayLocalBindingService :=
  { s with udpChannelLists := s.udpChannelLists.grabTail .kill x.udpChannelId }.storeUdp
    { x with deleteMark := true }

/-! ## Calls of the proxy -/

variable (R : RelayPlatform)

/-- `CreateConnection` from a bind address. -/
def createConnectionFrom (s : RelayLocalBindingService) (proxySideConnectionId : ℕ)
    (deviceBindAddress targetAddress : NetAddress) (future : ℕ) :
    RelayLocalBindingService × Completion ℕ :=
  let connection (connectionId : ℕ) : RelayLocalDeviceConnection :=
    { connectionId := connectionId
      proxySideConnectionId := proxySideConnectionId
      createConnectionFutureHandle := some future
      bindAddress := deviceBindAddress
      targetAddress := targetAddress }
  match s.localConnectionPool.acquire connection with
  | none => (s, .ready none)
  | some (k, p) =>
    -- Until it is connected, the connection is linked in no timeout list.
    if R.initConnection s.attempts then
      ({ s with localConnectionPool := p, attempts := s.attempts + 1 }, .pending)
    else ({ s with localConnectionPool := p.release k, attempts := s.attempts + 1 }, .ready none)

/-- `CreateConnection` to an address. -/
def createConnectionToAddress (s : RelayLocalBindingService) (deviceId proxySideConnectionId : ℕ)
    (targetAddress : NetAddress) (future : ℕ) : RelayLocalBindingService × Completion ℕ :=
  match s.getDevice deviceId with
  | none => (s, .ready none)
  | some device =>
    createConnectionFrom R s proxySideConnectionId device.bindAddress targetAddress future

/-- `CreateConnection` to a host name. -/
def createConnectionToHostname (s : RelayLocalBindingService) (deviceId proxySideConnectionId : ℕ)
    (targetPort : ℕ) (future : ℕ) : RelayLocalBindingService × Completion ℕ :=
  let request : RelayDnsRequest :=
    { relaySideDeviceId := deviceId
      proxySideConnectionId := proxySideConnectionId
      createConnectionFutureHandle := future
      targetPort := targetPort }
  match s.dnsFutureManager.acquireFuture request with
  | none => (s, .ready none)
  | some (i, m) =>
    if R.resolveDns s.attempts then
      ({ s with dnsFutureManager := m, attempts := s.attempts + 1 }, .pending)
    else ({ s with dnsFutureManager := m.releaseFuture i, attempts := s.attempts + 1 }, .ready none)

/-- `CreateConnection`. -/
def createConnection (s : RelayLocalBindingService) (deviceId proxySideConnectionId : ℕ)
    (target : Target) (future : ℕ) : RelayLocalBindingService × Completion ℕ :=
  match target with
  | .address a => createConnectionToAddress R s deviceId proxySideConnectionId a future
  | .hostname _ port => createConnectionToHostname R s deviceId proxySideConnectionId port future

/-- `CreateUdpChannel`, which is answered at once. -/
def createUdpChannel (s : RelayLocalBindingService) (deviceId proxySideUdpChannelId : ℕ) :
    RelayLocalBindingService × Option ℕ :=
  match s.getDevice deviceId with
  | none => (s, none)
  | some device =>
    let channel (udpChannelId : ℕ) : RelayLocalDeviceUdpChannel :=
      { udpChannelId := udpChannelId
        proxySideUdpChannelId := proxySideUdpChannelId
        bindAddress := device.bindAddress }
    match s.localUdpChannelPool.acquire channel with
    | none => (s, none)
    | some (u, p) =>
      if R.initUdpChannel s.attempts then
        ({ s with localUdpChannelPool := p, attempts := s.attempts + 1 }, some u)
      else ({ s with localUdpChannelPool := p.release u, attempts := s.attempts + 1 }, none)

/-- `DestroyConnection`: the future is cleared before, so that nothing is completed. -/
def destroyConnection (s : RelayLocalBindingService) (connectionId : ℕ) :
    RelayLocalBindingService :=
  match s.localConnectionPool.get connectionId with
  | none => s
  | some c =>
    let c := { c with createConnectionFutureHandle := none }
    (deferDestroyConnection (fun _ => false) (s.store c) c).1

/-- `DestroyUdpChannel`. -/
def destroyUdpChannel (s : RelayLocalBindingService) (udpChannelId : ℕ) :
    RelayLocalBindingService :=
  match s.localUdpChannelPool.get udpChannelId with
  | none => s
  | some x => deferDestroyUdpChannel s x

/-- `KeepUdpChannelAlive`. -/
def keepUdpChannelAlive (s : RelayLocalBindingService) (udpChannelId : ℕ) :
    RelayLocalBindingService :=
  match s.localUdpChannelPool.get udpChannelId with
  | none => s
  | some x => keepUdpAlive s x

/-- `PostData` to a connection. -/
def postData (s : RelayLocalBindingService) (connectionId : ℕ) (data : Bytes) :
    RelayLocalBindingService :=
  let lost := { s with posts := s.posts ++ [.lost connectionId data] }
  match s.localConnectionPool.get connectionId with
  | none => lost
  | some c =>
    if c.deleteMark || !c.isConnected then lost
    else { s with posts := s.posts ++ [.sent connectionId data] }

/-- `PostData` to a UDP channel. -/
def postUdpData (s : RelayLocalBindingService) (udpChannelId : ℕ) (targetAddress : NetAddress)
    (data : Bytes) : RelayLocalBindingService :=
  let lost := { s with posts := s.posts ++ [.lostUdp udpChannelId targetAddress data] }
  match s.localUdpChannelPool.get udpChannelId with
  | none => lost
  | some x =>
    if x.deleteMark then lost
    else { s with posts := s.posts ++ [.sentUdp udpChannelId targetAddress data] }

/-! ## Calls of the sockets -/

/-- `OnConnected`. -/
def onConnected (alive : ℕ → Bool) (s : RelayLocalBindingService) (c : RelayLocalDeviceConnection) :
    RelayLocalBindingService × List ProxyEvent :=
  let c' := { c with isConnected := true, createConnectionFutureHandle := none }
  let s := s.store c'
  match c.createConnectionFutureHandle with
  | none => (s, [])
  | some f =>
    -- Without a live future, the connection stays out of every timeout list.
    if alive f then
      ((keepAlive s c').getD s, [.setReady .acquireDeviceConnection f (some c.connectionId)])
    else (s, [])

/-- `OnPeerClose`. -/
def onPeerClose (alive : ℕ → Bool) (s : RelayLocalBindingService) (c : RelayLocalDeviceConnection) :
    RelayLocalBindingService × List ProxyEvent :=
  -- The proxy is told also of a connection that it asked to have destroyed.
  let (s, events) := deferDestroyConnection alive s c
  (s, .closeConnection c.proxySideConnectionId :: events)

/-- `OnData` of a connection. -/
def onData (s : RelayLocalBindingService) (c : RelayLocalDeviceConnection) (data : Bytes) :
    RelayLocalBindingService × List ProxyEvent :=
  match keepAlive s c with
  | none => (s, [])
  | some s => (s, [.postData c.proxySideConnectionId data])

/-- `OnData` of a UDP channel. -/
def onUdpData (s : RelayLocalBindingService) (x : RelayLocalDeviceUdpChannel) (data : Bytes)
    (remoteAddress : NetAddress) : RelayLocalBindingService × List ProxyEvent :=
  (s, [.postUdpData x.proxySideUdpChannelId remoteAddress data])

/-! ## Ticks -/

/-- `CreateConnectionWithDnsResult`, for a future of the proxy that is live. -/
def createConnectionWithDnsResult (s : RelayLocalBindingService)
    (dnsFuture : Future RelayDnsRequest DnsResult) : RelayLocalBindingService × Completion ℕ :=
  match dnsFuture.result with
  | none => (s, .ready none)
  | some result => match s.getDevice dnsFuture.context.relaySideDeviceId with
    | none => (s, .ready none)
    | some device =>
      let targetAddress := if device.bindAddress.is4 then result.a4 else result.a6
      -- The host has no address of the family of the device.
      if !targetAddress.isSet then (s, .ready none)
      else createConnectionToAddress R s dnsFuture.context.relaySideDeviceId
        dnsFuture.context.proxySideConnectionId
        { targetAddress with port := dnsFuture.context.targetPort }
        dnsFuture.context.createConnectionFutureHandle

/-- The body of the loop of `ProcessDnsResults`. -/
def processDnsResult (alive : ℕ → Bool) (x : RelayLocalBindingService × List ProxyEvent) (i : ℕ) :
    RelayLocalBindingService × List ProxyEvent :=
  match x.1.dnsFutureManager.get i with
  | none => x
  | some dnsFuture =>
    let handle := dnsFuture.context.createConnectionFutureHandle
    let (s, events) := if alive handle then
        match createConnectionWithDnsResult R x.1 dnsFuture with
        | (s, .pending) => (s, [])
        | (s, .ready result) => (s, complete alive (some handle) result)
      else (x.1, [])
    ({ s with dnsFutureManager := s.dnsFutureManager.releaseFuture i }, x.2 ++ events)

/-- `ProcessDnsResults`. No turn of the loop links a future in the list. -/
def processDnsResults (alive : ℕ → Bool) (s : RelayLocalBindingService) :
    RelayLocalBindingService × List ProxyEvent :=
  s.dnsFutureManager.futureList.foldl (processDnsResult R alive) (s, [])

/-- The time of the connection `k` is up. -/
def isIdle (s : RelayLocalBindingService) (k : ℕ) : Bool :=
  match s.localConnectionPool.get k with
  | none => false
  | some c => c.timestampMS ≤ sub64 s.localTicker idleConnectionTimeoutMS

/-- The time of the UDP channel `u` is up. -/
def isUdpIdle (s : RelayLocalBindingService) (u : ℕ) : Bool :=
  match s.localUdpChannelPool.get u with
  | none => false
  | some x => x.timestampMS ≤ sub64 s.localTicker idleConnectionTimeoutMS

/-- The body of the loop of `DeferDestroyIdleConnections`. -/
def deferDestroyIdleConnection (alive : ℕ → Bool)
    (x : RelayLocalBindingService × List ProxyEvent) (k : ℕ) :
    RelayLocalBindingService × List ProxyEvent :=
  match x.1.localConnectionPool.get k with
  | none => x
  | some c =>
    -- The proxy is not told: only the future, if there still is one, is completed.
    let (s, events) := deferDestroyConnection alive
      { x.1 with connectionLists := x.1.connectionLists.unlink k } c
    (s, x.2 ++ events)

/-- `DeferDestroyIdleConnections`. No turn of the loop changes the timestamps, or the list
    but for its head. -/
def deferDestroyIdleConnections (alive : ℕ → Bool) (s : RelayLocalBindingService) :
    RelayLocalBindingService × List ProxyEvent :=
  ((s.connectionLists.nodes .idleTimeout).takeWhile s.isIdle).foldl
    (deferDestroyIdleConnection alive) (s, [])

/-- The body of the loop of `DeferDestroyIdleUdpChannels`. -/
def deferDestroyIdleUdpChannel (s : RelayLocalBindingService) (u : ℕ) : RelayLocalBindingService :=
  match s.localUdpChannelPool.get u with
  | none => s
  | some x => deferDestroyUdpChannel { s with udpChannelLists := s.udpChannelLists.unlink u } x

/-- `DeferDestroyIdleUdpChannels`. -/
def deferDestroyIdleUdpChannels (s : RelayLocalBindingService) : RelayLocalBindingService :=
  ((s.udpChannelLists.nodes .idleTimeout).takeWhile s.isUdpIdle).foldl deferDestroyIdleUdpChannel s

/-- The body of the loop of `CleanDyingConnections`. -/
def cleanConnection (s : RelayLocalBindingService) (k : ℕ) : RelayLocalBindingService :=
  { s with
    localConnectionPool := s.localConnectionPool.release k
    connectionLists := s.connectionLists.unlink k }

/-- `CleanDyingConnections`. -/
def cleanDyingConnections (s : RelayLocalBindingService) : RelayLocalBindingService :=
  (s.connectionLists.nodes .kill).foldl cleanConnection s

/-- The body of the loop of `CleanDyingUdpChannels`. -/
def cleanUdpChannel (s : RelayLocalBindingService) (u : ℕ) : RelayLocalBindingService :=
  { s with
    localUdpChannelPool := s.localUdpChannelPool.release u
    udpChannelLists := s.udpChannelLists.unlink u }

/-- `CleanDyingUdpChannels`. -/
def cleanDyingUdpChannels (s : RelayLocalBindingService) : RelayLocalBindingService :=
  (s.udpChannelLists.nodes .kill).foldl cleanUdpChannel s

/-- `Tick`. -/
def tick (alive : ℕ → Bool) (s : RelayLocalBindingService) (nowMS : ℕ) :
    RelayLocalBindingService × List ProxyEvent :=
  let (s, events) := processDnsResults R alive { s with localTicker := nowMS }
  let (s, events') := deferDestroyIdleConnections alive s
  (cleanDyingUdpChannels (cleanDyingConnections (deferDestroyIdleUdpChannels s)), events ++ events')

end RelayLocalBindingService

/-! ## Steps -/

/-- An event of the relay. -/
inductive RelayEvent
  | createConnection (deviceId proxySideConnectionId : ℕ) (target : Target) (future : ℕ)
  | createUdpChannel (deviceId proxySideUdpChannelId : ℕ)
  | destroyConnection (k : ℕ)
  | destroyUdpChannel (u : ℕ)
  | keepUdpChannelAlive (u : ℕ)
  | postData (k : ℕ) (data : Bytes)
  | postUdpData (u : ℕ) (targetAddress : NetAddress) (data : Bytes)
  | onConnected (k : ℕ)
  | onPeerClose (k : ℕ)
  | onData (k : ℕ) (data : Bytes)
  | onUdpData (u : ℕ) (data : Bytes) (remoteAddress : NetAddress)
  /-- The DNS service completes the future `i`. -/
  | dnsResult (i : ℕ) (result : Option DnsResult)
  | tick (nowMS : ℕ)

namespace RelayLocalBindingService

/-- A call of the socket of the connection `k`, if it is live. -/
def onConnection (s : RelayLocalBindingService) (k : ℕ)
    (run : RelayLocalDeviceConnection → RelayLocalBindingService × List ProxyEvent) :
    RelayLocalBindingService × List ProxyEvent :=
  match s.localConnectionPool.get k with
  | none => (s, [])
  | some c => run c

/-- A step of the relay, with what it does to the proxy: the answers to the calls of the proxy
    left out. A socket is connected at most once, and has no data before. -/
def step (R : RelayPlatform) (alive : ℕ → Bool) (s : RelayLocalBindingService) :
    RelayEvent → RelayLocalBindingService × List ProxyEvent
  | .createConnection deviceId proxySideConnectionId target future =>
    ((createConnection R s deviceId proxySideConnectionId target future).1, [])
  | .createUdpChannel deviceId proxySideUdpChannelId =>
    ((createUdpChannel R s deviceId proxySideUdpChannelId).1, [])
  | .destroyConnection k => (destroyConnection s k, [])
  | .destroyUdpChannel u => (destroyUdpChannel s u, [])
  | .keepUdpChannelAlive u => (keepUdpChannelAlive s u, [])
  | .postData k data => (postData s k data, [])
  | .postUdpData u targetAddress data => (postUdpData s u targetAddress data, [])
  | .onConnected k => s.onConnection k fun c =>
    if c.isConnected then (s, []) else onConnected alive s c
  | .onPeerClose k => s.onConnection k fun c => onPeerClose alive s c
  | .onData k data => s.onConnection k fun c => if c.isConnected then onData s c data else (s, [])
  | .onUdpData u data remoteAddress => match s.localUdpChannelPool.get u with
    | none => (s, [])
    | some x => onUdpData s x data remoteAddress
  | .dnsResult i result => match s.dnsFutureManager.get i with
    | none => (s, [])
    | some dnsFuture => if dnsFuture.isReady then (s, [])
      else ({ s with dnsFutureManager := s.dnsFutureManager.setReady i result }, [])
  | .tick nowMS => tick R alive s nowMS

end RelayLocalBindingService

end ProxyPlatform
