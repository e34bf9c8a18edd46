import ProxyPlatform.Proxy.Http
import ProxyPlatform.Proxy.Socks

/-!
# The proxy access service: events

What the service does when one of its futures is ready (`onAuthResult`,
`onAcquireDeviceResult`, `onAcquireDeviceConnectionResult`,
`onAcquireDeviceUdpChannelResult`), on a tick, and when the transport or the relay calls
it. `step` takes one event; an event for a connection, a channel or a future that is not
live any more does nothing.

The lists of futures with a deadline (`AuthFutureTimeoutList` and the like) are never
filled, so that `ClearTimeoutFuture` does nothing and is left out.
-/

namespace ProxyPlatform.ProxyAccessService

variable {σ : Type*} (S : Services σ) (P : Platform)

/-! ## Results -/

/-- A ready future is taken up by its connection, which then releases the future it
    carries. -/
def onResult (κ : FutureKind)
    (handle : ProxyAccessService σ → ClientConnection → Option κ.Result →
      Except Fault (ProxyAccessService σ × ClientConnection))
    (s : ProxyAccessService σ) (f : ℕ) : Except Fault (ProxyAccessService σ) :=
  match (s.futureManager κ).get f with
  | none => .error .danglingPointer
  | some future => match s.clientConnectionPool.get future.context with
    | none => .error .danglingPointer
    | some c => match handle s c future.result with
      | .error x => .error x
      | .ok (s, c) => match c.futures κ with
        | none => .error .nullPointer
        | some g => .ok ((s.setFutureManager κ ((s.futureManager κ).releaseFuture g)).store
            (c.setFuture κ none))

/-- `OnS5AuthResult`. -/
def onS5AuthResult (s : ProxyAccessService σ) (c : ClientConnection) :
    Option AuthResult → ProxyAccessService σ × ClientConnection
  | none => sendS5AuthError P s c
  | some result =>
    let c := { c with
      localAuthId := result.localAuthId
      globalAuthId := result.globalAuthId
      enableUdpTarget := result.enableUdp }
    -- The only strategy asked for is that of the export address of the account.
    match requestDevice S s c
      { exportAddress := result.exportAddress, strategy := dssStaticExportAddress } with
    | (s, none) => sendS5AuthError P s (c.setFuture .acquireDevice none)
    | (s, some f) => (s, c.setFuture .acquireDevice (some f))

/-- `OnHttpAuthResult`. -/
def onHttpAuthResult (s : ProxyAccessService σ) (c : ClientConnection) :
    Option AuthResult → ProxyAccessService σ × ClientConnection
  | none => post P s c .reply http407
  | some result =>
    let c := { c with localAuthId := result.localAuthId, globalAuthId := result.globalAuthId }
    match requestDevice S s c
      { exportAddress := result.exportAddress, strategy := dssStaticExportAddress } with
    | (s, none) => post P s (c.setFuture .acquireDevice none) .reply http407
    | (s, some f) => (s, c.setFuture .acquireDevice (some f))

/-- `OnAuthResult`. -/
def onAuthResult : ProxyAccessService σ → ℕ → Except Fault (ProxyAccessService σ) :=
  onResult .auth fun s c result => match c.type with
    | .s5Challenge => .ok (onS5AuthResult S P s c result)
    | .httpRaw | .httpNormal => .ok (onHttpAuthResult S P s c result)
    | .undetermined | .s5Tcp | .s5Udp => .ok (s, c)

/-- `OnS5AcquireDeviceResult`. -/
def onS5AcquireDeviceResult (s : ProxyAccessService σ) (c : ClientConnection) :
    Option DeviceReference → ProxyAccessService σ × ClientConnection
  | none => sendS5AuthError P s c
  | some result =>
    sendS5AuthAccepted P s { c with deviceReference := result, dataProcessor := .onS5Target }

/-- `OnHttpAcquireDeviceResult`. -/
def onHttpAcquireDeviceResult (s : ProxyAccessService σ) (c : ClientConnection) :
    Option DeviceReference → ProxyAccessService σ × ClientConnection
  | none => post P s c .reply http500
  | some result =>
    let c := { c with deviceReference := result }
    match requestDeviceConnection S P s c (.hostname c.http.targetHost c.http.targetPort) with
    | (s, none) => post P s (c.setFuture .acquireDeviceConnection none) .reply http500
    | (s, some f) => (s, c.setFuture .acquireDeviceConnection (some f))

/-- `OnAcquireDeviceResult`. -/
def onAcquireDeviceResult : ProxyAccessService σ → ℕ → Except Fault (ProxyAccessService σ) :=
  onResult .acquireDevice fun s c result => match c.type with
    | .s5Challenge => .ok (onS5AcquireDeviceResult P s c result)
    | .httpRaw | .httpNormal => .ok (onHttpAcquireDeviceResult S P s c result)
    | .undetermined | .s5Tcp | .s5Udp => .ok (s, c)

/-- `OnS5AcquireDeviceConnectionResult`. -/
def onS5AcquireDeviceConnectionResult (s : ProxyAccessService σ) (c : ClientConnection) :
    Option ℕ → ProxyAccessService σ × ClientConnection
  | none => post P s c .reply s5ConnectionGenericError
  | some result =>
    post P s { c with relaySideConnectionId := result, dataProcessor := .onRawData } .established
      s5ConnectionEstablished

/-- `OnHttpRawAcquireDeviceConnectionResult`. -/
def onHttpRawAcquireDeviceConnectionResult (s : ProxyAccessService σ) (c : ClientConnection) :
    Option ℕ → ProxyAccessService σ × ClientConnection
  | none => post P s c .reply http502
  | some result =>
    post P s { c with relaySideConnectionId := result, dataProcessor := .onRawData } .established
      http200

/-- `OnHttpNormalAcquireDeviceConnectionResult`. -/
def onHttpNormalAcquireDeviceConnectionResult (s : ProxyAccessService σ) (c : ClientConnection) :
    Option ℕ → ProxyAccessService σ × ClientConnection
  | none => post P s c .reply http502
  | some result =>
    let c := { c with relaySideConnectionId := result }
    -- From here on, `OnHttpBody` posts the body itself.
    (relayPostData S s c c.http.content, { c with http := { c.http with content := [] } })

/-- `OnAcquireDeviceConnectionResult`. -/
def onAcquireDeviceConnectionResult :
    ProxyAccessService σ → ℕ → Except Fault (ProxyAccessService σ) :=
  onResult .acquireDeviceConnection fun s c result => match c.type with
    | .s5Tcp => .ok (onS5AcquireDeviceConnectionResult P s c result)
    | .httpRaw => .ok (onHttpRawAcquireDeviceConnectionResult P s c result)
    | .httpNormal => .ok (onHttpNormalAcquireDeviceConnectionResult S P s c result)
    | .undetermined | .s5Challenge | .s5Udp => .ok (s, c)

/-- The address of an end of a UDP association, as SOCKS5 writes it. -/
def s5AddressBytes (a : NetAddress) : Bytes :=
  if a.is4 then 1 :: a.bytes ++ portBytes a.port else 4 :: a.bytes ++ portBytes a.port

/-- The body of `OnAcquireDeviceUdpChannelResult`. -/
def onUdpChannelResult (s : ProxyAccessService σ) (c : ClientConnection) :
    Option ℕ → Except Fault (ProxyAccessService σ × ClientConnection)
  | none => .ok (post P s c .reply s5UdpChannelGenericError)
  | some result => match c.bindUdpChannel with
    | none => .error .nullPointer
    | some u => match s.clientUdpChannelPool.get u with
      | none => .error .danglingPointer
      | some udpChannel =>
        -- Datagrams of the client are taken from here on.
        let s := { s with clientUdpChannelPool :=
          s.clientUdpChannelPool.set u { udpChannel with relaySideUdpChannelId := result } }
        let (s, c) := post P s c .reply ([5, 0, 0] ++ s5AddressBytes udpChannel.bindAddress)
        .ok ((keepAlive s c).getD (s, c))

/-- `OnAcquireDeviceUdpChannelResult`. -/
def onAcquireDeviceUdpChannelResult :
    ProxyAccessService σ → ℕ → Except Fault (ProxyAccessService σ) :=
  onResult .acquireDeviceUdpChannel (onUdpChannelResult P)

/-! ## Ticks -/

/-- The loop over the ready futures of a kind, for a number of turns. -/
def processReadyFutures (κ : FutureKind)
    (onReady : ProxyAccessService σ → ℕ → Except Fault (ProxyAccessService σ)) :
    ℕ → ProxyAccessService σ → Except Fault (ProxyAccessService σ)
  | n, s => match (s.futureManager κ).popHead with
    | none => .ok s
    | some (f, m) => match n with
      | 0 => .error .noReturn
      | n + 1 => match onReady (s.setFutureManager κ m) f with
        | .error x => .error x
        | .ok s => processReadyFutures κ onReady n s

/-- The loop over the ready futures of a kind. No turn links a future in its list. -/
def processReady (κ : FutureKind)
    (onReady : ProxyAccessService σ → ℕ → Except Fault (ProxyAccessService σ))
    (s : ProxyAccessService σ) : Except Fault (ProxyAccessService σ) :=
  processReadyFutures κ onReady (s.futureManager κ).futureList.length s

/-- The connections at the head of the list `l` whose time is up go to the kill list. -/
def deferKillTimeoutConnection (s : ProxyAccessService σ) (l : ClientList) (h : l ≠ .kill)
    (timeoutMS : ℕ) : ProxyAccessService σ :=
  -- The subtraction wraps while the clock is below the timeout.
  { s with timeoutLists := s.timeoutLists.expire (fun k =>
      match s.clientConnectionPool.get k with
      | none => false
      | some c => c.timestampMS ≤ sub64 s.localTicker timeoutMS) l .kill h }

/-- `DeferKillInitTimeoutConnection`. -/
def deferKillInitTimeoutConnection (s : ProxyAccessService σ) : ProxyAccessService σ :=
  let t := deferKillTimeoutConnection s .initTimeout (by decide) paClientAuthTimeoutMS
  { t with audit := { t.audit with
    initConnectionTimeoutCount := t.audit.initConnectionTimeoutCount +
      ((s.timeoutLists.nodes .initTimeout).length - (t.timeoutLists.nodes .initTimeout).length) } }

/-- `DeferKillIdleTimeoutConnection`. -/
def deferKillIdleTimeoutConnection (s : ProxyAccessService σ) : ProxyAccessService σ :=
  deferKillTimeoutConnection s .idleTimeout (by decide) clientConnectionIdleTimeoutMS

/-- `DeferGracefulKillConnection`. -/
def deferGracefulKillConnection (s : ProxyAccessService σ) : ProxyAccessService σ :=
  deferKillTimeoutConnection s .gracefulKill (by decide) paGracefulKillTimeoutMS

/-- The usage of a connection, as released. -/
def usageOf (c : ClientConnection) : LocalUsage where
  totalTcpConnections := 1
  totalTcpBytesFromClient := c.totalTcpBytesFromClient
  totalTcpBytesToClient := c.totalTcpBytesToClient
  totalUdpChannels := if c.bindUdpChannel.isSome then 1 else 0
  totalUdpBytesFromClient := c.totalUdpBytesFromClient
  totalUdpBytesToClient := c.totalUdpBytesToClient

/-- What the auth future of a connection carries. -/
def authResultOf (s : ProxyAccessService σ) (c : ClientConnection) : Option AuthResult :=
  (c.futures .auth).bind fun f => ((s.futureManager .auth).get f).bind Future.result

/-- Releasing the futures of a connection. -/
def releaseFutures (s : ProxyAccessService σ) (c : ClientConnection) : ProxyAccessService σ :=
  { s with futureManager := fun κ => match c.futures κ with
    | none => s.futureManager κ
    | some f => (s.futureManager κ).releaseFuture f }

/-- `DestroyConnection`. -/
def destroyConnection (s : ProxyAccessService σ) (c : ClientConnection) :
    Except Fault (ProxyAccessService σ) :=
  -- The UDP channel is closed; the relay is told of neither its end nor that of the connection.
  let destroy (s : ProxyAccessService σ) : ProxyAccessService σ :=
    let t := releaseFutures s c
    { t with
      clientUdpChannelPool := match c.bindUdpChannel with
        | none => t.clientUdpChannelPool
        | some u => t.clientUdpChannelPool.release u
      clientConnectionPool := t.clientConnectionPool.release c.connectionId
      timeoutLists := t.timeoutLists.unlink c.connectionId
      destroyed := t.destroyed ++ [(c, authResultOf s c)] }
  -- A client that was never authenticated has no usage to release.
  if c.localAuthId = 0 then .ok (destroy s)
  else match S.releaseAuthInfo s.services c.localAuthId (usageOf c) with
    | .error x => .error x
    | .ok t => .ok (destroy ({ s with services := t }.call
        (.releaseAuthInfo c.connectionId c.localAuthId (usageOf c))))

/-- The loop of `ExcuteKillConnection`, for a number of turns. -/
def executeKillConnections : ℕ → ProxyAccessService σ → Except Fault (ProxyAccessService σ)
  | n, s => match s.timeoutLists.popHead .kill with
    | none => .ok s
    | some (k, lists) => match n with
      | 0 => .error .noReturn
      | n + 1 => match s.clientConnectionPool.get k with
        | none => .error .danglingPointer
        | some c => match destroyConnection S { s with timeoutLists := lists } c with
          | .error x => .error x
          | .ok s => executeKillConnections n s

/-- `ExcuteKillConnection`. No turn links a connection in the kill list. -/
def executeKillConnection (s : ProxyAccessService σ) : Except Fault (ProxyAccessService σ) :=
  executeKillConnections S (s.timeoutLists.nodes .kill).length s

/-- The first part of `Tick`: all ready futures are taken up. -/
def processResults (s : ProxyAccessService σ) : Except Fault (ProxyAccessService σ) := do
  let s ← processReady .auth (onAuthResult S P) s
  let s ← processReady .acquireDevice (onAcquireDeviceResult S P) s
  let s ← processReady .acquireDeviceConnection (onAcquireDeviceConnectionResult S P) s
  processReady .acquireDeviceUdpChannel (onAcquireDeviceUdpChannelResult P) s

/-- The second part of `Tick`: the connections whose time is up go to the kill list. -/
def deferKillTimeouts (s : ProxyAccessService σ) : ProxyAccessService σ :=
  deferGracefulKillConnection (deferKillIdleTimeoutConnection (deferKillInitTimeoutConnection s))

/-- `Tick`. -/
def tick (s : ProxyAccessService σ) (nowMS : ℕ) : Except Fault (ProxyAccessService σ) := do
  let s ← processResults S P { s with localTicker := nowMS }
  executeKillConnection S (deferKillTimeouts s)

/-! ## Calls of the transport -/

/-- `OnNewConnection`, with the outcome of `Init` of the connection. -/
def onNewConnection (s : ProxyAccessService σ) (remoteAddress localAddress : NetAddress)
    (initOk : Bool) : ProxyAccessService σ :=
  let connection (connectionId : ℕ) : ClientConnection :=
    { connectionId := connectionId
      remoteAddress := remoteAddress
      localAddress := localAddress
      timestampMS := s.localTicker
      dataProcessor := .onGuessProxyType }
  match s.clientConnectionPool.acquire connection with
  | none => s
  | some (k, p) =>
    if initOk then { s with clientConnectionPool := p }.linkTail .initTimeout k
    else { s with clientConnectionPool := p.release k }

/-- `OnPeerClose`. -/
def onPeerClose (s : ProxyAccessService σ) (c : ClientConnection) :
    Except Fault (ProxyAccessService σ × ClientConnection) :=
  if c.deleteMark then .ok (s, c)
  else if c.relaySideConnectionId ≠ 0 then
    let t := S.destroyConnection s.services c.deviceReference.relayServerId c.relaySideConnectionId
    .ok (deferKill ({ s with services := t }.call
      (.destroyConnection c.connectionId c.relaySideConnectionId)) c)
  else match c.type, c.bindUdpChannel with
    | .s5Udp, some u => match s.clientUdpChannelPool.get u with
      | none => .error .danglingPointer
      | some udpChannel =>
        let t := S.destroyUdpChannel s.services c.deviceReference.relayServerId
          udpChannel.relaySideUdpChannelId
        .ok (deferKill ({ s with services := t }.call
          (.destroyUdpChannel c.connectionId udpChannel.relaySideUdpChannelId)) c)
    -- What was asked of the relay and is not answered yet is not taken back.
    | _, _ => .ok (deferKill s c)

/-- `OnFlush`: nothing is pending any more. -/
def onFlush (s : ProxyAccessService σ) (c : ClientConnection) :
    ProxyAccessService σ × ClientConnection :=
  let c := { c with hasPendingWrites := false }
  if c.deleteMark then deferKill s c else (s, c)

/-- `OnGuessProxyType`. -/
def onGuessProxyType (s : ProxyAccessService σ) (c : ClientConnection) (data : Bytes) :
    Except Fault (ProxyAccessService σ × ClientConnection × Option ℕ) :=
  if data.length < 3 then .ok (s, c, none)
  else if data.getD 0 0 = 5 then onS5Challenge S P s c data
  -- A TLS handshake: a fatal alert is sent, but nothing is consumed.
  else if data.getD 0 0 = 22 then
    let (s, c) := post P s c .reply [21, 3, 1, 0, 2, 2, 40]
    .ok (s, c, some 0)
  else onHttpChallenge s c data

/-- `OnRawData`. -/
def onRawData (s : ProxyAccessService σ) (c : ClientConnection) (data : Bytes) :
    ProxyAccessService σ × ClientConnection × Option ℕ :=
  match keepAlive s c with
  | none => (s, c, some 0)
  | some (s, c) => (relayPostData S s c data, c, some data.length)

/-- The call of the `DataProcessor` of a connection. -/
def processData (s : ProxyAccessService σ) (c : ClientConnection) (data : Bytes) :
    Except Fault (ProxyAccessService σ × ClientConnection × Option ℕ) :=
  match c.dataProcessor with
  | .killConnectionOnData => .ok (s, c, none)
  | .onGuessProxyType => onGuessProxyType S P s c data
  | .onS5AuthInfo => onS5AuthInfo S P s c data
  | .onS5Target => onS5Target S P s c data
  | .onRawData => .ok (onRawData S s c data)
  | .onHttpRawHeaderProcessor => onHttpRawHeaderProcessor S P s c data
  | .onHttpNormalHeaderProcessor => onHttpNormalHeaderProcessor S P s c data
  | .onHttpBody => .ok (onHttpBody S s c data)

/-- `OnData` of a connection: what is presented is charged, unless the size returned is
    invalid. -/
def onData (s : ProxyAccessService σ) (c : ClientConnection) (data : Bytes) :
    Except Fault (ProxyAccessService σ × ClientConnection × Option ℕ) :=
  match processData S P s c data with
  | .error x => .error x
  | .ok (s, c, none) => .ok (s, c, none)
  -- All of `data` is charged, whatever was consumed of it.
  | .ok (s, c, some consumedSize) => .ok (s, { c with
      totalTcpBytesFromClient := c.totalTcpBytesFromClient + data.length.toUInt64 },
      some consumedSize)

/-- The target and the payload of a datagram of a UDP association. -/
def readUdpPacket (data : Bytes) : Option (NetAddress × Bytes) :=
  let port (i : ℕ) := 256 * (data.getD i 0).toNat + (data.getD (i + 1) 0).toNat
  if data.length < 4 then none
  else if data.getD 0 0 ≠ 0 ∨ data.getD 1 0 ≠ 0 then none
  -- Fragments are not supported.
  else if data.getD 2 0 ≠ 0 then none
  else if data.getD 3 0 = 1 then
    if data.length < 10 then none
    else some ({ type := .ipv4, bytes := (data.drop 4).take 4, port := port 8 }, data.drop 10)
  else if data.getD 3 0 = 4 then
    if data.length < 22 then none
    else some ({ type := .ipv6, bytes := (data.drop 4).take 16, port := port 20 }, data.drop 22)
  -- A host name is dropped.
  else none

/-- `OnData` of a UDP channel. -/
def onUdpData (s : ProxyAccessService σ) (u : ℕ) (udpChannel : ClientUdpChannel) (data : Bytes)
    (sourceAddress : NetAddress) : Except Fault (ProxyAccessService σ) :=
  if udpChannel.relaySideUdpChannelId = 0 then .ok s
  else if sourceAddress.ip ≠ udpChannel.clientIpCheckAddress then .ok s
  else match s.clientConnectionPool.get udpChannel.parentConnection with
    | none => .error .danglingPointer
    | some c =>
      let s := { s with clientUdpChannelPool :=
        s.clientUdpChannelPool.set u { udpChannel with lastClientIpAddress := sourceAddress } }
      -- The datagram is charged before it is read, also if it is dropped then.
      let c := { c with
        totalUdpBytesFromClient := c.totalUdpBytesFromClient + data.length.toUInt64 }
      let (s, c) := (keepAlive s c).getD (s, c)
      let s := s.store c
      match readUdpPacket data with
      | none => .ok s
      | some (targetAddress, payload) =>
        if payload = [] then .ok s
        else
          let t := S.postUdpData s.services c.deviceReference.relayServerId
            udpChannel.relaySideUdpChannelId targetAddress payload
          .ok ({ s with services := t }.call (.relayPostUdpData c.connectionId
            udpChannel.relaySideUdpChannelId targetAddress payload))

/-! ## Calls of the relay -/

/-- `PostData` to a client connection. -/
def postData (s : ProxyAccessService σ) (c : ClientConnection) (data : Bytes) :
    ProxyAccessService σ × ClientConnection :=
  match keepAlive s c with
  | none => (s, c)
  | some (s, c) =>
    let (s, c) := post P s c .target data
    (s, { c with totalTcpBytesToClient := c.totalTcpBytesToClient + data.length.toUInt64 })

/-- `PostData` to a client UDP channel. -/
def postUdpData (s : ProxyAccessService σ) (udpChannel : ClientUdpChannel)
    (sourceAddress : NetAddress) (data : Bytes) : Except Fault (ProxyAccessService σ) :=
  if paMaxUdpPacketSize ≤ data.length then .ok s
  else if !udpChannel.lastClientIpAddress.isSet then .ok s
  else match s.clientConnectionPool.get udpChannel.parentConnection with
    | none => .error .danglingPointer
    | some c => match keepAlive s c with
      | none => .ok s
      | some (s, c) =>
        -- An address of unknown type: the client was kept alive nonetheless.
        if !sourceAddress.isSet then .ok (s.store c)
        else
          let buffer := [0, 0, 0] ++ s5AddressBytes sourceAddress ++ data
          .ok ((s.call (.postUdp c.connectionId udpChannel.lastClientIpAddress buffer)).store
            { c with totalUdpBytesToClient := c.totalUdpBytesToClient + buffer.length.toUInt64 })

/-- `CloseConnection`. -/
def closeConnection (s : ProxyAccessService σ) (c : ClientConnection) :
    ProxyAccessService σ × ClientConnection :=
  deferGracefulKill s c

/-! ## Steps -/

end ProxyAccessService

/-- An event of the proxy access service. -/
inductive ProxyEvent
  | onNewConnection (remoteAddress localAddress : NetAddress) (initOk : Bool)
  | onPeerClose (k : ℕ)
  | onFlush (k : ℕ)
  | onData (k : ℕ) (data : Bytes)
  | onUdpData (u : ℕ) (data : Bytes) (sourceAddress : NetAddress)
  | postData (k : ℕ) (data : Bytes)
  | postUdpData (u : ℕ) (sourceAddress : NetAddress) (data : Bytes)
  | closeConnection (k : ℕ)
  /-- A service completes the future `f`. -/
  | setReady (κ : FutureKind) (f : ℕ) (result : Option κ.Result)
  | tick (nowMS : ℕ)

namespace ProxyAccessService

variable {σ : Type*} (S : Services σ) (P : Platform)

/-- A call on the connection `k`, if it is live. -/
def onConnection (s : ProxyAccessService σ) (k : ℕ)
    (run : ClientConnection → Except Fault (ProxyAccessService σ × ClientConnection)) :
    Except Fault (ProxyAccessService σ) :=
  match s.clientConnectionPool.get k with
  | none => .ok s
  | some c => (run c).map fun (s, c) => s.store c

/-- A call on the UDP channel `u`, if it is live. -/
def onUdpChannel (s : ProxyAccessService σ) (u : ℕ)
    (run : ClientUdpChannel → Except Fault (ProxyAccessService σ)) :
    Except Fault (ProxyAccessService σ) :=
  match s.clientUdpChannelPool.get u with
  | none => .ok s
  | some udpChannel => run udpChannel

/-- `SetReady` by a service, on a future that is live and not ready. -/
def setReady (s : ProxyAccessService σ) (κ : FutureKind) (f : ℕ) (result : Option κ.Result) :
    ProxyAccessService σ :=
  match (s.futureManager κ).get f with
  | none => s
  | some future =>
    if future.isReady then s
    else s.setFutureManager κ ((s.futureManager κ).setReady f result)

/-- A step of the service. -/
def step (s : ProxyAccessService σ) : ProxyEvent → Except Fault (ProxyAccessService σ)
  | .onNewConnection remoteAddress localAddress initOk =>
    .ok (s.onNewConnection remoteAddress localAddress initOk)
  | .onPeerClose k => s.onConnection k fun c => onPeerClose S s c
  | .onFlush k => s.onConnection k fun c => .ok (onFlush s c)
  | .onData k data => s.onConnection k fun c =>
    (onData S P s c data).map fun (s, c, _) => (s, c)
  | .onUdpData u data sourceAddress => s.onUdpChannel u fun udpChannel =>
    onUdpData S s u udpChannel data sourceAddress
  | .postData k data => s.onConnection k fun c => .ok (postData P s c data)
  | .postUdpData u sourceAddress data => s.onUdpChannel u fun udpChannel =>
    postUdpData s udpChannel sourceAddress data
  | .closeConnection k => s.onConnection k fun c => .ok (closeConnection s c)
  | .setReady κ f result => .ok (s.setReady κ f result)
  | .tick nowMS => tick S P s nowMS

end ProxyAccessService

end ProxyPlatform
