import ProxyPlatform.Proxy.Basic

/-!
# The data processors of SOCKS5

The processors return the number of bytes consumed, or nothing for `InvalidDataSize`.
A processor that stopped before the end of its message, or refused it, may return `0`:
the bytes come again.

* `onS5Challenge`: the greeting; without user/password support, the client is
  authenticated by its ip;
* `onS5AuthInfo`: the user and the password;
* `onS5Target`: the request for a TCP connection or a UDP channel.
-/

namespace ProxyPlatform.ProxyAccessService

variable {σ : Type*} (S : Services σ) (P : Platform)

/-- `OnS5Challenge`. -/
def onS5Challenge (s : ProxyAccessService σ) (c : ClientConnection) (data : Bytes) :
    Except Fault (ProxyAccessService σ × ClientConnection × Option ℕ) :=
  let nm := (data.getD 1 0).toNat
  let headerSize := 2 + nm
  -- A greeting that is cut is refused, not waited for.
  if nm = 0 then .ok (s, c, none)
  else if data.length < headerSize then .ok (s, c, none)
  else
    let c := { c with type := .s5Challenge }
    if 2 ∉ (data.drop 2).take nm then
      let c := { c with noAuth := true, dataProcessor := .killConnectionOnData }
      match requestAuthentication S s c (0 :: P.ipToString c.remoteAddress) with
      | .error x => .error x
      | .ok (s, none) =>
        let s := { s with audit := { s.audit with
          requestAuthenticationOOM := s.audit.requestAuthenticationOOM + 1 } }
        let (s, c) := post P s (c.setFuture .auth none) .reply [5, 255]
        .ok (s, c, some headerSize)
      | .ok (s, some f) => .ok (s, c.setFuture .auth (some f), some headerSize)
    else
      let (s, c) := post P s c .reply [5, 2]
      .ok (s, { c with dataProcessor := .onS5AuthInfo }, some headerSize)

/-- `OnS5AuthInfo`. -/
def onS5AuthInfo (s : ProxyAccessService σ) (c : ClientConnection) (data : Bytes) :
    Except Fault (ProxyAccessService σ × ClientConnection × Option ℕ) :=
  let nameLen := (data.getD 1 0).toNat
  let passLen := (data.getD (2 + nameLen) 0).toNat
  if data.length < 3 then .ok (s, c, some 0)
  else if data.getD 0 0 ≠ 1 then
    .ok ({ s with audit := { s.audit with
      invalidS5AuthTypeCount := s.audit.invalidS5AuthTypeCount + 1 } }, c, none)
  else if data.length < 3 + nameLen then .ok (s, c, some 0)
  else if data.length < 3 + nameLen + passLen then .ok (s, c, some 0)
  else if nameLen = 0 ∨ passLen = 0 then
    .ok ({ s with audit := { s.audit with
      invalidS5AuthInfo := s.audit.invalidS5AuthInfo + 1 } }, c, none)
  else
    let c := { c with dataProcessor := .killConnectionOnData }
    -- The length of the password is overwritten with the separator.
    let keyView := (data.drop 2).take nameLen ++ 0 :: (data.drop (3 + nameLen)).take passLen
    match requestAuthentication S s c keyView with
    | .error x => .error x
    | .ok (s, none) =>
      let s := { s with audit := { s.audit with
        requestAuthenticationOOM := s.audit.requestAuthenticationOOM + 1 } }
      let (s, c) := post P s (c.setFuture .auth none) .reply [1, 1]
      .ok (s, c, some (3 + nameLen + passLen))
    | .ok (s, some f) => .ok (s, c.setFuture .auth (some f), some (3 + nameLen + passLen))

/-- The target of a request and the offset behind it: nothing, if bytes are missing; no
    target, for another type of address. -/
def readS5Target (data : Bytes) : Option (Option Target × ℕ) :=
  let addrType := data.getD 3 0
  let port (i : ℕ) := 256 * (data.getD i 0).toNat + (data.getD (i + 1) 0).toNat
  -- The ten bytes of a request for an IPv4 address have been checked for before.
  if addrType = 1 then
    some (some (.address { type := .ipv4, bytes := (data.drop 4).take 4, port := port 8 }), 10)
  else if addrType = 4 then
    if data.length < 4 + 16 + 2 then none
    else
      some (some (.address { type := .ipv6, bytes := (data.drop 4).take 16, port := port 20 }), 22)
  else if addrType = 3 then
    let n := (data.getD 4 0).toNat
    if data.length < 4 + 1 + n + 2 then none
    else some (some (.hostname ((data.drop 5).take n) (port (5 + n))), 4 + 1 + n + 2)
  else some (none, 4)

/-- The local ip to bind the UDP channel to, if the request asks for its family. -/
def udpBindAddress (c : ClientConnection) (addrType : UInt8) : NetAddress :=
  let bindIp := c.localAddress.ip
  if addrType = 1 ∧ bindIp.is4 ∨ addrType = 4 ∧ bindIp.is6 then bindIp else {}

/-- The request for a UDP channel in `OnS5Target`, whose end is at `offset`. -/
def onS5UdpTarget (s : ProxyAccessService σ) (c : ClientConnection) (addrType : UInt8)
    (offset : ℕ) : ProxyAccessService σ × ClientConnection × Option ℕ :=
  let refuse (s : ProxyAccessService σ) (c : ClientConnection) :=
    let (s, c) := post P s c .reply s5UdpChannelGenericError
    (s, c, some 0)
  let bindAddress := udpBindAddress c addrType
  if !c.enableUdpTarget then refuse s c
  else if !bindAddress.isSet then refuse s c
  else
    -- No bound address here is the failure of `Init`, which gives the channel back.
    let bound := P.bindUdp s.calls.length bindAddress
    let udpChannel : ClientUdpChannel :=
      { bindAddress := bound.getD {}
        parentConnection := c.connectionId
        clientIpCheckAddress := c.remoteAddress.ip }
    match s.clientUdpChannelPool.acquire fun _ => udpChannel with
    | none => refuse s c
    | some (u, p) =>
      if bound.isNone then refuse { s with clientUdpChannelPool := p.release u } c
      else
        let s := { s with clientUdpChannelPool := p }
        let c := { c with bindUdpChannel := some u }
        match requestDeviceUdpChannel S s c u with
        | (s, none) => refuse s (c.setFuture .acquireDeviceUdpChannel none)
        | (s, some f) =>
          (s, { c.setFuture .acquireDeviceUdpChannel (some f) with type := .s5Udp }, some offset)

/-- `OnS5Target`. -/
def onS5Target (s : ProxyAccessService σ) (c : ClientConnection) (data : Bytes) :
    Except Fault (ProxyAccessService σ × ClientConnection × Option ℕ) :=
  let invalid := { s with audit := { s.audit with
    invalidS5Target := s.audit.invalidS5Target + 1 } }
  if data.length < 10 then .ok (s, c, some 0)
  else if 6 + 256 ≤ data.length then .ok (invalid, c, none)
  else if data.getD 0 0 ≠ 5 ∨ data.getD 2 0 ≠ 0 then .ok (invalid, c, none)
  else match readS5Target data with
    | none => .ok (s, c, some 0)
    | some (target, offset) =>
      let c := { c with dataProcessor := .killConnectionOnData }
      if data.getD 1 0 = 1 then
        match target with
        | some target => match requestDeviceConnection S P s c target with
          | (s, none) =>
            let (s, c) := post P s (c.setFuture .acquireDeviceConnection none) .reply
              s5ConnectionGenericError
            .ok (s, c, some 0)
          | (s, some f) =>
            .ok (s, { c.setFuture .acquireDeviceConnection (some f) with type := .s5Tcp },
              some offset)
        -- `ReleaseAcquireDeviceConnectionFuture` follows the future, which there is none yet.
        | none => match c.futures .acquireDeviceConnection with
          | none => .error .nullPointer
          | some f =>
            let s := s.setFutureManager .acquireDeviceConnection
              ((s.futureManager .acquireDeviceConnection).releaseFuture f)
            let (s, c) := post P s (c.setFuture .acquireDeviceConnection none) .reply
              s5ConnectionGenericError
            .ok (s, c, some 0)
      else if data.getD 1 0 = 3 then .ok (onS5UdpTarget S P s c (data.getD 3 0) offset)
      else
        let (s, c) := post P s c .reply ([5, 1, 0] ++ (data.drop 3).take (offset - 3))
        .ok (s, c, some 0)

end ProxyPlatform.ProxyAccessService
