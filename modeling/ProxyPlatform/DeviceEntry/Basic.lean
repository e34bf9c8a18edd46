import ProxyPlatform.Base.Run
import ProxyPlatform.Base.Linked
import ProxyPlatform.Common
import Mathlib.Logic.Function.Basic

/-!
# The device entry: state and events

A device asks the device entry for a relay of its country. The relays make themselves
known by heartbeats, which are broadcast to the device entry:

* `xRelayInfoObserver` files the relays of which there are heartbeats, each in the slot its
  id determines, and forgets those that are lost or silent. It calls back when a relay
  appears or is dropped (`RelayCallbacks`);
* `xDE_LocalRelayInfoManager` lists the relays by country, and picks one in turn;
* `DeviceEntry` is the service, in which the callbacks of the one are calls of the other.

What is not in the repository is a parameter: the slot of a relay id
(`xIndexId::GetIndex`) is `extractIndex`, the country of an address what the region service
says, and `hexToStr` decodes hexadecimal digits.
-/

namespace ProxyPlatform

def maxRelayServerListSize : ℕ := 200000
def relayHeartbeatIntervalMS : ℕ := 300000
def relayHeartbeatTimeoutMS : ℕ := relayHeartbeatIntervalMS + 60000
def clientChallengeRetryTimeoutMS : ℕ := 600000

/-! ## The relays of a country -/

/-- `xDE_LocalRelayInfoBase`. -/
structure LocalRelayInfoBase where
  serverId : ℕ := 0
  exportDeviceEntryAddress : NetAddress := {}
  deriving DecidableEq

/-- The lists of the relays: two for each country. -/
inductive RelayList
  | v4 (countryId : ℕ)
  | v6 (countryId : ℕ)
  deriving DecidableEq

/-- `xDE_LocalRelayInfoManager`. -/
structure LocalRelayInfoManager where
  fullRelayInfoList : ℕ → LocalRelayInfoBase := fun _ => {}
  relayInfoListByCountry : Linked RelayList := .empty
  /-- The country of an address. -/
  regionService : Option (NetAddress → Option ℕ) := none
  invalidRelayServerAddress : ℕ := 0

namespace LocalRelayInfoManager

/-- The end of `UpdateRelayServerInfo`: the relay at `index` goes to a list of its country. -/
def addToCountry (m : LocalRelayInfoManager) (index : ℕ) (serverInfo : LocalRelayInfoBase) :
    LocalRelayInfoManager :=
  match m.regionService with
  | none => m
  | some getRegion => match getRegion serverInfo.exportDeviceEntryAddress with
    | none => m
    | some countryId =>
      if serverInfo.exportDeviceEntryAddress.is4 then
        { m with relayInfoListByCountry := m.relayInfoListByCountry.grabTail (.v4 countryId) index }
      else if serverInfo.exportDeviceEntryAddress.is6 then
        -- The list is `V4` here, too.
        { m with relayInfoListByCountry := m.relayInfoListByCountry.grabTail (.v4 countryId) index }
      else { m with invalidRelayServerAddress := m.invalidRelayServerAddress + 1 }

variable (extractIndex : ℕ → ℕ)

/-- `UpdateRelayServerInfo`. -/
def updateRelayServerInfo (m : LocalRelayInfoManager) (serverInfo : LocalRelayInfoBase) :
    LocalRelayInfoManager :=
  let index := extractIndex serverInfo.serverId
  if maxRelayServerListSize ≤ index then m
  else if m.fullRelayInfoList index = serverInfo then m
  else
    addToCountry
      { m with
        relayInfoListByCountry := m.relayInfoListByCountry.unlink index
        fullRelayInfoList := Function.update m.fullRelayInfoList index serverInfo }
      index serverInfo

/-- `RemoveRelayServerInfo`. -/
def removeRelayServerInfo (m : LocalRelayInfoManager) (serverId : ℕ) : LocalRelayInfoManager :=
  let index := extractIndex serverId
  if maxRelayServerListSize ≤ index then m
  else if (m.fullRelayInfoList index).serverId ≠ serverId then m
  else
    { m with
      relayInfoListByCountry := m.relayInfoListByCountry.unlink index
      fullRelayInfoList := Function.update m.fullRelayInfoList index {} }

/-- `GetRelayServerByDeviceIp`. -/
def getRelayServerByDeviceIp (m : LocalRelayInfoManager) (deviceAddress : NetAddress) :
    Except Fault (NetAddress × LocalRelayInfoManager) :=
  match m.regionService with
  | none => .error .nullPointer
  | some getRegion => match getRegion deviceAddress with
    | none => .ok ({}, m)
    | some countryId =>
      let list := if deviceAddress.is4 then .v4 countryId else .v6 countryId
      match m.relayInfoListByCountry.popHead list with
      | none => .ok ({}, m)
      | some (first, lists) =>
        .ok ((m.fullRelayInfoList first).exportDeviceEntryAddress,
          { m with relayInfoListByCountry := lists.grabTail list first })

end LocalRelayInfoManager

/-! ## The observer -/

/-- `xRelayInfoObserver::xLocalRelayInfo`. -/
structure LocalRelayInfo where
  serverId : ℕ := 0
  exportDeviceEntryAddress : NetAddress := {}
  exportProxyEntryAddress : NetAddress := {}
  deriving DecidableEq

/-- `xRelayInfoObserver::xInternalLocalRelayInfo`. -/
structure InternalLocalRelayInfo extends LocalRelayInfo where
  lastKeepAliveTimestampMS : ℕ := 0

/-- The members of `xPP_RelayInfoBroadcast` that are read. -/
structure PPRelayInfoBroadcast where
  serverId : ℕ
  exportDeviceEntryAddress : NetAddress
  exportProxyEntryAddress : NetAddress

/-- A packet of a relay dispatcher, by its command, with what it is decoded to: nothing, where it
    is malformed. -/
inductive RelayPacket
  | heartbeatBroadcast (b : Option PPRelayInfoBroadcast)
  | heartbeatLost (serverId : Option ℕ)
  | other

/-- `xRelayInfoObserver`. -/
structure RelayInfoObserver where
  localTicker : ℕ
  relayServerList : ℕ → InternalLocalRelayInfo := fun _ => {}
  relayInfoTimeoutList : Linked Unit := .empty

/-- The callbacks of the observer, on the state `σ` of those who set them. -/
structure RelayCallbacks (σ : Type*) where
  onRelayUpdated : σ → LocalRelayInfo → σ
  onRelayDropped : σ → LocalRelayInfo → σ

namespace RelayInfoObserver

variable {σ : Type*} (extractIndex : ℕ → ℕ) (callbacks : RelayCallbacks σ)

/-- `KeepAlive`, for the relay in the slot `index`. -/
def keepAlive (o : RelayInfoObserver) (index : ℕ) : RelayInfoObserver :=
  { o with
    relayServerList := Function.update o.relayServerList index
      { o.relayServerList index with lastKeepAliveTimestampMS := o.localTicker }
    relayInfoTimeoutList := o.relayInfoTimeoutList.grabTail () index }

/-- `Kill`. -/
def kill (s : RelayInfoObserver × σ) (index : ℕ) : RelayInfoObserver × σ :=
  let relayInfo := s.1.relayServerList index
  ({ s.1 with
      relayInfoTimeoutList := s.1.relayInfoTimeoutList.unlink index
      relayServerList := Function.update s.1.relayServerList index { relayInfo with serverId := 0 } },
    callbacks.onRelayDropped s.2 relayInfo.toLocalRelayInfo)

/-- A relay is put into the slot `index`, and made known. -/
def announce (s : RelayInfoObserver × σ) (index : ℕ) (b : PPRelayInfoBroadcast) :
    RelayInfoObserver × σ :=
  let relayInfo : LocalRelayInfo :=
    { serverId := b.serverId
      exportDeviceEntryAddress := b.exportDeviceEntryAddress
      exportProxyEntryAddress := b.exportProxyEntryAddress }
  ({ s.1 with
      relayServerList := Function.update s.1.relayServerList index
        { relayInfo with lastKeepAliveTimestampMS := s.1.localTicker }
      relayInfoTimeoutList := s.1.relayInfoTimeoutList.grabTail () index },
    callbacks.onRelayUpdated s.2 relayInfo)

/-- `OnPacket`: the next state, and whether the connection is kept. -/
def onPacket (s : RelayInfoObserver × σ) : RelayPacket → (RelayInfoObserver × σ) × Bool
  | .heartbeatBroadcast none => (s, false)
  | .heartbeatBroadcast (some b) =>
    let index := extractIndex b.serverId
    let relayInfo := s.1.relayServerList index
    if b.serverId = 0 then (s, false)
    else if maxRelayServerListSize ≤ index then (s, false)
    else if relayInfo.serverId ≠ b.serverId ∨
        relayInfo.exportDeviceEntryAddress ≠ b.exportDeviceEntryAddress ∨
        relayInfo.exportProxyEntryAddress ≠ b.exportProxyEntryAddress then
      -- A relay that moved, or another one in the slot, is dropped first.
      (announce callbacks (if relayInfo.serverId ≠ 0 then kill callbacks s index else s) index b, true)
    else ((s.1.keepAlive index, s.2), true)
  | .heartbeatLost none => (s, false)
  | .heartbeatLost (some serverId) =>
    let index := extractIndex serverId
    if serverId = 0 then (s, false)
    else if maxRelayServerListSize ≤ index then (s, false)
    else if (s.1.relayServerList index).serverId = serverId then (kill callbacks s index, true)
    else (s, true)
  | .other => (s, true)

/-- The loop of `RemoveTimeoutRelayInfo`, which the heads of the list leave one by one; `n` bounds
    their number. -/
def removeTimeoutLoop (killTimepoint : ℕ) : ℕ → RelayInfoObserver × σ → RelayInfoObserver × σ
  | 0, s => s
  | n + 1, s => match s.1.relayInfoTimeoutList.nodes () with
    | [] => s
    | index :: _ =>
      if (s.1.relayServerList index).lastKeepAliveTimestampMS ≤ killTimepoint then
        removeTimeoutLoop killTimepoint n (kill callbacks s index)
      else s

/-- `RemoveTimeoutRelayInfo`. -/
def removeTimeoutRelayInfo (s : RelayInfoObserver × σ) : RelayInfoObserver × σ :=
  removeTimeoutLoop callbacks (sub64 s.1.localTicker relayHeartbeatTimeoutMS)
    (s.1.relayInfoTimeoutList.nodes ()).length s

/-- `Tick`, in which the TCP clients deliver `packets`. -/
def tick (s : RelayInfoObserver × σ) (nowMS : ℕ) (packets : List RelayPacket) :
    RelayInfoObserver × σ :=
  removeTimeoutRelayInfo callbacks
    (packets.foldl (fun s p => (onPacket extractIndex callbacks s p).1)
      ({ s.1 with localTicker := nowMS }, s.2))

end RelayInfoObserver

/-! ## The service -/

/-- A call of one of the callbacks of the observer. -/
inductive RelayCall
  | updated (relayInfo : LocalRelayInfo)
  | dropped (relayInfo : LocalRelayInfo)
  deriving DecidableEq

/-- The relay a call is about. -/
def RelayCall.relayInfo : RelayCall → LocalRelayInfo
  | .updated relayInfo | .dropped relayInfo => relayInfo

/-- The relay table of the device entry, with the calls of the callbacks made so far. -/
structure RelayTable where
  localRelayInfoManager : LocalRelayInfoManager
  calls : List RelayCall := []

/-- `DeviceEntry`: the observer and the relay table. -/
abbrev DeviceEntry := RelayInfoObserver × RelayTable

/-- The members of `xPP_DeviceChallenge` that are read. -/
structure PPDeviceChallenge where
  addressKey4 : Bytes
  addressKey6 : Bytes

/-- The members of `xPP_DeviceChallengeResp` that are set. -/
structure PPDeviceChallengeResp where
  accepted : Bool := false
  relayAddress : NetAddress := {}
  banVersionTimeMS : ℕ := 0

/-- What happens to the device entry. -/
inductive DeviceEntryEvent
  | packet (p : RelayPacket)
  | tick (nowMS : ℕ) (packets : List RelayPacket)
  | challenge (req : Option PPDeviceChallenge)

namespace DeviceEntry

variable (extractIndex : ℕ → ℕ) (hexToStr : Bytes → Bytes)

/-- `DecryptAddressKey`: every byte of the address is one of the key, masked by the one before. -/
def decryptAddressKey (view : Bytes) : NetAddress :=
  let origin := hexToStr view
  let address := List.zipWith (· ^^^ ·) origin origin.tail
  if origin.length = 5 then { type := .ipv4, bytes := address }
  else if origin.length = 17 then { type := .ipv6, bytes := address }
  else {}

/-- The callbacks the device entry sets. -/
def relayCallbacks : RelayCallbacks RelayTable where
  onRelayUpdated t relayInfo :=
    { localRelayInfoManager := t.localRelayInfoManager.updateRelayServerInfo extractIndex
        { serverId := relayInfo.serverId
          exportDeviceEntryAddress := relayInfo.exportDeviceEntryAddress }
      calls := t.calls ++ [.updated relayInfo] }
  onRelayDropped t relayInfo :=
    { localRelayInfoManager :=
        t.localRelayInfoManager.removeRelayServerInfo extractIndex relayInfo.serverId
      calls := t.calls ++ [.dropped relayInfo] }

/-- The handler of `Cmd_DV_CC_Challenge`: what is answered, if anything is. -/
def onDeviceChallenge (m : LocalRelayInfoManager) (req : Option PPDeviceChallenge) :
    Except Fault (Option PPDeviceChallengeResp × LocalRelayInfoManager) :=
  match req with
  | none => .ok (none, m)
  | some req =>
    let deviceAddress :=
      -- The second key is looked at only if there is no first one.
      if req.addressKey4 ≠ [] then decryptAddressKey hexToStr req.addressKey4
      else if req.addressKey6 ≠ [] then decryptAddressKey hexToStr req.addressKey6
      else {}
    if deviceAddress.isSet then
      match m.getRelayServerByDeviceIp deviceAddress with
      | .error x => .error x
      | .ok (relayAddress, m) =>
        if relayAddress.isSet then .ok (some { accepted := true, relayAddress := relayAddress }, m)
        else .ok (some { banVersionTimeMS := clientChallengeRetryTimeoutMS }, m)
    else .ok (none, m)

/-- The device entry when it starts, at the time `nowMS`. -/
def init (nowMS : ℕ) (getRegion : NetAddress → Option ℕ) : DeviceEntry :=
  ({ localTicker := nowMS }, { localRelayInfoManager := { regionService := some getRegion } })

/-- One event. -/
def step (s : DeviceEntry) : DeviceEntryEvent → Except Fault DeviceEntry
  | .packet p =>
    .ok (RelayInfoObserver.onPacket extractIndex (relayCallbacks extractIndex) s p).1
  | .tick nowMS packets =>
    .ok (RelayInfoObserver.tick extractIndex (relayCallbacks extractIndex) s nowMS packets)
  | .challenge req => match onDeviceChallenge hexToStr s.2.localRelayInfoManager req with
    | .error x => .error x
    | .ok (_, m) => .ok (s.1, { s.2 with localRelayInfoManager := m })

end DeviceEntry

end ProxyPlatform
