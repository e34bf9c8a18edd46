import ProxyPlatform.Base.Bytes
import ProxyPlatform.ServerList.Checksum

/-!
# Messages of the control plane

The messages that relay servers, dispatchers, devices and the backend exchange. Most of
them are a list of members, written and read in one order. Three do more:

* `xPP_TargetCollect` computes a hash while it is written, which is not sent;
* `xPPB_BackendAuthByUserPassResp` has its members sent only when there is no error;
* `xPP_RelayDispatcherSlaveRegister` is sent with a hash of its timestamp, which the reader
  compares with its own.

`controlMessage_readsBack`: each message reads back what was written, and takes all of it;
and a registration is accepted only with the hash of its timestamp
(`PPRelayDispatcherSlaveRegister.hash_of_accepted`).

The primitives of the stream are a parameter, with their law (`Primitive.read_write`). So is
the type of a server group, whose width the repository leaves to its library.
-/

namespace ProxyPlatform

namespace ControlPlane

/-- An `xNetAddress`: its bytes are those of its family. -/
abbrev SocketAddress := { address : NetAddress // address.WellFormed }

/-- The primitives of the stream, for the types of the members. -/
structure StreamPrimitives (Group : Type) extends NumberPrimitives where
  bool : Primitive Bool
  group : Primitive Group
  address : Primitive SocketAddress
  /-- `std::string_view`. -/
  view : Primitive Bytes
  /-- `std::string`. -/
  string : Primitive Bytes

/-- `xPP_RelayRegister`. -/
structure PPRelayRegister (Group : Type) where
  relayServerType : Group
  exportDeviceEntryAddress : SocketAddress
  exportProxyEntryAddress : SocketAddress

/-- `xPP_RelayInfoBroadcast`. -/
structure PPRelayInfoBroadcast (Group : Type) where
  type : Group
  serverId : UInt64
  exportDeviceEntryAddress : SocketAddress
  exportProxyEntryAddress : SocketAddress

/-- `xPP_RelayInfoLost`. -/
structure PPRelayInfoLost where
  serverId : UInt64

/-- `xPP_DeviceChallenge`. -/
structure PPDeviceChallenge where
  version : UInt32
  channelId : UInt32
  timestamp : UInt64
  addressKey4 : Bytes
  addressKey6 : Bytes
  sign : Bytes

/-- `xPP_DeviceChallengeResp`. -/
structure PPDeviceChallengeResp where
  accepted : Bool
  relayAddress : SocketAddress
  relayCheckKey : Bytes
  banVersionTimeMS : UInt64

/-- `xPPB_TargetCollect`. -/
structure PPBTargetCollect where
  timeMs : UInt64
  auditId : UInt64
  domain : Bytes
  ipAddress : SocketAddress
  port : UInt32
  timePeriodMs : UInt64
  totalRequestCount : UInt64

/-- `xPP_TargetCollect`. -/
structure PPTargetCollect where
  globalAuthId : UInt64
  targetAddress : SocketAddress
  targetHostView : Bytes
  startTimestampMS : UInt64
  periodMS : UInt64
  count : UInt64
  hash : UInt32

/-- `xPPB_BackendAuthByUserPassResp`. -/
structure PPBBackendAuthByUserPassResp where
  errorCode : UInt32
  typeFlags : UInt16
  authId : UInt64
  continentId : UInt16
  countryId : UInt32
  stateId : UInt32
  cityId : UInt32
  duration : UInt32
  random : UInt32
  autoChangeIpOnDeviceOffline : Bool
  enableUdp : Bool
  ipv6Prefered : Bool
  poolFlags : Bytes
  serverToken : Bytes
  exportIp : SocketAddress
  redirect : Bytes
  authIdForThirdPartyResource : UInt32

/-- `xPP_RelayDispatcherSlaveRegister`. -/
structure PPRelayDispatcherSlaveRegister where
  timestampMS : UInt64

variable {Group : Type} (X : StreamPrimitives Group)

namespace PPRelayRegister

def serializeMembers : List (Access (PPRelayRegister Group)) :=
  [.W X.group relayServerType,
    .W X.address exportDeviceEntryAddress,
    .W X.address exportProxyEntryAddress]

def deserializeMembers : List (Access (PPRelayRegister Group)) :=
  [.R X.group fun v m => { m with relayServerType := v },
    .R X.address fun v m => { m with exportDeviceEntryAddress := v },
    .R X.address fun v m => { m with exportProxyEntryAddress := v }]

/-- The members, in the order they are written and read. -/
def members : List (Member (PPRelayRegister Group)) :=
  [⟨_, X.group, relayServerType, fun v m => { m with relayServerType := v }⟩,
    ⟨_, X.address, exportDeviceEntryAddress, fun v m => { m with exportDeviceEntryAddress := v }⟩,
    ⟨_, X.address, exportProxyEntryAddress, fun v m => { m with exportProxyEntryAddress := v }⟩]

theorem roundTrips (m : PPRelayRegister Group) :
    RoundTrips (serializeMembers X) (deserializeMembers X) m :=
  roundTrips_of_members (members X) (fun _ _ => rfl) m

end PPRelayRegister

namespace PPRelayInfoBroadcast

def serializeMembers : List (Access (PPRelayInfoBroadcast Group)) :=
  [.W X.group type,
    .W X.u64 serverId,
    .W X.address exportDeviceEntryAddress,
    .W X.address exportProxyEntryAddress]

def deserializeMembers : List (Access (PPRelayInfoBroadcast Group)) :=
  [.R X.group fun v m => { m with type := v },
    .R X.u64 fun v m => { m with serverId := v },
    .R X.address fun v m => { m with exportDeviceEntryAddress := v },
    .R X.address fun v m => { m with exportProxyEntryAddress := v }]

/-- The members, in the order they are written and read. -/
def members : List (Member (PPRelayInfoBroadcast Group)) :=
  [⟨_, X.group, type, fun v m => { m with type := v }⟩,
    ⟨_, X.u64, serverId, fun v m => { m with serverId := v }⟩,
    ⟨_, X.address, exportDeviceEntryAddress, fun v m => { m with exportDeviceEntryAddress := v }⟩,
    ⟨_, X.address, exportProxyEntryAddress, fun v m => { m with exportProxyEntryAddress := v }⟩]

theorem roundTrips (m : PPRelayInfoBroadcast Group) :
    RoundTrips (serializeMembers X) (deserializeMembers X) m :=
  roundTrips_of_members (members X) (fun _ _ => rfl) m

end PPRelayInfoBroadcast

namespace PPRelayInfoLost

def serializeMembers : List (Access (PPRelayInfoLost)) :=
  [.W X.u64 serverId]

def deserializeMembers : List (Access (PPRelayInfoLost)) :=
  [.R X.u64 fun v m => { m with serverId := v }]

/-- The members, in the order they are written and read. -/
def members : List (Member (PPRelayInfoLost)) :=
  [⟨_, X.u64, serverId, fun v m => { m with serverId := v }⟩]

theorem roundTrips (m : PPRelayInfoLost) :
    RoundTrips (serializeMembers X) (deserializeMembers X) m :=
  roundTrips_of_members (members X) (fun _ _ => rfl) m

end PPRelayInfoLost

namespace PPDeviceChallenge

def serializeMembers : List (Access (PPDeviceChallenge)) :=
  [.W X.u32 version,
    .W X.u32 channelId,
    .W X.u64 timestamp,
    .W X.view addressKey4,
    .W X.view addressKey6,
    .W X.view sign]

def deserializeMembers : List (Access (PPDeviceChallenge)) :=
  [.R X.u32 fun v m => { m with version := v },
    .R X.u32 fun v m => { m with channelId := v },
    .R X.u64 fun v m => { m with timestamp := v },
    .R X.view fun v m => { m with addressKey4 := v },
    .R X.view fun v m => { m with addressKey6 := v },
    .R X.view fun v m => { m with sign := v }]

/-- The members, in the order they are written and read. -/
def members : List (Member (PPDeviceChallenge)) :=
  [⟨_, X.u32, version, fun v m => { m with version := v }⟩,
    ⟨_, X.u32, channelId, fun v m => { m with channelId := v }⟩,
    ⟨_, X.u64, timestamp, fun v m => { m with timestamp := v }⟩,
    ⟨_, X.view, addressKey4, fun v m => { m with addressKey4 := v }⟩,
    ⟨_, X.view, addressKey6, fun v m => { m with addressKey6 := v }⟩,
    ⟨_, X.view, sign, fun v m => { m with sign := v }⟩]

theorem roundTrips (m : PPDeviceChallenge) :
    RoundTrips (serializeMembers X) (deserializeMembers X) m :=
  roundTrips_of_members (members X) (fun _ _ => rfl) m

end PPDeviceChallenge

namespace PPDeviceChallengeResp

def serializeMembers : List (Access (PPDeviceChallengeResp)) :=
  [.W X.bool accepted,
    .W X.address relayAddress,
    .W X.view relayCheckKey,
    .W X.u64 banVersionTimeMS]

def deserializeMembers : List (Access (PPDeviceChallengeResp)) :=
  [.R X.bool fun v m => { m with accepted := v },
    .R X.address fun v m => { m with relayAddress := v },
    .R X.view fun v m => { m with relayCheckKey := v },
    .R X.u64 fun v m => { m with banVersionTimeMS := v }]

/-- The members, in the order they are written and read. -/
def members : List (Member (PPDeviceChallengeResp)) :=
  [⟨_, X.bool, accepted, fun v m => { m with accepted := v }⟩,
    ⟨_, X.address, relayAddress, fun v m => { m with relayAddress := v }⟩,
    ⟨_, X.view, relayCheckKey, fun v m => { m with relayCheckKey := v }⟩,
    ⟨_, X.u64, banVersionTimeMS, fun v m => { m with banVersionTimeMS := v }⟩]

theorem roundTrips (m : PPDeviceChallengeResp) :
    RoundTrips (serializeMembers X) (deserializeMembers X) m :=
  roundTrips_of_members (members X) (fun _ _ => rfl) m

end PPDeviceChallengeResp

namespace PPBTargetCollect

def serializeMembers : List (Access (PPBTargetCollect)) :=
  [.W X.u64 timeMs,
    .W X.u64 auditId,
    .W X.view domain,
    .W X.address ipAddress,
    .W X.u32 port,
    .W X.u64 timePeriodMs,
    .W X.u64 totalRequestCount]

def deserializeMembers : List (Access (PPBTargetCollect)) :=
  [.R X.u64 fun v m => { m with timeMs := v },
    .R X.u64 fun v m => { m with auditId := v },
    .R X.view fun v m => { m with domain := v },
    .R X.address fun v m => { m with ipAddress := v },
    .R X.u32 fun v m => { m with port := v },
    .R X.u64 fun v m => { m with timePeriodMs := v },
    .R X.u64 fun v m => { m with totalRequestCount := v }]

/-- The members, in the order they are written and read. -/
def members : List (Member (PPBTargetCollect)) :=
  [⟨_, X.u64, timeMs, fun v m => { m with timeMs := v }⟩,
    ⟨_, X.u64, auditId, fun v m => { m with auditId := v }⟩,
    ⟨_, X.view, domain, fun v m => { m with domain := v }⟩,
    ⟨_, X.address, ipAddress, fun v m => { m with ipAddress := v }⟩,
    ⟨_, X.u32, port, fun v m => { m with port := v }⟩,
    ⟨_, X.u64, timePeriodMs, fun v m => { m with timePeriodMs := v }⟩,
    ⟨_, X.u64, totalRequestCount, fun v m => { m with totalRequestCount := v }⟩]

theorem roundTrips (m : PPBTargetCollect) :
    RoundTrips (serializeMembers X) (deserializeMembers X) m :=
  roundTrips_of_members (members X) (fun _ _ => rfl) m

end PPBTargetCollect

namespace PPTargetCollect

/-- `SerializeMembers`: the hash (`std::hash`) of the bytes of the first three members is computed
    once they are written, and kept. -/
def serializeMembers (hashOf : Bytes → UInt32) (p : PPTargetCollect × BinaryStream) :
    Except StreamError (PPTargetCollect × BinaryStream) := do
  let (m, s) ← exec Access.step ({ p.1 with hash := 0 }, p.2)
    [.W X.u64 globalAuthId,
      .W X.address targetAddress,
      .W X.view targetHostView]
  let bytes := match p.2, s with
    | .writer start, .writer written => written.drop start.length
    | _, _ => []
  exec Access.step ({ m with hash := hashOf bytes }, s)
    [.W X.u64 startTimestampMS,
      .W X.u64 periodMS,
      .W X.u64 count]

def deserializeMembers (p : PPTargetCollect × BinaryStream) :
    Except StreamError (PPTargetCollect × BinaryStream) := do
  let (m, s) ← exec Access.step p
    [.R X.u64 fun v m => { m with globalAuthId := v },
      .R X.address fun v m => { m with targetAddress := v },
      .R X.view fun v m => { m with targetHostView := v },
      .R X.u64 fun v m => { m with startTimestampMS := v },
      .R X.u64 fun v m => { m with periodMS := v },
      .R X.u64 fun v m => { m with count := v }]
  return ({ m with hash := 0 }, s)

/-- All members but the hash are read back. -/
theorem readsBack (hashOf : Bytes → UInt32) (m : PPTargetCollect) :
    ReadsBack (serializeMembers X hashOf) (deserializeMembers X)
      (fun m _ m₁ => m₁ = { m with hash := 0 }) m := by
  refine ⟨_, _, rfl, fun m₀ rest => ⟨_, ?_, rfl⟩⟩
  simp only [deserializeMembers, exec, Access.step, List.append_assoc, List.nil_append,
    Primitive.read_write]
  rfl

end PPTargetCollect

namespace PPBBackendAuthByUserPassResp

/-- The members that are sent when there is no error. -/
def writeResult : List (Access PPBBackendAuthByUserPassResp) :=
  [.W X.u16 typeFlags,
    .W X.u64 authId,
    .W X.u16 continentId,
    .W X.u32 countryId,
    .W X.u32 stateId,
    .W X.u32 cityId,
    .W X.u32 duration,
    .W X.u32 random,
    .W X.bool autoChangeIpOnDeviceOffline,
    .W X.bool enableUdp,
    .W X.bool ipv6Prefered,
    .W X.string poolFlags,
    .W X.string serverToken,
    .W X.address exportIp,
    .W X.string redirect,
    .W X.u32 authIdForThirdPartyResource]

def readResult : List (Access PPBBackendAuthByUserPassResp) :=
  [.R X.u16 fun v m => { m with typeFlags := v },
    .R X.u64 fun v m => { m with authId := v },
    .R X.u16 fun v m => { m with continentId := v },
    .R X.u32 fun v m => { m with countryId := v },
    .R X.u32 fun v m => { m with stateId := v },
    .R X.u32 fun v m => { m with cityId := v },
    .R X.u32 fun v m => { m with duration := v },
    .R X.u32 fun v m => { m with random := v },
    .R X.bool fun v m => { m with autoChangeIpOnDeviceOffline := v },
    .R X.bool fun v m => { m with enableUdp := v },
    .R X.bool fun v m => { m with ipv6Prefered := v },
    .R X.string fun v m => { m with poolFlags := v },
    .R X.string fun v m => { m with serverToken := v },
    .R X.address fun v m => { m with exportIp := v },
    .R X.string fun v m => { m with redirect := v },
    .R X.u32 fun v m => { m with authIdForThirdPartyResource := v }]

def serializeMembers (p : PPBBackendAuthByUserPassResp × BinaryStream) :
    Except StreamError (PPBBackendAuthByUserPassResp × BinaryStream) := do
  let (m, s) ← exec Access.step p [.W X.u32 errorCode]
  if m.errorCode = 0 then exec Access.step (m, s) (writeResult X) else return (m, s)

def deserializeMembers (p : PPBBackendAuthByUserPassResp × BinaryStream) :
    Except StreamError (PPBBackendAuthByUserPassResp × BinaryStream) := do
  let (m, s) ← exec Access.step p [.R X.u32 fun v m => { m with errorCode := v }]
  if m.errorCode = 0 then exec Access.step (m, s) (readResult X) else return (m, s)

/-- The members of a result, in the order they are written and read. -/
def members : List (Member PPBBackendAuthByUserPassResp) :=
  [⟨_, X.u16, typeFlags, fun v m => { m with typeFlags := v }⟩,
    ⟨_, X.u64, authId, fun v m => { m with authId := v }⟩,
    ⟨_, X.u16, continentId, fun v m => { m with continentId := v }⟩,
    ⟨_, X.u32, countryId, fun v m => { m with countryId := v }⟩,
    ⟨_, X.u32, stateId, fun v m => { m with stateId := v }⟩,
    ⟨_, X.u32, cityId, fun v m => { m with cityId := v }⟩,
    ⟨_, X.u32, duration, fun v m => { m with duration := v }⟩,
    ⟨_, X.u32, random, fun v m => { m with random := v }⟩,
    ⟨_, X.bool, autoChangeIpOnDeviceOffline, fun v m => { m with autoChangeIpOnDeviceOffline := v }⟩,
    ⟨_, X.bool, enableUdp, fun v m => { m with enableUdp := v }⟩,
    ⟨_, X.bool, ipv6Prefered, fun v m => { m with ipv6Prefered := v }⟩,
    ⟨_, X.string, poolFlags, fun v m => { m with poolFlags := v }⟩,
    ⟨_, X.string, serverToken, fun v m => { m with serverToken := v }⟩,
    ⟨_, X.address, exportIp, fun v m => { m with exportIp := v }⟩,
    ⟨_, X.string, redirect, fun v m => { m with redirect := v }⟩,
    ⟨_, X.u32, authIdForThirdPartyResource, fun v m => { m with authIdForThirdPartyResource := v }⟩]

/-- All members are read back when there is no error, and only the error otherwise. -/
theorem readsBack (m : PPBBackendAuthByUserPassResp) :
    ReadsBack (serializeMembers X) (deserializeMembers X)
      (fun m m₀ m₁ => (m.errorCode = 0 → m₁ = m) ∧
        (m.errorCode ≠ 0 → m₁ = { m₀ with errorCode := m.errorCode })) m := by
  have hwrite : exec Access.step (m, .writer []) [.W X.u32 errorCode] =
      .ok (m, .writer (X.u32.write m.errorCode)) := rfl
  have hread (m₀ : PPBBackendAuthByUserPassResp) (rest : Bytes) :
      exec Access.step (m₀, .reader (X.u32.write m.errorCode ++ rest))
        [.R X.u32 fun v m => { m with errorCode := v }] =
      .ok ({ m₀ with errorCode := m.errorCode }, .reader rest) := by
    simp only [exec, Access.step, Primitive.read_write]
  by_cases herror : m.errorCode = 0
  · refine ⟨m, X.u32.write m.errorCode ++ Member.bytes (members X) m, ?_, fun m₀ rest =>
      ⟨m, ?_, fun _ => rfl, fun hne => absurd herror hne⟩⟩
    · rw [serializeMembers, hwrite, ok_bind]
      dsimp only
      rw [if_pos herror]
      exact Member.exec_W (members X) m _
    · rw [deserializeMembers, List.append_assoc, hread, ok_bind]
      dsimp only
      rw [if_pos herror]
      exact Member.exec_R (members X) m _ rest
  · refine ⟨m, X.u32.write m.errorCode, ?_, fun m₀ rest =>
      ⟨_, ?_, fun h0 => absurd h0 herror, fun _ => rfl⟩⟩
    · rw [serializeMembers, hwrite, ok_bind]
      dsimp only
      rw [if_neg herror]
      rfl
    · rw [deserializeMembers, hread, ok_bind]
      dsimp only
      rw [if_neg herror]
      rfl

end PPBBackendAuthByUserPassResp

namespace PPRelayDispatcherSlaveRegister

/-- `%" PRIu64 "`. -/
def decimal (n : UInt64) : Bytes := (Nat.toDigits 10 n.toNat).map fun c => UInt8.ofNat c.toNat

/-- The hash of a timestamp. -/
def hashOf (timestampMS : UInt64) : Bytes :=
  md5 (ascii "xPP_RelayDispatcherSlaveRegister@@" ++ decimal timestampMS)

def serializeMembers : List (Access PPRelayDispatcherSlaveRegister) :=
  [.W X.u64 timestampMS,
    .W X.view fun m => hashOf m.timestampMS]

/-- `DeserializeMembers`: the hash is read into a local variable, and compared. -/
def deserializeMembers (p : PPRelayDispatcherSlaveRegister × BinaryStream) :
    Except StreamError (PPRelayDispatcherSlaveRegister × BinaryStream) := do
  let (m, s) ← exec Access.step p [.R X.u64 fun v m => { m with timestampMS := v }]
  let ((_, hash), s) ← exec Access.step ((m, []), s)
    [.R X.view fun v (m : PPRelayDispatcherSlaveRegister × Bytes) => (m.1, v)]
  if hash = hashOf m.timestampMS then return (m, s) else throw .rejected

/-- The timestamp is read back, and its hash is accepted. -/
theorem readsBack (m : PPRelayDispatcherSlaveRegister) :
    ReadsBack (fun p => exec Access.step p (serializeMembers X)) (deserializeMembers X)
      (fun m _ m₁ => m₁ = m) m := by
  refine ⟨m, X.u64.write m.timestampMS ++ X.view.write (hashOf m.timestampMS), rfl,
    fun m₀ rest => ⟨m, ?_, rfl⟩⟩
  simp only [deserializeMembers, exec, Access.step, List.append_assoc, Primitive.read_write, ok_bind,
    if_true]
  rfl

theorem length_hashOf (timestampMS : UInt64) : (hashOf timestampMS).length = 16 := length_md5 _

/-- What is accepted has the hash of its timestamp behind the timestamp. -/
theorem hash_of_accepted {m₀ m : PPRelayDispatcherSlaveRegister} {payload : Bytes}
    {s : BinaryStream} (h : deserializeMembers X (m₀, .reader payload) = .ok (m, s)) :
    ∃ unread rest, X.u64.read payload = some (m.timestampMS, unread) ∧
      X.view.read unread = some (hashOf m.timestampMS, rest) ∧ s = .reader rest := by
  obtain ⟨p, hp, h⟩ := bind_eq_ok.1 h
  obtain ⟨timestampMS, unread, htimestamp, rfl⟩ := exec_read_eq_ok.1 hp
  obtain ⟨q, hq, h⟩ := bind_eq_ok.1 h
  obtain ⟨hash, rest, hview, rfl⟩ := exec_read_eq_ok.1 hq
  dsimp only at h
  split at h
  · next hhash =>
    cases h
    exact ⟨unread, rest, htimestamp, hhash ▸ hview, rfl⟩
  · cases h

end PPRelayDispatcherSlaveRegister

/-! ## All messages -/

/-- A message of the control plane. -/
inductive ControlMessage (Group : Type)
  | relayRegister (m : PPRelayRegister Group)
  | relayInfoBroadcast (m : PPRelayInfoBroadcast Group)
  | relayInfoLost (m : PPRelayInfoLost)
  | deviceChallenge (m : PPDeviceChallenge)
  | deviceChallengeResp (m : PPDeviceChallengeResp)
  | targetCollect (m : PPTargetCollect)
  | backendTargetCollect (m : PPBTargetCollect)
  | backendAuthByUserPassResp (m : PPBBackendAuthByUserPassResp)
  | relayDispatcherSlaveRegister (m : PPRelayDispatcherSlaveRegister)

namespace ControlMessage

/-- What reading the message back gives is what was sent of it, and takes all of it. -/
def ReadsBack (hashOf : Bytes → UInt32) : ControlMessage Group → Prop
  | .relayRegister m =>
    RoundTrips (PPRelayRegister.serializeMembers X) (PPRelayRegister.deserializeMembers X) m
  | .relayInfoBroadcast m =>
    RoundTrips (PPRelayInfoBroadcast.serializeMembers X) (PPRelayInfoBroadcast.deserializeMembers X) m
  | .relayInfoLost m =>
    RoundTrips (PPRelayInfoLost.serializeMembers X) (PPRelayInfoLost.deserializeMembers X) m
  | .deviceChallenge m =>
    RoundTrips (PPDeviceChallenge.serializeMembers X) (PPDeviceChallenge.deserializeMembers X) m
  | .deviceChallengeResp m =>
    RoundTrips (PPDeviceChallengeResp.serializeMembers X)
      (PPDeviceChallengeResp.deserializeMembers X) m
  | .targetCollect m =>
    ProxyPlatform.ReadsBack (PPTargetCollect.serializeMembers X hashOf)
      (PPTargetCollect.deserializeMembers X) (fun m _ m₁ => m₁ = { m with hash := 0 }) m
  | .backendTargetCollect m =>
    RoundTrips (PPBTargetCollect.serializeMembers X) (PPBTargetCollect.deserializeMembers X) m
  | .backendAuthByUserPassResp m =>
    ProxyPlatform.ReadsBack (PPBBackendAuthByUserPassResp.serializeMembers X)
      (PPBBackendAuthByUserPassResp.deserializeMembers X)
      (fun m m₀ m₁ => (m.errorCode = 0 → m₁ = m) ∧
        (m.errorCode ≠ 0 → m₁ = { m₀ with errorCode := m.errorCode })) m
  | .relayDispatcherSlaveRegister m =>
    ProxyPlatform.ReadsBack (fun p => exec Access.step p (PPRelayDispatcherSlaveRegister.serializeMembers X))
      (PPRelayDispatcherSlaveRegister.deserializeMembers X) (fun m _ m₁ => m₁ = m) m

/-- Every message reads back what was sent; and a registration is accepted only with the hash of its
    timestamp, of sixteen bytes. -/
theorem controlMessage_readsBack (hashOf : Bytes → UInt32) :
    (∀ message : ControlMessage Group, message.ReadsBack X hashOf) ∧
    ∀ m₀ m payload s,
      PPRelayDispatcherSlaveRegister.deserializeMembers X (m₀, .reader payload) = .ok (m, s) →
      ∃ unread rest hash, X.u64.read payload = some (m.timestampMS, unread) ∧
        X.view.read unread = some (hash, rest) ∧ s = .reader rest ∧ hash.length = 16 ∧
        hash = md5 (ascii "xPP_RelayDispatcherSlaveRegister@@" ++
          PPRelayDispatcherSlaveRegister.decimal m.timestampMS) := by
  refine ⟨fun message => ?_, fun m₀ m payload s h => ?_⟩
  · cases message with
    | relayRegister m => exact PPRelayRegister.roundTrips X m
    | relayInfoBroadcast m => exact PPRelayInfoBroadcast.roundTrips X m
    | relayInfoLost m => exact PPRelayInfoLost.roundTrips X m
    | deviceChallenge m => exact PPDeviceChallenge.roundTrips X m
    | deviceChallengeResp m => exact PPDeviceChallengeResp.roundTrips X m
    | targetCollect m => exact PPTargetCollect.readsBack X hashOf m
    | backendTargetCollect m => exact PPBTargetCollect.roundTrips X m
    | backendAuthByUserPassResp m => exact PPBBackendAuthByUserPassResp.readsBack X m
    | relayDispatcherSlaveRegister m => exact PPRelayDispatcherSlaveRegister.readsBack X m
  · obtain ⟨unread, rest, htimestamp, hview, hs⟩ :=
      PPRelayDispatcherSlaveRegister.hash_of_accepted X h
    exact ⟨unread, rest, _, htimestamp, hview, hs,
      PPRelayDispatcherSlaveRegister.length_hashOf m.timestampMS, rfl⟩

/-- The bytes of a string, each after a one, and a zero at the end. -/
def writeMarked (v : Bytes) : Bytes := v.flatMap (fun b => [1, b]) ++ [0]

def readMarked : Bytes → Option (Bytes × Bytes)
  | [] => none
  | [mark] => if mark = 0 then some ([], []) else none
  | mark :: b :: bytes =>
    if mark = 0 then some ([], b :: bytes) else (readMarked bytes).map (Prod.map (b :: ·) id)

theorem readMarked_writeMarked (v rest : Bytes) :
    readMarked (writeMarked v ++ rest) = some (v, rest) := by
  induction v with
  | nil => cases rest <;> simp [writeMarked, readMarked]
  | cons b v ih =>
    rw [writeMarked, List.append_assoc, List.singleton_append] at ih ⊢
    simp [readMarked, ih]

/-- A stream of numbers with the lowest byte first. -/
def plainPrimitives : StreamPrimitives UInt16 where
  toNumberPrimitives := .littleEndian
  bool :=
    { write := fun b => [b.toUInt8]
      read := fun bytes => bytes.head?.map fun b => (b ≠ 0, bytes.tail)
      read_write := fun b rest => by cases b <;> rfl }
  group := NumberPrimitives.littleEndian.u16
  address := strictCodec_lawful.address.primitive
  view := ⟨writeMarked, readMarked, readMarked_writeMarked⟩
  string := ⟨writeMarked, readMarked, readMarked_writeMarked⟩

/-- The loss of a relay, and a registration, over that stream. -/
theorem controlMessage_readsBack_plain :
    (ControlMessage.relayInfoLost ⟨7⟩).ReadsBack plainPrimitives (fun _ => 0) ∧
      (ControlMessage.relayDispatcherSlaveRegister ⟨1000⟩).ReadsBack plainPrimitives fun _ => 0 :=
  ⟨(controlMessage_readsBack plainPrimitives _).1 _, (controlMessage_readsBack plainPrimitives _).1 _⟩

end ControlMessage

end ControlPlane

end ProxyPlatform
