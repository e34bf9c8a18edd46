import ProxyPlatform.DeviceEntry.Basic
import ProxyPlatform.Protocol.Control
import ProxyPlatform.Protocol.SignedPack

/-!
# Packets of the relay dispatchers

The relays register at the master of the relay dispatchers, and keep alive there. The
master sends their heartbeats to the slaves, one slave in turn for each, and a slave passes
all it gets to the observers that are connected to it. The packets on this way carry the
messages of `Protocol.Control`:

* `xPP_RelayRegister`, from a relay, and the id it is given, back to it;
* `xPP_RelayDispatcherSlaveRegister`, from a slave, and whether it is accepted;
* `xPP_RelayInfoBroadcast`, the heartbeat: built once for a relay, and kept in a buffer.

A message is a list of bytes on the way (`written`), and is decoded where it arrives
(`parsed`). What a heartbeat is decoded to is what it was built of (`decode_heartbeat`), so
that an observer is told what the relay has registered with.
-/

namespace ProxyPlatform

namespace RelayDispatch

open ControlPlane (SocketAddress StreamPrimitives)

def cmdRelayInfoRegister : ℕ := 0x03001
def cmdRelayInfoRegisterResp : ℕ := 0x03002
def cmdRelayDispatcherSlaveRegister : ℕ := 0x03003
def cmdRelayDispatcherSlaveRegisterResp : ℕ := 0x03004
def cmdRelayHeartbeatBroadcast : ℕ := 0x03005
def cmdRelayHeartbeatLost : ℕ := 0x03006

/-- A packet: its command, and the bytes of the message. -/
structure Packet where
  cmdId : ℕ
  payload : Bytes
  deriving DecidableEq

/-! ## Messages as bytes -/

section

variable {M : Type}

/-- The bytes a message is written to. -/
def written (ser : List (Access M)) (m : M) : Bytes :=
  match exec Access.step (m, .writer []) ser with
  | .ok (_, .writer bytes) => bytes
  | _ => []

/-- `Deserialize`, into the message `m₀`: what the payload is decoded to, if it is well formed. -/
def parsed (des : M × BinaryStream → Except StreamError (M × BinaryStream)) (m₀ : M)
    (payload : Bytes) : Option M :=
  match des (m₀, .reader payload) with
  | .ok (m, _) => some m
  | .error _ => none

/-- What is written is decoded to the message. -/
theorem parsed_written {ser des : List (Access M)} {m : M} (h : RoundTrips ser des m) (m₀ : M) :
    parsed (fun p => exec Access.step p des) m₀ (written ser m) = some m := by
  obtain ⟨bytes, hser, hdes⟩ := h
  have hread := hdes m₀ []
  rw [List.append_nil] at hread
  simp only [parsed, written, hser, hread]

end

/-- `xPP_RelayRegisterResp`. -/
structure PPRelayRegisterResp where
  serverId : UInt64

/-- `xPP_RelayDispatcherSlaveRegisterResp`. -/
structure PPRelayDispatcherSlaveRegisterResp where
  accepted : Bool

namespace PPRelayRegisterResp

def serializeMembers {Group : Type} (X : StreamPrimitives Group) :
    List (Access PPRelayRegisterResp) := [.W X.u64 serverId]

end PPRelayRegisterResp

namespace PPRelayDispatcherSlaveRegisterResp

variable {Group : Type} (X : StreamPrimitives Group)

def serializeMembers : List (Access PPRelayDispatcherSlaveRegisterResp) := [.W X.bool accepted]

def deserializeMembers : List (Access PPRelayDispatcherSlaveRegisterResp) :=
  [.R X.bool fun v m => { m with accepted := v }]

end PPRelayDispatcherSlaveRegisterResp

/-- `xNetAddress()`. -/
def unsetAddress : SocketAddress := ⟨{}, rfl, by decide⟩

/-- The bytes of a heartbeat. -/
def broadcastBytes {Group : Type} (X : StreamPrimitives Group)
    (b : ControlPlane.PPRelayInfoBroadcast Group) : Bytes :=
  written (ControlPlane.PPRelayInfoBroadcast.serializeMembers X) b

/-- What the packets are written and read with: the primitives of the stream, and the size of the
    header of a packet. -/
structure Format (Group : Type) extends StreamPrimitives Group where
  /-- `eRelayServerType::UNSPECIFIED`. -/
  unspecified : Group
  packetHeaderSize : ℕ
  /-- A heartbeat fits into its buffer. -/
  heartbeat_fits : ∀ b, packetHeaderSize + (broadcastBytes toStreamPrimitives b).length ≤ 72

namespace Format

variable {Group : Type} (F : Format Group)

/-- `WriteMessage`, into a buffer of the given size: nothing is written that does not fit. -/
def writeMessage (bufferSize cmdId : ℕ) (payload : Bytes) : Option Packet :=
  if F.packetHeaderSize + payload.length ≤ bufferSize then
    some { cmdId := cmdId, payload := payload }
  else none

/-- The registration of a relay, as the master decodes it. -/
def relayRegister (payload : Bytes) : Option (ControlPlane.PPRelayRegister Group) :=
  parsed (fun p => exec Access.step p
      (ControlPlane.PPRelayRegister.deserializeMembers F.toStreamPrimitives))
    { relayServerType := F.unspecified
      exportDeviceEntryAddress := unsetAddress
      exportProxyEntryAddress := unsetAddress } payload

/-- The registration of a slave, as the master decodes it. -/
def slaveRegister (payload : Bytes) : Option ControlPlane.PPRelayDispatcherSlaveRegister :=
  parsed (ControlPlane.PPRelayDispatcherSlaveRegister.deserializeMembers F.toStreamPrimitives)
    { timestampMS := 0 } payload

/-- The answer to a relay, with the id it is given; it is zero if there is none. -/
def relayRegisterResp (serverId : ℕ) : Packet where
  cmdId := cmdRelayInfoRegisterResp
  payload := written (PPRelayRegisterResp.serializeMembers F.toStreamPrimitives)
    { serverId := UInt64.ofNat serverId }

/-- The answer to a slave. -/
def slaveRegisterResp (accepted : Bool) : Packet where
  cmdId := cmdRelayDispatcherSlaveRegisterResp
  payload := written (PPRelayDispatcherSlaveRegisterResp.serializeMembers F.toStreamPrimitives)
    { accepted := accepted }

/-- Whether a slave is accepted, as it decodes the answer. -/
def slaveAccepted (payload : Bytes) : Option Bool :=
  (parsed (fun p => exec Access.step p
      (PPRelayDispatcherSlaveRegisterResp.deserializeMembers F.toStreamPrimitives))
    { accepted := false } payload).map (·.accepted)

/-- The heartbeat of a relay. -/
def heartbeat (b : ControlPlane.PPRelayInfoBroadcast Group) : Packet where
  cmdId := cmdRelayHeartbeatBroadcast
  payload := broadcastBytes F.toStreamPrimitives b

/-- A packet, as an observer takes it. -/
def decode (p : Packet) : RelayPacket :=
  if p.cmdId = cmdRelayHeartbeatBroadcast then
    .heartbeatBroadcast ((parsed (fun q => exec Access.step q
        (ControlPlane.PPRelayInfoBroadcast.deserializeMembers F.toStreamPrimitives))
      { type := F.unspecified
        serverId := 0
        exportDeviceEntryAddress := unsetAddress
        exportProxyEntryAddress := unsetAddress } p.payload).map fun b =>
      { serverId := b.serverId.toNat
        exportDeviceEntryAddress := b.exportDeviceEntryAddress.1
        exportProxyEntryAddress := b.exportProxyEntryAddress.1 })
  else if p.cmdId = cmdRelayHeartbeatLost then
    .heartbeatLost ((parsed (fun q => exec Access.step q
        (ControlPlane.PPRelayInfoLost.deserializeMembers F.toStreamPrimitives))
      { serverId := 0 } p.payload).map fun b => b.serverId.toNat)
  else .other

/-- A heartbeat is built in its buffer. -/
theorem writeMessage_heartbeat (b : ControlPlane.PPRelayInfoBroadcast Group) :
    F.writeMessage 72 cmdRelayHeartbeatBroadcast (broadcastBytes F.toStreamPrimitives b) =
      some (F.heartbeat b) := if_pos (F.heartbeat_fits b)

/-- An observer decodes a heartbeat to what it was built of. -/
theorem decode_heartbeat (b : ControlPlane.PPRelayInfoBroadcast Group) :
    F.decode (F.heartbeat b) = .heartbeatBroadcast (some {
      serverId := b.serverId.toNat
      exportDeviceEntryAddress := b.exportDeviceEntryAddress.1
      exportProxyEntryAddress := b.exportProxyEntryAddress.1 }) := by
  rw [decode, heartbeat, if_pos rfl, broadcastBytes]
  rw [parsed_written (ControlPlane.PPRelayInfoBroadcast.roundTrips F.toStreamPrimitives b)]
  rfl

end Format

/-! ## A format -/

open ControlPlane.ControlMessage (plainPrimitives)

/-- An address takes at most nineteen bytes: its family, its bytes and its port. -/
theorem length_write_address (a : SocketAddress) : (plainPrimitives.address.write a).length ≤ 19 := by
  have hsize : NetAddress.size a.1.type ≤ 16 := by
    cases a.1.type <;> decide
  have hbytes : (plainPrimitives.address.write a).length = a.1.bytes.length + 2 + 1 := by
    change (addressTag a.1.type :: a.1.bytes ++ writeNumber 2 a.1.port).length = _
    rw [List.cons_append, List.length_cons, List.length_append, length_writeNumber]
  rw [hbytes, a.2.1]
  exact Nat.add_le_add_right hsize 3

/-- The stream of numbers with the lowest byte first, and headers of sixteen bytes. -/
def plainFormat : Format UInt16 where
  toStreamPrimitives := plainPrimitives
  unspecified := 0
  packetHeaderSize := 16
  heartbeat_fits b := by
    have hdevice := length_write_address b.exportDeviceEntryAddress
    have hproxy := length_write_address b.exportProxyEntryAddress
    have hbytes : broadcastBytes plainPrimitives b =
        [] ++ writeNumber 2 b.type.toNat ++ writeNumber 8 b.serverId.toNat ++
          plainPrimitives.address.write b.exportDeviceEntryAddress ++
          plainPrimitives.address.write b.exportProxyEntryAddress := rfl
    rw [hbytes]
    simp only [List.length_append, List.length_nil, length_writeNumber]
    omega

end RelayDispatch

end ProxyPlatform
