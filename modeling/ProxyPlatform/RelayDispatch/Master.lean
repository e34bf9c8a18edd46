import ProxyPlatform.Base.Linked
import ProxyPlatform.Base.Storage
import ProxyPlatform.RelayDispatch.Packet

/-!
# The master of the relay dispatchers

`xRelayDispatcherMaster` has two services. At the one the relays register, each on its own
connection, and are given an id; at the other the slaves register. With its registration, and
each time the connection of a relay is kept alive, a heartbeat is sent to one of the slaves:
the head of `DispatcherEntryList`, which then goes to the tail.

A context is reached through the pointer of its connection (`UserContext.P`), which is the id of
the context here, and a slave also through the list: where an object is gone, the event fails.
Each handler gives what it posts, and whether the connection is kept; one that is not is killed,
and is not heard of again until it is cleaned.
-/

namespace ProxyPlatform

open ControlPlane (SocketAddress)

namespace RelayDispatch

/-- The greatest difference between the clocks of the master and of a slave. -/
def maxClockDifferenceMS : ℕ := 10 * 60000

/-- `xRelayEntryContext`; there is nothing in the buffer before the first heartbeat. -/
structure RelayEntryContext (Group : Type) where
  serverId : ℕ
  relayServerType : Group
  deviceEntryAddress : SocketAddress
  proxyEntryAddress : SocketAddress
  heartbeatBuffer : Option Packet := none

/-- `xDispatcherSlaveContext`. -/
structure DispatcherSlaveContext where
  contextId : ℕ
  connectionHandle : ℕ

/-- A connection of an `xTcpService`, with the id of the context in `UserContext.P`, or zero. -/
structure ServiceConnection where
  userContext : ℕ := 0
  killed : Bool := false

/-- A packet that is posted to a connection. -/
inductive MasterPost
  | toRelay (handle : ℕ) (p : Packet)
  | toDispatcher (handle : ℕ) (p : Packet)
  deriving DecidableEq

/-- What happens at the services of the master. -/
inductive MasterEvent
  | relayConnected
  | relayPacket (handle : ℕ) (p : Packet)
  | relayKeepAlive (handle : ℕ)
  | relayClean (handle : ℕ)
  | dispatcherConnected
  | dispatcherPacket (handle : ℕ) (p : Packet) (nowMS : ℕ)
  | dispatcherKeepAlive (handle : ℕ)
  | dispatcherClean (handle : ℕ)

/-- The heartbeat of a relay, as it is told. -/
def RelayEntryContext.broadcast {Group : Type} (context : RelayEntryContext Group) :
    ControlPlane.PPRelayInfoBroadcast Group where
  type := context.relayServerType
  serverId := UInt64.ofNat context.serverId
  exportDeviceEntryAddress := context.deviceEntryAddress
  exportProxyEntryAddress := context.proxyEntryAddress

end RelayDispatch

open RelayDispatch

/-- `xRelayDispatcherMaster`, with the connections of its two services. -/
structure RelayDispatcherMaster (Group : Type) where
  relayEntryContextPool : Storage (RelayEntryContext Group)
  dispatcherEntryContextPool : Storage DispatcherSlaveContext
  dispatcherEntryList : Linked Unit
  relayEntry : Storage ServiceConnection
  dispatcherEntry : Storage ServiceConnection

namespace RelayDispatcherMaster

variable {Group : Type} (F : Format Group)

/-- The master when it starts; a service takes a number of connections. -/
def init (connectionLimit : ℕ) : RelayDispatcherMaster Group where
  relayEntryContextPool := .empty maxRelayServerListSize
  dispatcherEntryContextPool := .empty maxSmallServerListSize
  dispatcherEntryList := .empty
  relayEntry := .empty connectionLimit
  dispatcherEntry := .empty connectionLimit

/-- The heartbeat in the buffer of a context, which is built if there is none. -/
def heartbeatBuffer (context : RelayEntryContext Group) : Option Packet :=
  match context.heartbeatBuffer with
  | some p => some p
  | none => F.writeMessage 72 cmdRelayHeartbeatBroadcast
      (broadcastBytes F.toStreamPrimitives context.broadcast)

/-- `DispatchRelayHeartbeat`, for the context with the given id. -/
def dispatchRelayHeartbeat (m : RelayDispatcherMaster Group) (relayContext : ℕ) :
    Except Fault (List MasterPost × RelayDispatcherMaster Group) :=
  match m.relayEntryContextPool.get relayContext with
  | none => .error .danglingPointer
  | some context =>
    let buffer := heartbeatBuffer F context
    let m := { m with
      relayEntryContextPool :=
        m.relayEntryContextPool.set relayContext { context with heartbeatBuffer := buffer } }
    match m.dispatcherEntryList.popHead () with
    -- Without a slave, the heartbeat is told to nobody.
    | none => .ok ([], m)
    | some (slaveContext, list) => match m.dispatcherEntryContextPool.get slaveContext with
      | none => .error .danglingPointer
      | some slave =>
        .ok (buffer.toList.map (.toDispatcher slave.connectionHandle),
          { m with dispatcherEntryList := list.grabTail () slaveContext })

/-- `OnRelayEntryKeepAlive`: what is posted, and whether the connection is kept. -/
def onRelayEntryKeepAlive (m : RelayDispatcherMaster Group) (client : ServiceConnection) :
    Except Fault (Bool × List MasterPost × RelayDispatcherMaster Group) :=
  if client.userContext = 0 then .ok (false, [], m)
  else (dispatchRelayHeartbeat F m client.userContext).map (true, ·)

/-- `OnRelayEntryClean`. -/
def onRelayEntryClean (m : RelayDispatcherMaster Group) (client : ServiceConnection) :
    Except Fault (RelayDispatcherMaster Group) :=
  if client.userContext = 0 then .ok m
  else match m.relayEntryContextPool.get client.userContext with
    | none => .error .danglingPointer
    | some context =>
      .ok { m with relayEntryContextPool := m.relayEntryContextPool.release context.serverId }

/-- `OnRelayEntryPacket`. -/
def onRelayEntryPacket (m : RelayDispatcherMaster Group) (handle : ℕ) (client : ServiceConnection)
    (p : Packet) : Except Fault (Bool × List MasterPost × RelayDispatcherMaster Group) :=
  if client.userContext ≠ 0 then .ok (false, [], m)
  else if p.cmdId ≠ cmdRelayInfoRegister then .ok (false, [], m)
  else match F.relayRegister p.payload with
    | none => .ok (false, [], m)
    | some register =>
      match m.relayEntryContextPool.acquire fun newContextId =>
        { serverId := newContextId
          relayServerType := register.relayServerType
          deviceEntryAddress := register.exportDeviceEntryAddress
          proxyEntryAddress := register.exportProxyEntryAddress } with
      -- The pool is full: the relay is refused, but its connection is kept.
      | none => .ok (true, [.toRelay handle (F.relayRegisterResp 0)], m)
      | some (newContextId, pool) =>
        (dispatchRelayHeartbeat F
          { m with
            relayEntryContextPool := pool
            relayEntry := m.relayEntry.set handle { client with userContext := newContextId } }
          newContextId).map fun (posts, m) =>
            (true, posts ++ [.toRelay handle (F.relayRegisterResp newContextId)], m)

/-- `OnDispatcherEntryKeepAlive`: whether the connection is kept. -/
def onDispatcherEntryKeepAlive (client : ServiceConnection) : Bool := client.userContext ≠ 0

/-- `OnDispatcherEntryClean`; what is released leaves the list. -/
def onDispatcherEntryClean (m : RelayDispatcherMaster Group) (client : ServiceConnection) :
    Except Fault (RelayDispatcherMaster Group) :=
  if client.userContext = 0 then .ok m
  else match m.dispatcherEntryContextPool.get client.userContext with
    | none => .error .danglingPointer
    | some context =>
      .ok { m with
        dispatcherEntryContextPool := m.dispatcherEntryContextPool.release context.contextId
        dispatcherEntryList := m.dispatcherEntryList.unlink context.contextId }

/-- `OnDispatcherEntryPacket`, at the time `nowMS`. -/
def onDispatcherEntryPacket (m : RelayDispatcherMaster Group) (handle : ℕ)
    (client : ServiceConnection) (p : Packet) (nowMS : ℕ) :
    Bool × List MasterPost × RelayDispatcherMaster Group :=
  if client.userContext ≠ 0 then (false, [], m)
  else if p.cmdId ≠ cmdRelayDispatcherSlaveRegister then (false, [], m)
  else match F.slaveRegister p.payload with
    | none => (false, [], m)
    | some register =>
      if maxClockDifferenceMS <
          (PackLibrary.signedDiff nowMS register.timestampMS.toNat).natAbs then (false, [], m)
      else match m.dispatcherEntryContextPool.acquire fun newContextId =>
          { contextId := newContextId, connectionHandle := handle } with
        | none => (true, [.toDispatcher handle (F.slaveRegisterResp false)], m)
        | some (newContextId, pool) =>
          (true, [.toDispatcher handle (F.slaveRegisterResp true)], { m with
            dispatcherEntryContextPool := pool
            dispatcherEntryList := m.dispatcherEntryList.grabTail () newContextId
            dispatcherEntry :=
              m.dispatcherEntry.set handle { client with userContext := newContextId } })

/-! ## The services -/

/-- A connection that is not kept is killed. -/
def ifKept (connections : Storage ServiceConnection) (handle : ℕ) (client : ServiceConnection)
    (keep : Bool) : Storage ServiceConnection :=
  if keep then connections else connections.set handle { client with killed := true }

/-- The client of a connection that is open: nothing is heard of one that is killed. -/
def openClient (connections : Storage ServiceConnection) (handle : ℕ) : Option ServiceConnection :=
  (connections.get handle).filter fun client => !client.killed

/-- What an event posts, and the next state. -/
def onEvent (m : RelayDispatcherMaster Group) :
    MasterEvent → Except Fault (List MasterPost × RelayDispatcherMaster Group)
  | .relayConnected => match m.relayEntry.acquire fun _ => {} with
    | none => .ok ([], m)
    | some (_, connections) => .ok ([], { m with relayEntry := connections })
  | .relayPacket handle p => match openClient m.relayEntry handle with
    | none => .ok ([], m)
    | some client => (onRelayEntryPacket F m handle client p).map fun (keep, posts, m) =>
      (posts, { m with relayEntry := ifKept m.relayEntry handle client keep })
  | .relayKeepAlive handle => match openClient m.relayEntry handle with
    | none => .ok ([], m)
    | some client => (onRelayEntryKeepAlive F m client).map fun (keep, posts, m) =>
      (posts, { m with relayEntry := ifKept m.relayEntry handle client keep })
  | .relayClean handle => match m.relayEntry.get handle with
    | none => .ok ([], m)
    | some client => (onRelayEntryClean m client).map fun m =>
      ([], { m with relayEntry := m.relayEntry.release handle })
  | .dispatcherConnected => match m.dispatcherEntry.acquire fun _ => {} with
    | none => .ok ([], m)
    | some (_, connections) => .ok ([], { m with dispatcherEntry := connections })
  | .dispatcherPacket handle p nowMS => match openClient m.dispatcherEntry handle with
    | none => .ok ([], m)
    | some client => match onDispatcherEntryPacket F m handle client p nowMS with
      | (keep, posts, m) =>
        .ok (posts, { m with dispatcherEntry := ifKept m.dispatcherEntry handle client keep })
  | .dispatcherKeepAlive handle => match openClient m.dispatcherEntry handle with
    | none => .ok ([], m)
    | some client => .ok ([], { m with
      dispatcherEntry :=
        ifKept m.dispatcherEntry handle client (onDispatcherEntryKeepAlive client) })
  | .dispatcherClean handle => match m.dispatcherEntry.get handle with
    | none => .ok ([], m)
    | some client => (onDispatcherEntryClean m client).map fun m =>
      ([], { m with dispatcherEntry := m.dispatcherEntry.release handle })

/-- One event. -/
def step (m : RelayDispatcherMaster Group) (e : MasterEvent) :
    Except Fault (RelayDispatcherMaster Group) :=
  (onEvent F m e).map Prod.snd

/-- What an event posts. -/
def posts (m : RelayDispatcherMaster Group) (e : MasterEvent) : List MasterPost :=
  match onEvent F m e with
  | .ok (posts, _) => posts
  | .error _ => []

end RelayDispatcherMaster

end ProxyPlatform
