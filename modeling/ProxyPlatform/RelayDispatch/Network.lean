import ProxyPlatform.RelayDispatch.Master

/-!
# The network of the relay dispatchers

The master, the slaves and the observers, and the packets on the way between them. A slave
has a connection to the master, on which heartbeats arrive, and is connected to by observers:
`DispatchData` posts what arrives to all that are in `ClientList`. An observer is a device
entry (`DeviceEntry`), and has a connection to each slave it knows.

Packets on a connection arrive in order, and at any time they may not arrive any more: the
connection is lost at either end (`slaveDisconnected`, `clientDisconnected`), and found out at
the other later (`dispatcherClean`, `clientClean`). Whatever arrives at the master is up to
those who are connected: a relay or a slave may send it anything, at any time.

The kinds of slaves and of observers are parameters: there may be any number of them.
-/

namespace ProxyPlatform

namespace RelayDispatch

/-- The greatest number of clients of a slave. -/
def maxSlaveClients : ℕ := 20000

/-- A connection of an observer to a slave, with the packets on the way to the observer. -/
structure SlaveClient (ω : Type) where
  observer : ω
  unread : List Packet := []

/-- A slave: `xRelayDispatcherSlaveService`, and its connection to the master, with the packets on
    the way to it. -/
structure DispatcherSlave (ω : Type) where
  masterConnection : Option ℕ := none
  unread : List Packet := []
  /-- The connections to the slave; those that it has found lost are not in the list any more. -/
  clients : Storage (SlaveClient ω)
  clientList : Linked Unit := .empty

/-- What happens in the network. -/
inductive NetworkEvent (σ ω : Type)
  | master (e : MasterEvent)
  | slaveConnected (s : σ)
  | slaveReceives (s : σ)
  | slaveDisconnected (s : σ)
  | clientConnected (s : σ) (o : ω)
  | clientReceives (s : σ) (client : ℕ)
  | clientDisconnected (s : σ) (client : ℕ)
  | clientClean (s : σ) (client : ℕ)
  | tick (o : ω) (nowMS : ℕ)
  | challenge (o : ω) (req : Option PPDeviceChallenge)

namespace DispatcherSlave

variable {Group ω : Type} (F : Format Group)

/-- `PostData`, to a connection that may be lost. -/
def postData (p : Packet) (clients : Storage (SlaveClient ω)) (client : ℕ) :
    Storage (SlaveClient ω) :=
  match clients.get client with
  | none => clients
  | some c => clients.set client { c with unread := c.unread ++ [p] }

/-- `DispatchData`. -/
def dispatchData (s : DispatcherSlave ω) (p : Packet) : DispatcherSlave ω :=
  { s with clients := (s.clientList.nodes ()).foldl (postData p) s.clients }

/-- `Master.OnServerPacket`: whether the connection is kept, and the next state. -/
def onServerPacket (s : DispatcherSlave ω) (p : Packet) : Bool × DispatcherSlave ω :=
  if p.cmdId = cmdRelayHeartbeatBroadcast then (true, s.dispatchData p)
  else if p.cmdId = cmdRelayDispatcherSlaveRegisterResp then
    match F.slaveAccepted p.payload with
    | none => (false, s)
    | some accepted => (accepted, s)
  else (true, s)

/-- The connection to the master is lost, with what is on the way. -/
def disconnect (s : DispatcherSlave ω) : DispatcherSlave ω :=
  { s with masterConnection := none, unread := [] }

/-- What the master posts arrives, if it is for the connection of the slave. -/
def arriving (s : DispatcherSlave ω) (posts : List MasterPost) : List Packet :=
  posts.filterMap fun
    | .toRelay .. => none
    | .toDispatcher handle p => if s.masterConnection = some handle then some p else none

/-- `OnClientConnected`. -/
def onClientConnected (s : DispatcherSlave ω) (o : ω) : DispatcherSlave ω :=
  if (s.clientList.nodes ()).length < maxSlaveClients then
    match s.clients.acquire fun _ => { observer := o } with
    | none => s
    | some (client, clients) =>
      { s with clients := clients, clientList := s.clientList.grabTail () client }
  else s

/-- `OnClientClean`; what is deleted leaves the list. -/
def onClientClean (s : DispatcherSlave ω) (client : ℕ) : DispatcherSlave ω :=
  { s with clientList := s.clientList.unlink client }

end DispatcherSlave

end RelayDispatch

open RelayDispatch

/-- The network: the master, the slaves and the observers. -/
structure RelayNetwork (Group σ ω : Type) where
  master : RelayDispatcherMaster Group
  slaves : σ → DispatcherSlave ω
  observers : ω → DeviceEntry

namespace RelayNetwork

variable {Group σ ω : Type} [DecidableEq σ] [DecidableEq ω] (F : Format Group)
  (extractIndex : ℕ → ℕ) (hexToStr : Bytes → Bytes)

/-- The network when all start, at the time `nowMS`. -/
def init (connectionLimit nowMS : ℕ) (getRegion : NetAddress → Option ℕ) :
    RelayNetwork Group σ ω where
  master := .init connectionLimit
  slaves _ := { clients := .empty connectionLimit }
  observers _ := DeviceEntry.init nowMS getRegion

/-- A slave has changed. -/
def setSlave (n : RelayNetwork Group σ ω) (s : σ) (slave : DispatcherSlave ω) :
    RelayNetwork Group σ ω :=
  { n with slaves := Function.update n.slaves s slave }

/-- An observer has changed. -/
def setObserver (n : RelayNetwork Group σ ω) (o : ω) (observer : DeviceEntry) :
    RelayNetwork Group σ ω :=
  { n with observers := Function.update n.observers o observer }

/-- An observer reads a packet: the next state, and whether the connection is kept. -/
def observed (n : RelayNetwork Group σ ω) (o : ω) (p : Packet) : DeviceEntry × Bool :=
  RelayInfoObserver.onPacket extractIndex (DeviceEntry.relayCallbacks extractIndex) (n.observers o)
    (F.decode p)

/-- One event. -/
def step (n : RelayNetwork Group σ ω) : NetworkEvent σ ω → Except Fault (RelayNetwork Group σ ω)
  | .master e => (RelayDispatcherMaster.onEvent F n.master e).map fun (posts, m) =>
      { n with
        master := m
        slaves := fun s =>
          { n.slaves s with unread := (n.slaves s).unread ++ (n.slaves s).arriving posts } }
  | .slaveConnected s => match n.master.dispatcherEntry.acquire fun _ => {} with
    | none => .ok n
    | some (handle, connections) =>
      .ok ({ n with master := { n.master with dispatcherEntry := connections } }.setSlave s
        { n.slaves s with masterConnection := some handle, unread := [] })
  | .slaveReceives s => match (n.slaves s).unread with
    | [] => .ok n
    | p :: unread => match DispatcherSlave.onServerPacket F { n.slaves s with unread := unread } p with
      | (keep, slave) => .ok (n.setSlave s (if keep then slave else slave.disconnect))
  | .slaveDisconnected s => .ok (n.setSlave s (n.slaves s).disconnect)
  | .clientConnected s o => .ok (n.setSlave s ((n.slaves s).onClientConnected o))
  | .clientReceives s client => match (n.slaves s).clients.get client with
    | none => .ok n
    | some c => match c.unread with
      | [] => .ok n
      | p :: unread => match observed F extractIndex n c.observer p with
        | (observer, keep) =>
          .ok ((n.setObserver c.observer observer).setSlave s { n.slaves s with
            clients := if keep then (n.slaves s).clients.set client { c with unread := unread }
              else (n.slaves s).clients.release client })
  | .clientDisconnected s client =>
    .ok (n.setSlave s { n.slaves s with clients := (n.slaves s).clients.release client })
  | .clientClean s client => .ok (n.setSlave s ((n.slaves s).onClientClean client))
  | .tick o nowMS =>
    (DeviceEntry.step extractIndex hexToStr (n.observers o) (.tick nowMS [])).map (n.setObserver o)
  | .challenge o req =>
    (DeviceEntry.step extractIndex hexToStr (n.observers o) (.challenge req)).map (n.setObserver o)

end RelayNetwork

end ProxyPlatform
