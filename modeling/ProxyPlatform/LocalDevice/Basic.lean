import ProxyPlatform.Base.Run
import ProxyPlatform.Base.Stamped
import ProxyPlatform.Common

/-!
# The local devices' connections and UDP channels

A `LocalDeviceManager` keeps the connections and the UDP channels of the local devices. Both
are treated alike (`DeviceNodes`): a node that is kept alive is in the list of the idle ones,
ordered by the time when that was done last; a node that is to be killed is in the list of those,
and is cleaned and released by the next `tick`. A node gets there in two ways:

* `deferKill` marks it, and moves it;
* `processIdle` moves the nodes that were idle for too long.

The pass that kills asserts the mark of each node it takes. The outcome of the assertion
is in what the pass reports (`NodeEntry`), as a release build does not check it.

Connections and channels are not created in the code yet; one that is, is taken from its
pool, and knows the id it has there (`create`).
-/

namespace ProxyPlatform

def maxTotalDeviceConnectionCount : ℕ := 300000
def maxTotalDeviceUdpChannelCount : ℕ := 150000
def targetConnectionIdleTimeoutMS : ℕ := 125000
def targetUdpChannelIdleTimeoutMS : ℕ := 125000

/-- `xLocalDeviceConnection`, and `xLocalDeviceUdpChannel`, which has the same members. -/
structure DeviceNode where
  localId : ℕ := 0
  keepAliveTimestamp : ℕ := 0
  killMark : Bool := false

inductive DeviceNodeKind
  | connection
  | udpChannel
  deriving DecidableEq

inductive DeviceNodeList
  | idle
  | kill
  deriving DecidableEq

/-- What is done to a node. -/
inductive NodeEntry
  | created (localId : ℕ)
  | asserted (localId : ℕ) (killMark : Bool)
  | cleaned (localId : ℕ)
  | released (localId : ℕ)
  deriving DecidableEq

def NodeEntry.localId : NodeEntry → ℕ
  | created n | asserted n _ | cleaned n | released n => n

/-- A pool of nodes, with its list of idle nodes and that of the nodes to kill. -/
structure DeviceNodes where
  pool : Storage DeviceNode
  lists : Linked DeviceNodeList

namespace DeviceNodes

def init (poolSize : ℕ) : DeviceNodes where
  pool := .empty poolSize
  lists := .empty

/-- A node from the pool, if there is one. -/
def create (D : DeviceNodes) : DeviceNodes × List NodeEntry :=
  match D.pool.acquire fun n => ({ localId := n } : DeviceNode) with
  | none => (D, [])
  | some (n, pool) => ({ D with pool := pool }, [.created n])

/-- `KeepAlive`. -/
def keepAlive (D : DeviceNodes) (localTicker n : ℕ) : Except Fault DeviceNodes :=
  match D.pool.get n with
  | none => .error .danglingPointer
  | some N =>
    if N.killMark then .ok D
    else .ok {
      pool := D.pool.set n { N with keepAliveTimestamp := localTicker }
      lists := D.lists.grabTail .idle n }

/-- `DeferKill`. -/
def deferKill (D : DeviceNodes) (n : ℕ) : Except Fault DeviceNodes :=
  match D.pool.get n with
  | none => .error .danglingPointer
  | some N =>
    if N.killMark then .ok D
    else .ok {
      pool := D.pool.set n { N with killMark := true }
      lists := D.lists.grabTail .kill n }

/-- The node `n` was not kept alive after `killTimepoint`. -/
def isDue (D : DeviceNodes) (killTimepoint n : ℕ) : Bool :=
  match D.pool.get n with
  | none => false
  | some N => N.keepAliveTimestamp ≤ killTimepoint

/-- `ProcessIdleConnections` and `ProcessIdleUdpChannelConnections`. -/
def processIdle (D : DeviceNodes) (localTicker timeoutMS : ℕ) : DeviceNodes :=
  -- The nodes are moved without their marks.
  { D with
    lists := D.lists.expire (D.isDue (sub64 localTicker timeoutMS)) .idle .kill (by decide) }

/-- The release of a node, which unlinks itself. -/
def release (D : DeviceNodes) (localId : ℕ) : Except Fault DeviceNodes :=
  match D.pool.get localId with
  | none => .error .danglingPointer
  | some _ => .ok { pool := D.pool.release localId, lists := D.lists.unlink localId }

/-- The loop that takes the nodes to kill off their list, of at most as many rounds as
    there are. -/
def performKillLoop : ℕ → DeviceNodes → Except Fault (DeviceNodes × List NodeEntry)
  | 0, D => .ok (D, [])
  | k + 1, D => match D.lists.popHead .kill with
    | none => .ok (D, [])
    | some (n, lists) => match D.pool.get n with
      | none => .error .danglingPointer
      | some N => match release { D with lists := lists } N.localId with
        | .error x => .error x
        | .ok D => match performKillLoop k D with
          | .error x => .error x
          | .ok (D, done) =>
            .ok (D, .asserted n N.killMark :: .cleaned n :: .released N.localId :: done)

/-- `PerformKillConnections` and `PerformKillUdpChannels`. -/
def performKill (D : DeviceNodes) : Except Fault (DeviceNodes × List NodeEntry) :=
  performKillLoop (D.lists.nodes .kill).length D

end DeviceNodes

/-- `xLocalDeviceManager`: the connections, with `ConnectionPool`, `IdleConnectionList` and
    `KillConnectionList`, and the UDP channels, with theirs. -/
structure LocalDeviceManager where
  localTicker : ℕ
  connections : DeviceNodes
  udpChannels : DeviceNodes

/-- What is done with a manager. -/
inductive LocalDeviceEvent
  | create (kind : DeviceNodeKind)
  | keepAlive (kind : DeviceNodeKind) (n : ℕ)
  | deferKill (kind : DeviceNodeKind) (n : ℕ)
  | tick (nowMS : ℕ)

namespace LocalDeviceManager

def init (nowMS : ℕ) : LocalDeviceManager where
  localTicker := nowMS
  connections := .init maxTotalDeviceConnectionCount
  udpChannels := .init maxTotalDeviceUdpChannelCount

def nodes (m : LocalDeviceManager) : DeviceNodeKind → DeviceNodes
  | .connection => m.connections
  | .udpChannel => m.udpChannels

def setNodes (m : LocalDeviceManager) (D : DeviceNodes) : DeviceNodeKind → LocalDeviceManager
  | .connection => { m with connections := D }
  | .udpChannel => { m with udpChannels := D }

def timeoutMS : DeviceNodeKind → ℕ
  | .connection => targetConnectionIdleTimeoutMS
  | .udpChannel => targetUdpChannelIdleTimeoutMS

/-- `ProcessIdleConnections`. -/
def processIdleConnections (m : LocalDeviceManager) : LocalDeviceManager :=
  { m with connections := m.connections.processIdle m.localTicker targetConnectionIdleTimeoutMS }

/-- `ProcessIdleUdpChannelConnections`. -/
def processIdleUdpChannelConnections (m : LocalDeviceManager) : LocalDeviceManager :=
  { m with udpChannels := m.udpChannels.processIdle m.localTicker targetUdpChannelIdleTimeoutMS }

/-- `PerformKillConnections`. -/
def performKillConnections (m : LocalDeviceManager) :
    Except Fault (LocalDeviceManager × List NodeEntry) :=
  match m.connections.performKill with
  | .error x => .error x
  | .ok (D, done) => .ok ({ m with connections := D }, done)

/-- `PerformKillUdpChannels`. -/
def performKillUdpChannels (m : LocalDeviceManager) :
    Except Fault (LocalDeviceManager × List NodeEntry) :=
  match m.udpChannels.performKill with
  | .error x => .error x
  | .ok (D, done) => .ok ({ m with udpChannels := D }, done)

/-- The manager where the idle nodes were processed, at the time `nowMS`. -/
def processIdle (m : LocalDeviceManager) (nowMS : ℕ) : LocalDeviceManager :=
  { m with localTicker := nowMS }.processIdleConnections.processIdleUdpChannelConnections

/-- `Tick`, with what is done to the connections and to the UDP channels. -/
def tick (m : LocalDeviceManager) (nowMS : ℕ) :
    Except Fault (LocalDeviceManager × (DeviceNodeKind → List NodeEntry)) :=
  match (m.processIdle nowMS).performKillConnections with
  | .error x => .error x
  | .ok (m, connections) => match m.performKillUdpChannels with
    | .error x => .error x
    | .ok (m, udpChannels) => .ok (m, fun
      | .connection => connections
      | .udpChannel => udpChannels)

/-- One event, and what was done to the nodes of each kind. -/
def call (m : LocalDeviceManager) :
    LocalDeviceEvent → Except Fault (LocalDeviceManager × (DeviceNodeKind → List NodeEntry))
  | .create kind =>
    .ok (m.setNodes (m.nodes kind).create.1 kind, Function.update (fun _ => []) kind
      (m.nodes kind).create.2)
  | .keepAlive kind n => match (m.nodes kind).keepAlive m.localTicker n with
    | .error x => .error x
    | .ok D => .ok (m.setNodes D kind, fun _ => [])
  | .deferKill kind n => match (m.nodes kind).deferKill n with
    | .error x => .error x
    | .ok D => .ok (m.setNodes D kind, fun _ => [])
  | .tick nowMS => m.tick nowMS

/-- One event, with all that was done so far. -/
def step (s : LocalDeviceManager × (DeviceNodeKind → List NodeEntry)) (e : LocalDeviceEvent) :
    Except Fault (LocalDeviceManager × (DeviceNodeKind → List NodeEntry)) :=
  match s.1.call e with
  | .error x => .error x
  | .ok (m, done) => .ok (m, fun kind => s.2 kind ++ done kind)

end LocalDeviceManager

end ProxyPlatform
