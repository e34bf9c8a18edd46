import ProxyPlatform.Base.Linked
import ProxyPlatform.Base.Run
import ProxyPlatform.Base.Storage
import ProxyPlatform.Common
import Mathlib.Data.UInt

/-!
# The local authentication service

`xAuthLocalService` answers authentication requests from a map of accounts, loaded
from files by another thread and swapped in by the next request. The usage of an
account is collected on an *audit node*, shared by the record of the account in the
map and by every result handed out for it: `referenceCount` counts both. A timeout
list brings every node back once per idle period, to report the usage it collected
and to free it when nothing refers to it.

The calls of the service to the audit service are kept, in order, in `calls`. The
map the loading thread publishes (`LoadedAuthMap`) has no audit node and no block in
any record: this is what loading a file leaves, as both fields are only written by
the service.
-/

namespace ProxyPlatform

/-! ## Usage -/

/-- The six usage counters. -/
inductive UsageCounter
  | totalTcpConnections
  | totalTcpBytesFromClient
  | totalTcpBytesToClient
  | totalUdpChannels
  | totalUdpBytesFromClient
  | totalUdpBytesToClient
  deriving DecidableEq

/-- `xLocalUsage`: usage not reported yet. -/
structure LocalUsage where
  dirty : Bool := false
  totalTcpConnections : UInt64 := 0
  totalTcpBytesFromClient : UInt64 := 0
  totalTcpBytesToClient : UInt64 := 0
  totalUdpChannels : UInt64 := 0
  totalUdpBytesFromClient : UInt64 := 0
  totalUdpBytesToClient : UInt64 := 0
  deriving DecidableEq

/-- The value of a counter. -/
def LocalUsage.counter (u : LocalUsage) : UsageCounter → UInt64
  | .totalTcpConnections => u.totalTcpConnections
  | .totalTcpBytesFromClient => u.totalTcpBytesFromClient
  | .totalTcpBytesToClient => u.totalTcpBytesToClient
  | .totalUdpChannels => u.totalUdpChannels
  | .totalUdpBytesFromClient => u.totalUdpBytesFromClient
  | .totalUdpBytesToClient => u.totalUdpBytesToClient

/-- `xAuditUsage`: the usage of an account over a period, as reported. -/
structure AuditUsage where
  authId : ℕ
  startTimestampMS : ℕ
  periodMS : ℕ
  totalTcpConnections : UInt64
  totalTcpBytesFromClient : UInt64
  totalTcpBytesToClient : UInt64
  totalUdpChannels : UInt64
  totalUdpBytesFromClient : UInt64
  totalUdpBytesToClient : UInt64
  deriving DecidableEq

/-- The reported value of a counter. -/
def AuditUsage.counter (u : AuditUsage) : UsageCounter → UInt64
  | .totalTcpConnections => u.totalTcpConnections
  | .totalTcpBytesFromClient => u.totalTcpBytesFromClient
  | .totalTcpBytesToClient => u.totalTcpBytesToClient
  | .totalUdpChannels => u.totalUdpChannels
  | .totalUdpBytesFromClient => u.totalUdpBytesFromClient
  | .totalUdpBytesToClient => u.totalUdpBytesToClient

/-- `eBlockAccountReason`. -/
inductive BlockAccountReason
  | bandwithLimit
  | connectionLimit
  | blackListLimit
  deriving DecidableEq

/-- `xAuditBlockAccount`. -/
structure AuditBlockAccount where
  authId : ℕ
  startTimestampMS : ℕ
  periodMS : ℕ
  reason : BlockAccountReason
  threshold : UInt64
  triggerValue : UInt64
  deriving DecidableEq

/-- A call to the audit service. -/
inductive AuditCall
  | reportUsage (usageInfo : AuditUsage)
  | reportBlockAccount (blockAccountInfo : AuditBlockAccount)
  deriving DecidableEq

/-! ## Records, nodes and results -/

/-- `xAuthResult`, with the fields the service fills in. -/
structure AuthResult where
  localAuthId : ℕ
  globalAuthId : ℕ
  proxyAccessAddress : NetAddress
  exportAddress : NetAddress
  enableTcp : Bool
  enableUdp : Bool
  deriving DecidableEq

/-- `xAuthLocalRecord`: an account of the map. -/
structure AuthLocalRecord where
  /-- The id of the audit node, `0` when there is none yet. -/
  localAuthId : ℕ := 0
  globalAuthId : ℕ := 0
  countryId : ℕ := 0
  enableTcp : Bool := true
  enableUdp : Bool := false
  bandwidthLimit : UInt64 := 0
  connectionLimit : UInt64 := 0
  proxyClientAddress : NetAddress := {}
  staticExportAddress : NetAddress := {}
  /-- When the account was blocked, `0` when it is not. -/
  blockStartTimestampMS : ℕ := 0
  deriving DecidableEq

/-- `xAuthLocalMap`: the accounts by key. -/
abbrev AuthLocalMap := AList fun _ : Bytes => AuthLocalRecord

/-- A map as the loading thread publishes it. -/
structure LoadedAuthMap where
  records : AuthLocalMap
  fresh : ∀ e ∈ records.entries, e.2.localAuthId = 0 ∧ e.2.blockStartTimestampMS = 0

/-- `xAuthLocalUsageAuditNode`. -/
structure AuthLocalUsageAuditNode where
  localAuthId : ℕ
  globalAuthId : ℕ
  referenceCount : ℕ
  lastReportTimestampMS : ℕ
  audit : LocalUsage := {}
  deriving DecidableEq

/-- The timeouts, which a debug build shortens. -/
structure AuthTimeouts where
  accountBlockTimeoutMS : ℕ
  localAuditNodeIdleTimeoutMS : ℕ

/-- The timeouts of a release build. -/
def AuthTimeouts.release : AuthTimeouts where
  accountBlockTimeoutMS := 15 * 60000
  localAuditNodeIdleTimeoutMS := 5 * 60000

/-- The timeouts of a debug build. -/
def AuthTimeouts.debug : AuthTimeouts where
  accountBlockTimeoutMS := 1 * 60000
  localAuditNodeIdleTimeoutMS := 1 * 60000

def localAuditNodePoolSize : ℕ := 100000

/-- `xAuthLocalService::Audit`. -/
structure AuthAudit where
  unReleasedAuthInfoCount : ℕ := 0
  cachedAuthInfoCount : ℕ := 0
  cachedAuthInfoMapVersion : ℕ := 0

/-- `xAuthLocalService`. -/
structure AuthLocalService where
  localTicker : ℕ
  authLocalMap : AuthLocalMap
  localAuditNodePool : Storage AuthLocalUsageAuditNode
  localAuditTimeoutList : Linked Unit
  /-- `LastReloadInfo.AuthMap`: the map published and not swapped in yet. -/
  loadedAuthMap : Option LoadedAuthMap
  audit : AuthAudit
  /-- The calls to the audit service so far. -/
  calls : List AuditCall

namespace AuthLocalService

/-- The service before the first request. -/
def init : AuthLocalService where
  localTicker := 0
  authLocalMap := ∅
  localAuditNodePool := .empty localAuditNodePoolSize
  localAuditTimeoutList := .empty
  loadedAuthMap := none
  audit := {}
  calls := []

/-- The audit nodes the records of a map refer to. -/
def heldIds (m : AuthLocalMap) : List ℕ :=
  (m.entries.map fun e => e.2.localAuthId).filter (· ≠ 0)

/-! ## Requests -/

/-- `--LocalUsageNode.ReferenceCount`, for the node with the id `i`. -/
def dropReference (p : Storage AuthLocalUsageAuditNode) (i : ℕ) :
    Except Fault (Storage AuthLocalUsageAuditNode) :=
  match p.get i with
  | none => .error .danglingPointer
  | some n =>
    if n.referenceCount = 0 then .error .underflow
    else .ok (p.set i { n with referenceCount := n.referenceCount - 1 })

/-- Dropping a reference to each of the nodes `is`. -/
def dropReferences (p : Storage AuthLocalUsageAuditNode) :
    List ℕ → Except Fault (Storage AuthLocalUsageAuditNode)
  | [] => .ok p
  | i :: is => match dropReference p i with
    | .ok p => dropReferences p is
    | .error x => .error x

/-- Swapping in the map published, if there is one: the records of the old map give
    up their nodes. -/
def swapAuthLocalMap (s : AuthLocalService) : Except Fault AuthLocalService :=
  match s.loadedAuthMap with
  | none => .ok s
  | some newMap => match dropReferences s.localAuditNodePool (heldIds s.authLocalMap) with
    | .error x => .error x
    | .ok p => .ok { s with
      localAuditNodePool := p
      authLocalMap := newMap.records
      loadedAuthMap := none
      audit := { s.audit with
        cachedAuthInfoCount := newMap.records.entries.length
        cachedAuthInfoMapVersion := s.audit.cachedAuthInfoMapVersion + 1 } }

/-- The audit node of the record under `key`, made when there is none. -/
def checkAndSetLocalAuthId (s : AuthLocalService) (key : Bytes) (localRecord : AuthLocalRecord) :
    Except Fault (AuthLocalService × AuthLocalRecord × AuthLocalUsageAuditNode) :=
  if localRecord.localAuthId ≠ 0 then
    match s.localAuditNodePool.get localRecord.localAuthId with
    | none => .error .danglingPointer
    | some node => .ok (s, localRecord, node)
  else
    let node (localAuthId : ℕ) : AuthLocalUsageAuditNode :=
      { localAuthId := localAuthId
        globalAuthId := localRecord.globalAuthId
        referenceCount := 1
        lastReportTimestampMS := s.localTicker }
    -- The reference counted is that of the record.
    match s.localAuditNodePool.acquire node with
    | none => .error .runtimeAssert
    | some (localAuthId, p) =>
      let localRecord := { localRecord with localAuthId := localAuthId }
      .ok ({ s with
        localAuditNodePool := p
        authLocalMap := s.authLocalMap.insert key localRecord
        localAuditTimeoutList := s.localAuditTimeoutList.grabTail () localAuthId
        audit := { s.audit with
          unReleasedAuthInfoCount := s.audit.unReleasedAuthInfoCount + 1 } },
        localRecord, node localAuthId)

/-- Blocking the account under `key`. -/
def blockAccount (T : AuthTimeouts) (s : AuthLocalService) (key : Bytes)
    (localRecord : AuthLocalRecord) (reason : BlockAccountReason)
    (threshold triggerValue : UInt64) : AuthLocalService :=
  { s with
    authLocalMap := s.authLocalMap.insert key
      { localRecord with blockStartTimestampMS := s.localTicker }
    calls := s.calls ++ [.reportBlockAccount {
      authId := localRecord.globalAuthId
      startTimestampMS := s.localTicker
      periodMS := T.accountBlockTimeoutMS
      reason := reason
      threshold := threshold
      triggerValue := triggerValue }] }

/-- The bandwidth used that was not reported yet. -/
def totalConsumed (u : LocalUsage) : UInt64 :=
  u.totalTcpBytesFromClient + u.totalTcpBytesToClient + u.totalUdpBytesFromClient +
    u.totalUdpBytesToClient

/-- Granting the request, unless the account is blocked or exceeds a limit. -/
def checkLimits (T : AuthTimeouts) (s : AuthLocalService) (key : Bytes)
    (localRecord : AuthLocalRecord) (node : AuthLocalUsageAuditNode) :
    AuthLocalService × Option AuthResult :=
  if localRecord.blockStartTimestampMS ≠ 0 ∧
      s.localTicker < localRecord.blockStartTimestampMS + T.accountBlockTimeoutMS then
    (s, none)
  else
    let localRecord := { localRecord with blockStartTimestampMS := 0 }
    if localRecord.bandwidthLimit ≠ 0 ∧
        localRecord.bandwidthLimit < totalConsumed node.audit then
      (blockAccount T s key localRecord .bandwithLimit localRecord.bandwidthLimit
        (totalConsumed node.audit), none)
    -- The connections counted are those released since the last report, not those granted.
    else if localRecord.connectionLimit ≠ 0 ∧
        localRecord.connectionLimit < node.audit.totalTcpConnections then
      (blockAccount T s key localRecord .connectionLimit localRecord.connectionLimit
        node.audit.totalTcpConnections, none)
    else
      ({ s with
        authLocalMap := s.authLocalMap.insert key localRecord
        localAuditNodePool := s.localAuditNodePool.set localRecord.localAuthId
          { node with referenceCount := node.referenceCount + 1 } },
      some {
        localAuthId := localRecord.localAuthId
        globalAuthId := localRecord.globalAuthId
        proxyAccessAddress := localRecord.proxyClientAddress
        exportAddress := localRecord.staticExportAddress
        enableTcp := localRecord.enableTcp
        enableUdp := localRecord.enableUdp })

/-- `AcquireAuthInfo`: the result left in the future, which is always ready. -/
def acquireAuthInfo (T : AuthTimeouts) (s : AuthLocalService) (accountPassView : Bytes) :
    Except Fault (AuthLocalService × Option AuthResult) :=
  match swapAuthLocalMap s with
  | .error x => .error x
  | .ok s => match s.authLocalMap.lookup accountPassView with
    | none => .ok (s, none)
    | some localRecord => match checkAndSetLocalAuthId s accountPassView localRecord with
      | .error x => .error x
      | .ok (s, localRecord, node) => .ok (checkLimits T s accountPassView localRecord node)

/-! ## Releases -/

/-- Adding the usage of a connection to the usage collected. -/
def addUsage (u usage : LocalUsage) : LocalUsage where
  dirty := true
  totalTcpConnections := u.totalTcpConnections + usage.totalTcpConnections
  totalTcpBytesFromClient := u.totalTcpBytesFromClient + usage.totalTcpBytesFromClient
  totalTcpBytesToClient := u.totalTcpBytesToClient + usage.totalTcpBytesToClient
  totalUdpChannels := u.totalUdpChannels + usage.totalUdpChannels
  totalUdpBytesFromClient := u.totalUdpBytesFromClient + usage.totalUdpBytesFromClient
  totalUdpBytesToClient := u.totalUdpBytesToClient + usage.totalUdpBytesToClient

/-- `ReleaseAuthInfo`. -/
def releaseAuthInfo (s : AuthLocalService) (localAuthId : ℕ) (usage : LocalUsage) :
    Except Fault AuthLocalService :=
  match s.localAuditNodePool.get localAuthId with
  | none => .error .danglingPointer
  | some n =>
    let p := s.localAuditNodePool.set localAuthId { n with audit := addUsage n.audit usage }
    match dropReference p localAuthId with
    | .error x => .error x
    | .ok p => .ok { s with localAuditNodePool := p }

/-! ## The timeout pass -/

/-- The node at the head of the timeout list, if its idle period is over. -/
def dueNode (T : AuthTimeouts) (s : AuthLocalService) : Option ℕ :=
  match s.localAuditTimeoutList.nodes () with
  | [] => none
  | i :: _ => match s.localAuditNodePool.get i with
    | none => some i
    | some p =>
      if p.lastReportTimestampMS ≤ sub64 s.localTicker T.localAuditNodeIdleTimeoutMS then some i
      else none

/-- The report of the usage a node collected. -/
def usageInfo (s : AuthLocalService) (p : AuthLocalUsageAuditNode) : AuditUsage where
  authId := p.globalAuthId
  startTimestampMS := p.lastReportTimestampMS
  periodMS := sub64 s.localTicker p.lastReportTimestampMS
  totalTcpConnections := p.audit.totalTcpConnections
  totalTcpBytesFromClient := p.audit.totalTcpBytesFromClient
  totalTcpBytesToClient := p.audit.totalTcpBytesToClient
  totalUdpChannels := p.audit.totalUdpChannels
  totalUdpBytesFromClient := p.audit.totalUdpBytesFromClient
  totalUdpBytesToClient := p.audit.totalUdpBytesToClient

/-- A node taken from the timeout list: its usage is reported, and it is linked again
    or, when nothing refers to it, freed. -/
def reportNode (s : AuthLocalService) (i : ℕ) : Except Fault AuthLocalService :=
  match s.localAuditNodePool.get i with
  | none => .error .danglingPointer
  | some p =>
    -- `Steal` leaves the default value in the flag and in every counter reported.
    let calls := if p.audit.dirty then s.calls ++ [.reportUsage (s.usageInfo p)] else s.calls
    let audit := if p.audit.dirty then {} else p.audit
    if p.referenceCount ≠ 0 then .ok { s with
      localAuditNodePool := s.localAuditNodePool.set i
        { p with audit := audit, lastReportTimestampMS := s.localTicker }
      localAuditTimeoutList := s.localAuditTimeoutList.grabTail () i
      calls := calls }
    else .ok { s with
      localAuditNodePool := s.localAuditNodePool.release i
      localAuditTimeoutList := s.localAuditTimeoutList.unlink i
      audit := { s.audit with unReleasedAuthInfoCount := s.audit.unReleasedAuthInfoCount - 1 }
      calls := calls }

/-- The loop of `CheckAndReportLocalAudit`, for a number of turns: it does not return
    within them when a node is still due after the last one. -/
def checkAndReportLocalAudit (T : AuthTimeouts) :
    ℕ → AuthLocalService → Except Fault AuthLocalService
  | 0, s => match dueNode T s with
    | none => .ok s
    | some _ => .error .noReturn
  | n + 1, s => match dueNode T s with
    | none => .ok s
    | some i => match reportNode s i with
      | .error x => .error x
      | .ok s => checkAndReportLocalAudit T n s

/-- `Tick`. A pass takes a node of the list at most once: a node linked again is due
    at once only when the time point wraps, and then the loop never ends. -/
def tick (T : AuthTimeouts) (s : AuthLocalService) (nowMS : ℕ) : Except Fault AuthLocalService :=
  checkAndReportLocalAudit T (s.localAuditTimeoutList.nodes ()).length
    { s with localTicker := nowMS }

end AuthLocalService

end ProxyPlatform
