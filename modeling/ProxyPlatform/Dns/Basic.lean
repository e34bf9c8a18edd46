import ProxyPlatform.Base.Linked
import ProxyPlatform.Base.Run
import ProxyPlatform.Common
import ProxyPlatform.Future

/-!
# The DNS service

`xDnsLocalService` looks up host names on threads of its own, and keeps what they found.
The first request for a host name makes a cache node for it and a `DnsRequest` for the
threads; the requests that come before the answer wait at the node, each as a *source
request* in its list `PendingSourceRequestList`; those that come later are answered from
the cache.

* `resolveDns` is the call of the users of the service. It returns `none` for `false`;
  else whether the future was completed, and how.
* `finishRequest` is a query thread at the end of a lookup.
* `tick` dispatches the results of the threads, and runs the two timeout passes.

A cache node is named by its host name. The futures are those of the users: the service
knows them by id, whether they are still live is the parameter `alive`, and what is left
in them is returned, in order. The service goes on after an `assert` that fails, as in a
release build: `failedAsserts` counts them.
-/

namespace ProxyPlatform

/-- `xDnsResult`. -/
structure DnsResult where
  a4 : NetAddress := {}
  a6 : NetAddress := {}

/-- `xDnsRequestNode`. -/
structure DnsRequestNode where
  requestNodeId : ℕ
  hostname : Bytes
  a4List : List NetAddress := []
  a6List : List NetAddress := []

/-- `xDnsLocalSourceRequestNode`. -/
structure DnsLocalSourceRequestNode where
  sourceRequestNodeId : ℕ
  futureHandle : ℕ

/-- `xDnsLocalCacheResult`. -/
structure DnsLocalCacheResult where
  a4List : List NetAddress := []
  a6List : List NetAddress := []
  lastA4ResultIndex : ℕ := 0
  lastA6ResultIndex : ℕ := 0

/-- `xDnsLocalCacheNode`, without its list of source requests. -/
structure DnsLocalCacheNode where
  queryFinished : Bool := false
  timestampMS : ℕ := 0
  result : Option DnsLocalCacheResult := none

/-- A future that is completed, and what is left in it. -/
abbrev DnsAnswer := ℕ × Option DnsResult

def dnsRequestPoolSize : ℕ := 3000
def dnsSourceRequestPoolSize : ℕ := 20000
def dnsQueryTimeoutMS : ℕ := 5000
def dnsCacheTimeoutMS : ℕ := 45 * 60000

/-- `xDnsLocalService`. -/
structure DnsLocalService where
  localTicker : ℕ
  /-- The requests the query threads have, or are about to take. -/
  requestList : List ℕ
  requestFinishedList : List ℕ
  dnsRequestPool : Storage DnsRequestNode
  dnsSourceRequestPool : Storage DnsLocalSourceRequestNode
  cacheMap : Bytes → Option DnsLocalCacheNode
  /-- The lists of source requests of the cache nodes. -/
  pendingSourceRequestList : Linked Bytes
  cacheRequestTimeoutList : List Bytes
  cacheTimeoutList : List Bytes
  onGoingDnsRequestCount : ℕ
  failedAsserts : ℕ

namespace DnsLocalService

/-- The service after `Init`. -/
def init (nowMS : ℕ) : DnsLocalService where
  localTicker := nowMS
  requestList := []
  requestFinishedList := []
  dnsRequestPool := .empty dnsRequestPoolSize
  dnsSourceRequestPool := .empty dnsSourceRequestPoolSize
  cacheMap _ := none
  pendingSourceRequestList := .empty
  cacheRequestTimeoutList := []
  cacheTimeoutList := []
  onGoingDnsRequestCount := 0
  failedAsserts := 0

/-- An `assert` of `holds`. -/
def asserting (s : DnsLocalService) (holds : Bool) : DnsLocalService :=
  { s with failedAsserts := s.failedAsserts + (!holds).toNat }

@[simp] theorem asserting_true (s : DnsLocalService) : s.asserting true = s := rfl

/-! ## Results -/

/-- The next of the addresses of one family, and its index, for the index of the last one. -/
def pickAddress (addresses : List NetAddress) (last : ℕ) : NetAddress × ℕ :=
  if addresses.length = 0 then ({}, last)
  else
    let next := if last + 1 ≥ addresses.length then 0 else last + 1
    (addresses.getD next {}, next)

/-- `PickDnsResult`: the result picked, and what the node is left with. -/
def pickDnsResult (cachedResult : DnsLocalCacheResult) : DnsResult × DnsLocalCacheResult :=
  let (a4, index4) := pickAddress cachedResult.a4List cachedResult.lastA4ResultIndex
  let (a6, index6) := pickAddress cachedResult.a6List cachedResult.lastA6ResultIndex
  ({ a4 := a4, a6 := a6 },
    { cachedResult with lastA4ResultIndex := index4, lastA6ResultIndex := index6 })

/-- What a source request of a lookup that came to an end is answered. -/
def pickFinished (cachedResult : DnsLocalCacheResult) : Option DnsResult × DnsLocalCacheResult :=
  let (result, cachedResult) := pickDnsResult cachedResult
  (some result, cachedResult)

/-- What a source request of a lookup that took too long is answered. -/
def pickTimeout (cachedResult : DnsLocalCacheResult) : Option DnsResult × DnsLocalCacheResult :=
  (none, cachedResult)

/-! ## The end of a query -/

/-- The body of the loops over the source requests of a node. -/
def answerSourceRequest
    (pick : DnsLocalCacheResult → Option DnsResult × DnsLocalCacheResult) (alive : ℕ → Bool)
    (x : DnsLocalService × DnsLocalCacheResult × List DnsAnswer) (sourceRequestNodeId : ℕ) :
    DnsLocalService × DnsLocalCacheResult × List DnsAnswer :=
  let (s, cachedResult, answers) := x
  match s.dnsSourceRequestPool.get sourceRequestNodeId with
  | none => x
  | some sourceRequest =>
    let s := { s with
      pendingSourceRequestList := s.pendingSourceRequestList.unlink sourceRequestNodeId
      dnsSourceRequestPool := s.dnsSourceRequestPool.release sourceRequestNodeId }
    if alive sourceRequest.futureHandle then
      let (answer, cachedResult) := pick cachedResult
      (s, cachedResult, answers ++ [(sourceRequest.futureHandle, answer)])
    else (s, cachedResult, answers)

/-- The end of a query, with the result `cachedResult` for the node `node` of `hostname`: the node
    moves to `CacheTimeoutList`, and its source requests are answered. -/
def finishQuery (pick : DnsLocalCacheResult → Option DnsResult × DnsLocalCacheResult)
    (alive : ℕ → Bool) (s : DnsLocalService) (hostname : Bytes) (node : DnsLocalCacheNode)
    (cachedResult : DnsLocalCacheResult) : DnsLocalService × List DnsAnswer :=
  let s := { s with
    cacheRequestTimeoutList := s.cacheRequestTimeoutList.filter (· ≠ hostname)
    cacheTimeoutList := s.cacheTimeoutList.filter (· ≠ hostname) ++ [hostname] }
  let (s, cachedResult, answers) := (s.pendingSourceRequestList.nodes hostname).foldl
    (answerSourceRequest pick alive) (s, cachedResult, [])
  let node := { node with
    queryFinished := true
    timestampMS := s.localTicker
    result := some cachedResult }
  ({ s with cacheMap := Function.update s.cacheMap hostname (some node) }, answers)

/-! ## Ticks -/

/-- The body of the loop of `DispatchResolveResults`. -/
def dispatchResolveResult (alive : ℕ → Bool) (x : DnsLocalService × List DnsAnswer)
    (requestNodeId : ℕ) : DnsLocalService × List DnsAnswer :=
  let (s, answers) := x
  match s.dnsRequestPool.get requestNodeId with
  | none => x
  | some request =>
    let s := { s with onGoingDnsRequestCount := s.onGoingDnsRequestCount - 1 }
    -- A node that was answered as timed out meanwhile gets the result nonetheless.
    let (s, new) := match s.cacheMap request.hostname with
      | none => (s, [])
      | some node => finishQuery pickFinished alive s request.hostname node
        { a4List := request.a4List, a6List := request.a6List }
    ({ s with dnsRequestPool := s.dnsRequestPool.release requestNodeId }, answers ++ new)

/-- `DispatchResolveResults`. -/
def dispatchResolveResults (alive : ℕ → Bool) (s : DnsLocalService) :
    DnsLocalService × List DnsAnswer :=
  s.requestFinishedList.foldl (dispatchResolveResult alive) ({ s with requestFinishedList := [] }, [])

/-- `ProcessRequestTimeoutCacheNodes`, for the nodes of `CacheRequestTimeoutList`. No turn of the
    loop changes the list but for its head. -/
def processRequestTimeoutCacheNodes (alive : ℕ → Bool) :
    List Bytes → DnsLocalService → Except Fault (DnsLocalService × List DnsAnswer)
  | [], s => .ok (s, [])
  | hostname :: nodes, s => match s.cacheMap hostname with
    | none => .error .danglingPointer
    | some node =>
      let s := s.asserting !node.queryFinished
      -- The time point wraps while the clock is below the timeout.
      if node.timestampMS ≤ sub64 s.localTicker dnsQueryTimeoutMS then
        let s := s.asserting node.result.isNone
        let (s, answers) := finishQuery pickTimeout alive s hostname node {}
        match processRequestTimeoutCacheNodes alive nodes s with
        | .error x => .error x
        | .ok (s, answers') => .ok (s, answers ++ answers')
      else .ok (s, [])

/-- `ProcessTimeoutCacheNodes`, for the nodes of `CacheRequestTimeoutList`. -/
def processTimeoutCacheNodes : List Bytes → DnsLocalService → Except Fault DnsLocalService
  | [], s => .ok s
  | hostname :: nodes, s => match s.cacheMap hostname with
    | none => .error .danglingPointer
    | some node =>
      let s := s.asserting !node.queryFinished
      if node.timestampMS ≤ sub64 s.localTicker dnsCacheTimeoutMS then
        -- The node comes out of the list of the unfinished queries, where none is finished.
        let s := s.asserting node.queryFinished
        let s := s.asserting (s.pendingSourceRequestList.nodes hostname).isEmpty
        processTimeoutCacheNodes nodes { s with
          cacheRequestTimeoutList := s.cacheRequestTimeoutList.filter (· ≠ hostname)
          cacheTimeoutList := s.cacheTimeoutList ++ [hostname] }
      else .ok s

/-- `Tick`. -/
def tick (alive : ℕ → Bool) (s : DnsLocalService) (nowMS : ℕ) :
    Except Fault (DnsLocalService × List DnsAnswer) :=
  let (s, answers) := dispatchResolveResults alive { s with localTicker := nowMS }
  match processRequestTimeoutCacheNodes alive s.cacheRequestTimeoutList s with
  | .error x => .error x
  | .ok (s, answers') => match processTimeoutCacheNodes s.cacheRequestTimeoutList s with
    | .error x => .error x
    | .ok s => .ok (s, answers ++ answers')

/-! ## Calls -/

/-- `ResolveDns`: whether it returns `true`, and then what comes of the future. -/
def resolveDns (s : DnsLocalService) (hostname : Bytes) (future : ℕ) :
    Except Fault (DnsLocalService × Option (Completion DnsResult)) :=
  let sourceRequest (sourceRequestNodeId : ℕ) : DnsLocalSourceRequestNode :=
    { sourceRequestNodeId := sourceRequestNodeId, futureHandle := future }
  match s.cacheMap hostname with
  | none => match s.dnsSourceRequestPool.acquire sourceRequest with
    | none => .ok (s, none)
    | some (sourceRequestNodeId, sourceRequests) =>
      match s.dnsRequestPool.acquire fun i => { requestNodeId := i, hostname := hostname } with
      | none =>
        .ok ({ s with dnsSourceRequestPool := sourceRequests.release sourceRequestNodeId }, none)
      | some (requestNodeId, requests) =>
        .ok ({ s with
          requestList := s.requestList ++ [requestNodeId]
          dnsRequestPool := requests
          dnsSourceRequestPool := sourceRequests
          cacheMap := Function.update s.cacheMap hostname (some { timestampMS := s.localTicker })
          pendingSourceRequestList :=
            s.pendingSourceRequestList.grabTail hostname sourceRequestNodeId
          cacheRequestTimeoutList := s.cacheRequestTimeoutList ++ [hostname]
          onGoingDnsRequestCount := s.onGoingDnsRequestCount + 1 }, some .pending)
  | some node =>
    -- A node made at the time 0 fails this.
    let s := s.asserting (decide (node.timestampMS ≠ 0))
    if !node.queryFinished then
      match s.dnsSourceRequestPool.acquire sourceRequest with
      | none => .ok (s, none)
      | some (sourceRequestNodeId, sourceRequests) =>
        .ok ({ s with
          dnsSourceRequestPool := sourceRequests
          pendingSourceRequestList :=
            s.pendingSourceRequestList.grabTail hostname sourceRequestNodeId }, some .pending)
    else match node.result with
      | none => .error .nullPointer
      | some cachedResult =>
        let (result, cachedResult) := pickDnsResult cachedResult
        .ok ({ s with
          cacheMap := Function.update s.cacheMap hostname
            (some { node with result := some cachedResult }) }, some (.ready (some result)))

/-- A query thread (`QueryThreadFunc`) at the end of the lookup of the request `requestNodeId`,
    with the addresses found: none, if the lookup failed. -/
def finishRequest (s : DnsLocalService) (requestNodeId : ℕ) (a4List a6List : List NetAddress) :
    DnsLocalService :=
  match s.dnsRequestPool.get requestNodeId with
  | none => s
  | some request =>
    if requestNodeId ∈ s.requestList then { s with
      requestList := s.requestList.filter (· ≠ requestNodeId)
      requestFinishedList := s.requestFinishedList ++ [requestNodeId]
      dnsRequestPool := s.dnsRequestPool.set requestNodeId { request with
        a4List := request.a4List ++ a4List
        a6List := request.a6List ++ a6List } }
    else s

end DnsLocalService

end ProxyPlatform
