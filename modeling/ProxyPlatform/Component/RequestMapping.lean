import ProxyPlatform.Base.Run
import ProxyPlatform.Base.Since
import ProxyPlatform.Base.Slots
import ProxyPlatform.Base.Stamped
import ProxyPlatform.Common

/-!
# The map of the requests in progress

A service that forwards the requests of its clients gives each an id of its own, and files
under it whom to answer (`Acquire`). The answer takes the request out of the map
(`GetAndRelease`), or the request is given up (`Release`) or grows too old (`Tick`).

* `Filed`: the pool, the queue of the timeouts and the counter agree;
* `tick_spec`: a tick drops the requests that are as old as the timeout, and no others;
* `requests_answered`: over a run, what is filed under an id is the request it was handed
  out for, as long as that is neither answered nor given up nor too old;
* `capacityLaw_iff`: there is room for the number of requests the map was made for only if
  that is the timeout, which is what the pool is made with.

An id that is free may be handed out again; which one is, comes with the event. The handles
of the clients are of any type.
-/

namespace ProxyPlatform

def minRequestTimeout : ℕ := 100
def maxRequestTimeout : ℕ := 10 * 60000

variable {H : Type*} [Inhabited H]

/-- `xSourceRequest`. -/
@[ext] structure SourceRequest (H : Type*) [Inhabited H] where
  sourceHandle : H := default
  sourceRequestId : ℕ := 0
  sourceRequestTimestampMS : ℕ := 0

/-- `xSourceRequestNode`. -/
structure SourceRequestNode (H : Type*) [Inhabited H] extends SourceRequest H where
  requestId : ℕ := 0

/-- `xTcpServiceRequestMap`. -/
structure TcpServiceRequestMap (H : Type*) [Inhabited H] where
  localTicker : ℕ
  requestTimeoutMS : ℕ
  sourceRequestPool : Slots (SourceRequestNode H)
  sourceRequestTimeoutQueue : List ℕ := []
  totalRequestCount : ℕ := 0

/-- What is done with a map. With a new request comes the id it gets if there is room. -/
inductive RequestMapEvent (H : Type*)
  | acquire (sourceHandle : H) (sourceRequestId : ℕ) (id : { i : ℕ // i ≠ 0 })
  | getAndRelease (requestId : ℕ)
  | release (requestId : ℕ)
  | tick (nowMS : ℕ)

namespace TcpServiceRequestMap

/-- The timeout a map is made with, cut to what is allowed. -/
def clampTimeout (requestTimeoutMS : ℕ) : ℕ :=
  min (max minRequestTimeout requestTimeoutMS) maxRequestTimeout

/-- `Init`, at the time `nowMS`. -/
def init (H : Type*) [Inhabited H] (nowMS _maxRequest requestTimeoutMS : ℕ) :
    TcpServiceRequestMap H where
  localTicker := nowMS
  requestTimeoutMS := clampTimeout requestTimeoutMS
  -- The pool is made with the timeout, not with the number of requests.
  sourceRequestPool := .empty (clampTimeout requestTimeoutMS)

/-- The map without the node of `requestId`, which unlinks itself when it is released. -/
def takeOut (m : TcpServiceRequestMap H) (requestId : ℕ) : TcpServiceRequestMap H :=
  { m with
    sourceRequestPool := m.sourceRequestPool.release requestId
    sourceRequestTimeoutQueue := m.sourceRequestTimeoutQueue.filter (· ≠ requestId)
    totalRequestCount := m.totalRequestCount - 1 }

/-- Releasing a node of the pool, and counting it off. -/
def releaseNode (m : TcpServiceRequestMap H) (requestId : ℕ) :
    Except Fault (TcpServiceRequestMap H) :=
  if (m.sourceRequestPool.get requestId).isNone then .error .danglingPointer
  else if m.totalRequestCount = 0 then .error .underflow
  else .ok (m.takeOut requestId)

/-- The loop of `Tick`, of at most as many rounds as there are nodes in the queue. -/
def tickLoop (killTimepointMS : ℕ) :
    ℕ → TcpServiceRequestMap H → Except Fault (TcpServiceRequestMap H)
  | 0, m => .ok m
  | k + 1, m => match m.sourceRequestTimeoutQueue with
    | [] => .ok m
    | id :: queue => match m.sourceRequestPool.get id with
      | none => .error .danglingPointer
      | some P =>
        if P.sourceRequestTimestampMS ≤ killTimepointMS then
          match releaseNode { m with sourceRequestTimeoutQueue := queue } P.requestId with
          | .error x => .error x
          | .ok m => tickLoop killTimepointMS k m
        else .ok m

/-- `Tick`. -/
def tick (m : TcpServiceRequestMap H) (nowMS : ℕ) : Except Fault (TcpServiceRequestMap H) :=
  tickLoop (sub64 nowMS m.requestTimeoutMS) m.sourceRequestTimeoutQueue.length
    { m with localTicker := nowMS }

/-- `Acquire`, with the id `id` if there is room. -/
def acquire (m : TcpServiceRequestMap H) (sourceHandle : H) (sourceRequestId : ℕ)
    (id : { i : ℕ // i ≠ 0 }) : ℕ × TcpServiceRequestMap H :=
  if m.sourceRequestPool.size < m.sourceRequestPool.capacity then
    (id.1, { m with
      sourceRequestPool := m.sourceRequestPool.insert id.1
        { sourceHandle := sourceHandle
          sourceRequestId := sourceRequestId
          sourceRequestTimestampMS := m.localTicker
          requestId := id.1 } id.2
      sourceRequestTimeoutQueue := m.sourceRequestTimeoutQueue ++ [id.1]
      totalRequestCount := m.totalRequestCount + 1 })
  else (0, m)

/-- `GetAndRelease`. -/
def getAndRelease (m : TcpServiceRequestMap H) (requestId : ℕ) :
    Except Fault (SourceRequest H × TcpServiceRequestMap H) :=
  match m.sourceRequestPool.get requestId with
  | none => .ok ({}, m)
  | some P => match m.releaseNode requestId with
    | .error x => .error x
    | .ok m => .ok (P.toSourceRequest, m)

/-- One event. -/
def step (m : TcpServiceRequestMap H) : RequestMapEvent H → Except Fault (TcpServiceRequestMap H)
  | .acquire sourceHandle sourceRequestId id => .ok (m.acquire sourceHandle sourceRequestId id).2
  | .getAndRelease requestId => match m.getAndRelease requestId with
    | .error x => .error x
    | .ok r => .ok r.2
  | .release requestId => m.releaseNode requestId
  | .tick nowMS => m.tick nowMS

/-- What a run may do: the ids handed out are free, only live ones are released, and the time of a tick
    is no earlier than the one before, nor than the timeout. -/
def Allowed (m : TcpServiceRequestMap H) : RequestMapEvent H → Prop
  | .acquire _ _ id => m.sourceRequestPool.get id.1 = none
  | .getAndRelease _ => True
  | .release requestId => (m.sourceRequestPool.get requestId).isSome = true
  | .tick nowMS => m.localTicker ≤ nowMS ∧ m.requestTimeoutMS ≤ nowMS

/-! ## The invariant -/

/-- The timestamps of the requests. -/
def stamp (m : TcpServiceRequestMap H) (id : ℕ) : Option ℕ :=
  (m.sourceRequestPool.get id).map fun P => P.sourceRequestTimestampMS

/-- The nodes know their ids, those in the queue are those that are live, in the order of their
    timestamps, and the counter is their number. -/
structure Filed (m : TcpServiceRequestMap H) : Prop where
  requestId : ∀ id P, m.sourceRequestPool.get id = some P → P.requestId = id
  mem_queue : ∀ id, id ∈ m.sourceRequestTimeoutQueue ↔ (m.sourceRequestPool.get id).isSome = true
  nodup : m.sourceRequestTimeoutQueue.Nodup
  stamped : Stamped m.stamp m.localTicker m.sourceRequestTimeoutQueue
  count : m.totalRequestCount = m.sourceRequestPool.size

/-- The clock, the timeout and the room of two maps are the same. -/
structure SameSettings (m m' : TcpServiceRequestMap H) : Prop where
  localTicker : m'.localTicker = m.localTicker
  requestTimeoutMS : m'.requestTimeoutMS = m.requestTimeoutMS
  capacity : m'.sourceRequestPool.capacity = m.sourceRequestPool.capacity

theorem SameSettings.refl (m : TcpServiceRequestMap H) : SameSettings m m := ⟨rfl, rfl, rfl⟩

theorem SameSettings.trans {m₁ m₂ m₃ : TcpServiceRequestMap H} (h : SameSettings m₁ m₂)
    (h' : SameSettings m₂ m₃) : SameSettings m₁ m₃ :=
  ⟨h'.localTicker.trans h.localTicker, h'.requestTimeoutMS.trans h.requestTimeoutMS,
    h'.capacity.trans h.capacity⟩

variable {m m' : TcpServiceRequestMap H} {id : ℕ} {P : SourceRequestNode H}

@[simp] theorem get_takeOut (m : TcpServiceRequestMap H) (id j : ℕ) :
    (m.takeOut id).sourceRequestPool.get j =
      if j = id then none else m.sourceRequestPool.get j := Slots.get_release _ _ _

namespace Filed

theorem init (nowMS maxRequest requestTimeoutMS : ℕ) :
    (TcpServiceRequestMap.init H nowMS maxRequest requestTimeoutMS).Filed where
  requestId _ _ h := by cases h
  mem_queue _ := iff_of_false List.not_mem_nil Bool.false_ne_true
  nodup := List.nodup_nil
  stamped := .nil
  count := rfl

/-- The clock goes on. -/
theorem wait {nowMS : ℕ} (h : m.Filed) (hnow : m.localTicker ≤ nowMS) :
    Filed { m with localTicker := nowMS } :=
  { h with stamped := h.stamped.mono hnow }

/-- A node that is live can be released. -/
theorem releaseNode (h : m.Filed) (hP : m.sourceRequestPool.get id = some P) :
    m.releaseNode id = .ok (m.takeOut id) := by
  have hsize := Slots.size_release hP
  have hcount : m.totalRequestCount ≠ 0 := by rw [h.count]; omega
  rw [TcpServiceRequestMap.releaseNode, hP, if_neg (by simp), if_neg hcount]

theorem takeOut (h : m.Filed) (hP : m.sourceRequestPool.get id = some P) : (m.takeOut id).Filed where
  requestId j Q hQ := by
    rw [get_takeOut] at hQ
    split at hQ
    · cases hQ
    · exact h.requestId j Q hQ
  mem_queue j := by
    rw [get_takeOut]
    by_cases hj : j = id
    · simp [TcpServiceRequestMap.takeOut, hj]
    · simp [TcpServiceRequestMap.takeOut, hj, h.mem_queue]
  nodup := h.nodup.filter _
  stamped := by
    refine h.stamped.of_sublist List.filter_sublist (fun j hj => ?_) le_rfl
    have hne : j ≠ id := by simpa using List.of_mem_filter hj
    simp only [stamp, get_takeOut, if_neg hne]
  count := by
    have hsize := Slots.size_release hP
    change m.totalRequestCount - 1 = (m.sourceRequestPool.release id).size
    rw [h.count]
    omega

/-- A new request is filed under an id that is free. -/
theorem acquire (h : m.Filed) {id : { i : ℕ // i ≠ 0 }} (hid : m.sourceRequestPool.get id.1 = none)
    (hP : P.requestId = id.1) (hnow : P.sourceRequestTimestampMS = m.localTicker) :
    Filed { m with
      sourceRequestPool := m.sourceRequestPool.insert id.1 P id.2
      sourceRequestTimeoutQueue := m.sourceRequestTimeoutQueue ++ [id.1]
      totalRequestCount := m.totalRequestCount + 1 } := by
  have hget := Slots.get_insert m.sourceRequestPool P id.2
  have hnew : id.1 ∉ m.sourceRequestTimeoutQueue := by
    rw [h.mem_queue, hid]
    exact Bool.false_ne_true
  refine ⟨fun j Q hQ => ?_, fun j => ?_, ?_, ?_, ?_⟩
  · dsimp only at hQ
    rw [hget] at hQ
    split at hQ
    · next hj =>
      cases hQ
      rw [hP, hj]
    · exact h.requestId j Q hQ
  · dsimp only
    rw [hget, List.mem_append, List.mem_singleton, h.mem_queue]
    by_cases hj : j = id.1 <;> simp [hj]
  · refine List.nodup_append.2 ⟨h.nodup, List.nodup_singleton _, fun j hj k hk hjk => hnew ?_⟩
    rwa [← List.mem_singleton.1 hk, ← hjk]
  · refine Stamped.append (h.stamped.of_sublist (.refl _) (fun j hj => ?_) le_rfl) ?_
    · have hne : j ≠ id.1 := ne_of_mem_of_not_mem hj hnew
      simp only [stamp, hget, if_neg hne]
    · simp only [stamp, hget, if_true, Option.map_some, hnow]
  · change m.totalRequestCount + 1 = (m.sourceRequestPool.insert id.1 P id.2).size
    rw [Slots.size_insert P ⟨id.2, hid⟩, h.count]

/-- What is filed under an id is answered, and taken out. -/
theorem getAndRelease (h : m.Filed) (id : ℕ) :
    ∃ m', m.getAndRelease id =
        .ok (((m.sourceRequestPool.get id).map SourceRequestNode.toSourceRequest).getD {}, m') ∧
      m'.Filed ∧ SameSettings m m' ∧
      ∀ j, m'.sourceRequestPool.get j = if j = id then none else m.sourceRequestPool.get j := by
  rcases hP : m.sourceRequestPool.get id with _ | P
  · refine ⟨m, by simp only [TcpServiceRequestMap.getAndRelease, hP]; rfl, h, .refl m, fun j => ?_⟩
    split
    · next hj => rw [hj, hP]
    · rfl
  · refine ⟨m.takeOut id, ?_, h.takeOut hP, ⟨rfl, rfl, rfl⟩, get_takeOut m id⟩
    simp only [TcpServiceRequestMap.getAndRelease, hP, h.releaseNode hP, Option.map_some,
      Option.getD_some]

/-- The head of the queue is the oldest request. -/
theorem le_of_head {queue : List ℕ} {j : ℕ} {Q : SourceRequestNode H} (h : m.Filed)
    (hqueue : m.sourceRequestTimeoutQueue = id :: queue) (hP : m.sourceRequestPool.get id = some P)
    (hQ : m.sourceRequestPool.get j = some Q) :
    P.sourceRequestTimestampMS ≤ Q.sourceRequestTimestampMS := by
  have hj : j ∈ id :: queue := hqueue ▸ (h.mem_queue j).2 (by rw [hQ]; rfl)
  rcases List.mem_cons.1 hj with rfl | hj
  · rw [hP] at hQ
    cases hQ
    exact le_rfl
  · have hstamped := hqueue ▸ h.stamped
    exact hstamped.le_of_mem (by rw [stamp, hP]; rfl) hj (by rw [stamp, hQ]; rfl)

end Filed

/-- Popping the head of the queue before it is released makes no difference. -/
theorem releaseNode_of_head {queue : List ℕ} (hqueue : m.sourceRequestTimeoutQueue = id :: queue) :
    releaseNode { m with sourceRequestTimeoutQueue := queue } id = m.releaseNode id := by
  have hfilter : m.sourceRequestTimeoutQueue.filter (· ≠ id) = queue.filter (· ≠ id) := by
    rw [hqueue, List.filter_cons_of_neg (by simp)]
  simp only [releaseNode, takeOut, hfilter]

/-- The rest of the queue is left when its head is taken out. -/
theorem queue_takeOut_of_head {queue : List ℕ} (h : m.Filed)
    (hqueue : m.sourceRequestTimeoutQueue = id :: queue) :
    (m.takeOut id).sourceRequestTimeoutQueue = queue := by
  have hnodup := h.nodup
  rw [hqueue, List.nodup_cons] at hnodup
  change m.sourceRequestTimeoutQueue.filter (· ≠ id) = queue
  rw [hqueue, List.filter_cons_of_neg (by simp), List.filter_eq_self]
  exact fun j hj => decide_eq_true (ne_of_mem_of_not_mem hj hnodup.1)

/-- The loop drops the requests that are due, and no others. -/
theorem tickLoop_spec (killTimepointMS : ℕ) {k : ℕ} (h : m.Filed)
    (hk : m.sourceRequestTimeoutQueue.length = k) :
    ∃ m', tickLoop killTimepointMS k m = .ok m' ∧ m'.Filed ∧ SameSettings m m' ∧
      ∀ j, m'.sourceRequestPool.get j =
        (m.sourceRequestPool.get j).filter fun P => killTimepointMS < P.sourceRequestTimestampMS := by
  induction k generalizing m with
  | zero =>
    refine ⟨m, rfl, h, .refl m, fun j => ?_⟩
    have hj : m.sourceRequestPool.get j = none := by
      rw [← Option.not_isSome_iff_eq_none, ← h.mem_queue, List.length_eq_zero_iff.1 hk]
      exact List.not_mem_nil
    rw [hj]
    rfl
  | succ k ih =>
    obtain ⟨id, queue, hqueue⟩ := List.exists_cons_of_length_eq_add_one hk
    obtain ⟨P, hP⟩ := Option.isSome_iff_exists.1
      ((h.mem_queue id).1 (hqueue ▸ List.mem_cons_self))
    have hid := h.requestId id P hP
    simp only [tickLoop, hqueue, hP, hid, releaseNode_of_head hqueue]
    split
    · next hdue =>
      have hlength : queue.length = k := by
        rw [hqueue, List.length_cons] at hk
        exact Nat.succ_injective hk
      have hrest := queue_takeOut_of_head h hqueue
      have hsettings : SameSettings m (m.takeOut id) := ⟨rfl, rfl, rfl⟩
      obtain ⟨m₂, hm₂, h₂, hset₂, hget₂⟩ := ih (h.takeOut hP) (hrest ▸ hlength)
      rw [h.releaseNode hP]
      refine ⟨m₂, hm₂, h₂, hsettings.trans hset₂, fun j => ?_⟩
      rw [hget₂, get_takeOut]
      split
      · next hj =>
        rw [hj, hP, Option.filter_some_neg]
        · rfl
        · simpa using hdue
      · rfl
    · next hdue =>
      -- The head is the oldest: if it is not due, none is.
      refine ⟨m, rfl, h, .refl m, fun j => ?_⟩
      rcases hQ : m.sourceRequestPool.get j with _ | Q
      · rfl
      · have hle := h.le_of_head hqueue hP hQ
        rw [Option.filter_some_pos]
        exact decide_eq_true (lt_of_lt_of_le (not_le.1 hdue) hle)

/-- A tick drops the requests that are as old as the timeout, and no others. -/
theorem tick_spec {nowMS : ℕ} (h : m.Filed) (hnow : m.localTicker ≤ nowMS)
    (htimeout : m.requestTimeoutMS ≤ nowMS) :
    ∃ m', m.tick nowMS = .ok m' ∧ m'.Filed ∧ SameSettings { m with localTicker := nowMS } m' ∧
      ∀ j, m'.sourceRequestPool.get j = (m.sourceRequestPool.get j).filter fun P =>
        nowMS < P.sourceRequestTimestampMS + m.requestTimeoutMS := by
  obtain ⟨m', hm', h', hset, hget⟩ :=
    tickLoop_spec (sub64 nowMS m.requestTimeoutMS) (h.wait hnow) rfl
  refine ⟨m', hm', h', hset, fun j => (hget j).trans ?_⟩
  congr 1
  funext P
  rw [sub64_of_le htimeout]
  exact decide_eq_decide.2 (by omega)

/-! ## The history of the requests -/

/-- What happened to the requests: one was handed out an id, one was answered or given up, or a tick
    came. -/
inductive RequestLog (H : Type*) [Inhabited H]
  | issued (id : ℕ) (request : SourceRequest H)
  | ended (id : ℕ)
  | ticked (nowMS : ℕ)

/-- What an event adds to the history. -/
def logOf (m : TcpServiceRequestMap H) : RequestMapEvent H → List (RequestLog H)
  | .acquire sourceHandle sourceRequestId id =>
    let issuedId := (m.acquire sourceHandle sourceRequestId id).1
    if issuedId = 0 then [] else [.issued issuedId ⟨sourceHandle, sourceRequestId, m.localTicker⟩]
  | .getAndRelease requestId | .release requestId => [.ended requestId]
  | .tick nowMS => [.ticked nowMS]

/-- The history of a run from `m`. -/
def history (m : TcpServiceRequestMap H) (es : List (RequestMapEvent H)) : List (RequestLog H) :=
  collectAlong step logOf m es

/-- The request was handed out the id, and was since neither answered nor given up nor, at a tick, as
    old as the timeout. -/
def Outstanding (requestTimeoutMS : ℕ) (log : List (RequestLog H)) (id : ℕ)
    (request : SourceRequest H) : Prop :=
  Since (fun o => o ≠ .ended id ∧
      ∀ nowMS, o = .ticked nowMS → nowMS < request.sourceRequestTimestampMS + requestTimeoutMS)
    (fun o => o = .issued id request) log

/-- The map has what is outstanding, and its pool as many slots as its timeout has milliseconds. -/
structure Agrees (requestTimeoutMS : ℕ) (log : List (RequestLog H)) (m : TcpServiceRequestMap H) :
    Prop where
  filed : m.Filed
  timeout_eq : m.requestTimeoutMS = requestTimeoutMS
  capacity : m.sourceRequestPool.capacity = requestTimeoutMS
  outstanding : ∀ id request,
    (m.sourceRequestPool.get id).map SourceRequestNode.toSourceRequest = some request ↔
      Outstanding requestTimeoutMS log id request

namespace Agrees

variable {timeout : ℕ} {log : List (RequestLog H)}

theorem init (nowMS maxRequest requestTimeoutMS : ℕ) :
    Agrees (clampTimeout requestTimeoutMS) []
      (TcpServiceRequestMap.init H nowMS maxRequest requestTimeoutMS) :=
  ⟨.init nowMS maxRequest requestTimeoutMS, rfl, rfl, fun _ _ => iff_of_false nofun not_since_nil⟩

/-- What is not live is not outstanding. -/
theorem not_outstanding (h : Agrees timeout log m) (hid : m.sourceRequestPool.get id = none)
    (request : SourceRequest H) : ¬Outstanding timeout log id request := by
  rw [← h.outstanding, hid]
  exact nofun

/-- A new request is filed under an id that is free. -/
theorem acquire (h : Agrees timeout log m) (sourceHandle : H) (sourceRequestId : ℕ)
    {id : { i : ℕ // i ≠ 0 }} (hid : m.sourceRequestPool.get id.1 = none) :
    Agrees timeout (log ++ m.logOf (.acquire sourceHandle sourceRequestId id))
      (m.acquire sourceHandle sourceRequestId id).2 := by
  by_cases hroom : m.sourceRequestPool.size < m.sourceRequestPool.capacity
  · have hlog : m.logOf (.acquire sourceHandle sourceRequestId id) =
        [.issued id.1 ⟨sourceHandle, sourceRequestId, m.localTicker⟩] := by
      simp only [logOf, TcpServiceRequestMap.acquire, if_pos hroom, if_neg id.2]
    rw [hlog, TcpServiceRequestMap.acquire, if_pos hroom]
    refine ⟨h.filed.acquire hid rfl rfl, h.timeout_eq, h.capacity, fun j request => ?_⟩
    rw [Outstanding, since_concat]
    dsimp only
    rw [Slots.get_insert]
    by_cases hj : j = id.1
    · -- Nothing was outstanding under the new id.
      have hnot := h.not_outstanding (hj ▸ hid) request
      rw [if_pos hj, or_iff_left fun hold => hnot hold.2, Option.map_some, Option.some_inj, hj,
        RequestLog.issued.injEq, and_iff_right rfl]
    · rw [if_neg hj, h.outstanding]
      refine ⟨fun hold => .inr ⟨⟨by simp, by simp⟩, hold⟩, fun hnew => ?_⟩
      rcases hnew with heq | ⟨-, hold⟩
      · exact absurd (RequestLog.issued.inj heq).1.symm hj
      · exact hold
  · have hlog : m.logOf (.acquire sourceHandle sourceRequestId id) = [] := by
      simp only [logOf, TcpServiceRequestMap.acquire, if_neg hroom, if_true]
    rw [hlog, List.append_nil, TcpServiceRequestMap.acquire, if_neg hroom]
    exact h

/-- A request is answered or given up. -/
theorem ended {m' : TcpServiceRequestMap H} (h : Agrees timeout log m) (hm' : m'.Filed)
    (hset : SameSettings m m')
    (hget : ∀ j, m'.sourceRequestPool.get j = if j = id then none else m.sourceRequestPool.get j) :
    Agrees timeout (log ++ [.ended id]) m' := by
  refine ⟨hm', hset.requestTimeoutMS.trans h.timeout_eq, hset.capacity.trans h.capacity, fun j request => ?_⟩
  rw [hget, Outstanding]
  by_cases hj : j = id
  · rw [if_pos hj, hj]
    exact iff_of_false nofun (not_since_concat nofun fun h => h.1 rfl)
  · rw [if_neg hj, h.outstanding, since_concat_of_keeps nofun]
    · rfl
    · exact ⟨fun heq => hj (RequestLog.ended.inj heq).symm, nofun⟩

theorem tick {nowMS : ℕ} (h : Agrees timeout log m) (hnow : m.localTicker ≤ nowMS)
    (htimeout : m.requestTimeoutMS ≤ nowMS) :
    ∃ m', m.tick nowMS = .ok m' ∧ Agrees timeout (log ++ [.ticked nowMS]) m' := by
  obtain ⟨m', hm', hfiled, hset, hget⟩ := tick_spec h.filed hnow htimeout
  refine ⟨m', hm', hfiled, hset.requestTimeoutMS.trans h.timeout_eq,
    hset.capacity.trans h.capacity, fun j request => ?_⟩
  have hkeeps : ((RequestLog.ticked nowMS : RequestLog H) ≠ .ended j ∧
      ∀ T, (RequestLog.ticked nowMS : RequestLog H) = .ticked T →
        T < request.sourceRequestTimestampMS + timeout) ↔
      nowMS < request.sourceRequestTimestampMS + timeout := by
    refine ⟨fun hk => hk.2 nowMS rfl, fun hk => ⟨nofun, fun T hT => ?_⟩⟩
    cases hT
    exact hk
  rw [hget, Outstanding, since_concat, or_iff_right nofun, hkeeps]
  refine Iff.trans ?_ (and_congr_right' (h.outstanding j request))
  rw [h.timeout_eq]
  rcases m.sourceRequestPool.get j with _ | P
  · exact iff_of_false nofun fun hk => by cases hk.2
  · rw [Option.filter_some, Option.map_some, Option.some_inj]
    split
    · next hdue =>
      rw [Option.map_some, Option.some_inj]
      refine ⟨fun hreq => ⟨hreq ▸ of_decide_eq_true hdue, hreq⟩, fun hreq => hreq.2⟩
    · next hdue =>
      refine iff_of_false nofun fun hreq => hdue (decide_eq_true ?_)
      rw [← hreq.2] at hreq
      exact hreq.1

/-- An event that is allowed is taken, and keeps the history and the map in agreement. -/
theorem step {e : RequestMapEvent H} (h : Agrees timeout log m) (he : m.Allowed e) :
    ∃ m', m.step e = .ok m' ∧ Agrees timeout (log ++ m.logOf e) m' := by
  cases e with
  | acquire sourceHandle sourceRequestId id =>
    exact ⟨_, rfl, h.acquire sourceHandle sourceRequestId he⟩
  | getAndRelease id =>
    obtain ⟨m', hm', hfiled, hset, hget⟩ := h.filed.getAndRelease id
    exact ⟨m', by simp only [TcpServiceRequestMap.step, hm'],
      h.ended hfiled hset hget⟩
  | release id =>
    obtain ⟨P, hP⟩ := Option.isSome_iff_exists.1 he
    exact ⟨m.takeOut id, h.filed.releaseNode hP, 
      h.ended (h.filed.takeOut hP) ⟨rfl, rfl, rfl⟩ (get_takeOut m id)⟩
  | tick nowMS => exact h.tick he.1 he.2

/-- Every run that is allowed goes on, and leads to a map in agreement with its history. -/
theorem exec {m₀ : TcpServiceRequestMap H} (h₀ : Agrees timeout [] m₀) {es : List (RequestMapEvent H)}
    (hes : Along TcpServiceRequestMap.step Allowed m₀ es) :
    ∃ m, exec TcpServiceRequestMap.step m₀ es = .ok m ∧ Agrees timeout (m₀.history es) m := by
  induction es using List.reverseRecOn with
  | nil => exact ⟨m₀, rfl, h₀⟩
  | append_singleton es e ih =>
    obtain ⟨m, hm, hagrees⟩ := ih (hes.of_prefix (List.prefix_append es [e]))
    obtain ⟨m', hm', hagrees'⟩ := hagrees.step (hes.of_append hm).1
    refine ⟨m', (exec_snoc e hm).trans hm', ?_⟩
    rwa [history, collectAlong_snoc e hm]

/-- What is answered to a request that is outstanding, or to none. -/
theorem getAndRelease (h : Agrees timeout log m) (id : ℕ) :
    ∃ r m', m.getAndRelease id = .ok (r, m') ∧
      (∀ request, Outstanding timeout log id request → r = request) ∧
      ((¬∃ request, Outstanding timeout log id request) → r = {}) := by
  obtain ⟨m', hm', -⟩ := h.filed.getAndRelease id
  refine ⟨_, m', hm', fun request hreq => ?_, fun hnone => ?_⟩
  · rw [(h.outstanding id request).2 hreq]
    rfl
  · rcases hP : m.sourceRequestPool.get id with _ | P
    · rfl
    · exact absurd ⟨P.toSourceRequest, (h.outstanding id _).1 (by rw [hP]; rfl)⟩ hnone

/-- The counter is the number of requests that are outstanding. -/
theorem count (h : Agrees timeout log m) :
    {id | ∃ request, Outstanding timeout log id request}.encard = m.totalRequestCount := by
  have hset : {id | ∃ request, Outstanding timeout log id request} =
      {id | (m.sourceRequestPool.get id).isSome = true} := by
    ext id
    simp only [Set.mem_ofPred_eq, ← h.outstanding, Option.map_eq_some_iff, Option.isSome_iff_exists]
    exact ⟨fun ⟨_, P, hP, _⟩ => ⟨P, hP⟩, fun ⟨P, hP⟩ => ⟨_, P, hP, rfl⟩⟩
  rw [hset, Slots.encard_live, h.filed.count]

end Agrees

/-- Every run that is allowed goes on. What is filed in the map it leads to is what is outstanding:
    `GetAndRelease` answers with the request
    that is outstanding under the id, or with an empty one if there is none; a tick leaves no request
    as old as the timeout, and drops no other; and the counter is the number of requests that are
    outstanding. -/
theorem requests_answered {nowMS maxRequest requestTimeoutMS : ℕ} {es : List (RequestMapEvent H)}
    (hes : Along step Allowed (init H nowMS maxRequest requestTimeoutMS) es) :
    let log := (init H nowMS maxRequest requestTimeoutMS).history es
    let timeout := clampTimeout requestTimeoutMS
    ∃ m, ProxyPlatform.exec step (init H nowMS maxRequest requestTimeoutMS) es = .ok m ∧
      (∀ id request,
        (m.sourceRequestPool.get id).map SourceRequestNode.toSourceRequest = some request ↔
          Outstanding timeout log id request) ∧
      (∀ id, ∃ r m', m.getAndRelease id = .ok (r, m') ∧
        (∀ request, Outstanding timeout log id request → r = request) ∧
        ((¬∃ request, Outstanding timeout log id request) → r = {})) ∧
      (∀ T, m.localTicker ≤ T → timeout ≤ T → ∃ m', m.tick T = .ok m' ∧
        (∀ id P, m'.sourceRequestPool.get id = some P →
          T < P.sourceRequestTimestampMS + timeout) ∧
        ∀ id P, m.sourceRequestPool.get id = some P → T < P.sourceRequestTimestampMS + timeout →
          m'.sourceRequestPool.get id = some P) ∧
      {id | ∃ request, Outstanding timeout log id request}.encard = m.totalRequestCount := by
  dsimp only
  obtain ⟨m, hm, h⟩ := Agrees.exec (.init nowMS maxRequest requestTimeoutMS) hes
  refine ⟨m, hm, h.outstanding, h.getAndRelease, fun T hnow htimeout => ?_, h.count⟩
  obtain ⟨m', hm', -, -, hget⟩ := tick_spec h.filed hnow (h.timeout_eq.symm ▸ htimeout)
  rw [h.timeout_eq] at hget
  refine ⟨m', hm', fun id P hP => ?_, fun id P hP hlt => ?_⟩
  · rw [hget, Option.filter_eq_some_iff] at hP
    exact of_decide_eq_true hP.2
  · rw [hget, hP, Option.filter_some_pos]
    exact decide_eq_true hlt

instance (m : TcpServiceRequestMap H) (e : RequestMapEvent H) : Decidable (m.Allowed e) :=
  match e with
  | .acquire _ _ id =>
    decidable_of_iff ((m.sourceRequestPool.get id.1).isNone = true) Option.isNone_iff_eq_none
  | .getAndRelease _ => .isTrue trivial
  | .release id => inferInstanceAs (Decidable ((m.sourceRequestPool.get id).isSome = true))
  | .tick nowMS => inferInstanceAs (Decidable (m.localTicker ≤ nowMS ∧ m.requestTimeoutMS ≤ nowMS))

/-- A run in which an id is used again before a tick drops what is left. -/
def recycledRun : List (RequestMapEvent ℕ) :=
  [.acquire 7 70 ⟨1, by decide⟩, .acquire 8 80 ⟨2, by decide⟩, .getAndRelease 1,
    .acquire 9 90 ⟨1, by decide⟩, .release 2, .tick 1100, .acquire 7 71 ⟨3, by decide⟩, .tick 1200]

theorem requests_answered_recycled :
    ∃ m, ProxyPlatform.exec step (init ℕ 1000 5 150) recycledRun = .ok m ∧
      {id | ∃ request, Outstanding (clampTimeout 150) ((init ℕ 1000 5 150).history recycledRun) id
        request}.encard = m.totalRequestCount := by
  have hes : Along step Allowed (init ℕ 1000 5 150) recycledRun := along_of_check (by decide)
  obtain ⟨m, hm, -, -, -, hcount⟩ := requests_answered hes
  exact ⟨m, hm, hcount⟩

/-! ## Room -/

/-- In every state of a run that is allowed, a request gets an id exactly if fewer than `maxRequest` are
    outstanding. -/
def CapacityLaw (H : Type*) [Inhabited H] (nowMS maxRequest requestTimeoutMS : ℕ) : Prop :=
  ∀ es m, Along step Allowed (init H nowMS maxRequest requestTimeoutMS) es →
    ProxyPlatform.exec step (init H nowMS maxRequest requestTimeoutMS) es = .ok m →
    ∀ sourceHandle sourceRequestId id, m.sourceRequestPool.get id.1 = none →
      ((m.acquire sourceHandle sourceRequestId id).1 ≠ 0 ↔
        {id | ∃ request, Outstanding (clampTimeout requestTimeoutMS)
          ((init H nowMS maxRequest requestTimeoutMS).history es) id request}.encard < maxRequest)

theorem acquire_ne_zero (m : TcpServiceRequestMap H) (sourceHandle : H) (sourceRequestId : ℕ)
    (id : { i : ℕ // i ≠ 0 }) :
    (m.acquire sourceHandle sourceRequestId id).1 ≠ 0 ↔
      m.sourceRequestPool.size < m.sourceRequestPool.capacity := by
  unfold acquire
  split
  · next h => exact iff_of_true id.2 h
  · next h => exact iff_of_false (not_not.2 rfl) h

/-- The requests outstanding are those in the pool, which has as many slots as the timeout has
    milliseconds. -/
theorem encard_outstanding {nowMS maxRequest requestTimeoutMS : ℕ} {es : List (RequestMapEvent H)}
    {m : TcpServiceRequestMap H}
    (hes : Along step Allowed (init H nowMS maxRequest requestTimeoutMS) es)
    (hm : ProxyPlatform.exec step (init H nowMS maxRequest requestTimeoutMS) es = .ok m) :
    {id | ∃ request, Outstanding (clampTimeout requestTimeoutMS)
        ((init H nowMS maxRequest requestTimeoutMS).history es) id request}.encard =
          m.sourceRequestPool.size ∧
      m.sourceRequestPool.capacity = clampTimeout requestTimeoutMS := by
  obtain ⟨m', hm', h⟩ := Agrees.exec (.init nowMS maxRequest requestTimeoutMS) hes
  rw [hm] at hm'
  cases hm'
  exact ⟨by rw [h.count, h.filed.count], h.capacity⟩

/-- Acquiring `n` requests, under the ids up to `n`. -/
def fillRun (H : Type*) [Inhabited H] (n : ℕ) : List (RequestMapEvent H) :=
  (List.range n).map fun i => .acquire default 0 ⟨i + 1, i.succ_ne_zero⟩

/-- As many requests as the timeout has milliseconds can be outstanding. -/
theorem exec_fillRun (nowMS maxRequest requestTimeoutMS : ℕ) {n : ℕ}
    (hn : n ≤ clampTimeout requestTimeoutMS) :
    ∃ m, ProxyPlatform.exec step (init H nowMS maxRequest requestTimeoutMS) (fillRun H n) = .ok m ∧
      Along step Allowed (init H nowMS maxRequest requestTimeoutMS) (fillRun H n) ∧
      m.sourceRequestPool.size = n ∧
      m.sourceRequestPool.capacity = clampTimeout requestTimeoutMS ∧
      ∀ id, n < id → m.sourceRequestPool.get id = none := by
  induction n with
  | zero => exact ⟨_, rfl, trivial, rfl, rfl, fun _ _ => rfl⟩
  | succ n ih =>
    obtain ⟨m, hm, hes, hsize, hcapacity, hget⟩ := ih (Nat.le_of_succ_le hn)
    have hfree : m.sourceRequestPool.get (n + 1) = none := hget _ (Nat.lt_succ_self n)
    have hroom : m.sourceRequestPool.size < m.sourceRequestPool.capacity := by
      rw [hsize, hcapacity]
      exact hn
    have hrun : fillRun H (n + 1) = fillRun H n ++ [.acquire default 0 ⟨n + 1, n.succ_ne_zero⟩] := by
      rw [fillRun, List.range_succ, List.map_append]
      rfl
    rw [hrun]
    refine ⟨_, (exec_snoc _ hm).trans rfl, hes.snoc hm hfree, ?_⟩
    rw [acquire, if_pos hroom]
    refine ⟨(Slots.size_insert _ ⟨n.succ_ne_zero, hfree⟩).trans (by rw [hsize]), hcapacity,
      fun id hid => ?_⟩
    dsimp only
    rw [Slots.get_insert, if_neg (by omega), hget id (by omega)]

/-- There is room for another number of requests than the timeout has milliseconds. -/
theorem not_capacityLaw {nowMS maxRequest requestTimeoutMS : ℕ}
    (hne : maxRequest ≠ clampTimeout requestTimeoutMS) :
    ¬CapacityLaw H nowMS maxRequest requestTimeoutMS := by
  intro hlaw
  -- The map is filled up to the smaller of the two bounds, where they differ.
  obtain ⟨m, hm, hes, hsize, hcapacity, hget⟩ :=
    exec_fillRun (H := H) nowMS maxRequest requestTimeoutMS
      (min_le_right maxRequest (clampTimeout requestTimeoutMS))
  have hfree := hget (min maxRequest (clampTimeout requestTimeoutMS) + 1) (Nat.lt_succ_self _)
  have h := hlaw _ m hes hm default 0 ⟨_, Nat.succ_ne_zero _⟩ hfree
  rw [acquire_ne_zero, (encard_outstanding hes hm).1, hsize, hcapacity, Nat.cast_lt] at h
  omega

/-- There is room for the number of requests the map is made for if and only if that is the timeout it
    is made with, cut to what is allowed. -/
theorem capacityLaw_iff (nowMS maxRequest requestTimeoutMS : ℕ) :
    CapacityLaw H nowMS maxRequest requestTimeoutMS ↔ maxRequest = clampTimeout requestTimeoutMS := by
  constructor
  · intro h
    by_contra hne
    exact not_capacityLaw hne h
  · rintro heq es m hes hm sourceHandle sourceRequestId id -
    obtain ⟨hcount, hcapacity⟩ := encard_outstanding hes hm
    rw [acquire_ne_zero, hcount, hcapacity, heq, Nat.cast_lt]

/-- A map made for one request, with the timeout it has by default, has room for more. -/
theorem capacityLaw_counterexample : ¬CapacityLaw ℕ 0 1 1000 := not_capacityLaw (by decide)

end TcpServiceRequestMap

end ProxyPlatform
