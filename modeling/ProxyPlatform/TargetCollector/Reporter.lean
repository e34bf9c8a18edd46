import Mathlib.Data.List.Forall2
import Mathlib.Data.List.Nodup
import ProxyPlatform.Base.Run
import ProxyPlatform.Common

/-!
# The target reporter

`xTargetCollectReporter` hands collected targets from the main thread to a thread that
posts them to the backend. A node goes through six lists:

* `PostCollectionList`, filled by the main thread;
* `PendingCollectionList`, grabbed by `Tick` under the lock;
* `TempPostList` and `TempFinishedList`, local to the posting thread: what it grabbed
  under the lock, and what it has posted of it;
* `FinishedCollectionList`, what it gives back under the lock;
* `FreeCollectionList`, local to `Tick` and to `Clean`, which destroy the nodes in it.

A step of the model is one turn of a loop that works on lists of its own thread, or one
section under the lock. A run is an interleaving of the steps of both threads: a step that
a thread cannot take where it is leaves the state as it was. The time at which a function
is called is part of the event. The calls of `KR.Post` and the nodes given out and taken
back by the pool are logged.

The lists form one queue (`Flow`), which is what posts every node once and in order. It is
broken where a node of it is dropped: the thread leaves its loop with nodes it grabbed, and
`Clean` destroys nodes the thread has not grabbed (`Drained`). The thread reads the clock
once, as it starts.

* `delivers_iff`: a run that ends with `Clean` delivers all reports, once, in order and with
  a time not before that of their posting, if and only if its steps meet `Drained`.
-/

namespace ProxyPlatform

/-- `xTargetCollectNode`. -/
structure TargetCollectNode where
  globalAuthId : ℕ
  targetAddress : NetAddress
  targetHost : Bytes
  count : ℕ
  /-- Which of the nodes given out by the pool it is. -/
  serial : ℕ
  /-- When it was posted by the main thread. -/
  postedAt : ℕ
  deriving DecidableEq

/-- `xPPB_TargetCollect`. -/
structure PPBTargetCollect where
  timeMs : ℕ
  auditId : ℕ
  domain : Bytes
  ipAddress : NetAddress
  port : ℕ
  timePeriodMs : ℕ
  totalRequestCount : ℕ

/-- A call of `KR.Post`. -/
structure KfkPost where
  msgKey : String
  message : PPBTargetCollect

def maxAuditReporterCount : ℕ := 200000

/-- The lists of nodes. -/
inductive TargetCollectList
  | postCollectionList
  | pendingCollectionList
  | tempPostList
  | tempFinishedList
  | finishedCollectionList
  | freeCollectionList
  deriving DecidableEq

/-- Where the main thread is: between two calls, in the loop at the end of `Tick`, in the `join`
    and in the loop of `Clean`, after `Clean`. -/
inductive ReporterCall
  | none
  | tick
  | join
  | clean
  | cleaned
  deriving DecidableEq

/-- Where the posting thread is: before `KfkThreadFunc`, at the head of its loop, in the loop over
    `TempPostList`, after its return. -/
inductive KfkThread
  | created
  | head
  | posting
  | returned
  deriving DecidableEq

/-- `xTargetCollectReporter`, with the variables of the functions that run. -/
structure TargetCollectReporter where
  runState : Bool
  call : ReporterCall
  thread : KfkThread
  /-- `NowMS` of `KfkThreadFunc`. -/
  nowMS : ℕ
  postCollectionList : List TargetCollectNode
  pendingCollectionList : List TargetCollectNode
  tempPostList : List TargetCollectNode
  tempFinishedList : List TargetCollectNode
  finishedCollectionList : List TargetCollectNode
  freeCollectionList : List TargetCollectNode
  /-- The nodes given out by `NodePool`. -/
  created : List TargetCollectNode
  /-- The nodes given back to it. -/
  destroyed : List TargetCollectNode
  posts : List KfkPost

/-- What the threads do next. -/
inductive ReporterEvent
  /-- `PostTargetCollect`, called at `nowMS`. -/
  | postTargetCollect (nowMS globalAuthId : ℕ) (targetAddress : NetAddress) (targetHost : Bytes)
    (count : ℕ)
  /-- `Tick`, up to the end of its section under the lock. -/
  | tick
  /-- A turn of the loop over `FreeCollectionList`, in `Tick` or in `Clean`. -/
  | destroy
  /-- `Clean`, up to the `join`. -/
  | clean
  /-- The `join`, and the lists grabbed after it. -/
  | join
  /-- `KfkThreadFunc` is entered at `nowMS`. -/
  | start (nowMS : ℕ)
  /-- The thread tests `RunState`. -/
  | test
  /-- A turn of the loop over `TempPostList`. -/
  | post
  /-- The section of `KfkThreadFunc` under the lock. -/
  | switch

namespace TargetCollectReporter

/-- The reporter after `Init`. -/
def init : TargetCollectReporter where
  runState := true
  call := .none
  thread := .created
  nowMS := 0
  postCollectionList := []
  pendingCollectionList := []
  tempPostList := []
  tempFinishedList := []
  finishedCollectionList := []
  freeCollectionList := []
  created := []
  destroyed := []
  posts := []

/-- The nodes of a list. -/
def list (s : TargetCollectReporter) : TargetCollectList → List TargetCollectNode
  | .postCollectionList => s.postCollectionList
  | .pendingCollectionList => s.pendingCollectionList
  | .tempPostList => s.tempPostList
  | .tempFinishedList => s.tempFinishedList
  | .finishedCollectionList => s.finishedCollectionList
  | .freeCollectionList => s.freeCollectionList

/-! ## Main thread -/

/-- `PostTargetCollect`. -/
def postTargetCollect (s : TargetCollectReporter) (nowMS globalAuthId : ℕ)
    (targetAddress : NetAddress) (targetHost : Bytes) (count : ℕ) : TargetCollectReporter :=
  -- The nodes in all lists count, those that wait to be destroyed included.
  if s.created.length - s.destroyed.length < maxAuditReporterCount then
    let node : TargetCollectNode :=
      { globalAuthId, targetAddress, targetHost, count, serial := s.created.length,
        postedAt := nowMS }
    { s with
      created := s.created ++ [node]
      postCollectionList := s.postCollectionList ++ [node] }
  else s

/-- `Tick`, up to the end of its section under the lock. -/
def tick (s : TargetCollectReporter) : TargetCollectReporter :=
  { s with
    call := .tick
    pendingCollectionList := s.pendingCollectionList ++ s.postCollectionList
    postCollectionList := []
    freeCollectionList := s.finishedCollectionList
    finishedCollectionList := [] }

/-- `Clean`, up to the `join`. -/
def clean (s : TargetCollectReporter) : TargetCollectReporter :=
  { s with runState := false, call := .join }

/-- The lists that `Clean` grabs. -/
def grabAll (s : TargetCollectReporter) : TargetCollectReporter :=
  { s with
    call := .clean
    freeCollectionList :=
      s.postCollectionList ++ s.pendingCollectionList ++ s.finishedCollectionList
    postCollectionList := []
    pendingCollectionList := []
    finishedCollectionList := [] }

/-- A turn of the loop over `FreeCollectionList`: the call returns when the list is empty. -/
def destroyHead (s : TargetCollectReporter) : TargetCollectReporter :=
  match s.freeCollectionList with
  | node :: rest => { s with freeCollectionList := rest, destroyed := s.destroyed ++ [node] }
  | [] => { s with call := if s.call = .clean then .cleaned else .none }

/-! ## Posting thread -/

/-- The message posted for a node. -/
def report (nowMS : ℕ) (node : TargetCollectNode) : KfkPost where
  msgKey := toString node.globalAuthId
  message :=
    { timeMs := nowMS
      auditId := node.globalAuthId
      domain := node.targetHost
      ipAddress := node.targetAddress
      port := 0
      timePeriodMs := 1
      totalRequestCount := node.count }

/-- The thread tests `RunState`; the lists of `KfkThreadFunc` end with it. -/
def testRunState (s : TargetCollectReporter) : Except Fault TargetCollectReporter :=
  if s.runState then
    if s.tempFinishedList = [] then .ok { s with thread := .posting } else .error .assertion
  else .ok { s with thread := .returned, tempPostList := [], tempFinishedList := [] }

/-- A turn of the loop over `TempPostList`, on the node at its head. -/
def postNode (s : TargetCollectReporter) (node : TargetCollectNode)
    (rest : List TargetCollectNode) : TargetCollectReporter :=
  { s with
    tempPostList := rest
    posts := s.posts ++ [report s.nowMS node]
    tempFinishedList := s.tempFinishedList ++ [node] }

/-- The section of `KfkThreadFunc` under the lock. -/
def switchLists (s : TargetCollectReporter) : TargetCollectReporter :=
  { s with
    thread := .head
    finishedCollectionList := s.finishedCollectionList ++ s.tempFinishedList
    tempFinishedList := []
    tempPostList := s.tempPostList ++ s.pendingCollectionList
    pendingCollectionList := [] }

/-- A step of either thread. -/
def step (s : TargetCollectReporter) : ReporterEvent → Except Fault TargetCollectReporter
  | .postTargetCollect nowMS globalAuthId targetAddress targetHost count =>
    .ok (if s.call = .none then
      s.postTargetCollect nowMS globalAuthId targetAddress targetHost count else s)
  | .tick => .ok (if s.call = .none then s.tick else s)
  | .destroy => .ok (if s.call = .tick ∨ s.call = .clean then s.destroyHead else s)
  | .clean => .ok (if s.call = .none then s.clean else s)
  | .join => .ok (if s.call = .join ∧ s.thread = .returned then s.grabAll else s)
  | .start nowMS =>
    .ok (if s.thread = .created then { s with thread := .head, nowMS := nowMS } else s)
  | .test => if s.thread = .head then s.testRunState else .ok s
  | .post =>
    .ok (match s.thread, s.tempPostList with
      | .posting, node :: rest => s.postNode node rest
      | _, _ => s)
  | .switch => .ok (if s.thread = .posting ∧ s.tempPostList = [] then s.switchLists else s)

/-! ## What a step does -/

variable {s t : TargetCollectReporter} {e : ReporterEvent}

/-- The steps that change something. -/
inductive Move (s : TargetCollectReporter) : ReporterEvent → TargetCollectReporter → Prop
  | create {nowMS globalAuthId : ℕ} {targetAddress : NetAddress} {targetHost : Bytes} {count : ℕ}
    {node : TargetCollectNode} (hcall : s.call = .none) (hserial : node.serial = s.created.length) :
    Move s (.postTargetCollect nowMS globalAuthId targetAddress targetHost count)
      { s with
        created := s.created ++ [node]
        postCollectionList := s.postCollectionList ++ [node] }
  | tick (hcall : s.call = .none) : Move s .tick s.tick
  | destroy {node : TargetCollectNode} {rest : List TargetCollectNode}
    (hcall : s.call = .tick ∨ s.call = .clean) (hfree : s.freeCollectionList = node :: rest) :
    Move s .destroy { s with freeCollectionList := rest, destroyed := s.destroyed ++ [node] }
  | leave (hcall : s.call = .tick ∨ s.call = .clean) (hfree : s.freeCollectionList = []) :
    Move s .destroy { s with call := if s.call = .clean then .cleaned else .none }
  | clean (hcall : s.call = .none) : Move s .clean s.clean
  | join (hcall : s.call = .join) (hthread : s.thread = .returned) : Move s .join s.grabAll
  | start {nowMS : ℕ} (hthread : s.thread = .created) :
    Move s (.start nowMS) { s with thread := .head, nowMS := nowMS }
  | enter (hthread : s.thread = .head) : Move s .test { s with thread := .posting }
  | exit (hthread : s.thread = .head) (hstate : s.runState = false) :
    Move s .test { s with thread := .returned, tempPostList := [], tempFinishedList := [] }
  | post {node : TargetCollectNode} {rest : List TargetCollectNode} (hthread : s.thread = .posting)
    (hpost : s.tempPostList = node :: rest) : Move s .post (s.postNode node rest)
  | switch (hthread : s.thread = .posting) (hpost : s.tempPostList = []) :
    Move s .switch s.switchLists

theorem eq_or_move_of_step (h : s.step e = .ok t) : t = s ∨ s.Move e t := by
  rcases e with ⟨nowMS, globalAuthId, targetAddress, targetHost, count⟩ | _ | _ | _ | _ | nowMS |
    _ | _ | _
  · obtain rfl := Except.ok.inj h
    split
    · next hcall =>
      unfold postTargetCollect
      split
      · exact .inr (.create hcall rfl)
      · exact .inl rfl
    · exact .inl rfl
  · obtain rfl := Except.ok.inj h
    split
    · next hcall => exact .inr (.tick hcall)
    · exact .inl rfl
  · obtain rfl := Except.ok.inj h
    split
    · next hcall =>
      unfold destroyHead
      split
      · next node rest hfree => exact .inr (.destroy hcall hfree)
      · next hfree => exact .inr (.leave hcall hfree)
    · exact .inl rfl
  · obtain rfl := Except.ok.inj h
    split
    · next hcall => exact .inr (.clean hcall)
    · exact .inl rfl
  · obtain rfl := Except.ok.inj h
    split
    · next hcall => exact .inr (.join hcall.1 hcall.2)
    · exact .inl rfl
  · obtain rfl := Except.ok.inj h
    split
    · next hthread => exact .inr (.start hthread)
    · exact .inl rfl
  · simp only [step, testRunState] at h
    split_ifs at h with hthread hstate htemp
    · obtain rfl := Except.ok.inj h
      exact .inr (.enter hthread)
    · obtain rfl := Except.ok.inj h
      exact .inr (.exit hthread (Bool.eq_false_iff.2 hstate))
    · exact .inl (Except.ok.inj h).symm
  · obtain rfl := Except.ok.inj h
    split
    · next node rest hthread hpost => exact .inr (.post hthread hpost)
    · exact .inl rfl
  · obtain rfl := Except.ok.inj h
    split
    · next hthread => exact .inr (.switch hthread.1 hthread.2)
    · exact .inl rfl

/-! ## The queue -/

/-- The nodes posted to the backend, in order. -/
def reported (s : TargetCollectReporter) : List TargetCollectNode :=
  s.destroyed ++ s.freeCollectionList ++ s.finishedCollectionList ++ s.tempFinishedList

/-- The nodes to be posted, in order. -/
def waiting (s : TargetCollectReporter) : List TargetCollectNode :=
  s.tempPostList ++ s.pendingCollectionList ++ s.postCollectionList

/-- A call of `KR.Post` reports a node, at a time that is not before its posting. -/
structure Reports (p : KfkPost) (node : TargetCollectNode) : Prop where
  msgKey : p.msgKey = toString node.globalAuthId
  auditId : p.message.auditId = node.globalAuthId
  domain : p.message.domain = node.targetHost
  ipAddress : p.message.ipAddress = node.targetAddress
  totalRequestCount : p.message.totalRequestCount = node.count
  timeMs : node.postedAt ≤ p.message.timeMs

theorem reports_report {nowMS : ℕ} {node : TargetCollectNode} :
    Reports (report nowMS node) node ↔ node.postedAt ≤ nowMS :=
  ⟨fun h => h.timeMs, fun h => ⟨rfl, rfl, rfl, rfl, rfl, h⟩⟩

/-- The lists are one queue, from `PostCollectionList` to the nodes destroyed. -/
structure Flow (s : TargetCollectReporter) : Prop where
  order : s.reported ++ s.waiting = s.created
  posts : List.Forall₂ Reports s.posts s.reported
  serial : s.created.map (·.serial) = List.range s.created.length
  tempFinished : s.thread ≠ .posting → s.tempFinishedList = []
  tempPost : s.thread = .returned → s.tempPostList = []
  free : s.call ≠ .tick → s.call ≠ .clean → s.freeCollectionList = []
  cleaned : s.call = .clean ∨ s.call = .cleaned → s.thread = .returned ∧
    s.finishedCollectionList = [] ∧ s.pendingCollectionList = [] ∧ s.postCollectionList = []

theorem flow_init : Flow init where
  order := rfl
  posts := .nil
  serial := rfl
  tempFinished _ := rfl
  tempPost h := by cases h
  free _ _ := rfl
  cleaned h := by rcases h with h | h <;> cases h

/-- No node of the queue is dropped: the thread posts a node after it was posted to it, it leaves its
    loop with nothing to post, and nothing is left for it to grab when it has left. -/
def Drained (s : TargetCollectReporter) : ReporterEvent → Prop
  | .post => s.thread = .posting → ∀ node ∈ s.tempPostList.head?, node.postedAt ≤ s.nowMS
  | .test => s.thread = .head → s.runState = false → s.tempPostList = []
  | .join => s.call = .join → s.thread = .returned →
    s.pendingCollectionList = [] ∧ s.postCollectionList = []
  | _ => True

instance (s : TargetCollectReporter) : ∀ e, Decidable (s.Drained e)
  | .post => inferInstanceAs (Decidable (s.thread = .posting →
      ∀ node ∈ s.tempPostList.head?, node.postedAt ≤ s.nowMS))
  | .test => inferInstanceAs (Decidable (s.thread = .head → s.runState = false →
      s.tempPostList = []))
  | .join => inferInstanceAs (Decidable (s.call = .join → s.thread = .returned →
      s.pendingCollectionList = [] ∧ s.postCollectionList = []))
  | .postTargetCollect .. | .tick | .destroy | .clean | .start _ | .switch => .isTrue trivial

theorem Flow.move (hs : Flow s) (hd : s.Drained e) (h : s.Move e t) : Flow t := by
  obtain ⟨horder, hposts, hserial, hfin, htemp, hfree, hcleaned⟩ := hs
  have hthread_ne : s.thread ≠ .returned → ∀ {p : Prop}, s.call = .clean ∨ s.call = .cleaned → p :=
    fun hne _ hcall => absurd (hcleaned hcall).1 hne
  cases h with
  | create hcall hnode =>
    refine ⟨?_, hposts, ?_, hfin, htemp, hfree, fun h => ?_⟩
    · rw [← horder]
      simp [reported, waiting]
    · simp [hserial, hnode, List.range_succ]
    · rw [hcall] at h
      rcases h with h | h <;> cases h
  | tick hcall =>
    have hlist := hfree (by simp [hcall]) (by simp [hcall])
    have hrep : s.tick.reported = s.reported := by simp [reported, tick, hlist]
    have hwait : s.tick.waiting = s.waiting := by simp [waiting, tick]
    refine ⟨?_, hrep ▸ hposts, hserial, hfin, htemp, fun h => absurd rfl h, fun h => ?_⟩
    · rwa [hrep, hwait]
    · rcases h with h | h <;> cases h
  | @destroy node rest hcall hlist =>
    have hrep : reported { s with freeCollectionList := rest, destroyed := s.destroyed ++ [node] } =
        s.reported := by
      simp only [reported, hlist, List.append_assoc, List.cons_append, List.nil_append]
    refine ⟨?_, hrep ▸ hposts, hserial, hfin, htemp, fun h h' => ?_, hcleaned⟩
    · rwa [hrep]
    · exact absurd hcall (not_or.2 ⟨h, h'⟩)
  | leave hcall hlist =>
    refine ⟨horder, hposts, hserial, hfin, htemp, fun _ _ => hlist, fun h => ?_⟩
    by_cases hclean : s.call = .clean
    · exact hcleaned (.inl hclean)
    · simp [hclean] at h
  | clean hcall =>
    refine ⟨horder, hposts, hserial, hfin, htemp, fun _ _ => ?_, fun h => ?_⟩
    · exact hfree (by simp [hcall]) (by simp [hcall])
    · rcases h with h | h <;> cases h
  | join hcall hthread =>
    obtain ⟨hpend, hpost⟩ := hd hcall hthread
    have hlist := hfree (by simp [hcall]) (by simp [hcall])
    have hrep : s.grabAll.reported = s.reported := by
      simp [reported, grabAll, hlist, hpend, hpost]
    have hwait : s.grabAll.waiting = s.waiting := by simp [waiting, grabAll, hpend, hpost]
    refine ⟨?_, hrep ▸ hposts, hserial, hfin, htemp, fun _ h => absurd rfl h, fun _ => ?_⟩
    · rwa [hrep, hwait]
    · exact ⟨hthread, rfl, rfl, rfl⟩
  | start hthread =>
    have hlist := hfin (by simp [hthread])
    refine ⟨horder, hposts, hserial, fun _ => hlist, fun h => ?_, hfree, ?_⟩
    · cases h
    · exact hthread_ne (by simp [hthread])
  | enter hthread =>
    refine ⟨horder, hposts, hserial, fun h => absurd rfl h, fun h => ?_, hfree, ?_⟩
    · cases h
    · exact hthread_ne (by simp [hthread])
  | exit hthread hstate =>
    have hpost := hd hthread hstate
    have hlist := hfin (by simp [hthread])
    refine ⟨?_, ?_, hserial, fun _ => rfl, fun _ => rfl, hfree, ?_⟩
    · rw [← horder]
      simp [reported, waiting, hpost, hlist]
    · simpa [reported, hlist] using hposts
    · exact hthread_ne (by simp [hthread])
  | @post node rest hthread hlist =>
    have hnode : Reports (report s.nowMS node) node :=
      reports_report.2 (hd hthread node (by rw [hlist]; rfl))
    have hrep : (s.postNode node rest).reported = s.reported ++ [node] := by
      simp only [reported, postNode, List.append_assoc]
    refine ⟨?_, ?_, hserial, fun h => absurd hthread h, fun h => ?_, hfree, ?_⟩
    · rw [hrep]
      change s.reported ++ [node] ++ (s.postNode node rest).waiting = s.created
      simp [← horder, waiting, postNode, hlist]
    · rw [hrep]
      exact List.rel_append hposts (.cons hnode .nil)
    · exact absurd h (by simp [postNode, hthread])
    · exact hthread_ne (by simp [hthread])
  | switch hthread hlist =>
    have hrep : s.switchLists.reported = s.reported := by simp [reported, switchLists]
    have hwait : s.switchLists.waiting = s.waiting := by simp [waiting, switchLists]
    refine ⟨?_, hrep ▸ hposts, hserial, fun _ => rfl, fun h => ?_, hfree, ?_⟩
    · rwa [hrep, hwait]
    · cases h
    · exact hthread_ne (by simp [hthread])

theorem Flow.next (hs : Flow s) (hd : s.Drained e) (h : s.step e = .ok t) : Flow t := by
  rcases eq_or_move_of_step h with rfl | hmove
  · exact hs
  · exact hs.move hd hmove

/-- A node is in one place of the queue. -/
theorem Flow.count (hs : Flow s) {node : TargetCollectNode} (hnode : node ∈ s.created) :
    s.destroyed.count node + s.freeCollectionList.count node +
      s.finishedCollectionList.count node + s.tempFinishedList.count node +
      s.tempPostList.count node + s.pendingCollectionList.count node +
      s.postCollectionList.count node = 1 := by
  have hnodup : s.created.Nodup := by
    refine List.Nodup.of_map (·.serial) ?_
    rw [hs.serial]
    exact List.nodup_range
  rw [← List.count_eq_one_of_mem hnodup hnode, ← hs.order]
  simp only [reported, waiting, List.count_append, Nat.add_assoc]

theorem Flow.posts_length (hs : Flow s) :
    s.posts.length + s.waiting.length = s.created.length := by
  rw [← hs.order, List.length_append, hs.posts.length_eq]

/-! ## Delivery -/

/-- What is owed for the nodes given out so far: one that is not destroyed is in one list, once; the
    nodes posted are the first ones, in order, and after `Clean` all are posted and destroyed. -/
structure Delivers (s : TargetCollectReporter) : Prop where
  held : ∀ node ∈ s.created, node ∉ s.destroyed →
    ∃ ℓ, (s.list ℓ).count node = 1 ∧ ∀ m, m ≠ ℓ → node ∉ s.list m
  destroyed : ∀ node ∈ s.created, s.destroyed.count node ≤ 1 ∧
    (node ∈ s.destroyed → ∀ ℓ, node ∉ s.list ℓ)
  posts : List.Forall₂ Reports s.posts (s.created.take s.posts.length)
  cleaned : s.call = .cleaned →
    s.posts.length = s.created.length ∧ ∀ node ∈ s.created, node ∈ s.destroyed

theorem Flow.delivers (hs : Flow s) : Delivers s := by
  refine ⟨fun node hnode hdest => ?_, fun node hnode => ?_, ?_, fun hcall => ?_⟩
  · have hcount := hs.count hnode
    rw [List.count_eq_zero.2 hdest] at hcount
    obtain ⟨ℓ, hℓ⟩ : ∃ ℓ, 0 < (s.list ℓ).count node := by
      by_contra hnone
      push Not at hnone
      have h₁ := hnone .postCollectionList
      have h₂ := hnone .pendingCollectionList
      have h₃ := hnone .tempPostList
      have h₄ := hnone .tempFinishedList
      have h₅ := hnone .finishedCollectionList
      have h₆ := hnone .freeCollectionList
      simp only [list] at h₁ h₂ h₃ h₄ h₅ h₆
      omega
    refine ⟨ℓ, ?_, fun m hm hmem => ?_⟩
    · rcases ℓ <;> simp only [list] at hℓ ⊢ <;> omega
    · have hpos := List.count_pos_iff.2 hmem
      rcases ℓ <;> rcases m <;> simp only [list] at hℓ hpos <;>
        first | exact hm rfl | omega
  · have hcount := hs.count hnode
    refine ⟨by omega, fun hdest ℓ hmem => ?_⟩
    have hdest := List.count_pos_iff.2 hdest
    have hpos := List.count_pos_iff.2 hmem
    rcases ℓ <;> simp only [list] at hpos <;> omega
  · rw [← hs.order, hs.posts.length_eq, List.take_left]
    exact hs.posts
  · obtain ⟨hthread, hfin, hpend, hpost⟩ := hs.cleaned (.inr hcall)
    have hne : s.thread ≠ .posting := by simp [hthread]
    have hwait : s.waiting = [] := by simp [waiting, hs.tempPost hthread, hpend, hpost]
    have hrep : s.reported = s.destroyed := by
      simp [reported, hfin, hs.tempFinished hne, hs.free (by simp [hcall]) (by simp [hcall])]
    have hlength := hs.posts_length
    have horder := hs.order
    rw [hwait, List.length_nil, Nat.add_zero] at hlength
    rw [hrep, hwait, List.append_nil] at horder
    exact ⟨hlength, fun node hnode => horder ▸ hnode⟩

/-- After the `join`, nothing is posted. -/
theorem exec_join {es : List ReporterEvent} (hcall : s.call = .clean) (hthread : s.thread = .returned)
    (h : exec step s es = .ok t) : t.posts = s.posts ∧ t.created = s.created := by
  have hrun : (t.call = .clean ∨ t.call = .cleaned) ∧ t.thread = .returned ∧ t.posts = s.posts ∧
      t.created = s.created := by
    refine exec_invariant (I := fun u => (u.call = .clean ∨ u.call = .cleaned) ∧
      u.thread = .returned ∧ u.posts = s.posts ∧ u.created = s.created)
      (fun u e v hu hv => ?_) ⟨.inl hcall, hthread, rfl, rfl⟩ h
    obtain ⟨hucall, huthread, hposts, hcreated⟩ := hu
    rcases eq_or_move_of_step hv with rfl | hmove
    · exact ⟨hucall, huthread, hposts, hcreated⟩
    · have hidle : u.call ≠ .none ∧ u.call ≠ .join := by
        rcases hucall with hc | hc <;> simp [hc]
      cases hmove with
      | create hc => exact absurd hc hidle.1
      | tick hc => exact absurd hc hidle.1
      | clean hc => exact absurd hc hidle.1
      | join hc => exact absurd hc hidle.2
      | destroy => exact ⟨hucall, huthread, hposts, hcreated⟩
      | leave hc =>
        have hclean : u.call = .clean := by
          rcases hucall with hc' | hc'
          · exact hc'
          · simp [hc'] at hc
        exact ⟨.inr (if_pos hclean), huthread, hposts, hcreated⟩
      | start ht => simp [huthread] at ht
      | enter ht => simp [huthread] at ht
      | exit ht => simp [huthread] at ht
      | post ht => simp [huthread] at ht
      | switch ht => simp [huthread] at ht
  exact hrun.2.2

/-- A step after which the nodes are held and posted as they should drops none of the queue, if the
    run ends with all of them posted. -/
theorem Flow.drained {u : TargetCollectReporter} {es : List ReporterEvent} (hs : Flow s)
    (h : s.step e = .ok t) (ht : Delivers t) (hrun : exec step t es = .ok u) (hu : Delivers u)
    (hcleaned : u.call = .cleaned) : s.Drained e := by
  rcases e with _ | _ | _ | _ | _ | _ | _ | _ | _ <;> try trivial
  · intro hcall hthread
    obtain rfl : s.grabAll = t := by simpa [TargetCollectReporter.step, hcall, hthread] using h
    obtain ⟨hposts, hcreated⟩ := exec_join (s := s.grabAll) rfl hthread hrun
    have hall := (hu.cleaned hcleaned).1
    rw [hposts, hcreated] at hall
    have hwait : s.waiting = [] := by
      have hlength := hs.posts_length
      exact List.eq_nil_of_length_eq_zero (by change s.posts.length = s.created.length at hall; omega)
    simp only [waiting, List.append_eq_nil_iff] at hwait
    exact ⟨hwait.1.2, hwait.2⟩
  · intro hthread hstate
    obtain rfl : { s with thread := .returned, tempPostList := [], tempFinishedList := [] } = t := by
      simpa [TargetCollectReporter.step, testRunState, hthread, hstate] using h
    by_contra hne
    obtain ⟨node, hnode⟩ := List.exists_mem_of_ne_nil _ hne
    have hmem : node ∈ s.created := by
      rw [← hs.order]
      simp [waiting, hnode]
    have hcount := hs.count hmem
    have hpos := List.count_pos_iff.2 hnode
    have hdest : node ∉ s.destroyed := List.count_eq_zero.1 (by omega)
    obtain ⟨ℓ, hℓ, -⟩ := ht.held node hmem hdest
    rcases ℓ <;> simp only [list, List.count_nil] at hℓ <;> omega
  · intro hthread node hnode
    obtain ⟨rest, hlist⟩ : ∃ rest, s.tempPostList = node :: rest := by
      cases hl : s.tempPostList with
      | nil => simp [hl] at hnode
      | cons head rest =>
        obtain rfl : head = node := by simpa [hl] using hnode
        exact ⟨rest, rfl⟩
    obtain rfl : s.postNode node rest = t := by
      simpa [TargetCollectReporter.step, hthread, hlist] using h
    have htake : s.created.take (s.posts.length + 1) = s.reported ++ [node] := by
      rw [← hs.order, hs.posts.length_eq, waiting, hlist, List.take_length_add_append]
      rfl
    have hposts := ht.posts
    simp only [postNode, List.length_append, List.length_singleton] at hposts
    rw [htake, ← List.forall₂_reverse_iff, List.reverse_append, List.reverse_append] at hposts
    exact (List.forall₂_cons.1 hposts).1.timeMs

/-- `TempFinishedList` is empty whenever the thread asserts that it is: no run fails. -/
theorem exists_exec (es : List ReporterEvent) : ∃ t, exec step init es = .ok t := by
  suffices h : ∀ s, (s.thread ≠ .posting → s.tempFinishedList = []) →
      ∃ t, exec step s es = .ok t from h init fun _ => rfl
  induction es with
  | nil => exact fun s _ => ⟨s, rfl⟩
  | cons e es ih =>
    intro s hs
    obtain ⟨t, ht⟩ : ∃ t, s.step e = .ok t := by
      rcases e with _ | _ | _ | _ | _ | _ | _ | _ | _ <;> try exact ⟨_, rfl⟩
      by_cases hthread : s.thread = .head
      · cases hstate : s.runState <;>
          simp [TargetCollectReporter.step, testRunState, hthread, hstate, hs]
      · exact ⟨s, if_neg hthread⟩
    rw [exec_cons_of_ok es ht]
    refine ih t ?_
    rcases eq_or_move_of_step ht with rfl | hmove
    · exact hs
    · cases hmove with
      | post hthread => exact fun h => absurd hthread h
      | start hthread =>
        have hne : s.thread ≠ .posting := by simp [hthread]
        exact fun _ => hs hne
      | enter => exact fun h => absurd rfl h
      | exit => exact fun _ => rfl
      | switch => exact fun _ => rfl
      | create => exact hs
      | tick => exact hs
      | destroy => exact hs
      | leave => exact hs
      | clean => exact hs
      | join => exact hs

theorem flow_of_along {es : List ReporterEvent} (hd : Along step Drained init es)
    (h : exec step init es = .ok t) : Flow t :=
  exec_invariant_along (fun _ _ _ hs hd h => hs.next hd h) flow_init hd h

/-- A run that ends with `Clean` delivers all reports if and only if it drops none of the queue. -/
theorem delivers_iff {es : List ReporterEvent} (h : exec step init es = .ok t)
    (hcleaned : t.call = .cleaned) :
    (∀ s, Visits step init es s → Delivers s) ↔ Along step Drained init es := by
  constructor
  · intro hdel
    suffices hpre : ∀ pre, pre <+: es → Along step Drained init pre from hpre es List.prefix_rfl
    intro pre hpre
    induction pre using List.reverseRecOn with
    | nil => trivial
    | append_singleton pre e ih =>
      have hbefore := ih ((List.prefix_append pre [e]).trans hpre)
      -- the run up to the step, the step, and the run after it
      obtain ⟨rest, rfl⟩ := hpre
      obtain ⟨u, hu, hrest⟩ := exec_append_eq_ok.1 h
      obtain ⟨s, hs, hstep⟩ := exec_append_eq_ok.1 hu
      obtain ⟨v, hv, heq⟩ := exec_cons_eq_ok.1 hstep
      obtain rfl : v = u := Except.ok.inj heq
      exact hbefore.snoc hs ((flow_of_along hbefore hs).drained hv
        (hdel v ⟨_, List.prefix_append _ _, hu⟩) hrest (hdel t ⟨_, List.prefix_rfl, h⟩) hcleaned)
  · rintro hd s ⟨pre, hpre, hs⟩
    exact (flow_of_along (hd.of_prefix hpre) hs).delivers

/-- A run in which a target posted at time 2 is reported. -/
def reportingRun (startMS : ℕ) : List ReporterEvent :=
  [.start startMS, .postTargetCollect 2 7 {} [97] 3, .tick, .destroy, .test, .switch, .test, .post,
    .switch, .clean, .test, .join, .destroy, .destroy]

theorem delivers_reportingRun :
    ∃ t, exec step init (reportingRun 2) = .ok t ∧ t.call = .cleaned ∧ t.posts.length = 1 ∧
      ∀ s, Visits step init (reportingRun 2) s → Delivers s := by
  obtain ⟨t, ht, hc⟩ := exists_ok_of_check (x := exec step init (reportingRun 2))
    (p := fun t => t.call = .cleaned ∧ t.posts.length = 1) (by decide +kernel)
  obtain ⟨hcall, hposts⟩ := of_decide_eq_true hc
  exact ⟨t, ht, hcall, hposts, (delivers_iff ht hcall).2 (along_of_check (by decide +kernel))⟩

/-- The thread started before the target was posted: the report has a time before it. -/
theorem not_delivers_of_late_post :
    ¬∀ es t, exec step init es = .ok t → t.call = .cleaned →
      ∀ s, Visits step init es s → Delivers s := by
  intro h
  obtain ⟨t, ht, hc⟩ := exists_ok_of_check (x := exec step init (reportingRun 1))
    (p := fun t => t.call = .cleaned ∧ t.created.map (·.postedAt) = [2] ∧
      t.posts.map (·.message.timeMs) = [1]) (by decide +kernel)
  obtain ⟨hcall, hcreated, hposts⟩ := of_decide_eq_true hc
  have hlate := (h _ t ht hcall t ⟨_, List.prefix_rfl, ht⟩).posts
  obtain ⟨node, hnode, hpostedAt⟩ := List.map_eq_singleton_iff.1 hcreated
  obtain ⟨p, hp, htimeMs⟩ := List.map_eq_singleton_iff.1 hposts
  rw [hnode, hp] at hlate
  have hle := (List.forall₂_cons.1 hlate).1.timeMs
  omega

end TargetCollectReporter

end ProxyPlatform
