import ProxyPlatform.Base.Run
import ProxyPlatform.Base.Since
import ProxyPlatform.Base.Storage

/-!
# The topics of the Kafka producer

An `RdKfkProducer` has a native topic for each topic that was added, in a pool under the id
that it hands out. A topic is deleted when it is removed, and `clean` deletes those that
are in the list of the active topics, and then the native producer. But no topic is ever
linked in that list:

* `Tracks`: the ids in use are those that were handed out and not removed since; each has a native
  topic of its own, which was not deleted yet, and all others were deleted once;
* `topicsDeleted_iff`: the topics are deleted as they should only if each was removed before.

The native topics are numbered in the order in which they are created; whether one can
be created comes with the call. What cleaning a pool does to the objects it has is not modelled.
-/

namespace ProxyPlatform

def nativeTopicPoolSize : ℕ := 500

/-- `xNativeTopic`. -/
structure NativeTopic where
  topicId : ℕ := 0
  native : Option ℕ := none

/-- The topics of an `xRdKfkProducer`. -/
structure RdKfkProducer where
  nativeTopicPool : Storage NativeTopic
  activeTopicList : List ℕ := []

/-- A call by the user of a producer. With a topic to add comes whether the native one can be
    created. -/
inductive ProducerCall
  | addTopic (created : Bool)
  | removeTopic (topicId : ℕ)
  deriving DecidableEq

/-- What is done to the native objects. -/
inductive ProducerEntry
  | topicCreated (native : ℕ)
  | topicDeleted (native : ℕ)
  | producerDeleted
  | confDeleted
  | deliveryReportCBDeleted
  | eventCBDeleted
  | topicPoolCleaned
  deriving DecidableEq

def ProducerEntry.isCreation : ProducerEntry → Bool
  | topicCreated _ => true
  | _ => false

/-- The native topic it is about. -/
def ProducerEntry.topic : ProducerEntry → Option ℕ
  | topicCreated p | topicDeleted p => some p
  | _ => none

/-- The number of native topics that were created. -/
def creations (log : List ProducerEntry) : ℕ := log.countP ProducerEntry.isCreation

namespace RdKfkProducer

def init : RdKfkProducer where
  nativeTopicPool := .empty nativeTopicPoolSize

/-- Releasing an id; the topic unlinks itself. -/
def release (s : RdKfkProducer) (topicId : ℕ) : RdKfkProducer where
  nativeTopicPool := s.nativeTopicPool.release topicId
  activeTopicList := s.activeTopicList.filter (· ≠ topicId)

/-- `AddTopic`, where the native topic that is created, if it can be, is `native`. -/
def addTopic (s : RdKfkProducer) (native : Option ℕ) :
    ℕ × RdKfkProducer × List ProducerEntry :=
  match s.nativeTopicPool.acquire fun i => ({ topicId := i } : NativeTopic) with
  | none => (0, s, [])
  | some (i, pool) => match native with
    | none => (0, release { s with nativeTopicPool := pool } i, [])
    -- The topic is not linked in `ActiveTopicList`.
    | some p =>
      (i, { s with nativeTopicPool := pool.set i { topicId := i, native := native } },
        [.topicCreated p])

/-- `delete` of the native topic, if there is one. -/
def deleteNative (N : NativeTopic) : List ProducerEntry :=
  (N.native.map ProducerEntry.topicDeleted).toList

/-- `RemoveTopic`. -/
def removeTopic (s : RdKfkProducer) (topicId : ℕ) : RdKfkProducer × List ProducerEntry :=
  match s.nativeTopicPool.get topicId with
  | none => (s, [])
  | some N => (s.release N.topicId, deleteNative N)

/-- The loop of `RemoveAllTopics`, of at most as many rounds as there are topics in the list. -/
def removeAllTopicsLoop :
    ℕ → RdKfkProducer → Except Fault (RdKfkProducer × List ProducerEntry)
  | 0, s => .ok (s, [])
  | k + 1, s => match s.activeTopicList with
    | [] => .ok (s, [])
    | i :: list => match s.nativeTopicPool.get i with
      | none => .error .danglingPointer
      | some N => match removeAllTopicsLoop k ({ s with activeTopicList := list }.release N.topicId) with
        | .error x => .error x
        | .ok (s, deleted) => .ok (s, deleteNative N ++ deleted)

/-- `RemoveAllTopics`. -/
def removeAllTopics (s : RdKfkProducer) : Except Fault (RdKfkProducer × List ProducerEntry) :=
  removeAllTopicsLoop s.activeTopicList.length s

/-- `Clean`, from where the thread has stopped, with the topics as the cleaning of the pool finds
    them. -/
def clean (s : RdKfkProducer) : Except Fault (RdKfkProducer × List ProducerEntry) :=
  match s.removeAllTopics with
  | .error x => .error x
  | .ok (s, deleted) =>
    -- the scope guards go in reverse
    .ok (s, deleted ++ [.producerDeleted, .confDeleted, .deliveryReportCBDeleted, .eventCBDeleted,
      .topicPoolCleaned])

/-- One call, with all that was done so far. -/
def step (s : RdKfkProducer × List ProducerEntry) :
    ProducerCall → RdKfkProducer × List ProducerEntry
  | .addTopic created =>
    let r := s.1.addTopic (if created then some (creations s.2) else none)
    (r.2.1, s.2 ++ r.2.2)
  | .removeTopic topicId =>
    let r := s.1.removeTopic topicId
    (r.1, s.2 ++ r.2)

/-- The producer after some calls, with what they did. -/
def run (es : List ProducerCall) : RdKfkProducer × List ProducerEntry := es.foldl step (init, [])

/-- `Clean` after some calls. -/
def runAndClean (es : List ProducerCall) : Except Fault (RdKfkProducer × List ProducerEntry) :=
  match (run es).1.clean with
  | .error x => .error x
  | .ok (s, done) => .ok (s, (run es).2 ++ done)

theorem run_concat (es : List ProducerCall) (e : ProducerCall) :
    run (es ++ [e]) = step (run es) e := List.foldl_concat _ _ _ _

variable {s t : RdKfkProducer × List ProducerEntry} {es : List ProducerCall} {i p : ℕ}
  {pool : Storage NativeTopic} {N : NativeTopic}

/-! ## The native topics -/

/-- The topics in use have native topics of their own, which are there, and all others that were
    created were deleted once. -/
structure Tracks (s : RdKfkProducer × List ProducerEntry) : Prop where
  active : s.1.activeTopicList = []
  native : ∀ i N, s.1.nativeTopicPool.get i = some N →
    N.topicId = i ∧ ∃ p, N.native = some p ∧ .topicCreated p ∈ s.2 ∧ .topicDeleted p ∉ s.2
  unique : ∀ i j N M, s.1.nativeTopicPool.get i = some N → s.1.nativeTopicPool.get j = some M →
    N.native = M.native → i = j
  deleted : ∀ p, .topicCreated p ∈ s.2 →
    (∃ i N, s.1.nativeTopicPool.get i = some N ∧ N.native = some p) ∨
      s.2.count (.topicDeleted p) = 1
  bound : ∀ e ∈ s.2, ∀ p, e.topic = some p → p < creations s.2
  alive : .producerDeleted ∉ s.2

namespace Tracks

theorem start : Tracks (init, []) where
  active := rfl
  native _ _ h := by cases h
  unique _ _ _ _ h := by cases h
  deleted _ h := absurd h List.not_mem_nil
  bound _ h := absurd h List.not_mem_nil
  alive := List.not_mem_nil

/-- A topic that could not be created leaves no trace. -/
theorem fail (h : Tracks s)
    (ha : (s.1.nativeTopicPool.acquire fun i => { topicId := i }) = some (i, pool)) :
    Tracks (release { s.1 with nativeTopicPool := pool } i, s.2) := by
  have hget (j : ℕ) : (pool.release i).get j = s.1.nativeTopicPool.get j := by
    rw [Storage.get_release, Storage.get_acquire ha]
    split
    · next hj => rw [hj, Storage.get_of_acquire ha]
    · rfl
  refine ⟨?_, fun j N hN => ?_, fun j k N M hN hM => ?_, fun p hp => ?_, h.bound, h.alive⟩
  · simp [release, h.active]
  · exact h.native j N ((hget j).symm.trans hN)
  · exact h.unique j k N M ((hget j).symm.trans hN) ((hget k).symm.trans hM)
  · refine (h.deleted p hp).imp_left ?_
    rintro ⟨j, N, hN, hp⟩
    exact ⟨j, N, (hget j).trans hN, hp⟩

/-- The next native topic is a new one. -/
theorem not_mem {e : ProducerEntry} (h : Tracks s) (he : e.topic = some (creations s.2)) :
    e ∉ s.2 :=
  fun hmem => absurd (h.bound e hmem _ he) (Nat.lt_irrefl _)

theorem add (h : Tracks s)
    (ha : (s.1.nativeTopicPool.acquire fun i => { topicId := i }) = some (i, pool)) :
    Tracks ({ s.1 with nativeTopicPool := pool.set i ⟨i, some (creations s.2)⟩ },
      s.2 ++ [.topicCreated (creations s.2)]) := by
  have hnone := Storage.get_of_acquire ha
  have hget (j : ℕ) : (pool.set i ⟨i, some (creations s.2)⟩).get j =
      if j = i then some ⟨i, some (creations s.2)⟩ else s.1.nativeTopicPool.get j := by
    rw [Storage.get_set (x := ⟨i, none⟩) (by rw [Storage.get_acquire ha, if_pos rfl]),
      Storage.get_acquire ha]
    split <;> rfl
  have hcreated : ProducerEntry.topicCreated (creations s.2) ∉ s.2 := h.not_mem rfl
  have hdeleted : ProducerEntry.topicDeleted (creations s.2) ∉ s.2 := h.not_mem rfl
  -- the native topics of the others were created before
  have hother {j : ℕ} {M : NativeTopic} (hM : s.1.nativeTopicPool.get j = some M) :
      M.native ≠ some (creations s.2) := by
    intro heq
    obtain ⟨-, q, hq, hmem, -⟩ := h.native j M hM
    rw [hq] at heq
    cases heq
    exact hcreated hmem
  refine ⟨h.active, fun j N hN => ?_, fun j k N M hN hM heq => ?_, fun p hp => ?_,
    fun e he p hp => ?_, ?_⟩
  · rw [hget] at hN
    split at hN
    · next hj =>
      cases hN
      exact ⟨hj.symm, _, rfl, by simp, by simpa using hdeleted⟩
    · obtain ⟨hid, q, hq, hmem, hnot⟩ := h.native j N hN
      exact ⟨hid, q, hq, List.mem_append_left _ hmem, by simpa using hnot⟩
  · rw [hget] at hN hM
    split at hN <;> split at hM
    · next hj hk => rw [hj, hk]
    · cases hN
      exact absurd heq.symm (hother hM)
    · cases hM
      exact absurd heq (hother hN)
    · exact h.unique j k N M hN hM heq
  · rw [List.count_append, List.count_singleton, if_neg (by simp), Nat.add_zero]
    rcases List.mem_append.1 hp with hp | hp
    · refine (h.deleted p hp).imp_left ?_
      rintro ⟨j, N, hN, hNp⟩
      refine ⟨j, N, ?_, hNp⟩
      have hji : j ≠ i := by
        rintro rfl
        rw [hnone] at hN
        cases hN
      rw [hget, if_neg hji, hN]
    · obtain rfl : p = creations s.2 := by simpa using hp
      exact .inl ⟨i, _, by rw [hget, if_pos rfl], rfl⟩
  · have hcount : creations (s.2 ++ [.topicCreated (creations s.2)]) = creations s.2 + 1 := by
      simp [creations, ProducerEntry.isCreation]
    rw [hcount]
    rcases List.mem_append.1 he with he | he
    · exact (h.bound e he p hp).trans (Nat.lt_succ_self _)
    · rw [List.mem_singleton.1 he] at hp
      cases hp
      exact Nat.lt_succ_self _
  · simpa using h.alive

theorem remove (h : Tracks s) (hN : s.1.nativeTopicPool.get i = some N) :
    Tracks (s.1.release N.topicId, s.2 ++ deleteNative N) := by
  obtain ⟨hid, p, hp, hcreated, hdeleted⟩ := h.native i N hN
  have hget (j : ℕ) : (s.1.release N.topicId).nativeTopicPool.get j =
      if j = i then none else s.1.nativeTopicPool.get j := by
    rw [release, hid]
    exact Storage.get_release _ _ _
  rw [show deleteNative N = [.topicDeleted p] by rw [deleteNative, hp]; rfl]
  -- the other topics have other native topics
  have hother {j q : ℕ} {M : NativeTopic} (hj : j ≠ i)
      (hM : s.1.nativeTopicPool.get j = some M) (hq : M.native = some q) : q ≠ p := by
    rintro rfl
    exact hj (h.unique j i M N hM hN (hq.trans hp.symm))
  refine ⟨?_, fun j M hM => ?_, fun j k M L hM hL heq => ?_, fun q hq => ?_,
    fun e he q hq => ?_, ?_⟩
  · simp [release, h.active]
  · rw [hget] at hM
    split at hM
    · cases hM
    · next hj =>
      obtain ⟨hMid, q, hq, hmem, hnot⟩ := h.native j M hM
      refine ⟨hMid, q, hq, List.mem_append_left _ hmem, ?_⟩
      simpa [hother hj hM hq] using hnot
  · rw [hget] at hM hL
    split at hM
    · cases hM
    · split at hL
      · cases hL
      · exact h.unique j k M L hM hL heq
  · replace hq : .topicCreated q ∈ s.2 := by simpa using hq
    rw [List.count_append, List.count_singleton]
    by_cases hqp : q = p
    · right
      rw [hqp, List.count_eq_zero_of_not_mem hdeleted]
      simp
    · rw [if_neg (by simpa using Ne.symm hqp), Nat.add_zero]
      refine (h.deleted q hq).imp_left ?_
      rintro ⟨j, M, hM, hMq⟩
      have hj : j ≠ i := by
        rintro rfl
        rw [hN] at hM
        cases hM
        exact hqp (Option.some.inj (hMq.symm.trans hp))
      exact ⟨j, M, by rw [hget, if_neg hj, hM], hMq⟩
  · have hcount : creations (s.2 ++ [.topicDeleted p]) = creations s.2 := by
      simp [creations, ProducerEntry.isCreation]
    rw [hcount]
    rcases List.mem_append.1 he with he | he
    · exact h.bound e he q hq
    · rw [List.mem_singleton.1 he] at hq
      cases hq
      exact h.bound _ hcreated p rfl
  · simpa using h.alive

theorem step {e : ProducerCall} (h : Tracks s) : Tracks (RdKfkProducer.step s e) := by
  cases e with
  | addTopic created =>
    rcases ha : s.1.nativeTopicPool.acquire fun i => ({ topicId := i } : NativeTopic) with
      _ | ⟨i, pool⟩
    · simpa only [RdKfkProducer.step, addTopic, ha, List.append_nil] using h
    · cases created with
      | false =>
        simpa only [RdKfkProducer.step, addTopic, ha, Bool.false_eq_true, if_false,
          List.append_nil] using h.fail ha
      | true => simpa only [RdKfkProducer.step, addTopic, ha, if_true] using h.add ha
  | removeTopic i =>
    rcases hN : s.1.nativeTopicPool.get i with _ | N
    · simpa only [RdKfkProducer.step, removeTopic, hN, List.append_nil] using h
    · simpa only [RdKfkProducer.step, removeTopic, hN] using h.remove hN

theorem run (es : List ProducerCall) : Tracks (RdKfkProducer.run es) := by
  induction es using List.reverseRecOn with
  | nil => exact start
  | append_singleton es e ih =>
    rw [run_concat]
    exact ih.step

end Tracks

/-! ## The ids in use -/

/-- The pool has room for a topic, and gives it the id `i`. -/
def HandsOut (s : RdKfkProducer) (i : ℕ) : Prop :=
  ∃ pool, (s.nativeTopicPool.acquire fun i => { topicId := i }) = some (i, pool)

/-- Among the calls `es` a topic was added under the id `i`, and not removed since. -/
def Kept (es : List ProducerCall) (i : ℕ) : Prop :=
  ∃ pre post, es = pre ++ .addTopic true :: post ∧ HandsOut (run pre).1 i ∧
    .removeTopic i ∉ post

theorem kept_concat {e : ProducerCall} :
    Kept (es ++ [e]) i ↔
      e = .addTopic true ∧ HandsOut (run es).1 i ∨ e ≠ .removeTopic i ∧ Kept es i := by
  constructor
  · rintro ⟨pre, post, h, hi, hpost⟩
    rcases concat_eq_append_cons.1 h with ⟨rfl, rfl, rfl⟩ | ⟨post, rfl, rfl⟩
    · exact .inl ⟨rfl, hi⟩
    · rw [List.mem_append, List.mem_singleton, not_or] at hpost
      exact .inr ⟨Ne.symm hpost.2, pre, post, rfl, hi, hpost.1⟩
  · rintro (⟨rfl, hi⟩ | ⟨he, pre, post, rfl, hi, hpost⟩)
    · exact ⟨es, [], rfl, hi, List.not_mem_nil⟩
    · refine ⟨pre, post ++ [e], by rw [List.append_assoc, List.cons_append], hi, ?_⟩
      rw [List.mem_append, List.mem_singleton, not_or]
      exact ⟨hpost, Ne.symm he⟩

/-- The ids in use after one more call. -/
theorem live_step {e : ProducerCall} (h : Tracks s) :
    ((step s e).1.nativeTopicPool.get i).isSome = true ↔
      e = .addTopic true ∧ HandsOut s.1 i ∨
        e ≠ .removeTopic i ∧ (s.1.nativeTopicPool.get i).isSome = true := by
  cases e with
  | addTopic created =>
    rcases ha : s.1.nativeTopicPool.acquire fun i => ({ topicId := i } : NativeTopic) with
      _ | ⟨j, pool⟩
    · simp [step, addTopic, HandsOut, ha]
    · have hget := Storage.get_acquire ha
      have hnone := Storage.get_of_acquire ha
      cases created with
      | false =>
        simp only [step, addTopic, ha, Bool.false_eq_true, if_false, release,
          Storage.get_release, hget]
        by_cases hij : i = j
        · simp [hij, hnone]
        · simp [hij]
      | true =>
        have hj : pool.get j = some ⟨j, none⟩ := by rw [hget, if_pos rfl]
        simp only [step, addTopic, ha, if_true, Storage.get_set hj, hget]
        by_cases hij : i = j
        · simp [HandsOut, ha, hij]
        · simp [HandsOut, ha, hij, Ne.symm hij]
  | removeTopic j =>
    rcases hN : s.1.nativeTopicPool.get j with _ | N
    · by_cases hij : i = j
      · simp [step, removeTopic, hN, hij]
      · simp [step, removeTopic, hN, Ne.symm hij]
    · simp only [step, removeTopic, hN, release, Storage.get_release, (h.native j N hN).1]
      by_cases hij : i = j
      · simp [hij]
      · simp [hij, Ne.symm hij]

/-- An id is in use as long as the topic it was handed out for is not removed. -/
theorem live_run : ((run es).1.nativeTopicPool.get i).isSome = true ↔ Kept es i := by
  induction es using List.reverseRecOn with
  | nil =>
    refine iff_of_false (fun h => by cases h) ?_
    rintro ⟨pre, post, h, -⟩
    cases pre <;> cases h
  | append_singleton es e ih => rw [run_concat, live_step (.run es), kept_concat, ih]

/-! ## The end -/

/-- The topics that were added by `es` are deleted as they should, if `t` is what `Clean` leaves. -/
structure TopicsDeleted (es : List ProducerCall) (t : RdKfkProducer × List ProducerEntry) :
    Prop where
  /-- A topic with a native one is in the list of the active topics, -/
  linked : ∀ i N, (run es).1.nativeTopicPool.get i = some N → N.native ≠ none →
    i ∈ (run es).1.activeTopicList
  /-- each native topic is deleted once, before the native producer, -/
  deleted : ∀ p, .topicCreated p ∈ t.2 → t.2.count (.topicDeleted p) = 1 ∧
    Precedes (.topicDeleted p) .producerDeleted t.2
  /-- and no id is left for the cleaning of the pool. -/
  released : ∀ i, t.1.nativeTopicPool.get i = none

/-- Each topic that was added is removed by a later call. -/
def AllRemoved (es : List ProducerCall) : Prop :=
  ∀ pre post i, es = pre ++ .addTopic true :: post → HandsOut (run pre).1 i →
    .removeTopic i ∈ post

theorem allRemoved_iff : AllRemoved es ↔ ∀ i, (run es).1.nativeTopicPool.get i = none := by
  have hkept : AllRemoved es ↔ ∀ i, ¬Kept es i := by
    constructor
    · rintro h i ⟨pre, post, hes, hi, hpost⟩
      exact hpost (h pre post i hes hi)
    · intro h pre post i hes hi
      by_contra hpost
      exact h i ⟨pre, post, hes, hi, hpost⟩
  rw [hkept]
  refine forall_congr' fun i => ?_
  rw [← live_run, Bool.not_eq_true, Option.isSome_eq_false_iff, Option.isNone_iff_eq_none]

/-- `Clean` finds no active topic, and deletes none. -/
theorem runAndClean_eq (es : List ProducerCall) :
    runAndClean es = .ok ((run es).1, (run es).2 ++ [.producerDeleted, .confDeleted,
      .deliveryReportCBDeleted, .eventCBDeleted, .topicPoolCleaned]) := by
  have hactive := (Tracks.run es).active
  simp only [runAndClean, clean, removeAllTopics, hactive]
  rfl

/-- The topics are deleted as they should if and only if each was removed before `Clean`. -/
theorem topicsDeleted_iff (es : List ProducerCall) :
    ∃ t, runAndClean es = .ok t ∧ (TopicsDeleted es t ↔ AllRemoved es) := by
  have h := Tracks.run es
  refine ⟨_, runAndClean_eq es, fun ht => allRemoved_iff.2 fun i => ?_, fun hall => ?_⟩
  · rcases hN : (run es).1.nativeTopicPool.get i with _ | N
    · rfl
    · -- the native topic is there, and is not deleted any more
      obtain ⟨-, p, -, hcreated, hdeleted⟩ := h.native i N hN
      have hcount := (ht.deleted p (List.mem_append_left _ hcreated)).1
      rw [List.count_append, List.count_eq_zero_of_not_mem hdeleted] at hcount
      simp at hcount
  have hnone := allRemoved_iff.1 hall
  refine ⟨fun i N hN => ?_, fun p hp => ?_, hnone⟩
  · rw [hnone i] at hN
    cases hN
  · replace hp : .topicCreated p ∈ (run es).2 := by simpa using hp
    have hcount : (run es).2.count (.topicDeleted p) = 1 := by
      refine (h.deleted p hp).resolve_left ?_
      rintro ⟨i, N, hN, -⟩
      rw [hnone i] at hN
      cases hN
    refine ⟨by simp [List.count_append, hcount], ?_⟩
    have hmem : .topicDeleted p ∈ (run es).2 := List.count_pos_iff.1 (by rw [hcount]; exact Nat.one_pos)
    obtain ⟨pre, post, hlog, hpost⟩ := exists_last hmem
    refine ⟨pre, post ++ [.producerDeleted, .confDeleted, .deliveryReportCBDeleted, .eventCBDeleted,
      .topicPoolCleaned], ?_, by simpa using hpost, by simp⟩
    rw [hlog, List.append_assoc, List.cons_append]

/-- A topic that is not removed is never deleted. -/
theorem topicsDeleted_counterexample :
    ¬∀ es t, runAndClean es = .ok t → TopicsDeleted es t := by
  intro h
  have hdeleted := (h [.addTopic true] _ (runAndClean_eq _)).deleted 0 (by decide)
  exact absurd hdeleted.1 (by decide)

end RdKfkProducer

end ProxyPlatform
