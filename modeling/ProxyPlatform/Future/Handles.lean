import ProxyPlatform.Base.Slots
import ProxyPlatform.Future.Calls
import Mathlib.Logic.Function.Basic

/-!
# Handles of futures

A service keeps a future of another service as a `FutureHandle`: the manager that has the
future, and the future's id. The handle may outlive the future, and then finds none.

A `FutureWorld` has any number of managers, each with futures of its own, and all handles that
were made. The calls on one manager are in the log of that manager only (`part`), so that what
is known of a single manager (`FuturePoolManager.Tracks`) holds of each, whichever the order
in which the managers are called (`FutureWorld.Tracks`). The ids of different managers are the
same numbers: a handle reaches its own future because it has the manager, too.

`FutureWorld.handles_agree` is the result: what a handle finds, what is in the ready lists, what
is released and what is counted, after any run.
-/

namespace ProxyPlatform

/-- `xFutureHandle`. -/
structure FutureHandle (ι : Type*) where
  manager : Option ι := none
  futureId : ℕ := 0
  deriving DecidableEq

/-- The managers, and the handles in the order in which they were made. -/
structure FutureWorld (ι χ ρ : Type*) where
  managers : ι → FuturePoolManager χ ρ
  handles : List (FutureHandle ι) := []

/-- A call on a manager, or a handle that is made: of a future, of none, or as a copy of the
    `k`-th. -/
inductive FutureEvent (ι χ ρ : Type*)
  | call (m : ι) (c : FutureCall χ ρ)
  | handleOf (m : ι) (futureId : ℕ)
  | nullHandle
  | copyHandle (k : ℕ)

/-- What happened, to a future of the manager `m` or to the handles. -/
inductive WorldEntry (ι χ : Type*)
  | future (m : ι) (e : FutureEntry χ)
  | handleOf (m : ι) (futureId : ℕ)
  | nullHandle
  | copyHandle (k : ℕ)

namespace WorldEntry

variable {ι χ : Type*}

/-- The future that a handle was made from, for one handle more. -/
def source (sources : List (Option (ι × ℕ))) : WorldEntry ι χ → List (Option (ι × ℕ))
  | future _ _ => sources
  | handleOf m i => sources ++ [some (m, i)]
  | nullHandle => sources ++ [none]
  | copyHandle k => sources ++ (sources[k]?).toList

/-- What happened to a future of the manager `m`. -/
def part [DecidableEq ι] (m : ι) : WorldEntry ι χ → Option (FutureEntry χ)
  | future n e => if n = m then some e else none
  | _ => none

end WorldEntry

namespace FutureWorld

variable {ι χ ρ : Type*}

/-! ## The log of a manager -/

/-- The futures that the handles were made from, a copy from that of its original. -/
def sources (log : List (WorldEntry ι χ)) : List (Option (ι × ℕ)) :=
  log.foldl WorldEntry.source []

theorem sources_append (log new : List (WorldEntry ι χ)) :
    sources (log ++ new) = new.foldl WorldEntry.source (sources log) := List.foldl_append

/-- What happens to futures leaves the handles. -/
theorem sources_map (m : ι) (log : List (WorldEntry ι χ)) (new : List (FutureEntry χ)) :
    sources (log ++ new.map (.future m)) = sources log := by
  rw [sources_append, List.foldl_map]
  exact List.foldl_fixed new

variable [DecidableEq ι]

/-- The log of the manager `m`. -/
def part (m : ι) (log : List (WorldEntry ι χ)) : List (FutureEntry χ) :=
  log.filterMap (WorldEntry.part m)

theorem part_append (m : ι) (log new : List (WorldEntry ι χ)) :
    part m (log ++ new) = part m log ++ part m new := List.filterMap_append

theorem part_map_self (m : ι) (new : List (FutureEntry χ)) :
    part m (new.map (.future m)) = new := by
  rw [part, List.filterMap_map, show WorldEntry.part m ∘ WorldEntry.future m = some from
    funext fun e => if_pos rfl, List.filterMap_some]

theorem part_map_of_ne {m n : ι} (h : n ≠ m) (new : List (FutureEntry χ)) :
    part n (new.map (.future m)) = [] := by
  rw [part, List.filterMap_map, List.filterMap_eq_nil_iff]
  exact fun e _ => if_neg h.symm

/-! ## The events -/

/-- The managers as they are made, each with its pool. -/
def init (χ ρ : Type*) (poolSize : ι → ℕ) : FutureWorld ι χ ρ where
  managers m := .empty (poolSize m)

/-- `Get`. -/
def getFuture (w : FutureWorld ι χ ρ) (h : FutureHandle ι) : Option (Future χ ρ) :=
  match h.manager with
  | none => none
  | some m => (w.managers m).get h.futureId

/-- One event, and what happened. -/
def step (s : FutureWorld ι χ ρ × List (WorldEntry ι χ)) :
    FutureEvent ι χ ρ → Except Fault (FutureWorld ι χ ρ × List (WorldEntry ι χ))
  | .call m c => match (s.1.managers m).call c with
    | .error x => .error x
    | .ok (manager, new) =>
      .ok ({ s.1 with managers := Function.update s.1.managers m manager },
        s.2 ++ new.map (.future m))
  | .handleOf m i => match (s.1.managers m).get i with
    | none => .error .danglingPointer
    | some _ =>
      .ok ({ s.1 with handles := s.1.handles ++ [⟨some m, i⟩] }, s.2 ++ [.handleOf m i])
  | .nullHandle => .ok ({ s.1 with handles := s.1.handles ++ [{}] }, s.2 ++ [.nullHandle])
  | .copyHandle k => match s.1.handles[k]? with
    | none => .error .danglingPointer
    | some h => .ok ({ s.1 with handles := s.1.handles ++ [h] }, s.2 ++ [.copyHandle k])

/-! ## A run -/

/-- The handle of a future. -/
def handleOf : Option (ι × ℕ) → FutureHandle ι
  | none => {}
  | some (m, i) => ⟨some m, i⟩

/-- The world is what the log says. -/
structure Tracks (s : FutureWorld ι χ ρ × List (WorldEntry ι χ)) : Prop where
  manager : ∀ m, (s.1.managers m).Tracks (part m s.2)
  handles : s.1.handles = (sources s.2).map handleOf
  acquired : ∀ m i, some (m, i) ∈ sources s.2 → ∃ x, .acquired i x ∈ part m s.2

namespace Tracks

variable {s t : FutureWorld ι χ ρ × List (WorldEntry ι χ)}

theorem init (poolSize : ι → ℕ) : Tracks (FutureWorld.init χ ρ poolSize, []) where
  manager m := .empty (poolSize m)
  handles := rfl
  acquired _ _ h := absurd h List.not_mem_nil

/-- A handle more, of a future that was acquired. -/
theorem addHandle {h : FutureHandle ι} {e : WorldEntry ι χ} {o : Option (ι × ℕ)} (hs : Tracks s)
    (hpart : ∀ m, e.part m = none) (hsource : e.source (sources s.2) = sources s.2 ++ [o])
    (ho : h = handleOf o) (hacquired : ∀ m i, o = some (m, i) → ∃ x, .acquired i x ∈ part m s.2) :
    Tracks ({ s.1 with handles := s.1.handles ++ [h] }, s.2 ++ [e]) := by
  have hkeep (m : ι) : part m (s.2 ++ [e]) = part m s.2 := by
    rw [part_append, show part m [e] = [] from List.filterMap_cons_none (hpart m),
      List.append_nil]
  have hsources : sources (s.2 ++ [e]) = sources s.2 ++ [o] := by
    rw [sources_append]
    exact hsource
  refine ⟨fun m => ?_, ?_, fun m i hmi => ?_⟩
  · rw [hkeep]
    exact hs.manager m
  · rw [hsources, List.map_append, ho, hs.handles]
    rfl
  · rw [hkeep]
    rw [hsources] at hmi
    rcases List.mem_append.1 hmi with hmi | hmi
    · exact hs.acquired m i hmi
    · exact hacquired m i (List.mem_singleton.1 hmi).symm

theorem step {e : FutureEvent ι χ ρ} (hs : Tracks s) (h : FutureWorld.step s e = .ok t) :
    Tracks t := by
  cases e with
  | call m c =>
    rcases hc : (s.1.managers m).call c with x | ⟨manager, new⟩ <;>
      simp only [FutureWorld.step, hc] at h <;> cases h
    refine ⟨fun n => ?_, ?_, fun n i hn => ?_⟩
    · rw [part_append]
      by_cases hn : n = m
      · subst hn
        rw [part_map_self]
        simp only [Function.update_self]
        exact (hs.manager n).calls (FuturePoolManager.calls_of_call hc)
      · rw [part_map_of_ne hn, List.append_nil]
        simp only [Function.update_of_ne hn]
        exact hs.manager n
    · rw [sources_map]
      exact hs.handles
    · rw [sources_map] at hn
      obtain ⟨x, hx⟩ := hs.acquired n i hn
      exact ⟨x, by rw [part_append]; exact List.mem_append_left _ hx⟩
  | handleOf m i =>
    rcases hf : (s.1.managers m).get i with _ | f <;>
      simp only [FutureWorld.step, hf] at h <;> cases h
    refine hs.addHandle (fun _ => rfl) rfl rfl fun n j hn => ?_
    cases hn
    exact ⟨f.context, (((hs.manager m).context i f.context).1 (by rw [hf]; rfl)).1⟩
  | nullHandle =>
    cases h
    exact hs.addHandle (o := none) (fun _ => rfl) rfl rfl fun n j hn => by cases hn
  | copyHandle k =>
    rcases hk : s.1.handles[k]? with _ | h' <;>
      simp only [FutureWorld.step, hk] at h <;> cases h
    -- the original was made from some future
    have hsource := hk
    rw [hs.handles, List.getElem?_map, Option.map_eq_some_iff] at hsource
    obtain ⟨o, ho, rfl⟩ := hsource
    refine hs.addHandle (fun _ => rfl) ?_ rfl fun n j hn => ?_
    · exact congrArg (sources s.2 ++ ·) (by rw [ho]; rfl)
    · rw [hn] at ho
      exact hs.acquired n j (List.mem_of_getElem? ho)

/-- The handles and the managers are what the log says, after any run. -/
theorem exec {es : List (FutureEvent ι χ ρ)} (hs : Tracks s)
    (h : exec FutureWorld.step s es = .ok t) : Tracks t :=
  exec_invariant (fun _ _ _ => Tracks.step) hs h

end Tracks

/-- The future that a handle was made from is found while it is live, and none ever after. -/
structure Agrees (w : FutureWorld ι χ ρ) (log : List (WorldEntry ι χ)) : Prop where
  /-- There are the handles that were made. -/
  length : w.handles.length = (sources log).length
  /-- A handle made from a future finds the one that was acquired, until it is released. -/
  found : ∀ (k : ℕ) (m : ι) (i : ℕ), (sources log)[k]? = some (some (m, i)) →
    ∃ (h : FutureHandle ι) (x : χ), w.handles[k]? = some h ∧ (∀ y, .acquired i y ∈ part m log ↔ y = x) ∧
      (.released i ∉ part m log → (w.getFuture h).map Future.context = some x) ∧
      (.released i ∈ part m log → w.getFuture h = none)
  /-- A handle made from none finds none. -/
  null : ∀ k : ℕ, (sources log)[k]? = some none →
    ∃ h : FutureHandle ι, w.handles[k]? = some h ∧ w.getFuture h = none
  /-- What is in the ready list: each future once, -/
  nodup : ∀ m, (w.managers m).futureList.Nodup
  /-- if it is live and ready and was not taken since it was made ready, -/
  ready : ∀ m i, i ∈ (w.managers m).futureList ↔
    (∃ f, (w.managers m).get i = some f ∧ f.isReady = true) ∧
      Since (· ≠ .popped i) (· = .readied i) (part m log)
  /-- in the order in which they were made ready. -/
  order : ∀ m, (w.managers m).futureList.Pairwise fun i j =>
    Precedes (.readied i) (.readied j) (part m log)
  /-- An id is released only if it is live, -/
  releases : ∀ m i, ((w.managers m).releaseFutureById i).1 = true ↔ ∃ x, Live (part m log) i x
  /-- and never twice. -/
  once : ∀ m, ((part m log).filterMap FutureEntry.releasedId).Nodup
  /-- The futures in use are the live ones. -/
  count : ∀ m, ((w.managers m).getActiveFutureCount : ℕ∞) =
    {i | ∃ x, Live (part m log) i x}.encard

/-- After any run, the managers and the handles agree with what happened. -/
theorem handles_agree {poolSize : ι → ℕ} {es : List (FutureEvent ι χ ρ)} {w : FutureWorld ι χ ρ}
    {log : List (WorldEntry ι χ)}
    (h : exec step (init χ ρ poolSize, []) es = .ok (w, log)) : w.Agrees log := by
  have hs : Tracks (w, log) := (Tracks.init poolSize).exec h
  have hlive (m : ι) (i : ℕ) : (∃ x, Live (part m log) i x) ↔
      ((w.managers m).get i).isSome = true := by
    rw [← Option.isSome_map, Option.isSome_iff_exists]
    exact exists_congr fun x => ((hs.manager m).context i x).symm
  refine ⟨?_, fun k m i hk => ?_, fun k hk => ?_, fun m => (w.managers m).nodup, fun m i => ?_,
    fun m => (hs.manager m).order, fun m i => ?_, fun m => (hs.manager m).released, fun m => ?_⟩
  · rw [show w.handles = _ from hs.handles, List.length_map]
  · obtain ⟨x, hx⟩ := hs.acquired m i (List.mem_of_getElem? hk)
    refine ⟨⟨some m, i⟩, x, ?_, fun y => ⟨fun hy => ?_, ?_⟩, fun hr => ?_, fun hr => ?_⟩
    · rw [show w.handles = _ from hs.handles, List.getElem?_map, hk]
      rfl
    · exact (hs.manager m).acquired i y x hy hx
    · rintro rfl
      exact hx
    · exact ((hs.manager m).context i x).2 ⟨hx, hr⟩
    · rcases hf : (w.managers m).get i with _ | f
      · exact hf
      · exact absurd hr ((hs.manager m).not_released hf)
  · refine ⟨{}, ?_, rfl⟩
    rw [show w.handles = _ from hs.handles, List.getElem?_map, hk]
    rfl
  · rw [(hs.manager m).listed]
    constructor
    · rintro ⟨hsome, hsince⟩
      obtain ⟨f, hf⟩ := Option.isSome_iff_exists.1 hsome
      obtain ⟨pre, e, post, hlog, rfl, -⟩ := id hsince
      refine ⟨⟨f, hf, ((hs.manager m).isReady i f hf).2 ?_⟩, hsince⟩
      rw [hlog]
      exact List.mem_append_right _ List.mem_cons_self
    · rintro ⟨⟨f, hf, -⟩, hsince⟩
      exact ⟨by rw [hf]; rfl, hsince⟩
  · rw [FuturePoolManager.releaseFutureById_fst, hlive]
  · simp only [hlive]
    rw [FuturePoolManager.getActiveFutureCount,
      show (w.managers m).futureInUse = _ from (hs.manager m).counted, ← Storage.encard_live]
    rfl

/-- Two managers with a future each, both with the id 1: the handles of the one find none after
    it was released, that of the other its own. -/
theorem handles_agree_two : ∃ w log, exec step (init ℕ ℕ fun _ : Bool => 2, [])
    [.call true (.acquireFuture 7), .call false (.acquireFuture 8), .handleOf true 1,
      .copyHandle 0, .handleOf false 1, .call true (.setReady 1 (some 5)),
      .call true (.releaseFutureById 1), .call false (.setReady 1 none)] = .ok (w, log) ∧
    w.handles.map (fun h => (w.getFuture h).map Future.context) = [none, none, some 8] ∧
    w.Agrees log := by
  obtain ⟨⟨w, log⟩, h, hw⟩ := exists_ok_of_check
    (p := fun s => decide (s.1.handles.map (fun h => (s.1.getFuture h).map Future.context) =
      [none, none, some 8])) (x := exec step (init ℕ ℕ fun _ : Bool => 2, []) [.call true
        (.acquireFuture 7), .call false (.acquireFuture 8), .handleOf true 1, .copyHandle 0,
        .handleOf false 1, .call true (.setReady 1 (some 5)), .call true (.releaseFutureById 1),
        .call false (.setReady 1 none)]) (by decide)
  exact ⟨w, log, h, of_decide_eq_true hw, handles_agree h⟩

end FutureWorld

end ProxyPlatform
