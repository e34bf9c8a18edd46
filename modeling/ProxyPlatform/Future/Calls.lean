import ProxyPlatform.Base.Run
import ProxyPlatform.Base.Since
import ProxyPlatform.Future

/-!
# The life of a future

What the calls on one `FuturePoolManager` do, over a whole run. A future is acquired, may be
made ready and taken out of the ready list, and is released, by pointer or by its id; what
happens to it is written to a log, and what the manager holds is read off the log
(`Tracks`):

* `Tracks.acquired`, `Tracks.context`: an id is handed out for one future, and reaches it until
  it is released;
* `Tracks.listed`, `Tracks.order`: the ready list has the futures that were made ready and not
  taken since, in the order in which they were made ready last;
* `Tracks.released`: none is released twice;
* `Tracks.inUse`: the futures in use are counted.

A pointer to a future that was released is not followed (`danglingPointer`). Making a future
ready twice is left to an `assert`, and moves it to the tail of the list.
-/

namespace ProxyPlatform

/-- A call on a manager. -/
inductive FutureCall (χ ρ : Type*)
  | acquireFuture (x : χ)
  | setReady (futureId : ℕ) (r : Option ρ)
  | popHead
  | releaseFuture (futureId : ℕ)
  | releaseFutureById (futureId : ℕ)

/-- What happened to a future. -/
inductive FutureEntry (χ : Type*)
  | acquired (futureId : ℕ) (x : χ)
  | readied (futureId : ℕ)
  | popped (futureId : ℕ)
  | released (futureId : ℕ)

namespace FutureEntry

variable {χ : Type*}

/-- The future it happened to. -/
def futureId : FutureEntry χ → ℕ
  | acquired i _ | readied i | popped i | released i => i

/-- The id that was released. -/
def releasedId : FutureEntry χ → Option ℕ
  | released i => some i
  | _ => none

end FutureEntry

/-- The future `i` was acquired for `x`, and not released. -/
def Live {χ : Type*} (log : List (FutureEntry χ)) (i : ℕ) (x : χ) : Prop :=
  .acquired i x ∈ log ∧ .released i ∉ log

namespace FuturePoolManager

variable {χ ρ : Type*} {m m' : FuturePoolManager χ ρ} {i : ℕ}

/-- `GetActiveFutureCount`. -/
def getActiveFutureCount (m : FuturePoolManager χ ρ) : ℕ := m.futureInUse

/-- `ReleaseFuture`, of an id. -/
def releaseFutureById (m : FuturePoolManager χ ρ) (futureId : ℕ) :
    Bool × FuturePoolManager χ ρ :=
  match m.get futureId with
  | none => (false, m)
  | some _ => (true, m.releaseFuture futureId)

/-- A call, and what it did. -/
def call (m : FuturePoolManager χ ρ) :
    FutureCall χ ρ → Except Fault (FuturePoolManager χ ρ × List (FutureEntry χ))
  | .acquireFuture x => match m.acquireFuture x with
    | none => .ok (m, [])
    | some (i, m) => .ok (m, [.acquired i x])
  | .setReady i r => match m.get i with
    | none => .error .danglingPointer
    | some _ => .ok (m.setReady i r, [.readied i])
  | .popHead => match m.popHead with
    | none => .ok (m, [])
    | some (i, m) => .ok (m, [.popped i])
  | .releaseFuture i => match m.get i with
    | none => .error .danglingPointer
    | some _ => .ok (m.releaseFuture i, [.released i])
  | .releaseFutureById i => match m.releaseFutureById i with
    | (false, m) => .ok (m, [])
    | (true, m) => .ok (m, [.released i])

/-! ## One call -/

/-- An id is released if it is live, and only then. -/
theorem releaseFutureById_fst : (m.releaseFutureById i).1 = (m.get i).isSome := by
  rcases h : m.get i with _ | f <;> simp only [releaseFutureById, h] <;> rfl

/-- What a call can do. -/
inductive Calls (m : FuturePoolManager χ ρ) :
    FuturePoolManager χ ρ → List (FutureEntry χ) → Prop
  | nothing : Calls m m []
  | acquired {n : FuturePoolManager χ ρ} {j : ℕ} {x : χ} (h : m.acquireFuture x = some (j, n)) :
    Calls m n [.acquired j x]
  | readied {j : ℕ} {f : Future χ ρ} (h : m.get j = some f) (r : Option ρ) :
    Calls m (m.setReady j r) [.readied j]
  | popped {n : FuturePoolManager χ ρ} {j : ℕ} (h : m.popHead = some (j, n)) :
    Calls m n [.popped j]
  | released {j : ℕ} {f : Future χ ρ} (h : m.get j = some f) :
    Calls m (m.releaseFuture j) [.released j]

theorem calls_of_call {e : FutureCall χ ρ} {new : List (FutureEntry χ)}
    (h : m.call e = .ok (m', new)) : Calls m m' new := by
  cases e with
  | acquireFuture x =>
    rcases hx : m.acquireFuture x with _ | ⟨i, n⟩ <;> simp only [call, hx] at h <;> cases h
    · exact .nothing
    · exact .acquired hx
  | setReady i r =>
    rcases hi : m.get i with _ | f <;> simp only [call, hi] at h <;> cases h
    exact .readied hi r
  | popHead =>
    rcases hp : m.popHead with _ | ⟨i, n⟩ <;> simp only [call, hp] at h <;> cases h
    · exact .nothing
    · exact .popped hp
  | releaseFuture i =>
    rcases hi : m.get i with _ | f <;> simp only [call, hi] at h <;> cases h
    exact .released hi
  | releaseFutureById i =>
    rcases hi : m.get i with _ | f <;> simp only [call, releaseFutureById, hi] at h <;> cases h
    · exact .nothing
    · exact .released hi

theorem futureList_setReady {f : Future χ ρ} (h : m.get i = some f) (r : Option ρ) :
    (m.setReady i r).futureList = m.futureList.filter (· ≠ i) ++ [i] := by
  unfold setReady
  split
  · next hnone =>
    rw [show m.futurePool.get i = some f from h] at hnone
    cases hnone
  · rfl

theorem futureList_of_popHead (h : m.popHead = some (i, m')) :
    i ∈ m.futureList ∧ m'.futureList = m.futureList.filter (· ≠ i) := by
  unfold popHead at h
  split at h
  · cases h
  · next j l hl =>
    cases h
    exact ⟨by rw [hl]; exact List.mem_cons_self, rfl⟩

/-- The futures in use are those of the pool. -/
def Counted (m : FuturePoolManager χ ρ) : Prop := m.futureInUse = m.futurePool.size

theorem Calls.counted {new : List (FutureEntry χ)} (h : Calls m m' new) (hm : m.Counted) :
    m'.Counted := by
  cases h with
  | nothing => exact hm
  | acquired h =>
    unfold acquireFuture at h
    split at h
    · cases h
    · next j p hp =>
      cases h
      exact (congrArg (· + 1) hm).trans (Storage.size_acquire hp).symm
  | readied h r =>
    unfold setReady
    split
    · exact hm
    · next hg => exact hm.trans (Storage.size_set hg _).symm
  | popped h =>
    unfold popHead at h
    split at h <;> cases h
    exact hm
  | released h =>
    have hsize := Storage.size_release h
    change m.futureInUse - 1 = (m.futurePool.release _).size
    rw [show m.futureInUse = m.futurePool.size from hm, ← hsize, Nat.add_sub_cancel]

/-! ## The log -/

/-- What the manager holds is what the log says. -/
structure Tracks (log : List (FutureEntry χ)) (m : FuturePoolManager χ ρ) : Prop where
  acquired : ∀ i x y, .acquired i x ∈ log → .acquired i y ∈ log → x = y
  context : ∀ i x, (m.get i).map Future.context = some x ↔ Live log i x
  isReady : ∀ i f, m.get i = some f → (f.isReady = true ↔ .readied i ∈ log)
  listed : ∀ i, i ∈ m.futureList ↔
    (m.get i).isSome = true ∧ Since (· ≠ .popped i) (· = .readied i) log
  order : m.futureList.Pairwise fun i j => Precedes (.readied i) (.readied j) log
  released : (log.filterMap FutureEntry.releasedId).Nodup
  bound : ∀ e ∈ log, e.futureId ≤ m.futurePool.lastId
  counted : m.Counted

namespace Tracks

variable {log : List (FutureEntry χ)}

theorem empty (poolSize : ℕ) : (empty poolSize : FuturePoolManager χ ρ).Tracks [] where
  acquired i x y h := absurd h List.not_mem_nil
  context i x := by simp [Live, get, FuturePoolManager.empty]
  isReady i f h := by cases h
  listed i := by simp [get, FuturePoolManager.empty]
  order := List.Pairwise.nil
  released := List.nodup_nil
  bound e he := absurd he List.not_mem_nil
  counted := rfl

/-- Nothing has happened yet to a future that is not handed out. -/
theorem not_mem (h : m.Tracks log) {e : FutureEntry χ} (he : m.futurePool.lastId < e.futureId) :
    e ∉ log :=
  fun hmem => absurd (h.bound e hmem) (Nat.not_le.2 he)

/-- A live future was not released. -/
theorem not_released (h : m.Tracks log) {f : Future χ ρ} (hf : m.get i = some f) :
    .released i ∉ log :=
  ((h.context i f.context).1 (by rw [hf]; rfl)).2

theorem acquire {x : χ} (h : m.Tracks log) (ha : m.acquireFuture x = some (i, m')) :
    m'.Tracks (log ++ [.acquired i x]) := by
  obtain ⟨hnone, hlist, hl, hget⟩ := acquireFuture_eq_some ha
  obtain ⟨hi, hlast⟩ := lastId_of_acquireFuture ha
  have hnew {e : FutureEntry χ} (he : e.futureId = i) : e ∉ log :=
    h.not_mem (by rw [he, hi]; exact Nat.lt_succ_self _)
  refine ⟨fun j y z hy hz => ?_, fun j y => ?_, fun j f hf => ?_, fun j => ?_, ?_, ?_,
    fun e he => ?_, ?_⟩
  · simp only [List.mem_append, List.mem_singleton, FutureEntry.acquired.injEq] at hy hz
    rcases hy with hy | ⟨rfl, rfl⟩
    · rcases hz with hz | ⟨rfl, -⟩
      · exact h.acquired j y z hy hz
      · exact absurd hy (hnew rfl)
    · rcases hz with hz | ⟨-, rfl⟩
      · exact absurd hz (hnew rfl)
      · rfl
  · rw [hget]
    by_cases hj : j = i
    · subst hj
      have hy := hnew (e := .acquired j y) rfl
      have hr := hnew (e := .released j) rfl
      simp [Live, hy, hr, eq_comm]
    · simpa [Live, hj] using h.context j y
  · rw [hget] at hf
    split at hf
    · next hj =>
      subst hj
      cases hf
      have hr := hnew (e := .readied j) rfl
      simp [hr]
    · simpa using h.isReady j f hf
  · rw [hl, h.listed, hget, since_concat_of_keeps (by simp) (by simp)]
    split
    · next hj =>
      subst hj
      rw [hnone]
      refine iff_of_false (fun h => by cases h.1) fun ⟨_, pre, e, post, hlog, he, _⟩ => ?_
      refine hnew (e := .readied j) rfl ?_
      rw [hlog, ← he]
      exact List.mem_append_right _ List.mem_cons_self
    · exact Iff.rfl
  · rw [hl]
    exact h.order.imp fun hp => hp.concat (by simp)
  · simpa [List.filterMap_cons, FutureEntry.releasedId] using h.released
  · rw [hlast]
    rcases List.mem_append.1 he with he | he
    · exact (h.bound e he).trans (by rw [hi]; exact Nat.le_succ _)
    · rw [List.mem_singleton.1 he]
      exact le_rfl
  · exact (Calls.acquired ha).counted h.counted

/-- What happens to a live future has its id. -/
theorem bound_concat {f : Future χ ρ} {e : FutureEntry χ} (h : m.Tracks log)
    (hf : m.get e.futureId = some f) : ∀ d ∈ log ++ [e], d.futureId ≤ m.futurePool.lastId := by
  intro d hd
  rcases List.mem_append.1 hd with hd | hd
  · exact h.bound d hd
  · rw [List.mem_singleton.1 hd]
    exact Storage.le_lastId_of_get hf

theorem setReady {f : Future χ ρ} (h : m.Tracks log) (hf : m.get i = some f) (r : Option ρ) :
    (m.setReady i r).Tracks (log ++ [.readied i]) := by
  have hget := get_setReady hf r
  refine ⟨by simpa using h.acquired, fun j y => ?_, fun j g hg => ?_, fun j => ?_, ?_, ?_, ?_, ?_⟩
  · have hj : ((m.setReady i r).get j).map Future.context = (m.get j).map Future.context := by
      rw [hget]
      split
      · next hj => rw [hj, hf]; rfl
      · rfl
    rw [hj, h.context]
    simp [Live]
  · rw [hget] at hg
    split at hg
    · next hj =>
      cases hg
      simp [hj]
    · next hj => simpa [hj] using h.isReady j g hg
  · rw [mem_futureList_setReady hf, hget, since_concat]
    by_cases hj : j = i
    · simp [hj]
    · simpa [hj, Ne.symm hj] using h.listed j
  · rw [futureList_setReady hf]
    refine List.pairwise_append.2 ⟨?_, List.pairwise_singleton _ _, fun j hj k hk => ?_⟩
    · refine (h.order.filter _).imp_of_mem fun {j k} hj _ hp => hp.concat ?_
      have hji : j ≠ i := by simpa using List.of_mem_filter hj
      simpa using hji.symm
    · -- a future that is linked was made ready before
      obtain rfl := List.mem_singleton.1 hk
      have hjk : j ≠ k := by simpa using List.of_mem_filter hj
      obtain ⟨g, hg, hr⟩ := m.ready_live j (List.mem_of_mem_filter hj)
      exact precedes_concat ((h.isReady j g hg).1 hr) (by simpa using hjk.symm)
  · simpa [List.filterMap_cons, FutureEntry.releasedId] using h.released
  · rw [lastId_setReady]
    exact h.bound_concat (e := .readied i) hf
  · exact (Calls.readied hf r).counted h.counted

theorem popHead (h : m.Tracks log) (hp : m.popHead = some (i, m')) :
    m'.Tracks (log ++ [.popped i]) := by
  obtain ⟨hget, hlast⟩ := get_of_popHead hp
  obtain ⟨hi, hl⟩ := futureList_of_popHead hp
  refine ⟨by simpa using h.acquired, fun j y => ?_, fun j f hf => ?_, fun j => ?_, ?_, ?_, ?_, ?_⟩
  · rw [hget, h.context]
    simp [Live]
  · rw [hget] at hf
    simpa using h.isReady j f hf
  · rw [hl, hget, since_concat, List.mem_filter, h.listed]
    by_cases hj : j = i
    · simp [hj]
    · simp [hj, Ne.symm hj]
  · rw [hl]
    exact (h.order.filter _).imp fun hp => hp.concat (by simp)
  · simpa [List.filterMap_cons, FutureEntry.releasedId] using h.released
  · obtain ⟨f, hf, -⟩ := m.ready_live i hi
    rw [hlast]
    exact h.bound_concat (e := .popped i) hf
  · exact (Calls.popped hp).counted h.counted

theorem release {f : Future χ ρ} (h : m.Tracks log) (hf : m.get i = some f) :
    (m.releaseFuture i).Tracks (log ++ [.released i]) := by
  refine ⟨by simpa using h.acquired, fun j y => ?_, fun j g hg => ?_, fun j => ?_, ?_, ?_, ?_, ?_⟩
  · rw [get_releaseFuture]
    by_cases hj : j = i
    · simp [Live, hj]
    · simpa [Live, hj] using h.context j y
  · rw [get_releaseFuture] at hg
    split at hg
    · cases hg
    · simpa using h.isReady j g hg
  · rw [mem_futureList_releaseFuture, h.listed, get_releaseFuture,
      since_concat_of_keeps (by simp) (by simp)]
    by_cases hj : j = i <;> simp [hj]
  · exact (h.order.filter _).imp fun hp => hp.concat (by simp)
  · rw [List.filterMap_append]
    refine List.nodup_append.2 ⟨h.released, List.nodup_singleton i, ?_⟩
    -- what was released before is another future
    rintro j hj _ hk rfl
    obtain rfl := List.mem_singleton.1 hk
    obtain ⟨e, he, hej⟩ := List.mem_filterMap.1 hj
    cases e <;> cases hej
    exact h.not_released hf he
  · exact h.bound_concat (e := .released i) hf
  · exact (Calls.released hf).counted h.counted

/-- One call. -/
theorem calls {new : List (FutureEntry χ)} (h : m.Tracks log) (hc : Calls m m' new) :
    m'.Tracks (log ++ new) := by
  cases hc with
  | nothing => rwa [List.append_nil]
  | acquired ha => exact h.acquire ha
  | readied hf r => exact h.setReady hf r
  | popped hp => exact h.popHead hp
  | released hf => exact h.release hf

end Tracks

end FuturePoolManager

end ProxyPlatform
