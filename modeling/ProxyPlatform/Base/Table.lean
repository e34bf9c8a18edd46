import ProxyPlatform.Base.Run
import Mathlib.Data.List.Range
import Mathlib.Logic.Function.Basic

/-!
# Arrays

A `std::array` is a function on the indices, read and written below its size
(`readAt`, `writeAt`); an index out of range is a fault. `firsts` lists what is at the
start of an array, which is what a loop has filled or copied so far.
-/

namespace ProxyPlatform

variable {α : Type*}

/-- The entry at the index `i` of an array. -/
def readAt (size : ℕ) (a : ℕ → α) (i : ℕ) : Except Fault α :=
  if i < size then .ok (a i) else .error .indexOutOfRange

/-- The array, with the entry at the index `i` set. -/
def writeAt (size : ℕ) (a : ℕ → α) (i : ℕ) (v : α) : Except Fault (ℕ → α) :=
  if i < size then .ok (Function.update a i v) else .error .indexOutOfRange

theorem readAt_of_lt {size i : ℕ} {a : ℕ → α} (h : i < size) : readAt size a i = .ok (a i) :=
  if_pos h

theorem writeAt_of_lt {size i : ℕ} {a : ℕ → α} {v : α} (h : i < size) :
    writeAt size a i v = .ok (Function.update a i v) := if_pos h

/-- The first `n` entries of an array. -/
def firsts (a : ℕ → α) (n : ℕ) : List α := (List.range n).map a

@[simp] theorem firsts_zero (a : ℕ → α) : firsts a 0 = [] := rfl

@[simp] theorem length_firsts (a : ℕ → α) (n : ℕ) : (firsts a n).length = n := by
  rw [firsts, List.length_map, List.length_range]

theorem firsts_succ (a : ℕ → α) (n : ℕ) : firsts a (n + 1) = firsts a n ++ [a n] := by
  rw [firsts, List.range_succ, List.map_append, List.map_singleton, ← firsts]

/-- Arrays that agree on the first `n` entries. -/
theorem firsts_congr {a b : ℕ → α} {n : ℕ} (h : ∀ i < n, a i = b i) : firsts a n = firsts b n :=
  List.map_congr_left fun i hi => h i (List.mem_range.1 hi)

/-- An entry is set behind the first ones. -/
theorem firsts_update (a : ℕ → α) (n : ℕ) (v : α) :
    firsts (Function.update a n v) (n + 1) = firsts a n ++ [v] := by
  rw [firsts_succ, Function.update_self]
  congr 1
  exact firsts_congr fun i hi => Function.update_of_ne hi.ne v a

/-- The loop that copies the `n` entries from the index `i` on. -/
def copyLoop (size : ℕ) (src : ℕ → α) : ℕ → ℕ → (ℕ → α) → Except Fault (ℕ → α)
  | 0, _, dst => .ok dst
  | n + 1, i, dst =>
    readAt size src i >>= fun v => writeAt size dst i v >>= copyLoop size src n (i + 1)

/-- The loop copies, if it stays in range. -/
theorem copyLoop_of_le {size n i : ℕ} {src : ℕ → α} (dst : ℕ → α) (h : i + n ≤ size) :
    copyLoop size src n i dst = .ok fun j => if i ≤ j ∧ j < i + n then src j else dst j := by
  induction n generalizing i dst with
  | zero =>
    rw [copyLoop]
    congr 1
    funext j
    rw [if_neg (by omega)]
  | succ n ih =>
    rw [copyLoop, readAt_of_lt (by omega)]
    change writeAt size dst i (src i) >>= _ = _
    rw [writeAt_of_lt (by omega)]
    change copyLoop size src n (i + 1) (Function.update dst i (src i)) = _
    rw [ih _ (by omega)]
    congr 1
    funext j
    rw [Function.update_apply]
    by_cases hj : j = i
    · rw [if_neg (by omega), if_pos hj, if_pos (by omega), hj]
    · rw [if_neg hj]
      exact if_congr (by omega) rfl rfl

/-- The first entries are copied. -/
theorem exists_copyLoop {size n : ℕ} (src dst : ℕ → α) (h : n ≤ size) :
    ∃ t, copyLoop size src n 0 dst = .ok t ∧ ∀ i < n, t i = src i := by
  refine ⟨_, copyLoop_of_le dst (by omega), fun i hi => ?_⟩
  rw [if_pos (by omega)]

theorem firsts_copyLoop {size n : ℕ} (src dst : ℕ → α) (h : n ≤ size) :
    ∃ t, copyLoop size src n 0 dst = .ok t ∧ firsts t n = firsts src n := by
  obtain ⟨t, ht, hcopied⟩ := exists_copyLoop src dst h
  exact ⟨t, ht, firsts_congr hcopied⟩

end ProxyPlatform
