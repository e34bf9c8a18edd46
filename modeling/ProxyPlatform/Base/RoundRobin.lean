import Mathlib.Data.List.Rotate

/-!
# Taking turns

A queue is served round robin: its head takes its turn, and goes to the tail. `turns k q` are
the first `k` that take their turn, and after them the queue is `q.rotate k` (`turns_add`).

* `InTurn q l`: among any `q.length` of `l` in a row, each of `q` is there exactly once. It is
  what a service is to be fair to its queue;
* `inTurn_turns`: the turns of a queue are so.

A service that returns one at a time, and changes its state, is a function `σ → α × σ`; its
`calls` are what the first of its calls return, with the states they leave. It serves a queue
round robin when each call returns the head and leaves the rest with the head at the tail
(`map_calls_eq_turns`); so the service need not keep a queue.
-/

namespace ProxyPlatform

variable {α β σ : Type*}

/-! ## The turns of a queue -/

/-- The first `k` that take their turn in the queue. -/
def turns : ℕ → List α → List α
  | 0, _ => []
  | _ + 1, [] => []
  | k + 1, a :: q => a :: turns k (q ++ [a])

/-- Among any `q.length` of `l` in a row, each of `q` is there exactly once. -/
def InTurn (q l : List α) : Prop :=
  ∀ i, i + q.length ≤ l.length → ((l.drop i).take q.length).Perm q

@[simp] theorem turns_zero (q : List α) : turns 0 q = [] := rfl

@[simp] theorem turns_nil (k : ℕ) : turns k ([] : List α) = [] := by cases k <;> rfl

theorem turns_succ_cons (k : ℕ) (a : α) (q : List α) :
    turns (k + 1) (a :: q) = a :: turns k (q ++ [a]) := rfl

/-- The turns after the first `j` are those of the queue that is left. -/
theorem turns_add (j k : ℕ) (q : List α) : turns (j + k) q = turns j q ++ turns k (q.rotate j) := by
  induction j generalizing q with
  | zero => rw [Nat.zero_add, turns_zero, List.rotate_zero, List.nil_append]
  | succ j ih =>
    cases q with
    | nil => simp
    | cons a q =>
      rw [Nat.add_right_comm, turns_succ_cons, turns_succ_cons, ih, List.rotate_cons_succ,
        List.cons_append]

theorem length_turns {q : List α} (hq : q ≠ []) (k : ℕ) : (turns k q).length = k := by
  induction k generalizing q with
  | zero => rfl
  | succ k ih =>
    cases q with
    | nil => exact absurd rfl hq
    | cons a q => rw [turns_succ_cons, List.length_cons, ih (by simp)]

/-- Those that are ahead in the queue take their turn in the order of the queue. -/
theorem turns_length_append (p q : List α) : turns p.length (p ++ q) = p := by
  induction p generalizing q with
  | nil => rfl
  | cons a p ih => rw [List.length_cons, List.cons_append, turns_succ_cons, List.append_assoc, ih]

theorem turns_length (q : List α) : turns q.length q = q := by
  simpa using turns_length_append q []

/-- Any `q.length` turns in a row are the queue as it was before them. -/
theorem take_drop_turns {q : List α} (hq : q ≠ []) {i k : ℕ} (hi : i + q.length ≤ k) :
    ((turns k q).drop i).take q.length = q.rotate i := by
  obtain ⟨j, rfl⟩ := Nat.exists_eq_add_of_le hi
  have hrotate : turns q.length (q.rotate i) = q.rotate i := by
    simpa using turns_length (q.rotate i)
  rw [turns_add, turns_add, hrotate, List.append_assoc, List.drop_left' (length_turns hq i),
    List.take_left' (List.length_rotate q i)]

theorem inTurn_nil (l : List α) : InTurn [] l := fun i _ => by simp

/-- The turns of a queue are fair to it, and to every queue of the same members. -/
theorem inTurn_turns {p q : List α} (h : q.Perm p) (k : ℕ) : InTurn p (turns k q) := by
  cases q with
  | nil =>
    rw [List.nil_perm.1 h]
    exact inTurn_nil _
  | cons a q =>
    intro i hi
    rw [← h.length_eq] at hi ⊢
    rw [take_drop_turns (List.cons_ne_nil a q) (hi.trans_eq (length_turns (List.cons_ne_nil a q) k))]
    exact (List.rotate_perm _ i).trans h

/-- As many of a fair service as there are in the queue are the queue, in some order. -/
theorem InTurn.perm {q l : List α} (h : InTurn q l) (hl : l.length = q.length) : l.Perm q := by
  have hall := h 0 (by rw [hl, Nat.zero_add])
  rwa [List.drop_zero, ← hl, List.take_length] at hall

/-! ## Services -/

/-- What the first `k` calls of `f` return, and the states they leave, from the state `s`. -/
def calls (f : σ → α × σ) : ℕ → σ → List (α × σ)
  | 0, _ => []
  | k + 1, s => f s :: calls f k (f s).2

/-- The state after `k` calls of `f`. -/
def afterCalls (f : σ → α × σ) (k : ℕ) (s : σ) : σ := (fun s => (f s).2)^[k] s

variable {f : σ → α × σ}

@[simp] theorem calls_zero (s : σ) : calls f 0 s = [] := rfl

theorem calls_succ (k : ℕ) (s : σ) : calls f (k + 1) s = f s :: calls f k (f s).2 := rfl

@[simp] theorem length_calls (k : ℕ) (s : σ) : (calls f k s).length = k := by
  induction k generalizing s with
  | zero => rfl
  | succ k ih => rw [calls_succ, List.length_cons, ih]

@[simp] theorem afterCalls_zero (s : σ) : afterCalls f 0 s = s := rfl

theorem afterCalls_succ (k : ℕ) (s : σ) : afterCalls f (k + 1) s = afterCalls f k (f s).2 := rfl

theorem calls_add (j k : ℕ) (s : σ) :
    calls f (j + k) s = calls f j s ++ calls f k (afterCalls f j s) := by
  induction j generalizing s with
  | zero => rw [Nat.zero_add, calls_zero, afterCalls_zero, List.nil_append]
  | succ j ih => rw [Nat.add_right_comm, calls_succ, calls_succ, ih, afterCalls_succ, List.cons_append]

theorem afterCalls_add (j k : ℕ) (s : σ) :
    afterCalls f (j + k) s = afterCalls f k (afterCalls f j s) := by
  rw [afterCalls, Nat.add_comm, Function.iterate_add_apply]
  rfl

/-- What holds of every call from a state with `I` holds of all of them. -/
theorem forall_mem_calls {I : σ → Prop} {P : α × σ → Prop} (h : ∀ s, I s → I (f s).2 ∧ P (f s))
    (k : ℕ) {s : σ} (hs : I s) : ∀ x ∈ calls f k s, P x := by
  induction k generalizing s with
  | zero => exact fun x hx => absurd hx List.not_mem_nil
  | succ k ih =>
    intro x hx
    rcases List.mem_cons.1 hx with rfl | hx
    · exact (h s hs).2
    · exact ih (h s hs).1 x hx

/-- What no call changes stays. -/
theorem map_afterCalls {g : σ → β} (h : ∀ s, g (f s).2 = g s) (k : ℕ) (s : σ) :
    g (afterCalls f k s) = g s := by
  induction k generalizing s with
  | zero => rfl
  | succ k ih => rw [afterCalls_succ, ih, h]

/-- A service serves the queue `queue s`, for the states `s` with `I`, when each call returns the
    head, and leaves the rest with the head at the tail. -/
theorem map_calls_eq_turns (queue : σ → List β) {g : α × σ → β} {I : σ → Prop}
    (h : ∀ s, I s → I (f s).2 ∧ ∃ q, queue s = g (f s) :: q ∧ queue (f s).2 = q ++ [g (f s)])
    (k : ℕ) {s : σ} (hs : I s) : (calls f k s).map g = turns k (queue s) := by
  induction k generalizing s with
  | zero => rfl
  | succ k ih =>
    obtain ⟨hnext, q, hq, hq'⟩ := h s hs
    rw [calls_succ, List.map_cons, ih hnext, hq, hq', turns_succ_cons]

/-- A service that is one of another, with what is returned seen through `φ`. -/
theorem map_fst_calls {g : σ → β × σ} {φ : α → β} (h : ∀ s, g s = (φ (f s).1, (f s).2)) (k : ℕ)
    (s : σ) : (calls g k s).map Prod.fst = (calls f k s).map fun x => φ x.1 := by
  induction k generalizing s with
  | zero => rfl
  | succ k ih => rw [calls_succ, calls_succ, List.map_cons, List.map_cons, ih, h]

end ProxyPlatform
