import Mathlib.Algebra.BigOperators.Group.List.Basic
import Mathlib.Data.List.AList
import Mathlib.Data.List.Sigma

/-!
# Indexed storage

A pool of objects addressed by the ids it hands out. An id is non-zero and is
never handed out twice, so that an id kept after its object was released never
reaches another object (`get_of_lt`): the ids count up, and the bound on the ids in
use is part of the structure.

Every operation is described by what it does to `get` (`get_set`, `get_acquire`,
`get_release`), to `size` and to the sums over the pool (`sum_set`, `sum_acquire`,
`sum_release`).
-/

namespace ProxyPlatform

/-- An association list is an entry and what erasing its key leaves. -/
theorem perm_cons_erase {κ : Type*} {β : κ → Type*} [DecidableEq κ] {m : AList β} {k : κ} {v : β k}
    (h : m.lookup k = some v) : (⟨k, v⟩ :: (m.erase k).entries).Perm m.entries := by
  obtain ⟨w, l₁, l₂, _, hl, hk⟩ := List.exists_of_kerase
    (AList.lookup_isSome.1 (by rw [h]; rfl) : k ∈ m.entries.keys)
  have hw : m.lookup k = some w :=
    AList.mem_lookup_iff.2 (by rw [hl]; exact List.mem_append_right _ List.mem_cons_self)
  obtain rfl : v = w := Option.some.inj (h.symm.trans hw)
  change (⟨k, v⟩ :: m.entries.kerase k).Perm m.entries
  rw [hk, hl]
  exact List.perm_middle.symm

/-- A pool of at most `capacity` objects, with the ids up to `lastId` already handed out. -/
structure Storage (α : Type*) where
  capacity : ℕ
  lastId : ℕ
  items : AList fun _ : ℕ => α
  /-- The ids in use are non-zero and were handed out. -/
  bounds : ∀ i ∈ items, 0 < i ∧ i ≤ lastId

namespace Storage

variable {α : Type*}

/-- The empty pool. -/
def empty (capacity : ℕ) : Storage α where
  capacity := capacity
  lastId := 0
  items := ∅
  bounds _ hi := absurd hi (AList.notMem_empty _)

/-- The object with the id `i`, if it is live. -/
def get (p : Storage α) (i : ℕ) : Option α := p.items.lookup i

/-- The number of live objects. -/
def size (p : Storage α) : ℕ := p.items.entries.length

/-- A new object under a new id, if there is room. -/
def acquire (p : Storage α) (x : ℕ → α) : Option (ℕ × Storage α) :=
  if p.size < p.capacity then
    some (p.lastId + 1, {
      capacity := p.capacity
      lastId := p.lastId + 1
      items := p.items.insert (p.lastId + 1) (x (p.lastId + 1))
      bounds := fun i hi => by
        rcases (AList.mem_insert _).1 hi with rfl | hi
        · exact ⟨Nat.succ_pos _, le_rfl⟩
        · exact ⟨(p.bounds i hi).1, (p.bounds i hi).2.trans (Nat.le_succ _)⟩ })
  else none

/-- Overwriting the object with the id `i`, if it is live. -/
def set (p : Storage α) (i : ℕ) (x : α) : Storage α :=
  if h : i ∈ p.items then { p with
    items := p.items.insert i x
    bounds := fun j hj => by
      rcases (AList.mem_insert _).1 hj with rfl | hj
      · exact p.bounds _ h
      · exact p.bounds j hj }
  else p

/-- Releasing the object with the id `i`. -/
def release (p : Storage α) (i : ℕ) : Storage α :=
  { p with
    items := p.items.erase i
    bounds := fun j hj => p.bounds j (AList.mem_erase.1 hj).2 }

/-! ## Lookups -/

@[simp] theorem get_empty (n i : ℕ) : (empty n : Storage α).get i = none := rfl

theorem mem_items_of_get {p : Storage α} {i : ℕ} {x : α} (h : p.get i = some x) : i ∈ p.items :=
  AList.lookup_isSome.1 (by rw [← get, h]; rfl)

theorem pos_of_get {p : Storage α} {i : ℕ} {x : α} (h : p.get i = some x) : 0 < i :=
  (p.bounds i (mem_items_of_get h)).1

theorem le_lastId_of_get {p : Storage α} {i : ℕ} {x : α} (h : p.get i = some x) : i ≤ p.lastId :=
  (p.bounds i (mem_items_of_get h)).2

/-- An id that was not handed out yet has no object. -/
theorem get_of_lt {p : Storage α} {i : ℕ} (h : p.lastId < i) : p.get i = none := by
  cases hi : p.get i with
  | none => rfl
  | some x => exact absurd (le_lastId_of_get hi) (Nat.not_le.2 h)

@[simp] theorem get_zero (p : Storage α) : p.get 0 = none := by
  cases h : p.get 0 with
  | none => rfl
  | some x => exact absurd (pos_of_get h) (Nat.lt_irrefl 0)

theorem get_set {p : Storage α} {i : ℕ} {x : α} (hi : p.get i = some x) (y : α) (j : ℕ) :
    (p.set i y).get j = if j = i then some y else p.get j := by
  have hmem : i ∈ p.items := mem_items_of_get hi
  split
  · next h => subst h; simp [set, get, hmem]
  · next h => simp [set, get, hmem, AList.lookup_insert_ne h]

@[simp] theorem get_set_self {p : Storage α} {i : ℕ} {x : α} (hi : p.get i = some x) (y : α) :
    (p.set i y).get i = some y := by
  rw [get_set hi, if_pos rfl]

theorem get_set_of_ne {p : Storage α} {i j : ℕ} (y : α) (h : j ≠ i) :
    (p.set i y).get j = p.get j := by
  unfold set
  split
  · exact AList.lookup_insert_ne h
  · rfl

theorem set_set (p : Storage α) (i : ℕ) (x y : α) : (p.set i x).set i y = p.set i y := by
  by_cases h : i ∈ p.items
  · simp [set, h, AList.insert_insert]
  · simp [set, h]

@[simp] theorem lastId_set (p : Storage α) (i : ℕ) (x : α) : (p.set i x).lastId = p.lastId := by
  unfold set; split <;> rfl

@[simp] theorem capacity_set (p : Storage α) (i : ℕ) (x : α) :
    (p.set i x).capacity = p.capacity := by
  unfold set; split <;> rfl

@[simp] theorem get_release (p : Storage α) (i j : ℕ) :
    (p.release i).get j = if j = i then none else p.get j := by
  split
  · next h => subst h; exact AList.lookup_erase _ _
  · next h => exact AList.lookup_erase_ne h

/-- What is left when the objects with the ids `l` are released. -/
theorem get_foldl_release (p : Storage α) (l : List ℕ) (j : ℕ) :
    (l.foldl release p).get j = if j ∈ l then none else p.get j := by
  induction l generalizing p with
  | nil => simp
  | cons i l ih =>
    rw [List.foldl_cons, ih, get_release]
    by_cases hl : j ∈ l <;> by_cases hj : j = i <;> simp [hl, hj]

@[simp] theorem lastId_release (p : Storage α) (i : ℕ) : (p.release i).lastId = p.lastId := rfl

/-- A quantity has a bound over the live entries. -/
theorem exists_bound (p : Storage α) (f : α → ℕ) : ∃ b, ∀ i x, p.get i = some x → f x ≤ b := by
  have hsome (n : ℕ) : ∃ b, ∀ i x, i ≤ n → p.get i = some x → f x ≤ b := by
    induction n with
    | zero =>
      refine ⟨0, fun i x hi hx => ?_⟩
      rw [Nat.le_zero.1 hi, get_zero] at hx
      cases hx
    | succ n ih =>
      obtain ⟨b, hb⟩ := ih
      refine ⟨max b (((p.get (n + 1)).map f).getD 0), fun i x hi hx => ?_⟩
      rcases Nat.lt_or_eq_of_le hi with hi | rfl
      · exact (hb i x (Nat.lt_succ_iff.1 hi) hx).trans (le_max_left _ _)
      · rw [hx]
        exact le_max_right _ _
  obtain ⟨b, hb⟩ := hsome p.lastId
  exact ⟨b, fun i x hx => hb i x (le_lastId_of_get hx) hx⟩

theorem acquire_eq_some {p q : Storage α} {x : ℕ → α} {i : ℕ}
    (h : p.acquire x = some (i, q)) : i = p.lastId + 1 ∧ q.lastId = i ∧ p.size < p.capacity := by
  unfold acquire at h
  split at h
  · next hc =>
    cases h
    exact ⟨rfl, rfl, hc⟩
  · cases h

theorem get_acquire {p q : Storage α} {x : ℕ → α} {i : ℕ} (h : p.acquire x = some (i, q)) (j : ℕ) :
    q.get j = if j = i then some (x i) else p.get j := by
  unfold acquire at h
  split at h
  · cases h
    split
    · next hj => subst hj; exact AList.lookup_insert _
    · next hj => exact AList.lookup_insert_ne hj
  · cases h

/-- The id of a new object has no object before. -/
theorem get_of_acquire {p q : Storage α} {x : ℕ → α} {i : ℕ} (h : p.acquire x = some (i, q)) :
    p.get i = none :=
  get_of_lt (by rw [(acquire_eq_some h).1]; exact Nat.lt_succ_self _)

theorem pos_of_acquire {p q : Storage α} {x : ℕ → α} {i : ℕ} (h : p.acquire x = some (i, q)) :
    0 < i := by
  rw [(acquire_eq_some h).1]; exact Nat.succ_pos _

theorem capacity_acquire {p q : Storage α} {x : ℕ → α} {i : ℕ} (h : p.acquire x = some (i, q)) :
    q.capacity = p.capacity := by
  unfold acquire at h
  split at h
  · cases h; rfl
  · cases h

theorem acquire_eq_none {p : Storage α} {x : ℕ → α} :
    p.acquire x = none ↔ p.capacity ≤ p.size := by
  unfold acquire
  split <;> simp_all

/-! ## Sizes and sums -/

/-- The sum of `f` over the live objects. -/
def sum {M : Type*} [AddCommMonoid M] (p : Storage α) (f : ℕ → α → M) : M :=
  (p.items.entries.map fun e => f e.1 e.2).sum

variable {M : Type*} [AddCommMonoid M]

/-- A live object is a term of the sum, the others being those left when it is released. -/
theorem sum_release {p : Storage α} {i : ℕ} {x : α} (hi : p.get i = some x) (f : ℕ → α → M) :
    f i x + (p.release i).sum f = p.sum f := by
  have hp : (⟨i, x⟩ :: (p.release i).items.entries).Perm p.items.entries := perm_cons_erase hi
  exact (hp.map fun e => f e.1 e.2).sum_eq

/-- The sum only depends on the terms, by id. -/
theorem sum_congr {β : Type*} {p : Storage α} {q : Storage β} {f : ℕ → α → M} {g : ℕ → β → M}
    (h : ∀ i, (q.get i).map (g i) = (p.get i).map (f i)) : q.sum g = p.sum f := by
  have hperm : (q.items.entries.map (Sigma.map id g) : List (Σ _ : ℕ, M)).Perm
      (p.items.entries.map (Sigma.map id f)) := by
    refine List.lookup_ext (q.items.nodupKeys.map₂ g) (p.items.nodupKeys.map₂ f) fun i y => ?_
    rw [List.dlookup_map₂, List.dlookup_map₂]
    exact iff_of_eq (congrArg (y ∈ ·) (h i))
  have hsum := (hperm.map Sigma.snd).sum_eq
  rw [List.map_map, List.map_map] at hsum
  exact hsum

theorem sum_acquire {p q : Storage α} {x : ℕ → α} {i : ℕ} (h : p.acquire x = some (i, q))
    (f : ℕ → α → M) : q.sum f = f i (x i) + p.sum f := by
  have hnone := get_of_acquire h
  unfold acquire at h
  split at h
  · cases h
    simp only [sum, AList.entries_insert_of_notMem (AList.lookup_eq_none.1 hnone), List.map_cons,
      List.sum_cons]
  · cases h

/-- The size is the sum of ones. -/
theorem size_eq_sum (p : Storage α) : p.size = p.sum fun _ _ => 1 := by
  simp [size, sum]

theorem size_acquire {p q : Storage α} {x : ℕ → α} {i : ℕ} (h : p.acquire x = some (i, q)) :
    q.size = p.size + 1 := by
  rw [size_eq_sum, size_eq_sum, sum_acquire h, Nat.add_comm]

theorem size_release {p : Storage α} {i : ℕ} {x : α} (hi : p.get i = some x) :
    (p.release i).size + 1 = p.size := by
  rw [size_eq_sum, size_eq_sum, ← sum_release hi, Nat.add_comm]

/-- Releasing an object just acquired leaves the pool as large as before. -/
theorem size_release_of_acquire {p q : Storage α} {x : ℕ → α} {i : ℕ}
    (h : p.acquire x = some (i, q)) :
    (q.release i).size = p.size ∧ (q.release i).capacity = p.capacity := by
  constructor
  · have hq : q.get i = some (x i) := by rw [get_acquire h, if_pos rfl]
    have hrel := sum_release hq fun _ _ => 1
    rw [sum_acquire h, Nat.add_left_cancel_iff] at hrel
    rw [size_eq_sum, size_eq_sum, hrel]
  · exact (capacity_acquire h : q.capacity = p.capacity)

/-- A list of the live ids is as long as the pool is large. -/
theorem length_eq_size {p : Storage α} {l : List ℕ} (hl : l.Nodup)
    (h : ∀ i, i ∈ l ↔ ∃ x, p.get i = some x) : l.length = p.size := by
  have hperm : l.Perm p.items.keys := by
    refine (List.perm_ext_iff_of_nodup hl p.items.nodupKeys).2 fun i => (h i).trans ?_
    change _ ↔ i ∈ p.items
    rw [← AList.lookup_isSome, Option.isSome_iff_exists]
    rfl
  rw [hperm.length_eq]
  exact List.length_map _

theorem sum_set {p : Storage α} {i : ℕ} {x : α} (hi : p.get i = some x) (y : α) (f : ℕ → α → M) :
    (p.set i y).sum f = f i y + (p.release i).sum f := by
  have hmem : i ∈ p.items := mem_items_of_get hi
  simp only [sum, set, hmem, dite_true, AList.entries_insert, List.map_cons, List.sum_cons]
  rfl

theorem size_set {p : Storage α} {i : ℕ} {x : α} (hi : p.get i = some x) (y : α) :
    (p.set i y).size = p.size := by
  rw [size_eq_sum, sum_set hi, ← size_eq_sum, Nat.add_comm, size_release hi]

end Storage

end ProxyPlatform
