import ProxyPlatform.Base.Storage
import Mathlib.Data.Set.Card

/-!
# Pools with recycled ids

A pool of objects under ids that may be handed out again once they are free (`Slots`). How
an id is chosen is not said: it comes from outside, and is good if it is not zero and not in
use (`Slots.Free`). A `Storage` is the pool whose ids are never used again.

Both count their live objects: `encard_live`.
-/

namespace ProxyPlatform

/-- The number of keys of an association list. -/
theorem encard_lookup {κ : Type*} {β : κ → Type*} [DecidableEq κ] (m : AList β) :
    {k | (m.lookup k).isSome = true}.encard = m.entries.length := by
  have hset : {k | (m.lookup k).isSome = true} = (m.keys.toFinset : Set κ) := by
    ext k
    simp only [Set.mem_ofPred_eq, AList.lookup_isSome, Finset.mem_coe, List.mem_toFinset,
      AList.mem_keys]
  rw [hset, Set.encard_coe_eq_coe_finsetCard, List.toFinset_card_of_nodup m.keys_nodup, AList.keys,
    List.keys, List.length_map]

theorem Storage.encard_live {α : Type*} (p : Storage α) :
    {i | (p.get i).isSome = true}.encard = p.size := encard_lookup p.items

/-- A pool of at most `capacity` objects, under ids other than zero. -/
structure Slots (α : Type*) where
  capacity : ℕ
  items : AList fun _ : ℕ => α
  nonzero : ∀ i ∈ items, i ≠ 0

namespace Slots

variable {α : Type*}

/-- The empty pool. -/
def empty (capacity : ℕ) : Slots α where
  capacity := capacity
  items := ∅
  nonzero _ hi := absurd hi (AList.notMem_empty _)

/-- The object with the id `i`, if it is live. -/
def get (p : Slots α) (i : ℕ) : Option α := p.items.lookup i

/-- The number of live objects. -/
def size (p : Slots α) : ℕ := p.items.entries.length

/-- The id `i` can be handed out. -/
def Free (p : Slots α) (i : ℕ) : Prop := i ≠ 0 ∧ p.get i = none

instance [DecidableEq α] (p : Slots α) (i : ℕ) : Decidable (p.Free i) :=
  inferInstanceAs (Decidable (_ ∧ _))

/-- A new object under the id `i`. -/
def insert (p : Slots α) (i : ℕ) (x : α) (hi : i ≠ 0) : Slots α where
  capacity := p.capacity
  items := p.items.insert i x
  nonzero j hj := by
    rcases (AList.mem_insert _).1 hj with rfl | hj
    · exact hi
    · exact p.nonzero j hj

/-- Releasing the object with the id `i`. -/
def release (p : Slots α) (i : ℕ) : Slots α where
  capacity := p.capacity
  items := p.items.erase i
  nonzero j hj := p.nonzero j (AList.mem_erase.1 hj).2

@[simp] theorem get_empty (n i : ℕ) : (empty n : Slots α).get i = none := rfl

theorem get_insert (p : Slots α) {i : ℕ} (x : α) (hi : i ≠ 0) (j : ℕ) :
    (p.insert i x hi).get j = if j = i then some x else p.get j := by
  split
  · next h => rw [h]; exact AList.lookup_insert _
  · next h => exact AList.lookup_insert_ne h

@[simp] theorem get_release (p : Slots α) (i j : ℕ) :
    (p.release i).get j = if j = i then none else p.get j := by
  split
  · next h => rw [h]; exact AList.lookup_erase _ _
  · next h => exact AList.lookup_erase_ne h

theorem size_insert {p : Slots α} {i : ℕ} (x : α) (h : p.Free i) :
    (p.insert i x h.1).size = p.size + 1 := by
  have hi : i ∉ p.items := AList.lookup_eq_none.1 h.2
  rw [size, insert, AList.entries_insert_of_notMem hi, List.length_cons, size]

theorem size_release {p : Slots α} {i : ℕ} {x : α} (h : p.get i = some x) :
    (p.release i).size + 1 = p.size := (perm_cons_erase h).length_eq

theorem encard_live (p : Slots α) : {i | (p.get i).isSome = true}.encard = p.size :=
  encard_lookup p.items

end Slots

end ProxyPlatform
