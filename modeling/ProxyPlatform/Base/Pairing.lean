import Mathlib.Logic.Function.Basic

/-!
# Pairings

Two tables that point at each other: an entry of one leads to the entry of the other
that leads back. It is what keeps two objects that hold each other's id from dangling.

A pairing changes by an `insert` of two entries that are free on both sides, or an
`erase` of both entries of a pair.
-/

namespace ProxyPlatform

variable {α β : Type*} {a : α → Option β} {b : β → Option α}

/-- The entries of `a` and of `b` lead to each other. -/
def Pairing (a : α → Option β) (b : β → Option α) : Prop := ∀ x y, a x = some y ↔ b y = some x

namespace Pairing

/-- The empty tables. -/
theorem empty : Pairing (fun _ : α => (none : Option β)) fun _ => none := fun _ _ => by simp

variable [DecidableEq α] [DecidableEq β]

theorem insert (h : Pairing a b) {x : α} {y : β} (hx : a x = none) (hy : b y = none) :
    Pairing (Function.update a x (some y)) (Function.update b y (some x)) := by
  intro x' y'
  by_cases hxx : x' = x
  · subst hxx
    rw [Function.update_self]
    by_cases hyy : y' = y
    · subst hyy; simp
    · rw [Function.update_of_ne hyy, ← h, hx]
      simp [Ne.symm hyy]
  · rw [Function.update_of_ne hxx, h]
    by_cases hyy : y' = y
    · subst hyy; simp [hy, Ne.symm hxx]
    · rw [Function.update_of_ne hyy]

theorem erase (h : Pairing a b) {x : α} {y : β} (hx : a x = some y) :
    Pairing (Function.update a x none) (Function.update b y none) := by
  intro x' y'
  by_cases hxx : x' = x
  · subst hxx
    rw [Function.update_self]
    by_cases hyy : y' = y
    · subst hyy; simp
    · rw [Function.update_of_ne hyy, ← h, hx]
      simp [Ne.symm hyy]
  · rw [Function.update_of_ne hxx, h]
    by_cases hyy : y' = y
    · subst hyy
      rw [Function.update_self, (h x y').1 hx]
      simp [Ne.symm hxx]
    · rw [Function.update_of_ne hyy]

omit [DecidableEq β] in
/-- Erasing an entry that is free changes nothing. -/
theorem update_none_of_none {x : α} (hx : a x = none) : Function.update a x none = a :=
  Function.update_eq_self_iff.2 hx.symm

end Pairing

end ProxyPlatform
