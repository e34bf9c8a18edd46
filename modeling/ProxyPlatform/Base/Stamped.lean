import ProxyPlatform.Base.Linked
import ProxyPlatform.Base.Storage
import Mathlib.Data.List.Pairwise
import Mathlib.Data.List.TakeWhile
import Mathlib.Order.Basic

/-!
# Lists ordered by timestamps

A timeout list is ordered by the timestamps of its nodes as long as a node gets the
present time when it is linked at the tail, and a new timestamp only then. A pass over
such a list may stop at the first node that is not due (`Stamped.lt_of_mem_dropWhile`).

The timestamps are a partial function `stamp`: what is not live has none. Those of the
entries of a pool are `Storage.stamps`.
-/

namespace ProxyPlatform

variable {α : Type*} {stamp stamp' : α → Option ℕ} {now now' t : ℕ} {l l' : List α} {a b : α}
  {x y : ℕ}

/-- The list `l` is ordered by the timestamps of its nodes, none of which is later than `now`. -/
structure Stamped (stamp : α → Option ℕ) (now : ℕ) (l : List α) : Prop where
  bound : ∀ a ∈ l, ∃ x, stamp a = some x ∧ x ≤ now
  sorted : l.Pairwise fun a b => ∀ x y, stamp a = some x → stamp b = some y → x ≤ y

namespace Stamped

theorem nil : Stamped stamp now [] := ⟨fun _ ha => absurd ha List.not_mem_nil, List.Pairwise.nil⟩

/-- Nodes are taken out, and the clock goes on. -/
theorem of_sublist (h : Stamped stamp now l) (hsub : l'.Sublist l)
    (hstamp : ∀ a ∈ l', stamp' a = stamp a) (hnow : now ≤ now') : Stamped stamp' now' l' where
  bound a ha := by
    obtain ⟨x, hx, hle⟩ := h.bound a (hsub.subset ha)
    exact ⟨x, (hstamp a ha).trans hx, hle.trans hnow⟩
  sorted := by
    refine (h.sorted.sublist hsub).imp_of_mem fun {a b} ha hb hab x y hx hy => ?_
    rw [hstamp a ha] at hx
    rw [hstamp b hb] at hy
    exact hab x y hx hy

theorem mono (h : Stamped stamp now l) (hnow : now ≤ now') : Stamped stamp now' l :=
  h.of_sublist (.refl l) (fun _ _ => rfl) hnow

/-- A node is linked at the tail, with the present time. -/
theorem append (h : Stamped stamp now l) (ha : stamp a = some now) : Stamped stamp now (l ++ [a]) where
  bound b hb := by
    rcases List.mem_append.1 hb with hb | hb
    · exact h.bound b hb
    · exact ⟨now, List.mem_singleton.1 hb ▸ ha, le_rfl⟩
  sorted := by
    refine List.pairwise_append.2 ⟨h.sorted, List.pairwise_singleton _ _, ?_⟩
    intro b hb c hc x y hx hy
    obtain ⟨z, hz, hle⟩ := h.bound b hb
    rw [List.mem_singleton.1 hc, ha, Option.some_inj] at hy
    rw [hx, Option.some_inj] at hz
    rw [hz, ← hy]
    exact hle

theorem tail (h : Stamped stamp now (a :: l)) : Stamped stamp now l :=
  h.of_sublist (List.sublist_cons_self a l) (fun _ _ => rfl) le_rfl

/-- The head is the oldest. -/
theorem le_of_mem (h : Stamped stamp now (a :: l)) (hx : stamp a = some x) (hb : b ∈ l)
    (hy : stamp b = some y) : x ≤ y :=
  (List.pairwise_cons.1 h.sorted).1 b hb x y hx hy

/-- What a pass leaves that takes the nodes at the head as long as they are due is not due. -/
theorem lt_of_mem_dropWhile {p : α → Bool} (h : Stamped stamp now l)
    (hp : ∀ a x, stamp a = some x → (p a = true ↔ x ≤ t)) (hb : b ∈ l.dropWhile p)
    (hy : stamp b = some y) : t < y := by
  induction l with
  | nil => cases hb
  | cons a l ih =>
    by_cases ha : p a = true
    · rw [List.dropWhile_cons_of_pos ha] at hb
      exact ih h.tail hb
    · rw [List.dropWhile_cons_of_neg ha] at hb
      obtain ⟨x, hx, -⟩ := h.bound a List.mem_cons_self
      have hlt : t < x := not_le.1 fun hle => ha ((hp a x hx).2 hle)
      rcases List.mem_cons.1 hb with rfl | hb
      · rw [hx, Option.some_inj] at hy
        exact hy ▸ hlt
      · exact hlt.trans_le (h.le_of_mem hx hb hy)

/-- What is due is in the part of the list that such a pass takes. -/
theorem mem_takeWhile {p : α → Bool} (h : Stamped stamp now l)
    (hp : ∀ a x, stamp a = some x → (p a = true ↔ x ≤ t)) (hb : b ∈ l) (hy : stamp b = some y)
    (hle : y ≤ t) : b ∈ l.takeWhile p := by
  rw [← List.takeWhile_append_dropWhile (p := p) (l := l), List.mem_append] at hb
  refine hb.resolve_right fun hdrop => ?_
  exact absurd (h.lt_of_mem_dropWhile hp hdrop hy) (Nat.not_lt.2 hle)

end Stamped

/-! ## Pools -/

/-- The timestamps of the entries of a pool. -/
def Storage.stamps {β : Type*} (f : β → ℕ) (p : Storage β) (k : ℕ) : Option ℕ := (p.get k).map f

namespace Stamped

variable {β ι : Type*} {f : β → ℕ} {p q : Storage β} {m : List ℕ} {k : ℕ} {v w : β}

theorem congr_get (h : Stamped (p.stamps f) now m) (hq : ∀ j, q.get j = p.get j) :
    Stamped (q.stamps f) now m :=
  h.of_sublist (.refl m) (fun j _ => by rw [Storage.stamps, Storage.stamps, hq]) le_rfl

theorem acquire {z : ℕ → β} (h : Stamped (p.stamps f) now m) (hz : p.acquire z = some (k, q)) :
    Stamped (q.stamps f) now m := by
  refine h.of_sublist (.refl m) (fun j hj => ?_) le_rfl
  have hne : j ≠ k := by
    rintro rfl
    obtain ⟨x, hx, -⟩ := h.bound j hj
    rw [Storage.stamps, Storage.get_of_acquire hz] at hx
    cases hx
  rw [Storage.stamps, Storage.stamps, Storage.get_acquire hz, if_neg hne]

/-- An entry changes, but for its timestamp, and entries are taken out of the list. -/
theorem set {m' : List ℕ} (h : Stamped (p.stamps f) now m) (hv : p.get k = some v) (hw : f w = f v)
    (hsub : m'.Sublist m) : Stamped ((p.set k w).stamps f) now m' := by
  refine h.of_sublist hsub (fun j _ => ?_) le_rfl
  rw [Storage.stamps, Storage.stamps, Storage.get_set hv]
  split
  · next hj => rw [hj, hv, Option.map_some, Option.map_some, hw]
  · rfl

/-- An entry gets the present time, and goes to the tail of the list. -/
theorem touch [DecidableEq ι] {L : Linked ι} {ℓ : ι} (h : Stamped (p.stamps f) now (L.nodes ℓ))
    (hv : p.get k = some v) (hw : f w = now) :
    Stamped ((p.set k w).stamps f) now ((L.grabTail ℓ k).nodes ℓ) := by
  rw [Linked.nodes_grabTail_self]
  refine Stamped.append (h.of_sublist List.filter_sublist (fun j hj => ?_) le_rfl) ?_
  · have hne : j ≠ k := by simpa using List.of_mem_filter hj
    rw [Storage.stamps, Storage.stamps, Storage.get_set hv, if_neg hne]
  · rw [Storage.stamps, Storage.get_set hv, if_pos rfl, Option.map_some, hw]

theorem release (h : Stamped (p.stamps f) now m) :
    Stamped ((p.release k).stamps f) now (m.filter (· ≠ k)) := by
  refine h.of_sublist List.filter_sublist (fun j hj => ?_) le_rfl
  have hne : j ≠ k := by simpa using List.of_mem_filter hj
  rw [Storage.stamps, Storage.stamps, Storage.get_release, if_neg hne]

end Stamped

end ProxyPlatform
