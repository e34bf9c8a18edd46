import ProxyPlatform.Base.Linked
import ProxyPlatform.Base.Storage

/-!
# Entries filed in lists

The entries of a pool, linked in lists by their ids, one of which holds the entries with a
mark. `Filed` says that only live entries are linked, and that the list and the mark
agree; acquiring, changing, moving and releasing an entry keep this.
-/

namespace ProxyPlatform

variable {α ι : Type*}

/-- What is linked is live, and the list `ℓ` holds the entries with a mark. -/
structure Filed (mark : α → Bool) (ℓ : ι) (p : Storage α) (L : Linked ι) : Prop where
  live : ∀ ⦃k⦄, L.IsLinked k → ∃ x, p.get k = some x
  marked : ∀ ⦃k x⦄, p.get k = some x → (k ∈ L.nodes ℓ ↔ mark x = true)

namespace Filed

variable {mark : α → Bool} {ℓ m : ι} {p q : Storage α} {L : Linked ι} {k : ℕ} {x y : α}

theorem empty (n : ℕ) : Filed mark ℓ (.empty n) .empty where
  live _ h := by obtain ⟨_, h⟩ := h; cases h
  marked _ _ h := by cases h

theorem congr (h : Filed mark ℓ p L) (hq : ∀ j, q.get j = p.get j) : Filed mark ℓ q L where
  live j hj := by rw [hq]; exact h.live hj
  marked j z hz := h.marked (by rwa [← hq])

/-- An entry of another list has no mark. -/
theorem not_marked (h : Filed mark ℓ p L) (hx : p.get k = some x) (hk : k ∈ L.nodes m)
    (hm : m ≠ ℓ) : mark x = false := by
  by_contra hmark
  exact hm (L.disjoint hk ((h.marked hx).2 (eq_true_of_ne_false hmark)))

/-- A free id is not linked. -/
theorem not_linked (h : Filed mark ℓ p L) (hk : p.get k = none) : ¬L.IsLinked k := by
  intro hl
  obtain ⟨x, hx⟩ := h.live hl
  rw [hk] at hx
  cases hx

theorem acquire {z : ℕ → α} (h : Filed mark ℓ p L) (hz : p.acquire z = some (k, q))
    (hmark : mark (z k) = false) : Filed mark ℓ q L := by
  have hget := Storage.get_acquire hz
  have hfree := h.not_linked (Storage.get_of_acquire hz)
  refine ⟨fun j hj => ?_, fun j w hw => ?_⟩
  · have hjk : j ≠ k := by rintro rfl; exact hfree hj
    rw [hget, if_neg hjk]
    exact h.live hj
  · rw [hget] at hw
    split at hw
    · next hj =>
      cases hw
      subst hj
      rw [hmark]
      exact iff_of_false (fun hm => hfree ⟨ℓ, hm⟩) Bool.false_ne_true
    · exact h.marked hw

/-- Changing an entry but for its mark. -/
theorem set (h : Filed mark ℓ p L) (hx : p.get k = some x) (hmark : mark y = mark x) :
    Filed mark ℓ (p.set k y) L := by
  have hget := Storage.get_set hx y
  refine ⟨fun j hj => ?_, fun j w hw => ?_⟩
  · rw [hget]
    split
    · exact ⟨y, rfl⟩
    · exact h.live hj
  · rw [hget] at hw
    split at hw
    · next hj =>
      cases hw
      subst hj
      rw [h.marked hx, hmark]
    · exact h.marked hw

theorem release (h : Filed mark ℓ p L) : Filed mark ℓ (p.release k) (L.unlink k) := by
  refine ⟨fun j hj => ?_, fun j w hw => ?_⟩
  · obtain ⟨m, hm⟩ := hj
    rw [Linked.mem_unlink] at hm
    rw [Storage.get_release, if_neg hm.1]
    exact h.live ⟨m, hm.2⟩
  · rw [Storage.get_release] at hw
    split at hw
    · cases hw
    · next hj =>
      rw [Linked.mem_unlink, and_iff_right hj]
      exact h.marked hw

/-- Moving an entry to the list that goes with its mark. -/
theorem move [DecidableEq ι] (h : Filed mark ℓ p L) (hx : p.get k = some x)
    (hm : m = ℓ ↔ mark y = true) : Filed mark ℓ (p.set k y) (L.grabTail m k) := by
  have hget := Storage.get_set hx y
  refine ⟨fun j hj => ?_, fun j w hw => ?_⟩
  · obtain ⟨n, hn⟩ := hj
    rw [Linked.mem_grabTail] at hn
    rw [hget]
    split
    · exact ⟨y, rfl⟩
    · next hj => rw [if_neg hj] at hn; exact h.live ⟨n, hn⟩
  · rw [hget] at hw
    rw [Linked.mem_grabTail]
    split at hw
    · next hj =>
      cases hw
      rw [if_pos hj, eq_comm]
      exact hm
    · next hj =>
      rw [if_neg hj]
      exact h.marked hw

end Filed

end ProxyPlatform
