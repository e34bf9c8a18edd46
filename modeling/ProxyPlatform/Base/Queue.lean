import ProxyPlatform.Base.Run
import Mathlib.Data.List.Nodup

/-!
# Turns in a queue that changes

A queue is served round robin, as in `Base.RoundRobin`, while others join it at the tail and
leave it anywhere (`Serves`). Whoever stays gets a fair share all the same: two that are in
the queue throughout have had numbers of turns that differ by at most one.

The invariant is which of the two is ahead (`Alternate`): the one that is behind has had
one turn more, or they are as they were. The service may be any machine whose steps serve its
queue so (`count_served_le`).
-/

namespace ProxyPlatform

namespace Queue

variable {α : Type*} {a b c : α} {q q' l : List α} {m n : ℕ}

/-! ## Who is ahead -/

/-- The one is ahead of the other. -/
def Ahead (a b : α) (q : List α) : Prop := [a, b].Sublist q

/-- `a` is ahead of `b` after as many turns, or behind it after one more. -/
def Alternate (a b : α) (q : List α) (m n : ℕ) : Prop :=
  Ahead a b q ∧ m = n ∨ Ahead b a q ∧ m = n + 1

theorem Ahead.mem (h : Ahead a b q) : a ∈ q ∧ b ∈ q :=
  ⟨h.subset List.mem_cons_self, h.subset (List.mem_cons_of_mem _ List.mem_cons_self)⟩

theorem ahead_cons_self : Ahead a b (a :: q) ↔ b ∈ q := by
  rw [Ahead, List.cons_sublist_cons, List.singleton_sublist]

theorem ahead_cons_of_ne (h : a ≠ c) : Ahead a b (c :: q) ↔ Ahead a b q := by
  rw [Ahead, Ahead, List.sublist_cons_iff]
  refine or_iff_left ?_
  rintro ⟨r, hr, -⟩
  exact h (List.cons.inj hr).1

/-- One of two in a queue is ahead. -/
theorem ahead_or (ha : a ∈ q) (hb : b ∈ q) (hab : a ≠ b) : Ahead a b q ∨ Ahead b a q := by
  induction q with
  | nil => cases ha
  | cons c q ih =>
    by_cases hac : a = c
    · subst hac
      exact .inl (ahead_cons_self.2 (List.mem_of_ne_of_mem hab.symm hb))
    · by_cases hbc : b = c
      · subst hbc
        exact .inr (ahead_cons_self.2 (List.mem_of_ne_of_mem hab ha))
      · refine (ih (List.mem_of_ne_of_mem hac ha) (List.mem_of_ne_of_mem hbc hb)).imp ?_ ?_
        · exact (ahead_cons_of_ne hac).2
        · exact (ahead_cons_of_ne hbc).2

theorem Ahead.append (h : Ahead a b q) (l : List α) : Ahead a b (q ++ l) :=
  h.trans (List.sublist_append_left q l)

theorem Ahead.filter {p : α → Bool} (h : Ahead a b q) (ha : p a = true) (hb : p b = true) :
    Ahead a b (q.filter p) := by
  have hkept := List.Sublist.filter p h
  rwa [List.filter_cons_of_pos ha, List.filter_cons_of_pos hb, List.filter_nil] at hkept

/-! ## Serving a queue -/

variable [DecidableEq α]

/-- The queue `q` becomes `q'`, and those of `l` take their turn: the head, if anyone does. -/
inductive Serves : List α → List α → List α → Prop
  | idle (q : List α) : Serves q [] q
  | turn (a : α) (q : List α) : Serves (a :: q) [a] (q ++ [a])
  | join (a : α) (q : List α) (h : a ∉ q) : Serves q [] (q ++ [a])
  | leave (a : α) (q : List α) : Serves q [] (q.filter (· ≠ a))

theorem Serves.nodup (h : Serves q l q') (hq : q.Nodup) : q'.Nodup := by
  cases h with
  | idle => exact hq
  | turn a q => exact (List.perm_append_singleton a q).nodup_iff.2 hq
  | join a _ ha => exact (List.perm_append_singleton a q).nodup_iff.2 (List.nodup_cons.2 ⟨ha, hq⟩)
  | leave a => exact hq.filter _

/-- The one that takes its turn is ahead, and then behind; any other leaves them as they are. -/
theorem Alternate.turn (h : Alternate a b (c :: q) m n) (hq : (c :: q).Nodup) (hab : a ≠ b) :
    Alternate a b (q ++ [c]) (m + [c].count a) (n + [c].count b) := by
  by_cases hac : a = c
  · subst hac
    have hnot : ¬Ahead b a (a :: q) := fun hb =>
      (List.nodup_cons.1 hq).1 ((ahead_cons_of_ne hab.symm).1 hb).mem.2
    obtain ⟨hahead, rfl⟩ := h.resolve_right fun hb => hnot hb.1
    refine .inr ⟨?_, by simp [hab]⟩
    exact (List.singleton_sublist.2 (ahead_cons_self.1 hahead)).append (.refl [a])
  · by_cases hbc : b = c
    · subst hbc
      have hnot : ¬Ahead a b (b :: q) := fun ha =>
        (List.nodup_cons.1 hq).1 ((ahead_cons_of_ne hab).1 ha).mem.2
      obtain ⟨hahead, rfl⟩ := h.resolve_left fun ha => hnot ha.1
      refine .inl ⟨?_, by simp [hab.symm]⟩
      exact (List.singleton_sublist.2 (ahead_cons_self.1 hahead)).append (.refl [b])
    · rw [List.count_singleton, List.count_singleton, if_neg (by simpa using fun h => hac h.symm),
        if_neg (by simpa using fun h => hbc h.symm)]
      refine h.imp (fun h => ⟨?_, h.2⟩) fun h => ⟨?_, h.2⟩
      · exact ((ahead_cons_of_ne hac).1 h.1).append [c]
      · exact ((ahead_cons_of_ne hbc).1 h.1).append [c]

/-- A step keeps the invariant for two that stay. -/
theorem Alternate.step (h : Alternate a b q m n) (hs : Serves q l q') (hq : q.Nodup) (hab : a ≠ b)
    (ha : a ∈ q') (hb : b ∈ q') : Alternate a b q' (m + l.count a) (n + l.count b) := by
  cases hs with
  | idle => exact h
  | turn c q => exact h.turn hq hab
  | join c _ hc =>
    exact h.imp (fun h => ⟨h.1.append [c], h.2⟩) fun h => ⟨h.1.append [c], h.2⟩
  | leave c =>
    rw [List.mem_filter] at ha hb
    refine h.imp (fun h => ⟨?_, h.2⟩) fun h => ⟨?_, h.2⟩
    · exact h.1.filter ha.2 hb.2
    · exact h.1.filter hb.2 ha.2

/-! ## Machines that serve a queue -/

variable {S E ε : Type*} {step : S → E → Except ε S} {queue : S → List α} {served : S → E → List α}
  {I : S → Prop}

/-- What holds of every state that an event of a run is taken in, and at its end, holds at its
    beginning. -/
theorem head_of_along {P : S → Prop} {s t : S} {es : List E}
    (h : Along step (fun s _ => P s) s es) (hes : exec step s es = .ok t) (ht : P t) : P s := by
  cases es with
  | nil => cases hes; exact ht
  | cons e es => exact h.1

/-- Over a stretch of a run, the invariant holds from wherever the two are. -/
theorem Alternate.run (hI : ∀ s e t, I s → step s e = .ok t → I t ∧
      Serves (queue s) (served s e) (queue t)) {s t : S} {es : List E} (hab : a ≠ b)
    (h : Alternate a b (queue s) m n) (hs : I s) (hq : (queue s).Nodup)
    (hes : exec step s es = .ok t)
    (hstay : Along step (fun u _ => a ∈ queue u ∧ b ∈ queue u) s es)
    (ht : a ∈ queue t ∧ b ∈ queue t) :
    Alternate a b (queue t) (m + (collectAlong step served s es).count a)
      (n + (collectAlong step served s es).count b) := by
  induction es generalizing s m n with
  | nil =>
    cases hes
    exact h
  | cons e es ih =>
    obtain ⟨u, hu, hes⟩ := exec_cons_eq_ok.1 hes
    obtain ⟨hIu, hserves⟩ := hI s e u hs hu
    have hmem := head_of_along (hstay.2 u hu) hes ht
    have hnext := ih (h.step hserves hq hab hmem.1 hmem.2) hIu (hserves.nodup hq) hes (hstay.2 u hu)
    simp only [collectAlong, hu, List.count_append, ← Nat.add_assoc]
    exact hnext

/-- Of two that are in the queue throughout, none gets two turns more than the other. -/
theorem count_served_le (hI : ∀ s e t, I s → step s e = .ok t → I t ∧
      Serves (queue s) (served s e) (queue t)) {s t : S} {es : List E} (hs : I s)
    (hq : (queue s).Nodup) (hes : exec step s es = .ok t)
    (hstay : Along step (fun u _ => a ∈ queue u ∧ b ∈ queue u) s es)
    (ht : a ∈ queue t ∧ b ∈ queue t) :
    (collectAlong step served s es).count a ≤ (collectAlong step served s es).count b + 1 := by
  by_cases hab : a = b
  · subst hab
    exact Nat.le_succ _
  obtain ⟨ha, hb⟩ := head_of_along hstay hes ht
  rcases ahead_or ha hb hab with h | h
  · have hrun := Alternate.run (m := 0) (n := 0) hI hab (.inl ⟨h, rfl⟩) hs hq hes hstay ht
    rcases hrun with ⟨-, heq⟩ | ⟨-, heq⟩ <;> omega
  · have hrun := Alternate.run (m := 0) (n := 0) hI (Ne.symm hab) (.inl ⟨h, rfl⟩) hs hq hes
      (by simpa only [and_comm] using hstay) ht.symm
    rcases hrun with ⟨-, heq⟩ | ⟨-, heq⟩ <;> omega

end Queue

end ProxyPlatform
