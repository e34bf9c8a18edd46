import Mathlib.Data.List.Basic

/-!
# What has been so since

Statements about a history, the latest event last: something happened, and since then
nothing but what keeps it (`Since keeps begins`). An event at the end either begins it anew
or has to keep it (`since_concat`), which is how an invariant of a run relates it to the
state the run leads to.

`Precedes a b` compares when two events happened last.
-/

namespace ProxyPlatform

variable {E : Type*} {keeps begins : E → Prop} {log : List E} {e : E}

/-- Some event of the history began it, and all that came after keep it. -/
def Since (keeps begins : E → Prop) (log : List E) : Prop :=
  ∃ pre e post, log = pre ++ e :: post ∧ begins e ∧ ∀ f ∈ post, keeps f

theorem not_since_nil : ¬Since keeps begins [] := by
  rintro ⟨pre, e, post, h, -⟩
  cases pre <;> cases h

/-- An event of a history with one more event is the last, or one of those before. -/
theorem concat_eq_append_cons {d : E} {pre post : List E} :
    log ++ [e] = pre ++ d :: post ↔
      log = pre ∧ e = d ∧ post = [] ∨ ∃ post', post = post' ++ [e] ∧ log = pre ++ d :: post' := by
  constructor
  · intro h
    rcases List.eq_nil_or_concat post with rfl | ⟨post, g, rfl⟩
    · obtain ⟨hlog, he⟩ := List.append_inj' h rfl
      exact .inl ⟨hlog, List.singleton_inj.1 he, rfl⟩
    · rw [List.concat_eq_append] at h ⊢
      rw [← List.cons_append, ← List.append_assoc] at h
      obtain ⟨hlog, he⟩ := List.append_inj' h rfl
      exact .inr ⟨post, by rw [List.singleton_inj.1 he], hlog⟩
  · rintro (⟨rfl, rfl, rfl⟩ | ⟨post, rfl, rfl⟩)
    · rfl
    · rw [List.append_assoc, List.cons_append]

/-- The last event began it, or it keeps what has been so before. -/
theorem since_concat :
    Since keeps begins (log ++ [e]) ↔ begins e ∨ keeps e ∧ Since keeps begins log := by
  constructor
  · rintro ⟨pre, f, post, h, hf, hpost⟩
    rcases concat_eq_append_cons.1 h with ⟨rfl, rfl, rfl⟩ | ⟨post, rfl, rfl⟩
    · exact .inl hf
    · refine .inr ⟨hpost e (List.mem_append_right _ List.mem_cons_self), pre, f, post, rfl, hf, ?_⟩
      exact fun g hg => hpost g (List.mem_append_left _ hg)
  · rintro (he | ⟨he, pre, f, post, rfl, hf, hpost⟩)
    · exact ⟨log, e, [], rfl, he, fun _ hf => absurd hf List.not_mem_nil⟩
    · refine ⟨pre, f, post ++ [e], by rw [List.append_assoc, List.cons_append], hf, fun g hg => ?_⟩
      rcases List.mem_append.1 hg with hg | hg
      · exact hpost g hg
      · exact List.mem_singleton.1 hg ▸ he

/-- An event that neither begins nor ends it makes no difference. -/
theorem since_concat_of_keeps (hb : ¬begins e) (he : keeps e) :
    Since keeps begins (log ++ [e]) ↔ Since keeps begins log := by
  rw [since_concat, or_iff_right hb, and_iff_right he]

/-- An event that ends it. -/
theorem not_since_concat (hb : ¬begins e) (he : ¬keeps e) : ¬Since keeps begins (log ++ [e]) := by
  rw [since_concat]
  exact not_or.2 ⟨hb, fun h => he h.1⟩

/-! ## Which happened last -/

/-- The event `a` happened last before the event `b` did. -/
def Precedes (a b : E) (log : List E) : Prop :=
  ∃ pre post, log = pre ++ a :: post ∧ a ∉ post ∧ b ∈ post

/-- An event that happened happened last somewhere. -/
theorem exists_last {a : E} (h : a ∈ log) : ∃ pre post, log = pre ++ a :: post ∧ a ∉ post := by
  obtain ⟨pre, post, hlog, hpre⟩ := List.eq_append_cons_of_mem (List.mem_reverse.2 h)
  refine ⟨post.reverse, pre.reverse, ?_, fun ha => hpre (List.mem_reverse.1 ha)⟩
  rw [← List.reverse_reverse log, hlog, List.reverse_append, List.reverse_cons, List.append_assoc]
  rfl

/-- What happens later makes no difference, unless `a` happens again. -/
theorem Precedes.concat {a b : E} (h : Precedes a b log) (he : e ≠ a) :
    Precedes a b (log ++ [e]) := by
  obtain ⟨pre, post, rfl, ha, hb⟩ := h
  refine ⟨pre, post ++ [e], by rw [List.append_assoc, List.cons_append], ?_, ?_⟩
  · rw [List.mem_append, List.mem_singleton]
    exact not_or.2 ⟨ha, he.symm⟩
  · exact List.mem_append_left _ hb

/-- What happens now happens after all that happened. -/
theorem precedes_concat {a : E} (ha : a ∈ log) (he : e ≠ a) : Precedes a e (log ++ [e]) := by
  obtain ⟨pre, post, rfl, hpost⟩ := exists_last ha
  refine ⟨pre, post ++ [e], by rw [List.append_assoc, List.cons_append], ?_, ?_⟩
  · rw [List.mem_append, List.mem_singleton]
    exact not_or.2 ⟨hpost, he.symm⟩
  · exact List.mem_append_right _ List.mem_cons_self

end ProxyPlatform
