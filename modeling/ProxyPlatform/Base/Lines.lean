import ProxyPlatform.Base.Bytes

/-!
# Lines

A byte string is a sequence of lines, each followed by a line end, and a rest that has
none (`splitLines`). A line is a byte string without a line end, in the sense of
`findCrlf`; its last byte may well be the first one of a line end.

* `findCrlf_line`: the line end found is the one behind the first line;
* `splitLines_line`, `splitLines_rest`: the two ways a byte string begins;
* `lines_induction`: induction on the lines of a byte string;
* `withEnds`: lines as they are written; `splitLines_withEnds`, `withEnds_splitLines`: they are
  read back, and what is read is written as it was.
-/

namespace ProxyPlatform

/-- The lines of a byte string, and what follows the last line end. -/
def splitLines : Bytes → List Bytes × Bytes
  | [] => ([], [])
  | [b] => ([], [b])
  | a :: b :: bs =>
    if a = 13 ∧ b = 10 then ([] :: (splitLines bs).1, (splitLines bs).2)
    else match splitLines (b :: bs) with
      | ([], rest) => ([], a :: rest)
      | (l :: ls, rest) => ((a :: l) :: ls, rest)

variable {l r s : Bytes}

theorem findCrlf_cons_eq_none {b : UInt8} :
    findCrlf (b :: s) = none ↔ ¬(b = 13 ∧ s.head? = some 10) ∧ findCrlf s = none := by
  rw [findCrlf]
  split <;> simp_all

/-- A line end found is the one behind the first line. -/
theorem findCrlf_line (hl : findCrlf l = none) (r : Bytes) :
    findCrlf (l ++ 13 :: 10 :: r) = some l.length := by
  induction l with
  | nil => rfl
  | cons b bs ih =>
    obtain ⟨hb, hbs⟩ := findCrlf_cons_eq_none.1 hl
    -- The byte behind `b` is one of the line, or the first one of its end.
    have hnot : ¬(b = 13 ∧ (bs ++ 13 :: 10 :: r).head? = some 10) := by
      cases bs with
      | nil => simp
      | cons c cs => exact hb
    rw [List.cons_append, findCrlf, if_neg hnot, ih hbs]
    rfl

/-- What a line begins with has no line end. -/
theorem findCrlf_of_begins {y z : Bytes} (h : y <+: z) (hz : findCrlf z = none) :
    findCrlf y = none := by
  induction y generalizing z with
  | nil => rfl
  | cons b y ih =>
    obtain ⟨x, rfl⟩ := h
    rw [List.cons_append, findCrlf_cons_eq_none] at hz
    refine findCrlf_cons_eq_none.2 ⟨fun hb => hz.1 ⟨hb.1, ?_⟩, ih (List.prefix_append y x) hz.2⟩
    cases y with
    | nil => cases hb.2
    | cons d y => exact hb.2

/-- A line of which the end has begun. -/
theorem findCrlf_append_cr {l : Bytes} (h : findCrlf l = none) : findCrlf (l ++ [13]) = none := by
  induction l with
  | nil => rfl
  | cons b l ih =>
    obtain ⟨hb, hl⟩ := findCrlf_cons_eq_none.1 h
    refine findCrlf_cons_eq_none.2 ⟨fun hb' => hb ⟨hb'.1, ?_⟩, ih hl⟩
    cases l with
    | nil => cases hb'.2
    | cons d l => exact hb'.2

/-- What is before the first line end is a line. -/
theorem findCrlf_take {n : ℕ} (h : findCrlf s = some n) : findCrlf (s.take n) = none := by
  induction s generalizing n with
  | nil => cases h
  | cons b bs ih =>
    rw [findCrlf] at h
    split at h
    · cases h; rfl
    · next hb =>
      obtain ⟨m, hm, rfl⟩ := Option.map_eq_some_iff.1 h
      rw [List.take_succ_cons, findCrlf_cons_eq_none]
      refine ⟨fun hb' => hb ⟨hb'.1, ?_⟩, ih hm⟩
      cases m with
      | zero => simp at hb'
      | succ m =>
        cases bs with
        | nil => simp at hb'
        | cons c cs => exact hb'.2

/-- A byte string with a line end begins with a line. -/
theorem exists_line {n : ℕ} (h : findCrlf s = some n) :
    ∃ l r, s = l ++ 13 :: 10 :: r ∧ findCrlf l = none ∧ l.length = n ∧ r = s.drop (n + 2) := by
  refine ⟨s.take n, s.drop (n + 2), findCrlf_eq_some h, findCrlf_take h, ?_, rfl⟩
  have hn := add_two_le_of_findCrlf h
  rw [List.length_take]
  omega

/-- Induction on the lines of a byte string. -/
@[elab_as_elim]
theorem lines_induction {motive : Bytes → Prop} (s : Bytes)
    (rest : ∀ s, findCrlf s = none → motive s)
    (line : ∀ l r, findCrlf l = none → motive r → motive (l ++ 13 :: 10 :: r)) : motive s := by
  induction h : s.length using Nat.strongRecOn generalizing s with
  | _ n ih =>
    cases hs : findCrlf s with
    | none => exact rest s hs
    | some m =>
      obtain ⟨l, r, rfl, hl, -, -⟩ := exists_line hs
      refine line l r hl (ih r.length ?_ r rfl)
      simp only [List.length_append, List.length_cons] at h
      omega

/-- A byte string without a line end is the rest. -/
theorem splitLines_rest (h : findCrlf s = none) : splitLines s = ([], s) := by
  induction s with
  | nil => rfl
  | cons a s ih =>
    obtain ⟨ha, hs⟩ := findCrlf_cons_eq_none.1 h
    cases s with
    | nil => rfl
    | cons b bs =>
      have hab : ¬(a = 13 ∧ b = 10) := fun h => ha ⟨h.1, congrArg some h.2⟩
      rw [splitLines, if_neg hab, ih hs]

/-- A line and its end come first. -/
theorem splitLines_line (hl : findCrlf l = none) (r : Bytes) :
    splitLines (l ++ 13 :: 10 :: r) = (l :: (splitLines r).1, (splitLines r).2) := by
  induction l with
  | nil => rfl
  | cons a l ih =>
    obtain ⟨ha, hl⟩ := findCrlf_cons_eq_none.1 hl
    cases l with
    | nil =>
      rw [List.cons_append, List.nil_append, splitLines, if_neg (by simp)]
      rfl
    | cons b bs =>
      have hab : ¬(a = 13 ∧ b = 10) := fun h => ha ⟨h.1, congrArg some h.2⟩
      rw [List.cons_append, List.cons_append, splitLines, if_neg hab, ← List.cons_append, ih hl]

/-- The first line end cuts off the first line. -/
theorem splitLines_of_findCrlf {n : ℕ} (h : findCrlf s = some n) :
    splitLines s = (s.take n :: (splitLines (s.drop (n + 2))).1, (splitLines (s.drop (n + 2))).2) := by
  have hs := splitLines_line (findCrlf_take h) (s.drop (n + 2))
  rwa [← findCrlf_eq_some h] at hs

/-- The lines of two byte strings one after the other. -/
theorem splitLines_append (r : Bytes) :
    splitLines (s ++ r) = ((splitLines s).1 ++ (splitLines ((splitLines s).2 ++ r)).1,
      (splitLines ((splitLines s).2 ++ r)).2) := by
  induction s using lines_induction with
  | rest s hs => rw [splitLines_rest hs, List.nil_append]
  | line l s hl ih =>
    rw [List.append_assoc, List.cons_append, List.cons_append, splitLines_line hl,
      splitLines_line hl, ih]
    rfl

/-- What follows the last line end has none. -/
theorem findCrlf_splitLines : findCrlf (splitLines s).2 = none := by
  induction s using lines_induction with
  | rest s hs => rwa [splitLines_rest hs]
  | line l s hl ih => rwa [splitLines_line hl]

/-- What follows the last line end is at the end. -/
theorem splitLines_suffix : (splitLines s).2 <:+ s := by
  induction s using lines_induction with
  | rest s hs => exact ⟨[], by rw [splitLines_rest hs, List.nil_append]⟩
  | line l s hl ih =>
    rw [splitLines_line hl]
    exact ih.trans ⟨l ++ [13, 10], by simp⟩

/-- Before a line end there is a line, which is where the byte string begins. -/
theorem exists_splitLines_crlf (s : Bytes) :
    ∃ l ls, splitLines (s ++ [13, 10]) = (l :: ls, []) ∧ l <+: s := by
  induction s using lines_induction with
  | rest s hs => exact ⟨s, [], splitLines_line hs [], List.prefix_rfl⟩
  | line l s hl ih =>
    obtain ⟨l', ls, hsplit, -⟩ := ih
    refine ⟨l, l' :: ls, ?_, List.prefix_append _ _⟩
    rw [List.append_assoc, List.cons_append, List.cons_append, splitLines_line hl, hsplit]

/-! ## Lines as they are written -/

/-- The lines, each with its end. -/
def withEnds (ls : List Bytes) : Bytes := ls.flatMap fun l => l ++ [13, 10]

@[simp] theorem withEnds_nil : withEnds [] = [] := rfl

theorem withEnds_cons (l : Bytes) (ls : List Bytes) :
    withEnds (l :: ls) = l ++ 13 :: 10 :: withEnds ls := by
  rw [withEnds, List.flatMap_cons, List.append_assoc]
  rfl

theorem withEnds_append (ls ls' : List Bytes) : withEnds (ls ++ ls') = withEnds ls ++ withEnds ls' :=
  List.flatMap_append

/-- Lines that are written are read back. -/
theorem splitLines_withEnds {ls : List Bytes} (h : ∀ l ∈ ls, findCrlf l = none) (r : Bytes) :
    splitLines (withEnds ls ++ r) = (ls ++ (splitLines r).1, (splitLines r).2) := by
  induction ls with
  | nil => rfl
  | cons l ls ih =>
    obtain ⟨hl, hls⟩ := List.forall_mem_cons.1 h
    rw [withEnds_cons, List.append_assoc, List.cons_append, List.cons_append, splitLines_line hl,
      ih hls]
    rfl

theorem withEnds_splitLines (s : Bytes) : withEnds (splitLines s).1 ++ (splitLines s).2 = s := by
  induction s using lines_induction with
  | rest s hs => rw [splitLines_rest hs, withEnds_nil, List.nil_append]
  | line l s hl ih =>
    rw [splitLines_line hl, withEnds_cons, List.append_assoc, List.cons_append, List.cons_append, ih]

theorem findCrlf_of_mem_splitLines {s : Bytes} (h : l ∈ (splitLines s).1) : findCrlf l = none := by
  induction s using lines_induction with
  | rest s hs =>
    rw [splitLines_rest hs] at h
    cases h
  | line l' s hl ih =>
    rw [splitLines_line hl] at h
    rcases List.mem_cons.1 h with rfl | h
    · exact hl
    · exact ih h

/-- The same lines are written by the same bytes only. -/
theorem withEnds_inj {ls ls' : List Bytes} (h : ∀ l ∈ ls, findCrlf l = none)
    (h' : ∀ l ∈ ls', findCrlf l = none) (heq : withEnds ls = withEnds ls') : ls = ls' := by
  have hsplit : splitLines (withEnds ls ++ []) = splitLines (withEnds ls' ++ []) := by rw [heq]
  rw [splitLines_withEnds h, splitLines_withEnds h', splitLines_rest rfl, List.append_nil,
    List.append_nil] at hsplit
  exact congrArg Prod.fst hsplit

/-- Only the empty byte string has no line and no rest. -/
theorem splitLines_eq_nil : (splitLines s).1 = [] ∧ (splitLines s).2 = [] ↔ s = [] := by
  cases h : findCrlf s with
  | none => rw [splitLines_rest h]; exact and_iff_right rfl
  | some n =>
    rw [splitLines_of_findCrlf h]
    refine iff_of_false (fun hs => by cases hs.1) ?_
    rintro rfl
    cases h

end ProxyPlatform
