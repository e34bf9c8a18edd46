import ProxyPlatform.Base.Run
import ProxyPlatform.Common
import Mathlib.Algebra.Group.Int.Defs
import Mathlib.Data.Int.Notation

/-!
# Byte strings

The functions of the C and C++ libraries the parsers use, on lists of bytes: the search
for a line end (`findCrlf`) or for a byte (`find`), the comparison of a prefix without
regard to case (`strncasecmp`), and the conversion of a number (`strtol`, on which
`atoi` and `atoll` rest). A conversion that runs into the end of the bytes it was given
reads beyond them.

* `findCrlf_eq_some`: a line end found is there.
-/

namespace ProxyPlatform

/-- The bytes of an ASCII string. -/
def ascii (s : String) : Bytes := s.toUTF8.toList

/-- The position of the first line end. -/
def findCrlf : Bytes → Option ℕ
  | [] => none
  | b :: bs => if b = 13 ∧ bs.head? = some 10 then some 0 else (findCrlf bs).map (· + 1)

/-- The position of the first byte `c`. -/
def find (c : UInt8) : Bytes → Option ℕ
  | [] => none
  | b :: bs => if b = c then some 0 else (find c bs).map (· + 1)

/-- The pieces between the bytes `c`. -/
def split (c : UInt8) : Bytes → List Bytes
  | [] => [[]]
  | b :: s => if b = c then [] :: split c s else match split c s with
    | [] => []
    | p :: ps => (b :: p) :: ps

/-- `tolower`, in the C locale. -/
def tolower (b : UInt8) : UInt8 := if 65 ≤ b ∧ b ≤ 90 then b + 32 else b

/-- Whether `strncasecmp` finds the bytes of `s` at the beginning of `t`. -/
def strncasecmp (s t : Bytes) : Bool := (t.take s.length).map tolower = s.map tolower

/-- `isspace`, in the C locale. -/
def isspace (b : UInt8) : Bool := b = 32 ∨ 9 ≤ b ∧ b ≤ 13

def isdigit (b : UInt8) : Bool := 48 ≤ b ∧ b ≤ 57

/-- The digits at the beginning, as a number following `n`; the bytes must go on behind
    them. -/
def readDigits (n : ℕ) : Bytes → Except Fault ℕ
  | [] => .error .readOutOfRange
  | b :: bs => if isdigit b then readDigits (10 * n + (b.toNat - 48)) bs else .ok n

/-- `strtol` in base 10: white space, a sign, and digits; the value is clamped. -/
def strtol : Bytes → Except Fault ℤ
  | [] => .error .readOutOfRange
  | b :: bs =>
    if isspace b then strtol bs
    else if b = 45 then (readDigits 0 bs).map fun n => max (-(n : ℤ)) (-2 ^ 63)
    else if b = 43 then (readDigits 0 bs).map fun n => min (n : ℤ) (2 ^ 63 - 1)
    else (readDigits 0 (b :: bs)).map fun n => min (n : ℤ) (2 ^ 63 - 1)

/-- `atoi`, as stored in a `uint16_t`. -/
def atoi16 (s : Bytes) : Except Fault ℕ := (strtol s).map fun n => (n % 2 ^ 16).toNat

/-- `atoll`, as stored in a `size_t`. -/
def atoll64 (s : Bytes) : Except Fault ℕ := (strtol s).map fun n => (n % 2 ^ 64).toNat

/-! ## Bytes found -/

theorem find_eq_some {b : UInt8} {s : Bytes} {n : ℕ} (h : find b s = some n) :
    n < s.length ∧ s[n]? = some b := by
  induction s generalizing n with
  | nil => cases h
  | cons c cs ih =>
    rw [find] at h
    split at h
    · next hb => cases h; exact ⟨Nat.succ_pos _, congrArg some hb⟩
    · obtain ⟨m, hm, rfl⟩ := Option.map_eq_some_iff.1 h
      exact ⟨Nat.succ_lt_succ (ih hm).1, (ih hm).2⟩

theorem find_eq_none {b : UInt8} {l : Bytes} : find b l = none ↔ b ∉ l := by
  induction l with
  | nil => simp [find]
  | cons c cs ih =>
    rw [find, List.mem_cons, not_or]
    split
    · next hc => simp [hc]
    · next hc => simp [ih, Ne.symm hc]

/-- The first byte `b` is behind what has none. -/
theorem find_append_cons {b : UInt8} {l : Bytes} (h : b ∉ l) (w : Bytes) :
    find b (l ++ b :: w) = some l.length := by
  induction l with
  | nil => exact if_pos rfl
  | cons a l ih =>
    rw [List.mem_cons, not_or] at h
    rw [List.cons_append, find, if_neg (Ne.symm h.1), ih h.2]
    rfl

/-- What is before the first byte `b`, and what is behind it. -/
theorem exists_find {b : UInt8} {s : Bytes} {n : ℕ} (h : find b s = some n) :
    ∃ l w, s = l ++ b :: w ∧ b ∉ l ∧ l.length = n := by
  induction s generalizing n with
  | nil => cases h
  | cons c cs ih =>
    rw [find] at h
    split at h
    · next hc =>
      cases h
      exact ⟨[], cs, by rw [hc]; rfl, List.not_mem_nil, rfl⟩
    · next hc =>
      obtain ⟨m, hm, rfl⟩ := Option.map_eq_some_iff.1 h
      obtain ⟨l, w, rfl, hl, rfl⟩ := ih hm
      refine ⟨c :: l, w, rfl, fun hb => ?_, rfl⟩
      rcases List.mem_cons.1 hb with rfl | hb
      · exact hc rfl
      · exact hl hb

/-- There is one way to split at the first byte `b`. -/
theorem append_cons_inj {b : UInt8} {l l' w w' : Bytes} (hl : b ∉ l) (hl' : b ∉ l')
    (h : l ++ b :: w = l' ++ b :: w') : l = l' ∧ w = w' := by
  have hlength : some l.length = some l'.length := by
    rw [← find_append_cons hl w, h, find_append_cons hl']
  obtain ⟨rfl, htail⟩ := List.append_inj h (Option.some.inj hlength)
  exact ⟨rfl, (List.cons.inj htail).2⟩

/-- The first piece is all there is, or it ends at the first byte `c`. -/
theorem exists_split (c : UInt8) (s : Bytes) :
    ∃ p, c ∉ p ∧ ((s = p ∧ split c s = [p]) ∨
      ∃ w, s = p ++ c :: w ∧ split c s = p :: split c w) := by
  induction s with
  | nil => exact ⟨[], List.not_mem_nil, .inl ⟨rfl, rfl⟩⟩
  | cons b s ih =>
    obtain ⟨p, hp, hs⟩ := ih
    by_cases hb : b = c
    · exact ⟨[], List.not_mem_nil, .inr ⟨s, by rw [hb]; rfl, if_pos hb⟩⟩
    · have hbp : c ∉ b :: p := fun h => (List.mem_cons.1 h).elim (fun h => hb h.symm) hp
      refine ⟨b :: p, hbp, ?_⟩
      rcases hs with ⟨rfl, hsplit⟩ | ⟨w, rfl, hsplit⟩
      · exact .inl ⟨rfl, by simp only [split, if_neg hb, hsplit]⟩
      · exact .inr ⟨w, rfl, by simp only [split, if_neg hb, hsplit]⟩

/-- Two pieces are what is before the only byte `c`, and what is behind it. -/
theorem split_pair (s : Bytes) (c : UInt8) (a b : Bytes) :
    split c s = [a, b] ↔ s = a ++ c :: b ∧ c ∉ a ∧ c ∉ b := by
  obtain ⟨p, hp, hs⟩ := exists_split c s
  constructor
  · intro h
    rcases hs with ⟨-, hsplit⟩ | ⟨w, rfl, hsplit⟩
    · rw [hsplit] at h
      cases h
    · rw [hsplit, List.cons.injEq] at h
      obtain ⟨rfl, h⟩ := h
      obtain ⟨q, hq, ⟨rfl, hw⟩ | ⟨v, rfl, hw⟩⟩ := exists_split c w
      · rw [hw, List.cons.injEq] at h
        exact ⟨by rw [h.1], hp, h.1 ▸ hq⟩
      · rw [hw, List.cons.injEq] at h
        obtain ⟨r, -, ⟨-, hv⟩ | ⟨_, -, hv⟩⟩ := exists_split c v
        all_goals
          rw [hv] at h
          cases h.2
  · rintro ⟨hab, ha, hb⟩
    rcases hs with ⟨rfl, -⟩ | ⟨w, rfl, hsplit⟩
    · exact absurd (hab ▸ List.mem_append_right a List.mem_cons_self) hp
    · obtain ⟨rfl, rfl⟩ := append_cons_inj hp ha hab
      obtain ⟨q, -, ⟨rfl, hw⟩ | ⟨v, rfl, -⟩⟩ := exists_split c w
      · rw [hsplit, hw]
      · exact absurd (List.mem_append_right q List.mem_cons_self) hb

/-! ## Numbers -/

/-- A byte with which a number ends: no digit, no sign and no white space. -/
def EndsNumber (b : UInt8) : Prop := isdigit b = false ∧ isspace b = false ∧ b ≠ 45 ∧ b ≠ 43
  deriving Decidable

/-- What is behind the end of a number does not matter to it. -/
theorem readDigits_of_mem {b : UInt8} {l : Bytes} (hb : EndsNumber b) (h : b ∈ l) (m : ℕ) :
    ∃ i, ∀ r, readDigits m (l ++ r) = .ok i := by
  induction l generalizing m with
  | nil => cases h
  | cons c l ih =>
    by_cases hc : isdigit c
    · have hcb : b ≠ c := fun heq => by simp [← heq, hb.1] at hc
      obtain ⟨i, hi⟩ := ih ((List.mem_cons.1 h).resolve_left hcb) (10 * m + (c.toNat - 48))
      exact ⟨i, fun r => by rw [List.cons_append, readDigits, if_pos hc, hi]⟩
    · exact ⟨m, fun r => by rw [List.cons_append, readDigits, if_neg hc]⟩

theorem strtol_of_mem {b : UInt8} {l : Bytes} (hb : EndsNumber b) (h : b ∈ l) :
    ∃ i, ∀ r, strtol (l ++ r) = .ok i := by
  induction l with
  | nil => cases h
  | cons c l ih =>
    simp only [List.cons_append, strtol]
    split
    · next hc =>
      have hcb : b ≠ c := fun heq => by simp [← heq, hb.2.1] at hc
      exact ih ((List.mem_cons.1 h).resolve_left hcb)
    · split
      · next hc =>
        have hcb : b ≠ c := fun heq => hb.2.2.1 (heq.trans hc)
        obtain ⟨i, hi⟩ := readDigits_of_mem hb ((List.mem_cons.1 h).resolve_left hcb) 0
        exact ⟨_, fun r => by rw [hi]; rfl⟩
      · split
        · next hc =>
          have hcb : b ≠ c := fun heq => hb.2.2.2 (heq.trans hc)
          obtain ⟨i, hi⟩ := readDigits_of_mem hb ((List.mem_cons.1 h).resolve_left hcb) 0
          exact ⟨_, fun r => by rw [hi]; rfl⟩
        · obtain ⟨i, hi⟩ := readDigits_of_mem hb h 0
          exact ⟨_, fun r => by rw [← List.cons_append, hi]; rfl⟩

theorem atoi16_of_mem {b : UInt8} {l : Bytes} (hb : EndsNumber b) (h : b ∈ l) :
    ∃ i, ∀ r, atoi16 (l ++ r) = .ok i := by
  obtain ⟨i, hi⟩ := strtol_of_mem hb h
  exact ⟨_, fun r => by rw [atoi16, hi]; rfl⟩

/-! ## Line ends -/

theorem findCrlf_crlf (r : Bytes) : findCrlf (13 :: 10 :: r) = some 0 := rfl

/-- A line end found is there. -/
theorem findCrlf_eq_some {s : Bytes} {n : ℕ} (h : findCrlf s = some n) :
    s = s.take n ++ 13 :: 10 :: s.drop (n + 2) := by
  induction s generalizing n with
  | nil => cases h
  | cons b bs ih =>
    rw [findCrlf] at h
    split at h
    · next hb =>
      obtain ⟨rfl, hbs⟩ := hb
      cases h
      obtain ⟨r, rfl⟩ := List.head?_eq_some_iff.1 hbs
      rfl
    · obtain ⟨m, hm, rfl⟩ := Option.map_eq_some_iff.1 h
      rw [List.take_succ_cons, List.cons_append]
      congr 1
      exact ih hm

theorem add_two_le_of_findCrlf {s : Bytes} {n : ℕ} (h : findCrlf s = some n) :
    n + 2 ≤ s.length := by
  have hs := congrArg List.length (findCrlf_eq_some h)
  rw [List.length_append, List.length_cons, List.length_cons, List.length_take,
    List.length_drop] at hs
  omega

end ProxyPlatform
