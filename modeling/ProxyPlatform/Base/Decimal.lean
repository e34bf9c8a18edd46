import ProxyPlatform.Base.Bytes
import Mathlib.Data.List.TakeWhile
import Mathlib.Data.UInt

/-!
# Decimal digits

Numbers as `std::to_string` writes them (`decimal`) and as `strtoumax` reads them. The
reader is lenient: it skips white space, takes a sign, any number of zeros and whatever
comes after the last digit, and clamps what does not fit.

* `strtoumax_decimal`: a number that fits is read back;
* `head_decimal`: only zero is written with a zero at the beginning.
-/

namespace ProxyPlatform

/-- `std::to_string`, of an unsigned number. -/
def decimal (n : ℕ) : Bytes := (Nat.toDigits 10 n).map fun c => UInt8.ofNat c.toNat

/-- The number at the beginning of a C string: white space, a sign, and digits. -/
def leadingNumber (s : Bytes) : ℤ :=
  let digits (l : Bytes) : ℕ := (l.takeWhile isdigit).foldl (fun n b => 10 * n + (b.toNat - 48)) 0
  match s.dropWhile isspace with
  | 45 :: l => -(digits l : ℤ)
  | 43 :: l => digits l
  | l => digits l

/-- `strtoumax` in base 10. -/
def strtoumax (s : Bytes) : UInt64 :=
  if (leadingNumber s).natAbs < 2 ^ 64 then UInt64.ofNat (leadingNumber s % 2 ^ 64).toNat
  else UInt64.ofNat (2 ^ 64 - 1)

/-- The number the digits at the beginning stand for. -/
def digitsValue (s : Bytes) : ℕ :=
  (s.takeWhile isdigit).foldl (fun n b => 10 * n + (b.toNat - 48)) 0

theorem decimal_of_lt {n : ℕ} (h : n < 10) : decimal n = [UInt8.ofNat (48 + n)] := by
  have hdigit : ∀ d < 10, (Nat.toDigits 10 d).map (fun c => UInt8.ofNat c.toNat) =
      [UInt8.ofNat (48 + d)] := by decide
  exact hdigit n h

/-- The last digit is behind those of the tens. -/
theorem decimal_of_le {n : ℕ} (h : 10 ≤ n) :
    decimal n = decimal (n / 10) ++ [UInt8.ofNat (48 + n % 10)] := by
  have hmod : n % 10 < 10 := Nat.mod_lt n (by decide)
  have htens : 0 < n / 10 := Nat.div_pos h (by decide)
  have happend := Nat.toDigits_append_toDigits (b := 10) (by decide) htens hmod
  rw [Nat.div_add_mod] at happend
  rw [decimal, ← happend, List.map_append]
  exact congrArg (decimal (n / 10) ++ ·) (decimal_of_lt hmod)

/-- A number is its digits, one by one. -/
theorem decimal_induction {P : ℕ → Bytes → Prop} (hlt : ∀ n < 10, P n [UInt8.ofNat (48 + n)])
    (hstep : ∀ n s d, 0 < n → d < 10 → P n s → P (10 * n + d) (s ++ [UInt8.ofNat (48 + d)])) (n : ℕ) :
    P n (decimal n) := by
  induction n using Nat.strong_induction_on with
  | _ n ih =>
    rcases Nat.lt_or_ge n 10 with h | h
    · rw [decimal_of_lt h]
      exact hlt n h
    · have htens : 0 < n / 10 := Nat.div_pos h (by decide)
      have hstep := hstep (n / 10) _ (n % 10) htens (Nat.mod_lt n (by decide))
        (ih (n / 10) (Nat.div_lt_self (by omega) (by decide)))
      rw [Nat.div_add_mod] at hstep
      rwa [decimal_of_le h]

/-- A digit is one, and stands for its number. -/
theorem isdigit_ofNat {d : ℕ} (h : d < 10) :
    isdigit (UInt8.ofNat (48 + d)) = true ∧ (UInt8.ofNat (48 + d)).toNat - 48 = d := by
  have hall : ∀ d < 10, isdigit (UInt8.ofNat (48 + d)) = true ∧
      (UInt8.ofNat (48 + d)).toNat - 48 = d := by decide
  exact hall d h

theorem isdigit_of_mem_decimal (n : ℕ) : ∀ b ∈ decimal n, isdigit b = true := by
  refine decimal_induction (P := fun _ s => ∀ b ∈ s, isdigit b = true) (fun n hn b hb => ?_)
    (fun n s d _ hd hs b hb => ?_) n
  · rw [List.mem_singleton.1 hb]
    exact (isdigit_ofNat hn).1
  · rcases List.mem_append.1 hb with hb | hb
    · exact hs b hb
    · rw [List.mem_singleton.1 hb]
      exact (isdigit_ofNat hd).1

/-- What is no digit is not in a number. -/
theorem not_mem_decimal {b : UInt8} (h : isdigit b = false) (n : ℕ) : b ∉ decimal n := by
  intro hb
  rw [isdigit_of_mem_decimal n b hb] at h
  cases h

theorem digitsValue_decimal (n : ℕ) : digitsValue (decimal n) = n := by
  rw [digitsValue, List.takeWhile_eq_self_iff.2 (isdigit_of_mem_decimal n)]
  refine decimal_induction
    (P := fun n s => s.foldl (fun n b => 10 * n + (b.toNat - 48)) 0 = n) (fun n hn => ?_)
    (fun n s d _ hd hs => ?_) n
  · exact (Nat.zero_add _).trans (isdigit_ofNat hn).2
  · rw [List.foldl_append, hs]
    exact congrArg (10 * n + ·) (isdigit_ofNat hd).2

/-- A number has a digit, and only zero has a zero at the beginning. -/
theorem head_decimal (n : ℕ) :
    ∃ b s, decimal n = b :: s ∧ isdigit b = true ∧ (b = 48 → decimal n = [48]) := by
  have hdigit : ∀ d < 10, UInt8.ofNat (48 + d) = 48 → d = 0 := by decide
  refine (decimal_induction (P := fun n t => ∃ b s, t = b :: s ∧ isdigit b = true ∧
    (b = 48 → n = 0)) (fun n hn => ?_) (fun n t d hpos _ ht => ?_) n).imp fun b ⟨s, ht, hb, h0⟩ => ?_
  · exact ⟨_, [], rfl, (isdigit_ofNat hn).1, hdigit n hn⟩
  · obtain ⟨b, s, rfl, hb, h0⟩ := ht
    exact ⟨b, _, rfl, hb, fun h => absurd (h0 h) hpos.ne'⟩
  · exact ⟨s, ht, hb, fun h => by rw [h0 h, decimal_of_lt (by decide)]; rfl⟩

/-- A digit is no white space and no sign. -/
theorem isspace_of_isdigit {b : UInt8} (h : isdigit b = true) :
    isspace b = false ∧ b ≠ 45 ∧ b ≠ 43 := by
  simp only [isdigit, isspace, decide_eq_true_eq, decide_eq_false_iff_not, not_or, not_and,
    ← UInt8.toNat_inj, UInt8.le_iff_toNat_le, UInt8.reduceToNat, ne_eq] at h ⊢
  omega

/-- A number is read as it is written. -/
theorem leadingNumber_decimal (n : ℕ) : leadingNumber (decimal n) = n := by
  obtain ⟨b, s, hs, hb, -⟩ := head_decimal n
  obtain ⟨hspace, hminus, hplus⟩ := isspace_of_isdigit hb
  have hdrop : (decimal n).dropWhile isspace = decimal n := by
    rw [hs, List.dropWhile_cons_of_neg (by rw [hspace]; exact Bool.false_ne_true)]
  have hvalue := digitsValue_decimal n
  rw [leadingNumber, hdrop]
  dsimp only
  split
  · next l hl => exact absurd (List.cons.inj (hs.symm.trans hl)).1 hminus
  · next l hl => exact absurd (List.cons.inj (hs.symm.trans hl)).1 hplus
  · exact congrArg Nat.cast hvalue

theorem strtoumax_decimal {n : ℕ} (h : n < 2 ^ 64) : (strtoumax (decimal n)).toNat = n := by
  rw [strtoumax, leadingNumber_decimal, if_pos (by simpa using h)]
  have hmod : ((n : ℤ) % 2 ^ 64).toNat = n := by omega
  rw [hmod, UInt64.toNat_ofNat_of_lt' h]

end ProxyPlatform
