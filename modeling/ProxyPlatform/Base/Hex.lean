import ProxyPlatform.Common
import Mathlib.Data.UInt

/-!
# Hexadecimal digits

Byte strings as hexadecimal digits, two for each byte, the high half first. The digits are
written in upper case and read in either.

* `hexToStr_strToHex`: the digits of a byte string are read back as that byte string.
-/

namespace ProxyPlatform

/-- The digit of a number below 16. -/
def hexDigit (n : ℕ) : UInt8 := if n < 10 then UInt8.ofNat (48 + n) else UInt8.ofNat (55 + n)

/-- The number of a digit, if it is one. -/
def hexValue (c : UInt8) : Option ℕ :=
  if 48 ≤ c ∧ c ≤ 57 then some (c.toNat - 48)
  else if 65 ≤ c ∧ c ≤ 70 then some (c.toNat - 55)
  else if 97 ≤ c ∧ c ≤ 102 then some (c.toNat - 87)
  else none

/-- The digits of a byte string. -/
def strToHex : Bytes → Bytes
  | [] => []
  | b :: s => hexDigit (b.toNat / 16) :: hexDigit (b.toNat % 16) :: strToHex s

/-- The byte string of some digits, up to the first that is none. -/
def hexToStr : Bytes → Bytes
  | c :: d :: s => match hexValue c, hexValue d with
    | some m, some n => UInt8.ofNat (16 * m + n) :: hexToStr s
    | _, _ => []
  | _ => []

/-- A digit is read as the number it stands for. -/
theorem hexValue_hexDigit {n : ℕ} (h : n < 16) : hexValue (hexDigit n) = some n := by
  have hall : ∀ m < 16, hexValue (hexDigit m) = some m := by decide
  exact hall n h

theorem hexToStr_strToHex (s : Bytes) : hexToStr (strToHex s) = s := by
  induction s with
  | nil => rfl
  | cons b s ih =>
    have hb := b.toNat_lt
    have hhigh : b.toNat / 16 < 16 := by omega
    have hlow : b.toNat % 16 < 16 := Nat.mod_lt _ (by decide)
    rw [strToHex, hexToStr, hexValue_hexDigit hhigh, hexValue_hexDigit hlow]
    dsimp only
    rw [ih, Nat.div_add_mod, UInt8.ofNat_toNat]

/-- What is no digit is not written. -/
theorem not_mem_strToHex {c : UInt8} (hc : ∀ n < 16, hexDigit n ≠ c) (s : Bytes) :
    c ∉ strToHex s := by
  induction s with
  | nil => exact List.not_mem_nil
  | cons b s ih =>
    have hb := b.toNat_lt
    simp only [strToHex, List.mem_cons, not_or]
    exact ⟨(hc _ (by omega)).symm, (hc _ (Nat.mod_lt _ (by decide))).symm, ih⟩

end ProxyPlatform
