import ProxyPlatform.Common
import Mathlib.Data.UInt
import Mathlib.Logic.Equiv.Defs

/-!
# Blocks and padding

A block cipher works on blocks of a fixed length (`Block`). A list is cut into blocks
(`Block.blocks`) and put together again (`Block.join`); `Block.ecb` transforms each block by
itself.

What is to be enciphered is padded to whole blocks (`pad`): by at least one byte and at
most a block, each of them the number of bytes added. `IsPadded` holds of what ends in such
a padding.

* `ecb_symm_ecb`: a permutation of the blocks is undone by its inverse;
* `isPadded_iff`: of whole blocks, those that end in a padding are those that are padded.
-/

namespace ProxyPlatform

/-- A block of `n` entries. -/
abbrev Block (α : Type*) (n : ℕ) := { l : List α // l.length = n }

namespace Block

variable {α : Type*} {n : ℕ}

/-- The entries of some blocks, one block after the other. -/
def join (l : List (Block α n)) : List α := l.flatMap Subtype.val

@[simp] theorem join_nil : join ([] : List (Block α n)) = [] := rfl

@[simp] theorem join_cons (b : Block α n) (l : List (Block α n)) : join (b :: l) = b.1 ++ join l := rfl

theorem length_join (l : List (Block α n)) : (join l).length = l.length * n := by
  induction l with
  | nil => rw [join_nil, List.length_nil, List.length_nil, Nat.zero_mul]
  | cons b l ih => rw [join_cons, List.length_append, b.2, ih, List.length_cons, Nat.succ_mul, Nat.add_comm]

/-- The first `k` blocks of a list. -/
def cut (n : ℕ) : ℕ → List α → List (Block α n)
  | 0, _ => []
  | k + 1, x =>
    if h : n ≤ x.length then ⟨x.take n, List.length_take_of_le h⟩ :: cut n k (x.drop n) else []

/-- The blocks of a list. -/
def blocks (n : ℕ) (x : List α) : List (Block α n) := cut n (x.length / n) x

theorem cut_join (l : List (Block α n)) : cut n l.length (join l) = l := by
  induction l with
  | nil => rfl
  | cons b l ih =>
    have hb : n ≤ (b.1 ++ join l).length := by rw [List.length_append, b.2]; exact Nat.le_add_right _ _
    have htake : (b.1 ++ join l).take n = b.1 := List.take_left' b.2
    have hdrop : (b.1 ++ join l).drop n = join l := List.drop_left' b.2
    rw [List.length_cons, join_cons, cut, dif_pos hb]
    simp only [htake, hdrop, ih]

theorem blocks_join (hn : 0 < n) (l : List (Block α n)) : blocks n (join l) = l := by
  rw [blocks, length_join, Nat.mul_div_cancel _ hn, cut_join]

/-- Whole blocks are put together again. -/
theorem join_cut {k : ℕ} {x : List α} (h : x.length = k * n) : join (cut n k x) = x := by
  induction k generalizing x with
  | zero =>
    rw [Nat.zero_mul, List.length_eq_zero_iff] at h
    rw [h]
    rfl
  | succ k ih =>
    rw [Nat.succ_mul] at h
    have hle : n ≤ x.length := h ▸ Nat.le_add_left n _
    rw [cut, dif_pos hle, join_cons, ih (by rw [List.length_drop]; omega), List.take_append_drop]

theorem join_blocks {x : List α} (h : n ∣ x.length) : join (blocks n x) = x :=
  join_cut (Nat.div_mul_cancel h).symm

/-- Every block is transformed by itself. -/
def ecb (f : Block α n → Block α n) (x : List α) : List α := join ((blocks n x).map f)

theorem length_ecb {x : List α} (h : n ∣ x.length) (f : Block α n → Block α n) :
    (ecb f x).length = x.length := by
  rw [ecb, length_join, List.length_map, ← length_join, join_blocks h]

/-- A permutation of the blocks is undone by its inverse. -/
theorem ecb_symm_ecb (hn : 0 < n) (f : Equiv.Perm (Block α n)) {x : List α} (h : n ∣ x.length) :
    ecb f.symm (ecb f x) = x := by
  rw [ecb, ecb, blocks_join hn, List.map_map, Equiv.symm_comp_self, List.map_id, join_blocks h]

theorem ecb_ecb_symm (hn : 0 < n) (f : Equiv.Perm (Block α n)) {x : List α} (h : n ∣ x.length) :
    ecb f (ecb f.symm x) = x := ecb_symm_ecb hn f.symm h

end Block

/-! ## Padding -/

/-- The number of bytes that fill the last block. -/
def padLength (n : ℕ) (x : Bytes) : ℕ := n - x.length % n

/-- The bytes `x`, padded to blocks of length `n`. -/
def pad (n : ℕ) (x : Bytes) : Bytes := x ++ List.replicate (padLength n x) (UInt8.ofNat (padLength n x))

/-- The bytes end in a padding: some bytes, at most a block, each of them their number. -/
def IsPadded (n : ℕ) (y : Bytes) : Prop :=
  ∃ x p, 1 ≤ p ∧ p ≤ n ∧ y = x ++ List.replicate p (UInt8.ofNat p)

variable {n : ℕ}

theorem padLength_pos (hn : 0 < n) (x : Bytes) : 1 ≤ padLength n x :=
  Nat.sub_pos_of_lt (Nat.mod_lt _ hn)

theorem padLength_le (n : ℕ) (x : Bytes) : padLength n x ≤ n := Nat.sub_le _ _

theorem length_pad (hn : 0 < n) (x : Bytes) : (pad n x).length = (x.length / n + 1) * n := by
  have hmod := Nat.mod_lt x.length hn
  have hdiv := Nat.div_add_mod' x.length n
  rw [pad, List.length_append, List.length_replicate, padLength, Nat.succ_mul]
  omega

theorem dvd_length_pad (hn : 0 < n) (x : Bytes) : n ∣ (pad n x).length :=
  ⟨_, (length_pad hn x).trans (Nat.mul_comm _ _)⟩

/-- Of whole blocks, those that end in a padding are those that are padded. -/
theorem isPadded_iff (hn : 0 < n) {y : Bytes} (h : n ∣ y.length) : IsPadded n y ↔ ∃ x, y = pad n x := by
  constructor
  · rintro ⟨x, p, hp, hpn, rfl⟩
    have hlength : padLength n x = p := by
      rw [List.length_append, List.length_replicate] at h
      obtain ⟨_ | k, hk⟩ := h
      · omega
      · have hx : x.length = n * k + (n - p) := by
          rw [Nat.mul_succ] at hk
          omega
        rw [padLength, hx, Nat.mul_add_mod, Nat.mod_eq_of_lt (by omega), Nat.sub_sub_self hpn]
    exact ⟨x, by rw [pad, hlength]⟩
  · rintro ⟨x, rfl⟩
    exact ⟨x, padLength n x, padLength_pos hn x, padLength_le n x, rfl⟩

end ProxyPlatform
