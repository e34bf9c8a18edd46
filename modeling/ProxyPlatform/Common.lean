import Mathlib.Algebra.Group.Nat.Defs
import Mathlib.Data.Nat.Notation

/-!
# Common types

The types the services share: byte strings, network addresses and the arithmetic of
the clocks. Timestamps are milliseconds in a `uint64_t`; they are natural numbers
here, with the subtraction of the code (`sub64`), which wraps below zero: a timeout
longer than the time elapsed since the epoch of the clock gives a time point in the
far future.
-/

namespace ProxyPlatform

/-- A byte string. -/
abbrev Bytes := List UInt8

/-- Subtraction of `uint64_t`. -/
def sub64 (a b : ℕ) : ℕ := if b ≤ a then a - b else a + 2 ^ 64 - b

theorem sub64_of_le {a b : ℕ} (h : b ≤ a) : sub64 a b = a - b := if_pos h

/-- A time point `a` that is past at `b` is as old as the timeout `d`, or taken for it. -/
theorem le_sub64_iff {a b d : ℕ} (h : a ≤ b) (hd : d ≤ 2 ^ 64) :
    a ≤ sub64 b d ↔ b < d ∨ a + d ≤ b := by
  unfold sub64
  split <;> omega

/-- `xNetAddress::eType`. -/
inductive AddressType
  | unknown
  | ipv4
  | ipv6
  deriving DecidableEq

/-- `xNetAddress`: a family, the bytes of the address (`SA4` or `SA6`) and a port. -/
structure NetAddress where
  type : AddressType := .unknown
  bytes : Bytes := []
  port : ℕ := 0
  deriving DecidableEq

namespace NetAddress

/-- The address without its port. -/
def ip (a : NetAddress) : NetAddress := { a with port := 0 }

/-- `operator bool`: the address is set. -/
def isSet (a : NetAddress) : Bool := a.type ≠ .unknown

def is4 (a : NetAddress) : Bool := a.type = .ipv4

def is6 (a : NetAddress) : Bool := a.type = .ipv6

/-- The number of bytes of an address of the given type. -/
def size : AddressType → ℕ
  | .unknown => 0
  | .ipv4 => 4
  | .ipv6 => 16

/-- The bytes are those of an address of its type, and the port is a `uint16_t`. -/
def WellFormed (a : NetAddress) : Prop := a.bytes.length = size a.type ∧ a.port < 65536

theorem isSet_iff (a : NetAddress) : a.isSet ↔ a.is4 ∨ a.is6 := by
  rcases a with ⟨_ | _ | _, bytes, port⟩ <;> simp [isSet, is4, is6]

theorem not_is6 {a : NetAddress} (h : a.is4) : ¬a.is6 := by
  simp only [is4, is6, decide_eq_true_eq] at h ⊢
  simp [h]

end NetAddress

/-- `xServerInfo`. -/
@[ext] structure ServerInfo where
  serverId : ℕ := 0
  address : NetAddress := {}
  deriving DecidableEq

/-- The account and the password of a credential, as the auth map is keyed. -/
def combineAccountPass (accountView passView : Bytes) : Bytes := accountView ++ 0 :: passView

end ProxyPlatform
