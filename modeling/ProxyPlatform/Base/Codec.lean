import ProxyPlatform.Base.Run
import ProxyPlatform.Common
import Mathlib.Data.UInt

/-!
# Codecs of messages

A message is written to a stream, and read back, member by member. How it is done is a
list of accesses to its members (`Access`), one list for writing and one for reading: a
member is written (`W`) or read (`R`) with a primitive of the stream, which reads what it
wrote (`Primitive.read_write`). A stream is written or it is read: an access of the other
kind fails, and so does a read beyond the end.

* `roundTrips_of_members`: a message reads back what it wrote, if the members that are
  written are those that are read, in their order, and there are no others;
* `not_roundTrips_of_mem`: no message does, if reading it writes a member.

`IsCodec` is the law of a stream that is also canonical: the bytes read are those that are
written for the value read.
-/

namespace ProxyPlatform

/-- A primitive type of a stream: how its values are written and read back. -/
structure Primitive (α : Type) where
  write : α → Bytes
  read : Bytes → Option (α × Bytes)
  read_write : ∀ v rest, read (write v ++ rest) = some (v, rest)

/-- A stream, with what was written so far or with what is left to be read. -/
inductive BinaryStream
  | writer (written : Bytes)
  | reader (unread : Bytes)

/-- The ways an access fails. -/
inductive StreamError
  | misused
  | outOfData
  /-- `SetError`: the message is not accepted. -/
  | rejected
  deriving DecidableEq

/-- An access to a member of a message: it is written, or read and set. -/
inductive Access (M : Type) : Type 1
  | W {α : Type} (p : Primitive α) (get : M → α)
  | R {α : Type} (p : Primitive α) (set : α → M → M)

/-- A member of a message. -/
structure Member (M : Type) : Type 1 where
  α : Type
  primitive : Primitive α
  get : M → α
  set : α → M → M

variable {M : Type}

namespace Access

/-- An access to a member of a message, on a stream. -/
def step : M × BinaryStream → Access M → Except StreamError (M × BinaryStream)
  | (m, .writer written), .W p get => .ok (m, .writer (written ++ p.write (get m)))
  | (m, .reader unread), .R p set => match p.read unread with
    | some (v, rest) => .ok (set v m, .reader rest)
    | none => .error .outOfData
  | (_, .reader _), .W .. | (_, .writer _), .R .. => .error .misused

end Access

/-- A message is written with the accesses `ser`, and read back with `des`, into any message and
    whatever comes after it. -/
def RoundTrips (ser des : List (Access M)) (m : M) : Prop :=
  ∃ bytes, exec Access.step (m, .writer []) ser = .ok (m, .writer bytes) ∧
    ∀ m₀ rest, exec Access.step (m₀, .reader (bytes ++ rest)) des = .ok (m, .reader rest)

/-- A message is written with `ser`, which may set members on the way, and read back with `des`, into
    any message and whatever comes after it: what is read is `same` as what was written. -/
def ReadsBack (ser des : M × BinaryStream → Except StreamError (M × BinaryStream))
    (same : M → M → M → Prop) (m : M) : Prop :=
  ∃ m' bytes, ser (m, .writer []) = .ok (m', .writer bytes) ∧
    ∀ m₀ rest, ∃ m₁, des (m₀, .reader (bytes ++ rest)) = .ok (m₁, .reader rest) ∧ same m m₀ m₁

namespace Member

/-- The bytes of the members of a message. -/
def bytes (l : List (Member M)) (m : M) : Bytes := l.flatMap fun f => f.primitive.write (f.get m)

/-- The message `m₀`, with the members those of `m`. -/
def copy (l : List (Member M)) (m m₀ : M) : M := l.foldl (fun m' f => f.set (f.get m) m') m₀

/-- Writing a member, as an access. -/
def W (f : Member M) : Access M := .W f.primitive f.get

/-- Reading a member, as an access. -/
def R (f : Member M) : Access M := .R f.primitive f.set

theorem exec_W (l : List (Member M)) (m : M) (written : Bytes) :
    exec Access.step (m, .writer written) (l.map W) = .ok (m, .writer (written ++ bytes l m)) := by
  induction l generalizing written with
  | nil => simp [bytes]
  | cons f l ih =>
    rw [List.map_cons, exec_cons_of_ok (t := (m, .writer (written ++ f.primitive.write (f.get m)))) _ rfl,
      ih, List.append_assoc]
    rfl

theorem exec_R (l : List (Member M)) (m m₀ : M) (rest : Bytes) :
    exec Access.step (m₀, .reader (bytes l m ++ rest)) (l.map R) =
      .ok (copy l m m₀, .reader rest) := by
  induction l generalizing m₀ with
  | nil => rfl
  | cons f l ih =>
    have hread : Access.step (m₀, .reader (bytes (f :: l) m ++ rest)) f.R =
        .ok (f.set (f.get m) m₀, .reader (bytes l m ++ rest)) := by
      rw [bytes, List.flatMap_cons, List.append_assoc]
      simp only [Access.step, R, f.primitive.read_write]
      rfl
    rw [List.map_cons, exec_cons_of_ok _ hread, ih]
    rfl

end Member

/-- A member that is read. -/
theorem exec_read_eq_ok {α : Type} {p : Primitive α} {set : α → M → M} {m : M} {unread : Bytes}
    {t : M × BinaryStream} :
    exec Access.step (m, .reader unread) [.R p set] = .ok t ↔
      ∃ v rest, p.read unread = some (v, rest) ∧ t = (set v m, .reader rest) := by
  simp only [exec, Access.step]
  cases hread : p.read unread with
  | none => simp
  | some r =>
    obtain ⟨v, rest⟩ := r
    simp [eq_comm]

/-- A message is read back, if its members are all read, in the order they are written. -/
theorem roundTrips_of_members (l : List (Member M)) (hl : ∀ m m₀, Member.copy l m m₀ = m) (m : M) :
    RoundTrips (l.map Member.W) (l.map Member.R) m := by
  refine ⟨Member.bytes l m, Member.exec_W l m [], fun m₀ rest => ?_⟩
  rw [Member.exec_R, hl]

/-- Reading fails where a member is written. -/
theorem exec_reader_of_mem {α : Type} {p : Primitive α} {g : M → α} {des : List (Access M)}
    (hdes : .W p g ∈ des) (m : M) (unread : Bytes) (t : M × BinaryStream) :
    exec Access.step (m, .reader unread) des ≠ .ok t := by
  intro h
  induction des generalizing m unread with
  | nil => cases hdes
  | cons a des ih =>
    obtain ⟨u, hu, h⟩ := exec_cons_eq_ok.1 h
    rcases List.mem_cons.1 hdes with rfl | hmem
    · cases hu
    · cases a with
      | W p get => cases hu
      | R p set =>
        simp only [Access.step] at hu
        split at hu
        · cases hu
          exact ih hmem _ _ h
        · cases hu

/-- No message is read back, if reading writes a member. -/
theorem not_roundTrips_of_mem {α : Type} {p : Primitive α} {g : M → α} {ser des : List (Access M)}
    (hdes : .W p g ∈ des) (m : M) : ¬RoundTrips ser des m :=
  fun ⟨bytes, _, h⟩ => exec_reader_of_mem hdes m (bytes ++ []) _ (h m [])

/-! ## Codecs -/

/-- Writing and reading the values that are valid: what is written is read back, and what is read is
    what is written for a valid value. -/
structure IsCodec {α : Type} (valid : α → Prop) (write : α → Bytes)
    (read : Bytes → Option (α × Bytes)) : Prop where
  read_write : ∀ v rest, valid v → read (write v ++ rest) = some (v, rest)
  write_read : ∀ bytes v rest, read bytes = some (v, rest) → valid v ∧ bytes = write v ++ rest

/-- The primitive reads no other bytes than those it writes. -/
def Primitive.IsCanonical {α : Type} (p : Primitive α) : Prop :=
  IsCodec (fun _ => True) p.write p.read

/-- A codec is a primitive for the values that are valid. -/
def IsCodec.primitive {α : Type} {valid : α → Prop} {write : α → Bytes}
    {read : Bytes → Option (α × Bytes)} (h : IsCodec valid write read) :
    Primitive { v // valid v } where
  write v := write v.1
  read bytes := match hread : read bytes with
    | none => none
    | some (v, rest) => some (⟨v, (h.write_read bytes v rest hread).1⟩, rest)
  read_write v rest := by
    have hread := h.read_write v.1 rest v.2
    split
    · next hnone =>
      rw [hnone] at hread
      cases hread
    · next v' rest' hsome =>
      rw [hsome] at hread
      cases hread
      rfl

/-- The codec of the values that correspond to the valid ones of another codec. -/
theorem IsCodec.map {α β : Type} {valid : α → Prop} {write : α → Bytes}
    {read : Bytes → Option (α × Bytes)} (h : IsCodec valid write read) {f : α → β} {g : β → α}
    (hfg : ∀ b, valid (g b) ∧ f (g b) = b) (hgf : ∀ a, valid a → g (f a) = a) :
    IsCodec (fun _ => True) (fun b => write (g b)) (fun bytes => (read bytes).map (Prod.map f id)) where
  read_write b rest _ := by
    rw [h.read_write (g b) rest (hfg b).1, Option.map_some, Prod.map_apply, (hfg b).2]
    rfl
  write_read bytes b rest hb := by
    obtain ⟨⟨a, rest'⟩, hread, hab⟩ := Option.map_eq_some_iff.1 hb
    cases hab
    obtain ⟨ha, hbytes⟩ := h.write_read bytes a rest' hread
    exact ⟨trivial, by rw [hbytes, hgf a ha]; rfl⟩

/-! ## Chains -/

/-- Each entry masked by the sum of those before it, with `a` at the beginning, is found again from
    two neighbours, if masking twice by the same does nothing. -/
theorem zipWith_scanl_tail {α : Type*} {f : α → α → α} (hf : ∀ a b, f a (f a b) = b) (a : α)
    (l : List α) : List.zipWith f (l.scanl f a) (l.scanl f a).tail = l := by
  induction l generalizing a with
  | nil => simp
  | cons b l ih =>
    have htail := ih (f a b)
    rw [List.scanl_cons, List.tail_cons]
    cases l with
    | nil => simp [hf]
    | cons c l =>
      rw [List.scanl_cons, List.tail_cons] at htail
      rw [List.scanl_cons, List.zipWith_cons_cons, hf, htail]

/-! ## Numbers -/

/-- The `width` lowest bytes of a number, the lowest one first. -/
def writeNumber : ℕ → ℕ → Bytes
  | 0, _ => []
  | width + 1, n => UInt8.ofNat n :: writeNumber width (n / 256)

def readNumber : ℕ → Bytes → Option (ℕ × Bytes)
  | 0, bytes => some (0, bytes)
  | _ + 1, [] => none
  | width + 1, b :: bytes => match readNumber width bytes with
    | none => none
    | some (n, rest) => some (b.toNat + 256 * n, rest)

theorem readNumber_writeNumber (width n : ℕ) (rest : Bytes) :
    readNumber width (writeNumber width n ++ rest) = some (n % 256 ^ width, rest) := by
  induction width generalizing n with
  | zero => simp [readNumber, writeNumber, Nat.mod_one]
  | succ width ih =>
    have hb : (UInt8.ofNat n).toNat = n % 256 := by simp
    rw [writeNumber, List.cons_append, readNumber, ih]
    dsimp only
    rw [hb, pow_succ', Nat.mod_mul]

theorem length_writeNumber (width n : ℕ) : (writeNumber width n).length = width := by
  induction width generalizing n with
  | zero => rfl
  | succ width ih => rw [writeNumber, List.length_cons, ih]

/-- The bytes of a number that is read are those it is written with. -/
theorem isCodec_number (width : ℕ) :
    IsCodec (· < 256 ^ width) (writeNumber width) (readNumber width) where
  read_write n rest hn := by rw [readNumber_writeNumber, Nat.mod_eq_of_lt hn]
  write_read bytes n rest h := by
    induction width generalizing bytes n with
    | zero =>
      cases h
      exact ⟨Nat.one_pos, rfl⟩
    | succ width ih =>
      cases bytes with
      | nil => cases h
      | cons b bytes =>
        rw [readNumber] at h
        split at h
        · cases h
        next n' rest' hread =>
        cases h
        obtain ⟨hlt, rfl⟩ := ih _ _ hread
        have hb := b.toNat_lt
        constructor
        · rw [pow_succ]
          omega
        · rw [writeNumber, List.cons_append, Nat.add_mul_div_left _ _ (by omega),
            Nat.div_eq_of_lt hb, Nat.zero_add]
          congr 1
          rw [← UInt8.toNat_inj, UInt8.toNat_ofNat']
          omega

/-- The numbers of a stream: what it is to write and to read those of each width. -/
structure NumberPrimitives where
  u8 : Primitive UInt8
  u16 : Primitive UInt16
  u32 : Primitive UInt32
  u64 : Primitive UInt64

/-- Numbers of a fixed width, the lowest byte first. -/
def NumberPrimitives.littleEndian : NumberPrimitives where
  u8 :=
    { write := fun v => writeNumber 1 v.toNat
      read := fun bytes => (readNumber 1 bytes).map (Prod.map UInt8.ofNat id)
      read_write := fun v rest => by
        simp [readNumber_writeNumber, Nat.mod_eq_of_lt v.toNat_lt] }
  u16 :=
    { write := fun v => writeNumber 2 v.toNat
      read := fun bytes => (readNumber 2 bytes).map (Prod.map UInt16.ofNat id)
      read_write := fun v rest => by
        simp [readNumber_writeNumber, Nat.mod_eq_of_lt v.toNat_lt] }
  u32 :=
    { write := fun v => writeNumber 4 v.toNat
      read := fun bytes => (readNumber 4 bytes).map (Prod.map UInt32.ofNat id)
      read_write := fun v rest => by
        simp [readNumber_writeNumber, Nat.mod_eq_of_lt v.toNat_lt] }
  u64 :=
    { write := fun v => writeNumber 8 v.toNat
      read := fun bytes => (readNumber 8 bytes).map (Prod.map UInt64.ofNat id)
      read_write := fun v rest => by
        simp [readNumber_writeNumber, Nat.mod_eq_of_lt v.toNat_lt] }

theorem isCanonical_u32 : NumberPrimitives.littleEndian.u32.IsCanonical :=
  (isCodec_number 4).map (fun v => ⟨v.toNat_lt, UInt32.ofNat_toNat⟩)
    fun _ hn => (UInt32.toNat_ofNat').trans (Nat.mod_eq_of_lt hn)

theorem isCanonical_u64 : NumberPrimitives.littleEndian.u64.IsCanonical :=
  (isCodec_number 8).map (fun v => ⟨v.toNat_lt, UInt64.ofNat_toNat⟩)
    fun _ hn => (UInt64.toNat_ofNat').trans (Nat.mod_eq_of_lt hn)

end ProxyPlatform
