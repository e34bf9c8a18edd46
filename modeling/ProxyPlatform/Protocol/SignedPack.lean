import ProxyPlatform.Base.Decimal
import ProxyPlatform.Base.Hex
import Mathlib.Logic.Equiv.Basic

/-!
# Signed address packs

An address is handed out as a pack: its text, the time it was signed at and a digest of
both under a secret key (`signAndPackAddress`). Whoever gets a pack back takes the address
from it as long as the time is less than a minute away and the digest is right
(`extractAddressFromPack`).

The check reads the time leniently, and digests the text it has read; the text of the
address, too, is only parsed. A pack that is accepted is one that is handed out up to the
spelling of the two.

* `extract_signAndPack`: a pack is accepted within a minute of the time it was signed at;
* `exists_of_extract`: the texts of what is accepted are those that are digested;
* `eq_signAndPack_iff`: it is a pack that is handed out if both are spelled as they are there.

The functions of the library are `PackLibrary`, with what is known of them.
-/

namespace ProxyPlatform

/-- The functions of the library that are used on packs. -/
structure PackLibrary where
  /-- `Split`, at a byte. -/
  split : Bytes → UInt8 → List Bytes
  /-- `Sha256`. -/
  sha256 : Bytes → Bytes
  /-- `StrToHex`. -/
  strToHex : Bytes → Bytes
  /-- `xNetAddress::ToString`. -/
  toString : NetAddress → Bytes
  /-- `xNetAddress::Parse`. -/
  parse : Bytes → NetAddress
  /-- Two pieces are what is before the only occurrence of the byte, and what is behind it. -/
  split_pair : ∀ s c a b, split s c = [a, b] ↔ s = a ++ c :: b ∧ c ∉ a ∧ c ∉ b
  /-- Hexadecimal digits are neither `:` nor `=`. -/
  not_mem_strToHex : ∀ s, 58 ∉ strToHex s ∧ 61 ∉ strToHex s

namespace PackLibrary

variable (X : PackLibrary)

def staicSignSalt : Bytes := ascii "!#@SFas098xc()*&"

/-- `SignedDiff`, of two `uint64_t`. -/
def signedDiff (a b : ℕ) : ℤ := (a - b : ℤ).bmod (2 ^ 64)

/-- The digest of some data, with the text of the time. -/
def digest (ts secretKey data : Bytes) : Bytes :=
  X.strToHex (X.sha256 (staicSignSalt ++ ts ++ secretKey ++ data))

/-- `AppSign`. -/
def appSign (timestamp : ℕ) (secretKey data : Bytes) : Bytes :=
  decimal timestamp ++ 58 :: X.digest (decimal timestamp) secretKey data

/-- `ValidateAppSign`, at the time `now`. -/
def validateAppSign (now : ℕ) (sign secretKey data : Bytes) : Bool :=
  match X.split sign 58 with
  | [ts, d] =>
    -- What is digested is the text of the time, not the number it stands for.
    if 60000 ≤ (signedDiff (strtoumax ts).toNat now).natAbs then false
    else X.digest ts secretKey data = d
  | _ => false

/-- `SignAndPackAddress`. -/
def signAndPackAddress (timestamp : ℕ) (secretKey : Bytes) (address : NetAddress) : Bytes :=
  X.toString address ++ 61 :: X.appSign timestamp secretKey (X.toString address)

/-- `ExtractAddressFromPack`, at the time `now`. -/
def extractAddressFromPack (now : ℕ) (signedPack secretKey : Bytes) : NetAddress :=
  match X.split signedPack 61 with
  | [ipString, sign] =>
    if X.validateAppSign now sign secretKey ipString then X.parse ipString else {}
  | _ => {}

variable {X}

/-! ## What is accepted -/

theorem signedDiff_eq {a b : ℕ} (h : |(a - b : ℤ)| < 2 ^ 63) : signedDiff a b = a - b := by
  rw [abs_lt] at h
  rw [signedDiff, Int.bmod_eq_of_le (by omega) (by omega)]

theorem not_mem_digest (X : PackLibrary) (ts secretKey data : Bytes) :
    58 ∉ X.digest ts secretKey data ∧ 61 ∉ X.digest ts secretKey data :=
  X.not_mem_strToHex _

/-- A sign is accepted if its time is near and its digest is that of the text of the time. -/
theorem validateAppSign_iff {now : ℕ} {sign secretKey data : Bytes} :
    X.validateAppSign now sign secretKey data = true ↔
      ∃ ts, 58 ∉ ts ∧ (signedDiff (strtoumax ts).toNat now).natAbs < 60000 ∧
        sign = ts ++ 58 :: X.digest ts secretKey data := by
  constructor
  · intro h
    unfold validateAppSign at h
    split at h
    · next ts d hsplit =>
      obtain ⟨rfl, hts, -⟩ := (X.split_pair _ _ _ _).1 hsplit
      split at h
      · cases h
      · next hnear =>
        exact ⟨ts, hts, Nat.lt_of_not_le hnear, by rw [of_decide_eq_true h]⟩
    · cases h
  · rintro ⟨ts, hts, hnear, rfl⟩
    have hsplit := (X.split_pair _ _ ts _).2 ⟨rfl, hts, (not_mem_digest X ts secretKey data).1⟩
    simp only [validateAppSign, hsplit, if_neg (Nat.not_le.2 hnear), decide_true]

/-- An address is taken from a pack of its text and a sign that is accepted. -/
theorem extract_iff {now : ℕ} {signedPack secretKey : Bytes} {address : NetAddress}
    (hset : address.isSet = true) :
    X.extractAddressFromPack now signedPack secretKey = address ↔
      ∃ ipString sign, 61 ∉ ipString ∧ 61 ∉ sign ∧ signedPack = ipString ++ 61 :: sign ∧
        X.validateAppSign now sign secretKey ipString = true ∧ X.parse ipString = address := by
  constructor
  · intro h
    unfold extractAddressFromPack at h
    split at h
    · next ipString sign hsplit =>
      obtain ⟨rfl, hip, hsign⟩ := (X.split_pair _ _ _ _).1 hsplit
      split at h
      · next hvalid => exact ⟨ipString, sign, hip, hsign, rfl, hvalid, h⟩
      · rw [← h] at hset
        cases hset
    · rw [← h] at hset
      cases hset
  · rintro ⟨ipString, sign, hip, hsign, rfl, hvalid, hparse⟩
    have hsplit := (X.split_pair _ _ ipString sign).2 ⟨rfl, hip, hsign⟩
    simp only [extractAddressFromPack, hsplit, if_pos hvalid, hparse]

theorem colon_not_mem_decimal (n : ℕ) : 58 ∉ decimal n ∧ 61 ∉ decimal n :=
  ⟨not_mem_decimal (by decide) n, not_mem_decimal (by decide) n⟩

/-- A pack is accepted within a minute of the time it was signed at. -/
theorem extract_signAndPack {now timestamp : ℕ} {secretKey : Bytes} {address : NetAddress}
    (hparse : X.parse (X.toString address) = address) (htext : 61 ∉ X.toString address)
    (htime : timestamp < 2 ^ 64) (hnear : |(timestamp - now : ℤ)| < 60000) :
    X.extractAddressFromPack now (X.signAndPackAddress timestamp secretKey address) secretKey =
      address := by
  have hsign : 61 ∉ X.appSign timestamp secretKey (X.toString address) := by
    simp only [appSign, List.mem_append, List.mem_cons, not_or]
    exact ⟨(colon_not_mem_decimal _).2, by decide, (not_mem_digest X _ _ _).2⟩
  have hvalid : X.validateAppSign now (X.appSign timestamp secretKey (X.toString address)) secretKey
      (X.toString address) = true := by
    refine validateAppSign_iff.2 ⟨decimal timestamp, (colon_not_mem_decimal _).1, ?_, rfl⟩
    rw [strtoumax_decimal htime, signedDiff_eq (hnear.trans (by decide))]
    rw [abs_lt] at hnear
    omega
  have hsplit := (X.split_pair _ _ _ _).2 ⟨rfl, htext, hsign⟩
  simp only [extractAddressFromPack, signAndPackAddress, hsplit, if_pos hvalid, hparse]

/-- The times whose difference is below a minute, away from the ends of the clock. -/
theorem abs_lt_of_signedDiff {a now : ℕ} (ha : a < 2 ^ 64)
    (h : (signedDiff a now).natAbs < 60000) (hnow : 60000 ≤ now) (hend : now + 60000 ≤ 2 ^ 64) :
    |(a - now : ℤ)| < 60000 := by
  rw [signedDiff, Int.bmod_def] at h
  rw [abs_lt]
  split at h <;> omega

/-- There is one way to split where there is one byte `b`. -/
theorem eq_of_append_cons {b : UInt8} {l l' w w' : Bytes} (hl : b ∉ l) (hw : b ∉ w)
    (h : l ++ b :: w = l' ++ b :: w') : l' = l ∧ w' = w := by
  have hcount := congrArg (List.count b) h
  rw [List.count_append, List.count_cons_self, List.count_eq_zero.2 hl, List.count_eq_zero.2 hw,
    List.count_append, List.count_cons_self] at hcount
  have hl' : b ∉ l' := List.count_eq_zero.1 (by omega)
  obtain ⟨rfl, rfl⟩ := append_cons_inj hl hl' h
  exact ⟨rfl, rfl⟩

/-- What is accepted is the text of the address and that of a near time, with their digest. -/
theorem exists_of_extract {now : ℕ} {signedPack secretKey : Bytes} {address : NetAddress}
    (hset : address.isSet = true)
    (h : X.extractAddressFromPack now signedPack secretKey = address) :
    ∃ ipString ts, signedPack = ipString ++ 61 :: (ts ++ 58 :: X.digest ts secretKey ipString) ∧
      61 ∉ ipString ∧ 61 ∉ ts ∧ 58 ∉ ts ∧ X.parse ipString = address ∧
      (signedDiff (strtoumax ts).toNat now).natAbs < 60000 := by
  obtain ⟨ipString, sign, hip, hsign, rfl, hvalid, hparse⟩ := (extract_iff hset).1 h
  obtain ⟨ts, hts, hnear, rfl⟩ := validateAppSign_iff.1 hvalid
  exact ⟨ipString, ts, rfl, hip, fun hmem => hsign (List.mem_append_left _ hmem), hts, hparse, hnear⟩

/-- It is a pack that is handed out if both are spelled as they are there. -/
theorem eq_signAndPack_iff {ipString ts secretKey : Bytes} {address : NetAddress}
    (hip : 61 ∉ ipString) (hts : 61 ∉ ts) (hts' : 58 ∉ ts) :
    (∃ timestamp, timestamp < 2 ^ 64 ∧
      ipString ++ 61 :: (ts ++ 58 :: X.digest ts secretKey ipString) =
        X.signAndPackAddress timestamp secretKey address) ↔
      X.toString address = ipString ∧ decimal (strtoumax ts).toNat = ts := by
  constructor
  · rintro ⟨timestamp, htime, h⟩
    have hsign : 61 ∉ ts ++ 58 :: X.digest ts secretKey ipString := by
      simp only [List.mem_append, List.mem_cons, not_or]
      exact ⟨hts, by decide, (not_mem_digest X _ _ _).2⟩
    obtain ⟨htext, hsign⟩ := eq_of_append_cons hip hsign h
    obtain ⟨rfl, -⟩ := append_cons_inj (colon_not_mem_decimal timestamp).1 hts' hsign
    exact ⟨htext, by rw [strtoumax_decimal htime]⟩
  · rintro ⟨rfl, htime⟩
    exact ⟨(strtoumax ts).toNat, (strtoumax ts).toNat_lt, by rw [signAndPackAddress, appSign, htime]⟩

/-- Packs handed out are accepted, and what is accepted is signed: a digest covers the text of the
    address, as it is parsed, and that of the time, as it is checked. It is the pack of the address
    and of that time when both texts are those that are written for them. -/
theorem extract_signed (X : PackLibrary) (now : ℕ) (secretKey : Bytes) :
    (∀ (timestamp : ℕ) address, X.parse (X.toString address) = address → 61 ∉ X.toString address →
      timestamp < 2 ^ 64 → |(timestamp - now : ℤ)| < 60000 →
      X.extractAddressFromPack now (X.signAndPackAddress timestamp secretKey address) secretKey =
        address) ∧
    ∀ signedPack address, address.isSet = true →
      X.extractAddressFromPack now signedPack secretKey = address →
      ∃ ipString ts, signedPack = ipString ++ 61 :: (ts ++ 58 :: X.digest ts secretKey ipString) ∧
        X.parse ipString = address ∧ (signedDiff (strtoumax ts).toNat now).natAbs < 60000 ∧
        (60000 ≤ now → now + 60000 ≤ 2 ^ 64 → |((strtoumax ts).toNat - now : ℤ)| < 60000) ∧
        ((∃ timestamp, timestamp < 2 ^ 64 ∧
            signedPack = X.signAndPackAddress timestamp secretKey address) ↔
          X.toString address = ipString ∧ decimal (strtoumax ts).toNat = ts) := by
  refine ⟨fun _ _ hparse htext htime hnear => extract_signAndPack hparse htext htime hnear,
    fun signedPack address hset h => ?_⟩
  obtain ⟨ipString, ts, rfl, hip, hts, hts', hparse, hnear⟩ := exists_of_extract hset h
  exact ⟨ipString, ts, rfl, hparse, hnear, abs_lt_of_signedDiff (strtoumax ts).toNat_lt hnear,
    eq_signAndPack_iff hip hts hts'⟩

/-! ## Two packs that were not handed out -/

def address4 : NetAddress := { type := .ipv4, bytes := [10, 0, 0, 1], port := 443 }

def address6 : NetAddress :=
  { type := .ipv6, bytes := [0, 0, 0, 0, 0, 0, 0, 0, 0, 0, 0, 0, 0, 0, 0, 1], port := 443 }

/-- What is digested of a pack whose time has a zero at its beginning. -/
def zeroSource : Bytes := staicSignSalt ++ ascii "01700000000000" ++ ascii "key" ++ ascii "10.0.0.1:443"

/-- What is digested of a pack whose address is not in its shortest form. -/
def longSource : Bytes := staicSignSalt ++ ascii "1700000000000" ++ ascii "key" ++ ascii "[0::1]:443"

def zeroDigest : Bytes :=
  [120, 166, 169, 124, 198, 18, 197, 12, 199, 113, 239, 189, 43, 99, 138, 166,
    236, 119, 202, 34, 106, 100, 169, 1, 22, 188, 237, 116, 181, 255, 71, 80]

def longDigest : Bytes :=
  [213, 32, 121, 232, 253, 180, 40, 99, 247, 87, 209, 75, 107, 111, 227, 188,
    151, 125, 156, 63, 174, 68, 107, 144, 28, 42, 68, 241, 237, 190, 227, 105]

/-- A library with the digests of two sources, and two addresses. -/
def sampleLibrary : PackLibrary where
  split s c := ProxyPlatform.split c s
  sha256 := (Equiv.swap zeroSource zeroDigest).trans (Equiv.swap longSource longDigest)
  strToHex := ProxyPlatform.strToHex
  toString address := if address = address4 then ascii "10.0.0.1:443" else ascii "[::1]:443"
  parse s :=
    if s = ascii "10.0.0.1:443" then address4
    else if s = ascii "[::1]:443" ∨ s = ascii "[0::1]:443" then address6
    else {}
  split_pair := ProxyPlatform.split_pair
  not_mem_strToHex s :=
    ⟨ProxyPlatform.not_mem_strToHex (by decide) s, ProxyPlatform.not_mem_strToHex (by decide) s⟩

/-- A pack whose time has a zero at its beginning. -/
def zeroPack : Bytes :=
  ascii "10.0.0.1:443" ++ 61 :: (ascii "01700000000000" ++ 58 :: ProxyPlatform.strToHex zeroDigest)

/-- A pack whose address is not in its shortest form. -/
def longPack : Bytes :=
  ascii "[0::1]:443" ++ 61 :: (ascii "1700000000000" ++ 58 :: ProxyPlatform.strToHex longDigest)

/-- The packs have the digests of their texts. -/
theorem sampleLibrary_digest :
    sampleLibrary.digest (ascii "01700000000000") (ascii "key") (ascii "10.0.0.1:443") =
        ProxyPlatform.strToHex zeroDigest ∧
      sampleLibrary.digest (ascii "1700000000000") (ascii "key") (ascii "[0::1]:443") =
        ProxyPlatform.strToHex longDigest := by
  have hzero : sampleLibrary.sha256 zeroSource = zeroDigest := by decide +kernel
  have hlong : sampleLibrary.sha256 longSource = longDigest := by decide +kernel
  exact ⟨congrArg ProxyPlatform.strToHex hzero, congrArg ProxyPlatform.strToHex hlong⟩

/-- A pack is accepted if it is the texts of an address and of a near time, with their digest. -/
theorem extract_of_digest {now : ℕ} {ipString ts secretKey : Bytes} (hip : 61 ∉ ipString)
    (hts : 61 ∉ ts) (hts' : 58 ∉ ts) (hnear : (signedDiff (strtoumax ts).toNat now).natAbs < 60000)
    (hset : (X.parse ipString).isSet = true) :
    X.extractAddressFromPack now (ipString ++ 61 :: (ts ++ 58 :: X.digest ts secretKey ipString))
      secretKey = X.parse ipString := by
  refine (extract_iff hset).2 ⟨ipString, _, hip, ?_, rfl, validateAppSign_iff.2 ⟨ts, hts', hnear, rfl⟩,
    rfl⟩
  simp only [List.mem_append, List.mem_cons, not_or]
  exact ⟨hts, by decide, (not_mem_digest X _ _ _).2⟩

/-- Of two packs that are accepted, neither was handed out: one has a zero at the beginning of its
    time, the other an address that is not in its shortest form. -/
theorem extract_not_signed :
    Function.Injective sampleLibrary.sha256 ∧
    (∀ address, address = address4 ∨ address = address6 →
      sampleLibrary.parse (sampleLibrary.toString address) = address ∧
        61 ∉ sampleLibrary.toString address) ∧
    (sampleLibrary.extractAddressFromPack 1700000000000 zeroPack (ascii "key") = address4 ∧
      ¬∃ timestamp, timestamp < 2 ^ 64 ∧
        zeroPack = sampleLibrary.signAndPackAddress timestamp (ascii "key") address4) ∧
    (sampleLibrary.extractAddressFromPack 1700000000000 longPack (ascii "key") = address6 ∧
      ¬∃ timestamp, timestamp < 2 ^ 64 ∧
        longPack = sampleLibrary.signAndPackAddress timestamp (ascii "key") address6) := by
  obtain ⟨hzero, hlong⟩ := sampleLibrary_digest
  rw [zeroPack, longPack, ← hzero, ← hlong]
  refine ⟨Equiv.injective _, ?_, ⟨?_, ?_⟩, ?_, ?_⟩
  · rintro address (rfl | rfl)
    · decide +kernel
    · decide +kernel
  · exact (extract_of_digest (by decide +kernel) (by decide +kernel) (by decide +kernel)
      (by decide +kernel) (by decide +kernel)).trans (by decide +kernel)
  · rw [eq_signAndPack_iff (by decide +kernel) (by decide +kernel) (by decide +kernel)]
    rintro ⟨-, htime⟩
    obtain ⟨b, s, hs, -, hhead⟩ := head_decimal (strtoumax (ascii "01700000000000")).toNat
    have hb : some b = some 48 := by
      rw [← List.head?_cons (l := s), ← hs, htime]
      decide +kernel
    have hshort := congrArg List.length (hhead (Option.some.inj hb))
    rw [htime] at hshort
    revert hshort
    decide +kernel
  · exact (extract_of_digest (by decide +kernel) (by decide +kernel) (by decide +kernel)
      (by decide +kernel) (by decide +kernel)).trans (by decide +kernel)
  · rw [eq_signAndPack_iff (by decide +kernel) (by decide +kernel) (by decide +kernel)]
    rintro ⟨htext, -⟩
    revert htext
    decide +kernel

end PackLibrary

end ProxyPlatform
