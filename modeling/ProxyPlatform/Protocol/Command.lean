import ProxyPlatform.Base.Blocks
import ProxyPlatform.Base.Run
import Mathlib.Logic.Equiv.Basic

/-!
# Encrypted commands

A command is padded to whole blocks and enciphered block by block (`encrypt`), in one
buffer of which the first half receives what is made of the second. It is deciphered
(`decrypt`), and the padding taken off, by its last byte.

The decoder does not look at the other bytes of the padding, nor whether there is one: of
its length it only checks that it is not more than there is.

* `encrypt_eq`, `decrypt_eq`: what they compute, within their buffers;
* `decrypt_encrypt`: what was enciphered is deciphered;
* `rejectsInvalid_iff`: the ciphertexts of which the decoder rejects what it should.

The block cipher is a parameter: a permutation of the blocks for each key (`Aes`).
-/

namespace ProxyPlatform

/-- AES, with a key of some number of bits: deciphering is the inverse. -/
abbrev Aes := Bytes → ℕ → Equiv.Perm (Block UInt8 16)

namespace Command

/-- The block at `src`. -/
def readBlock (R : Bytes) (src : ℕ) : Except Fault (Block UInt8 16) :=
  if h : src + 16 ≤ R.length then
    .ok ⟨(R.drop src).take 16, by rw [List.length_take, List.length_drop]; omega⟩
  else .error .readOutOfRange

/-- The bytes `b`, written at `dst`. -/
def writeBytes (R : Bytes) (dst : ℕ) (b : Bytes) : Except Fault Bytes :=
  if dst + b.length ≤ R.length then .ok (R.take dst ++ b ++ R.drop (dst + b.length))
  else .error .indexOutOfRange

/-- The loop over the bytes of the padding. -/
def paddingLoop (value : UInt8) : ℕ → Bytes → ℕ → Except Fault Bytes
  | 0, R, _ => .ok R
  | i + 1, R, padding => do
    let R ← writeBytes R padding [value]
    paddingLoop value i R (padding + 1)

/-- The loop of `Encrypt` over the blocks, within one buffer. -/
def encryptLoop (cryptEcb : Block UInt8 16 → Block UInt8 16) :
    ℕ → Bytes → ℕ → ℕ → Except Fault Bytes
  | 0, R, _, _ => .ok R
  | i + 1, R, src, dst => do
    let block ← readBlock R src
    let R ← writeBytes R dst (cryptEcb block).1
    encryptLoop cryptEcb i R (src + 16) (dst + 16)

/-- `Encrypt`. -/
def encrypt (aes : Aes) (data aesKey : Bytes) : Except Fault Bytes := do
  let blocks := (data.length + 16) / 16
  let length := blocks * 16
  let dst := 0
  let src := dst + length
  let padding := src + data.length
  let paddingLength := length - data.length
  let R ← writeBytes (List.replicate (length * 2) 0) src data
  let R ← paddingLoop (UInt8.ofNat paddingLength) paddingLength R padding
  let R ← encryptLoop (aes aesKey 128) blocks R src dst
  return R.take length

/-- The loop of `Decrypt` over the blocks of `data`. -/
def decryptLoop (cryptEcb : Block UInt8 16 → Block UInt8 16) (data : Bytes) :
    ℕ → Bytes → ℕ → ℕ → Except Fault Bytes
  | 0, R, _, _ => .ok R
  | i + 1, R, src, dst => do
    let block ← readBlock data src
    let R ← writeBytes R dst (cryptEcb block).1
    decryptLoop cryptEcb data i R (src + 16) (dst + 16)

/-- `Decrypt`. -/
def decrypt (aes : Aes) (data aesKey : Bytes) : Except Fault Bytes :=
  if data.length = 0 ∨ data.length % 16 ≠ 0 then .ok []
  else do
    let blocks := data.length / 16
    let R ← decryptLoop (aes aesKey aesKey.length).symm data blocks (List.replicate data.length 0) 0 0
    match R[data.length - 1]? with
    | none => .error .indexOutOfRange
    | some padding =>
      if data.length < padding.toNat then return []
      else return R.take (data.length - padding.toNat)

/-! ## The buffers -/

theorem readBlock_eq (pre post : Bytes) {src : ℕ} (b : Block UInt8 16) (h : src = pre.length) :
    readBlock (pre ++ (b.1 ++ post)) src = .ok b := by
  have hlength : src + 16 ≤ (pre ++ (b.1 ++ post)).length := by
    rw [List.length_append, List.length_append, b.2, h]
    omega
  rw [readBlock, dif_pos hlength]
  congr
  rw [h, List.drop_left, List.take_left' b.2]

theorem writeBytes_eq {pre old b : Bytes} {dst : ℕ} (post : Bytes) (h : dst = pre.length)
    (hb : b.length = old.length) :
    writeBytes (pre ++ (old ++ post)) dst b = .ok (pre ++ (b ++ post)) := by
  have hlength : dst + b.length ≤ (pre ++ (old ++ post)).length := by
    rw [List.length_append, List.length_append, h, hb]
    omega
  rw [writeBytes, if_pos hlength, h, List.take_left, ← List.drop_drop, List.drop_left, hb,
    List.drop_left, List.append_assoc]

/-- The padding is written where there is room for it. -/
theorem paddingLoop_eq (value : UInt8) (pre old post : Bytes) {padding : ℕ}
    (h : padding = pre.length) :
    paddingLoop value old.length (pre ++ (old ++ post)) padding =
      .ok (pre ++ (List.replicate old.length value ++ post)) := by
  induction old generalizing pre padding with
  | nil => rfl
  | cons c old ih =>
    have hwrite : writeBytes (pre ++ ([c] ++ (old ++ post))) padding [value] =
        .ok (pre ++ ([value] ++ (old ++ post))) := writeBytes_eq _ h rfl
    have hrest := ih (pre ++ [value]) (by rw [List.length_append, List.length_singleton, ← h])
    simp only [List.append_assoc, List.singleton_append] at hwrite hrest
    rw [List.length_cons, paddingLoop, List.cons_append, hwrite, ok_bind, hrest,
      List.replicate_succ, List.cons_append]

/-- The first block of a part of a buffer that has room for one. -/
theorem exists_append_of_length {old : Bytes} {k : ℕ} (h : old.length = k * 16 + 16) :
    ∃ first rest, old = first ++ rest ∧ first.length = 16 ∧ rest.length = k * 16 :=
  ⟨old.take 16, old.drop 16, (List.take_append_drop 16 old).symm,
    List.length_take_of_le (by omega), by rw [List.length_drop]; omega⟩

/-- The blocks are enciphered from the second half of the buffer to the first. -/
theorem encryptLoop_eq (f : Block UInt8 16 → Block UInt8 16) (l : List (Block UInt8 16))
    (done old past : Bytes) {src dst : ℕ} (hold : old.length = l.length * 16)
    (hdst : dst = done.length) (hsrc : src = (done ++ (old ++ past)).length) :
    encryptLoop f l.length (done ++ (old ++ (past ++ Block.join l))) src dst =
      .ok (done ++ (Block.join (l.map f) ++ (past ++ Block.join l))) := by
  induction l generalizing done old past src dst with
  | nil =>
    rw [List.length_nil, Nat.zero_mul, List.length_eq_zero_iff] at hold
    rw [hold]
    rfl
  | cons b l ih =>
    rw [List.length_cons, Nat.succ_mul] at hold
    obtain ⟨first, old, rfl, hfirst, hold⟩ := exists_append_of_length hold
    -- The block is read in the second half and written over the first block of the rest.
    have hread : readBlock (done ++ (first ++ old ++ (past ++ Block.join (b :: l)))) src = .ok b := by
      have hread := readBlock_eq (done ++ (first ++ old ++ past)) (Block.join l) b hsrc
      simpa only [List.append_assoc, Block.join_cons] using hread
    have hwrite : writeBytes (done ++ (first ++ old ++ (past ++ Block.join (b :: l)))) dst (f b).1 =
        .ok (done ++ ((f b).1 ++ (old ++ (past ++ Block.join (b :: l))))) := by
      rw [List.append_assoc first]
      exact writeBytes_eq _ hdst ((f b).2.trans hfirst.symm)
    have hdst' : dst + 16 = (done ++ (f b).1).length := by rw [List.length_append, (f b).2, hdst]
    have hsrc' : src + 16 = (done ++ (f b).1 ++ (old ++ (past ++ b.1))).length := by
      simp only [List.length_append, hfirst, (f b).2, b.2] at hsrc ⊢
      omega
    have hrest := ih (done ++ (f b).1) old (past ++ b.1) hold hdst' hsrc'
    simp only [List.append_assoc] at hrest
    rw [List.length_cons, encryptLoop, hread, ok_bind, hwrite, ok_bind, Block.join_cons, hrest,
      List.map_cons, Block.join_cons, List.append_assoc]

/-- The blocks of the ciphertext are deciphered into the buffer. -/
theorem decryptLoop_eq (f : Block UInt8 16 → Block UInt8 16) (l : List (Block UInt8 16))
    (past done old : Bytes) {src dst : ℕ} (hold : old.length = l.length * 16)
    (hdst : dst = done.length) (hsrc : src = past.length) :
    decryptLoop f (past ++ Block.join l) l.length (done ++ old) src dst =
      .ok (done ++ Block.join (l.map f)) := by
  induction l generalizing done old past src dst with
  | nil =>
    rw [List.length_nil, Nat.zero_mul, List.length_eq_zero_iff] at hold
    rw [hold]
    rfl
  | cons b l ih =>
    rw [List.length_cons, Nat.succ_mul] at hold
    obtain ⟨first, old, rfl, hfirst, hold⟩ := exists_append_of_length hold
    have hread : readBlock (past ++ Block.join (b :: l)) src = .ok b := readBlock_eq _ _ b hsrc
    have hwrite := writeBytes_eq old hdst ((f b).2.trans hfirst.symm)
    have hdst' : dst + 16 = (done ++ (f b).1).length := by rw [List.length_append, (f b).2, hdst]
    have hsrc' : src + 16 = (past ++ b.1).length := by rw [List.length_append, b.2, hsrc]
    have hrest := ih (past ++ b.1) (done ++ (f b).1) old hold hdst' hsrc'
    simp only [List.append_assoc] at hrest
    rw [List.length_cons, decryptLoop, hread, ok_bind, hwrite, ok_bind, Block.join_cons, hrest,
      List.map_cons, Block.join_cons]

/-! ## What is computed -/

/-- `Encrypt` stays within its buffer, and enciphers the padded command block by block. -/
theorem encrypt_eq (aes : Aes) (data aesKey : Bytes) :
    encrypt aes data aesKey = .ok (Block.ecb (aes aesKey 128) (pad 16 data)) := by
  have hlength : (pad 16 data).length = (data.length + 16) / 16 * 16 := by
    rw [length_pad (by decide), Nat.add_div_right _ (by decide)]
  have hfill : padLength 16 data = (data.length + 16) / 16 * 16 - data.length := by
    rw [← hlength, pad, List.length_append, List.length_replicate, Nat.add_sub_cancel_left]
  have hle : data.length ≤ (data.length + 16) / 16 * 16 := by omega
  have hblocks : (Block.blocks 16 (pad 16 data)).length = (data.length + 16) / 16 := by
    have hjoin := Block.length_join (Block.blocks 16 (pad 16 data))
    rw [Block.join_blocks (dvd_length_pad (by decide) data), hlength] at hjoin
    omega
  simp only [encrypt, ← hfill]
  generalize (data.length + 16) / 16 = blocks at hlength hfill hle hblocks
  -- The buffer has room for the result, for the command and for its padding.
  have hbuffer : List.replicate (blocks * 16 * 2) (0 : UInt8) = List.replicate (blocks * 16) 0 ++
      (List.replicate data.length 0 ++ List.replicate (padLength 16 data) 0) := by
    rw [← List.replicate_add, ← List.replicate_add, hfill]
    congr 1
    omega
  have hcopy : writeBytes (List.replicate (blocks * 16 * 2) 0) (0 + blocks * 16) data =
      .ok (List.replicate (blocks * 16) 0 ++ (data ++ List.replicate (padLength 16 data) 0)) := by
    rw [hbuffer]
    exact writeBytes_eq _ (by rw [List.length_replicate, Nat.zero_add])
      List.length_replicate.symm
  have hpadding : paddingLoop (UInt8.ofNat (padLength 16 data)) (padLength 16 data)
      (List.replicate (blocks * 16) 0 ++ (data ++ List.replicate (padLength 16 data) 0))
      (0 + blocks * 16 + data.length) = .ok (List.replicate (blocks * 16) 0 ++ pad 16 data) := by
    have hloop := paddingLoop_eq (UInt8.ofNat (padLength 16 data))
      (List.replicate (blocks * 16) 0 ++ data) (List.replicate (padLength 16 data) 0) []
      (by rw [List.length_append, List.length_replicate, ← Nat.zero_add (blocks * 16)])
    simpa only [List.length_replicate, List.append_assoc, List.append_nil, pad] using hloop
  have hloop : encryptLoop (aes aesKey 128) blocks (List.replicate (blocks * 16) 0 ++ pad 16 data)
      (0 + blocks * 16) 0 = .ok (Block.ecb (aes aesKey 128) (pad 16 data) ++ pad 16 data) := by
    have hsrc : 0 + blocks * 16 = ([] ++ (List.replicate (blocks * 16) (0 : UInt8) ++ [])).length := by
      rw [List.append_nil, List.nil_append, List.length_replicate, Nat.zero_add]
    have hloop := encryptLoop_eq (aes aesKey 128) (Block.blocks 16 (pad 16 data)) [] _ []
      (by rw [List.length_replicate, hblocks]) rfl hsrc
    rw [hblocks, Block.join_blocks (dvd_length_pad (by decide) data)] at hloop
    exact hloop
  rw [hcopy, ok_bind, hpadding, ok_bind, hloop, ok_bind]
  have hresult : (Block.ecb (aes aesKey 128) (pad 16 data)).length = blocks * 16 := by
    rw [Block.length_ecb (dvd_length_pad (by decide) data), hlength]
  exact congrArg Except.ok (List.take_left' hresult)

/-- What `Decrypt` makes of whole blocks that were deciphered: the padding is taken off. -/
def takeOff (R : Bytes) : Bytes :=
  match R.getLast? with
  | none => []
  | some padding => if R.length < padding.toNat then [] else R.take (R.length - padding.toNat)

/-- `Decrypt` stays within its buffer, and takes the padding off of what it deciphers. -/
theorem decrypt_eq (aes : Aes) (data aesKey : Bytes) :
    decrypt aes data aesKey = .ok (if data.length = 0 ∨ data.length % 16 ≠ 0 then []
      else takeOff (Block.ecb (aes aesKey aesKey.length).symm data)) := by
  unfold decrypt
  split
  · rfl
  · next hwhole =>
    rw [not_or, not_ne_iff] at hwhole
    have hdvd : 16 ∣ data.length := Nat.dvd_of_mod_eq_zero hwhole.2
    have hblocks : (Block.blocks 16 data).length = data.length / 16 := by
      have hjoin := Block.length_join (Block.blocks 16 data)
      rw [Block.join_blocks hdvd] at hjoin
      omega
    have hloop : decryptLoop (aes aesKey aesKey.length).symm data (data.length / 16)
        (List.replicate data.length 0) 0 0 = .ok (Block.ecb (aes aesKey aesKey.length).symm data) := by
      have hloop := decryptLoop_eq (aes aesKey aesKey.length).symm (Block.blocks 16 data) [] []
        (List.replicate data.length 0) (by rw [List.length_replicate, hblocks]; omega) rfl rfl
      rw [hblocks, Block.join_blocks hdvd] at hloop
      exact hloop
    have hlength := Block.length_ecb hdvd (aes aesKey aesKey.length).symm
    dsimp only
    rw [hloop, ok_bind]
    generalize Block.ecb (aes aesKey aesKey.length).symm data = R at hlength
    obtain ⟨init, padding, rfl⟩ : ∃ init padding, R = init ++ [padding] :=
      ⟨_, _, (List.dropLast_append_getLast (by rintro rfl; exact hwhole.1 hlength.symm)).symm⟩
    have hget : (init ++ [padding])[data.length - 1]? = some padding := by
      rw [← hlength, List.length_append, List.length_singleton, Nat.add_sub_cancel,
        List.getElem?_concat_length]
    simp only [hget, takeOff, List.getLast?_concat, hlength]
    split <;> rfl

/-- The padding is taken off, by its last byte. -/
theorem takeOff_append {p : ℕ} (x : Bytes) (hp : 1 ≤ p) (hle : p ≤ 16) :
    takeOff (x ++ List.replicate p (UInt8.ofNat p)) = x := by
  obtain ⟨q, rfl⟩ : ∃ q, p = q + 1 := ⟨p - 1, by omega⟩
  have hbyte : (UInt8.ofNat (q + 1)).toNat = q + 1 := UInt8.toNat_ofNat_of_lt' (by
    change q + 1 < 256
    omega)
  have hlength : (x ++ List.replicate (q + 1) (UInt8.ofNat (q + 1))).length = x.length + (q + 1) := by
    rw [List.length_append, List.length_replicate]
  have hlast : (x ++ List.replicate (q + 1) (UInt8.ofNat (q + 1))).getLast? =
      some (UInt8.ofNat (q + 1)) := by
    rw [List.replicate_succ', ← List.append_assoc, List.getLast?_concat]
  have hroom : ¬x.length + (q + 1) < q + 1 := by omega
  simp only [takeOff, hlast, hlength, hbyte, if_neg hroom, Nat.add_sub_cancel, List.take_left]

/-- Nothing is left when the last byte is at least the number of bytes. -/
theorem takeOff_eq_nil {R : Bytes} (hR : R ≠ []) :
    takeOff R = [] ↔ ∃ p, R.getLast? = some p ∧ R.length ≤ p.toNat := by
  have hlength := List.length_pos_iff.2 hR
  obtain ⟨p, hp⟩ : ∃ p, R.getLast? = some p := ⟨_, List.getLast?_eq_some_getLast hR⟩
  simp only [takeOff, hp, Option.some.injEq, exists_eq_left']
  split
  · next h => exact iff_of_true rfl h.le
  · next h =>
    rw [List.take_eq_nil_iff, or_iff_left hR]
    omega

/-- What was enciphered is deciphered. -/
theorem decrypt_encrypt (aes : Aes) (data : Bytes) {aesKey : Bytes} (hkey : aesKey.length = 128) :
    ∃ c, encrypt aes data aesKey = .ok c ∧ decrypt aes c aesKey = .ok data := by
  refine ⟨_, encrypt_eq aes data aesKey, ?_⟩
  have hdvd := dvd_length_pad (n := 16) (by decide) data
  have hlength : (Block.ecb (aes aesKey 128) (pad 16 data)).length = (data.length / 16 + 1) * 16 := by
    rw [Block.length_ecb hdvd, length_pad (by decide)]
  rw [decrypt_eq, if_neg (by rw [hlength]; omega), hkey, Block.ecb_symm_ecb (by decide) _ hdvd, pad,
    takeOff_append data (padLength_pos (by decide) data) (padLength_le 16 data)]

/-! ## Ciphertexts -/

/-- The blocks of a ciphertext, deciphered. -/
def plaintext (aes : Aes) (aesKey c : Bytes) : Bytes := Block.ecb (aes aesKey 128).symm c

/-- The ciphertext is one of whole blocks, and deciphers to bytes that end in a padding. -/
def HasPadding (aes : Aes) (aesKey c : Bytes) : Prop :=
  c.length % 16 = 0 ∧ IsPadded 16 (plaintext aes aesKey c)

/-- A ciphertext with a padding is what its result is enciphered to; any other is rejected. -/
def RejectsInvalid (aes : Aes) (aesKey c : Bytes) : Prop :=
  ∃ data, decrypt aes c aesKey = .ok data ∧
    (HasPadding aes aesKey c → encrypt aes data aesKey = .ok c) ∧
    (¬HasPadding aes aesKey c → data = [])

/-- A ciphertext with a padding is what its result is enciphered to. -/
theorem encrypt_decrypt {aes : Aes} {aesKey c : Bytes} (hkey : aesKey.length = 128)
    (h : HasPadding aes aesKey c) :
    ∃ data, decrypt aes c aesKey = .ok data ∧ encrypt aes data aesKey = .ok c := by
  obtain ⟨hwhole, hpadded⟩ := h
  have hdvd : 16 ∣ c.length := Nat.dvd_of_mod_eq_zero hwhole
  have hlength : (plaintext aes aesKey c).length = c.length := Block.length_ecb hdvd _
  obtain ⟨data, hdata⟩ := (isPadded_iff (by decide) (hlength ▸ hdvd)).1 hpadded
  have hne : ¬(c.length = 0 ∨ c.length % 16 ≠ 0) := by
    rw [← hlength, hdata, length_pad (by decide)]
    omega
  refine ⟨data, ?_, ?_⟩
  · rw [decrypt_eq, if_neg hne, hkey]
    change Except.ok (takeOff (plaintext aes aesKey c)) = _
    rw [hdata, pad, takeOff_append data (padLength_pos (by decide) data) (padLength_le 16 data)]
  · rw [encrypt_eq, ← hdata, plaintext, Block.ecb_ecb_symm (by decide) _ hdvd]

theorem rejectsInvalid_of_not {aes : Aes} {aesKey c : Bytes} (h : ¬HasPadding aes aesKey c) :
    RejectsInvalid aes aesKey c ↔ decrypt aes c aesKey = .ok [] := by
  constructor
  · rintro ⟨data, hdec, -, hnil⟩
    rw [hdec, hnil h]
  · exact fun hdec => ⟨[], hdec, fun hpadding => absurd hpadding h, fun _ => rfl⟩

/-- Commands are deciphered as they were enciphered, and both stay within their buffers. The decoder
    rejects what it should of the ciphertexts that are not of whole blocks, have a padding, or
    decipher to a last byte that is at least their length. -/
theorem rejectsInvalid_iff (aes : Aes) {aesKey : Bytes} (hkey : aesKey.length = 128) :
    (∀ data, ∃ c, encrypt aes data aesKey = .ok c ∧ decrypt aes c aesKey = .ok data) ∧
    ∀ c, RejectsInvalid aes aesKey c ↔
      c = [] ∨ c.length % 16 ≠ 0 ∨ IsPadded 16 (plaintext aes aesKey c) ∨
        ∃ p, (plaintext aes aesKey c).getLast? = some p ∧ c.length ≤ p.toNat := by
  refine ⟨fun data => decrypt_encrypt aes data hkey, fun c => ?_⟩
  by_cases hpadding : HasPadding aes aesKey c
  · obtain ⟨data, hdec, henc⟩ := encrypt_decrypt hkey hpadding
    exact iff_of_true ⟨data, hdec, fun _ => henc, fun h => absurd hpadding h⟩
      (.inr (.inr (.inl hpadding.2)))
  · rw [rejectsInvalid_of_not hpadding, decrypt_eq]
    by_cases hwhole : c.length = 0 ∨ c.length % 16 ≠ 0
    · rw [if_pos hwhole]
      exact iff_of_true rfl (hwhole.imp List.length_eq_zero_iff.1 .inl)
    · rw [if_neg hwhole, hkey]
      rw [not_or, not_ne_iff, List.length_eq_zero_iff] at hwhole
      have hlength : (plaintext aes aesKey c).length = c.length :=
        Block.length_ecb (Nat.dvd_of_mod_eq_zero hwhole.2) _
      have hne : plaintext aes aesKey c ≠ [] := by
        intro hnil
        rw [hnil] at hlength
        exact hwhole.1 (List.length_eq_zero_iff.1 hlength.symm)
      have hnot : ¬IsPadded 16 (plaintext aes aesKey c) := fun h => hpadding ⟨hwhole.2, h⟩
      rw [or_iff_right hwhole.1, or_iff_right (not_not.2 hwhole.2), or_iff_right hnot, ← hlength,
        ← takeOff_eq_nil hne]
      exact ⟨Except.ok.inj, congrArg Except.ok⟩

/-- The block of zeros and what AES makes of it with a key of zeros. -/
def zeroBlock : Block UInt8 16 := ⟨List.replicate 16 0, rfl⟩

def zeroCipher : Block UInt8 16 :=
  ⟨[102, 233, 75, 212, 239, 138, 44, 59, 136, 76, 250, 89, 202, 52, 43, 46], rfl⟩

/-- A permutation of the blocks that agrees with AES there. -/
def zeroAes : Aes := fun _ _ => Equiv.swap zeroBlock zeroCipher

theorem rejectsInvalid_iff_zero :
    ∃ c, encrypt zeroAes (List.replicate 15 0) (List.replicate 128 0) = .ok c ∧
      decrypt zeroAes c (List.replicate 128 0) = .ok (List.replicate 15 0) :=
  (rejectsInvalid_iff zeroAes (List.length_replicate (n := 128) (a := (0 : UInt8)))).1 _

/-- The block that deciphers to zeros has no padding, and is accepted. -/
theorem rejectsInvalid_counterexample :
    decrypt zeroAes zeroCipher.1 (List.replicate 128 0) = .ok (List.replicate 16 0) ∧
      ¬RejectsInvalid zeroAes (List.replicate 128 0) zeroCipher.1 := by
  have hplain : plaintext zeroAes (List.replicate 128 0) zeroCipher.1 = List.replicate 16 0 := by
    decide +kernel
  have hpadding : ¬HasPadding zeroAes (List.replicate 128 0) zeroCipher.1 := by
    rintro ⟨-, x, p, hp, hle, h⟩
    have hne : ∀ p < 17, 1 ≤ p → UInt8.ofNat p ≠ 0 := by decide
    have hmem : UInt8.ofNat p ∈ x ++ List.replicate p (UInt8.ofNat p) :=
      List.mem_append_right x (List.mem_replicate.2 ⟨by omega, rfl⟩)
    rw [← h, hplain] at hmem
    exact hne p (by omega) hp (List.eq_of_mem_replicate hmem)
  have hdec : decrypt zeroAes zeroCipher.1 (List.replicate 128 0) = .ok (List.replicate 16 0) := by
    decide +kernel
  refine ⟨hdec, fun h => ?_⟩
  rw [rejectsInvalid_of_not hpadding, hdec] at h
  cases h

end Command

end ProxyPlatform
