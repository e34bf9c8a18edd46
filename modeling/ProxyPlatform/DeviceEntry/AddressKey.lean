import ProxyPlatform.Base.Codec
import ProxyPlatform.Base.Hex
import ProxyPlatform.DeviceEntry.Basic

/-!
# Address keys

A device does not name the address it is known by: it asks the challenge service, which
answers with a key of the address the question came from (`AddressChallenge.onUdpPacket`),
and hands that key to the device entry, which takes the address from it
(`AddressChallenge.decryptAddressKey`).

The bytes of a key are chained: each is a byte of the address, masked by the byte of the
key before it, and the first is taken from a counter. The encoder masks an `int`, the
decoder two `char`s.

* `writes_encryptAddressKey`: the encoder writes the key, within the span it is given;
* `decryptAddressKey_chain`: the decoder undoes the chain;
* `onDeviceChallenge_of_key`: a device that hands in its key is offered a relay for the
  address the key was issued for.

The hexadecimal coding is a parameter, `strToHex` and `hexToStr`.
-/

namespace ProxyPlatform

namespace AddressChallenge

def cmdGetAddressKey : ℕ := 0x07001

/-- `xStreamWriter`: the memory it writes to, and how much it has written. -/
structure StreamWriter where
  memory : Bytes
  written : ℕ := 0

/-- `W`, of a byte. -/
def StreamWriter.W (w : StreamWriter) (b : UInt8) : Except Fault StreamWriter :=
  if w.written < w.memory.length then .ok ⟨w.memory.set w.written b, w.written + 1⟩
  else .error .indexOutOfRange

/-- An unsigned byte, promoted to an `int`. -/
def ubyteToInt (b : UInt8) : Int32 := b.toUInt32.toInt32

/-- An `int`, stored in an unsigned byte. -/
def intToUbyte (x : Int32) : UInt8 := x.toInt8.toUInt8

/-- The loop of `EncryptAddressKey` over the bytes `SA`. -/
def encryptLoop (w : StreamWriter) (localEC : Int32) : Bytes → Except Fault StreamWriter
  | [] => .ok w
  | b :: sa =>
    let localEC := localEC ^^^ ubyteToInt b
    match w.W (intToUbyte localEC) with
    | .error x => .error x
    | .ok w => encryptLoop w localEC sa

/-- A branch of `EncryptAddressKey`: the key of the bytes `SA`, if the `S` bytes at `B` have room. What
    is returned is the memory at `B`, and the number of bytes of the span that is left. -/
def encryptBytes (localEC : Int32) (B : Bytes) (S : ℕ) (sa : Bytes) : Except Fault (Bytes × ℕ) :=
  let finalSize := sa.length + 1
  if S < finalSize then .ok (B, 0)
  else
    let w : StreamWriter := { memory := B }
    match w.W (intToUbyte localEC) with
    | .error x => .error x
    | .ok w => match encryptLoop w localEC sa with
      | .error x => .error x
      | .ok w => .ok (w.memory, finalSize)

/-- `EncryptAddressKey`, with the counter `EC`, into the span of the memory `B`: the counter, the
    memory and the size of the span afterwards. -/
def encryptAddressKey (ec : UInt8) (B : Bytes) (address : NetAddress) :
    Except Fault (UInt8 × Bytes × ℕ) :=
  let ec := ec + 1
  let localEC := ubyteToInt ec ||| 0x37
  if address.is4 ∨ address.is6 then
    match encryptBytes localEC B B.length address.bytes with
    | .error x => .error x
    | .ok r => .ok (ec, r)
  else .ok (ec, B, 0)

/-- The loop of `DecryptAddressKey`, behind the `char` `LocalEC`. -/
def decryptLoop (localEC : Int8) : List Int8 → Bytes
  | [] => []
  | c :: origin => intToUbyte (localEC.toInt32 ^^^ c.toInt32) :: decryptLoop c origin

/-- `DecryptAddressKey`. -/
def decryptAddressKey (hexToStr : Bytes → Bytes) (view : Bytes) : NetAddress :=
  match (hexToStr view).map UInt8.toInt8 with
  | [] => {}
  | localEC :: origin =>
    if origin.length = NetAddress.size .ipv4 then
      { type := .ipv4, bytes := decryptLoop localEC origin }
    else if origin.length = NetAddress.size .ipv6 then
      { type := .ipv6, bytes := decryptLoop localEC origin }
    else {}

/-- `OnUdpPacket`: the counter afterwards and the key that is answered, if any is. The message is of no
    account once it is read; `buffer` is the memory of the key. -/
def onUdpPacket (strToHex : Bytes → Bytes) (deserialize : Bytes → Option Bytes) (buffer : Bytes)
    (ec : UInt8) (commandId : ℕ) (remoteAddress : NetAddress) (payload : Bytes) :
    Except Fault (UInt8 × Option Bytes) :=
  if commandId = cmdGetAddressKey then
    match deserialize payload with
    | none => .ok (ec, none)
    | some _ => match encryptAddressKey ec buffer remoteAddress.ip with
      | .error x => .error x
      | .ok (ec, B, size) => .ok (ec, some (strToHex (B.take size)))
  else .ok (ec, none)

/-! ## The encoder -/

theorem intToUbyte_ubyteToInt (b : UInt8) : intToUbyte (ubyteToInt b) = b := by
  rw [← UInt8.toBitVec_inj]
  simp [intToUbyte, ubyteToInt, BitVec.signExtend_eq_setWidth_of_le]

theorem intToUbyte_xor (x y : Int32) : intToUbyte (x ^^^ y) = intToUbyte x ^^^ intToUbyte y := by
  simp [intToUbyte]

theorem intToUbyte_or (x y : Int32) : intToUbyte (x ||| y) = intToUbyte x ||| intToUbyte y := by
  simp [intToUbyte]

/-- A `char` goes back to its byte, whatever its sign. -/
theorem intToUbyte_toInt32 (c : Int8) : intToUbyte c.toInt32 = c.toUInt8 := by
  simp [intToUbyte]

/-- The key of the bytes `sa`, from a first byte. -/
def chain (ec : UInt8) (sa : Bytes) : Bytes := sa.scanl (· ^^^ ·) ec

theorem length_chain (ec : UInt8) (sa : Bytes) : (chain ec sa).length = sa.length + 1 :=
  List.length_scanl

/-- A key is its first byte and what the loop writes. -/
theorem chain_eq_cons (ec : UInt8) (sa : Bytes) : chain ec sa = ec :: (chain ec sa).tail := by
  cases sa with
  | nil => simp [chain]
  | cons b sa => rw [chain, List.scanl_cons, List.tail_cons]

theorem tail_chain_cons (ec b : UInt8) (sa : Bytes) :
    (chain ec (b :: sa)).tail = chain (ec ^^^ b) sa := by
  rw [chain, List.scanl_cons, List.tail_cons, chain]

/-- A byte is written where the writer is. -/
theorem W_eq (pre old post : Bytes) (c b : UInt8) :
    StreamWriter.W ⟨pre ++ c :: old ++ post, pre.length⟩ b =
      .ok ⟨pre ++ [b] ++ old ++ post, (pre ++ [b]).length⟩ := by
  rw [StreamWriter.W, if_pos (by simp)]
  simp

/-- The loop writes the rest of the key, where there is room for it. -/
theorem encryptLoop_eq (pre old post : Bytes) (localEC : Int32) (sa : Bytes)
    (h : old.length = sa.length) :
    encryptLoop ⟨pre ++ old ++ post, pre.length⟩ localEC sa =
      .ok ⟨pre ++ (chain (intToUbyte localEC) sa).tail ++ post, pre.length + sa.length⟩ := by
  induction sa generalizing pre old localEC with
  | nil =>
    rw [List.length_nil, List.length_eq_zero_iff] at h
    simp [encryptLoop, chain, h]
  | cons b sa ih =>
    obtain ⟨c, old, rfl⟩ := List.exists_cons_of_length_eq_add_one h
    have hmask : intToUbyte (localEC ^^^ ubyteToInt b) = intToUbyte localEC ^^^ b := by
      rw [intToUbyte_xor, intToUbyte_ubyteToInt]
    simp only [encryptLoop, W_eq]
    rw [ih _ old _ (Nat.succ_injective h), hmask, tail_chain_cons,
      chain_eq_cons (intToUbyte localEC ^^^ b) sa, List.length_append, List.length_singleton,
      List.length_cons, List.append_assoc pre, List.singleton_append, List.tail_cons, Nat.add_assoc,
      Nat.add_comm 1]

/-- A branch of the encoder writes the key where there is room for it. -/
theorem encryptBytes_eq (localEC : Int32) {B sa : Bytes} (h : sa.length + 1 ≤ B.length) :
    encryptBytes localEC B B.length sa =
      .ok (chain (intToUbyte localEC) sa ++ B.drop (sa.length + 1), sa.length + 1) := by
  obtain ⟨c, old, post, rfl, hold⟩ : ∃ c old post, B = c :: old ++ post ∧ old.length = sa.length := by
    obtain ⟨c, B, rfl⟩ := List.exists_cons_of_length_pos (Nat.lt_of_lt_of_le (Nat.succ_pos _) h)
    exact ⟨c, B.take sa.length, B.drop sa.length, by simp,
      List.length_take_of_le (Nat.le_of_succ_le_succ h)⟩
  have hfirst := W_eq [] old post c (intToUbyte localEC)
  have hdrop : (c :: old ++ post).drop (sa.length + 1) = post := by
    rw [← hold, List.cons_append, List.drop_succ_cons, List.drop_left]
  rw [List.nil_append, List.nil_append] at hfirst
  simp only [encryptBytes, if_neg (Nat.not_lt.2 h)]
  rw [show (0 : ℕ) = ([] : Bytes).length from rfl, hfirst]
  dsimp only
  rw [encryptLoop_eq _ old post localEC sa hold, hdrop]
  dsimp only
  rw [List.singleton_append, ← chain_eq_cons]

/-- The encoder writes the key of the bytes of the address, within the span it is given. -/
theorem writes_encryptAddressKey (ec : UInt8) {B : Bytes} {address : NetAddress}
    (hset : address.isSet = true) (hB : address.bytes.length + 1 ≤ B.length) :
    encryptAddressKey ec B address =
      .ok (ec + 1, chain ((ec + 1) ||| 0x37) address.bytes ++ B.drop (address.bytes.length + 1),
        address.bytes.length + 1) := by
  have hfirst : intToUbyte (ubyteToInt (ec + 1) ||| 0x37) = (ec + 1) ||| 0x37 := by
    rw [intToUbyte_or, intToUbyte_ubyteToInt]
    rfl
  have hfamily : address.is4 = true ∨ address.is6 = true := (NetAddress.isSet_iff address).1 hset
  simp only [encryptAddressKey, if_pos hfamily, encryptBytes_eq _ hB, hfirst]

/-! ## The decoder -/

theorem decryptLoop_eq (ec : UInt8) (origin : Bytes) :
    decryptLoop ec.toInt8 (origin.map UInt8.toInt8) = List.zipWith (· ^^^ ·) (ec :: origin) origin := by
  induction origin generalizing ec with
  | nil => rfl
  | cons c origin ih =>
    rw [List.map_cons, decryptLoop, ih, List.zipWith_cons_cons, intToUbyte_xor, intToUbyte_toInt32,
      intToUbyte_toInt32]
    rfl

/-- What the device entry takes from a key. -/
theorem decryptAddressKey_eq (hexToStr : Bytes → Bytes) (view : Bytes) :
    decryptAddressKey hexToStr view = DeviceEntry.decryptAddressKey hexToStr view := by
  unfold decryptAddressKey DeviceEntry.decryptAddressKey
  rcases hexToStr view with _ | ⟨c, origin⟩
  · rfl
  · simp only [List.map_cons, List.length_map, decryptLoop_eq, List.length_cons, List.tail_cons,
      NetAddress.size, Nat.reduceEqDiff]

/-- The decoder undoes the chain. -/
theorem decryptAddressKey_chain {hexToStr : Bytes → Bytes} {view : Bytes} {ec : UInt8}
    {address : NetAddress} (hview : hexToStr view = chain ec address.bytes)
    (hset : address.isSet = true) (hwf : address.WellFormed) (hport : address.port = 0) :
    decryptAddressKey hexToStr view = address := by
  have hmask (a b : UInt8) : a ^^^ (a ^^^ b) = b := by
    rw [← UInt8.xor_assoc, UInt8.xor_self, UInt8.zero_xor]
  have hbytes : List.zipWith (· ^^^ ·) (chain ec address.bytes) (chain ec address.bytes).tail =
      address.bytes := zipWith_scanl_tail hmask ec address.bytes
  have hlength := hwf.1
  rw [decryptAddressKey_eq]
  obtain ⟨type, bytes, port⟩ := address
  cases hport
  simp only [DeviceEntry.decryptAddressKey, hview, hbytes, length_chain, hlength]
  cases type with
  | unknown => cases hset
  | ipv4 => rfl
  | ipv6 => rfl

/-- Nothing is taken from a key of any other length. -/
theorem decryptAddressKey_of_length {hexToStr : Bytes → Bytes} {view : Bytes}
    (h5 : (hexToStr view).length ≠ 5) (h17 : (hexToStr view).length ≠ 17) :
    decryptAddressKey hexToStr view = {} := by
  rw [decryptAddressKey_eq]
  simp only [DeviceEntry.decryptAddressKey, if_neg h5, if_neg h17]

/-- The key of an address, written to a span of 32 bytes, stays within it and decodes to the address. -/
theorem exists_encryptAddressKey {strToHex hexToStr : Bytes → Bytes}
    (hhex : ∀ s, hexToStr (strToHex s) = s) (ec : UInt8) {B : Bytes} {address : NetAddress}
    (hB : B.length = 32) (hset : address.isSet = true) (hwf : address.WellFormed)
    (hport : address.port = 0) :
    ∃ ec' B' size, encryptAddressKey ec B address = .ok (ec', B', size) ∧ size ≤ 32 ∧
      B'.length = B.length ∧ B'.drop size = B.drop size ∧
      decryptAddressKey hexToStr (strToHex (B'.take size)) = address := by
  have hroom : address.bytes.length + 1 ≤ 32 := by
    rw [hwf.1]
    cases address.type <;> decide
  have hkey := length_chain ((ec + 1) ||| 0x37) address.bytes
  refine ⟨_, _, _, writes_encryptAddressKey ec hset (hB ▸ hroom), hroom, ?_, ?_, ?_⟩
  · rw [List.length_append, hkey, List.length_drop]
    omega
  · rw [← hkey, List.drop_left]
  · rw [← hkey, List.take_left]
    exact decryptAddressKey_chain (hhex _) hset hwf hport

/-- Address keys decode to the address they were issued for, whatever the counter, and a key of any
    other length than those issued decodes to none. -/
theorem encryptAddressKey_decrypts {strToHex hexToStr : Bytes → Bytes}
    (hhex : ∀ s, hexToStr (strToHex s) = s) :
    (∀ (ec : UInt8) (B : Bytes) (address : NetAddress), B.length = 32 → address.isSet = true →
      address.WellFormed → address.port = 0 →
      ∃ ec' B' size, encryptAddressKey ec B address = .ok (ec', B', size) ∧ size ≤ 32 ∧
        B'.length = B.length ∧ B'.drop size = B.drop size ∧
        decryptAddressKey hexToStr (strToHex (B'.take size)) = address) ∧
    ∀ view, (hexToStr view).length ≠ 5 → (hexToStr view).length ≠ 17 →
      decryptAddressKey hexToStr view = {} :=
  ⟨fun ec _ _ hB hset hwf hport => exists_encryptAddressKey hhex ec hB hset hwf hport,
    fun _ => decryptAddressKey_of_length⟩

theorem encryptAddressKey_decrypts_loopback :
    ∃ ec' B' size, encryptAddressKey 255 (List.replicate 32 0) ⟨.ipv4, [127, 0, 0, 1], 0⟩ =
        .ok (ec', B', size) ∧ size ≤ 32 ∧
      B'.length = (List.replicate 32 (0 : UInt8)).length ∧
      B'.drop size = (List.replicate 32 0).drop size ∧
      decryptAddressKey hexToStr (strToHex (B'.take size)) = ⟨.ipv4, [127, 0, 0, 1], 0⟩ :=
  (encryptAddressKey_decrypts hexToStr_strToHex).1 255 _ _ rfl rfl ⟨rfl, Nat.zero_lt_succ _⟩ rfl

/-- A device that is answered with a key, and hands it in, is offered a relay for the address it asked
    from. -/
theorem onDeviceChallenge_of_key {strToHex hexToStr : Bytes → Bytes}
    (hhex : ∀ s, hexToStr (strToHex s) = s) (hempty : hexToStr [] = [])
    {deserialize : Bytes → Option Bytes} {ec : UInt8} {buffer payload message : Bytes}
    {remoteAddress relayAddress : NetAddress} {m m' : LocalRelayInfoManager}
    (hbuffer : buffer.length = 32) (hset : remoteAddress.isSet = true)
    (hwf : remoteAddress.WellFormed) (hmessage : deserialize payload = some message)
    (hrelay : m.getRelayServerByDeviceIp remoteAddress.ip = .ok (relayAddress, m'))
    (hfound : relayAddress.isSet = true) :
    ∃ ec' key, onUdpPacket strToHex deserialize buffer ec cmdGetAddressKey remoteAddress payload =
        .ok (ec', some key) ∧
      DeviceEntry.onDeviceChallenge hexToStr m (some { addressKey4 := key, addressKey6 := [] }) =
        .ok (some { accepted := true, relayAddress := relayAddress }, m') := by
  have hip : remoteAddress.ip.isSet = true := hset
  obtain ⟨ec', B', size, henc, -, -, -, hdec⟩ :=
    exists_encryptAddressKey hhex ec hbuffer hip ⟨hwf.1, Nat.zero_lt_succ _⟩ rfl
  refine ⟨ec', strToHex (B'.take size), ?_, ?_⟩
  · simp only [onUdpPacket, if_true, hmessage, henc]
  · rw [decryptAddressKey_eq] at hdec
    have hkey : strToHex (B'.take size) ≠ [] := by
      intro hnil
      rw [hnil, DeviceEntry.decryptAddressKey, hempty] at hdec
      rw [← hdec] at hip
      cases hip
    simp only [DeviceEntry.onDeviceChallenge, if_pos hkey, hdec, if_pos hip, hrelay, if_pos hfound]

end AddressChallenge

end ProxyPlatform
