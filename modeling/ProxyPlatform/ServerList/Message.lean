import ProxyPlatform.Base.Codec
import ProxyPlatform.Base.Md5
import ProxyPlatform.Base.Table

/-!
# Server lists, as they are sent

A server list is sent as its version, its size, the entries and a checksum of these. The
receiver reads it into an array it has, so that it can fail halfway; and it compares the
sixteen bytes at the checksum, of which a malformed datagram has fewer: what is behind it
in the receive buffer is read then (`beyond`).

What is not in the repository is a parameter (`StreamCodec`): how the stream writes and
reads numbers, addresses and strings.

* `decode` is the list a payload stands for, with no array involved;
* `deserialize_eq`: the receiver stays in its array, and what it reads into it is that list.
-/

namespace ProxyPlatform

def maxSmallServerListSize : ℕ := 128
def cmdDownloadSmallServerList : ℕ := 0x01001
def cmdDownloadSmallServerListResp : ℕ := 0x01002

/-- A packet, with the header taken apart. -/
structure ServerListPacket where
  commandId : ℕ := 0
  requestId : ℕ := 0
  payload : Bytes := []
  deriving DecidableEq

/-- The stream: what it is to write and to read numbers, addresses and strings. -/
structure StreamCodec extends NumberPrimitives where
  writeAddress : NetAddress → Bytes
  readAddress : Bytes → Option (NetAddress × Bytes)
  writeView : Bytes → Bytes
  readView : Bytes → Option (Bytes × Bytes)

/-- `xPP_GetSmallServerListResp`, but for the list, which is in an array elsewhere. -/
structure PPGetSmallServerListResp where
  versionTimestampMS : UInt64
  serverListSize : ℕ

namespace PPGetSmallServerListResp

variable (C : StreamCodec)

/-- The checksum of a message. -/
def digest (bytes : Bytes) : Bytes := md5 ((md5 bytes).take 12)

/-- `SerializeMembers`. -/
def serialize (versionTimestampMS : UInt64) (serverList : List ServerInfo) : Bytes :=
  let bytes := C.u64.write versionTimestampMS ++ C.u32.write (UInt32.ofNat serverList.length) ++
    serverList.flatMap fun server => C.u64.write (.ofNat server.serverId) ++ C.writeAddress server.address
  bytes ++ C.writeView (digest bytes)

/-- The loop of `DeserializeMembers`, for the `n` entries from the index `i` on: the array, and what
    is left to be read, or nothing after an error. -/
def readEntries : ℕ → ℕ → (ℕ → ServerInfo) → Bytes →
    Except Fault ((ℕ → ServerInfo) × Option Bytes)
  | 0, _, a, bytes => .ok (a, some bytes)
  | n + 1, i, a, bytes => match readAt maxSmallServerListSize a i with
    | .error x => .error x
    | .ok old => match C.u64.read bytes with
      | none => .ok (a, none)
      | some (serverId, bytes) => match C.readAddress bytes with
        | none => .ok (Function.update a i { old with serverId := serverId.toNat }, none)
        | some (address, bytes) =>
          readEntries n (i + 1) (Function.update a i { serverId := serverId.toNat, address := address })
            bytes

/-- The comparison of the checksum, read from `unread`, with that of what is before it in the
    payload. -/
def checksumMatches (payload unread beyond : Bytes) : Bool :=
  match C.readView unread with
  | none => false
  | some (checksum, rest) =>
    (checksum ++ rest ++ beyond).take 16 = digest (payload.take (payload.length - unread.length))

/-- `DeserializeMembers`, into the array `a`: the array, and the message, or nothing after an
    error. -/
def deserialize (a : ℕ → ServerInfo) (payload beyond : Bytes) :
    Except Fault ((ℕ → ServerInfo) × Option PPGetSmallServerListResp) :=
  match C.u64.read payload with
  | none => .ok (a, none)
  | some (versionTimestampMS, bytes) => match C.u32.read bytes with
    | none => .ok (a, none)
    | some (serverListSize, bytes) =>
      if maxSmallServerListSize < serverListSize.toNat then .ok (a, none)
      else match readEntries C serverListSize.toNat 0 a bytes with
        | .error x => .error x
        | .ok (a, none) => .ok (a, none)
        | .ok (a, some bytes) =>
          if checksumMatches C payload bytes beyond then
            .ok (a, some ⟨versionTimestampMS, serverListSize.toNat⟩)
          else .ok (a, none)

/-! ## The list a payload stands for -/

/-- The `n` entries at the start of `bytes`. -/
def decodeEntries : ℕ → Bytes → Option (List ServerInfo × Bytes)
  | 0, bytes => some ([], bytes)
  | n + 1, bytes => match C.u64.read bytes with
    | none => none
    | some (serverId, bytes) => match C.readAddress bytes with
      | none => none
      | some (address, bytes) =>
        (decodeEntries n bytes).map (Prod.map ({ serverId := serverId.toNat, address := address } :: ·) id)

/-- The version and the list of a payload, if it is well formed. -/
def decode (payload beyond : Bytes) : Option (UInt64 × List ServerInfo) :=
  match C.u64.read payload with
  | none => none
  | some (versionTimestampMS, bytes) => match C.u32.read bytes with
    | none => none
    | some (serverListSize, bytes) =>
      if serverListSize.toNat ≤ maxSmallServerListSize then
        match decodeEntries C serverListSize.toNat bytes with
        | none => none
        | some (l, bytes) =>
          if checksumMatches C payload bytes beyond then some (versionTimestampMS, l) else none
      else none

variable {C}

theorem length_of_decodeEntries {n : ℕ} {bytes rest : Bytes} {l : List ServerInfo}
    (h : decodeEntries C n bytes = some (l, rest)) : l.length = n := by
  induction n generalizing bytes l with
  | zero =>
    cases h
    rfl
  | succ n ih =>
    simp only [decodeEntries] at h
    split at h
    · cases h
    · split at h
      · cases h
      · obtain ⟨⟨l', rest'⟩, hl', hl⟩ := Option.map_eq_some_iff.1 h
        cases hl
        rw [List.length_cons, ih hl']

/-- The loop reads the entries into the array, from the index `i` on, and stays in it. -/
theorem readEntries_eq {n i : ℕ} (a : ℕ → ServerInfo) (bytes : Bytes)
    (h : i + n ≤ maxSmallServerListSize) :
    ∃ a', readEntries C n i a bytes = .ok (a', (decodeEntries C n bytes).map Prod.snd) ∧
      ∀ l rest, decodeEntries C n bytes = some (l, rest) → firsts a' (i + n) = firsts a i ++ l := by
  induction n generalizing i a bytes with
  | zero =>
    refine ⟨a, rfl, fun l rest hl => ?_⟩
    cases hl
    rw [Nat.add_zero, List.append_nil]
  | succ n ih =>
    have hread : readAt maxSmallServerListSize a i = .ok (a i) := readAt_of_lt (by omega)
    simp only [readEntries, decodeEntries, hread]
    rcases C.u64.read bytes with _ | ⟨serverId, bytes⟩
    · exact ⟨a, rfl, fun l rest hl => (by cases hl)⟩
    dsimp only
    rcases C.readAddress bytes with _ | ⟨address, bytes⟩
    · exact ⟨_, rfl, fun l rest hl => (by cases hl)⟩
    dsimp only
    obtain ⟨a', ha', hfirsts⟩ :=
      ih (Function.update a i { serverId := serverId.toNat, address := address }) bytes (i := i + 1)
        (by omega)
    refine ⟨a', ?_, fun l rest hl => ?_⟩
    · rw [ha', Option.map_map]
      rfl
    · obtain ⟨⟨l', rest'⟩, hl', hl⟩ := Option.map_eq_some_iff.1 hl
      cases hl
      rw [← Nat.add_assoc, Nat.add_right_comm, hfirsts l' rest' hl', firsts_update,
        List.append_assoc]
      rfl

/-- The receiver stays in its array, and reads the list into it that the payload stands for. -/
theorem deserialize_eq (a : ℕ → ServerInfo) (payload beyond : Bytes) :
    ∃ a', deserialize C a payload beyond =
        .ok (a', (decode C payload beyond).map fun x => ⟨x.1, x.2.length⟩) ∧
      ∀ v l, decode C payload beyond = some (v, l) →
        firsts a' l.length = l ∧ l.length ≤ maxSmallServerListSize := by
  simp only [deserialize, decode]
  rcases C.u64.read payload with _ | ⟨versionTimestampMS, bytes⟩
  · exact ⟨a, rfl, fun v l hl => (by cases hl)⟩
  dsimp only
  rcases C.u32.read bytes with _ | ⟨serverListSize, bytes⟩
  · exact ⟨a, rfl, fun v l hl => (by cases hl)⟩
  dsimp only
  by_cases hsize : serverListSize.toNat ≤ maxSmallServerListSize
  · rw [if_pos hsize, if_neg (Nat.not_lt.2 hsize)]
    obtain ⟨a', ha', hfirsts⟩ := readEntries_eq (C := C) (n := serverListSize.toNat) (i := 0) a bytes
      (by omega)
    rw [ha']
    rcases hl : decodeEntries C serverListSize.toNat bytes with _ | ⟨l, rest⟩
    · exact ⟨a', rfl, fun v l hl => (by cases hl)⟩
    have hlength := length_of_decodeEntries hl
    have ha := hfirsts l rest hl
    rw [Nat.zero_add, ← hlength, firsts_zero, List.nil_append] at ha
    by_cases hsum : checksumMatches C payload rest beyond
    · refine ⟨a', ?_, fun v l' hl' => ?_⟩
      · simp [hsum, hlength]
      · simp only [hsum, if_true] at hl'
        cases hl'
        exact ⟨ha, hlength ▸ hsize⟩
    · refine ⟨a', ?_, fun v l' hl' => ?_⟩
      · simp [hsum]
      · simp only [if_neg hsum] at hl'
        cases hl'
  · rw [if_neg hsize, if_pos (Nat.not_le.1 hsize)]
    exact ⟨a, rfl, fun v l hl => (by cases hl)⟩

end PPGetSmallServerListResp

/-! ## A stream -/

/-- Reading an address of the given type, of `size` bytes, and its port. -/
def readPlainAddress (type : AddressType) (size : ℕ) (bytes : Bytes) :
    Option (NetAddress × Bytes) :=
  if size ≤ bytes.length then
    (readNumber 2 (bytes.drop size)).map
      (Prod.map (fun port => { type := type, bytes := bytes.take size, port := port }) id)
  else none

/-- A stream of numbers with the lowest byte first, addresses tagged by their type, and strings
    after their length. -/
def plainCodec : StreamCodec where
  toNumberPrimitives := .littleEndian
  writeAddress address := match address.type with
    | .unknown => [0]
    | .ipv4 => 4 :: address.bytes ++ writeNumber 2 address.port
    | .ipv6 => 6 :: address.bytes ++ writeNumber 2 address.port
  readAddress
    | [] => none
    | tag :: bytes =>
      if tag = 4 then readPlainAddress .ipv4 4 bytes
      else if tag = 6 then readPlainAddress .ipv6 16 bytes
      else some ({}, bytes)
  writeView view := writeNumber 2 view.length ++ view
  readView bytes := match readNumber 2 bytes with
    | none => none
    | some (size, rest) => if size ≤ rest.length then some (rest.take size, rest.drop size) else none

end ProxyPlatform
