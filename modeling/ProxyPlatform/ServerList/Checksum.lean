import ProxyPlatform.ServerList.Message

/-!
# The checksum of a server list

A server list is followed by its checksum, a string of sixteen bytes. The receiver compares
the sixteen bytes from the beginning of that string with the digest of what it read, and
does not look at the length of the string: of a longer string it ignores the rest, and of a
shorter one it compares what follows it, in the payload or behind it (`beyond`).

* `deserialize_serialize`: a list that is sent is read back;
* `readBody_sound`: the bytes before the checksum are those the list is written with;
* `checksumExact_iff`: nothing behind the payload is compared, and what is accepted has a
  checksum of sixteen bytes, equal to the digest, unless the string has another length and the
  payload ends too early behind it, or goes on with the right bytes (`ForeignChecksum`).

The laws of the stream are assumed (`StreamCodec.Lawful`): each of its codecs reads back what
it writes, and reads nothing else.
-/

namespace ProxyPlatform

/-- The codecs of the stream read back what they write, and nothing else. A string has at most a
    number of bytes, which is large enough for a checksum. -/
structure StreamCodec.Lawful (C : StreamCodec) : Prop where
  u32 : C.u32.IsCanonical
  u64 : C.u64.IsCanonical
  address : IsCodec NetAddress.WellFormed C.writeAddress C.readAddress
  view : ∃ n, 16 ≤ n ∧ IsCodec (fun view : Bytes => view.length ≤ n) C.writeView C.readView

/-- The id is a `uint64_t`, and the address is one of its family. -/
def ServerInfo.WellFormed (server : ServerInfo) : Prop :=
  server.serverId < 2 ^ 64 ∧ server.address.WellFormed

namespace PPGetSmallServerListResp

variable (C : StreamCodec)

/-- The bytes of an entry. -/
def serializeEntry (server : ServerInfo) : Bytes :=
  C.u64.write (.ofNat server.serverId) ++ C.writeAddress server.address

/-- The bytes before the checksum. -/
def serializeBody (versionTimestampMS : UInt64) (serverList : List ServerInfo) : Bytes :=
  C.u64.write versionTimestampMS ++ C.u32.write (UInt32.ofNat serverList.length) ++
    serverList.flatMap (serializeEntry C)

/-- The version and the entries at the start of a payload, and what is left. -/
def readBody (payload : Bytes) : Option (UInt64 × List ServerInfo × Bytes) :=
  match C.u64.read payload with
  | none => none
  | some (versionTimestampMS, bytes) => match C.u32.read bytes with
    | none => none
    | some (serverListSize, bytes) =>
      if serverListSize.toNat ≤ maxSmallServerListSize then
        (decodeEntries C serverListSize.toNat bytes).map (versionTimestampMS, ·)
      else none

/-- How many bytes behind the payload are compared with the digest, if it comes to the comparison. -/
def comparedBeyond (payload : Bytes) : ℕ :=
  match readBody C payload with
  | none => 0
  | some (_, _, unread) => match C.readView unread with
    | none => 0
    | some (checksum, rest) => 16 - (checksum ++ rest).length

/-- The checksum of the payload is one of another length than a digest has, and the payload ends
    within the sixteen bytes from its beginning on, or they are the digest. -/
def ForeignChecksum (payload : Bytes) : Prop :=
  ∃ versionTimestampMS serverList unread checksum rest,
    readBody C payload = some (versionTimestampMS, serverList, unread) ∧
    C.readView unread = some (checksum, rest) ∧ checksum.length ≠ 16 ∧
    ((checksum ++ rest).length < 16 ∨
      (checksum ++ rest).take 16 = digest (payload.take (payload.length - unread.length)))

/-- Nothing behind a payload is compared, whether it is accepted or not; and what is accepted of it
    ends in a checksum of sixteen bytes, the digest of what is before it, so that writing what was
    read gives the bytes that were read. -/
def ChecksumExact (payload beyond : Bytes) : Prop :=
  comparedBeyond C payload = 0 ∧ ∀ a a' m, deserialize C a payload beyond = .ok (a', some m) →
    ∃ unread checksum rest,
      readBody C payload = some (m.versionTimestampMS, firsts a' m.serverListSize, unread) ∧
      C.readView unread = some (checksum, rest) ∧ checksum.length = 16 ∧
      checksum = digest (payload.take (payload.length - unread.length)) ∧
      payload = serialize C m.versionTimestampMS (firsts a' m.serverListSize) ++ rest

variable {C}

theorem serialize_eq (v : UInt64) (l : List ServerInfo) :
    serialize C v l = serializeBody C v l ++ C.writeView (digest (serializeBody C v l)) := rfl

theorem length_digest (bytes : Bytes) : (digest bytes).length = 16 := length_md5 _

/-- A list is read when its body and a string are, of which the bytes compared are the digest. -/
theorem decode_eq_some {payload beyond : Bytes} {v : UInt64} {l : List ServerInfo} :
    decode C payload beyond = some (v, l) ↔
      ∃ unread checksum rest, readBody C payload = some (v, l, unread) ∧
        C.readView unread = some (checksum, rest) ∧
        (checksum ++ rest ++ beyond).take 16 =
          digest (payload.take (payload.length - unread.length)) := by
  have hmatches (unread : Bytes) : checksumMatches C payload unread beyond = true ↔
      ∃ checksum rest, C.readView unread = some (checksum, rest) ∧
        (checksum ++ rest ++ beyond).take 16 =
          digest (payload.take (payload.length - unread.length)) := by
    unfold checksumMatches
    rcases C.readView unread with _ | ⟨checksum, rest⟩
    · simp
    · simp
  have hdecode : decode C payload beyond = (readBody C payload).bind fun body =>
      if checksumMatches C payload body.2.2 beyond then some (body.1, body.2.1) else none := by
    simp only [decode, readBody]
    rcases C.u64.read payload with _ | ⟨v, bytes⟩
    · rfl
    dsimp only
    rcases C.u32.read bytes with _ | ⟨size, bytes⟩
    · rfl
    dsimp only
    by_cases hsize : size.toNat ≤ maxSmallServerListSize
    · rw [if_pos hsize, if_pos hsize]
      rcases decodeEntries C size.toNat bytes with _ | ⟨l, rest⟩
      · rfl
      · rfl
    · rw [if_neg hsize, if_neg hsize]
      rfl
  rw [hdecode, Option.bind_eq_some_iff]
  constructor
  · rintro ⟨⟨v', l', unread⟩, hbody, h⟩
    dsimp only at h
    split at h
    · next hm =>
      cases h
      obtain ⟨checksum, rest, hview, hsum⟩ := (hmatches unread).1 hm
      exact ⟨unread, checksum, rest, hbody, hview, hsum⟩
    · cases h
  · rintro ⟨unread, checksum, rest, hbody, hview, hsum⟩
    exact ⟨_, hbody, if_pos ((hmatches unread).2 ⟨checksum, rest, hview, hsum⟩)⟩

/-- What is accepted is the list that the payload stands for. -/
theorem decode_of_deserialize {a a' : ℕ → ServerInfo} {payload beyond : Bytes}
    {m : PPGetSmallServerListResp} (h : deserialize C a payload beyond = .ok (a', some m)) :
    decode C payload beyond = some (m.versionTimestampMS, firsts a' m.serverListSize) := by
  obtain ⟨b, hb, hfirsts⟩ := deserialize_eq (C := C) a payload beyond
  rw [h, Except.ok.injEq, Prod.mk.injEq] at hb
  obtain ⟨rfl, hm⟩ := hb
  obtain ⟨⟨v, l⟩, hdecode, rfl⟩ := Option.map_eq_some_iff.1 hm.symm
  rw [hdecode, (hfirsts v l hdecode).1]

/-! ## The body -/

/-- The entries written are read back. -/
theorem decodeEntries_flatMap (hC : C.Lawful) {l : List ServerInfo}
    (hl : ∀ server ∈ l, server.WellFormed) (rest : Bytes) :
    decodeEntries C l.length (l.flatMap (serializeEntry C) ++ rest) = some (l, rest) := by
  induction l with
  | nil => rfl
  | cons server l ih =>
    obtain ⟨⟨hid, haddress⟩, hl⟩ := List.forall_mem_cons.1 hl
    rw [List.length_cons, List.flatMap_cons, decodeEntries, serializeEntry, List.append_assoc,
      List.append_assoc, C.u64.read_write]
    dsimp only
    rw [hC.address.read_write _ _ haddress]
    dsimp only
    rw [ih hl, Option.map_some, Prod.map_apply, UInt64.toNat_ofNat', Nat.mod_eq_of_lt hid]
    rfl

/-- The entries read are written with the bytes they were read from. -/
theorem decodeEntries_sound (hC : C.Lawful) {n : ℕ} {bytes rest : Bytes} {l : List ServerInfo}
    (h : decodeEntries C n bytes = some (l, rest)) :
    bytes = l.flatMap (serializeEntry C) ++ rest := by
  induction n generalizing bytes l with
  | zero =>
    cases h
    rfl
  | succ n ih =>
    rw [decodeEntries] at h
    split at h
    · cases h
    next serverId bytes' hid =>
    split at h
    · cases h
    next address bytes'' haddress =>
    obtain ⟨⟨l', rest'⟩, hl', hl⟩ := Option.map_eq_some_iff.1 h
    cases hl
    rw [(hC.u64.write_read _ _ _ hid).2, (hC.address.write_read _ _ _ haddress).2, ih hl',
      List.flatMap_cons, serializeEntry, UInt64.ofNat_toNat, List.append_assoc, List.append_assoc]

/-- A body that is written is read back. -/
theorem readBody_serializeBody (hC : C.Lawful) (v : UInt64) {l : List ServerInfo}
    (hlength : l.length ≤ maxSmallServerListSize) (hl : ∀ server ∈ l, server.WellFormed)
    (rest : Bytes) : readBody C (serializeBody C v l ++ rest) = some (v, l, rest) := by
  have hsize : (UInt32.ofNat l.length).toNat = l.length := by
    rw [UInt32.toNat_ofNat', Nat.mod_eq_of_lt (hlength.trans_lt (by decide))]
  rw [readBody, serializeBody, List.append_assoc, List.append_assoc, C.u64.read_write]
  dsimp only
  rw [C.u32.read_write]
  dsimp only
  rw [hsize, if_pos hlength, decodeEntries_flatMap hC hl]
  rfl

/-- A body that is read is written with the bytes it was read from. -/
theorem readBody_sound (hC : C.Lawful) {payload unread : Bytes} {v : UInt64} {l : List ServerInfo}
    (h : readBody C payload = some (v, l, unread)) : payload = serializeBody C v l ++ unread := by
  rw [readBody] at h
  split at h
  · cases h
  next v' bytes hv =>
  split at h
  · cases h
  next size bytes' hsize =>
  split at h
  · obtain ⟨⟨l', rest'⟩, hl', hl⟩ := Option.map_eq_some_iff.1 h
    cases hl
    rw [(hC.u64.write_read _ _ _ hv).2, (hC.u32.write_read _ _ _ hsize).2,
      decodeEntries_sound hC hl', serializeBody, length_of_decodeEntries hl', UInt32.ofNat_toNat,
      List.append_assoc, List.append_assoc]
  · cases h

/-- The bytes of the payload before what is left are those of the body. -/
theorem take_of_readBody (hC : C.Lawful) {payload unread : Bytes} {v : UInt64} {l : List ServerInfo}
    (h : readBody C payload = some (v, l, unread)) :
    payload.take (payload.length - unread.length) = serializeBody C v l := by
  rw [readBody_sound hC h, List.length_append, Nat.add_sub_cancel_right, List.take_left]

/-! ## The checksum -/

/-- A list that is sent is read back, into any array. -/
theorem deserialize_serialize (hC : C.Lawful) (v : UInt64) {l : List ServerInfo}
    (hlength : l.length ≤ maxSmallServerListSize) (hl : ∀ server ∈ l, server.WellFormed)
    (a : ℕ → ServerInfo) (beyond : Bytes) :
    ∃ a', deserialize C a (serialize C v l) beyond = .ok (a', some ⟨v, l.length⟩) ∧
      firsts a' l.length = l := by
  obtain ⟨n, hn, hview⟩ := hC.view
  have hbody := readBody_serializeBody hC v hlength hl (C.writeView (digest (serializeBody C v l)))
  have hread := hview.read_write (digest (serializeBody C v l)) []
    ((length_digest _).le.trans hn)
  rw [List.append_nil] at hread
  have hdecode : decode C (serialize C v l) beyond = some (v, l) := by
    rw [serialize_eq]
    refine decode_eq_some.2 ⟨_, _, _, hbody, hread, ?_⟩
    rw [take_of_readBody hC hbody, List.append_nil, List.take_left' (length_digest _)]
  obtain ⟨a', ha', hfirsts⟩ := deserialize_eq (C := C) a (serialize C v l) beyond
  rw [hdecode] at ha'
  exact ⟨a', ha', (hfirsts v l hdecode).1⟩

theorem comparedBeyond_eq {payload unread checksum rest : Bytes} {v : UInt64} {l : List ServerInfo}
    (hbody : readBody C payload = some (v, l, unread))
    (hview : C.readView unread = some (checksum, rest)) :
    comparedBeyond C payload = 16 - (checksum ++ rest).length := by
  rw [comparedBeyond, hbody]
  dsimp only
  rw [hview]

/-- Without a foreign checksum, the payload does not end within the bytes compared. -/
theorem comparedBeyond_of_not_foreign {payload : Bytes} (h : ¬ForeignChecksum C payload) :
    comparedBeyond C payload = 0 := by
  rw [comparedBeyond]
  split
  · rfl
  next v l unread hbody =>
  split
  · rfl
  next checksum rest hview =>
  by_contra hne
  have hshort : (checksum ++ rest).length < 16 := by omega
  refine h ⟨v, l, unread, checksum, rest, hbody, hview, ?_, .inl hshort⟩
  rw [List.length_append] at hshort
  omega

/-- The checksum is compared as the claimed digest, and with nothing behind the payload, unless it
    is a foreign one. -/
theorem checksumExact_iff_not_foreign (hC : C.Lawful) (payload beyond : Bytes) :
    ChecksumExact C payload beyond ↔ ¬ForeignChecksum C payload := by
  constructor
  · rintro ⟨hwithin, hexact⟩ ⟨v, l, unread, checksum, rest, hbody, hview, hlength, hsum⟩
    rw [comparedBeyond_eq hbody hview] at hwithin
    have hlong : 16 ≤ (checksum ++ rest).length := by omega
    rcases hsum with hshort | hsum
    · omega
    -- The digest is in the payload, so that the list is accepted.
    have hdecode : decode C payload beyond = some (v, l) := by
      refine decode_eq_some.2 ⟨unread, checksum, rest, hbody, hview, ?_⟩
      rw [List.take_append_of_le_length hlong, hsum]
    obtain ⟨a', ha', -⟩ := deserialize_eq (C := C) (fun _ => {}) payload beyond
    rw [hdecode] at ha'
    obtain ⟨unread', checksum', rest', hbody', hview', hlength', -⟩ := hexact _ _ _ ha'
    rw [hbody, Option.some.injEq, Prod.mk.injEq, Prod.mk.injEq] at hbody'
    rw [← hbody'.2.2, hview, Option.some.injEq, Prod.mk.injEq] at hview'
    exact hlength (hview'.1 ▸ hlength')
  · intro hforeign
    have hwithin := comparedBeyond_of_not_foreign hforeign
    refine ⟨hwithin, fun a a' m h => ?_⟩
    obtain ⟨unread, checksum, rest, hbody, hview, hsum⟩ := decode_eq_some.1 (decode_of_deserialize h)
    rw [comparedBeyond_eq hbody hview] at hwithin
    have hlong : 16 ≤ (checksum ++ rest).length := by omega
    rw [List.take_append_of_le_length hlong] at hsum
    have hlength : checksum.length = 16 := by
      by_contra hne
      exact hforeign ⟨_, _, unread, checksum, rest, hbody, hview, hne, .inr hsum⟩
    rw [List.take_left' hlength] at hsum
    refine ⟨unread, checksum, rest, hbody, hview, hlength, hsum, ?_⟩
    obtain ⟨n, -, hcodec⟩ := hC.view
    have hunread := (hcodec.write_read _ _ _ hview).2
    rw [take_of_readBody hC hbody] at hsum
    rw [serialize_eq, List.append_assoc, ← hsum, ← hunread]
    exact readBody_sound hC hbody

/-- A list that is sent is read back; and nothing behind a payload is compared, and what is accepted
    ends in a checksum of sixteen bytes, the digest of what is before it, unless the checksum is a
    foreign one. -/
theorem checksumExact_iff (C : StreamCodec) (hC : C.Lawful) :
    (∀ (v : UInt64) (l : List ServerInfo), l.length ≤ maxSmallServerListSize →
      (∀ server ∈ l, server.WellFormed) → ∀ a beyond, ∃ a',
        deserialize C a (serialize C v l) beyond = .ok (a', some ⟨v, l.length⟩) ∧
          firsts a' l.length = l) ∧
    ∀ payload beyond, ChecksumExact C payload beyond ↔ ¬ForeignChecksum C payload :=
  ⟨fun v _ hlength hl a beyond => deserialize_serialize hC v hlength hl a beyond,
    checksumExact_iff_not_foreign hC⟩

end PPGetSmallServerListResp

/-! ## A lawful stream -/

/-- The tag of an address. -/
def addressTag : AddressType → UInt8
  | .unknown => 0
  | .ipv4 => 4
  | .ipv6 => 6

/-- The type of an address with the given tag. -/
def typeOfTag (tag : UInt8) : Option AddressType :=
  if tag = 0 then some .unknown
  else if tag = 4 then some .ipv4
  else if tag = 6 then some .ipv6
  else none

theorem typeOfTag_eq_some {tag : UInt8} {type : AddressType} :
    typeOfTag tag = some type ↔ tag = addressTag type := by
  unfold typeOfTag
  split_ifs with h0 h4 h6
  · subst h0
    cases type <;> decide
  · subst h4
    cases type <;> decide
  · subst h6
    cases type <;> decide
  · cases type <;> simp [addressTag, h0, h4, h6]

/-- A stream of numbers with the lowest byte first, addresses after a tag for their type, and strings
    after their length. Other tags are not read. -/
def strictCodec : StreamCodec where
  toNumberPrimitives := .littleEndian
  writeAddress address := addressTag address.type :: address.bytes ++ writeNumber 2 address.port
  readAddress
    | [] => none
    | tag :: bytes => (typeOfTag tag).bind fun type =>
      readPlainAddress type (NetAddress.size type) bytes
  writeView := plainCodec.writeView
  readView := plainCodec.readView

/-- An address is read back, of whatever type it is, and nothing else is read. -/
theorem readPlainAddress_eq_some {type : AddressType} {bytes rest : Bytes} {address : NetAddress} :
    readPlainAddress type (NetAddress.size type) bytes = some (address, rest) ↔
      address.type = type ∧ address.WellFormed ∧
        bytes = address.bytes ++ writeNumber 2 address.port ++ rest := by
  constructor
  · intro h
    unfold readPlainAddress at h
    split at h
    · next hle =>
      obtain ⟨⟨port, rest'⟩, hread, h⟩ := Option.map_eq_some_iff.1 h
      cases h
      obtain ⟨hport, hdrop⟩ := (isCodec_number 2).write_read _ _ _ hread
      refine ⟨rfl, ⟨List.length_take_of_le hle, hport⟩, ?_⟩
      rw [List.append_assoc]
      exact (List.take_append_drop _ bytes).symm.trans (congrArg _ hdrop)
    · cases h
  · rintro ⟨rfl, ⟨hlength, hport⟩, rfl⟩
    have hread := (isCodec_number 2).read_write address.port rest hport
    rw [readPlainAddress, if_pos (by rw [← hlength]; simp), List.append_assoc, ← hlength,
      List.drop_left, hread, List.take_left]
    rfl

theorem isCodec_strictView :
    IsCodec (fun view : Bytes => view.length ≤ 65535) strictCodec.writeView strictCodec.readView where
  read_write view rest h := by
    have hread := (isCodec_number 2).read_write view.length (view ++ rest) (Nat.lt_succ_of_le h)
    simp only [strictCodec, plainCodec, List.append_assoc, hread]
    simp
  write_read bytes view rest h := by
    simp only [strictCodec, plainCodec] at h
    split at h
    · cases h
    next size rest' hread =>
    split at h
    · next hle =>
      cases h
      obtain ⟨hsize, rfl⟩ := (isCodec_number 2).write_read _ _ _ hread
      have hlength : (rest'.take size).length = size := List.length_take_of_le hle
      refine ⟨hlength.le.trans (Nat.le_of_lt_succ hsize), ?_⟩
      simp only [strictCodec, plainCodec]
      rw [hlength, List.append_assoc, List.take_append_drop]
    · cases h

theorem strictCodec_lawful : strictCodec.Lawful where
  u32 := isCanonical_u32
  u64 := isCanonical_u64
  address := by
    refine ⟨fun address rest h => ?_, fun bytes address rest h => ?_⟩
    · change (typeOfTag (addressTag address.type)).bind _ = _
      rw [typeOfTag_eq_some.2 rfl, Option.bind_some]
      exact readPlainAddress_eq_some.2 ⟨rfl, h, rfl⟩
    · cases bytes with
      | nil => cases h
      | cons tag bytes =>
        obtain ⟨type, htype, h⟩ := Option.bind_eq_some_iff.1 h
        obtain ⟨rfl, haddress, rfl⟩ := readPlainAddress_eq_some.1 h
        exact ⟨haddress, congrArg (· :: _) (typeOfTag_eq_some.1 htype)⟩
  view := ⟨65535, by decide, isCodec_strictView⟩

namespace PPGetSmallServerListResp

/-- A server. -/
def sampleServer : ServerInfo where
  serverId := 7
  address := { type := .ipv4, bytes := [10, 0, 0, 1], port := 1080 }

theorem checksumExact_iff_strict :
    ∃ a', deserialize strictCodec (fun _ => {}) (serialize strictCodec 60 [sampleServer]) [] =
        .ok (a', some ⟨60, 1⟩) ∧ firsts a' 1 = [sampleServer] := by
  refine (checksumExact_iff strictCodec strictCodec_lawful).1 60 [sampleServer] (by decide)
    (fun server h => ?_) _ []
  rw [List.mem_singleton.1 h]
  exact ⟨by decide, rfl, by decide⟩

/-- An empty list with the given checksum. -/
def emptyWithChecksum (checksum : Bytes) : Bytes :=
  serializeBody strictCodec 60 [] ++ strictCodec.writeView checksum

/-- The digest of an empty list. -/
def emptyDigest : Bytes := digest (serializeBody strictCodec 60 [])

/-- An empty list with another checksum than one of sixteen bytes has a foreign one, if this is too
    short, or begins with the digest. -/
theorem foreignChecksum_empty {checksum : Bytes} (hlength : checksum.length ≤ 17)
    (h : checksum.length < 16 ∨ checksum.length = 17 ∧ checksum.take 16 = emptyDigest) :
    ForeignChecksum strictCodec (emptyWithChecksum checksum) := by
  have hbody : readBody strictCodec (emptyWithChecksum checksum) = some (60, [], _) :=
    readBody_serializeBody strictCodec_lawful 60 (Nat.zero_le _) (fun _ h => by cases h) _
  have hview := isCodec_strictView.read_write checksum [] (hlength.trans (by decide))
  rw [List.append_nil] at hview
  refine ⟨60, [], _, _, [], hbody, hview, by omega, ?_⟩
  rw [take_of_readBody strictCodec_lawful hbody, List.append_nil]
  exact h.imp_right And.right

/-- A checksum of seventeen bytes is accepted, and one of fifteen is compared with what is behind the
    payload. -/
theorem checksumExact_counterexample :
    ¬ChecksumExact strictCodec (emptyWithChecksum (emptyDigest ++ [0])) [] ∧
      ¬ChecksumExact strictCodec (emptyWithChecksum (emptyDigest.take 15)) [] := by
  have hlength : emptyDigest.length = 16 := length_digest _
  rw [checksumExact_iff_not_foreign strictCodec_lawful, not_not,
    checksumExact_iff_not_foreign strictCodec_lawful, not_not]
  constructor
  · refine foreignChecksum_empty (by simp [hlength]) (.inr ⟨by simp [hlength], ?_⟩)
    rw [List.take_left' hlength]
  · exact foreignChecksum_empty (by simp) (.inl (by simp [hlength]))

end PPGetSmallServerListResp

end ProxyPlatform
