import ProxyPlatform.Proxy.Channels
import ProxyPlatform.Proxy.Negotiation

/-!
# The datagrams of a UDP association

`OnData` of a UDP channel takes the datagrams of the client, each with the target in front, and
`PostData` gives it those of the targets, each with the source in front.

* `udpDatagram`: the datagram that `PostData` builds. It fits its buffer and is read back
  (`length_udpDatagram`, `readUdpPacket_udpDatagram`);
* `parseUdpPacket`: the parser of `OnData` with every read checked. It never reads beyond the
  datagram, and computes what `readUdpPacket` does (`parseUdpPacket_eq`);
* `Confined`: every UDP channel has the ip of its client to check, and the client was last seen
  at that ip. A connection keeps its address (`Later`), so that what a step does to the channels
  (`Comes`) keeps them confined (`Confined.step`);
* `RelaysFramed`, `SendsFramed`: what goes through a channel that is ready does go through, in
  the frame that the other direction reads;
* `udp_confined`: all of it, for every run.
-/

namespace ProxyPlatform.ProxyAccessService

variable {σ : Type*} {S : Services σ} {P : Platform} {s s' t : ProxyAccessService σ}
  {c c' : ClientConnection} {data : Bytes} {a : NetAddress}

/-- `PA_UDP_RESERVED_HEADER_SIZE`. -/
def paUdpReservedHeaderSize : ℕ := 32

/-! ## Framing -/

/-- The datagram that `PostData` builds. -/
def udpDatagram (sourceAddress : NetAddress) (data : Bytes) : Bytes :=
  [0, 0, 0] ++ s5AddressBytes sourceAddress ++ data

/-- The bytes of a datagram, with an address of `n` bytes and the byte `k` for its family. -/
theorem udpDatagram_parts {n port : ℕ} {bytes : Bytes} (hbytes : bytes.length = n)
    (hport : port < 65536) (k : UInt8) (data : Bytes) :
    let x := [0, 0, 0, k] ++ bytes ++ portBytes port ++ data
    x.length = 6 + n + data.length ∧ (x.drop 4).take n = bytes ∧
      256 * (x.getD (4 + n) 0).toNat + (x.getD (4 + n + 1) 0).toNat = port ∧
      x.drop (6 + n) = data := by
  subst hbytes
  have hfront : ([0, 0, 0, k] ++ bytes ++ portBytes port).length = 6 + bytes.length := by
    rw [List.length_append, List.length_append, length_portBytes, List.length_cons, List.length_cons,
      List.length_cons, List.length_cons, List.length_nil]
    omega
  have hread := port_portBytes hport ([0, 0, 0, k] ++ bytes)
  rw [show ([0, 0, 0, k] ++ bytes).length = 4 + bytes.length from List.length_append] at hread
  intro x
  refine ⟨by rw [List.length_append, hfront], ?_, ?_, List.drop_left' hfront⟩
  · change ((bytes ++ portBytes port) ++ data).take bytes.length = bytes
    rw [List.append_assoc, List.take_left]
  · have hport₁ : 4 + bytes.length < ([0, 0, 0, k] ++ bytes ++ portBytes port).length := by omega
    have hport₂ : 4 + bytes.length + 1 < ([0, 0, 0, k] ++ bytes ++ portBytes port).length := by omega
    rw [List.getD_append _ _ _ _ hport₁, List.getD_append _ _ _ _ hport₂]
    exact hread

theorem udpDatagram_ipv4 (bytes : Bytes) (port : ℕ) (data : Bytes) :
    udpDatagram ⟨.ipv4, bytes, port⟩ data = [0, 0, 0, 1] ++ bytes ++ portBytes port ++ data := rfl

theorem udpDatagram_ipv6 (bytes : Bytes) (port : ℕ) (data : Bytes) :
    udpDatagram ⟨.ipv6, bytes, port⟩ data = [0, 0, 0, 4] ++ bytes ++ portBytes port ++ data := rfl

/-- A datagram that is not too large fits the buffer it is built in. -/
theorem length_udpDatagram (ha : IsS5Target (.address a)) (hdata : data.length < paMaxUdpPacketSize) :
    (udpDatagram a data).length ≤ paMaxUdpPacketSize + paUdpReservedHeaderSize := by
  obtain ⟨type, bytes, port⟩ := a
  rw [paUdpReservedHeaderSize]
  obtain ⟨⟨htype, hbytes⟩ | ⟨htype, hbytes⟩, hport⟩ := ha <;> dsimp only at htype hbytes hport <;>
    subst htype
  · rw [udpDatagram_ipv4, (udpDatagram_parts hbytes hport 1 data).1]
    omega
  · rw [udpDatagram_ipv6, (udpDatagram_parts hbytes hport 4 data).1]
    omega

/-- What `OnData` reads of the datagram that `PostData` builds. -/
theorem readUdpPacket_udpDatagram (ha : IsS5Target (.address a)) (data : Bytes) :
    readUdpPacket (udpDatagram a data) = some (a, data) := by
  obtain ⟨type, bytes, port⟩ := a
  obtain ⟨⟨htype, hbytes⟩ | ⟨htype, hbytes⟩, hport⟩ := ha <;> dsimp only at htype hbytes hport <;>
    subst htype
  · obtain ⟨hlength, htake, hread, hdrop⟩ := udpDatagram_parts hbytes hport 1 data
    rw [udpDatagram_ipv4, readUdpPacket, if_neg (by rw [hlength]; omega)]
    refine (if_neg (by simp)).trans ((if_neg (by simp)).trans ((if_pos rfl).trans ?_))
    rw [if_neg (by rw [hlength]; omega), htake, hdrop]
    exact congrArg (fun p => some (NetAddress.mk .ipv4 bytes p, data)) hread
  · obtain ⟨hlength, htake, hread, hdrop⟩ := udpDatagram_parts hbytes hport 4 data
    rw [udpDatagram_ipv6, readUdpPacket, if_neg (by rw [hlength]; omega)]
    refine (if_neg (by simp)).trans ((if_neg (by simp)).trans ((if_neg ?_).trans
      ((if_pos rfl).trans ?_)))
    · exact show ¬(4 : UInt8) = 1 by decide
    rw [if_neg (by rw [hlength]; omega), htake, hdrop]
    exact congrArg (fun p => some (NetAddress.mk .ipv6 bytes p, data)) hread

/-! ## The parser, read by read -/

/-- `xStreamReader::R`: a byte that must be below the size. -/
def readByte (data : Bytes) (i : ℕ) : Except Fault UInt8 :=
  if i < data.length then .ok (data.getD i 0) else .error .readOutOfRange

/-- `xStreamReader::R2`. -/
def readPort (data : Bytes) (i : ℕ) : Except Fault ℕ := do
  let high ← readByte data i
  let low ← readByte data (i + 1)
  return 256 * high.toNat + low.toNat

/-- `n` bytes, all below the size. -/
def readBytes (data : Bytes) (i n : ℕ) : Except Fault Bytes :=
  if i + n ≤ data.length then .ok ((data.drop i).take n) else .error .readOutOfRange

/-- `DataSize - R.Offset()`. -/
def payloadSize (data : Bytes) (offset : ℕ) : Except Fault ℕ :=
  if offset ≤ data.length then .ok (data.length - offset) else .error .underflow

/-- The address behind the type, and the payload behind it. -/
def parseUdpAddress (data : Bytes) (type : AddressType) (size : ℕ) :
    Except Fault (Option (NetAddress × Bytes)) := do
  if data.length < 6 + size then return none
  else
    let bytes ← readBytes data 4 size
    let port ← readPort data (4 + size)
    let n ← payloadSize data (6 + size)
    let payload ← readBytes data (6 + size) n
    return some ({ type := type, bytes := bytes, port := port }, payload)

/-- The parser of `OnData` of a UDP channel. -/
def parseUdpPacket (data : Bytes) : Except Fault (Option (NetAddress × Bytes)) := do
  if data.length < 4 then return none
  else
    let rsv ← readPort data 0
    if rsv ≠ 0 then return none
    else
      let fragment ← readByte data 2
      if fragment ≠ 0 then return none
      else
        let aType ← readByte data 3
        if aType = 1 then parseUdpAddress data .ipv4 4
        else if aType = 4 then parseUdpAddress data .ipv6 16
        else return none

theorem readByte_eq {i : ℕ} (hi : i < data.length) : readByte data i = .ok (data.getD i 0) :=
  if_pos hi

theorem readPort_eq {i : ℕ} (hi : i + 1 < data.length) :
    readPort data i = .ok (256 * (data.getD i 0).toNat + (data.getD (i + 1) 0).toNat) := by
  rw [readPort, readByte_eq (by omega), readByte_eq hi]
  rfl

/-- An address that is there is read, and all that follows it. -/
theorem parseUdpAddress_eq (type : AddressType) (size : ℕ) :
    parseUdpAddress data type size = .ok (if data.length < 6 + size then none
      else some ({ type := type, bytes := (data.drop 4).take size, port :=
        256 * (data.getD (4 + size) 0).toNat + (data.getD (4 + size + 1) 0).toNat },
        data.drop (6 + size))) := by
  rw [parseUdpAddress]
  split
  · rfl
  · next hlength =>
    have hpayload : (data.drop (6 + size)).take (data.length - (6 + size)) = data.drop (6 + size) :=
      List.take_of_length_le (by rw [List.length_drop])
    rw [readBytes, if_pos (by omega), readPort_eq (by omega), payloadSize, if_pos (by omega),
      ← hpayload]
    change (readBytes data (6 + size) (data.length - (6 + size)) >>= _) = _
    rw [readBytes, if_pos (by omega)]
    rfl

/-- The parser reads only bytes of the datagram, and the size of the payload does not underflow. -/
theorem parseUdpPacket_eq (data : Bytes) : parseUdpPacket data = .ok (readUdpPacket data) := by
  rw [parseUdpPacket, readUdpPacket]
  split
  · rfl
  next hlength =>
  have hrsv : 256 * (data.getD 0 0).toNat + (data.getD 1 0).toNat ≠ 0 ↔
      data.getD 0 0 ≠ 0 ∨ data.getD 1 0 ≠ 0 := by
    rw [← not_and_or, not_iff_not, ← UInt8.toNat_inj, ← UInt8.toNat_inj, UInt8.toNat_zero]
    omega
  rw [readPort_eq (by omega)]
  change (if 256 * (data.getD 0 0).toNat + (data.getD 1 0).toNat ≠ 0 then _ else _) = _
  by_cases h₁ : data.getD 0 0 ≠ 0 ∨ data.getD 1 0 ≠ 0
  · rw [if_pos (hrsv.2 h₁), if_pos h₁]
    rfl
  rw [if_neg (mt hrsv.1 h₁), if_neg h₁, readByte_eq (by omega)]
  change (if data.getD 2 0 ≠ 0 then _ else _) = _
  by_cases h₂ : data.getD 2 0 ≠ 0
  · rw [if_pos h₂, if_pos h₂]
    rfl
  rw [if_neg h₂, if_neg h₂, readByte_eq (by omega)]
  change (if data.getD 3 0 = 1 then _ else if data.getD 3 0 = 4 then _ else _) = _
  rw [parseUdpAddress_eq, parseUdpAddress_eq]
  split_ifs <;> rfl

/-! ## Confinement -/

/-- The UDP channel is for the ip of the connection. -/
structure ConfinedTo (udpChannel : ClientUdpChannel) (c : ClientConnection) : Prop where
  clientIpCheckAddress : udpChannel.clientIpCheckAddress = c.remoteAddress.ip
  lastClientIpAddress : udpChannel.lastClientIpAddress.isSet →
    udpChannel.lastClientIpAddress.ip = c.remoteAddress.ip

/-- Every UDP channel is for the ip of its connection. -/
def Confined (s : ProxyAccessService σ) : Prop :=
  ∀ i x c, s.clientUdpChannelPool.get i = some x →
    s.clientConnectionPool.get x.parentConnection = some c → ConfinedTo x c

theorem confined_init (services : σ) : Confined (init services) := by
  intro i x c hx
  cases hx

/-- A connection keeps its address, so that channels that come from confined ones are confined. -/
theorem Confined.of_comes (hs : Sound s) (hi : Confined s) (hl : Later s t) (h : Comes P s t) :
    Confined t := by
  intro i y c' hy hc'
  rcases h i y hy with ⟨x, hx, hyx⟩ | ⟨c, hc, hnew⟩
  · obtain ⟨c₀, hc₀, -⟩ := hs.exists_parent hx
    rw [hyx.parentConnection] at hc'
    obtain ⟨c, hc, hrem, -⟩ := hl.connection _ c' (Storage.le_lastId_of_get hc₀) hc'
    obtain ⟨hcheck, hlast⟩ := hi i x c hx hc
    refine ⟨by rw [hyx.clientIpCheckAddress, hcheck, hrem], fun hset => ?_⟩
    rw [hrem]
    rcases hyx.lastClientIpAddress with heq | heq
    · rw [heq] at hset ⊢
      exact hlast hset
    · rw [heq, hcheck]
  · obtain ⟨c₀, hc₀, hrem, -⟩ := hl.connection _ c' (Storage.le_lastId_of_get hc) hc'
    rw [hc] at hc₀
    cases hc₀
    refine ⟨by rw [hnew.clientIpCheckAddress, hrem], fun hset => ?_⟩
    rw [hnew.lastClientIpAddress] at hset
    cases hset

/-- A step keeps the channels confined. -/
theorem Confined.step {e : ProxyEvent} (hs : Sound s) (hi : Confined s)
    (h : ProxyAccessService.step S P s e = .ok t) : Confined t :=
  hi.of_comes hs ((step_turns hs h).later hs) (step_comes hs h)

/-- In every state reached, the channels are confined. -/
theorem confined_of_exec {services : σ} {es : List ProxyEvent}
    (h : exec (step S P) (init services) es = .ok s) : Confined s := by
  have hboth : Sound s ∧ Confined s := exec_invariant (I := fun s => Sound s ∧ Confined s)
    (fun s e t hi h => ⟨step_sound s e t hi.1 h, hi.2.step hi.1 h⟩)
    ⟨sound_init services, confined_init services⟩ h
  exact hboth.2

/-! ## Datagrams relayed and sent -/

/-- From `s`, a datagram is relayed only if it comes from the ip of the client of its channel, and
    then it is its payload that is relayed, to its target. -/
def RelaysOwn (S : Services σ) (P : Platform) (s : ProxyAccessService σ) : Prop :=
  ∀ i data sourceAddress, ∃ t, step S P s (.onUdpData i data sourceAddress) = .ok t ∧
    (t.calls = s.calls ∨ ∃ x c targetAddress payload, s.clientUdpChannelPool.get i = some x ∧
      s.clientConnectionPool.get x.parentConnection = some c ∧
      sourceAddress.ip = c.remoteAddress.ip ∧
      readUdpPacket data = some (targetAddress, payload) ∧ payload ≠ [] ∧
      t.calls = s.calls ++
        [.relayPostUdpData c.connectionId x.relaySideUdpChannelId targetAddress payload])

/-- From `s`, a datagram is sent only to an address with the ip of the client of its channel, and
    then it is the one that holds the data behind its source. -/
def SendsOwn (S : Services σ) (P : Platform) (s : ProxyAccessService σ) : Prop :=
  ∀ i sourceAddress data, ∃ t, step S P s (.postUdpData i sourceAddress data) = .ok t ∧
    (t.calls = s.calls ∨ ∃ x c, s.clientUdpChannelPool.get i = some x ∧
      s.clientConnectionPool.get x.parentConnection = some c ∧
      x.lastClientIpAddress.ip = c.remoteAddress.ip ∧ data.length < paMaxUdpPacketSize ∧
      t.calls = s.calls ++
        [.postUdp c.connectionId x.lastClientIpAddress (udpDatagram sourceAddress data)])

/-- From `s`, a datagram built as `PostData` builds it, of the client of a channel that is ready, is
    relayed: its payload, to its target. -/
def RelaysFramed (S : Services σ) (P : Platform) (s : ProxyAccessService σ) : Prop :=
  ∀ i x c sourceAddress targetAddress data, s.clientUdpChannelPool.get i = some x →
    s.clientConnectionPool.get x.parentConnection = some c → x.relaySideUdpChannelId ≠ 0 →
    sourceAddress.ip = c.remoteAddress.ip → IsS5Target (.address targetAddress) → data ≠ [] →
    ∃ t, step S P s (.onUdpData i (udpDatagram targetAddress data) sourceAddress) = .ok t ∧
      t.calls = s.calls ++
        [.relayPostUdpData c.connectionId x.relaySideUdpChannelId targetAddress data]

/-- From `s`, what comes for a channel whose client is known and is to be kept is sent there, behind
    its source. -/
def SendsFramed (S : Services σ) (P : Platform) (s : ProxyAccessService σ) : Prop :=
  ∀ i x c sourceAddress data, s.clientUdpChannelPool.get i = some x →
    s.clientConnectionPool.get x.parentConnection = some c → c.deleteMark = false →
    x.lastClientIpAddress.isSet → IsS5Target (.address sourceAddress) → 1 ≤ data.length →
    data.length ≤ paMaxUdpPacketSize - 1 →
    ∃ t, step S P s (.postUdpData i sourceAddress data) = .ok t ∧
      t.calls = s.calls ++
        [.postUdp c.connectionId x.lastClientIpAddress (udpDatagram sourceAddress data)]

theorem relaysOwn (hs : Sound s) (hi : Confined s) : RelaysOwn S P s := by
  intro i data a
  change ∃ t, s.onUdpChannel i _ = .ok t ∧ _
  unfold onUdpChannel
  cases hx : s.clientUdpChannelPool.get i with
  | none => exact ⟨s, rfl, .inl rfl⟩
  | some x =>
    obtain ⟨c, hc, -⟩ := hs.exists_parent hx
    dsimp only
    rw [onUdpData]
    split
    · exact ⟨s, rfl, .inl rfl⟩
    split
    · exact ⟨s, rfl, .inl rfl⟩
    next hip =>
    rw [hc]
    dsimp only
    generalize hs₁ : ({ s with clientUdpChannelPool :=
      s.clientUdpChannelPool.set i { x with lastClientIpAddress := a } } :
        ProxyAccessService σ) = s₁
    generalize hc₁ : ({ c with totalUdpBytesFromClient :=
      c.totalUdpBytesFromClient + data.length.toUInt64 } : ClientConnection) = c₁
    have hcalls : ((keepAlive s₁ c₁).getD (s₁, c₁)).1.calls = s.calls := by
      rw [(keepAlive_rest s₁ c₁).2.2, ← hs₁]
    have hid : ((keepAlive s₁ c₁).getD (s₁, c₁)).2.connectionId = c.connectionId := by
      rw [← hc₁]
      unfold keepAlive
      split <;> rfl
    cases hread : readUdpPacket data with
    | none => exact ⟨_, rfl, .inl hcalls⟩
    | some p =>
      obtain ⟨targetAddress, payload⟩ := p
      dsimp only
      split
      · exact ⟨_, rfl, .inl hcalls⟩
      next hpayload =>
      refine ⟨_, rfl, .inr ⟨x, c, targetAddress, payload, rfl, hc, ?_, rfl, hpayload, ?_⟩⟩
      · rw [not_not.1 hip]
        exact (hi i x c hx hc).clientIpCheckAddress
      · change ((keepAlive s₁ c₁).getD (s₁, c₁)).1.calls ++ _ = _
        rw [hcalls, hid]

theorem sendsOwn (hs : Sound s) (hi : Confined s) : SendsOwn S P s := by
  intro i a data
  change ∃ t, s.onUdpChannel i _ = .ok t ∧ _
  unfold onUdpChannel
  cases hx : s.clientUdpChannelPool.get i with
  | none => exact ⟨s, rfl, .inl rfl⟩
  | some x =>
    obtain ⟨c, hc, -⟩ := hs.exists_parent hx
    dsimp only
    rw [postUdpData]
    split
    · exact ⟨s, rfl, .inl rfl⟩
    next hsize =>
    split
    · exact ⟨s, rfl, .inl rfl⟩
    next hset =>
    rw [hc]
    dsimp only
    split
    · exact ⟨s, rfl, .inl rfl⟩
    next s₁ c₁ hk =>
    obtain ⟨-, rfl, rfl⟩ := keepAlive_eq_some hk
    split
    · exact ⟨_, rfl, .inl rfl⟩
    · exact ⟨_, rfl, .inr ⟨x, c, rfl, hc,
        (hi i x c hx hc).lastClientIpAddress (by simpa using hset), not_le.1 hsize, rfl⟩⟩

theorem relaysFramed (hi : Confined s) : RelaysFramed S P s := by
  intro i x c a target data hx hc hready hip htarget hdata
  change ∃ t, s.onUdpChannel i _ = .ok t ∧ _
  rw [onUdpChannel, hx]
  dsimp only
  rw [onUdpData, if_neg hready, (hi i x c hx hc).clientIpCheckAddress, if_neg (not_not.2 hip), hc]
  dsimp only
  rw [readUdpPacket_udpDatagram htarget]
  dsimp only
  rw [if_neg hdata]
  refine ⟨_, rfl, ?_⟩
  unfold keepAlive
  split <;> rfl

theorem sendsFramed : SendsFramed S P s := by
  intro i x c a data hx hc hmark hset ha _ hle
  have hsize : ¬paMaxUdpPacketSize ≤ data.length := not_le.2 (Nat.lt_of_le_pred (by decide) hle)
  have haset : a.isSet = true := by
    obtain ⟨⟨htype, -⟩ | ⟨htype, -⟩, -⟩ := ha <;> simp [NetAddress.isSet, htype]
  change ∃ t, s.onUdpChannel i _ = .ok t ∧ _
  rw [onUdpChannel, hx]
  dsimp only
  rw [postUdpData, if_neg hsize, hset, hc]
  dsimp only
  rw [keepAlive, hmark, haset]
  exact ⟨_, rfl, rfl⟩

/-- In every run, only datagrams from the ip of a client are relayed for it, and datagrams are only
    sent to its ip; what is sent is framed, is read back as it was written, and fits its buffer; and
    no parse reads beyond a datagram. -/
theorem udp_confined (services : σ) (es : List ProxyEvent) (s : ProxyAccessService σ)
    (h : exec (step S P) (init services) es = .ok s) :
    RelaysOwn S P s ∧ SendsOwn S P s ∧ RelaysFramed S P s ∧ SendsFramed S P s ∧
      (∀ a data, IsS5Target (.address a) → 1 ≤ data.length →
        data.length ≤ paMaxUdpPacketSize - 1 →
        (udpDatagram a data).length ≤ paMaxUdpPacketSize + paUdpReservedHeaderSize ∧
          readUdpPacket (udpDatagram a data) = some (a, data)) ∧
      ∀ data, parseUdpPacket data = .ok (readUdpPacket data) := by
  have hs := sound_of_exec h
  have hi := confined_of_exec h
  refine ⟨relaysOwn hs hi, sendsOwn hs hi, relaysFramed hi, sendsFramed,
    fun a data ha hne hle => ⟨?_, ?_⟩, parseUdpPacket_eq⟩
  · exact length_udpDatagram ha (Nat.lt_of_le_pred (by decide) hle)
  · exact readUdpPacket_udpDatagram ha data

/-- A service that grants a device, and a UDP channel. -/
def associatingServices : Services Unit :=
  { grantingServices with
    acquireDevice := fun _ _ _ => ((), .ready (some { relayServerId := 3, relaySideDeviceId := 5 }))
    createUdpChannel := fun _ _ _ _ _ => ((), .ready (some 9)) }

/-- A client that gets a UDP association. -/
def associatingClient : List ProxyEvent :=
  [.tick 200000, .onNewConnection localAddress localAddress true, .onData 1 [5, 1, 0],
    .tick 200001, .onData 1 [5, 3, 0, 1, 0, 0, 0, 0, 0, 0], .tick 200002]

/-- The client's port for datagrams. -/
def datagramAddress : NetAddress := { localAddress with port := 9 }

/-- A datagram of the client, from another port. -/
def clientDatagram : ProxyEvent := .onUdpData 1 (udpDatagram localAddress [42]) datagramAddress

/-- After its first datagram, a client is sent what its target answers; and each of the two goes out
    as the theorem says. -/
theorem udp_confined_sample :
    ∃ s t x c, exec (step associatingServices localPlatform) (init ())
        (associatingClient ++ [clientDatagram]) = .ok s ∧
      s.clientUdpChannelPool.get 1 = some x ∧ s.clientConnectionPool.get 1 = some c ∧
      x.relaySideUdpChannelId = 9 ∧ x.lastClientIpAddress = datagramAddress ∧
      step associatingServices localPlatform s (.postUdpData 1 localAddress [43, 44]) = .ok t ∧
      t.calls = s.calls ++ [.postUdp 1 datagramAddress (udpDatagram localAddress [43, 44])] ∧
      ∃ t', step associatingServices localPlatform s clientDatagram = .ok t' ∧
        t'.calls = s.calls ++ [.relayPostUdpData 1 9 localAddress [42]] := by
  obtain ⟨s, hs, hp⟩ := exists_ok_of_check
    (x := exec (step associatingServices localPlatform) (init ())
      (associatingClient ++ [clientDatagram]))
    (p := fun s => ∃ x ∈ s.clientUdpChannelPool.get 1, ∃ c ∈ s.clientConnectionPool.get 1,
      x.relaySideUdpChannelId = 9 ∧ x.lastClientIpAddress = datagramAddress ∧
        x.parentConnection = 1 ∧ c.deleteMark = false ∧ c.connectionId = 1 ∧
        c.remoteAddress.ip = datagramAddress.ip)
    (by decide +kernel)
  obtain ⟨x, hx, c, hc, hready, hlast, hparent, hmark, hid, hip⟩ := of_decide_eq_true hp
  have htarget : IsS5Target (.address localAddress) := ⟨.inl ⟨rfl, rfl⟩, by decide⟩
  obtain ⟨-, -, hrelays, hsends, -⟩ := udp_confined () (associatingClient ++ [clientDatagram]) s hs
  have hc' : s.clientConnectionPool.get x.parentConnection = some c := by rw [hparent]; exact hc
  obtain ⟨t, ht, hcalls⟩ := hsends 1 x c localAddress [43, 44] hx hc' hmark
    (by rw [hlast]; rfl) htarget (by decide) (by decide)
  obtain ⟨t', ht', hcalls'⟩ := hrelays 1 x c datagramAddress localAddress [42] hx hc'
    (by rw [hready]; decide) hip.symm htarget (by decide)
  rw [hid, hlast] at hcalls
  rw [hid, hready] at hcalls'
  exact ⟨s, t, x, c, hs, hx, hc, hready, hlast, ht, hcalls, t', ht', hcalls'⟩

end ProxyPlatform.ProxyAccessService
