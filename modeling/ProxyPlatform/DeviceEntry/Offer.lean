import ProxyPlatform.DeviceEntry.Basic

/-!
# The relay offered to a device

A device is offered one of the relays registered in its country. Which those are is said
by the history of the calls alone (`registered`): a relay is registered at the index of its
id until it is removed, or another one takes its place.

* `listed_of_exec`: after any calls, the lists are those of the registered relays, each in
  the list `listOf` its address. There is nothing in the `V6` lists, as a relay with an
  IPv6 address is put into the `V4` list of its country;
* `offersOwnKind_iff`: so a device is offered a relay of its own family only if no IPv6
  relay is in the way: at the head of the `V4` list for an IPv4 device, anywhere in the
  country for an IPv6 device.
-/

namespace ProxyPlatform.LocalRelayInfoManager

/-- A call of the manager. -/
inductive ManagerCall
  | update (serverInfo : LocalRelayInfoBase)
  | remove (serverId : ℕ)
  | get (deviceAddress : NetAddress)

variable (extractIndex : ℕ → ℕ)

/-- The manager after a call. -/
def call (m : LocalRelayInfoManager) : ManagerCall → Except Fault LocalRelayInfoManager
  | .update serverInfo => .ok (m.updateRelayServerInfo extractIndex serverInfo)
  | .remove serverId => .ok (m.removeRelayServerInfo extractIndex serverId)
  | .get deviceAddress => match m.getRelayServerByDeviceIp deviceAddress with
    | .error x => .error x
    | .ok (_, m) => .ok m

/-! ## What is registered -/

/-- A call registers a relay at its index, or takes the one out that is registered there. -/
def register (R : ℕ → Option LocalRelayInfoBase) : ManagerCall → ℕ → Option LocalRelayInfoBase
  | .update serverInfo =>
    if extractIndex serverInfo.serverId < maxRelayServerListSize then
      Function.update R (extractIndex serverInfo.serverId) (some serverInfo)
    else R
  | .remove serverId =>
    if (R (extractIndex serverId)).map LocalRelayInfoBase.serverId = some serverId then
      Function.update R (extractIndex serverId) none
    else R
  | .get _ => R

/-- The relays registered by the calls `es`, by their indices. -/
def registered (es : List ManagerCall) : ℕ → Option LocalRelayInfoBase :=
  es.foldl (register extractIndex) fun _ => none

/-- The relay `b` is of the country and of the family of the device address `D`. -/
def IsKind (getRegion : NetAddress → Option ℕ) (D : NetAddress) (b : LocalRelayInfoBase) : Prop :=
  getRegion b.exportDeviceEntryAddress = getRegion D ∧
    (D.is4 ∧ b.exportDeviceEntryAddress.is4 ∨ D.is6 ∧ b.exportDeviceEntryAddress.is6)

/-- The device at `D` is offered a relay when there is one of its kind, and it is one of those. -/
def OffersOwnKind (getRegion : NetAddress → Option ℕ) (R : ℕ → Option LocalRelayInfoBase)
    (m : LocalRelayInfoManager) (D : NetAddress) : Prop :=
  ∃ relayAddress m', m.getRelayServerByDeviceIp D = .ok (relayAddress, m') ∧
    (relayAddress.isSet ↔ ∃ i b, R i = some b ∧ IsKind getRegion D b) ∧
    (relayAddress.isSet →
      ∃ i b, R i = some b ∧ IsKind getRegion D b ∧ relayAddress = b.exportDeviceEntryAddress)

/-- No IPv6 relay of the country `c` is in the way of the device at `D`. -/
def Unmixed (getRegion : NetAddress → Option ℕ) (R : ℕ → Option LocalRelayInfoBase)
    (m : LocalRelayInfoManager) (D : NetAddress) (c : ℕ) : Prop :=
  (D.is4 → ∀ i, (m.relayInfoListByCountry.nodes (.v4 c)).head? = some i →
    ¬(m.fullRelayInfoList i).exportDeviceEntryAddress.is6) ∧
  (D.is6 → ∀ i b, R i = some b → getRegion b.exportDeviceEntryAddress = some c →
    ¬b.exportDeviceEntryAddress.is6)

/-! ## The lists -/

/-- The list a relay is put into. -/
def listOf (getRegion : NetAddress → Option ℕ) (b : LocalRelayInfoBase) : Option RelayList :=
  if b.exportDeviceEntryAddress.isSet then (getRegion b.exportDeviceEntryAddress).map .v4 else none

/-- Every list holds the relays that are put into it. -/
structure Listed (getRegion : NetAddress → Option ℕ) (m : LocalRelayInfoManager) : Prop where
  regionService : m.regionService = some getRegion
  mem_iff : ∀ i ℓ, i ∈ m.relayInfoListByCountry.nodes ℓ ↔
    listOf getRegion (m.fullRelayInfoList i) = some ℓ

variable {extractIndex} {getRegion : NetAddress → Option ℕ} {m m' : LocalRelayInfoManager}
  {R : ℕ → Option LocalRelayInfoBase} {D : NetAddress} {c : ℕ}

theorem listOf_eq_some {b : LocalRelayInfoBase} {ℓ : RelayList} :
    listOf getRegion b = some ℓ ↔ (b.exportDeviceEntryAddress.is4 ∨ b.exportDeviceEntryAddress.is6) ∧
      ∃ c, getRegion b.exportDeviceEntryAddress = some c ∧ ℓ = .v4 c := by
  rw [listOf, ← NetAddress.isSet_iff]
  split
  · next hset => simp [hset, eq_comm]
  · next hset => simp [hset]

theorem mem_addToCountry {index i : ℕ} {serverInfo : LocalRelayInfoBase} {ℓ : RelayList}
    (hm : m.regionService = some getRegion)
    (hindex : index ∉ m.relayInfoListByCountry.nodes ℓ) :
    i ∈ (m.addToCountry index serverInfo).relayInfoListByCountry.nodes ℓ ↔
      if i = index then listOf getRegion serverInfo = some ℓ
      else i ∈ m.relayInfoListByCountry.nodes ℓ := by
  simp only [addToCountry, hm, listOf_eq_some]
  by_cases hi : i = index
  · rcases hc : getRegion serverInfo.exportDeviceEntryAddress with _ | c
    · simp [hi, hindex]
    · split_ifs <;> simp_all [Linked.mem_grabTail]
  · rcases hc : getRegion serverInfo.exportDeviceEntryAddress with _ | c
    · simp [hi]
    · split_ifs <;> simp [Linked.mem_grabTail, hi]

theorem fullRelayInfoList_addToCountry (index : ℕ) (serverInfo : LocalRelayInfoBase) :
    (m.addToCountry index serverInfo).fullRelayInfoList = m.fullRelayInfoList := by
  rw [addToCountry]
  split
  · rfl
  · split
    · rfl
    · split_ifs <;> rfl

theorem regionService_addToCountry (index : ℕ) (serverInfo : LocalRelayInfoBase) :
    (m.addToCountry index serverInfo).regionService = m.regionService := by
  rw [addToCountry]
  split
  · rfl
  · split
    · rfl
    · split_ifs <;> rfl

/-- An update of a relay at an index in range sets what is known of it. -/
theorem fullRelayInfoList_updateRelayServerInfo {serverInfo : LocalRelayInfoBase}
    (hi : extractIndex serverInfo.serverId < maxRelayServerListSize) :
    (m.updateRelayServerInfo extractIndex serverInfo).fullRelayInfoList =
      Function.update m.fullRelayInfoList (extractIndex serverInfo.serverId) serverInfo := by
  rw [updateRelayServerInfo, if_neg (Nat.not_le.2 hi)]
  split
  · next heq => exact (Function.update_eq_self_iff.2 heq.symm).symm
  · rw [fullRelayInfoList_addToCountry]

theorem regionService_updateRelayServerInfo (serverInfo : LocalRelayInfoBase) :
    (m.updateRelayServerInfo extractIndex serverInfo).regionService = m.regionService := by
  rw [updateRelayServerInfo]
  split_ifs
  · rfl
  · rfl
  · rw [regionService_addToCountry]

theorem updateRelayServerInfo_of_le {serverInfo : LocalRelayInfoBase}
    (hi : maxRelayServerListSize ≤ extractIndex serverInfo.serverId) :
    m.updateRelayServerInfo extractIndex serverInfo = m := if_pos hi

/-- What is known of the relays after one of them is removed. -/
theorem fullRelayInfoList_removeRelayServerInfo (serverId : ℕ) :
    (m.removeRelayServerInfo extractIndex serverId).fullRelayInfoList =
      if extractIndex serverId < maxRelayServerListSize ∧
          (m.fullRelayInfoList (extractIndex serverId)).serverId = serverId then
        Function.update m.fullRelayInfoList (extractIndex serverId) {}
      else m.fullRelayInfoList := by
  rw [removeRelayServerInfo]
  by_cases hi : maxRelayServerListSize ≤ extractIndex serverId
  · rw [if_pos hi, if_neg fun h => Nat.not_lt.2 hi h.1]
  · rw [if_neg hi]
    by_cases hid : (m.fullRelayInfoList (extractIndex serverId)).serverId = serverId
    · rw [if_neg (not_not.2 hid), if_pos ⟨Nat.not_le.1 hi, hid⟩]
    · rw [if_pos hid, if_neg fun h => hid h.2]

theorem regionService_removeRelayServerInfo (serverId : ℕ) :
    (m.removeRelayServerInfo extractIndex serverId).regionService = m.regionService := by
  rw [removeRelayServerInfo]
  split_ifs <;> rfl

/-- Picking a relay moves it from the head of its list to the tail. -/
theorem rotates_of_getRelayServerByDeviceIp {relayAddress : NetAddress}
    (h : m.getRelayServerByDeviceIp D = .ok (relayAddress, m')) :
    m' = m ∨ ∃ list first l, m.relayInfoListByCountry.nodes list = first :: l ∧
      m' = { m with relayInfoListByCountry := m.relayInfoListByCountry.grabTail list first } := by
  rw [getRelayServerByDeviceIp] at h
  split at h
  · cases h
  · split at h
    · cases h
      exact .inl rfl
    · next c hc =>
      dsimp only at h
      generalize (if D.is4 then RelayList.v4 c else .v6 c) = list at h
      rcases hnodes : m.relayInfoListByCountry.nodes list with _ | ⟨first, l⟩
      · rw [Linked.popHead_eq_none.2 hnodes] at h
        cases h
        exact .inl rfl
      · rw [Linked.popHead_of_cons hnodes] at h
        cases h
        exact .inr ⟨list, first, l, hnodes, by rw [Linked.grabTail_unlink]⟩

theorem frame_getRelayServerByDeviceIp {relayAddress : NetAddress}
    (h : m.getRelayServerByDeviceIp D = .ok (relayAddress, m')) :
    m'.fullRelayInfoList = m.fullRelayInfoList ∧ m'.regionService = m.regionService := by
  rcases rotates_of_getRelayServerByDeviceIp h with rfl | ⟨list, first, l, -, rfl⟩
  · exact ⟨rfl, rfl⟩
  · exact ⟨rfl, rfl⟩

theorem exists_getRelayServerByDeviceIp (h : m.regionService ≠ none) :
    ∃ relayAddress m', m.getRelayServerByDeviceIp D = .ok (relayAddress, m') := by
  rw [getRelayServerByDeviceIp]
  split
  · exact absurd ‹_› h
  · split
    · exact ⟨_, _, rfl⟩
    · dsimp only
      split
      · exact ⟨_, _, rfl⟩
      · exact ⟨_, _, rfl⟩

namespace Listed

theorem updateRelayServerInfo (h : Listed getRegion m) (serverInfo : LocalRelayInfoBase) :
    Listed getRegion (m.updateRelayServerInfo extractIndex serverInfo) := by
  rw [LocalRelayInfoManager.updateRelayServerInfo]
  split_ifs
  · exact h
  · exact h
  · refine ⟨(regionService_addToCountry _ _).trans h.regionService, fun i ℓ => ?_⟩
    rw [fullRelayInfoList_addToCountry]
    refine (mem_addToCountry (by exact h.regionService) fun hmem => ?_).trans ?_
    · exact (Linked.mem_unlink.1 hmem).1 rfl
    dsimp only
    rw [Function.update_apply]
    split
    · rfl
    · next hi => rw [Linked.mem_unlink, h.mem_iff i ℓ, and_iff_right hi]

theorem removeRelayServerInfo (h : Listed getRegion m) (serverId : ℕ) :
    Listed getRegion (m.removeRelayServerInfo extractIndex serverId) := by
  rw [LocalRelayInfoManager.removeRelayServerInfo]
  split_ifs
  · exact h
  · exact h
  · refine ⟨h.regionService, fun i ℓ => ?_⟩
    dsimp only
    rw [Linked.mem_unlink, Function.update_apply]
    split
    · next hi => simp [hi, listOf_eq_some, NetAddress.is4, NetAddress.is6]
    · next hi => rw [h.mem_iff i ℓ, and_iff_right hi]

/-- The head of a list that is moved to its tail stays in it. -/
theorem getRelayServerByDeviceIp {relayAddress : NetAddress} (h : Listed getRegion m)
    (hm : m.getRelayServerByDeviceIp D = .ok (relayAddress, m')) : Listed getRegion m' := by
  rcases rotates_of_getRelayServerByDeviceIp hm with rfl | ⟨list, first, l, hnodes, rfl⟩
  · exact h
  · refine ⟨h.regionService, fun i ℓ => ?_⟩
    have hfirst : first ∈ m.relayInfoListByCountry.nodes list := by simp [hnodes]
    dsimp only
    rw [Linked.mem_grabTail]
    split
    · next hi =>
      rw [hi, ← h.mem_iff]
      exact ⟨fun hℓ => hℓ ▸ hfirst, fun hmem => m.relayInfoListByCountry.disjoint hmem hfirst⟩
    · exact h.mem_iff i ℓ

end Listed

/-- What is known of the relays is what is registered. -/
structure Records (R : ℕ → Option LocalRelayInfoBase) (m : LocalRelayInfoManager) : Prop where
  full : ∀ i, m.fullRelayInfoList i = (R i).getD {}
  bound : ∀ i, maxRelayServerListSize ≤ i → R i = none

namespace Records

theorem update (h : Records R m) (serverInfo : LocalRelayInfoBase) :
    Records (register extractIndex R (.update serverInfo))
      (m.updateRelayServerInfo extractIndex serverInfo) := by
  rw [register]
  split
  · next hindex =>
    refine ⟨fun i => ?_, fun i hi => ?_⟩
    · rw [fullRelayInfoList_updateRelayServerInfo hindex, Function.update_apply,
        Function.update_apply, h.full]
      split <;> rfl
    · rw [Function.update_of_ne (by omega)]
      exact h.bound i hi
  · next hindex =>
    rw [updateRelayServerInfo_of_le (Nat.not_lt.1 hindex)]
    exact h

theorem remove (h : Records R m) (serverId : ℕ) :
    Records (register extractIndex R (.remove serverId))
      (m.removeRelayServerInfo extractIndex serverId) := by
  have hfull := h.full (extractIndex serverId)
  refine ⟨fun i => ?_, fun i hi => ?_⟩
  · rw [fullRelayInfoList_removeRelayServerInfo, register]
    rcases hb : R (extractIndex serverId) with _ | b
    · -- Nothing is registered there: at most what is unset is reset.
      have hreset : Function.update m.fullRelayInfoList (extractIndex serverId) {} =
          m.fullRelayInfoList := by
        rw [hb] at hfull
        exact Function.update_eq_self_iff.2 hfull.symm
      rw [hreset, ite_self, if_neg (by simp)]
      exact h.full i
    · rw [hb] at hfull
      have hlt : extractIndex serverId < maxRelayServerListSize := by
        by_contra hle
        rw [h.bound _ (Nat.not_lt.1 hle)] at hb
        cases hb
      simp only [hlt, hfull, Option.getD_some, true_and, Option.map_some, Option.some_inj]
      split
      · rw [Function.update_apply, Function.update_apply, h.full]
        split <;> rfl
      · exact h.full i
  · rw [register]
    split
    · rw [Function.update_apply, h.bound i hi, ite_self]
    · exact h.bound i hi

end Records

/-- After any calls, the manager knows and lists what is registered. -/
theorem listed_of_exec {es : List ManagerCall}
    (h : exec (call extractIndex) { regionService := some getRegion } es = .ok m) :
    Listed getRegion m ∧ Records (registered extractIndex es) m := by
  refine exec_history
    (I := fun es m => Listed getRegion m ∧ Records (registered extractIndex es) m)
    (fun es s e t hI ht => ?_) ⟨⟨rfl, fun i ℓ => ?_⟩, ⟨fun _ => rfl, fun _ _ => rfl⟩⟩ h
  · obtain ⟨hs, hR⟩ := hI
    rw [registered, List.foldl_append, ← registered]
    rcases e with serverInfo | serverId | D
    · cases ht
      exact ⟨hs.updateRelayServerInfo serverInfo, hR.update serverInfo⟩
    · cases ht
      exact ⟨hs.removeRelayServerInfo serverId, hR.remove serverId⟩
    · simp only [call] at ht
      split at ht
      · cases ht
      · next hget =>
        cases ht
        refine ⟨hs.getRelayServerByDeviceIp hget, fun i => ?_, hR.bound⟩
        rw [(frame_getRelayServerByDeviceIp hget).1]
        exact hR.full i
  · simp [Linked.empty, listOf_eq_some, NetAddress.is4, NetAddress.is6]

/-! ## What is offered -/

theorem getRelayServerByDeviceIp_of_nil {ℓ : RelayList} (h : Listed getRegion m)
    (hD : getRegion D = some c) (hℓ : (if D.is4 then .v4 c else .v6 c) = ℓ)
    (hnodes : m.relayInfoListByCountry.nodes ℓ = []) :
    m.getRelayServerByDeviceIp D = .ok ({}, m) := by
  simp only [getRelayServerByDeviceIp, h.regionService, hD, hℓ, Linked.popHead_eq_none.2 hnodes]

theorem getRelayServerByDeviceIp_of_cons {ℓ : RelayList} {i : ℕ} {l : List ℕ}
    (h : Listed getRegion m) (hD : getRegion D = some c)
    (hℓ : (if D.is4 then .v4 c else .v6 c) = ℓ)
    (hnodes : m.relayInfoListByCountry.nodes ℓ = i :: l) :
    ∃ m', m.getRelayServerByDeviceIp D =
      .ok ((m.fullRelayInfoList i).exportDeviceEntryAddress, m') := by
  simp only [getRelayServerByDeviceIp, h.regionService, hD, hℓ, Linked.popHead_of_cons hnodes]
  exact ⟨_, rfl⟩

/-- Nothing is in a list `V6`. -/
theorem Listed.nodes_v6 (h : Listed getRegion m) :
    m.relayInfoListByCountry.nodes (.v6 c) = [] := by
  rw [List.eq_nil_iff_forall_not_mem]
  intro i hi
  obtain ⟨-, d, -, hd⟩ := listOf_eq_some.1 ((h.mem_iff i _).1 hi)
  cases hd

/-- When no relay is offered, there should be none of the kind of the device. -/
theorem offersOwnKind_of_nil (h : Listed getRegion m) (hD : getRegion D = some c)
    (hnodes : m.relayInfoListByCountry.nodes (if D.is4 then .v4 c else .v6 c) = []) :
    OffersOwnKind getRegion R m D ↔ ∀ i b, R i = some b → ¬IsKind getRegion D b := by
  have hget := getRelayServerByDeviceIp_of_nil h hD rfl hnodes
  constructor
  · rintro ⟨relayAddress, m', hget', hiff, -⟩ i b hb hkind
    rw [hget] at hget'
    cases hget'
    exact absurd (hiff.2 ⟨i, b, hb, hkind⟩) (by decide)
  · intro hnone
    refine ⟨_, _, hget, iff_of_false (by decide) ?_, fun hset => absurd hset (by decide)⟩
    rintro ⟨i, b, hb, hkind⟩
    exact hnone i b hb hkind

/-- Where a relay is offered, it is to be of the family of the device. -/
theorem offersOwnKind_of_cons {i : ℕ} {l : List ℕ} (h : Listed getRegion m) (hR : Records R m)
    (hD : getRegion D = some c) (h4 : D.is4)
    (hnodes : m.relayInfoListByCountry.nodes (.v4 c) = i :: l) :
    OffersOwnKind getRegion R m D ↔ ¬(m.fullRelayInfoList i).exportDeviceEntryAddress.is6 := by
  obtain ⟨m', hget⟩ := getRelayServerByDeviceIp_of_cons h hD (if_pos h4) hnodes
  obtain ⟨hset, d, hd, hcd⟩ := listOf_eq_some.1 ((h.mem_iff i (.v4 c)).1 (by simp [hnodes]))
  cases hcd
  obtain ⟨b, hb⟩ : ∃ b, R i = some b := by
    rcases hb : R i with _ | b
    · rw [hR.full i, hb] at hset
      exact absurd hset (by decide)
    · exact ⟨b, rfl⟩
  have hfull : m.fullRelayInfoList i = b := by rw [hR.full i, hb, Option.getD_some]
  rw [hfull] at hset hd hget ⊢
  constructor
  · rintro ⟨relayAddress, m'', hget', -, hown⟩ h6
    rw [hget] at hget'
    cases hget'
    obtain ⟨j, b', -, hkind, heq⟩ := hown ((NetAddress.isSet_iff _).2 hset)
    rw [heq] at h6
    rcases hkind.2 with ⟨-, h4'⟩ | ⟨h6', -⟩
    · exact NetAddress.not_is6 h4' h6
    · exact NetAddress.not_is6 h4 h6'
  · intro h6
    have hkind : IsKind getRegion D b := ⟨hd.trans hD.symm, .inl ⟨h4, hset.resolve_right h6⟩⟩
    refine ⟨_, m', hget, iff_of_true ((NetAddress.isSet_iff _).2 hset) ⟨i, b, hb, hkind⟩, fun _ => ?_⟩
    exact ⟨i, b, hb, hkind, rfl⟩

/-- A device is offered a relay of its own kind, if and only if no IPv6 relay is in the way. -/
theorem offersOwnKind_iff {es : List ManagerCall}
    (h : exec (call extractIndex) { regionService := some getRegion } es = .ok m)
    (hD : getRegion D = some c) :
    OffersOwnKind getRegion (registered extractIndex es) m D ↔
      Unmixed getRegion (registered extractIndex es) m D c := by
  obtain ⟨hm, hR⟩ := listed_of_exec h
  generalize registered extractIndex es = R at hR
  by_cases h4 : D.is4
  · have h6 := NetAddress.not_is6 h4
    rcases hnodes : m.relayInfoListByCountry.nodes (.v4 c) with _ | ⟨i, l⟩
    · rw [offersOwnKind_of_nil hm hD (by rw [if_pos h4, hnodes]), Unmixed, hnodes]
      refine iff_of_true (fun i b hb hkind => ?_) ⟨fun _ i hi => (by cases hi), fun h => absurd h h6⟩
      -- A relay of the kind of the device would be in the list.
      have hb4 := hkind.2.resolve_right fun h => h6 h.1
      have hmem := (hm.mem_iff i (.v4 c)).2
        (listOf_eq_some.2 (by rw [hR.full i, hb]; exact ⟨.inl hb4.2, c, hkind.1.trans hD, rfl⟩))
      rw [hnodes] at hmem
      cases hmem
    · rw [offersOwnKind_of_cons hm hR hD h4 hnodes, Unmixed, hnodes]
      simp [h4, h6]
  · rw [offersOwnKind_of_nil hm hD (by rw [if_neg h4, hm.nodes_v6])]
    constructor
    · refine fun hnone => ⟨fun h => absurd h h4, fun h6 i b hb hc hb6 => hnone i b hb ?_⟩
      exact ⟨hc.trans hD.symm, .inr ⟨h6, hb6⟩⟩
    · rintro ⟨-, hunmixed⟩ i b hb ⟨hc, hkind⟩
      obtain ⟨h6, hb6⟩ := hkind.resolve_left fun h => h4 h.1
      exact hunmixed h6 i b hb (hc.trans hD) hb6

/-- The IPv6 address that ends in `n`. -/
def ipv6Address (n : UInt8) (port : ℕ) : NetAddress where
  type := .ipv6
  bytes := [0x20, 0x01, 0x0d, 0xb8, 0, 0, 0, 0, 0, 0, 0, 0, 0, 0, 0, n]
  port := port

/-- An IPv6 relay of a country, whose addresses all are. -/
def oneIPv6Relay : List ManagerCall :=
  [.update { serverId := 1, exportDeviceEntryAddress := ipv6Address 1 7000 }]

theorem offersOwnKind_iff_oneIPv6Relay :
    ∃ m, exec (call id) { regionService := some fun _ => some 7 } oneIPv6Relay = .ok m ∧
      (OffersOwnKind (fun _ => some 7) (registered id oneIPv6Relay) m (ipv6Address 2 0) ↔
        Unmixed (fun _ => some 7) (registered id oneIPv6Relay) m (ipv6Address 2 0) 7) := by
  obtain ⟨m, hm, -⟩ := exists_ok_of_check
    (x := exec (call id) { regionService := some fun _ => some 7 } oneIPv6Relay)
    (p := fun _ => true) (by decide +kernel)
  exact ⟨m, hm, offersOwnKind_iff hm rfl⟩

/-- An IPv6 device is refused, though there is a relay of its kind. -/
theorem offersOwnKind_counterexample :
    ∃ m, exec (call id) { regionService := some fun _ => some 7 } oneIPv6Relay = .ok m ∧
      ¬OffersOwnKind (fun _ => some 7) (registered id oneIPv6Relay) m (ipv6Address 2 0) := by
  obtain ⟨m, hm, hp⟩ := exists_ok_of_check
    (x := exec (call id) { regionService := some fun _ => some 7 } oneIPv6Relay)
    (p := fun m => match m.getRelayServerByDeviceIp (ipv6Address 2 0) with
      | .ok (relayAddress, _) => !relayAddress.isSet
      | .error _ => false) (by decide +kernel)
  refine ⟨m, hm, ?_⟩
  rintro ⟨relayAddress, m', hget, hiff, -⟩
  rw [hget, Bool.not_eq_true', hiff.2 ⟨1, _, rfl, rfl, .inr ⟨rfl, rfl⟩⟩] at hp
  cases hp

end ProxyPlatform.LocalRelayInfoManager
