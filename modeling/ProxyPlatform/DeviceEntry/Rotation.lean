import ProxyPlatform.Base.RoundRobin
import ProxyPlatform.DeviceEntry.Offer

/-!
# The relays of a list take turns

`GetRelayServerByDeviceIp` takes the head of the list of the device's country and family, and
puts it back at the tail. The nodes are also those of the slots, and the calls for one list come
between those for others.

* `getRelayServerByDeviceIp_cases`: what a lookup does, and what it returns;
* `nodes_getRelayServerByDeviceIp`: it turns its own list by one, and leaves the others;
* `returned_inTurn`: as long as no relay that comes or goes changes a list, the relays returned
  from it take turns.
-/

namespace ProxyPlatform.LocalRelayInfoManager

/-- The list of which a device at `D` is offered a relay. -/
def listFor (m : LocalRelayInfoManager) (D : NetAddress) : Option RelayList :=
  match m.regionService with
  | none => none
  | some getRegion => (getRegion D).map fun c => if D.is4 then .v4 c else .v6 c

/-- The relays of the list `ℓ` that a call returns, one or none, and with which address. -/
def returned (ℓ : RelayList) (m : LocalRelayInfoManager) : ManagerCall → List (ℕ × NetAddress)
  | .get D =>
    if m.listFor D = some ℓ then
      match (m.relayInfoListByCountry.nodes ℓ).head?, m.getRelayServerByDeviceIp D with
      | some first, .ok (relayAddress, _) => [(first, relayAddress)]
      | _, _ => []
    else []
  | .update _ => []
  | .remove _ => []

/-- The call does not change the list `ℓ`, unless it is a lookup. -/
def Leaves (extractIndex : ℕ → ℕ) (ℓ : RelayList) (m : LocalRelayInfoManager) : ManagerCall → Prop
  | .update serverInfo =>
    (m.updateRelayServerInfo extractIndex serverInfo).relayInfoListByCountry.nodes ℓ =
      m.relayInfoListByCountry.nodes ℓ
  | .remove serverId =>
    (m.removeRelayServerInfo extractIndex serverId).relayInfoListByCountry.nodes ℓ =
      m.relayInfoListByCountry.nodes ℓ
  | .get _ => True

variable {extractIndex : ℕ → ℕ} {m m' : LocalRelayInfoManager} {ℓ : RelayList} {D : NetAddress}

/-! ## A lookup -/

/-- A lookup returns the relay at the head of the list of the device, if there is one, and moves it
    to the tail; else nothing changes. -/
theorem getRelayServerByDeviceIp_cases {relayAddress : NetAddress}
    (h : m.getRelayServerByDeviceIp D = .ok (relayAddress, m')) :
    (∃ list first l, m.listFor D = some list ∧
      m.relayInfoListByCountry.nodes list = first :: l ∧
      relayAddress = (m.fullRelayInfoList first).exportDeviceEntryAddress ∧
      m' = { m with relayInfoListByCountry := m.relayInfoListByCountry.grabTail list first }) ∨
    (∀ list, m.listFor D = some list → m.relayInfoListByCountry.nodes list = []) ∧ m' = m := by
  rw [getRelayServerByDeviceIp] at h
  rcases hregion : m.regionService with _ | getRegion
  · simp only [hregion] at h
    cases h
  · rcases hc : getRegion D with _ | c
    · simp only [hregion, hc] at h
      cases h
      exact .inr ⟨fun list hlist => by simp [listFor, hregion, hc] at hlist, rfl⟩
    · have hlist : m.listFor D = some (if D.is4 then .v4 c else .v6 c) := by
        simp only [listFor, hregion, hc, Option.map_some]
      simp only [hregion, hc] at h
      generalize (if D.is4 then RelayList.v4 c else .v6 c) = list at h hlist
      rcases hnodes : m.relayInfoListByCountry.nodes list with _ | ⟨first, l⟩
      · rw [Linked.popHead_eq_none.2 hnodes] at h
        cases h
        exact .inr ⟨fun list' hlist' => Option.some.inj (hlist.symm.trans hlist') ▸ hnodes, rfl⟩
      · rw [Linked.popHead_of_cons hnodes] at h
        cases h
        exact .inl ⟨list, first, l, hlist, hnodes, rfl, by rw [Linked.grabTail_unlink, ← hregion]⟩

/-- A lookup turns the list of the device by one, and leaves the others. -/
theorem nodes_getRelayServerByDeviceIp {relayAddress : NetAddress}
    (h : m.getRelayServerByDeviceIp D = .ok (relayAddress, m')) (ℓ : RelayList) :
    m'.relayInfoListByCountry.nodes ℓ =
      if m.listFor D = some ℓ then (m.relayInfoListByCountry.nodes ℓ).rotate 1
      else m.relayInfoListByCountry.nodes ℓ := by
  rcases getRelayServerByDeviceIp_cases h with ⟨list, first, l, hlist, hnodes, -, rfl⟩ | ⟨hnil, rfl⟩
  · rw [hlist]
    by_cases hℓ : ℓ = list
    · subst hℓ
      rw [if_pos rfl, hnodes, List.rotate_cons_succ, List.rotate_zero]
      exact Linked.nodes_grabTail_of_cons hnodes
    · rw [if_neg fun heq => hℓ (Option.some.inj heq).symm]
      exact Linked.nodes_grabTail_of_mem (by simp [hnodes]) hℓ
  · split
    · next hlist => rw [hnil ℓ hlist, List.rotate_nil]
    · rfl

/-- A lookup keeps the nodes of every list. -/
theorem perm_getRelayServerByDeviceIp {relayAddress : NetAddress}
    (h : m.getRelayServerByDeviceIp D = .ok (relayAddress, m')) (ℓ : RelayList) :
    (m'.relayInfoListByCountry.nodes ℓ).Perm (m.relayInfoListByCountry.nodes ℓ) := by
  rw [nodes_getRelayServerByDeviceIp h]
  split
  · exact List.rotate_perm _ 1
  · exact .refl _

/-- What a lookup returns from a list, with the address it has then. -/
theorem returned_get {relayAddress : NetAddress}
    (h : m.getRelayServerByDeviceIp D = .ok (relayAddress, m')) (ℓ : RelayList) :
    returned ℓ m (.get D) =
      if m.listFor D = some ℓ then
        (turns 1 (m.relayInfoListByCountry.nodes ℓ)).map fun i =>
          (i, (m.fullRelayInfoList i).exportDeviceEntryAddress)
      else [] := by
  rw [returned]
  split
  · next hlist =>
    rcases getRelayServerByDeviceIp_cases h with ⟨list, first, l, hlist', hnodes, haddress, -⟩ | ⟨hnil, -⟩
    · rw [hlist, Option.some_inj] at hlist'
      subst hlist'
      rw [h, hnodes, haddress]
      rfl
    · rw [hnil ℓ hlist]
      rfl
  · rfl

/-! ## Runs -/

/-- One call turns the list by as many as it returns from it. -/
theorem call_turns {c : ManagerCall} (h : call extractIndex m c = .ok m')
    (hc : Leaves extractIndex ℓ m c) :
    ∃ k, (returned ℓ m c).map Prod.fst = turns k (m.relayInfoListByCountry.nodes ℓ) ∧
      m'.relayInfoListByCountry.nodes ℓ = (m.relayInfoListByCountry.nodes ℓ).rotate k := by
  rcases c with serverInfo | serverId | D
  · cases h
    exact ⟨0, rfl, hc.trans (List.rotate_zero _).symm⟩
  · cases h
    exact ⟨0, rfl, hc.trans (List.rotate_zero _).symm⟩
  · rw [call] at h
    split at h
    · cases h
    next relayAddress m₁ hget =>
    cases h
    rw [returned_get hget, nodes_getRelayServerByDeviceIp hget]
    split
    · refine ⟨1, ?_, rfl⟩
      rw [List.map_map]
      exact List.map_id _
    · exact ⟨0, rfl, (List.rotate_zero _).symm⟩

/-- Calls that leave the list but for lookups turn it by as many as they return from it. -/
theorem exec_turns {es : List ManagerCall} (h : exec (call extractIndex) m es = .ok m')
    (hes : Along (call extractIndex) (Leaves extractIndex ℓ) m es) :
    ∃ k, (collectAlong (call extractIndex) (returned ℓ) m es).map Prod.fst =
        turns k (m.relayInfoListByCountry.nodes ℓ) ∧
      m'.relayInfoListByCountry.nodes ℓ = (m.relayInfoListByCountry.nodes ℓ).rotate k := by
  induction es generalizing m with
  | nil =>
    cases h
    exact ⟨0, rfl, (List.rotate_zero _).symm⟩
  | cons c es ih =>
    obtain ⟨m₁, hm₁, h⟩ := exec_cons_eq_ok.1 h
    obtain ⟨j, hj, hnodes⟩ := call_turns hm₁ hes.1
    obtain ⟨k, hk, hnodes'⟩ := ih h (hes.2 m₁ hm₁)
    refine ⟨j + k, ?_, ?_⟩
    · simp only [collectAlong, hm₁, List.map_append]
      rw [hj, hk, hnodes, turns_add]
    · rw [hnodes', hnodes, List.rotate_rotate]

/-- As long as the relays that come and go do not change a list, those returned from it take turns:
    as many in a row as there are in the list are those of the list, each once. A relay is returned
    with the address it has then, and a lookup takes no node out of any list, adds none, and has
    none there twice. -/
theorem returned_inTurn (extractIndex : ℕ → ℕ) (ℓ : RelayList) (m m' : LocalRelayInfoManager)
    (es : List ManagerCall) (h : exec (call extractIndex) m es = .ok m')
    (hes : Along (call extractIndex) (Leaves extractIndex ℓ) m es) :
    InTurn (m.relayInfoListByCountry.nodes ℓ)
        ((collectAlong (call extractIndex) (returned ℓ) m es).map Prod.fst) ∧
      (m'.relayInfoListByCountry.nodes ℓ).Perm (m.relayInfoListByCountry.nodes ℓ) ∧
      ∀ pre D t, pre ++ [.get D] <+: es → exec (call extractIndex) m pre = .ok t →
        ∃ relayAddress u, t.getRelayServerByDeviceIp D = .ok (relayAddress, u) ∧
          (∀ x ∈ returned ℓ t (.get D), x.1 ∈ t.relayInfoListByCountry.nodes ℓ ∧
            x.2 = (t.fullRelayInfoList x.1).exportDeviceEntryAddress ∧ x.2 = relayAddress) ∧
          ∀ k, (u.relayInfoListByCountry.nodes k).Nodup ∧
            (u.relayInfoListByCountry.nodes k).Perm (t.relayInfoListByCountry.nodes k) := by
  obtain ⟨k, hk, hnodes⟩ := exec_turns h hes
  refine ⟨?_, ?_, fun pre D t hpre ht => ?_⟩
  · rw [hk]
    exact inTurn_turns (.refl _) k
  · rw [hnodes]
    exact List.rotate_perm _ k
  · obtain ⟨post, rfl⟩ := hpre
    rw [List.append_assoc] at h
    obtain ⟨t', ht', hrest⟩ := exec_append_eq_ok.1 h
    rw [ht] at ht'
    cases ht'
    obtain ⟨u, hu, -⟩ := exec_cons_eq_ok.1 hrest
    rw [call] at hu
    split at hu
    · cases hu
    next relayAddress u' hget =>
    refine ⟨relayAddress, u', hget, fun x hx => ?_, fun k =>
      ⟨u'.relayInfoListByCountry.nodup k, perm_getRelayServerByDeviceIp hget k⟩⟩
    rw [returned] at hx
    split at hx
    · next hlist =>
      rcases getRelayServerByDeviceIp_cases hget with
        ⟨list, first, l, hlist', hnodes, haddress, -⟩ | ⟨hnil, -⟩
      · rw [hlist, Option.some_inj] at hlist'
        subst hlist'
        rw [hget, hnodes] at hx
        obtain rfl := List.mem_singleton.1 hx
        exact ⟨by simp [hnodes], haddress, rfl⟩
      · rw [hnil ℓ hlist] at hx
        cases hx
    · cases hx

instance (extractIndex : ℕ → ℕ) (ℓ : RelayList) (m : LocalRelayInfoManager) (c : ManagerCall) :
    Decidable (Leaves extractIndex ℓ m c) := by
  cases c <;> (unfold Leaves; infer_instance)

/-- Two relays of the country 7 and one of the country 8; the country of an address is its port. -/
def threeRelays : LocalRelayInfoManager :=
  [1, 2, 3].foldl
    (fun m i => m.updateRelayServerInfo id
      { serverId := i
        exportDeviceEntryAddress := { type := .ipv4, bytes := [], port := if i = 3 then 8 else 7 } })
    { regionService := some fun a => some a.port }

/-- Devices of both countries that ask for relays, and a relay of the other country that goes. -/
def mixedLookups : List ManagerCall :=
  [.get { type := .ipv4, port := 7 }, .get { type := .ipv4, port := 8 }, .remove 3,
    .get { type := .ipv6, port := 7 }, .get { type := .ipv4, port := 7 }]

theorem returned_inTurn_mixedLookups :
    Along (call id) (Leaves id (.v4 7)) threeRelays mixedLookups ∧
      InTurn (threeRelays.relayInfoListByCountry.nodes (.v4 7))
        ((collectAlong (call id) (returned (.v4 7)) threeRelays mixedLookups).map Prod.fst) := by
  have hes : Along (call id) (Leaves id (.v4 7)) threeRelays mixedLookups :=
    along_of_check (by decide +kernel)
  obtain ⟨m', hm', -⟩ := exists_ok_of_check (x := exec (call id) threeRelays mixedLookups)
    (p := fun _ => true) (by decide +kernel)
  exact ⟨hes, (returned_inTurn id (.v4 7) threeRelays m' mixedLookups hm' hes).1⟩

example : (collectAlong (call id) (returned (.v4 7)) threeRelays mixedLookups).map Prod.fst =
    [1, 2] := by decide +kernel

end ProxyPlatform.LocalRelayInfoManager
