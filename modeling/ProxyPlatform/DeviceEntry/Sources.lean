import ProxyPlatform.DeviceEntry.Agreement

/-!
# Where the device entry has its relays from

What the device entry knows of a relay is what it has been told by a heartbeat, and so is
what it offers to a device. `Sourced P` says so of a state: `P` holds of the id and the
addresses of every relay known, where it holds of those of the heartbeats heard (`Tells`).

The relay table gets a relay from the observer when it appears, and loses it when its slot is
taken by another or it is silent; so the two are sourced together (`Sourced.onPacket`,
`Sourced.tick`), and an address that is offered is one that is in the table
(`Sourced.offered`).
-/

namespace ProxyPlatform

/-- `P` holds of the id and the address of every relay in the table, with some address for proxies. -/
def LocalRelayInfoManager.Sourced (P : ℕ → NetAddress → NetAddress → Prop)
    (m : LocalRelayInfoManager) : Prop :=
  ∀ i, m.fullRelayInfoList i ≠ {} → ∃ proxyEntryAddress,
    P (m.fullRelayInfoList i).serverId (m.fullRelayInfoList i).exportDeviceEntryAddress
      proxyEntryAddress

section

variable {P : ℕ → NetAddress → NetAddress → Prop} {extractIndex : ℕ → ℕ}
  {m m' : LocalRelayInfoManager}

namespace LocalRelayInfoManager.Sourced

theorem of_eq (h : m.Sourced P) (heq : m'.fullRelayInfoList = m.fullRelayInfoList) :
    m'.Sourced P := fun i hi => by
  rw [heq] at hi ⊢
  exact h i hi

/-- An entry of the table is taken by a relay, or emptied. -/
theorem of_update (h : m.Sourced P) {index : ℕ} {new : LocalRelayInfoBase}
    (heq : m'.fullRelayInfoList = Function.update m.fullRelayInfoList index new)
    (hnew : new ≠ {} → ∃ proxyEntryAddress, P new.serverId new.exportDeviceEntryAddress
      proxyEntryAddress) : m'.Sourced P := fun i hi => by
  rw [heq] at hi ⊢
  by_cases hindex : i = index
  · subst hindex
    rw [Function.update_self] at hi ⊢
    exact hnew hi
  · rw [Function.update_of_ne hindex] at hi ⊢
    exact h i hi

theorem remove (h : m.Sourced P) (serverId : ℕ) :
    (m.removeRelayServerInfo extractIndex serverId).Sourced P := by
  have hfull : (m.removeRelayServerInfo extractIndex serverId).fullRelayInfoList = _ :=
    fullRelayInfoList_removeRelayServerInfo serverId
  split at hfull
  · exact h.of_update hfull fun hne => absurd rfl hne
  · exact h.of_eq hfull

theorem update (h : m.Sourced P) {serverInfo : LocalRelayInfoBase} {proxyEntryAddress : NetAddress}
    (hP : P serverInfo.serverId serverInfo.exportDeviceEntryAddress proxyEntryAddress) :
    (m.updateRelayServerInfo extractIndex serverInfo).Sourced P := by
  rcases Nat.lt_or_ge (extractIndex serverInfo.serverId) maxRelayServerListSize with hlt | hle
  · exact h.of_update (fullRelayInfoList_updateRelayServerInfo hlt) fun _ => ⟨_, hP⟩
  · rw [updateRelayServerInfo_of_le hle]
    exact h

/-- The address that is offered is that of an entry of the table. -/
theorem offered (h : m.Sourced P) {deviceAddress relayAddress : NetAddress}
    (hget : m.getRelayServerByDeviceIp deviceAddress = .ok (relayAddress, m'))
    (hset : relayAddress.isSet = true) :
    ∃ serverId proxyEntryAddress, P serverId relayAddress proxyEntryAddress := by
  rw [getRelayServerByDeviceIp] at hget
  split at hget
  · cases hget
  split at hget
  · cases hget
    cases hset
  dsimp only at hget
  split at hget
  · cases hget
    cases hset
  · next first lists hpop =>
    cases hget
    have hne : m.fullRelayInfoList first ≠ {} := fun heq => by
      rw [heq] at hset
      cases hset
    exact ⟨_, h first hne⟩

end LocalRelayInfoManager.Sourced

end

namespace DeviceEntry

variable {extractIndex : ℕ → ℕ} {hexToStr : Bytes → Bytes} {s t : DeviceEntry} {nowMS : ℕ}
  {P Q : ℕ → NetAddress → NetAddress → Prop}

/-- `P` holds of the relays the device entry knows: of their ids, and of the addresses for devices
    and for proxies. -/
structure Sourced (P : ℕ → NetAddress → NetAddress → Prop) (s : DeviceEntry) : Prop where
  slot : ∀ i, (s.1.relayServerList i).serverId ≠ 0 →
    P (s.1.relayServerList i).serverId (s.1.relayServerList i).exportDeviceEntryAddress
      (s.1.relayServerList i).exportProxyEntryAddress
  table : s.2.localRelayInfoManager.Sourced P

/-- `P` holds of what a packet tells of a relay. -/
def Tells (P : ℕ → NetAddress → NetAddress → Prop) : RelayPacket → Prop
  | .heartbeatBroadcast (some b) =>
    P b.serverId b.exportDeviceEntryAddress b.exportProxyEntryAddress
  | _ => True

namespace Sourced

theorem mono (h : Sourced P s) (hPQ : ∀ id d p, P id d p → Q id d p) : Sourced Q s where
  slot i hi := hPQ _ _ _ (h.slot i hi)
  table i hi := (h.table i hi).imp fun _ hproxy => hPQ _ _ _ hproxy

theorem init (nowMS : ℕ) (getRegion : NetAddress → Option ℕ) :
    Sourced P (DeviceEntry.init nowMS getRegion) where
  slot _ hi := absurd rfl hi
  table _ hi := absurd rfl hi

/-- A slot is taken by a relay, or the relay in it is gone. -/
theorem of_update (h : Sourced P s) {index : ℕ} {new : InternalLocalRelayInfo}
    (heq : t.1.relayServerList = Function.update s.1.relayServerList index new)
    (hnew : new.serverId ≠ 0 →
      P new.serverId new.exportDeviceEntryAddress new.exportProxyEntryAddress)
    (htable : t.2.localRelayInfoManager.Sourced P) : Sourced P t where
  slot i hi := by
    rw [heq] at hi ⊢
    by_cases hindex : i = index
    · subst hindex
      rw [Function.update_self] at hi ⊢
      exact hnew hi
    · rw [Function.update_of_ne hindex] at hi ⊢
      exact h.slot i hi
  table := htable

theorem keepAlive (h : Sourced P s) (index : ℕ) : Sourced P (s.1.keepAlive index, s.2) :=
  h.of_update rfl (h.slot index) h.table

theorem kill (h : Sourced P s) (index : ℕ) :
    Sourced P (RelayInfoObserver.kill (relayCallbacks extractIndex) s index) :=
  h.of_update rfl (fun hne => absurd rfl hne) (h.table.remove _)

theorem announce (h : Sourced P s) (index : ℕ) {b : PPRelayInfoBroadcast}
    (hb : P b.serverId b.exportDeviceEntryAddress b.exportProxyEntryAddress) :
    Sourced P (RelayInfoObserver.announce (relayCallbacks extractIndex) s index b) :=
  h.of_update rfl (fun _ => hb) (h.table.update hb)

theorem onPacket (h : Sourced P s) {p : RelayPacket} (hp : Tells P p) :
    Sourced P (RelayInfoObserver.onPacket extractIndex (relayCallbacks extractIndex) s p).1 := by
  rcases p with (_ | b) | (_ | serverId) | _
  · exact h
  · simp only [RelayInfoObserver.onPacket]
    split_ifs
    · exact h
    · exact h
    · exact (h.kill _).announce _ hp
    · exact h.announce _ hp
    · exact h.keepAlive _
  · exact h
  · simp only [RelayInfoObserver.onPacket]
    split_ifs
    · exact h
    · exact h
    · exact h.kill _
    · exact h
  · exact h

theorem removeTimeoutLoop (h : Sourced P s) (killTimepoint n : ℕ) :
    Sourced P
      (RelayInfoObserver.removeTimeoutLoop (relayCallbacks extractIndex) killTimepoint n s) := by
  induction n generalizing s with
  | zero => exact h
  | succ n ih =>
    rw [RelayInfoObserver.removeTimeoutLoop]
    split
    · exact h
    · split
      · exact ih (h.kill _)
      · exact h

theorem tick (h : Sourced P s) (nowMS : ℕ) :
    Sourced P (RelayInfoObserver.tick extractIndex (relayCallbacks extractIndex) s nowMS []) := by
  have hlater : Sourced P ({ s.1 with localTicker := nowMS }, s.2) := ⟨h.slot, h.table⟩
  exact hlater.removeTimeoutLoop _ _

/-- A challenge of a device is answered with an address of the table, which is left as it is. -/
theorem onDeviceChallenge (h : Sourced P s) {req : Option PPDeviceChallenge}
    {resp : Option PPDeviceChallengeResp} {m : LocalRelayInfoManager}
    (hreq : DeviceEntry.onDeviceChallenge hexToStr s.2.localRelayInfoManager req = .ok (resp, m)) :
    Sourced P (s.1, { s.2 with localRelayInfoManager := m }) ∧
      ∀ r, resp = some r → r.accepted = true →
        ∃ serverId proxyEntryAddress, P serverId r.relayAddress proxyEntryAddress := by
  rcases req with _ | req
  · cases hreq
    exact ⟨h, fun r hr => absurd hr (by simp)⟩
  simp only [DeviceEntry.onDeviceChallenge] at hreq
  generalize (if req.addressKey4 ≠ [] then decryptAddressKey hexToStr req.addressKey4
    else if req.addressKey6 ≠ [] then decryptAddressKey hexToStr req.addressKey6 else {}) = D at hreq
  split at hreq
  · split at hreq
    · cases hreq
    · next relayAddress m' hget =>
      have hm : Sourced P (s.1, { s.2 with localRelayInfoManager := m' }) :=
        ⟨h.slot, h.table.of_eq (LocalRelayInfoManager.frame_getRelayServerByDeviceIp hget).1⟩
      split at hreq
      · next hset =>
        cases hreq
        refine ⟨hm, fun r hr _ => ?_⟩
        cases hr
        exact h.table.offered hget hset
      · cases hreq
        refine ⟨hm, fun r hr haccepted => ?_⟩
        cases hr
        cases haccepted
  · cases hreq
    exact ⟨h, fun r hr => absurd hr (by simp)⟩

end Sourced

end DeviceEntry

end ProxyPlatform
