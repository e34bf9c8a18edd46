import ProxyPlatform.RelayDispatch.Network

/-!
# The connections of the slaves to the master

A slave is connected to the master by at most one connection, and a connection is that of one
slave at most (`Wired`): the handles of new connections are new (`lastId_dispatcherEntry_le`), and
a slave that connects again has given up its connection before. So a packet that the master posts
to a connection arrives at one slave, if it does.
-/

namespace ProxyPlatform

namespace RelayDispatcherMaster

open RelayDispatch

variable {Group : Type} {F : Format Group} {m t : RelayDispatcherMaster Group}
  {posts : List MasterPost}

/-! ## The handles of the master -/

theorem dispatcherEntry_dispatch {id : ℕ}
    (h : dispatchRelayHeartbeat F m id = .ok (posts, t)) : t.dispatcherEntry = m.dispatcherEntry := by
  rw [dispatchRelayHeartbeat] at h
  split at h
  · cases h
  dsimp only at h
  split at h
  · cases h
    rfl
  split at h <;> cases h
  rfl

@[simp] theorem lastId_ifKept (connections : Storage ServiceConnection) (handle : ℕ)
    (client : ServiceConnection) (keep : Bool) :
    (ifKept connections handle client keep).lastId = connections.lastId := by
  rcases keep with _ | _
  · exact Storage.lastId_set _ _ _
  · rfl

theorem dispatcherEntry_onRelayEntryPacket {handle : ℕ} {client : ServiceConnection} {p : Packet}
    {keep : Bool} (h : onRelayEntryPacket F m handle client p = .ok (keep, posts, t)) :
    t.dispatcherEntry = m.dispatcherEntry := by
  rw [onRelayEntryPacket] at h
  split at h
  · cases h
    rfl
  split at h
  · cases h
    rfl
  split at h
  · cases h
    rfl
  split at h
  · cases h
    rfl
  · obtain ⟨⟨posts', u⟩, hu, heq⟩ := map_eq_ok h
    cases heq
    exact (dispatcherEntry_dispatch hu).trans rfl

theorem lastId_onDispatcherEntryPacket {handle : ℕ} {client : ServiceConnection} {p : Packet}
    {nowMS : ℕ} {keep : Bool}
    (h : onDispatcherEntryPacket F m handle client p nowMS = (keep, posts, t)) :
    t.dispatcherEntry.lastId = m.dispatcherEntry.lastId := by
  rw [onDispatcherEntryPacket] at h
  split at h
  · cases h
    rfl
  split at h
  · cases h
    rfl
  split at h
  · cases h
    rfl
  split at h
  · cases h
    rfl
  split at h
  · cases h
    rfl
  · cases h
    exact Storage.lastId_set _ _ _

/-- The handles of new connections are new. -/
theorem lastId_dispatcherEntry_le {e : MasterEvent} (h : onEvent F m e = .ok (posts, t)) :
    m.dispatcherEntry.lastId ≤ t.dispatcherEntry.lastId := by
  cases e with
  | relayConnected =>
    rw [onEvent] at h
    split at h <;> cases h <;> exact le_rfl
  | relayPacket handle p =>
    rw [onEvent] at h
    split at h
    · cases h
      exact le_rfl
    · obtain ⟨⟨keep, posts', u⟩, hu, heq⟩ := map_eq_ok h
      cases heq
      exact (congrArg _ (dispatcherEntry_onRelayEntryPacket hu)).ge
  | relayKeepAlive handle =>
    rw [onEvent] at h
    split at h
    · cases h
      exact le_rfl
    obtain ⟨⟨keep, posts', u⟩, hu, heq⟩ := map_eq_ok h
    cases heq
    rw [onRelayEntryKeepAlive] at hu
    split at hu
    · cases hu
      exact le_rfl
    · obtain ⟨⟨posts'', v⟩, hv, heq⟩ := map_eq_ok hu
      cases heq
      exact (congrArg _ (dispatcherEntry_dispatch hv)).ge
  | relayClean handle =>
    rw [onEvent] at h
    split at h
    · cases h
      exact le_rfl
    obtain ⟨u, hu, heq⟩ := map_eq_ok h
    cases heq
    rw [onRelayEntryClean] at hu
    split at hu
    · cases hu
      exact le_rfl
    · split at hu <;> cases hu
      exact le_rfl
  | dispatcherConnected =>
    rw [onEvent] at h
    split at h
    · cases h
      exact le_rfl
    · next hacquire =>
      cases h
      obtain ⟨rfl, hlast, -⟩ := Storage.acquire_eq_some hacquire
      exact (Nat.le_succ _).trans hlast.ge
  | dispatcherPacket handle p nowMS =>
    rw [onEvent] at h
    split at h
    · cases h
      exact le_rfl
    split at h
    next hu =>
    cases h
    exact (lastId_ifKept _ _ _ _).ge.trans' (lastId_onDispatcherEntryPacket hu).ge
  | dispatcherKeepAlive handle =>
    rw [onEvent] at h
    split at h
    · cases h
      exact le_rfl
    · cases h
      exact (lastId_ifKept _ _ _ _).ge
  | dispatcherClean handle =>
    rw [onEvent] at h
    split at h
    · cases h
      exact le_rfl
    obtain ⟨u, hu, heq⟩ := map_eq_ok h
    cases heq
    rw [onDispatcherEntryClean] at hu
    split at hu
    · cases hu
      exact le_rfl
    · split at hu <;> cases hu
      exact le_rfl

end RelayDispatcherMaster

namespace RelayNetwork

open RelayDispatch

variable {Group σ ω : Type}

/-! ## The connections -/

/-- No two slaves have the same connection to the master. -/
structure Wired (n : RelayNetwork Group σ ω) : Prop where
  le : ∀ s handle, (n.slaves s).masterConnection = some handle →
    handle ≤ n.master.dispatcherEntry.lastId
  unique : ∀ s s' handle, (n.slaves s).masterConnection = some handle →
    (n.slaves s').masterConnection = some handle → s = s'

variable {F : Format Group} {extractIndex : ℕ → ℕ} {hexToStr : Bytes → Bytes}
  {n t : RelayNetwork Group σ ω} {e : NetworkEvent σ ω}

/-- The connections of the slaves stay as they are, or are lost. -/
theorem Wired.of_sub (h : Wired n)
    (hmaster : n.master.dispatcherEntry.lastId ≤ t.master.dispatcherEntry.lastId)
    (hslaves : ∀ s handle, (t.slaves s).masterConnection = some handle →
      (n.slaves s).masterConnection = some handle) : Wired t where
  le s handle hs := (h.le s handle (hslaves s handle hs)).trans hmaster
  unique s s' handle hs hs' := h.unique s s' handle (hslaves s handle hs) (hslaves s' handle hs')

theorem Wired.setSlave [DecidableEq σ] (h : Wired n) {s : σ} {slave : DispatcherSlave ω}
    (hslave : ∀ handle, slave.masterConnection = some handle →
      (n.slaves s).masterConnection = some handle) : Wired (n.setSlave s slave) := by
  refine h.of_sub le_rfl fun s' handle hs' => ?_
  by_cases heq : s' = s
  · subst heq
    exact hslave handle (by simpa [RelayNetwork.setSlave] using hs')
  · simpa [RelayNetwork.setSlave, heq] using hs'

theorem Wired.init (connectionLimit nowMS : ℕ) (getRegion : NetAddress → Option ℕ) :
    Wired (init connectionLimit nowMS getRegion : RelayNetwork Group σ ω) where
  le _ _ h := by cases h
  unique _ _ _ h := by cases h

/-- A slave connects, on a connection that is new. -/
theorem Wired.connect [DecidableEq σ] (h : Wired n) (s : σ) {handle : ℕ}
    {connections : Storage ServiceConnection}
    (hnew : handle = n.master.dispatcherEntry.lastId + 1) (hlast : handle ≤ connections.lastId) :
    Wired ({ n with master := { n.master with dispatcherEntry := connections } }.setSlave s
      { n.slaves s with masterConnection := some handle, unread := [] }) := by
  have hconnection : ∀ s' handle', (Function.update n.slaves s
      { n.slaves s with masterConnection := some handle, unread := [] } s').masterConnection =
        some handle' → s' = s ∧ handle' = handle ∨
          s' ≠ s ∧ (n.slaves s').masterConnection = some handle' := by
    intro s' handle' hs'
    by_cases heq : s' = s
    · subst heq
      rw [Function.update_self] at hs'
      exact .inl ⟨rfl, (Option.some.inj hs').symm⟩
    · rw [Function.update_of_ne heq] at hs'
      exact .inr ⟨heq, hs'⟩
  refine ⟨fun s' handle' hs' => ?_, fun s' s'' handle' hs' hs'' => ?_⟩
  · rcases hconnection s' handle' hs' with ⟨-, rfl⟩ | ⟨-, hs'⟩
    · exact hlast
    · exact (h.le s' handle' hs').trans ((Nat.le_succ _).trans (hnew ▸ hlast))
  · -- No other slave has the new handle.
    have hfresh : ∀ s', (n.slaves s').masterConnection ≠ some handle := fun s' hs' =>
      absurd (h.le s' handle hs') (Nat.not_le.2 (hnew ▸ Nat.lt_succ_self _))
    rcases hconnection s' handle' hs' with ⟨heq, rfl⟩ | ⟨-, hs'⟩ <;>
      rcases hconnection s'' _ hs'' with ⟨heq', heq''⟩ | ⟨-, hs''⟩
    · rw [heq, heq']
    · exact absurd hs'' (hfresh s'')
    · exact absurd (heq'' ▸ hs') (hfresh s')
    · exact h.unique s' s'' handle' hs' hs''

theorem masterConnection_onServerPacket (s : DispatcherSlave ω) (p : Packet) :
    (s.onServerPacket F p).2.masterConnection = s.masterConnection := by
  rw [DispatcherSlave.onServerPacket]
  split_ifs
  · rfl
  · split <;> rfl
  · rfl

theorem masterConnection_onClientConnected (s : DispatcherSlave ω) (o : ω) :
    (s.onClientConnected o).masterConnection = s.masterConnection := by
  rw [DispatcherSlave.onClientConnected]
  split
  · split <;> rfl
  · rfl

theorem Wired.step [DecidableEq σ] [DecidableEq ω] (h : Wired n)
    (ht : step F extractIndex hexToStr n e = .ok t) : Wired t := by
  cases e with
  | master me =>
    obtain ⟨⟨posts, m⟩, hm, heq⟩ := map_eq_ok ht
    cases heq
    exact h.of_sub (RelayDispatcherMaster.lastId_dispatcherEntry_le hm) fun _ _ hs => hs
  | slaveConnected s =>
    rw [RelayNetwork.step] at ht
    split at ht
    · cases ht
      exact h
    next handle connections hacquire =>
    cases ht
    obtain ⟨hnew, hlast, -⟩ := Storage.acquire_eq_some hacquire
    exact h.connect s hnew (hlast.ge)
  | slaveReceives s =>
    rw [RelayNetwork.step] at ht
    split at ht
    · cases ht
      exact h
    next p unread hunread =>
    split at ht
    next keep slave hslave =>
    cases ht
    have hsame := masterConnection_onServerPacket (F := F) { n.slaves s with unread := unread } p
    rw [hslave] at hsame
    refine h.setSlave fun handle hs => ?_
    rcases keep with _ | _
    · cases hs
    · exact hsame.symm.trans hs
  | slaveDisconnected s =>
    cases ht
    exact h.setSlave fun handle hs => absurd hs (by simp [DispatcherSlave.disconnect])
  | clientConnected s o =>
    cases ht
    exact h.setSlave fun handle hs => (masterConnection_onClientConnected _ _).symm.trans hs
  | clientReceives s client =>
    rw [RelayNetwork.step] at ht
    split at ht
    · cases ht
      exact h
    next c hc =>
    split at ht
    · cases ht
      exact h
    split at ht
    next observer keep hobserved =>
    cases ht
    have hobserver : Wired (n.setObserver c.observer observer) := h.of_sub le_rfl fun _ _ hs => hs
    exact hobserver.setSlave fun handle hs => hs
  | clientDisconnected s client =>
    cases ht
    exact h.setSlave fun handle hs => hs
  | clientClean s client =>
    cases ht
    exact h.setSlave fun handle hs => hs
  | tick o nowMS =>
    cases ht
    exact h.of_sub le_rfl fun _ _ hs => hs
  | challenge o req =>
    obtain ⟨observer, -, heq⟩ := map_eq_ok ht
    cases heq
    exact h.of_sub le_rfl fun _ _ hs => hs

end RelayNetwork

end ProxyPlatform
