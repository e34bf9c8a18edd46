import ProxyPlatform.Base.Queue
import ProxyPlatform.RelayDispatch.Master

/-!
# The slaves take turns

What the master follows is there, and each heartbeat goes to one slave, in turn. Both rest on
who keeps what:

* `Tied`: a context is that of one connection, and is there as long as the connection refers to
  it;
* `Sound`: the two services are tied, a buffer has the heartbeat of its relay, and the list is
  that of the registered slaves;
* `exists_onEvent`: an event never fails, and its `Outcome` is a step of a queue that is served
  round robin (`Queue.Serves`);
* `heartbeats_even`: of two slaves that stay registered, none is sent two heartbeats more than the
  other, whoever registers, leaves or falls silent in the meantime.
-/

namespace ProxyPlatform

namespace RelayDispatcherMaster

open RelayDispatch Queue

/-! ## Contexts and their connections -/

/-- A connection that refers to a context refers to one that is there, and no other does. -/
structure Tied {α : Type*} (connections : Storage ServiceConnection) (pool : Storage α) : Prop where
  live : ∀ handle client, connections.get handle = some client → client.userContext ≠ 0 →
    ∃ context, pool.get client.userContext = some context
  unique : ∀ handle handle' client client', connections.get handle = some client →
    connections.get handle' = some client' → client.userContext ≠ 0 →
      client.userContext = client'.userContext → handle = handle'

namespace Tied

variable {α : Type*} {connections connections' : Storage ServiceConnection} {pool pool' : Storage α}
  {handle id : ℕ} {client client' : ServiceConnection}

theorem empty (n k : ℕ) : Tied (.empty n) (.empty k : Storage α) where
  live _ _ h := by cases h
  unique _ _ _ _ h := by cases h

/-- The connections refer to what they referred to, or to less. -/
theorem of_sub (h : Tied connections pool)
    (hsub : ∀ handle client, connections'.get handle = some client → client.userContext ≠ 0 →
      ∃ client', connections.get handle = some client' ∧ client'.userContext = client.userContext)
    (hlive : ∀ handle client, connections'.get handle = some client → client.userContext ≠ 0 →
      (∃ context, pool.get client.userContext = some context) →
        ∃ context, pool'.get client.userContext = some context) : Tied connections' pool' where
  live handle client hclient hne := by
    obtain ⟨client', hclient', heq⟩ := hsub handle client hclient hne
    refine hlive handle client hclient hne ?_
    rw [← heq] at hne ⊢
    exact h.live handle client' hclient' hne
  unique handle handle' client client' hclient hclient' hne heq := by
    obtain ⟨c, hc, hcc⟩ := hsub handle client hclient hne
    obtain ⟨c', hc', hcc'⟩ := hsub handle' client' hclient' (heq ▸ hne)
    refine h.unique handle handle' c c' hc hc' (hcc.symm ▸ hne) ?_
    rw [hcc, hcc', heq]

/-- A new connection has no context. -/
theorem connect (h : Tied connections pool)
    (hnew : connections.acquire (fun _ => {}) = some (id, connections')) :
    Tied connections' pool := by
  refine h.of_sub (fun handle client hclient hne => ?_) fun _ _ _ _ hlive => hlive
  rw [Storage.get_acquire hnew] at hclient
  split at hclient
  · cases hclient
    exact absurd rfl hne
  · exact ⟨client, hclient, rfl⟩

/-- A connection that is killed or kept. -/
theorem ifKept (h : Tied connections pool) (hclient : connections.get handle = some client)
    (keep : Bool) : Tied (ifKept connections handle client keep) pool := by
  refine h.of_sub (fun handle' client' hclient' _ => ?_) fun _ _ _ _ hlive => hlive
  rcases keep with _ | _
  · rw [RelayDispatcherMaster.ifKept, if_neg Bool.false_ne_true, Storage.get_set hclient] at hclient'
    split at hclient'
    · next heq =>
      cases hclient'
      exact ⟨client, heq ▸ hclient, rfl⟩
    · exact ⟨client', hclient', rfl⟩
  · exact ⟨client', hclient', rfl⟩

/-- A context changes. -/
theorem setContext (h : Tied connections pool) {context : α} (hcontext : pool.get id = some context)
    (new : α) : Tied connections (pool.set id new) := by
  refine h.of_sub (fun handle client hclient _ => ⟨client, hclient, rfl⟩) ?_
  rintro handle client - - ⟨context', hlive⟩
  rw [Storage.get_set hcontext]
  split
  · exact ⟨new, rfl⟩
  · exact ⟨context', hlive⟩

/-- A connection without a context gets a new one. -/
theorem register (h : Tied connections pool) {new : ℕ → α}
    (hnew : pool.acquire new = some (id, pool')) (hclient : connections.get handle = some client) :
    Tied (connections.set handle { client with userContext := id }) pool' where
  live handle' client' hclient' hne := by
    rw [Storage.get_set hclient] at hclient'
    split at hclient'
    · cases hclient'
      exact ⟨new id, by rw [Storage.get_acquire hnew, if_pos rfl]⟩
    · obtain ⟨context, hcontext⟩ := h.live handle' client' hclient' hne
      refine ⟨context, ?_⟩
      rw [Storage.get_acquire hnew, if_neg fun heq => ?_]
      · exact hcontext
      · rw [heq, Storage.get_of_acquire hnew] at hcontext
        cases hcontext
  unique handle₁ handle₂ client₁ client₂ h₁ h₂ hne heq := by
    -- No connection refers to the new context yet.
    have hfresh : ∀ handle' client', connections.get handle' = some client' →
        client'.userContext ≠ 0 → client'.userContext ≠ id := by
      intro handle' client' hclient' hne' hid
      obtain ⟨context, hcontext⟩ := h.live handle' client' hclient' hne'
      rw [hid, Storage.get_of_acquire hnew] at hcontext
      cases hcontext
    rw [Storage.get_set hclient] at h₁ h₂
    split at h₁ <;> split at h₂
    · next heq₁ heq₂ => rw [heq₁, heq₂]
    · cases h₁
      exact absurd heq.symm (hfresh handle₂ client₂ h₂ (heq ▸ hne))
    · cases h₂
      exact absurd heq (hfresh handle₁ client₁ h₁ hne)
    · exact h.unique handle₁ handle₂ client₁ client₂ h₁ h₂ hne heq

/-- A connection goes, with its context if it has one. -/
theorem clean (h : Tied connections pool) (hclient : connections.get handle = some client) :
    Tied (connections.release handle) (pool.release client.userContext) := by
  refine h.of_sub (fun handle' client' hclient' _ => ?_) ?_
  · rw [Storage.get_release] at hclient'
    split at hclient'
    · cases hclient'
    · exact ⟨client', hclient', rfl⟩
  · rintro handle' client' hclient' hne ⟨context, hlive⟩
    rw [Storage.get_release] at hclient' ⊢
    split at hclient'
    · cases hclient'
    · next hhandle =>
      refine ⟨context, ?_⟩
      rw [if_neg fun heq => hhandle ?_]
      · exact hlive
      · exact h.unique handle' handle client' client hclient' hclient hne heq

/-- A connection goes that has no context. -/
theorem cleanUnregistered (h : Tied connections pool) (handle : ℕ) :
    Tied (connections.release handle) pool := by
  refine h.of_sub (fun handle' client' hclient' _ => ?_) fun _ _ _ _ hlive => hlive
  rw [Storage.get_release] at hclient'
  split at hclient'
  · cases hclient'
  · exact ⟨client', hclient', rfl⟩

end Tied

/-! ## The invariant of the master -/

variable {Group : Type} (F : Format Group)

/-- The contexts are reached from their connections, and the registered slaves from the list. -/
structure Sound (m : RelayDispatcherMaster Group) : Prop where
  relays : Tied m.relayEntry m.relayEntryContextPool
  slaves : Tied m.dispatcherEntry m.dispatcherEntryContextPool
  relayContext : ∀ id context, m.relayEntryContextPool.get id = some context →
    context.serverId = id ∧ (context.heartbeatBuffer = none ∨
      context.heartbeatBuffer = some (F.heartbeat context.broadcast))
  slaveContext : ∀ id slave, m.dispatcherEntryContextPool.get id = some slave →
    slave.contextId = id ∧ ∃ client, m.dispatcherEntry.get slave.connectionHandle = some client ∧
      client.userContext = id
  linked : ∀ id, id ∈ m.dispatcherEntryList.nodes () ↔
    ∃ slave, m.dispatcherEntryContextPool.get id = some slave

/-- The connections of the registered slaves, in the order of the list. -/
def slaveHandles (m : RelayDispatcherMaster Group) : List ℕ :=
  (m.dispatcherEntryList.nodes ()).filterMap fun id =>
    (m.dispatcherEntryContextPool.get id).map (·.connectionHandle)

/-- The slaves that heartbeats are posted to. -/
def heartbeatHandles (posts : List MasterPost) : List ℕ :=
  posts.filterMap fun
    | .toRelay .. => none
    | .toDispatcher handle p => if p.cmdId = cmdRelayHeartbeatBroadcast then some handle else none

/-- The relay at a connection is given the id `id`, and has registered with what is in the context. -/
def Answers (e : MasterEvent) (posts : List MasterPost) (id : ℕ)
    (context : RelayEntryContext Group) : Prop :=
  ∃ handle p, e = .relayPacket handle p ∧ p.cmdId = cmdRelayInfoRegister ∧
    F.relayRegister p.payload = some {
      relayServerType := context.relayServerType
      exportDeviceEntryAddress := context.deviceEntryAddress
      exportProxyEntryAddress := context.proxyEntryAddress } ∧
    .toRelay handle (F.relayRegisterResp id) ∈ posts

/-- What an event does. -/
structure Outcome (m : RelayDispatcherMaster Group) (e : MasterEvent) (posts : List MasterPost)
    (t : RelayDispatcherMaster Group) : Prop where
  sound : Sound F t
  serves : Serves (slaveHandles m) (heartbeatHandles posts) (slaveHandles t)
  /-- A relay is known from before, or it has just registered. -/
  known : ∀ id context, t.relayEntryContextPool.get id = some context →
    (∃ old, m.relayEntryContextPool.get id = some old ∧ old.broadcast = context.broadcast) ∨
      m.relayEntryContextPool.lastId < id ∧ Answers F e posts id context
  /-- A heartbeat is that of a relay that is known. -/
  beats : ∀ handle p, .toDispatcher handle p ∈ posts → p.cmdId = cmdRelayHeartbeatBroadcast →
    ∃ id context, t.relayEntryContextPool.get id = some context ∧ p = F.heartbeat context.broadcast
  lastId_le : m.relayEntryContextPool.lastId ≤ t.relayEntryContextPool.lastId

variable {F} {m t : RelayDispatcherMaster Group} {id handle : ℕ}

theorem Sound.init (connectionLimit : ℕ) :
    Sound F (init connectionLimit : RelayDispatcherMaster Group) where
  relays := .empty connectionLimit _
  slaves := .empty connectionLimit _
  relayContext _ _ h := by cases h
  slaveContext _ _ h := by cases h
  linked id := by simp [RelayDispatcherMaster.init, Linked.empty]

/-- No two registered slaves have the same connection. -/
theorem Sound.nodup_slaveHandles (h : Sound F m) : (slaveHandles m).Nodup := by
  refine List.Nodup.filterMap (fun id id' handle hid hid' => ?_) (m.dispatcherEntryList.nodup ())
  obtain ⟨slave, hslave, rfl⟩ := Option.map_eq_some_iff.1 hid
  obtain ⟨slave', hslave', heq⟩ := Option.map_eq_some_iff.1 hid'
  obtain ⟨-, client, hclient, hcontext⟩ := h.slaveContext id slave hslave
  obtain ⟨-, client', hclient', hcontext'⟩ := h.slaveContext id' slave' hslave'
  rw [heq, hclient] at hclient'
  cases hclient'
  exact hcontext.symm.trans hcontext'

theorem heartbeatHandles_append (l l' : List MasterPost) :
    heartbeatHandles (l ++ l') = heartbeatHandles l ++ heartbeatHandles l' :=
  List.filterMap_append

/-- The buffer of a context has its heartbeat, or gets it. -/
theorem Sound.heartbeatBuffer (h : Sound F m) {context : RelayEntryContext Group}
    (hcontext : m.relayEntryContextPool.get id = some context) :
    heartbeatBuffer F context = some (F.heartbeat context.broadcast) := by
  rw [RelayDispatcherMaster.heartbeatBuffer]
  rcases (h.relayContext id context hcontext).2 with hnone | hsome
  · rw [hnone]
    exact F.writeMessage_heartbeat context.broadcast
  · rw [hsome]

/-- A context with its heartbeat in the buffer. -/
def built (F : Format Group) (context : RelayEntryContext Group) : RelayEntryContext Group :=
  { context with heartbeatBuffer := some (F.heartbeat context.broadcast) }

/-- A heartbeat is sent to the head of the list, which goes to the tail, and only its buffer
    changes otherwise. -/
theorem Sound.exists_dispatch (h : Sound F m) {context : RelayEntryContext Group}
    (hcontext : m.relayEntryContextPool.get id = some context) :
    ∃ posts t, dispatchRelayHeartbeat F m id = .ok (posts, t) ∧ Sound F t ∧
      Serves (slaveHandles m) (heartbeatHandles posts) (slaveHandles t) ∧
      (∀ post ∈ posts, ∃ handle, post = .toDispatcher handle (F.heartbeat context.broadcast)) ∧
      t.relayEntryContextPool = m.relayEntryContextPool.set id (built F context) ∧
      t.relayEntry = m.relayEntry := by
  have hset : Sound F { m with
      relayEntryContextPool := m.relayEntryContextPool.set id (built F context) } := by
    refine { h with
      relays := h.relays.setContext hcontext _
      relayContext := fun id' context' h' => ?_ }
    rw [Storage.get_set hcontext] at h'
    split at h'
    · next heq =>
      cases h'
      exact ⟨heq.symm ▸ (h.relayContext id context hcontext).1, .inr rfl⟩
    · exact h.relayContext id' context' h'
  simp only [dispatchRelayHeartbeat, hcontext, h.heartbeatBuffer hcontext]
  rcases hnodes : m.dispatcherEntryList.nodes () with _ | ⟨slaveContext, l⟩
  · -- No slave is registered.
    rw [Linked.popHead_eq_none.2 hnodes]
    exact ⟨[], _, rfl, hset, .idle _, fun _ hpost => absurd hpost List.not_mem_nil, rfl, rfl⟩
  · obtain ⟨slave, hslave⟩ := (h.linked slaveContext).1 (by rw [hnodes]; exact List.mem_cons_self)
    simp only [Linked.popHead_of_cons hnodes, hslave, Linked.grabTail_unlink]
    refine ⟨_, _, rfl, { hset with linked := fun id' => ?_ }, ?_, ?_, rfl, rfl⟩
    · refine Iff.trans ?_ (h.linked id')
      rw [Linked.mem_grabTail]
      split
      · next heq => exact iff_of_true rfl (heq ▸ hnodes ▸ List.mem_cons_self)
      · exact Iff.rfl
    · have hturn := Serves.turn slave.connectionHandle
        (l.filterMap fun id' =>
          (m.dispatcherEntryContextPool.get id').map (·.connectionHandle))
      simpa [slaveHandles, hnodes, Linked.nodes_grabTail_of_cons hnodes, hslave, heartbeatHandles,
        Format.heartbeat] using hturn
    · intro post hpost
      obtain rfl : post = .toDispatcher slave.connectionHandle (F.heartbeat context.broadcast) := by
        simpa using hpost
      exact ⟨slave.connectionHandle, rfl⟩

/-! ## Events -/

theorem mem_heartbeatHandles {posts : List MasterPost} :
    handle ∈ heartbeatHandles posts ↔
      ∃ p, .toDispatcher handle p ∈ posts ∧ p.cmdId = cmdRelayHeartbeatBroadcast := by
  rw [heartbeatHandles, List.mem_filterMap]
  constructor
  · rintro ⟨post, hpost, h⟩
    rcases post with ⟨handle', p⟩ | ⟨handle', p⟩
    · cases h
    · obtain ⟨hp, heq⟩ := Option.ite_none_right_eq_some.1 h
      cases heq
      exact ⟨p, hpost, hp⟩
  · rintro ⟨p, hpost, hp⟩
    exact ⟨_, hpost, if_pos hp⟩

theorem openClient_eq_some {connections : Storage ServiceConnection} {client : ServiceConnection}
    (h : openClient connections handle = some client) : connections.get handle = some client :=
  (Option.filter_eq_some_iff.1 h).1

/-- The connections of the slaves are still there, when connections come or are killed. -/
theorem Sound.kept (h : Sound F m) {connections : Storage ServiceConnection}
    (hsub : ∀ handle client, m.dispatcherEntry.get handle = some client →
      ∃ client', connections.get handle = some client' ∧ client'.userContext = client.userContext)
    (id : ℕ) (slave : DispatcherSlaveContext)
    (hslave : m.dispatcherEntryContextPool.get id = some slave) :
    slave.contextId = id ∧ ∃ client, connections.get slave.connectionHandle = some client ∧
      client.userContext = id := by
  obtain ⟨hid, client, hclient, hcontext⟩ := h.slaveContext id slave hslave
  obtain ⟨client', hclient', heq⟩ := hsub _ client hclient
  exact ⟨hid, client', hclient', heq.trans hcontext⟩

/-- What only changes the connections. -/
theorem Sound.outcome (h : Sound F m) {relayEntry dispatcherEntry : Storage ServiceConnection}
    {posts : List MasterPost} (e : MasterEvent) (hrelays : Tied relayEntry m.relayEntryContextPool)
    (hslaves : Tied dispatcherEntry m.dispatcherEntryContextPool)
    (hkept : ∀ handle client, m.dispatcherEntry.get handle = some client →
      ∃ client', dispatcherEntry.get handle = some client' ∧
        client'.userContext = client.userContext)
    (hposts : heartbeatHandles posts = []) :
    Outcome F m e posts
      { m with relayEntry := relayEntry, dispatcherEntry := dispatcherEntry } where
  sound := { h with relays := hrelays, slaves := hslaves, slaveContext := h.kept hkept }
  serves := hposts ▸ .idle _
  known id context hcontext := .inl ⟨context, hcontext, rfl⟩
  beats handle p hpost hp := by
    have hmem := mem_heartbeatHandles.2 ⟨p, hpost, hp⟩
    rw [hposts] at hmem
    cases hmem
  lastId_le := le_rfl

theorem kept_refl (connections : Storage ServiceConnection) (handle : ℕ) (client : ServiceConnection)
    (h : connections.get handle = some client) :
    ∃ client', connections.get handle = some client' ∧ client'.userContext = client.userContext :=
  ⟨client, h, rfl⟩

theorem kept_ifKept {connections : Storage ServiceConnection} {client : ServiceConnection}
    (hclient : connections.get handle = some client) (keep : Bool) (handle' : ℕ)
    (client' : ServiceConnection) (h : connections.get handle' = some client') :
    ∃ client'', (ifKept connections handle client keep).get handle' = some client'' ∧
      client''.userContext = client'.userContext := by
  rcases keep with _ | _
  · rw [ifKept, if_neg Bool.false_ne_true, Storage.get_set hclient]
    split
    · next heq =>
      rw [heq, hclient] at h
      cases h
      exact ⟨_, rfl, rfl⟩
    · exact ⟨client', h, rfl⟩
  · exact ⟨client', h, rfl⟩

/-- A relay registers or keeps alive, and its heartbeat is sent. -/
theorem Sound.exists_beat (h : Sound F m) {context : RelayEntryContext Group}
    (hcontext : m.relayEntryContextPool.get id = some context) (e : MasterEvent) :
    ∃ posts t, dispatchRelayHeartbeat F m id = .ok (posts, t) ∧ Outcome F m e posts t ∧
      t.relayEntry = m.relayEntry := by
  obtain ⟨posts, t, ht, hsound, hserves, hposts, hpool, hentry⟩ := h.exists_dispatch hcontext
  have hget : t.relayEntryContextPool.get id = some (built F context) := by
    rw [hpool, Storage.get_set_self hcontext]
  refine ⟨posts, t, ht, ⟨hsound, hserves, fun id' context' h' => ?_, fun handle p hpost _ => ?_, ?_⟩,
    hentry⟩
  · rw [hpool, Storage.get_set hcontext] at h'
    split at h'
    · next heq =>
      cases h'
      exact .inl ⟨context, heq ▸ hcontext, rfl⟩
    · exact .inl ⟨context', h', rfl⟩
  · obtain ⟨handle', heq⟩ := hposts _ hpost
    cases heq
    exact ⟨id, _, hget, rfl⟩
  · rw [hpool, Storage.lastId_set]

/-- A relay registers, or its connection is killed. -/
theorem Sound.exists_onRelayEntryPacket (h : Sound F m) {client : ServiceConnection}
    (hclient : m.relayEntry.get handle = some client) (p : Packet) :
    ∃ keep posts t, onRelayEntryPacket F m handle client p = .ok (keep, posts, t) ∧
      Outcome F m (.relayPacket handle p) posts
        { t with relayEntry := ifKept t.relayEntry handle client keep } := by
  have hrefused (posts : List MasterPost) (keep : Bool) (hposts : heartbeatHandles posts = []) :
      Outcome F m (.relayPacket handle p) posts
        { m with relayEntry := ifKept m.relayEntry handle client keep } :=
    h.outcome _ (h.relays.ifKept hclient keep) h.slaves (kept_refl _) hposts
  rw [onRelayEntryPacket]
  split
  · exact ⟨_, _, _, rfl, hrefused [] false rfl⟩
  next hnone =>
  split
  · exact ⟨_, _, _, rfl, hrefused [] false rfl⟩
  next hcmd =>
  split
  · exact ⟨_, _, _, rfl, hrefused [] false rfl⟩
  next register hregister =>
  split
  · exact ⟨_, _, _, rfl, hrefused _ true rfl⟩
  next id pool hacquire =>
  have hget := Storage.get_acquire hacquire
  have hregistered : Sound F { m with
      relayEntryContextPool := pool
      relayEntry := m.relayEntry.set handle { client with userContext := id } } := by
    refine { h with
      relays := h.relays.register hacquire hclient
      relayContext := fun id' context' h' => ?_ }
    rw [hget] at h'
    split at h'
    · next heq =>
      cases h'
      exact ⟨heq.symm, .inl rfl⟩
    · exact h.relayContext id' context' h'
  have hnew := hget id
  rw [if_pos rfl] at hnew
  obtain ⟨posts, t, ht, hsound, hserves, hposts, hpool, -⟩ := hregistered.exists_dispatch hnew
  rw [ht]
  refine ⟨true, posts ++ [.toRelay handle (F.relayRegisterResp id)], t, rfl, hsound, ?_, ?_, ?_, ?_⟩
  · rw [heartbeatHandles_append]
    exact (List.append_nil (heartbeatHandles posts)).symm ▸ hserves
  · intro id' context' h'
    change t.relayEntryContextPool.get id' = some context' at h'
    rw [hpool, Storage.get_set hnew, hget] at h'
    split at h'
    · next heq =>
      cases h'
      refine .inr ⟨?_, handle, p, rfl, not_not.1 hcmd, hregister, ?_⟩
      · rw [heq, (Storage.acquire_eq_some hacquire).1]
        exact Nat.lt_succ_self _
      · rw [heq]
        exact List.mem_append_right _ List.mem_cons_self
    · exact .inl ⟨context', h', rfl⟩
  · intro handle' p' hpost hp'
    rcases List.mem_append.1 hpost with hpost | hpost
    · obtain ⟨handle'', heq⟩ := hposts _ hpost
      cases heq
      exact ⟨id, _, (congrArg (Storage.get · id) hpool).trans (Storage.get_set_self hnew _), rfl⟩
    · simp at hpost
  · change _ ≤ t.relayEntryContextPool.lastId
    rw [hpool, Storage.lastId_set, (Storage.acquire_eq_some hacquire).2.1,
      (Storage.acquire_eq_some hacquire).1]
    exact Nat.le_succ _

/-- The connection of a relay is closed, and its context released. -/
theorem Sound.exists_onRelayEntryClean (h : Sound F m) {client : ServiceConnection}
    (hclient : m.relayEntry.get handle = some client) :
    ∃ t, onRelayEntryClean m client = .ok t ∧
      Outcome F m (.relayClean handle) [] { t with relayEntry := t.relayEntry.release handle } := by
  rw [onRelayEntryClean]
  split
  · exact ⟨m, rfl, h.outcome _ (h.relays.cleanUnregistered handle) h.slaves (kept_refl _) rfl⟩
  next hne =>
  obtain ⟨context, hcontext⟩ := h.relays.live handle client hclient hne
  have hrest : ∀ id context', (m.relayEntryContextPool.release client.userContext).get id =
      some context' → m.relayEntryContextPool.get id = some context' := by
    intro id context' h'
    rw [Storage.get_release] at h'
    split at h'
    · cases h'
    · exact h'
  rw [hcontext]
  dsimp only
  rw [(h.relayContext _ context hcontext).1]
  refine ⟨_, rfl, { h with relays := h.relays.clean hclient, relayContext := ?_ }, .idle _, ?_, ?_,
    le_rfl⟩
  · exact fun id context' h' => h.relayContext id context' (hrest id context' h')
  · exact fun id context' h' => .inl ⟨context', hrest id context' h', rfl⟩
  · exact fun _ _ hpost => absurd hpost List.not_mem_nil

/-- A slave that is accepted goes to the tail of the list. -/
theorem slaveHandles_grabTail {pool : Storage DispatcherSlaveContext} (h : Sound F m)
    (hacquire : m.dispatcherEntryContextPool.acquire
      (fun id => { contextId := id, connectionHandle := handle }) = some (id, pool))
    (connections : Storage ServiceConnection) :
    slaveHandles { m with
      dispatcherEntryContextPool := pool
      dispatcherEntryList := m.dispatcherEntryList.grabTail () id
      dispatcherEntry := connections } = slaveHandles m ++ [handle] := by
  have hget := Storage.get_acquire hacquire
  have hid : id ∉ m.dispatcherEntryList.nodes () := by
    rw [h.linked, Storage.get_of_acquire hacquire]
    rintro ⟨slave, hslave⟩
    cases hslave
  rw [slaveHandles, Linked.nodes_grabTail_self, List.filterMap_append, slaveHandles]
  congr 1
  · rw [List.filter_eq_self.2 fun id' hid' => decide_eq_true (ne_of_mem_of_not_mem hid' hid)]
    refine List.filterMap_congr fun id' hid' => ?_
    rw [hget, if_neg (ne_of_mem_of_not_mem hid' hid)]
  · simp [hget]

/-- A slave is accepted or refused, or its connection is killed. -/
theorem Sound.outcome_onDispatcherEntryPacket (h : Sound F m) {client : ServiceConnection}
    (hclient : m.dispatcherEntry.get handle = some client) (p : Packet) (nowMS : ℕ) {keep : Bool}
    {posts : List MasterPost} (ht : onDispatcherEntryPacket F m handle client p nowMS =
      (keep, posts, t)) :
    Outcome F m (.dispatcherPacket handle p nowMS) posts
      { t with dispatcherEntry := ifKept t.dispatcherEntry handle client keep } := by
  have hrefused (posts : List MasterPost) (keep : Bool) (hposts : heartbeatHandles posts = []) :
      Outcome F m (.dispatcherPacket handle p nowMS) posts
        { m with dispatcherEntry := ifKept m.dispatcherEntry handle client keep } :=
    h.outcome _ h.relays (h.slaves.ifKept hclient keep) (kept_ifKept hclient keep) hposts
  rw [onDispatcherEntryPacket] at ht
  split at ht
  · cases ht
    exact hrefused [] false rfl
  next hnone =>
  split at ht
  · cases ht
    exact hrefused [] false rfl
  split at ht
  · cases ht
    exact hrefused [] false rfl
  split at ht
  · cases ht
    exact hrefused [] false rfl
  split at ht
  · cases ht
    exact hrefused _ true rfl
  next id pool hacquire =>
  cases ht
  have hget := Storage.get_acquire hacquire
  have hhandles := slaveHandles_grabTail h hacquire
    (m.dispatcherEntry.set handle { client with userContext := id })
  have hnew : handle ∉ slaveHandles m := by
    intro hmem
    obtain ⟨id', -, hid'⟩ := List.mem_filterMap.1 hmem
    obtain ⟨slave, hslave, rfl⟩ := Option.map_eq_some_iff.1 hid'
    obtain ⟨-, client', hclient', hcontext⟩ := h.slaveContext id' slave hslave
    rw [hclient] at hclient'
    cases hclient'
    exact (Storage.pos_of_get hslave).ne' (hcontext.symm.trans (not_not.1 hnone))
  refine ⟨{ h with slaves := h.slaves.register hacquire hclient, slaveContext := ?_, linked := ?_ }, ?_,
    fun id' context h' => .inl ⟨context, h', rfl⟩, fun handle' p' hpost hp' => ?_, le_rfl⟩
  · intro id' slave h'
    change pool.get id' = some slave at h'
    rw [hget] at h'
    split at h'
    · next heq =>
      cases h'
      exact ⟨heq.symm, _, Storage.get_set_self hclient _, heq.symm⟩
    · obtain ⟨hid', client', hclient', hcontext⟩ := h.slaveContext id' slave h'
      refine ⟨hid', client', (Storage.get_set_of_ne _ ?_).trans hclient', hcontext⟩
      rintro rfl
      exact hnew (List.mem_filterMap.2 ⟨id', (h.linked id').2 ⟨slave, h'⟩, by rw [h']; rfl⟩)
  · intro id'
    change id' ∈ (m.dispatcherEntryList.grabTail () id).nodes () ↔ ∃ slave, pool.get id' = some slave
    rw [Linked.mem_grabTail, hget]
    split
    · exact iff_of_true rfl ⟨_, rfl⟩
    · exact h.linked id'
  · have hjoin := Serves.join handle (slaveHandles m) hnew
    rw [← hhandles] at hjoin
    exact hjoin
  · simp only [List.mem_singleton, MasterPost.toDispatcher.injEq] at hpost
    rw [hpost.2] at hp'
    cases hp'

/-- A slave that is released leaves the list. -/
theorem slaveHandles_unlink (h : Sound F m) {slave : DispatcherSlaveContext}
    (hslave : m.dispatcherEntryContextPool.get id = some slave)
    (connections : Storage ServiceConnection) :
    slaveHandles { m with
      dispatcherEntryContextPool := m.dispatcherEntryContextPool.release id
      dispatcherEntryList := m.dispatcherEntryList.unlink id
      dispatcherEntry := connections } =
        (slaveHandles m).filter (· ≠ slave.connectionHandle) := by
  rw [slaveHandles, Linked.unlink, List.filterMap_filter, slaveHandles, List.filter_filterMap]
  refine List.filterMap_congr fun id' hid' => ?_
  obtain ⟨slave', hslave'⟩ := (h.linked id').1 hid'
  by_cases heq : id' = id
  · subst heq
    simp [hslave, Option.filter_some]
  · have hne : slave'.connectionHandle ≠ slave.connectionHandle := by
      intro hhandle
      obtain ⟨-, client, hclient, hcontext⟩ := h.slaveContext id slave hslave
      obtain ⟨-, client', hclient', hcontext'⟩ := h.slaveContext id' slave' hslave'
      rw [hhandle, hclient] at hclient'
      cases hclient'
      exact heq (hcontext'.symm.trans hcontext)
    simp [heq, hslave', Option.filter_some, hne]

/-- The connection of a slave is closed, and the slave leaves the list. -/
theorem Sound.exists_onDispatcherEntryClean (h : Sound F m) {client : ServiceConnection}
    (hclient : m.dispatcherEntry.get handle = some client) :
    ∃ t, onDispatcherEntryClean m client = .ok t ∧ Outcome F m (.dispatcherClean handle) []
      { t with dispatcherEntry := t.dispatcherEntry.release handle } := by
  -- The other connections are still there.
  have hother : ∀ id slave, id ≠ client.userContext →
      m.dispatcherEntryContextPool.get id = some slave → slave.connectionHandle ≠ handle ∧
        ∃ client', (m.dispatcherEntry.release handle).get slave.connectionHandle = some client' ∧
          client'.userContext = id := by
    intro id slave hne hslave
    obtain ⟨-, client', hclient', hcontext⟩ := h.slaveContext id slave hslave
    have hhandle : slave.connectionHandle ≠ handle := by
      rintro rfl
      rw [hclient] at hclient'
      cases hclient'
      exact hne hcontext.symm
    exact ⟨hhandle, client', by rw [Storage.get_release, if_neg hhandle, hclient'], hcontext⟩
  rw [onDispatcherEntryClean]
  split
  · next hzero =>
    have hpos : ∀ id slave, m.dispatcherEntryContextPool.get id = some slave →
        id ≠ client.userContext := fun id slave hslave => by
      rw [hzero]
      exact (Storage.pos_of_get hslave).ne'
    refine ⟨m, rfl, ⟨{ h with slaves := h.slaves.cleanUnregistered handle, slaveContext := ?_ },
      .idle _, fun id context h' => .inl ⟨context, h', rfl⟩,
      fun _ _ hpost => absurd hpost List.not_mem_nil, le_rfl⟩⟩
    exact fun id slave hslave =>
      ⟨(h.slaveContext id slave hslave).1, (hother id slave (hpos id slave hslave) hslave).2⟩
  next hne =>
  obtain ⟨slave, hslave⟩ := h.slaves.live handle client hclient hne
  have hself : slave.connectionHandle = handle := by
    obtain ⟨-, client', hclient', hcontext⟩ := h.slaveContext _ slave hslave
    exact h.slaves.unique _ _ client' client hclient' hclient (hcontext.trans_ne hne) hcontext
  have hrest : ∀ id slave', (m.dispatcherEntryContextPool.release client.userContext).get id =
      some slave' ↔ id ≠ client.userContext ∧ m.dispatcherEntryContextPool.get id = some slave' := by
    intro id slave'
    rw [Storage.get_release]
    split
    · next heq => exact iff_of_false (by simp) fun h' => h'.1 heq
    · next hid => exact (and_iff_right hid).symm
  rw [hslave]
  dsimp only
  rw [(h.slaveContext _ slave hslave).1]
  refine ⟨_, rfl, { h with slaves := h.slaves.clean hclient, slaveContext := ?_, linked := ?_ }, ?_,
    fun id context h' => .inl ⟨context, h', rfl⟩, fun _ _ hpost => absurd hpost List.not_mem_nil,
    le_rfl⟩
  · intro id slave' h'
    obtain ⟨hid, h'⟩ := (hrest id slave').1 h'
    exact ⟨(h.slaveContext id slave' h').1, (hother id slave' hid h').2⟩
  · intro id
    rw [Linked.mem_unlink, h.linked]
    simp only [hrest, exists_and_left]
  · have hleave := Serves.leave handle (slaveHandles m)
    rw [← hself] at hleave
    exact (slaveHandles_unlink h hslave _).symm ▸ hleave

/-- No event makes the master follow a pointer to what is gone. -/
theorem Sound.exists_onEvent (h : Sound F m) (e : MasterEvent) :
    ∃ posts t, onEvent F m e = .ok (posts, t) ∧ Outcome F m e posts t := by
  have hsame : Outcome F m e [] m := h.outcome e h.relays h.slaves (kept_refl _) rfl
  cases e with
  | relayConnected =>
    rw [onEvent]
    split
    · exact ⟨_, _, rfl, hsame⟩
    · next hnew => exact ⟨_, _, rfl, h.outcome _ (h.relays.connect hnew) h.slaves (kept_refl _) rfl⟩
  | relayPacket handle p =>
    rw [onEvent]
    split
    · exact ⟨_, _, rfl, hsame⟩
    · next client hopen =>
      obtain ⟨keep, posts, t, ht, houtcome⟩ :=
        h.exists_onRelayEntryPacket (openClient_eq_some hopen) p
      rw [ht]
      exact ⟨_, _, rfl, houtcome⟩
  | relayKeepAlive handle =>
    rw [onEvent]
    split
    · exact ⟨_, _, rfl, hsame⟩
    next client hopen =>
    have hclient := openClient_eq_some hopen
    rw [onRelayEntryKeepAlive]
    split
    · exact ⟨_, _, rfl, h.outcome _ (h.relays.ifKept hclient false) h.slaves (kept_refl _) rfl⟩
    · next hne =>
      obtain ⟨context, hcontext⟩ := h.relays.live handle client hclient hne
      obtain ⟨posts, t, ht, houtcome, -⟩ := h.exists_beat hcontext (.relayKeepAlive handle)
      rw [ht]
      exact ⟨posts, t, rfl, houtcome⟩
  | relayClean handle =>
    rw [onEvent]
    split
    · exact ⟨_, _, rfl, hsame⟩
    · next client hclient =>
      obtain ⟨t, ht, houtcome⟩ := h.exists_onRelayEntryClean hclient
      rw [ht]
      exact ⟨_, _, rfl, houtcome⟩
  | dispatcherConnected =>
    rw [onEvent]
    split
    · exact ⟨_, _, rfl, hsame⟩
    · next hnew =>
      refine ⟨_, _, rfl, h.outcome _ h.relays (h.slaves.connect hnew) (fun handle client h' => ?_) rfl⟩
      refine ⟨client, ?_, rfl⟩
      rw [Storage.get_acquire hnew, if_neg, h']
      rintro rfl
      rw [Storage.get_of_acquire hnew] at h'
      cases h'
  | dispatcherPacket handle p nowMS =>
    rw [onEvent]
    split
    · exact ⟨_, _, rfl, hsame⟩
    · next client hopen =>
      split
      next keep posts t ht =>
      exact ⟨_, _, rfl, h.outcome_onDispatcherEntryPacket (openClient_eq_some hopen) p nowMS ht⟩
  | dispatcherKeepAlive handle =>
    rw [onEvent]
    split
    · exact ⟨_, _, rfl, hsame⟩
    · next client hopen =>
      have hclient := openClient_eq_some hopen
      exact ⟨_, _, rfl, h.outcome _ h.relays (h.slaves.ifKept hclient _) (kept_ifKept hclient _) rfl⟩
  | dispatcherClean handle =>
    rw [onEvent]
    split
    · exact ⟨_, _, rfl, hsame⟩
    · next client hclient =>
      obtain ⟨t, ht, houtcome⟩ := h.exists_onDispatcherEntryClean hclient
      rw [ht]
      exact ⟨_, _, rfl, houtcome⟩

/-! ## Runs -/

/-- What an event posts, in a state with the invariant, and what else it does. -/
theorem Sound.outcome_step (h : Sound F m) {e : MasterEvent} (ht : step F m e = .ok t) :
    Outcome F m e (posts F m e) t := by
  obtain ⟨l, u, hu, houtcome⟩ := h.exists_onEvent e
  simp only [step, hu, Except.map] at ht
  cases ht
  simpa only [posts, hu] using houtcome

theorem Sound.exists_step (h : Sound F m) (e : MasterEvent) :
    ∃ t, step F m e = .ok t ∧ Sound F t := by
  obtain ⟨l, u, hu, houtcome⟩ := h.exists_onEvent e
  exact ⟨u, by rw [step, hu]; rfl, houtcome.sound⟩

/-- No run fails. -/
theorem Sound.exists_exec (h : Sound F m) (es : List MasterEvent) :
    ∃ t, exec (step F) m es = .ok t ∧ Sound F t :=
  exists_exec_along (A := fun _ _ => True) (fun _ e hs _ => hs.exists_step e) h
    (along_iff.2 fun _ _ _ _ _ => trivial)

/-- The slaves that heartbeats are posted to over a stretch of a run. -/
def beatsAlong (F : Format Group) (m : RelayDispatcherMaster Group) (es : List MasterEvent) :
    List ℕ :=
  collectAlong (step F) (fun u e => heartbeatHandles (posts F u e)) m es

/-- Nothing the master follows is gone, in any run; and of two slaves that stay registered over a
    stretch of a run, none is sent two heartbeats more than the other, whoever else registers, leaves
    or is closed in the meantime. -/
theorem heartbeats_even (F : Format Group) (connectionLimit : ℕ) (es fs : List MasterEvent) :
    ∃ m t, exec (step F) (init connectionLimit) es = .ok m ∧ exec (step F) m fs = .ok t ∧
      ∀ a b, Along (step F) (fun u _ => a ∈ slaveHandles u ∧ b ∈ slaveHandles u) m fs →
        a ∈ slaveHandles t ∧ b ∈ slaveHandles t →
          (beatsAlong F m fs).count a ≤ (beatsAlong F m fs).count b + 1 := by
  obtain ⟨m, hm, hsound⟩ := (Sound.init (F := F) connectionLimit).exists_exec es
  obtain ⟨t, ht, -⟩ := hsound.exists_exec fs
  refine ⟨m, t, hm, ht, fun a b hstay hlast => ?_⟩
  refine count_served_le (I := Sound F) (fun s e u hs hu => ?_) hsound hsound.nodup_slaveHandles ht
    hstay hlast
  exact ⟨(hs.outcome_step hu).sound, (hs.outcome_step hu).serves⟩

/-- The packet a slave registers with, at the time `1000`. -/
def slaveRegisters : Packet where
  cmdId := cmdRelayDispatcherSlaveRegister
  payload := written (ControlPlane.PPRelayDispatcherSlaveRegister.serializeMembers
    ControlPlane.ControlMessage.plainPrimitives) { timestampMS := 1000 }

/-- The packet a relay registers with. -/
def relayRegisters : Packet where
  cmdId := cmdRelayInfoRegister
  payload := written (ControlPlane.PPRelayRegister.serializeMembers
    ControlPlane.ControlMessage.plainPrimitives)
      { relayServerType := 1
        exportDeviceEntryAddress :=
          ⟨{ type := .ipv4, bytes := [192, 0, 2, 1], port := 7000 }, rfl, by decide⟩
        exportProxyEntryAddress :=
          ⟨{ type := .ipv4, bytes := [192, 0, 2, 1], port := 7001 }, rfl, by decide⟩ }

/-- Two slaves and a relay register. -/
def twoSlaves : List MasterEvent :=
  [.dispatcherConnected, .dispatcherPacket 1 slaveRegisters 1000, .dispatcherConnected,
    .dispatcherPacket 2 slaveRegisters 1000, .relayConnected, .relayPacket 1 relayRegisters]

/-- The relay keeps alive, while a third slave comes and goes. -/
def thirdSlave : List MasterEvent :=
  [.relayKeepAlive 1, .dispatcherConnected, .dispatcherPacket 3 slaveRegisters 1000,
    .relayKeepAlive 1, .relayKeepAlive 1, .dispatcherClean 3, .relayKeepAlive 1]

/-- The first and the second slave are registered. -/
def firstTwo (m : RelayDispatcherMaster UInt16) : Prop := 1 ∈ slaveHandles m ∧ 2 ∈ slaveHandles m

instance (m : RelayDispatcherMaster UInt16) : Decidable (firstTwo m) :=
  inferInstanceAs (Decidable (_ ∧ _))

theorem heartbeats_even_thirdSlave :
    ∃ m : RelayDispatcherMaster UInt16, exec (step plainFormat) (init 8) twoSlaves = .ok m ∧
      (beatsAlong plainFormat m thirdSlave).count 1 = 2 ∧
      (beatsAlong plainFormat m thirdSlave).count 2 ≤
        (beatsAlong plainFormat m thirdSlave).count 1 + 1 := by
  obtain ⟨m, hm, hcheck⟩ := exists_ok_of_check (x := exec (step plainFormat) (init 8) twoSlaves)
    (p := fun m => checkAlong (step plainFormat) (fun u _ => firstTwo u) m thirdSlave &&
      (exec (step plainFormat) m thirdSlave).toOption.any (fun t => decide (firstTwo t)) &&
        (beatsAlong plainFormat m thirdSlave).count 1 == 2) (by decide +kernel)
  simp only [Bool.and_eq_true, beq_iff_eq] at hcheck
  obtain ⟨⟨hstay, hlast⟩, htwo⟩ := hcheck
  obtain ⟨m', t, hm', ht, heven⟩ := heartbeats_even plainFormat 8 twoSlaves thirdSlave
  rw [hm] at hm'
  cases hm'
  rw [ht] at hlast
  have hboth : firstTwo t := of_decide_eq_true hlast
  refine ⟨m, hm, htwo, heven 2 1 ?_ hboth.symm⟩
  simpa only [firstTwo, and_comm] using along_of_check hstay

end RelayDispatcherMaster

end ProxyPlatform
