import ProxyPlatform.Base.Since
import ProxyPlatform.DeviceEntry.Sources
import ProxyPlatform.RelayDispatch.Network
import ProxyPlatform.RelayDispatch.Turns

/-!
# Where the observers have the relays from

A relay tells its addresses to the master, once, when it registers; what an observer knows of it
has come by the buffer of the master, a slave and two connections. Whatever the order of events,
and whatever else arrives at the master, nothing is made up on the way:

* `Registers`: an event in which a relay is given an id, and what it has registered with;
* `Traced P`: every heartbeat in a buffer, on the way or taken up by an observer is that of a relay
  with `P`; each event keeps it, `P` being what has registered so far (`Traced.step`);
* `exec_traced`: every relay an observer knows, and every address it offers to a device, has been
  registered;
* `exec_agree`: two observers that know a relay by the same id know the same addresses.

The id goes over the wire in 64 bits, so that the last two are about runs in which no more ids have
been given.
-/

namespace ProxyPlatform

namespace RelayNetwork

open RelayDispatch DeviceEntry

variable {Group σ ω : Type} (F : Format Group)

/-! ## What has registered -/

/-- In this event a relay is given the id `id`, and the context is that of its registration. -/
def Registers (n : RelayNetwork Group σ ω) (e : NetworkEvent σ ω) (id : ℕ)
    (context : RelayEntryContext Group) : Prop :=
  ∃ me posts m, e = .master me ∧ RelayDispatcherMaster.onEvent F n.master me = .ok (posts, m) ∧
    n.master.relayEntryContextPool.lastId < id ∧ m.relayEntryContextPool.get id = some context ∧
    RelayDispatcherMaster.Answers F me posts id context

/-- `P` holds of what a heartbeat tells. -/
def Told (P : ℕ → NetAddress → NetAddress → Prop) (b : ControlPlane.PPRelayInfoBroadcast Group) :
    Prop :=
  P b.serverId.toNat b.exportDeviceEntryAddress.1 b.exportProxyEntryAddress.1

/-- A packet is a heartbeat that tells what `P` holds of. -/
def Beats (P : ℕ → NetAddress → NetAddress → Prop) (p : Packet) : Prop :=
  ∃ b, p = F.heartbeat b ∧ Told P b

/-- Every heartbeat, from the contexts of the master to the observers, tells what `P` holds of. -/
structure Traced (P : ℕ → NetAddress → NetAddress → Prop) (n : RelayNetwork Group σ ω) : Prop where
  sound : RelayDispatcherMaster.Sound F n.master
  known : ∀ id context, n.master.relayEntryContextPool.get id = some context →
    Told P context.broadcast
  toSlave : ∀ s, ∀ p ∈ (n.slaves s).unread, p.cmdId = cmdRelayHeartbeatBroadcast → Beats F P p
  toObserver : ∀ s client c, (n.slaves s).clients.get client = some c →
    ∀ p ∈ c.unread, Beats F P p
  observers : ∀ o, Sourced P (n.observers o)

variable {F} {n t : RelayNetwork Group σ ω} {P Q : ℕ → NetAddress → NetAddress → Prop}

theorem Beats.mono {p : Packet} (h : Beats F P p) (hPQ : ∀ id d a, P id d a → Q id d a) :
    Beats F Q p :=
  let ⟨b, hp, hb⟩ := h
  ⟨b, hp, hPQ _ _ _ hb⟩

/-- An observer is told what the heartbeat tells. -/
theorem Beats.tells {p : Packet} (h : Beats F P p) : Tells P (F.decode p) := by
  obtain ⟨b, rfl, hb⟩ := h
  rw [F.decode_heartbeat]
  exact hb

namespace Traced

theorem mono (h : Traced F P n) (hPQ : ∀ id d a, P id d a → Q id d a) : Traced F Q n where
  sound := h.sound
  known id context hcontext := hPQ _ _ _ (h.known id context hcontext)
  toSlave s p hp hcmd := (h.toSlave s p hp hcmd).mono hPQ
  toObserver s client c hc p hp := (h.toObserver s client c hc p hp).mono hPQ
  observers o := (h.observers o).mono hPQ

theorem init (connectionLimit nowMS : ℕ) (getRegion : NetAddress → Option ℕ) :
    Traced F P (init connectionLimit nowMS getRegion : RelayNetwork Group σ ω) where
  sound := .init connectionLimit
  known _ _ h := by cases h
  toSlave _ _ hp := absurd hp List.not_mem_nil
  toObserver _ _ _ h := by cases h
  observers _ := .init nowMS getRegion

/-! ## The slaves and the observers -/

/-- The clients of a slave after one of them has changed or is gone. -/
theorem toClients {clients : Storage (SlaveClient ω)} {client : ℕ} {c new : SlaveClient ω}
    (h : ∀ client c, clients.get client = some c → ∀ p ∈ c.unread, Beats F P p)
    (hc : clients.get client = some c) (hnew : ∀ p ∈ new.unread, Beats F P p) (client' : ℕ)
    (c' : SlaveClient ω) (hc' : (clients.set client new).get client' = some c') :
    ∀ p ∈ c'.unread, Beats F P p := by
  rw [Storage.get_set hc] at hc'
  split at hc'
  · cases hc'
    exact hnew
  · exact h client' c' hc'

theorem toRest {clients : Storage (SlaveClient ω)}
    (h : ∀ client c, clients.get client = some c → ∀ p ∈ c.unread, Beats F P p) (client client' : ℕ)
    (c' : SlaveClient ω) (hc' : (clients.release client).get client' = some c') :
    ∀ p ∈ c'.unread, Beats F P p := by
  rw [Storage.get_release] at hc'
  split at hc'
  · cases hc'
  · exact h client' c' hc'

/-- What is dispatched is what the clients get. -/
theorem dispatchData {slave : DispatcherSlave ω} {p : Packet}
    (h : ∀ client c, slave.clients.get client = some c → ∀ p ∈ c.unread, Beats F P p)
    (hp : Beats F P p) : ∀ client c, (slave.dispatchData p).clients.get client = some c →
      ∀ p ∈ c.unread, Beats F P p := by
  rw [DispatcherSlave.dispatchData]
  generalize slave.clientList.nodes () = l
  generalize slave.clients = clients at h ⊢
  induction l generalizing clients with
  | nil => exact h
  | cons client l ih =>
    refine ih _ ?_
    rw [DispatcherSlave.postData]
    split
    · exact h
    · next c hc =>
      refine toClients h hc fun q hq => ?_
      rcases List.mem_append.1 hq with hq | hq
      · exact h client c hc q hq
      · exact List.mem_singleton.1 hq ▸ hp

/-- A slave handles what has arrived. -/
theorem onServerPacket (slave : DispatcherSlave ω) {p : Packet}
    (h : ∀ client c, slave.clients.get client = some c → ∀ p ∈ c.unread, Beats F P p)
    (hp : p.cmdId = cmdRelayHeartbeatBroadcast → Beats F P p) :
    (slave.onServerPacket F p).2.unread = slave.unread ∧
      ∀ client c, (slave.onServerPacket F p).2.clients.get client = some c →
        ∀ p ∈ c.unread, Beats F P p := by
  rw [DispatcherSlave.onServerPacket]
  split_ifs with hcmd
  · exact ⟨rfl, dispatchData h (hp hcmd)⟩
  · split
    · exact ⟨rfl, h⟩
    · exact ⟨rfl, h⟩
  · exact ⟨rfl, h⟩

section

variable [DecidableEq σ]

/-- A slave changes, and with it what is on the way to it and from it. -/
theorem setSlave (h : Traced F P n) {s : σ} {slave : DispatcherSlave ω}
    (hunread : ∀ p ∈ slave.unread, p.cmdId = cmdRelayHeartbeatBroadcast → Beats F P p)
    (hclients : ∀ client c, slave.clients.get client = some c → ∀ p ∈ c.unread, Beats F P p) :
    Traced F P (n.setSlave s slave) where
  sound := h.sound
  known := h.known
  toSlave s' := by
    by_cases heq : s' = s
    · subst heq
      simpa [RelayNetwork.setSlave] using hunread
    · simpa [RelayNetwork.setSlave, heq] using h.toSlave s'
  toObserver s' := by
    by_cases heq : s' = s
    · subst heq
      simpa [RelayNetwork.setSlave] using hclients
    · simpa [RelayNetwork.setSlave, heq] using h.toObserver s'
  observers := h.observers

end

section

variable [DecidableEq ω]

theorem setObserver (h : Traced F P n) {o : ω} {observer : DeviceEntry}
    (hobserver : Sourced P observer) : Traced F P (n.setObserver o observer) where
  sound := h.sound
  known := h.known
  toSlave := h.toSlave
  toObserver := h.toObserver
  observers o' := by
    by_cases heq : o' = o
    · subst heq
      simpa [RelayNetwork.setObserver] using hobserver
    · simpa [RelayNetwork.setObserver, heq] using h.observers o'

end

end Traced

/-! ## Events and runs -/

/-- What the master posts tells what is known of its relays, and what it knows has registered. -/
theorem Traced.master (h : Traced F P n) {me : MasterEvent} {posts : List MasterPost}
    {m : RelayDispatcherMaster Group} (hPQ : ∀ id d a, P id d a → Q id d a)
    (hnew : ∀ id context, Registers F n (.master me) id context → Told Q context.broadcast)
    (hm : RelayDispatcherMaster.onEvent F n.master me = .ok (posts, m)) :
    Traced F Q { n with
      master := m
      slaves := fun s =>
        { n.slaves s with unread := (n.slaves s).unread ++ (n.slaves s).arriving posts } } := by
  obtain ⟨posts', m', hm', houtcome⟩ := h.sound.exists_onEvent me
  rw [hm] at hm'
  cases hm'
  have hknown : ∀ id context, m.relayEntryContextPool.get id = some context →
      Told Q context.broadcast := by
    intro id context hcontext
    rcases houtcome.known id context hcontext with ⟨old, hold, heq⟩ | ⟨hid, hanswers⟩
    · rw [← heq]
      exact hPQ _ _ _ (h.known id old hold)
    · exact hnew id context ⟨me, posts, m, rfl, hm, hid, hcontext, hanswers⟩
  refine ⟨houtcome.sound, hknown, fun s p hp hcmd => ?_, (h.mono hPQ).toObserver,
    (h.mono hPQ).observers⟩
  rcases List.mem_append.1 hp with hp | hp
  · exact (h.toSlave s p hp hcmd).mono hPQ
  · obtain ⟨post, hpost, hsome⟩ := List.mem_filterMap.1 hp
    rcases post with ⟨handle, q⟩ | ⟨handle, q⟩
    · cases hsome
    · obtain ⟨-, heq⟩ := Option.ite_none_right_eq_some.1 hsome
      cases heq
      obtain ⟨id, context, hcontext, heq⟩ := houtcome.beats handle p hpost hcmd
      exact ⟨context.broadcast, heq, hknown id context hcontext⟩

variable [DecidableEq σ] [DecidableEq ω] (extractIndex : ℕ → ℕ) (hexToStr : Bytes → Bytes)

section

variable (F)

/-- A relay has registered in a run from `n`. -/
def Registered (n : RelayNetwork Group σ ω) (es : List (NetworkEvent σ ω)) (id : ℕ)
    (context : RelayEntryContext Group) : Prop :=
  ∃ pre e post u, es = pre ++ e :: post ∧ exec (step F extractIndex hexToStr) n pre = .ok u ∧
    Registers F u e id context

end

variable {extractIndex hexToStr} {e : NetworkEvent σ ω} {es : List (NetworkEvent σ ω)} {id : ℕ}
  {context : RelayEntryContext Group}

theorem registered_concat (h : exec (step F extractIndex hexToStr) n es = .ok t) :
    Registered F extractIndex hexToStr n (es ++ [e]) id context ↔
      Registered F extractIndex hexToStr n es id context ∨ Registers F t e id context := by
  constructor
  · rintro ⟨pre, d, post, u, heq, hu, hd⟩
    rcases concat_eq_append_cons.1 heq with ⟨rfl, rfl, rfl⟩ | ⟨post, rfl, rfl⟩
    · rw [h] at hu
      cases hu
      exact .inr hd
    · exact .inl ⟨pre, d, post, u, rfl, hu, hd⟩
  · rintro (⟨pre, d, post, u, rfl, hu, hd⟩ | hd)
    · exact ⟨pre, d, post ++ [e], u, by rw [List.append_assoc, List.cons_append], hu, hd⟩
    · exact ⟨es, e, [], t, rfl, h, hd⟩

/-- Every event keeps it, with what registers in it. -/
theorem Traced.step (h : Traced F P n) (hPQ : ∀ id d a, P id d a → Q id d a)
    (hnew : ∀ id context, Registers F n e id context → Told Q context.broadcast)
    (ht : step F extractIndex hexToStr n e = .ok t) : Traced F Q t := by
  have hQ := h.mono hPQ
  cases e with
  | master me =>
    rw [RelayNetwork.step] at ht
    rcases hm : RelayDispatcherMaster.onEvent F n.master me with x | ⟨posts, m⟩
    · rw [hm] at ht
      cases ht
    · rw [hm] at ht
      cases ht
      exact h.master hPQ hnew hm
  | slaveConnected s =>
    rw [RelayNetwork.step] at ht
    split at ht
    · cases ht
      exact hQ
    · next handle connections hacquire =>
      cases ht
      obtain ⟨posts, m, hm, houtcome⟩ := h.sound.exists_onEvent .dispatcherConnected
      rw [RelayDispatcherMaster.onEvent, hacquire] at hm
      cases hm
      have hmaster : Traced F Q { n with
          master := { n.master with dispatcherEntry := connections } } :=
        { hQ with sound := houtcome.sound }
      exact hmaster.setSlave (fun _ hq => absurd hq List.not_mem_nil) (hQ.toObserver s)
  | slaveReceives s =>
    rw [RelayNetwork.step] at ht
    split at ht
    · cases ht
      exact hQ
    · next p unread hunread =>
      split at ht
      next keep slave hslave =>
      cases ht
      have hp := hQ.toSlave s
      rw [hunread] at hp
      obtain ⟨hrest, hclients⟩ := Traced.onServerPacket (F := F)
        { n.slaves s with unread := unread } (hQ.toObserver s) (hp p List.mem_cons_self)
      rw [hslave] at hrest hclients
      rcases keep with _ | _
      · exact hQ.setSlave (fun _ hq => absurd hq List.not_mem_nil) hclients
      · refine hQ.setSlave (fun q hq => ?_) hclients
        rw [if_pos rfl, hrest] at hq
        exact hp q (List.mem_cons_of_mem p hq)
  | slaveDisconnected s =>
    cases ht
    exact hQ.setSlave (fun _ hq => absurd hq List.not_mem_nil) (hQ.toObserver s)
  | clientConnected s o =>
    cases ht
    rw [DispatcherSlave.onClientConnected]
    split
    · split
      · exact hQ.setSlave (hQ.toSlave s) (hQ.toObserver s)
      · next client clients hacquire =>
        refine hQ.setSlave (hQ.toSlave s) fun client' c hc => ?_
        change clients.get client' = some c at hc
        rw [Storage.get_acquire hacquire] at hc
        split at hc
        · cases hc
          exact fun _ hq => absurd hq List.not_mem_nil
        · exact hQ.toObserver s client' c hc
    · exact hQ.setSlave (hQ.toSlave s) (hQ.toObserver s)
  | clientReceives s client =>
    rw [RelayNetwork.step] at ht
    split at ht
    · cases ht
      exact hQ
    next c hc =>
    split at ht
    · cases ht
      exact hQ
    next p unread hunread =>
    split at ht
    next observer keep hobserved =>
    cases ht
    have hp := hQ.toObserver s client c hc
    rw [hunread] at hp
    have hobserver : Sourced Q (observed F extractIndex n c.observer p).1 :=
      (hQ.observers c.observer).onPacket (hp p List.mem_cons_self).tells
    rw [hobserved] at hobserver
    refine (hQ.setObserver hobserver).setSlave (hQ.toSlave s) ?_
    rcases keep with _ | _
    · exact Traced.toRest (hQ.toObserver s) client
    · exact Traced.toClients (hQ.toObserver s) hc fun q hq => hp q (List.mem_cons_of_mem p hq)
  | clientDisconnected s client =>
    cases ht
    exact hQ.setSlave (hQ.toSlave s) (Traced.toRest (hQ.toObserver s) client)
  | clientClean s client =>
    cases ht
    exact hQ.setSlave (hQ.toSlave s) (hQ.toObserver s)
  | tick o nowMS =>
    cases ht
    exact hQ.setObserver ((hQ.observers o).tick nowMS)
  | challenge o req =>
    rw [RelayNetwork.step, DeviceEntry.step] at ht
    split at ht
    · cases ht
    · next resp m hreq =>
      cases ht
      exact hQ.setObserver ((hQ.observers o).onDeviceChallenge hreq).1

/-- Only the master gives ids. -/
theorem relayPool_step (ht : step F extractIndex hexToStr n e = .ok t) :
    (∃ me posts, e = .master me ∧
      RelayDispatcherMaster.onEvent F n.master me = .ok (posts, t.master)) ∨
    t.master.relayEntryContextPool = n.master.relayEntryContextPool := by
  cases e with
  | master me =>
    rw [step] at ht
    rcases hm : RelayDispatcherMaster.onEvent F n.master me with x | ⟨posts, m⟩
    · rw [hm] at ht
      cases ht
    · rw [hm] at ht
      cases ht
      exact .inl ⟨me, posts, rfl, hm⟩
  | slaveConnected s =>
    right
    rw [step] at ht
    split at ht <;> cases ht <;> rfl
  | slaveReceives s =>
    right
    rw [step] at ht
    split at ht <;> cases ht <;> rfl
  | clientReceives s client =>
    right
    rw [step] at ht
    split at ht
    · cases ht; rfl
    · split at ht <;> cases ht <;> rfl
  | slaveDisconnected s | clientConnected s o | clientDisconnected s client | clientClean s client
  | tick o nowMS =>
    cases ht
    exact .inr rfl
  | challenge o req =>
    right
    rw [step, DeviceEntry.step] at ht
    split at ht <;> cases ht
    rfl

/-- Some relay has registered with the addresses, and its id is the given one on the wire. -/
def HasRegistered (n : RelayNetwork Group σ ω) (es : List (NetworkEvent σ ω)) (F : Format Group)
    (extractIndex : ℕ → ℕ) (hexToStr : Bytes → Bytes) (serverId : ℕ)
    (deviceEntryAddress proxyEntryAddress : NetAddress) : Prop :=
  ∃ id context, Registered F extractIndex hexToStr n es id context ∧
    serverId = (UInt64.ofNat id).toNat ∧ deviceEntryAddress = context.deviceEntryAddress.1 ∧
    proxyEntryAddress = context.proxyEntryAddress.1

/-- What holds of a run: what is told has registered, under ids that are the relays' own. -/
structure Origin (F : Format Group) (extractIndex : ℕ → ℕ) (hexToStr : Bytes → Bytes)
    (n : RelayNetwork Group σ ω) (es : List (NetworkEvent σ ω)) (t : RelayNetwork Group σ ω) :
    Prop where
  run : exec (step F extractIndex hexToStr) n es = .ok t
  traced : Traced F (HasRegistered n es F extractIndex hexToStr) t
  given : ∀ id context, Registered F extractIndex hexToStr n es id context →
    id ≤ t.master.relayEntryContextPool.lastId
  unique : ∀ id context context', Registered F extractIndex hexToStr n es id context →
    Registered F extractIndex hexToStr n es id context' → context = context'

theorem Origin.step {u : RelayNetwork Group σ ω} (h : Origin F extractIndex hexToStr n es t)
    (hu : step F extractIndex hexToStr t e = .ok u) :
    Origin F extractIndex hexToStr n (es ++ [e]) u := by
  -- A new id is above all that were given before, and is the last one then.
  have hregisters : ∀ id context, Registers F t e id context →
      t.master.relayEntryContextPool.lastId < id ∧
        u.master.relayEntryContextPool.get id = some context ∧
        RelayDispatcherMaster.Sound F u.master := by
    rintro id context ⟨me, posts, m, rfl, hm, hlt, hget, -⟩
    obtain ⟨posts', m', hm', houtcome⟩ := h.traced.sound.exists_onEvent me
    rw [RelayNetwork.step, hm] at hu
    rw [hm] at hm'
    cases hm'
    cases hu
    exact ⟨hlt, hget, houtcome.sound⟩
  have hle : t.master.relayEntryContextPool.lastId ≤ u.master.relayEntryContextPool.lastId := by
    rcases relayPool_step hu with ⟨me, posts, rfl, hm⟩ | heq
    · obtain ⟨posts', m', hm', houtcome⟩ := h.traced.sound.exists_onEvent me
      rw [hm] at hm'
      cases hm'
      exact houtcome.lastId_le
    · rw [heq]
  refine ⟨?_, ?_, fun id context hid => ?_, fun id context context' hid hid' => ?_⟩
  · rw [exec_snoc e h.run, hu]
  · refine h.traced.step ?_ ?_ hu
    · rintro id d a ⟨id', context, hid', heq⟩
      exact ⟨id', context, (registered_concat h.run).2 (.inl hid'), heq⟩
    · intro id context hid
      obtain ⟨-, hget, hsound⟩ := hregisters id context hid
      refine ⟨id, context, (registered_concat h.run).2 (.inr hid), ?_, rfl, rfl⟩
      rw [RelayEntryContext.broadcast, (hsound.relayContext id context hget).1]
  · rcases (registered_concat h.run).1 hid with hid | hid
    · exact (h.given id context hid).trans hle
    · exact Storage.le_lastId_of_get (hregisters id context hid).2.1
  · rcases (registered_concat h.run).1 hid with hid | hid <;>
      rcases (registered_concat h.run).1 hid' with hid' | hid'
    · exact h.unique id context context' hid hid'
    · exact absurd (h.given id context hid) (Nat.not_le.2 (hregisters id context' hid').1)
    · exact absurd (h.given id context' hid') (Nat.not_le.2 (hregisters id context hid).1)
    · have hget := (hregisters id context hid).2.1
      rw [(hregisters id context' hid').2.1] at hget
      exact (Option.some.inj hget).symm

theorem origin_of_exec {connectionLimit nowMS : ℕ} {getRegion : NetAddress → Option ℕ}
    (h : exec (step F extractIndex hexToStr) (init connectionLimit nowMS getRegion) es = .ok t) :
    Origin F extractIndex hexToStr (init connectionLimit nowMS getRegion) es t := by
  refine exec_history (I := fun es t => Origin F extractIndex hexToStr
    (init connectionLimit nowMS getRegion) es t) (fun pre s e u hs hu => hs.step hu) ?_ h
  have hnone : ∀ id context, ¬Registered F extractIndex hexToStr
      (init connectionLimit nowMS getRegion : RelayNetwork Group σ ω) [] id context := by
    rintro id context ⟨pre, e, post, u, heq, -⟩
    cases pre <;> cases heq
  exact ⟨rfl, .init connectionLimit nowMS getRegion, fun id c hid => absurd hid (hnone id c),
    fun id c c' hid => absurd hid (hnone id c)⟩

/-- The id of a relay that has registered is told as it is, as long as ids fit into 64 bits. -/
theorem Origin.registered {serverId : ℕ} {d a : NetAddress}
    (h : Origin F extractIndex hexToStr n es t)
    (hids : t.master.relayEntryContextPool.lastId < 2 ^ 64)
    (hid : HasRegistered n es F extractIndex hexToStr serverId d a) :
    ∃ context, Registered F extractIndex hexToStr n es serverId context ∧
      d = context.deviceEntryAddress.1 ∧ a = context.proxyEntryAddress.1 := by
  obtain ⟨id, context, hregistered, rfl, hd, ha⟩ := hid
  have hwire : (UInt64.ofNat id).toNat = id :=
    UInt64.toNat_ofNat_of_lt' ((h.given id context hregistered).trans_lt hids)
  exact ⟨context, hwire.symm ▸ hregistered, hd, ha⟩

/-- Whatever the order of events, a relay that an observer knows has registered with the addresses
    the observer knows, under the id the observer knows; and an address that is offered to a device
    is one that some relay has registered with for devices. -/
theorem exec_traced {connectionLimit nowMS : ℕ} {getRegion : NetAddress → Option ℕ}
    (h : exec (step F extractIndex hexToStr) (init connectionLimit nowMS getRegion) es = .ok t)
    (hids : t.master.relayEntryContextPool.lastId < 2 ^ 64) (o : ω) :
    (∀ i, ((t.observers o).1.relayServerList i).serverId ≠ 0 → ∃ context,
      Registered F extractIndex hexToStr (init connectionLimit nowMS getRegion) es
        ((t.observers o).1.relayServerList i).serverId context ∧
      ((t.observers o).1.relayServerList i).exportDeviceEntryAddress =
        context.deviceEntryAddress.1 ∧
      ((t.observers o).1.relayServerList i).exportProxyEntryAddress =
        context.proxyEntryAddress.1) ∧
    ∀ req resp m, onDeviceChallenge hexToStr (t.observers o).2.localRelayInfoManager req =
        .ok (some resp, m) → resp.accepted = true → ∃ id context,
      Registered F extractIndex hexToStr (init connectionLimit nowMS getRegion) es id context ∧
        resp.relayAddress = context.deviceEntryAddress.1 := by
  have horigin := origin_of_exec h
  have hobserver := horigin.traced.observers o
  refine ⟨fun i hi => horigin.registered hids (hobserver.slot i hi), fun req resp m hreq hresp => ?_⟩
  obtain ⟨id, a, hid⟩ := (hobserver.onDeviceChallenge hreq).2 resp rfl hresp
  obtain ⟨context, hregistered, hd, -⟩ := horigin.registered hids hid
  exact ⟨id, context, hregistered, hd⟩

/-- A relay registers, and its heartbeat goes by a slave to two observers. -/
def twoObservers : List (NetworkEvent Unit Bool) :=
  [.slaveConnected (), .master (.dispatcherPacket 1 RelayDispatcherMaster.slaveRegisters 1000),
    .clientConnected () false, .clientConnected () true, .master .relayConnected,
    .master (.relayPacket 1 RelayDispatcherMaster.relayRegisters), .slaveReceives (),
    .slaveReceives (), .clientReceives () 1, .clientReceives () 2]

/-- A network of one slave and two observers, in which the slot of a relay is its id, less one. -/
def oneSlaveStep : RelayNetwork UInt16 Unit Bool → NetworkEvent Unit Bool →
    Except Fault (RelayNetwork UInt16 Unit Bool) :=
  step plainFormat (· - 1) fun bytes => bytes

/-- Both observers know the first relay. -/
def bothKnow (t : RelayNetwork UInt16 Unit Bool) : Bool :=
  ((t.observers false).1.relayServerList 0).serverId = 1 ∧
    ((t.observers true).1.relayServerList 0).serverId = 1 ∧
    t.master.relayEntryContextPool.lastId < 2 ^ 64

theorem exec_traced_twoObservers :
    ∃ t : RelayNetwork UInt16 Unit Bool, exec oneSlaveStep (init 8 0 fun _ => some 7)
        twoObservers = .ok t ∧
      ∃ context, Registered plainFormat (· - 1) (fun bytes => bytes) (init 8 0 fun _ => some 7)
          twoObservers 1 context ∧
        ((t.observers true).1.relayServerList 0).exportDeviceEntryAddress =
          context.deviceEntryAddress.1 := by
  obtain ⟨t, ht, hknow⟩ := exists_ok_of_check (x := exec oneSlaveStep
    (init 8 0 fun _ => some 7) twoObservers) (p := bothKnow) (by decide +kernel)
  simp only [bothKnow, decide_eq_true_eq] at hknow
  obtain ⟨-, hone, hids⟩ := hknow
  obtain ⟨context, hregistered, hd, -⟩ :=
    (exec_traced ht hids true).1 0 (hone.trans_ne Nat.one_ne_zero)
  exact ⟨t, ht, context, hone ▸ hregistered, hd⟩

/-- Two observers that know a relay by the same id know the same addresses, however late either has
    heard of it. -/
theorem exec_agree {connectionLimit nowMS : ℕ} {getRegion : NetAddress → Option ℕ}
    (h : exec (step F extractIndex hexToStr) (init connectionLimit nowMS getRegion) es = .ok t)
    (hids : t.master.relayEntryContextPool.lastId < 2 ^ 64) (o o' : ω) (i i' : ℕ)
    (hi : ((t.observers o).1.relayServerList i).serverId ≠ 0)
    (hsame : ((t.observers o).1.relayServerList i).serverId =
      ((t.observers o').1.relayServerList i').serverId) :
    ((t.observers o).1.relayServerList i).toLocalRelayInfo =
      ((t.observers o').1.relayServerList i').toLocalRelayInfo := by
  have horigin := origin_of_exec h
  obtain ⟨context, hid, hd, ha⟩ :=
    horigin.registered hids ((horigin.traced.observers o).slot i hi)
  obtain ⟨context', hid', hd', ha'⟩ :=
    horigin.registered hids ((horigin.traced.observers o').slot i' (hsame ▸ hi))
  rw [← hsame] at hid'
  rw [horigin.unique _ context context' hid hid'] at hd ha
  rw [LocalRelayInfo.mk.injEq]
  exact ⟨hsame, hd.trans hd'.symm, ha.trans ha'.symm⟩

theorem exec_agree_twoObservers :
    ∃ t : RelayNetwork UInt16 Unit Bool, exec oneSlaveStep (init 8 0 fun _ => some 7)
        twoObservers = .ok t ∧ ((t.observers false).1.relayServerList 0).toLocalRelayInfo =
          ((t.observers true).1.relayServerList 0).toLocalRelayInfo := by
  obtain ⟨t, ht, hknow⟩ := exists_ok_of_check (x := exec oneSlaveStep
    (init 8 0 fun _ => some 7) twoObservers) (p := bothKnow) (by decide +kernel)
  simp only [bothKnow, decide_eq_true_eq] at hknow
  obtain ⟨hone, hone', hids⟩ := hknow
  exact ⟨t, ht, exec_agree ht hids false true 0 0 (hone.trans_ne Nat.one_ne_zero)
    (hone.trans hone'.symm)⟩

end RelayNetwork

end ProxyPlatform
