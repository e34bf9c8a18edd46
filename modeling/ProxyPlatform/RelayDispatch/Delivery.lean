import ProxyPlatform.Base.Balance
import ProxyPlatform.RelayDispatch.Origin
import ProxyPlatform.RelayDispatch.Wires
import Mathlib.Tactic.Abel

/-!
# How often a heartbeat arrives

The master sends a heartbeat to one slave, and the slave copies it to all that are connected to
it; an observer is connected to all slaves, and takes heartbeats from each of them. So a
heartbeat should arrive at an observer once, whichever slave it went to.

What is on the way to an observer (`inFlight`) is what is on the way to the slaves and what is on
the way from them to the observer. An event loses some of it (`Loses`) or copies it (`Copies`);
otherwise what is taken and what is on the way are in balance with what is sent
(`balanced_step`):

* `delivered_le`: an observer that is never connected to a slave twice takes no heartbeat more often
  than it was sent, whatever is lost;
* `delivered_eq`: over a stretch of a run in which nothing is lost or copied, what it takes and what
  is on the way in the end are what was on the way and what is sent.
-/

namespace ProxyPlatform

namespace RelayDispatch

/-- The heartbeats among packets, however often they are there. -/
def heartbeats (l : List Packet) : Multiset Packet :=
  l.filter fun p => p.cmdId = cmdRelayHeartbeatBroadcast

theorem heartbeats_append (l l' : List Packet) :
    heartbeats (l ++ l') = heartbeats l + heartbeats l' := by
  rw [heartbeats, List.filter_append, ← Multiset.coe_add]
  rfl

theorem heartbeats_cons (p : Packet) (l : List Packet) :
    heartbeats (p :: l) = heartbeats [p] + heartbeats l := heartbeats_append [p] l

theorem heartbeats_of_eq {p : Packet} (h : p.cmdId = cmdRelayHeartbeatBroadcast) :
    heartbeats [p] = {p} := by
  rw [heartbeats, List.filter_cons_of_pos (by simpa using h)]
  rfl

theorem heartbeats_of_ne {p : Packet} (h : p.cmdId ≠ cmdRelayHeartbeatBroadcast) :
    heartbeats [p] = 0 := by
  rw [heartbeats, List.filter_cons_of_neg (by simpa using h)]
  rfl

variable {ω : Type} [DecidableEq ω] {Group : Type} {F : Format Group} {o : ω} {p : Packet}
  {clients : Storage (SlaveClient ω)} {client : ℕ} {c : SlaveClient ω}

/-! ## What is on the way from a slave -/

/-- The heartbeats that are on the way to an observer on a connection. -/
def SlaveClient.share (o : ω) (c : SlaveClient ω) : Multiset Packet :=
  if c.observer = o then heartbeats c.unread else 0

/-- The heartbeats that are on the way to an observer from a slave. -/
def shares (o : ω) (clients : Storage (SlaveClient ω)) : Multiset Packet :=
  clients.sum fun _ c => c.share o

theorem shares_set (hc : clients.get client = some c) (new : SlaveClient ω) :
    shares o (clients.set client new) + c.share o = shares o clients + new.share o := by
  rw [shares, Storage.sum_set hc, shares, ← Storage.sum_release hc, add_assoc, add_comm,
    add_comm ((clients.release client).sum _)]

theorem shares_release (hc : clients.get client = some c) :
    shares o (clients.release client) + c.share o = shares o clients := by
  rw [add_comm]
  exact Storage.sum_release hc _

/-- The connection is one of the observer. -/
def isClientOf (o : ω) (clients : Storage (SlaveClient ω)) (client : ℕ) : Bool :=
  (clients.get client).map (·.observer) = some o

/-- A posted packet does not change whose connections they are. -/
theorem isClientOf_postData (p : Packet) (client' : ℕ) :
    isClientOf o (DispatcherSlave.postData p clients client') client =
      isClientOf o clients client := by
  rw [DispatcherSlave.postData]
  split
  · rfl
  · next c hc =>
    rw [isClientOf, Storage.get_set hc]
    split
    · next heq => rw [heq, isClientOf, hc, Option.map_some, Option.map_some]
    · rfl

theorem shares_postData (p : Packet) (client : ℕ) :
    shares o (DispatcherSlave.postData p clients client) =
      shares o clients + if isClientOf o clients client then heartbeats [p] else 0 := by
  rw [DispatcherSlave.postData, isClientOf]
  split
  · next hnone => simp [hnone]
  · next c hc =>
    have hset := shares_set (o := o) hc { c with unread := c.unread ++ [p] }
    rw [hc, Option.map_some]
    by_cases ho : c.observer = o
    · rw [SlaveClient.share, SlaveClient.share, if_pos ho, if_pos ho, heartbeats_append,
        ← add_assoc, add_right_comm, add_left_inj] at hset
      rw [hset, if_pos (by simp [ho])]
    · rw [SlaveClient.share, SlaveClient.share, if_neg ho, if_neg ho, add_zero, add_zero] at hset
      rw [hset, if_neg (by simp [ho]), add_zero]

namespace DispatcherSlave

/-- The number of connections of an observer in the list of a slave. -/
def links (o : ω) (s : DispatcherSlave ω) : ℕ :=
  (s.clientList.nodes ()).countP (isClientOf o s.clients)

/-- The heartbeats that are on the way to a slave, and from it to an observer. -/
def flight (o : ω) (s : DispatcherSlave ω) : Multiset Packet :=
  heartbeats s.unread + shares o s.clients

theorem flight_disconnect (s : DispatcherSlave ω) : s.disconnect.flight o = shares o s.clients := by
  rw [flight]
  exact zero_add _

/-- A packet that is dispatched is copied for every connection in the list. -/
theorem shares_dispatchData (s : DispatcherSlave ω) (p : Packet) :
    shares o (s.dispatchData p).clients = shares o s.clients + s.links o • heartbeats [p] := by
  rw [dispatchData, links]
  generalize s.clientList.nodes () = l
  generalize s.clients = clients
  induction l generalizing clients with
  | nil => simp
  | cons client l ih =>
    have hsame : l.countP (isClientOf o (postData p clients client)) =
        l.countP (isClientOf o clients) :=
      List.countP_congr fun client' _ => by rw [isClientOf_postData]
    rw [List.foldl_cons, ih, shares_postData, hsame, List.countP_cons, add_nsmul, add_assoc,
      add_comm (ite _ _ _)]
    split
    · rw [one_nsmul]
    · rw [zero_nsmul]

/-- A slave copies the heartbeat it handles, and nothing else. -/
theorem flight_onServerPacket (s : DispatcherSlave ω) (p : Packet) :
    (s.onServerPacket F p).2.flight o = s.flight o + s.links o • heartbeats [p] := by
  rw [onServerPacket]
  split_ifs with hcmd
  · rw [flight, shares_dispatchData, ← add_assoc]
    rfl
  · rw [heartbeats_of_ne hcmd, nsmul_zero, add_zero]
    split <;> rfl
  · rw [heartbeats_of_ne hcmd, nsmul_zero, add_zero]

end DispatcherSlave

end RelayDispatch

namespace RelayNetwork

open RelayDispatch

variable {Group σ ω : Type} (F : Format Group) (extractIndex : ℕ → ℕ)

/-! ## What is sent and what arrives -/

/-- The heartbeats that are sent to the slaves among what is posted. -/
def sent (posts : List MasterPost) : List Packet :=
  posts.filterMap fun
    | .toRelay .. => none
    | .toDispatcher _ p => if p.cmdId = cmdRelayHeartbeatBroadcast then some p else none

/-- The heartbeats the master sends in an event. -/
def dispatched (n : RelayNetwork Group σ ω) : NetworkEvent σ ω → List Packet
  | .master me => sent (RelayDispatcherMaster.posts F n.master me)
  | _ => []

/-- What is posted to a connection arrives at the slave that has it, if there is one. -/
theorem exists_arriving [Fintype σ] {n : RelayNetwork Group σ ω} (h : Wired n)
    (posts : List MasterPost) :
    ∃ lost : Multiset Packet,
      ∑ s, heartbeats ((n.slaves s).arriving posts) + lost = ↑(sent posts) ∧
        ((∀ handle ∈ RelayDispatcherMaster.heartbeatHandles posts,
          ∃ s, (n.slaves s).masterConnection = some handle) → lost = 0) := by
  induction posts with
  | nil => exact ⟨0, by simp [DispatcherSlave.arriving, heartbeats, sent], fun _ => rfl⟩
  | cons post posts ih =>
    obtain ⟨lost, hlost, hnone⟩ := ih
    cases post with
    | toRelay handle p => exact ⟨lost, hlost, hnone⟩
    | toDispatcher handle p =>
      have harriving (s : σ) : heartbeats ((n.slaves s).arriving (.toDispatcher handle p :: posts)) =
          (if (n.slaves s).masterConnection = some handle then heartbeats [p] else 0) +
            heartbeats ((n.slaves s).arriving posts) := by
        by_cases hs : (n.slaves s).masterConnection = some handle
        · have hcons : (n.slaves s).arriving (.toDispatcher handle p :: posts) =
              p :: (n.slaves s).arriving posts := List.filterMap_cons_some (if_pos hs)
          rw [hcons, if_pos hs, heartbeats_cons]
        · have hcons : (n.slaves s).arriving (.toDispatcher handle p :: posts) =
              (n.slaves s).arriving posts := List.filterMap_cons_none (if_neg hs)
          rw [hcons, if_neg hs, zero_add]
      rw [Finset.sum_congr rfl fun s _ => harriving s, Finset.sum_add_distrib]
      by_cases hcmd : p.cmdId = cmdRelayHeartbeatBroadcast
      · have hsent : sent (.toDispatcher handle p :: posts) = p :: sent posts :=
          List.filterMap_cons_some (if_pos hcmd)
        have hhandles : RelayDispatcherMaster.heartbeatHandles (.toDispatcher handle p :: posts) =
            handle :: RelayDispatcherMaster.heartbeatHandles posts :=
          List.filterMap_cons_some (if_pos hcmd)
        rw [hsent, hhandles, heartbeats_of_eq hcmd, ← Multiset.cons_coe, ← Multiset.singleton_add,
          ← hlost]
        by_cases hslave : ∃ s, (n.slaves s).masterConnection = some handle
        · -- It is on the way to the one slave that has the connection.
          obtain ⟨s, hs⟩ := hslave
          refine ⟨lost, ?_, fun hall => hnone fun handle' hhandle' =>
            hall handle' (List.mem_cons_of_mem _ hhandle')⟩
          rw [add_assoc, Finset.sum_eq_single s, if_pos hs]
          · intro s' _ hne
            exact if_neg fun hs' => hne (h.unique s' s handle hs' hs)
          · exact fun hs' => absurd (Finset.mem_univ s) hs'
        · refine ⟨{p} + lost, ?_, fun hall => absurd (hall handle List.mem_cons_self) hslave⟩
          rw [Finset.sum_eq_zero fun s _ => if_neg fun hs => hslave ⟨s, hs⟩, zero_add,
            add_left_comm]
      · have hsent : sent (.toDispatcher handle p :: posts) = sent posts :=
          List.filterMap_cons_none (if_neg hcmd)
        have hhandles : RelayDispatcherMaster.heartbeatHandles (.toDispatcher handle p :: posts) =
            RelayDispatcherMaster.heartbeatHandles posts := List.filterMap_cons_none (if_neg hcmd)
        rw [hsent, hhandles, heartbeats_of_ne hcmd, Finset.sum_eq_zero fun s _ => ite_self _,
          zero_add]
        exact ⟨lost, hlost, hnone⟩

variable [DecidableEq ω]

/-- The heartbeats an observer takes in an event. -/
def taken (o : ω) (n : RelayNetwork Group σ ω) : NetworkEvent σ ω → List Packet
  | .clientReceives s client => match (n.slaves s).clients.get client with
    | none => []
    | some c => if c.observer = o then
        (c.unread.take 1).filter fun p => p.cmdId = cmdRelayHeartbeatBroadcast
      else []
  | _ => []

/-- A slave refuses what is next on its connection, and gives the connection up. -/
def refuses (slave : DispatcherSlave ω) : Bool :=
  match slave.unread with
  | [] => false
  | p :: unread => !(DispatcherSlave.onServerPacket F { slave with unread := unread } p).1

/-- An observer refuses what is next on a connection, and gives the connection up. -/
def rejects (n : RelayNetwork Group σ ω) (c : SlaveClient ω) : Bool :=
  match c.unread with
  | [] => false
  | p :: _ => !(observed F extractIndex n c.observer p).2

/-- The event makes two of one heartbeat that is on the way to the observer. -/
def Copies (o : ω) (n : RelayNetwork Group σ ω) : NetworkEvent σ ω → Prop
  | .slaveReceives s => 1 < (n.slaves s).links o
  | _ => False

/-- The event may lose a heartbeat that is, or would be, on the way to the observer: it is sent on a
    connection that no slave has any more, the observer is not connected to the slave it arrives at,
    or the connection it is on is given up, or lost. -/
def Loses (o : ω) (n : RelayNetwork Group σ ω) : NetworkEvent σ ω → Prop
  | .master me => ∃ handle ∈ RelayDispatcherMaster.heartbeatHandles
      (RelayDispatcherMaster.posts F n.master me),
      ∀ s, (n.slaves s).masterConnection ≠ some handle
  | .slaveConnected s | .slaveDisconnected s => heartbeats (n.slaves s).unread ≠ 0
  | .slaveReceives s =>
    (n.slaves s).links o = 0 ∧ heartbeats ((n.slaves s).unread.take 1) ≠ 0 ∨
      refuses F (n.slaves s) = true
  | .clientReceives s client => ∃ c ∈ (n.slaves s).clients.get client,
    c.observer = o ∧ rejects F extractIndex n c = true
  | .clientDisconnected s client => ∃ c ∈ (n.slaves s).clients.get client,
    c.observer = o ∧ heartbeats c.unread ≠ 0
  | _ => False

instance (o : ω) (n : RelayNetwork Group σ ω) (e : NetworkEvent σ ω) : Decidable (Copies o n e) := by
  cases e with
  | slaveReceives s => exact inferInstanceAs (Decidable (1 < (n.slaves s).links o))
  | _ => exact isFalse not_false

instance [Fintype σ] (o : ω) (n : RelayNetwork Group σ ω) (e : NetworkEvent σ ω) :
    Decidable (Loses F extractIndex o n e) := by
  cases e with
  | master me =>
    exact inferInstanceAs (Decidable (∃ handle ∈ RelayDispatcherMaster.heartbeatHandles
      (RelayDispatcherMaster.posts F n.master me), ∀ s, (n.slaves s).masterConnection ≠ some handle))
  | slaveConnected s | slaveDisconnected s =>
    exact inferInstanceAs (Decidable (heartbeats (n.slaves s).unread ≠ 0))
  | slaveReceives s =>
    exact inferInstanceAs (Decidable (((n.slaves s).links o = 0 ∧
      heartbeats ((n.slaves s).unread.take 1) ≠ 0) ∨ refuses F (n.slaves s) = true))
  | clientReceives s client =>
    exact inferInstanceAs (Decidable (∃ c ∈ (n.slaves s).clients.get client,
      c.observer = o ∧ rejects F extractIndex n c = true))
  | clientDisconnected s client =>
    exact inferInstanceAs (Decidable (∃ c ∈ (n.slaves s).clients.get client,
      c.observer = o ∧ heartbeats c.unread ≠ 0))
  | _ => exact isFalse not_false

variable {F extractIndex} {hexToStr : Bytes → Bytes} {n t : RelayNetwork Group σ ω}
  {e : NetworkEvent σ ω} {o : ω}

/-! ## What is on the way to an observer -/

section InFlight

variable [Fintype σ]

/-- The heartbeats that are on the way to the slaves, and from the slaves to an observer. -/
def inFlight (o : ω) (n : RelayNetwork Group σ ω) : Multiset Packet :=
  ∑ s, (n.slaves s).flight o

theorem inFlight_init (connectionLimit nowMS : ℕ) (getRegion : NetAddress → Option ℕ) :
    inFlight o (init connectionLimit nowMS getRegion : RelayNetwork Group σ ω) = 0 :=
  Finset.sum_eq_zero fun _ _ => rfl

theorem inFlight_setSlave [DecidableEq σ] (s : σ) (slave : DispatcherSlave ω) :
    inFlight o (n.setSlave s slave) + (n.slaves s).flight o = inFlight o n + slave.flight o :=
  sum_update n.slaves (DispatcherSlave.flight o) s slave

/-- What an event makes of what is on the way to an observer and of what is sent: it is taken, it is
    on the way, or it is lost; and there may be more of it. -/
def Balanced (F : Format Group) (extractIndex : ℕ → ℕ) (o : ω) (n : RelayNetwork Group σ ω)
    (e : NetworkEvent σ ω) (t : RelayNetwork Group σ ω) : Prop :=
  ∃ lost made : Multiset Packet,
    ↑(taken o n e) + inFlight o t + lost = inFlight o n + ↑(dispatched F n e) + made ∧
      (¬Copies o n e → made = 0) ∧ (¬Loses F extractIndex o n e → lost = 0)

/-- One slave has changed at most. -/
theorem Balanced.of_slave [DecidableEq σ] {s : σ} {slave : DispatcherSlave ω}
    (ht : t.slaves = Function.update n.slaves s slave) (hdispatched : dispatched F n e = [])
    (lost made : Multiset Packet)
    (hflight : ↑(taken o n e) + slave.flight o + lost = (n.slaves s).flight o + made)
    (hmade : ¬Copies o n e → made = 0) (hlost : ¬Loses F extractIndex o n e → lost = 0) :
    Balanced F extractIndex o n e t := by
  refine ⟨lost, made, ?_, hmade, hlost⟩
  have hset : inFlight o t + (n.slaves s).flight o = inFlight o n + slave.flight o := by
    rw [inFlight, ht]
    exact inFlight_setSlave s slave
  refine add_right_cancel (b := (n.slaves s).flight o) ?_
  calc ↑(taken o n e) + inFlight o t + lost + (n.slaves s).flight o
      = ↑(taken o n e) + lost + (inFlight o t + (n.slaves s).flight o) := by abel
    _ = inFlight o n + (↑(taken o n e) + slave.flight o + lost) := by rw [hset]; abel
    _ = inFlight o n + ↑(dispatched F n e) + made + (n.slaves s).flight o := by
      rw [hflight, hdispatched, Multiset.coe_nil]
      abel

/-- The connections to one slave have changed at most. -/
theorem Balanced.of_clients [DecidableEq σ] {s : σ} {slave : DispatcherSlave ω}
    (ht : t.slaves = Function.update n.slaves s slave) (hdispatched : dispatched F n e = [])
    (hunread : slave.unread = (n.slaves s).unread) (lost : Multiset Packet)
    (hshares : ↑(taken o n e) + shares o slave.clients + lost = shares o (n.slaves s).clients)
    (hlost : ¬Loses F extractIndex o n e → lost = 0) : Balanced F extractIndex o n e t := by
  refine .of_slave ht hdispatched lost 0 ?_ (fun _ => rfl) hlost
  rw [DispatcherSlave.flight, DispatcherSlave.flight, hunread, add_left_comm, add_assoc, hshares,
    add_zero]

/-- Nothing is taken or lost. -/
theorem Balanced.of_quiet [DecidableEq σ] {s : σ} {slave : DispatcherSlave ω}
    (ht : t.slaves = Function.update n.slaves s slave) (hdispatched : dispatched F n e = [])
    (htaken : taken o n e = []) (hunread : slave.unread = (n.slaves s).unread)
    (hshares : shares o slave.clients = shares o (n.slaves s).clients) :
    Balanced F extractIndex o n e t := by
  refine .of_clients ht hdispatched hunread 0 ?_ fun _ => rfl
  rw [htaken, hshares, Multiset.coe_nil, zero_add, add_zero]

/-- No slave has changed. -/
theorem Balanced.of_same (ht : t.slaves = n.slaves) (hdispatched : dispatched F n e = [])
    (htaken : taken o n e = []) : Balanced F extractIndex o n e t := by
  refine ⟨0, 0, ?_, fun _ => rfl, fun _ => rfl⟩
  have hflight : inFlight o t = inFlight o n := by rw [inFlight, ht, inFlight]
  rw [hflight, hdispatched, htaken, Multiset.coe_nil, zero_add, add_zero, add_zero]

/-! ## What an event does -/

variable [DecidableEq σ]

theorem Balanced.master (h : Wired n) {me : MasterEvent}
    (ht : step F extractIndex hexToStr n (.master me) = .ok t) :
    Balanced F extractIndex o n (.master me) t := by
  obtain ⟨⟨posts, m⟩, hm, heq⟩ := map_eq_ok ht
  cases heq
  have hposts : RelayDispatcherMaster.posts F n.master me = posts := by
    rw [RelayDispatcherMaster.posts, hm]
  obtain ⟨lost, hlost, hnone⟩ := exists_arriving h posts
  refine ⟨lost, 0, ?_, fun _ => rfl, fun hloses => hnone fun handle hhandle => ?_⟩
  · have hflight (s : σ) : DispatcherSlave.flight o
        { n.slaves s with unread := (n.slaves s).unread ++ (n.slaves s).arriving posts } =
          (n.slaves s).flight o + heartbeats ((n.slaves s).arriving posts) := by
      rw [DispatcherSlave.flight, heartbeats_append, add_right_comm]
      rfl
    have htaken : taken o n (.master me) = [] := rfl
    rw [htaken, inFlight, Finset.sum_congr rfl fun s _ => hflight s, Finset.sum_add_distrib,
      dispatched, hposts, Multiset.coe_nil, zero_add, add_zero, add_assoc, hlost]
    rfl
  · by_contra hno
    exact hloses ⟨handle, hposts ▸ hhandle, fun s hs => hno ⟨s, hs⟩⟩

theorem Balanced.slaveReceives {s : σ}
    (ht : step F extractIndex hexToStr n (.slaveReceives s) = .ok t) :
    Balanced F extractIndex o n (.slaveReceives s) t := by
  rw [step] at ht
  split at ht
  · cases ht
    exact .of_same rfl rfl rfl
  next p unread hunread =>
  split at ht
  next keep slave hslave =>
  cases ht
  have hreceived := DispatcherSlave.flight_onServerPacket (F := F) (o := o)
    { n.slaves s with unread := unread } p
  have hflight : (n.slaves s).flight o =
      heartbeats [p] + DispatcherSlave.flight o { n.slaves s with unread := unread } := by
    rw [DispatcherSlave.flight, hunread, heartbeats_cons, add_assoc]
    rfl
  have hlinks : DispatcherSlave.links o { n.slaves s with unread := unread } =
    (n.slaves s).links o := rfl
  rw [hslave, hlinks] at hreceived
  have hkept : slave.flight o = (if keep then slave else slave.disconnect).flight o +
      if keep then 0 else heartbeats slave.unread := by
    split_ifs
    · rw [add_zero]
    · rw [DispatcherSlave.flight_disconnect, add_comm]
      rfl
  have hrefuses : refuses F (n.slaves s) = !keep := by
    rw [refuses, hunread]
    simp [hslave]
  have htaken : taken o n (.slaveReceives s) = [] := rfl
  have hrest (hno : ¬Loses F extractIndex o n (.slaveReceives s)) :
      (if keep then 0 else heartbeats slave.unread) = 0 := by
    rw [Loses, hrefuses] at hno
    exact if_pos (by simpa using (not_or.1 hno).2)
  cases hcount : (n.slaves s).links o with
  | zero =>
    -- No connection of the observer is in the list.
    refine .of_slave rfl rfl (heartbeats [p] + if keep then 0 else heartbeats slave.unread) 0 ?_
      (fun _ => rfl) fun hno => ?_
    · rw [hcount, zero_nsmul, add_zero] at hreceived
      rw [htaken, hflight, ← hreceived, hkept, Multiset.coe_nil, zero_add, add_zero, add_left_comm]
    · rw [hrest hno, add_zero]
      rw [Loses, hunread] at hno
      exact not_not.1 fun hp => hno (.inl ⟨hcount, hp⟩)
  | succ more =>
    refine .of_slave rfl rfl (if keep then 0 else heartbeats slave.unread) (more • heartbeats [p]) ?_
      (fun hno => ?_) hrest
    · rw [hcount, succ_nsmul'] at hreceived
      rw [htaken, hflight, Multiset.coe_nil, zero_add, ← hkept, hreceived, ← add_assoc,
        add_comm (heartbeats [p])]
    · have hzero : more = 0 := by
        rw [Copies, hcount] at hno
        omega
      rw [hzero, zero_nsmul]

theorem Balanced.clientReceives {s : σ} {client : ℕ}
    (ht : step F extractIndex hexToStr n (.clientReceives s client) = .ok t) :
    Balanced F extractIndex o n (.clientReceives s client) t := by
  rw [step] at ht
  split at ht
  · next hnone =>
    cases ht
    exact .of_same rfl rfl (by rw [taken, hnone])
  next c hc =>
  split at ht
  · next hnil =>
    cases ht
    exact .of_same rfl rfl (by rw [taken, hc]; simp [hnil])
  next p unread hunread =>
  split at ht
  next observer keep hobserved =>
  cases ht
  have htaken : (↑(taken o n (.clientReceives s client)) : Multiset Packet) =
      if c.observer = o then heartbeats [p] else 0 := by
    rw [taken, hc]
    dsimp only
    rw [hunread, List.take_one]
    split_ifs <;> rfl
  have hshare : c.share o = ↑(taken o n (.clientReceives s client)) +
      SlaveClient.share o { c with unread := unread } := by
    rw [htaken, SlaveClient.share, SlaveClient.share, hunread, heartbeats_cons]
    split_ifs
    · rfl
    · rfl
  rcases keep with _ | _
  · refine .of_clients rfl rfl rfl (SlaveClient.share o { c with unread := unread }) ?_
      fun hloses => ?_
    · rw [add_right_comm, ← hshare, add_comm]
      exact shares_release hc
    · refine if_neg fun ho => hloses ⟨c, hc, ho, ?_⟩
      rw [rejects, hunread]
      simp [hobserved]
  · refine .of_clients rfl rfl rfl 0 ?_ fun _ => rfl
    have hset := shares_set (o := o) hc { c with unread := unread }
    rw [hshare, ← add_assoc, add_left_inj, add_comm] at hset
    rw [add_zero]
    exact hset

theorem Balanced.clientConnected (s : σ) (o' : ω) :
    Balanced F extractIndex o n (.clientConnected s o')
      (n.setSlave s ((n.slaves s).onClientConnected o')) := by
  refine .of_quiet rfl rfl rfl ?_ ?_ <;> rw [DispatcherSlave.onClientConnected]
  · split
    · split <;> rfl
    · rfl
  · split
    · split
      · rfl
      · next hacquire =>
        have hshare : SlaveClient.share o { observer := o' } = 0 := ite_self _
        rw [shares, Storage.sum_acquire hacquire, hshare, zero_add]
        rfl
    · rfl

theorem Balanced.clientDisconnected (s : σ) (client : ℕ) :
    Balanced F extractIndex o n (.clientDisconnected s client) (n.setSlave s
      { n.slaves s with clients := (n.slaves s).clients.release client }) := by
  have htaken : taken o n (.clientDisconnected s client) = [] := rfl
  cases hc : (n.slaves s).clients.get client with
  | none =>
    -- There is no connection to lose.
    refine .of_quiet rfl rfl htaken rfl (Storage.sum_congr fun i => ?_)
    rw [Storage.get_release]
    split_ifs with hi
    · rw [hi, hc]
    · rfl
  | some c =>
    refine .of_clients rfl rfl rfl (c.share o) ?_ fun hloses => ?_
    · rw [htaken, Multiset.coe_nil, zero_add]
      exact shares_release hc
    · rw [SlaveClient.share]
      split_ifs with ho
      · exact not_not.1 fun hne => hloses ⟨c, hc, ho, hne⟩
      · rfl

/-- The connection of a slave to the master is lost, or is another now. -/
theorem Balanced.reconnected {s : σ} {slave : DispatcherSlave ω}
    (ht : t.slaves = Function.update n.slaves s slave) (hdispatched : dispatched F n e = [])
    (htaken : taken o n e = []) (hunread : slave.unread = [])
    (hclients : slave.clients = (n.slaves s).clients)
    (hloses : heartbeats (n.slaves s).unread ≠ 0 → Loses F extractIndex o n e) :
    Balanced F extractIndex o n e t := by
  refine .of_slave ht hdispatched (heartbeats (n.slaves s).unread) 0 ?_ (fun _ => rfl)
    fun hno => not_not.1 fun hne => hno (hloses hne)
  have hnil : heartbeats slave.unread = 0 := by rw [hunread]; rfl
  rw [htaken, DispatcherSlave.flight, hnil, hclients, Multiset.coe_nil, zero_add, zero_add, add_zero,
    add_comm]
  rfl

/-- Every event leaves what is on the way and what is sent in balance with what is taken. -/
theorem balanced_step (h : Wired n) (ht : step F extractIndex hexToStr n e = .ok t) :
    Balanced F extractIndex o n e t := by
  cases e with
  | master me => exact .master h ht
  | slaveConnected s =>
    rw [step] at ht
    split at ht
    · cases ht
      exact .of_same rfl rfl rfl
    · cases ht
      exact .reconnected rfl rfl rfl rfl rfl id
  | slaveReceives s => exact .slaveReceives ht
  | slaveDisconnected s =>
    cases ht
    exact .reconnected rfl rfl rfl rfl rfl id
  | clientConnected s o' =>
    cases ht
    exact .clientConnected s o'
  | clientReceives s client => exact .clientReceives ht
  | clientDisconnected s client =>
    cases ht
    exact .clientDisconnected s client
  | clientClean s client =>
    cases ht
    exact .of_quiet rfl rfl rfl rfl rfl
  | tick o' nowMS =>
    cases ht
    exact .of_same rfl rfl rfl
  | challenge o' req =>
    obtain ⟨observer, -, heq⟩ := map_eq_ok ht
    cases heq
    exact .of_same rfl rfl rfl

/-! ## What arrives along a run -/

/-- The heartbeats the master sends along a run. -/
def dispatchedAlong (F : Format Group) (extractIndex : ℕ → ℕ) (hexToStr : Bytes → Bytes)
    (n : RelayNetwork Group σ ω) (es : List (NetworkEvent σ ω)) : Multiset Packet :=
  ↑(collectAlong (step F extractIndex hexToStr) (dispatched F) n es)

/-- The heartbeats an observer takes along a run. -/
def takenAlong (F : Format Group) (extractIndex : ℕ → ℕ) (hexToStr : Bytes → Bytes) (o : ω)
    (n : RelayNetwork Group σ ω) (es : List (NetworkEvent σ ω)) : Multiset Packet :=
  ↑(collectAlong (step F extractIndex hexToStr) (taken o) n es)

/-- An observer that is never connected to a slave twice takes no heartbeat more often than it was
    sent, whatever is lost. -/
theorem delivered_le {connectionLimit nowMS : ℕ} {getRegion : NetAddress → Option ℕ}
    {es : List (NetworkEvent σ ω)}
    (h : exec (step F extractIndex hexToStr) (init connectionLimit nowMS getRegion) es = .ok t)
    (hcopies : Along (step F extractIndex hexToStr) (fun n e => ¬Copies o n e)
      (init connectionLimit nowMS getRegion) es) :
    takenAlong F extractIndex hexToStr o (init connectionLimit nowMS getRegion) es + inFlight o t ≤
      dispatchedAlong F extractIndex hexToStr (init connectionLimit nowMS getRegion) es := by
  have hrun : takenAlong F extractIndex hexToStr o (init connectionLimit nowMS getRegion) es +
      inFlight o t ≤ inFlight o (init connectionLimit nowMS getRegion : RelayNetwork Group σ ω) +
        dispatchedAlong F extractIndex hexToStr (init connectionLimit nowMS getRegion) es := by
    refine exec_balance .le (fun n e u hn hno hu => ?_) (Wired.init _ _ _) hcopies h
    obtain ⟨lost, made, hbalance, hmade, -⟩ := balanced_step (o := o) hn hu
    rw [hmade hno, add_zero] at hbalance
    exact ⟨hn.step hu, hbalance ▸ Multiset.le_add_right _ _⟩
  rwa [inFlight_init, zero_add] at hrun

theorem delivered_le_twoObservers :
    ∃ t : RelayNetwork UInt16 Unit Bool, exec oneSlaveStep (init 8 0 fun _ => some 7)
        twoObservers = .ok t ∧
      takenAlong plainFormat (· - 1) (fun bytes => bytes) true (init 8 0 fun _ => some 7)
          twoObservers + inFlight true t ≤
        dispatchedAlong plainFormat (· - 1) (fun bytes => bytes) (init 8 0 fun _ => some 7)
          (σ := Unit) (ω := Bool) twoObservers := by
  obtain ⟨t, ht, -⟩ := exists_ok_of_check (x := exec oneSlaveStep
    (init 8 0 fun _ => some 7) twoObservers) (p := bothKnow) (by decide +kernel)
  have hcopies : Along oneSlaveStep (fun n e => ¬Copies true n e) (init 8 0 fun _ => some 7)
      twoObservers := along_of_check (by decide +kernel)
  exact ⟨t, ht, delivered_le ht hcopies⟩

/-- Over a stretch of a run in which no event copies or loses a heartbeat, an observer takes each
    just as often as it was on the way or is sent, but for those still on the way. -/
theorem delivered_eq {connectionLimit nowMS : ℕ} {getRegion : NetAddress → Option ℕ}
    {es fs : List (NetworkEvent σ ω)}
    (hn : exec (step F extractIndex hexToStr) (init connectionLimit nowMS getRegion) es = .ok n)
    (h : exec (step F extractIndex hexToStr) n fs = .ok t)
    (hfs : Along (step F extractIndex hexToStr)
      (fun n e => ¬Copies o n e ∧ ¬Loses F extractIndex o n e) n fs) :
    takenAlong F extractIndex hexToStr o n fs + inFlight o t =
      inFlight o n + dispatchedAlong F extractIndex hexToStr n fs := by
  have hwired : Wired n := exec_invariant (fun _ _ _ => Wired.step) (.init _ _ _) hn
  refine exec_balance .eq (fun n e u hn hno hu => ?_) hwired hfs h
  obtain ⟨lost, made, hbalance, hmade, hlost⟩ := balanced_step (o := o) hn hu
  rw [hmade hno.1, hlost hno.2, add_zero, add_zero] at hbalance
  exact ⟨hn.step hu, hbalance⟩

/-- A slave and two observers connect; then the slave is told that it is accepted. -/
def connecting : List (NetworkEvent Unit Bool) :=
  [.slaveConnected (), .master (.dispatcherPacket 1 RelayDispatcherMaster.slaveRegisters 1000),
    .clientConnected () false, .clientConnected () true, .master .relayConnected,
    .slaveReceives ()]

/-- A relay registers and is kept alive; an observer takes the first of its heartbeats. -/
def beating : List (NetworkEvent Unit Bool) :=
  [.master (.relayPacket 1 RelayDispatcherMaster.relayRegisters), .slaveReceives (),
    .master (.relayKeepAlive 1), .clientReceives () 2]

/-- From here the observer can take the one heartbeat and be left with the other on the way. -/
def canBeat (n : RelayNetwork UInt16 Unit Bool) : Bool :=
  checkAlong oneSlaveStep (fun n e => ¬Copies true n e ∧ ¬Loses plainFormat (· - 1) true n e) n
    beating && (exec oneSlaveStep n beating).toOption.any fun t => (inFlight true t).card = 1

theorem delivered_eq_beating :
    ∃ n t : RelayNetwork UInt16 Unit Bool,
      exec oneSlaveStep (init 8 0 fun _ => some 7) connecting = .ok n ∧
      exec oneSlaveStep n beating = .ok t ∧
      takenAlong plainFormat (· - 1) (fun bytes => bytes) true n beating + inFlight true t =
        inFlight true n + dispatchedAlong plainFormat (· - 1) (fun bytes => bytes) n beating := by
  obtain ⟨n, hn, hcan⟩ := exists_ok_of_check (x := exec oneSlaveStep
    (init 8 0 fun _ => some 7) connecting) (p := canBeat) (by decide +kernel)
  rw [canBeat, Bool.and_eq_true] at hcan
  obtain ⟨hbeating, hrun⟩ := hcan
  cases ht : exec oneSlaveStep n beating with
  | error x =>
    rw [ht] at hrun
    cases hrun
  | ok t => exact ⟨n, t, hn, ht, delivered_eq hn ht (along_of_check hbeating)⟩

end InFlight

end RelayNetwork

end ProxyPlatform
