import ProxyPlatform.Base.Run
import ProxyPlatform.ServerList.Message
import Mathlib.Logic.Relation

/-!
# The connections to the audit collectors

`OnServerListUpdated` merges the list of the audit collectors with a new one: two cursors go
along the lists, and the connections to the servers of the new list are collected in a
temporary array. A server that is only in the old list is removed from the pool of
connections, one that is only in the new list is added to it, and one that is in both, with
the same address, keeps its connection.

The lists are ordered by their ids, or else servers are removed and added without need;
that the connections are those of the new list does not depend on it.

* `Round`: what a round of the loop can do; `mergeLoop_rounds`: the loop goes on in rounds until both
  lists are passed, or a server cannot be added;
* `Registers`, `Removes`, `Aligned`: what holds between two rounds of the loop, for the pool, for
  the servers removed, and for the servers in both lists if these are ordered;
* `mirrors_of_exec`: the connections are those of the list, after every call.

The pool of connections is not in the repository: which id it gives to a server is a
function of all that was asked of it (`acquireId`).
-/

namespace ProxyPlatform

/-- `xServerGroup`, of the groups the audit service listens to. -/
inductive ServerGroup
  | targetCollector
  | auditCollector
  deriving DecidableEq

/-- A call of `AddServer`, and the id it returned, or of `RemoveServer`. -/
inductive TcpClientPoolCall
  | addServer (address : NetAddress) (id : ℕ)
  | removeServer (id : ℕ)

/-- `xTcpClientPool`: the servers that are registered, and the calls so far. -/
structure TcpClientPool where
  servers : List (ℕ × NetAddress) := []
  calls : List TcpClientPoolCall := []

namespace TcpClientPool

variable (acquireId : TcpClientPool → ℕ)

/-- `AddServer`: the id of the server, or 0. -/
def addServer (pool : TcpClientPool) (address : NetAddress) : ℕ × TcpClientPool :=
  let id := acquireId pool
  (id, {
    servers := if id = 0 then pool.servers else (id, address) :: pool.servers
    calls := pool.calls ++ [.addServer address id] })

/-- `RemoveServer`. -/
def removeServer (pool : TcpClientPool) (id : ℕ) : TcpClientPool where
  servers := pool.servers.filter fun server => server.1 ≠ id
  calls := pool.calls ++ [.removeServer id]

/-- Every server added gets an id that no other has, and that is not 0. -/
def Fresh : Prop :=
  ∀ pool, acquireId pool ≠ 0 ∧ ∀ address, (acquireId pool, address) ∉ pool.servers

/-- The servers removed by the calls, one for each call. -/
def removedIds (calls : List TcpClientPoolCall) : List ℕ :=
  calls.filterMap fun
    | .addServer .. => none
    | .removeServer id => some id

end TcpClientPool

/-- The part of `xAuditService` that has to do with the connections. -/
structure AuditConnections where
  tcpReporter : TcpClientPool := {}
  container : ℕ → ServerInfo := fun _ => {}
  size : ℕ := 0
  connectionIdList : ℕ → ℕ := fun _ => 0

/-- The variables of the loop. -/
structure MergeState where
  oldIndex : ℕ := 0
  newIndex : ℕ := 0
  tempConnectionIdList : ℕ → ℕ := fun _ => 0
  tempConnectionCurror : ℕ := 0
  tcpReporter : TcpClientPool

namespace MergeState

variable (acquireId : TcpClientPool → ℕ) (s : AuditConnections) (newList : ℕ → ServerInfo)
  (newSize : ℕ)

/-- `TempConnectionIdList[TempConnectionCurror++] = id`. -/
def put (m : MergeState) (id : ℕ) : Except Fault MergeState := do
  let tempConnectionIdList ←
    writeAt maxSmallServerListSize m.tempConnectionIdList m.tempConnectionCurror id
  .ok { m with
    tempConnectionIdList := tempConnectionIdList
    tempConnectionCurror := m.tempConnectionCurror + 1 }

/-- A server of the new list is added, and its connection put into the array. -/
def addServer (m : MergeState) (address : NetAddress) : Except Fault MergeState := do
  let (id, tcpReporter) := m.tcpReporter.addServer acquireId address
  let m ← { m with tcpReporter := tcpReporter }.put id
  if id = 0 then .error .runtimeAssert else .ok m

/-- The server of the old list is removed. -/
def removeServer (m : MergeState) : Except Fault MergeState := do
  let connectionId ← readAt maxSmallServerListSize s.connectionIdList m.oldIndex
  .ok { m with tcpReporter := m.tcpReporter.removeServer connectionId }

/-- The server of the old list keeps its connection. -/
def keepServer (m : MergeState) : Except Fault MergeState := do
  let connectionId ← readAt maxSmallServerListSize s.connectionIdList m.oldIndex
  m.put connectionId

/-- The loop that removes the `n` servers left in the old list. -/
def removeRest : ℕ → MergeState → Except Fault MergeState
  | 0, m => .ok m
  | n + 1, m => do
    let m ← m.removeServer s
    removeRest n { m with oldIndex := m.oldIndex + 1 }

/-- The loop that adds the `n` servers left in the new list. -/
def addRest : ℕ → MergeState → Except Fault MergeState
  | 0, m => .ok m
  | n + 1, m => do
    let addedServerInfo ← readAt newSize newList m.newIndex
    let m ← m.addServer acquireId addedServerInfo.address
    addRest n { m with newIndex := m.newIndex + 1 }

/-- The loop, for at most `n` rounds. -/
def mergeLoop : ℕ → MergeState → Except Fault MergeState
  | 0, _ => .error .noReturn
  | n + 1, m =>
    if m.newIndex = newSize then m.removeRest s (s.size - m.oldIndex)
    else if m.oldIndex = s.size then m.addRest acquireId newList newSize (newSize - m.newIndex)
    else do
      let fromOld ← readAt maxSmallServerListSize s.container m.oldIndex
      let fromNew ← readAt newSize newList m.newIndex
      if fromOld.serverId = fromNew.serverId then
        if fromOld.address = fromNew.address then do
          let m ← m.keepServer s
          mergeLoop n { m with oldIndex := m.oldIndex + 1, newIndex := m.newIndex + 1 }
        else do
          let m ← m.removeServer s
          let m ← m.addServer acquireId fromNew.address
          mergeLoop n { m with oldIndex := m.oldIndex + 1, newIndex := m.newIndex + 1 }
      else if fromOld.serverId < fromNew.serverId then do
        let m ← m.removeServer s
        mergeLoop n { m with oldIndex := m.oldIndex + 1 }
      else do
        let m ← m.addServer acquireId fromNew.address
        mergeLoop n { m with newIndex := m.newIndex + 1 }

end MergeState

/-- A call of `OnServerListUpdated`. -/
structure ServerListCall where
  serverGroup : ServerGroup
  serverList : ℕ → ServerInfo
  serverListSize : ℕ

namespace AuditConnections

variable (acquireId : TcpClientPool → ℕ)

/-- `OnServerListUpdated`. -/
def onServerListUpdated (s : AuditConnections) (call : ServerListCall) :
    Except Fault AuditConnections :=
  match call.serverGroup with
  | .targetCollector => .ok s
  | .auditCollector => do
    let m ← MergeState.mergeLoop acquireId s call.serverList call.serverListSize
      (s.size + call.serverListSize + 1) { tcpReporter := s.tcpReporter }
    if m.tempConnectionCurror ≠ call.serverListSize then .error .assertion
    else do
      let container ←
        copyLoop maxSmallServerListSize call.serverList call.serverListSize 0 s.container
      let connectionIdList ← copyLoop maxSmallServerListSize m.tempConnectionIdList
        call.serverListSize 0 s.connectionIdList
      .ok {
        tcpReporter := m.tcpReporter
        container := container
        size := call.serverListSize
        connectionIdList := connectionIdList }

end AuditConnections

/-! ## The steps of the loop -/

namespace MergeState

variable {acquireId : TcpClientPool → ℕ} {s : AuditConnections} {newList : ℕ → ServerInfo}
  {newSize : ℕ} {m : MergeState}

variable (s m) in
/-- The server of the old list is removed, and passed. -/
def removed : MergeState := { m with
  oldIndex := m.oldIndex + 1
  tcpReporter := m.tcpReporter.removeServer (s.connectionIdList m.oldIndex) }

variable (acquireId newList m) in
/-- The server of the new list is added, and passed. -/
def added : MergeState where
  oldIndex := m.oldIndex
  newIndex := m.newIndex + 1
  tempConnectionIdList :=
    Function.update m.tempConnectionIdList m.tempConnectionCurror (acquireId m.tcpReporter)
  tempConnectionCurror := m.tempConnectionCurror + 1
  tcpReporter := (m.tcpReporter.addServer acquireId (newList m.newIndex).address).2

variable (s m) in
/-- The server of both lists keeps its connection, and is passed. -/
def kept : MergeState := { m with
  oldIndex := m.oldIndex + 1
  newIndex := m.newIndex + 1
  tempConnectionIdList := Function.update m.tempConnectionIdList m.tempConnectionCurror
    (s.connectionIdList m.oldIndex)
  tempConnectionCurror := m.tempConnectionCurror + 1 }

theorem removeServer_of_lt (h : m.oldIndex < maxSmallServerListSize) :
    m.removeServer s = .ok { m with
      tcpReporter := m.tcpReporter.removeServer (s.connectionIdList m.oldIndex) } := by
  rw [removeServer, readAt_of_lt h, ok_bind]

theorem put_of_lt {id : ℕ} (h : m.tempConnectionCurror < maxSmallServerListSize) :
    m.put id = .ok { m with
      tempConnectionIdList := Function.update m.tempConnectionIdList m.tempConnectionCurror id
      tempConnectionCurror := m.tempConnectionCurror + 1 } := by
  rw [put, writeAt_of_lt h, ok_bind]

theorem keepServer_of_lt (h : m.oldIndex < maxSmallServerListSize)
    (hcursor : m.tempConnectionCurror < maxSmallServerListSize) :
    m.keepServer s = .ok { m with
      tempConnectionIdList := Function.update m.tempConnectionIdList m.tempConnectionCurror
        (s.connectionIdList m.oldIndex)
      tempConnectionCurror := m.tempConnectionCurror + 1 } := by
  rw [keepServer, readAt_of_lt h, ok_bind, put_of_lt hcursor]

theorem addServer_eq (hcursor : m.tempConnectionCurror < maxSmallServerListSize)
    (address : NetAddress) :
    m.addServer acquireId address =
      if acquireId m.tcpReporter = 0 then .error .runtimeAssert else .ok { m with
        tempConnectionIdList :=
          Function.update m.tempConnectionIdList m.tempConnectionCurror (acquireId m.tcpReporter)
        tempConnectionCurror := m.tempConnectionCurror + 1
        tcpReporter := (m.tcpReporter.addServer acquireId address).2 } := by
  simp only [addServer]
  rw [put_of_lt (m := { m with tcpReporter := (m.tcpReporter.addServer acquireId address).2 }) hcursor,
    ok_bind]
  rfl

/-! ## The loop in rounds -/

variable (s newList newSize m) in
/-- The next server of the old list is not in the new one. -/
def IsGone : Prop :=
  m.oldIndex < s.size ∧ (m.newIndex = newSize ∨ m.newIndex < newSize ∧
    (s.container m.oldIndex).serverId < (newList m.newIndex).serverId)

variable (s newList newSize m) in
/-- The next server of the new list is not in the old one. -/
def IsNew : Prop :=
  m.newIndex < newSize ∧ (m.oldIndex = s.size ∨ m.oldIndex < s.size ∧
    (newList m.newIndex).serverId < (s.container m.oldIndex).serverId)

variable (s newList newSize m) in
/-- The next servers of both lists have the same id, but not the same address. -/
def IsMoved : Prop :=
  m.oldIndex < s.size ∧ m.newIndex < newSize ∧
    (s.container m.oldIndex).serverId = (newList m.newIndex).serverId ∧
    (s.container m.oldIndex).address ≠ (newList m.newIndex).address

variable (acquireId s newList newSize) in
/-- A round of the loop. -/
inductive Round : MergeState → MergeState → Prop
  | removed {m : MergeState} (h : IsGone s newList newSize m) : Round m (m.removed s)
  | added {m : MergeState} (h : IsNew s newList newSize m) (hid : acquireId m.tcpReporter ≠ 0) :
    Round m (m.added acquireId newList)
  | kept {m : MergeState} (hlt : m.oldIndex < s.size) (hlt' : m.newIndex < newSize)
    (heq : s.container m.oldIndex = newList m.newIndex) : Round m (m.kept s)
  | moved {m : MergeState} (h : IsMoved s newList newSize m)
    (hid : acquireId (m.removed s).tcpReporter ≠ 0) : Round m ((m.removed s).added acquireId newList)

variable (acquireId s newList newSize m) in
/-- The pool does not take the next server. -/
def IsStuck : Prop :=
  IsNew s newList newSize m ∧ acquireId m.tcpReporter = 0 ∨
    IsMoved s newList newSize m ∧ acquireId (m.removed s).tcpReporter = 0

variable (acquireId s newList newSize) in
/-- Any number of rounds. -/
abbrev Rounds : MergeState → MergeState → Prop :=
  Relation.ReflTransGen (Round acquireId s newList newSize)

variable (s newSize m) in
/-- The cursors are in the lists, and there is an entry for each server of the new list passed. -/
structure InRange : Prop where
  cursor : m.tempConnectionCurror = m.newIndex
  old_le : m.oldIndex ≤ s.size
  new_le : m.newIndex ≤ newSize

theorem Round.inRange {t : MergeState} (h : Round acquireId s newList newSize m t)
    (hm : InRange s newSize m) : InRange s newSize t := by
  cases h with
  | removed h => exact ⟨hm.cursor, h.1, hm.new_le⟩
  | added h hid => exact ⟨congrArg Nat.succ hm.cursor, hm.old_le, h.1⟩
  | kept hlt hlt' heq => exact ⟨congrArg Nat.succ hm.cursor, hlt, hlt'⟩
  | moved h hid => exact ⟨congrArg Nat.succ hm.cursor, h.1, h.2.1⟩

/-- When the new list is at its end, the rest of the old one is removed. -/
theorem removeRest_rounds (hm : InRange s newSize m) (hsize : s.size ≤ maxSmallServerListSize)
    (hnew : m.newIndex = newSize) :
    ∃ t, m.removeRest s (s.size - m.oldIndex) = .ok t ∧ Rounds acquireId s newList newSize m t ∧
      t.oldIndex = s.size ∧ t.newIndex = newSize := by
  generalize hn : s.size - m.oldIndex = n
  induction n generalizing m with
  | zero => exact ⟨m, rfl, .refl, by have := hm.old_le; omega, hnew⟩
  | succ n ih =>
    have hround : Round acquireId s newList newSize m (m.removed s) :=
      .removed ⟨by omega, .inl hnew⟩
    rw [removeRest, removeServer_of_lt (by omega), ok_bind]
    obtain ⟨t, ht, hrounds, hend⟩ := ih (m := m.removed s) (hround.inRange hm) hnew
      (by simp only [MergeState.removed]; omega)
    exact ⟨t, ht, .head hround hrounds, hend⟩

/-- When the old list is at its end, the rest of the new one is added, until the pool does not take
    one. -/
theorem addRest_rounds (hm : InRange s newSize m) (hsize : newSize ≤ maxSmallServerListSize)
    (hold : m.oldIndex = s.size) :
    (∃ t, m.addRest acquireId newList newSize (newSize - m.newIndex) = .ok t ∧
        Rounds acquireId s newList newSize m t ∧ t.oldIndex = s.size ∧ t.newIndex = newSize) ∨
      m.addRest acquireId newList newSize (newSize - m.newIndex) = .error .runtimeAssert ∧
        ∃ t, Rounds acquireId s newList newSize m t ∧ IsStuck acquireId s newList newSize t := by
  generalize hn : newSize - m.newIndex = n
  induction n generalizing m with
  | zero => exact .inl ⟨m, rfl, .refl, hold, by have := hm.new_le; omega⟩
  | succ n ih =>
    have hcursor := hm.cursor
    have hisNew : IsNew s newList newSize m := ⟨by omega, .inl hold⟩
    rw [addRest, readAt_of_lt (by omega), ok_bind, addServer_eq (by omega)]
    by_cases hid : acquireId m.tcpReporter = 0
    · rw [if_pos hid]
      exact .inr ⟨rfl, m, .refl, .inl ⟨hisNew, hid⟩⟩
    · have hround : Round acquireId s newList newSize m (m.added acquireId newList) :=
        .added hisNew hid
      rw [if_neg hid, ok_bind]
      rcases ih (m := m.added acquireId newList) (hround.inRange hm) hold
          (by simp only [MergeState.added]; omega) with ⟨t, ht, hrounds, hend⟩ | ⟨hfail, t, hrounds, hstuck⟩
      · exact .inl ⟨t, ht, .head hround hrounds, hend⟩
      · exact .inr ⟨hfail, t, .head hround hrounds, hstuck⟩

variable (acquireId newList) in
/-- The loop goes on in rounds until all servers of both lists are passed, or the pool does not take
    one. -/
theorem mergeLoop_rounds {n : ℕ} (hm : InRange s newSize m)
    (hsize : s.size ≤ maxSmallServerListSize) (hsize' : newSize ≤ maxSmallServerListSize)
    (hn : s.size - m.oldIndex + (newSize - m.newIndex) < n) :
    (∃ t, mergeLoop acquireId s newList newSize n m = .ok t ∧
        Rounds acquireId s newList newSize m t ∧ t.oldIndex = s.size ∧ t.newIndex = newSize) ∨
      mergeLoop acquireId s newList newSize n m = .error .runtimeAssert ∧
        ∃ t, Rounds acquireId s newList newSize m t ∧ IsStuck acquireId s newList newSize t := by
  induction n generalizing m with
  | zero => omega
  | succ n ih =>
    have hold := hm.old_le
    have hnew := hm.new_le
    have hcursor := hm.cursor
    -- A round is followed by the rest of the loop.
    have hnext : ∀ t, Round acquireId s newList newSize m t →
        s.size - t.oldIndex + (newSize - t.newIndex) < n →
        (∃ u, mergeLoop acquireId s newList newSize n t = .ok u ∧
          Rounds acquireId s newList newSize m u ∧ u.oldIndex = s.size ∧ u.newIndex = newSize) ∨
        mergeLoop acquireId s newList newSize n t = .error .runtimeAssert ∧
          ∃ u, Rounds acquireId s newList newSize m u ∧ IsStuck acquireId s newList newSize u := by
      intro t hround hlt
      rcases ih (hround.inRange hm) hlt with ⟨u, hu, hrounds, hend⟩ | ⟨hfail, u, hrounds, hstuck⟩
      · exact .inl ⟨u, hu, .head hround hrounds, hend⟩
      · exact .inr ⟨hfail, u, .head hround hrounds, hstuck⟩
    rw [mergeLoop]
    split
    · next hend => exact .inl (removeRest_rounds hm hsize hend)
    · next hnend =>
      split
      · next hend => exact addRest_rounds hm hsize' hend
      · next hoend =>
        have hlt : m.oldIndex < s.size := by omega
        have hlt' : m.newIndex < newSize := by omega
        have hroom : m.tempConnectionCurror < maxSmallServerListSize := by omega
        rw [readAt_of_lt (by omega), ok_bind, readAt_of_lt hlt', ok_bind]
        split
        · next hid =>
          split
          · next haddress =>
            rw [keepServer_of_lt (by omega) hroom, ok_bind]
            refine hnext (m.kept s) (.kept hlt hlt' (ServerInfo.ext hid haddress)) ?_
            simp only [MergeState.kept]
            omega
          · next haddress =>
            have hmoved : IsMoved s newList newSize m := ⟨hlt, hlt', hid, haddress⟩
            rw [removeServer_of_lt (by omega), ok_bind, addServer_eq (by exact hroom)]
            by_cases hfull : acquireId (m.removed s).tcpReporter = 0
            · exact .inr ⟨by rw [if_pos (by exact hfull)]; rfl, m, .refl, .inr ⟨hmoved, hfull⟩⟩
            · rw [if_neg (by exact hfull), ok_bind]
              refine hnext ((m.removed s).added acquireId newList) (.moved hmoved hfull) ?_
              simp only [MergeState.added, MergeState.removed]
              omega
        · next hid =>
          split
          · next hless =>
            rw [removeServer_of_lt (by omega), ok_bind]
            refine hnext (m.removed s) (.removed ⟨hlt, .inr ⟨hlt', hless⟩⟩) ?_
            simp only [MergeState.removed]
            omega
          · next hless =>
            have hisNew : IsNew s newList newSize m := ⟨hlt', .inr ⟨hlt, by omega⟩⟩
            rw [addServer_eq hroom]
            by_cases hfull : acquireId m.tcpReporter = 0
            · exact .inr ⟨by rw [if_pos hfull]; rfl, m, .refl, .inl ⟨hisNew, hfull⟩⟩
            · rw [if_neg hfull, ok_bind]
              refine hnext (m.added acquireId newList) (.added hisNew hfull) ?_
              simp only [MergeState.added]
              omega

/-! ## What holds between the rounds -/

variable (s newList newSize m) in
/-- The servers registered in the pool are those of the old list that are still to come, with their
    connections, and those of the new list passed, with the connections collected. -/
structure Registers : Prop extends InRange s newSize m where
  registered : ∀ id address, (id, address) ∈ m.tcpReporter.servers ↔
    (∃ i, m.oldIndex ≤ i ∧ i < s.size ∧ s.connectionIdList i = id ∧ (s.container i).address = address) ∨
    ∃ j < m.newIndex, m.tempConnectionIdList j = id ∧ (newList j).address = address
  distinct : ∀ j < m.newIndex, ∀ k < m.newIndex,
    m.tempConnectionIdList j = m.tempConnectionIdList k → j = k
  apart : ∀ j < m.newIndex, ∀ i, m.oldIndex ≤ i → i < s.size →
    m.tempConnectionIdList j ≠ s.connectionIdList i

variable (s) in
/-- Different servers have different connections. -/
def Distinct : Prop :=
  ∀ i < s.size, ∀ k < s.size, s.connectionIdList i = s.connectionIdList k → i = k

theorem Registers.removed (h : Registers s newList newSize m) (hs : Distinct s)
    (hlt : m.oldIndex < s.size) : Registers s newList newSize (m.removed s) := by
  refine ⟨⟨h.cursor, hlt, h.new_le⟩, fun id address => ?_, h.distinct, fun j hj i hi =>
    h.apart j hj i ((Nat.le_succ _).trans hi)⟩
  simp only [MergeState.removed, TcpClientPool.removeServer, List.mem_filter, h.registered,
    decide_eq_true_eq]
  constructor
  · rintro ⟨⟨i, hi, hlt', rfl, ha⟩ | hnew, hne⟩
    · have hne' : i ≠ m.oldIndex := fun heq => hne (heq ▸ rfl)
      exact .inl ⟨i, by omega, hlt', rfl, ha⟩
    · exact .inr hnew
  · rintro (⟨i, hi, hlt', rfl, ha⟩ | ⟨j, hj, rfl, ha⟩)
    · refine ⟨.inl ⟨i, by omega, hlt', rfl, ha⟩, fun heq => ?_⟩
      have := hs i hlt' m.oldIndex hlt heq
      omega
    · exact ⟨.inr ⟨j, hj, rfl, ha⟩, h.apart j hj m.oldIndex le_rfl hlt⟩

/-- An entry is collected: what the array holds then. -/
theorem Registers.exists_temp (h : Registers s newList newSize m) (v : ℕ) (p : ℕ → ℕ → Prop) :
    (∃ j < m.newIndex + 1, p j
        (Function.update m.tempConnectionIdList m.tempConnectionCurror v j)) ↔
      (∃ j < m.newIndex, p j (m.tempConnectionIdList j)) ∨ p m.newIndex v := by
  rw [h.cursor, Nat.exists_lt_succ_right, Function.update_self]
  refine or_congr_left (exists_congr fun j => and_congr_right fun hj => ?_)
  rw [Function.update_of_ne hj.ne]

theorem Registers.forall_temp (h : Registers s newList newSize m) (v : ℕ) (p : ℕ → ℕ → Prop) :
    (∀ j < m.newIndex + 1, p j
        (Function.update m.tempConnectionIdList m.tempConnectionCurror v j)) ↔
      (∀ j < m.newIndex, p j (m.tempConnectionIdList j)) ∧ p m.newIndex v := by
  rw [h.cursor, Nat.forall_lt_succ_right, Function.update_self]
  refine and_congr_left fun _ => forall_congr' fun j => imp_congr_right fun hj => ?_
  rw [Function.update_of_ne hj.ne]

/-- A connection is collected that is not among those collected yet. -/
theorem Registers.distinct_update (h : Registers s newList newSize m) {v : ℕ}
    (hv : ∀ j < m.newIndex, m.tempConnectionIdList j ≠ v) :
    ∀ j < m.newIndex + 1, ∀ k < m.newIndex + 1,
      Function.update m.tempConnectionIdList m.tempConnectionCurror v j =
        Function.update m.tempConnectionIdList m.tempConnectionCurror v k → j = k := by
  refine (h.forall_temp v fun j x => ∀ k < m.newIndex + 1, x = Function.update m.tempConnectionIdList
    m.tempConnectionCurror v k → j = k).2 ⟨fun j hj => ?_, ?_⟩
  · refine (h.forall_temp v fun k x => m.tempConnectionIdList j = x → j = k).2 ⟨fun k hk => ?_, ?_⟩
    · exact h.distinct j hj k hk
    · exact fun heq => absurd heq (hv j hj)
  · refine (h.forall_temp v fun k x => v = x → m.newIndex = k).2 ⟨fun k hk heq => ?_, fun _ => rfl⟩
    exact absurd heq.symm (hv k hk)

theorem Registers.kept (h : Registers s newList newSize m) (hs : Distinct s)
    (hlt : m.oldIndex < s.size) (hlt' : m.newIndex < newSize)
    (heq : s.container m.oldIndex = newList m.newIndex) :
    Registers s newList newSize (m.kept s) := by
  refine ⟨⟨congrArg Nat.succ h.cursor, hlt, hlt'⟩, fun id address => ?_, h.distinct_update fun j hj =>
    h.apart j hj m.oldIndex le_rfl hlt, ?_⟩
  · simp only [MergeState.kept, h.registered]
    rw [h.exists_temp _ fun j x => x = id ∧ (newList j).address = address, ← heq]
    constructor
    · rintro (⟨i, hi, hlt'', rfl, ha⟩ | hnew)
      · rcases hi.eq_or_lt with rfl | hi
        · exact .inr (.inr ⟨rfl, ha⟩)
        · exact .inl ⟨i, hi, hlt'', rfl, ha⟩
      · exact .inr (.inl hnew)
    · rintro (⟨i, hi, hlt'', rfl, ha⟩ | hnew | ⟨rfl, ha⟩)
      · exact .inl ⟨i, (Nat.le_succ _).trans hi, hlt'', rfl, ha⟩
      · exact .inr hnew
      · exact .inl ⟨m.oldIndex, le_rfl, hlt, rfl, ha⟩
  · refine (h.forall_temp _ fun j x => ∀ i, m.oldIndex + 1 ≤ i → i < s.size →
      x ≠ s.connectionIdList i).2 ⟨fun j hj i hi => h.apart j hj i ((Nat.le_succ _).trans hi), ?_⟩
    intro i hi hlt'' hid
    have := hs m.oldIndex hlt i hlt'' hid
    omega

theorem Registers.added (h : Registers s newList newSize m) (hne : acquireId m.tcpReporter ≠ 0)
    (hnew : ∀ address, (acquireId m.tcpReporter, address) ∉ m.tcpReporter.servers)
    (hlt : m.newIndex < newSize) : Registers s newList newSize (m.added acquireId newList) := by
  have hold : ∀ i, m.oldIndex ≤ i → i < s.size → s.connectionIdList i ≠ acquireId m.tcpReporter :=
    fun i hi hlt heq => hnew _ ((h.registered _ _).2 (.inl ⟨i, hi, hlt, heq, rfl⟩))
  have htemp : ∀ j < m.newIndex, m.tempConnectionIdList j ≠ acquireId m.tcpReporter :=
    fun j hj heq => hnew _ ((h.registered _ _).2 (.inr ⟨j, hj, heq, rfl⟩))
  refine ⟨⟨congrArg Nat.succ h.cursor, h.old_le, hlt⟩, fun id address => ?_,
    h.distinct_update htemp, ?_⟩
  · simp only [MergeState.added, TcpClientPool.addServer, if_neg hne, List.mem_cons, h.registered,
      Prod.mk.injEq]
    rw [h.exists_temp _ fun j x => x = id ∧ (newList j).address = address, @eq_comm _ id,
      @eq_comm _ address, or_comm, or_assoc]
  · exact (h.forall_temp _ fun j x => ∀ i, m.oldIndex ≤ i → i < s.size →
      x ≠ s.connectionIdList i).2 ⟨h.apart, fun i hi hlt => (hold i hi hlt).symm⟩

variable (s newList m) in
/-- Which servers of the old list the calls made in the loop have removed: each of those passed that
    is not in the new list with its connection, once. -/
structure Removes (calls : List TcpClientPoolCall) : Prop where
  appended : m.tcpReporter.calls = s.tcpReporter.calls ++ calls
  nodup : (TcpClientPool.removedIds calls).Nodup
  old : ∀ id ∈ TcpClientPool.removedIds calls, ∃ i < m.oldIndex, s.connectionIdList i = id
  passed : ∀ i < m.oldIndex, s.connectionIdList i ∈ TcpClientPool.removedIds calls ∨
    s.connectionIdList i ∉ TcpClientPool.removedIds calls ∧
      ∃ j < m.newIndex, newList j = s.container i ∧ m.tempConnectionIdList j = s.connectionIdList i

theorem Removes.removed {calls : List TcpClientPoolCall} (h : Removes s newList m calls)
    (hs : Distinct s) (hle : m.oldIndex < s.size) :
    Removes s newList (m.removed s) (calls ++ [.removeServer (s.connectionIdList m.oldIndex)]) := by
  have hids : TcpClientPool.removedIds (calls ++ [.removeServer (s.connectionIdList m.oldIndex)]) =
      TcpClientPool.removedIds calls ++ [s.connectionIdList m.oldIndex] := by
    simp [TcpClientPool.removedIds]
  refine ⟨?_, ?_, ?_, ?_⟩
  · simp [MergeState.removed, TcpClientPool.removeServer, h.appended]
  · rw [hids]
    refine h.nodup.append (List.nodup_singleton _) ?_
    rw [List.disjoint_singleton]
    intro hid
    obtain ⟨i, hi, heq⟩ := h.old _ hid
    exact hi.ne (hs i (by omega) m.oldIndex hle heq)
  · rw [hids]
    simp only [List.mem_append, List.mem_singleton, MergeState.removed]
    rintro id (hid | rfl)
    · obtain ⟨i, hi, heq⟩ := h.old id hid
      exact ⟨i, hi.trans (Nat.lt_succ_self _), heq⟩
    · exact ⟨m.oldIndex, Nat.lt_succ_self _, rfl⟩
  · rw [hids]
    simp only [List.mem_append, List.mem_singleton, MergeState.removed, not_or]
    intro i hi
    rcases Nat.lt_succ_iff_lt_or_eq.1 hi with hi | rfl
    · rcases h.passed i hi with hid | ⟨hid, hkept⟩
      · exact .inl (.inl hid)
      · exact .inr ⟨⟨hid, fun heq => hi.ne (hs i (by omega) m.oldIndex hle heq)⟩, hkept⟩
    · exact .inl (.inr rfl)

theorem Removes.added {calls : List TcpClientPoolCall} (h : Removes s newList m calls)
    (hr : Registers s newList newSize m) :
    Removes s newList (m.added acquireId newList)
      (calls ++ [.addServer (newList m.newIndex).address (acquireId m.tcpReporter)]) := by
  have hids : TcpClientPool.removedIds
      (calls ++ [.addServer (newList m.newIndex).address (acquireId m.tcpReporter)]) =
        TcpClientPool.removedIds calls := by
    simp [TcpClientPool.removedIds]
  refine ⟨?_, hids ▸ h.nodup, hids ▸ h.old, fun i hi => ?_⟩
  · simp [MergeState.added, TcpClientPool.addServer, h.appended]
  · rw [hids]
    refine (h.passed i hi).imp_right (And.imp_right fun ⟨j, hj, hkept⟩ => ?_)
    refine ⟨j, hj.trans (Nat.lt_succ_self _), hkept.1, ?_⟩
    simp only [MergeState.added, hr.cursor, Function.update_of_ne hj.ne, hkept.2]

theorem Removes.kept {calls : List TcpClientPoolCall} (h : Removes s newList m calls)
    (hr : Registers s newList newSize m) (hs : Distinct s) (hlt : m.oldIndex < s.size)
    (heq : s.container m.oldIndex = newList m.newIndex) :
    Removes s newList (m.kept s) calls := by
  refine ⟨h.appended, h.nodup, fun id hid => ?_, fun i hi => ?_⟩
  · obtain ⟨i, hi, hid⟩ := h.old id hid
    exact ⟨i, hi.trans (Nat.lt_succ_self _), hid⟩
  · rcases Nat.lt_succ_iff_lt_or_eq.1 hi with hi | rfl
    · refine (h.passed i hi).imp_right (And.imp_right fun ⟨j, hj, hkept⟩ => ?_)
      refine ⟨j, hj.trans (Nat.lt_succ_self _), hkept.1, ?_⟩
      simp only [MergeState.kept, hr.cursor, Function.update_of_ne hj.ne, hkept.2]
    · refine .inr ⟨fun hid => ?_, m.newIndex, Nat.lt_succ_self _, heq.symm, ?_⟩
      · obtain ⟨i, hi, hid⟩ := h.old _ hid
        exact hi.ne (hs i (by omega) m.oldIndex hlt hid)
      · simp only [MergeState.kept, hr.cursor, Function.update_self]

variable (s newList newSize) in
/-- Both lists are ordered by the ids of the servers. -/
structure Increasing : Prop where
  old : ∀ i k, i < k → k < s.size → (s.container i).serverId < (s.container k).serverId
  new : ∀ j k, j < k → k < newSize → (newList j).serverId < (newList k).serverId

theorem Increasing.old_le (h : Increasing s newList newSize) {i k : ℕ} (hik : i ≤ k)
    (hk : k < s.size) : (s.container i).serverId ≤ (s.container k).serverId := by
  rcases hik.eq_or_lt with rfl | hlt
  · exact le_rfl
  · exact (h.old i k hlt hk).le

theorem Increasing.new_le (h : Increasing s newList newSize) {j k : ℕ} (hjk : j ≤ k)
    (hk : k < newSize) : (newList j).serverId ≤ (newList k).serverId := by
  rcases hjk.eq_or_lt with rfl | hlt
  · exact le_rfl
  · exact (h.new j k hlt hk).le

/-- The id of a server says where it is in the old list. -/
theorem Increasing.old_inj (h : Increasing s newList newSize) {i k : ℕ} (hi : i < s.size)
    (hk : k < s.size) (hid : (s.container i).serverId = (s.container k).serverId) : i = k := by
  rcases lt_trichotomy i k with hlt | hik | hlt
  · exact absurd hid (h.old i k hlt hk).ne
  · exact hik
  · exact absurd hid.symm (h.old k i hlt hi).ne

theorem Increasing.new_inj (h : Increasing s newList newSize) {j k : ℕ} (hj : j < newSize)
    (hk : k < newSize) (hid : (newList j).serverId = (newList k).serverId) : j = k := by
  rcases lt_trichotomy j k with hlt | hjk | hlt
  · exact absurd hid (h.new j k hlt hk).ne
  · exact hjk
  · exact absurd hid.symm (h.new k j hlt hj).ne

variable (s newList newSize m) in
/-- A server in both lists is passed in both at once, and keeps its connection. -/
def Aligned : Prop :=
  ∀ i < s.size, ∀ j < newSize, s.container i = newList j →
    (i < m.oldIndex ↔ j < m.newIndex) ∧
      (j < m.newIndex → m.tempConnectionIdList j = s.connectionIdList i)

theorem Aligned.removed (h : Aligned s newList newSize m)
    (hne : ∀ j < newSize, m.newIndex ≤ j → s.container m.oldIndex ≠ newList j) :
    Aligned s newList newSize (m.removed s) := by
  intro i hi j hj heq
  obtain ⟨hiff, htemp⟩ := h i hi j hj heq
  refine ⟨?_, htemp⟩
  simp only [MergeState.removed]
  rcases eq_or_ne i m.oldIndex with rfl | hne'
  · have hlt : j < m.newIndex := by
      by_contra hle
      exact hne j hj (not_lt.1 hle) heq
    exact iff_of_true (Nat.lt_succ_self _) hlt
  · rw [← hiff]
    omega

theorem Aligned.added (h : Aligned s newList newSize m) (hr : Registers s newList newSize m)
    (hne : ∀ i < s.size, m.oldIndex ≤ i → s.container i ≠ newList m.newIndex) :
    Aligned s newList newSize (m.added acquireId newList) := by
  intro i hi j hj heq
  obtain ⟨hiff, htemp⟩ := h i hi j hj heq
  have hpassed : j = m.newIndex → i < m.oldIndex := by
    rintro rfl
    by_contra hle
    exact hne i hi (not_lt.1 hle) heq
  have hne' : j ≠ m.newIndex := fun hj' => (hiff.1 (hpassed hj')).ne hj'
  simp only [MergeState.added, hr.cursor, Function.update_of_ne hne']
  refine ⟨by omega, fun hj' => htemp (by omega)⟩

theorem Aligned.kept (h : Aligned s newList newSize m) (hr : Registers s newList newSize m)
    (hinc : Increasing s newList newSize) (hlt : m.oldIndex < s.size) (hlt' : m.newIndex < newSize)
    (heq : s.container m.oldIndex = newList m.newIndex) :
    Aligned s newList newSize (m.kept s) := by
  intro i hi j hj heq'
  obtain ⟨hiff, htemp⟩ := h i hi j hj heq'
  simp only [MergeState.kept, hr.cursor]
  have hboth : i = m.oldIndex ↔ j = m.newIndex := by
    constructor
    · rintro rfl
      exact hinc.new_inj hj hlt' (congrArg _ (heq'.symm.trans heq))
    · rintro rfl
      exact hinc.old_inj hi hlt (congrArg _ (heq'.trans heq.symm))
  refine ⟨by omega, fun hj' => ?_⟩
  rcases eq_or_ne j m.newIndex with rfl | hne
  · rw [Function.update_self, hboth.2 rfl]
  · rw [Function.update_of_ne hne]
    exact htemp (by omega)

variable (s newList newSize m) in
/-- All that holds between two rounds. -/
structure Merging : Prop where
  registers : Registers s newList newSize m
  removes : ∃ calls, Removes s newList m calls
  aligned : Increasing s newList newSize → Aligned s newList newSize m

theorem Merging.removed (h : Merging s newList newSize m) (hs : Distinct s)
    (hlt : m.oldIndex < s.size) (hne : Increasing s newList newSize →
      ∀ j < newSize, m.newIndex ≤ j → s.container m.oldIndex ≠ newList j) :
    Merging s newList newSize (m.removed s) where
  registers := h.registers.removed hs hlt
  removes := by
    obtain ⟨calls, hcalls⟩ := h.removes
    exact ⟨_, hcalls.removed hs hlt⟩
  aligned hinc := (h.aligned hinc).removed (hne hinc)

theorem Merging.added (h : Merging s newList newSize m) (hid : acquireId m.tcpReporter ≠ 0)
    (hnew : ∀ address, (acquireId m.tcpReporter, address) ∉ m.tcpReporter.servers)
    (hlt : m.newIndex < newSize) (hne : Increasing s newList newSize →
      ∀ i < s.size, m.oldIndex ≤ i → s.container i ≠ newList m.newIndex) :
    Merging s newList newSize (m.added acquireId newList) where
  registers := h.registers.added hid hnew hlt
  removes := by
    obtain ⟨calls, hcalls⟩ := h.removes
    exact ⟨_, hcalls.added h.registers⟩
  aligned hinc := (h.aligned hinc).added h.registers (hne hinc)

theorem Merging.kept (h : Merging s newList newSize m) (hs : Distinct s) (hlt : m.oldIndex < s.size)
    (hlt' : m.newIndex < newSize) (heq : s.container m.oldIndex = newList m.newIndex) :
    Merging s newList newSize (m.kept s) where
  registers := h.registers.kept hs hlt hlt' heq
  removes := by
    obtain ⟨calls, hcalls⟩ := h.removes
    exact ⟨calls, hcalls.kept h.registers hs hlt heq⟩
  aligned hinc := (h.aligned hinc).kept h.registers hinc hlt hlt' heq

/-- A round keeps all of it, when the ids the pool gives are not in use. -/
theorem Merging.round {t : MergeState} (h : Merging s newList newSize m) (hs : Distinct s)
    (hfresh : ∀ pool, acquireId pool ≠ 0 → ∀ address, (acquireId pool, address) ∉ pool.servers)
    (hround : Round acquireId s newList newSize m t) : Merging s newList newSize t := by
  cases hround with
  | removed hgone =>
    refine h.removed hs hgone.1 fun hinc j hj hle heq => ?_
    rcases hgone.2 with hend | ⟨hlt', hless⟩
    · omega
    · exact absurd (congrArg ServerInfo.serverId heq) (hless.trans_le (hinc.new_le hle hj)).ne
  | added hisNew hid =>
    refine h.added hid (hfresh _ hid) hisNew.1 fun hinc i hi hle heq => ?_
    rcases hisNew.2 with hend | ⟨hlt, hless⟩
    · omega
    · exact absurd (congrArg ServerInfo.serverId heq) (hless.trans_le (hinc.old_le hle hi)).ne'
  | kept hlt hlt' heq => exact h.kept hs hlt hlt' heq
  | moved hmoved hid =>
    obtain ⟨hlt, hlt', hsame, haddress⟩ := hmoved
    have hremoved : Merging s newList newSize (m.removed s) := by
      refine h.removed hs hlt fun hinc j hj hle heq => haddress ?_
      rw [hinc.new_inj hlt' hj (hsame.symm.trans (congrArg _ heq)), heq]
    refine hremoved.added hid (hfresh _ hid) hlt' fun hinc i hi hle heq => ?_
    exact (Nat.lt_of_succ_le hle).ne (hinc.old_inj hlt hi (hsame.trans (congrArg _ heq).symm))

theorem Merging.rounds {t : MergeState} (h : Merging s newList newSize m) (hs : Distinct s)
    (hfresh : ∀ pool, acquireId pool ≠ 0 → ∀ address, (acquireId pool, address) ∉ pool.servers)
    (hrounds : Rounds acquireId s newList newSize m t) : Merging s newList newSize t := by
  induction hrounds with
  | refl => exact h
  | tail _ hround ih => exact ih.round hs hfresh hround

end MergeState

namespace AuditConnections

open MergeState TcpClientPool

variable {acquireId : TcpClientPool → ℕ} {s t : AuditConnections} {call : ServerListCall}

/-! ## The list and its connections -/

variable (s) in
/-- The servers registered in the pool are those of the list, each with a connection of its own. -/
structure Mirrors : Prop where
  size_le : s.size ≤ maxSmallServerListSize
  registered : ∀ id address, (id, address) ∈ s.tcpReporter.servers ↔
    ∃ i < s.size, s.connectionIdList i = id ∧ (s.container i).address = address
  distinct : Distinct s

variable (s t call) in
/-- The list is replaced, and its connections are merged. -/
structure Merges : Prop where
  mirrors : Mirrors t
  size : t.size = call.serverListSize
  container : ∀ i < t.size, t.container i = call.serverList i
  /-- Each server of the old list is removed once, or keeps its connection. -/
  removed : ∃ calls, t.tcpReporter.calls = s.tcpReporter.calls ++ calls ∧ (removedIds calls).Nodup ∧
    (∀ id ∈ removedIds calls, ∃ i < s.size, s.connectionIdList i = id) ∧
    ∀ i < s.size, s.connectionIdList i ∈ removedIds calls ∨
      s.connectionIdList i ∉ removedIds calls ∧
        ∃ j < t.size, t.container j = s.container i ∧ t.connectionIdList j = s.connectionIdList i
  kept : (∀ i k, i < k → k < s.size → (s.container i).serverId < (s.container k).serverId) →
    (∀ j k, j < k → k < t.size → (t.container j).serverId < (t.container k).serverId) →
      ∀ i < s.size, ∀ j < t.size, t.container j = s.container i →
        t.connectionIdList j = s.connectionIdList i

theorem Mirrors.merging (hs : Mirrors s) (newList : ℕ → ServerInfo) (newSize : ℕ) :
    Merging s newList newSize { tcpReporter := s.tcpReporter } where
  registers := by
    refine ⟨⟨rfl, Nat.zero_le _, Nat.zero_le _⟩, fun id address => ?_, by simp, by simp⟩
    rw [hs.registered]
    simp
  removes := ⟨[], by simp, List.nodup_nil, by simp [removedIds], by simp⟩
  aligned _ i _ j _ _ := by simp

/-- A call of `OnServerListUpdated` for the audit collectors merges the connections in rounds, or
    ends the process when the pool does not take a server. -/
theorem Mirrors.merges_or_stuck (hs : Mirrors s)
    (hfresh : ∀ pool, acquireId pool ≠ 0 → ∀ address, (acquireId pool, address) ∉ pool.servers)
    (hgroup : call.serverGroup = .auditCollector)
    (hsize : call.serverListSize ≤ maxSmallServerListSize) :
    (∃ t m, onServerListUpdated acquireId s call = .ok t ∧ Merges s t call ∧
      Rounds acquireId s call.serverList call.serverListSize { tcpReporter := s.tcpReporter } m ∧
      m.oldIndex = s.size ∧ m.newIndex = call.serverListSize ∧ t.tcpReporter = m.tcpReporter) ∨
    onServerListUpdated acquireId s call = .error .runtimeAssert ∧
      ∃ m, Rounds acquireId s call.serverList call.serverListSize
          { tcpReporter := s.tcpReporter } m ∧
        IsStuck acquireId s call.serverList call.serverListSize m := by
  rw [onServerListUpdated, hgroup]
  dsimp only
  rcases mergeLoop_rounds acquireId call.serverList
      (m := { tcpReporter := s.tcpReporter }) (n := s.size + call.serverListSize + 1)
      ⟨rfl, Nat.zero_le _, Nat.zero_le _⟩ hs.size_le hsize (by simp) with
    ⟨m, hm, hrounds, hold, hnew⟩ | ⟨hfail, hstuck⟩
  swap
  · rw [hfail]
    exact .inr ⟨rfl, hstuck⟩
  have hmerging := (hs.merging call.serverList call.serverListSize).rounds hs.distinct hfresh hrounds
  have hcursor : m.tempConnectionCurror = call.serverListSize := hmerging.registers.cursor.trans hnew
  obtain ⟨container, hcontainer, hentries⟩ := exists_copyLoop call.serverList s.container hsize
  obtain ⟨ids, hids, htemp⟩ := exists_copyLoop m.tempConnectionIdList s.connectionIdList hsize
  refine .inl ⟨⟨m.tcpReporter, container, call.serverListSize, ids⟩, m, ?_,
    ⟨?_, rfl, hentries, ?_, ?_⟩, hrounds, hold, hnew, rfl⟩
  · rw [hm, ok_bind, if_neg (not_not.2 hcursor), hcontainer, ok_bind, hids, ok_bind]
  · refine ⟨hsize, fun id address => ?_, fun i hi k hk heq => ?_⟩
    · rw [hmerging.registers.registered, hold, hnew]
      refine (or_iff_right ?_).trans (exists_congr fun j => and_congr_right fun hj => ?_)
      · rintro ⟨i, hle, hlt, -⟩
        exact hle.not_gt hlt
      · dsimp only
        rw [htemp j hj, hentries j hj]
    · refine hmerging.registers.distinct i (hnew ▸ hi) k (hnew ▸ hk) ?_
      rw [← htemp i hi, ← htemp k hk]
      exact heq
  · obtain ⟨calls, hcalls⟩ := hmerging.removes
    refine ⟨calls, hcalls.appended, hcalls.nodup, hold ▸ hcalls.old, fun i hi => ?_⟩
    refine (hcalls.passed i (hold ▸ hi)).imp_right (And.imp_right fun ⟨j, hj, hserver, hid⟩ => ?_)
    rw [hnew] at hj
    exact ⟨j, hj, (hentries j hj).trans hserver, (htemp j hj).trans hid⟩
  · intro hinc hinc' i hi j hj heq
    have hnewInc : ∀ j k, j < k → k < call.serverListSize →
        (call.serverList j).serverId < (call.serverList k).serverId := by
      intro j k hjk hk
      rw [← hentries j (hjk.trans hk), ← hentries k hk]
      exact hinc' j k hjk hk
    have haligned := hmerging.aligned ⟨hinc, hnewInc⟩ i hi j hj ((hentries j hj).symm.trans heq).symm
    exact (htemp j hj).trans (haligned.2 (hnew ▸ hj))

/-- A call of `OnServerListUpdated` for the audit collectors succeeds, and merges the connections. -/
theorem Mirrors.merges (hs : Mirrors s) (hfresh : Fresh acquireId)
    (hgroup : call.serverGroup = .auditCollector)
    (hsize : call.serverListSize ≤ maxSmallServerListSize) :
    ∃ t, onServerListUpdated acquireId s call = .ok t ∧ Merges s t call := by
  rcases hs.merges_or_stuck (fun pool _ => (hfresh pool).2) hgroup hsize with
    ⟨t, -, ht, hmerges, -⟩ | ⟨-, m, -, ⟨-, hid⟩ | ⟨-, hid⟩⟩
  · exact ⟨t, ht, hmerges⟩
  · exact absurd hid (hfresh _).1
  · exact absurd hid (hfresh _).1

theorem mirrors_init : Mirrors {} where
  size_le := Nat.zero_le _
  registered := by simp
  distinct := fun i hi => absurd hi (Nat.not_lt_zero i)

theorem Mirrors.step (hs : Mirrors s) (hfresh : Fresh acquireId)
    (hsize : call.serverListSize ≤ maxSmallServerListSize) :
    ∃ t, onServerListUpdated acquireId s call = .ok t ∧ Mirrors t := by
  rcases hgroup : call.serverGroup
  · exact ⟨s, by rw [onServerListUpdated, hgroup], hs⟩
  · obtain ⟨t, ht, hmerges⟩ := hs.merges hfresh hgroup hsize
    exact ⟨t, ht, hmerges.mirrors⟩

/-- The connection that a report is posted to is registered. -/
theorem Mirrors.selected (hs : Mirrors s) (hsize : s.size ≠ 0) (authId : ℕ) :
    (s.connectionIdList (authId % s.size), (s.container (authId % s.size)).address) ∈
      s.tcpReporter.servers :=
  (hs.registered _ _).2 ⟨_, Nat.mod_lt _ (Nat.pos_of_ne_zero hsize), rfl, rfl⟩

/-- Calls with lists that are not too long leave the connections those of the list. -/
theorem mirrors_of_exec {calls : List ServerListCall} (hfresh : Fresh acquireId)
    (hsize : ∀ call ∈ calls, call.serverListSize ≤ maxSmallServerListSize) :
    ∃ s, exec (onServerListUpdated acquireId) {} calls = .ok s ∧ Mirrors s := by
  induction calls using List.reverseRecOn with
  | nil => exact ⟨{}, rfl, mirrors_init⟩
  | append_singleton calls call ih =>
    obtain ⟨s, hs, hmirrors⟩ := ih fun c hc => hsize c (List.mem_append_left _ hc)
    obtain ⟨t, ht, hmirrors'⟩ := hmirrors.step hfresh (hsize call (by simp))
    exact ⟨t, (exec_snoc call hs).trans ht, hmirrors'⟩

/-- In every run, a call of `OnServerListUpdated` for the audit collectors succeeds, and leaves the
    connections those of the new list. -/
theorem merges_of_exec {calls : List ServerListCall} (hfresh : Fresh acquireId)
    (hsize : ∀ call ∈ calls, call.serverListSize ≤ maxSmallServerListSize)
    {pre : List ServerListCall} (hpre : pre ++ [call] <+: calls)
    (hgroup : call.serverGroup = .auditCollector) :
    ∃ s t, exec (onServerListUpdated acquireId) {} pre = .ok s ∧
      exec (onServerListUpdated acquireId) {} (pre ++ [call]) = .ok t ∧ Merges s t call := by
  obtain ⟨s, hs, hmirrors⟩ := mirrors_of_exec hfresh fun c hc =>
    hsize c (hpre.subset (List.mem_append_left _ hc))
  obtain ⟨t, ht, hmerges⟩ := hmirrors.merges hfresh hgroup (hsize call (hpre.subset (by simp)))
  exact ⟨s, t, hs, (exec_snoc call hs).trans ht, hmerges⟩

/-- An id that is greater than all that are in use. -/
def nextId (pool : TcpClientPool) : ℕ := (pool.servers.map Prod.fst).foldr max 0 + 1

theorem fresh_nextId : Fresh nextId := by
  intro pool
  refine ⟨Nat.succ_ne_zero _, fun address h => ?_⟩
  have hle : ∀ servers : List (ℕ × NetAddress), ∀ server ∈ servers,
      server.1 ≤ (servers.map Prod.fst).foldr max 0 := by
    intro servers
    induction servers with
    | nil => simp
    | cons server servers ih =>
      intro server' h
      rcases List.mem_cons.1 h with rfl | h
      · exact le_max_left _ _
      · exact (ih _ h).trans (le_max_right _ _)
  exact absurd (hle _ _ h) (Nat.not_succ_le_self _)

/-- A server leaves and another comes, and a third stays. -/
def twoLists : List ServerListCall :=
  [⟨.auditCollector, fun i => ⟨i + 1, {}⟩, 2⟩, ⟨.auditCollector, fun i => ⟨i + 2, {}⟩, 2⟩]

theorem merges_of_exec_twoLists :
    ∃ s t, exec (onServerListUpdated nextId) {} (twoLists.take 1) = .ok s ∧
      exec (onServerListUpdated nextId) {} twoLists = .ok t ∧
      Merges s t ⟨.auditCollector, fun i => ⟨i + 2, {}⟩, 2⟩ :=
  merges_of_exec fresh_nextId (by decide) (show twoLists.take 1 ++ [_] <+: _ from List.prefix_rfl) rfl

end AuditConnections

end ProxyPlatform
