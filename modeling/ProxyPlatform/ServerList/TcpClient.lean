import ProxyPlatform.Audit.Capacity
import ProxyPlatform.ServerList.Versions

/-!
# The connections to the servers of a list

`xSmallServerListTcpClient` keeps a connection to every server of a list, in the slot that
the id of the server determines (`extractIndexFromSmallServerId`). With a new list each slot
is compared with the server the list has for it: the connection is kept, or removed, or
made, or made anew. A message goes to one of the servers of the list.

The slots are as many as a list has entries, but the ids come from the network:

* `fillLoop_eq`: the servers of the list, by slot, if their ids are those of slots;
* `Connected`: the pool has the connections of the slots, and no others; `updateSlot_spec`:
  what a slot becomes;
* `mirrorsLists_iff`: the client follows every list exactly when all ids are those of slots.
-/

namespace ProxyPlatform

/-- `xServerLocalInfo`. -/
structure ServerLocalInfo where
  connectionId : ℕ := 0
  serverInfo : ServerInfo := {}

/-- `xSmallServerListTcpClient`. -/
structure SmallServerListTcpClient where
  serverInfoContainer : ℕ → ServerLocalInfo := fun _ => {}
  clientPool : TcpClientPool := {}
  packedServerList : ℕ → ℕ := fun _ => 0
  packedServerListSize : ℕ := 0

/-- `ExtractIndexFromSmallServerId`, in a `size32_t`: the object id, less one. -/
def extractIndexFromSmallServerId (extractServerId : ℕ → UInt8 × ℕ) (serverId : ℕ) : ℕ :=
  ((extractServerId serverId).2 + (2 ^ 32 - 1)) % 2 ^ 32

namespace SmallServerListTcpClient

variable (acquireId : TcpClientPool → ℕ) (extractServerId : ℕ → UInt8 × ℕ)

/-- The loop over the list, from the entry `i` on: the servers by slot, and the slots in the order of
    the list. -/
def fillLoop : List ServerInfo → ℕ → (ℕ → ServerInfo) → (ℕ → ℕ) →
    Except Fault ((ℕ → ServerInfo) × (ℕ → ℕ))
  | [], _, newServerArray, packedServerList => .ok (newServerArray, packedServerList)
  | si :: list, i, newServerArray, packedServerList => do
    let index := extractIndexFromSmallServerId extractServerId si.serverId
    -- The index comes from the network, and is not checked.
    let newServerArray ← writeAt maxSmallServerListSize newServerArray index si
    let packedServerList ← writeAt maxSmallServerListSize packedServerList i index
    fillLoop list (i + 1) newServerArray packedServerList

/-- `AddServer`, for the server of a slot. -/
def addToSlot (new : ServerInfo) (pool : TcpClientPool) :
    Except Fault (ServerLocalInfo × TcpClientPool) :=
  let (id, pool) := pool.addServer acquireId new.address
  if id = 0 then .error .runtimeAssert
  else .ok ({ connectionId := id, serverInfo := new }, pool)

/-- A slot, for which the new list has the server `new`, or none. -/
def updateSlot (new : ServerInfo) (old : ServerLocalInfo) (pool : TcpClientPool) :
    Except Fault (ServerLocalInfo × TcpClientPool) :=
  if old.connectionId ≠ 0 then
    if new = old.serverInfo then .ok (old, pool)
    else
      let pool := pool.removeServer old.connectionId
      if new.serverId ≠ 0 then addToSlot acquireId new pool
      else .ok ({ old with connectionId := 0 }, pool)
  else if new.serverId ≠ 0 then addToSlot acquireId new pool
  else .ok (old, pool)

/-- The loop over the slots: the `n` slots from the slot `i` on. -/
def slotLoop (newServerArray : ℕ → ServerInfo) : ℕ → ℕ → (ℕ → ServerLocalInfo) → TcpClientPool →
    Except Fault ((ℕ → ServerLocalInfo) × TcpClientPool)
  | 0, _, container, pool => .ok (container, pool)
  | n + 1, i, container, pool => do
    let old ← readAt maxSmallServerListSize container i
    let new ← readAt maxSmallServerListSize newServerArray i
    let (info, pool) ← updateSlot acquireId new old pool
    slotLoop newServerArray n (i + 1) (Function.update container i info) pool

/-- `UpdateServerList`. -/
def updateServerList (s : SmallServerListTcpClient) (serverInfoList : List ServerInfo) :
    Except Fault SmallServerListTcpClient := do
  let (newServerArray, packedServerList) ←
    fillLoop extractServerId serverInfoList 0 (fun _ => {}) fun _ => 0
  let (container, pool) ←
    slotLoop acquireId newServerArray maxSmallServerListSize 0 s.serverInfoContainer s.clientPool
  .ok {
    serverInfoContainer := container
    clientPool := pool
    packedServerList := packedServerList
    packedServerListSize := serverInfoList.length }

/-- `PostMessage`: the connection a message goes to. -/
def postMessage (s : SmallServerListTcpClient) (hash : UInt32) : Except Fault (Option ℕ) :=
  if s.packedServerListSize = 0 then .ok none
  else do
    let selected ← readAt maxSmallServerListSize s.packedServerList
      (hash.toNat % s.packedServerListSize)
    let serverLocalInfo ← readAt maxSmallServerListSize s.serverInfoContainer selected
    .ok (some serverLocalInfo.connectionId)

/-! ## The servers of a list, by slot -/

/-- The last server of a list with the id of the slot `i`. -/
def lastAt (l : List ServerInfo) (i : ℕ) : Option ServerInfo :=
  (l.filter fun server => extractIndexFromSmallServerId extractServerId server.serverId = i).getLast?

/-- The ids of the servers of a list are those of slots. -/
def InSlots (l : List ServerInfo) : Prop :=
  ∀ server ∈ l, extractIndexFromSmallServerId extractServerId server.serverId < maxSmallServerListSize

variable {acquireId extractServerId} {l : List ServerInfo}

theorem lastAt_cons (si : ServerInfo) (l : List ServerInfo) (i : ℕ) :
    lastAt extractServerId (si :: l) i = (lastAt extractServerId l i).or
      (if extractIndexFromSmallServerId extractServerId si.serverId = i then some si else none) := by
  rw [lastAt, lastAt, List.filter_cons]
  by_cases hi : extractIndexFromSmallServerId extractServerId si.serverId = i
  · rw [if_pos (decide_eq_true hi), if_pos hi, List.getLast?_cons]
    rcases (l.filter _).getLast? with _ | server
    · rfl
    · rfl
  · rw [if_neg (by simpa using hi), if_neg hi, Option.or_none]

/-- The server found in a list is one of it, with the id of the slot. -/
theorem lastAt_eq_some {i : ℕ} {server : ServerInfo} (h : lastAt extractServerId l i = some server) :
    server ∈ l ∧ extractIndexFromSmallServerId extractServerId server.serverId = i := by
  have hmem := List.mem_of_getLast? h
  rw [List.mem_filter, decide_eq_true_eq] at hmem
  exact hmem

/-- A server of the list is found, or a later one with the same slot. -/
theorem exists_lastAt {server : ServerInfo} (h : server ∈ l) :
    ∃ last, lastAt extractServerId l
      (extractIndexFromSmallServerId extractServerId server.serverId) = some last := by
  have hne : l.filter (fun s => extractIndexFromSmallServerId extractServerId s.serverId =
      extractIndexFromSmallServerId extractServerId server.serverId) ≠ [] :=
    List.ne_nil_of_mem (List.mem_filter.2 ⟨h, decide_eq_true rfl⟩)
  exact ⟨_, List.getLast?_eq_some_getLast hne⟩

/-- The loop over a list whose ids are those of slots. -/
theorem fillLoop_eq {i : ℕ} (hl : InSlots extractServerId l)
    (hlength : i + l.length ≤ maxSmallServerListSize) (a : ℕ → ServerInfo) (p : ℕ → ℕ) :
    ∃ a' p', fillLoop extractServerId l i a p = .ok (a', p') ∧
      (∀ j, a' j = (lastAt extractServerId l j).getD (a j)) ∧
      firsts p' (i + l.length) = firsts p i ++
        l.map fun server => extractIndexFromSmallServerId extractServerId server.serverId := by
  induction l generalizing i a p with
  | nil => exact ⟨a, p, rfl, fun j => rfl, (List.append_nil _).symm⟩
  | cons si l ih =>
    rw [List.length_cons] at hlength
    obtain ⟨hsi, hl⟩ := List.forall_mem_cons.1 hl
    obtain ⟨a', p', hloop, ha, hp⟩ := ih hl (i := i + 1) (by omega)
      (Function.update a (extractIndexFromSmallServerId extractServerId si.serverId) si)
      (Function.update p i (extractIndexFromSmallServerId extractServerId si.serverId))
    refine ⟨a', p', ?_, fun j => ?_, ?_⟩
    · rw [fillLoop, writeAt_of_lt hsi, ok_bind, writeAt_of_lt (by omega), ok_bind, hloop]
    · rw [ha, lastAt_cons]
      rcases lastAt extractServerId l j with _ | last
      · by_cases hj : extractIndexFromSmallServerId extractServerId si.serverId = j
        · rw [if_pos hj, hj, Function.update_self]
          rfl
        · rw [if_neg hj, Function.update_of_ne (Ne.symm hj)]
          rfl
      · rfl
    · rw [List.length_cons, ← Nat.add_assoc, Nat.add_right_comm, hp, firsts_update, List.map_cons,
        List.append_assoc]
      rfl

/-- The loop returns only if the ids are those of slots. -/
theorem inSlots_of_fillLoop {i : ℕ} {a : ℕ → ServerInfo} {p : ℕ → ℕ}
    {r : (ℕ → ServerInfo) × (ℕ → ℕ)} (h : fillLoop extractServerId l i a p = .ok r) :
    InSlots extractServerId l := by
  induction l generalizing i a p with
  | nil => exact fun _ hmem => absurd hmem List.not_mem_nil
  | cons si l ih =>
    obtain ⟨a', ha', h⟩ := bind_eq_ok.1 h
    obtain ⟨p', -, h⟩ := bind_eq_ok.1 h
    refine List.forall_mem_cons.2 ⟨?_, ih h⟩
    rw [writeAt] at ha'
    split at ha'
    · next hlt => exact hlt
    · cases ha'

/-! ## The connections of the slots -/

/-- The pool has the connections of the slots, each registered at the address of its server, and no
    others. -/
structure Connected (c : ℕ → ServerLocalInfo) (pool : TcpClientPool) : Prop where
  mem_iff : ∀ id address, (id, address) ∈ pool.servers ↔ id ≠ 0 ∧
    ∃ i < maxSmallServerListSize, (c i).connectionId = id ∧ (c i).serverInfo.address = address
  nodup : (pool.servers.map Prod.fst).Nodup
  unique : ∀ i < maxSmallServerListSize, ∀ j < maxSmallServerListSize,
    (c i).connectionId = (c j).connectionId → (c i).connectionId ≠ 0 → i = j
  named : ∀ i < maxSmallServerListSize, (c i).connectionId ≠ 0 → (c i).serverInfo.serverId ≠ 0

namespace Connected

variable {c : ℕ → ServerLocalInfo} {pool : TcpClientPool} {i : ℕ} {new : ServerInfo}

theorem empty : Connected (fun _ => {}) {} where
  mem_iff id address := by
    refine iff_of_false List.not_mem_nil ?_
    rintro ⟨hid, i, -, rfl, -⟩
    exact hid rfl
  nodup := List.nodup_nil
  unique _ _ _ _ _ h := absurd rfl h
  named _ _ h := absurd rfl h

/-- No more servers are registered than there are slots. -/
theorem length_le (h : Connected c pool) : pool.servers.length ≤ maxSmallServerListSize := by
  have hsubset : pool.servers.map Prod.fst ⊆
      (List.range maxSmallServerListSize).map fun i => (c i).connectionId := by
    intro id hid
    obtain ⟨⟨_, address⟩, hmem, rfl⟩ := List.mem_map.1 hid
    obtain ⟨-, i, hi, hci, -⟩ := (h.mem_iff _ _).1 hmem
    exact List.mem_map.2 ⟨i, List.mem_range.2 hi, hci⟩
  have hle := (h.nodup.subperm hsubset).length_le
  rwa [List.length_map, List.length_map, List.length_range] at hle

/-- The connection of a slot is removed. -/
theorem remove (h : Connected c pool) (hi : i < maxSmallServerListSize)
    (hne : (c i).connectionId ≠ 0) :
    Connected (Function.update c i { c i with connectionId := 0 })
      (pool.removeServer (c i).connectionId) where
  mem_iff id address := by
    rw [TcpClientPool.removeServer]
    dsimp only
    rw [List.mem_filter, decide_eq_true_eq, h.mem_iff]
    constructor
    · rintro ⟨⟨hid, j, hj, hcj, haddress⟩, hother⟩
      have hji : j ≠ i := fun heq => hother (heq ▸ hcj.symm)
      refine ⟨hid, j, hj, ?_⟩
      rw [Function.update_of_ne hji]
      exact ⟨hcj, haddress⟩
    · rintro ⟨hid, j, hj, hcj, haddress⟩
      rcases eq_or_ne j i with rfl | hji
      · rw [Function.update_self] at hcj
        exact absurd hcj.symm hid
      · rw [Function.update_of_ne hji] at hcj haddress
        refine ⟨⟨hid, j, hj, hcj, haddress⟩, fun heq => hji ?_⟩
        exact h.unique j hj i hi (hcj.trans heq) (hcj ▸ hid)
  nodup := h.nodup.sublist (List.filter_sublist.map _)
  unique j hj k hk heq hjne := by
    have hji : j ≠ i := by
      rintro rfl
      rw [Function.update_self] at hjne
      exact hjne rfl
    rw [Function.update_of_ne hji] at heq hjne
    rcases eq_or_ne k i with rfl | hki
    · rw [Function.update_self] at heq
      exact absurd heq hjne
    · rw [Function.update_of_ne hki] at heq
      exact h.unique j hj k hk heq hjne
  named j hj hjne := by
    rcases eq_or_ne j i with rfl | hji
    · rw [Function.update_self] at hjne
      exact absurd rfl hjne
    · rw [Function.update_of_ne hji] at hjne ⊢
      exact h.named j hj hjne

/-- A slot without a connection gets one. -/
theorem add (h : Connected c pool) (hi : i < maxSmallServerListSize)
    (hzero : (c i).connectionId = 0) (hnew : new.serverId ≠ 0)
    (hid : acquireId pool ≠ 0) (hfresh : ∀ address, (acquireId pool, address) ∉ pool.servers) :
    Connected (Function.update c i { connectionId := acquireId pool, serverInfo := new })
      (pool.addServer acquireId new.address).2 := by
  -- The new id is that of no other slot.
  have hother : ∀ j < maxSmallServerListSize, (c j).connectionId ≠ acquireId pool := fun j hj heq =>
    hfresh _ ((h.mem_iff _ _).2 ⟨hid, j, hj, heq, rfl⟩)
  have hservers : (pool.addServer acquireId new.address).2.servers =
      (acquireId pool, new.address) :: pool.servers := by
    rw [TcpClientPool.addServer]
    exact if_neg hid
  refine ⟨fun id address => ?_, ?_, fun j hj k hk heq hjne => ?_, fun j hj hjne => ?_⟩
  · rw [hservers, List.mem_cons, Prod.mk.injEq, h.mem_iff]
    constructor
    · rintro (⟨rfl, rfl⟩ | ⟨hne, j, hj, hcj, haddress⟩)
      · refine ⟨hid, i, hi, ?_⟩
        rw [Function.update_self]
        exact ⟨rfl, rfl⟩
      · have hji : j ≠ i := fun heq => hne (hcj ▸ heq ▸ hzero)
        refine ⟨hne, j, hj, ?_⟩
        rw [Function.update_of_ne hji]
        exact ⟨hcj, haddress⟩
    · rintro ⟨hne, j, hj, hcj, haddress⟩
      rcases eq_or_ne j i with rfl | hji
      · rw [Function.update_self] at hcj haddress
        exact Or.inl ⟨hcj.symm, haddress.symm⟩
      · rw [Function.update_of_ne hji] at hcj haddress
        exact Or.inr ⟨hne, j, hj, hcj, haddress⟩
  · rw [hservers, List.map_cons, List.nodup_cons]
    refine ⟨fun hmem => ?_, h.nodup⟩
    obtain ⟨⟨id, address⟩, hx, hxid⟩ := List.mem_map.1 hmem
    exact hfresh address ((show id = acquireId pool from hxid) ▸ hx)
  · rcases eq_or_ne j i with rfl | hji
    · rcases eq_or_ne k j with rfl | hkj
      · rfl
      · rw [Function.update_self, Function.update_of_ne hkj] at heq
        exact absurd heq.symm (hother k hk)
    · rw [Function.update_of_ne hji] at heq hjne
      rcases eq_or_ne k i with rfl | hki
      · rw [Function.update_self] at heq
        exact absurd heq (hother j hj)
      · rw [Function.update_of_ne hki] at heq
        exact h.unique j hj k hk heq hjne
  · rcases eq_or_ne j i with rfl | hji
    · rw [Function.update_self]
      exact hnew
    · rw [Function.update_of_ne hji] at hjne ⊢
      exact h.named j hj hjne

end Connected

/-! ## A new list -/

/-- What the slot with `old` is after it is updated to the server `new`. -/
structure SlotUpdated (new : ServerInfo) (old info : ServerLocalInfo) : Prop where
  connected : info.connectionId ≠ 0 ↔ new.serverId ≠ 0
  serverInfo : info.connectionId ≠ 0 → info.serverInfo = new
  kept : old.connectionId ≠ 0 → new = old.serverInfo → info = old

/-- The connection that the slot with `old` loses. -/
def dropped (new : ServerInfo) (old : ServerLocalInfo) : List ℕ :=
  if old.connectionId ≠ 0 ∧ new ≠ old.serverInfo then [old.connectionId] else []

theorem mem_dropped {new : ServerInfo} {old : ServerLocalInfo} {id : ℕ} :
    id ∈ dropped new old ↔ id ≠ 0 ∧ old.connectionId = id ∧ new ≠ old.serverInfo := by
  rw [dropped]
  split
  · next h =>
    rw [List.mem_singleton]
    refine ⟨?_, fun hid => hid.2.1.symm⟩
    rintro rfl
    exact ⟨h.1, rfl, h.2⟩
  · next h => exact iff_of_false List.not_mem_nil fun hid => h ⟨hid.2.1 ▸ hid.1, hid.2.2⟩

section

variable {c : ℕ → ServerLocalInfo} {pool : TcpClientPool} {i : ℕ} {new : ServerInfo}
  (hpool : TcpClientPool.Limited (maxSmallServerListSize * 5) acquireId)
include hpool

/-- There is room for the server of a slot. -/
theorem addToSlot_eq (h : Connected c pool) (hi : i < maxSmallServerListSize)
    (hzero : (c i).connectionId = 0) (hnew : new.serverId ≠ 0) :
    ∃ id pool', addToSlot acquireId new pool = .ok (⟨id, new⟩, pool') ∧ id ≠ 0 ∧
      Connected (Function.update c i ⟨id, new⟩) pool' ∧
      pool'.calls = pool.calls ++ [.addServer new.address id] := by
  have hid : acquireId pool ≠ 0 := by
    have hlength := h.length_le
    rw [maxSmallServerListSize] at hlength
    refine (hpool.full pool).not.2 (Nat.not_le.2 ?_)
    rw [maxSmallServerListSize]
    omega
  refine ⟨acquireId pool, (pool.addServer acquireId new.address).2, ?_, hid,
    h.add hi hzero hnew hid (hpool.fresh pool hid), rfl⟩
  exact if_neg hid

/-- A slot is updated, and the others have their connections still. -/
theorem updateSlot_spec (h : Connected c pool) (hi : i < maxSmallServerListSize) (new : ServerInfo) :
    ∃ info pool' calls, updateSlot acquireId new (c i) pool = .ok (info, pool') ∧
      SlotUpdated new (c i) info ∧ Connected (Function.update c i info) pool' ∧
      pool'.calls = pool.calls ++ calls ∧ TcpClientPool.removedIds calls = dropped new (c i) := by
  by_cases hold : (c i).connectionId ≠ 0
  · by_cases hsame : new = (c i).serverInfo
    · -- The connection is kept.
      refine ⟨c i, pool, [], ?_, ⟨iff_of_true hold ?_, fun _ => hsame.symm, fun _ _ => rfl⟩, ?_,
        (List.append_nil _).symm, ?_⟩
      · rw [updateSlot, if_pos hold, if_pos hsame]
      · exact hsame ▸ h.named i hi hold
      · rwa [Function.update_eq_self]
      · rw [dropped, if_neg fun hdrop => hdrop.2 hsame]
        rfl
    · have hdropped : dropped new (c i) = [(c i).connectionId] := if_pos ⟨hold, hsame⟩
      have hremoved := h.remove hi hold
      by_cases hnew : new.serverId ≠ 0
      · -- It is made anew.
        obtain ⟨id, pool', hadd, hid, hconnected, hcalls⟩ := addToSlot_eq hpool hremoved hi
          (by rw [Function.update_self]) hnew
        rw [Function.update_idem] at hconnected
        refine ⟨⟨id, new⟩, pool', [.removeServer (c i).connectionId, .addServer new.address id], ?_,
          ⟨iff_of_true hid hnew, fun _ => rfl, fun _ heq => absurd heq hsame⟩, hconnected, ?_, ?_⟩
        · rw [updateSlot, if_pos hold, if_neg hsame, if_pos hnew, hadd]
        · rw [hcalls, TcpClientPool.removeServer, List.append_assoc]
          rfl
        · rw [hdropped]
          rfl
      · refine ⟨{ c i with connectionId := 0 }, pool.removeServer (c i).connectionId,
          [.removeServer (c i).connectionId], ?_,
          ⟨iff_of_false (fun hne => hne rfl) hnew, fun hne => absurd rfl hne,
            fun _ heq => absurd heq hsame⟩, hremoved, rfl, hdropped.symm⟩
        rw [updateSlot, if_pos hold, if_neg hsame, if_neg hnew]
  · have hdropped : dropped new (c i) = [] := if_neg fun hdrop => hold hdrop.1
    by_cases hnew : new.serverId ≠ 0
    · obtain ⟨id, pool', hadd, hid, hconnected, hcalls⟩ := addToSlot_eq hpool h hi (not_not.1 hold) hnew
      refine ⟨⟨id, new⟩, pool', [.addServer new.address id], ?_,
        ⟨iff_of_true hid hnew, fun _ => rfl, fun hne => absurd hne hold⟩, hconnected, hcalls,
        hdropped.symm⟩
      rw [updateSlot, if_neg hold, if_pos hnew, hadd]
    · refine ⟨c i, pool, [], ?_, ⟨iff_of_false hold hnew, fun hne => absurd hne hold,
        fun _ _ => rfl⟩, ?_, (List.append_nil _).symm, hdropped.symm⟩
      · rw [updateSlot, if_neg hold, if_neg hnew]
      · rwa [Function.update_eq_self]

/-- The loop over the slots from the slot `i` on. -/
theorem slotLoop_spec (a : ℕ → ServerInfo) {n : ℕ} (h : Connected c pool)
    (hi : i + n = maxSmallServerListSize) :
    ∃ c' pool' calls, slotLoop acquireId a n i c pool = .ok (c', pool') ∧
      (∀ j < i, c' j = c j) ∧
      (∀ j, i ≤ j → j < maxSmallServerListSize → SlotUpdated (a j) (c j) (c' j)) ∧
      Connected c' pool' ∧ pool'.calls = pool.calls ++ calls ∧
      TcpClientPool.removedIds calls = (List.range' i n).flatMap fun j => dropped (a j) (c j) := by
  induction n generalizing i c pool with
  | zero =>
    refine ⟨c, pool, [], rfl, fun _ _ => rfl, fun j hij hj => ?_, h, (List.append_nil _).symm, rfl⟩
    exact absurd hj (Nat.not_lt.2 (hi ▸ hij))
  | succ n ih =>
    have hlt : i < maxSmallServerListSize := by omega
    obtain ⟨info, poolᵢ, callsᵢ, hupdate, hslot, hᵢ, hcallsᵢ, hremovedᵢ⟩ :=
      updateSlot_spec hpool h hlt (a i)
    obtain ⟨c', pool', calls, hloop, hbefore, hafter, h', hcalls, hremoved⟩ :=
      ih (i := i + 1) hᵢ (by omega)
    refine ⟨c', pool', callsᵢ ++ calls, ?_, fun j hj => ?_, fun j hij hj => ?_, h', ?_, ?_⟩
    · rw [slotLoop, readAt_of_lt hlt, ok_bind, readAt_of_lt hlt, ok_bind, hupdate, ok_bind]
      exact hloop
    · rw [hbefore j (by omega), Function.update_of_ne hj.ne]
    · rcases hij.eq_or_lt with rfl | hij
      · -- The slot itself, which the rest of the loop leaves.
        rw [hbefore i (by omega), Function.update_self]
        exact hslot
      · have hupdated := hafter j hij hj
        rwa [Function.update_of_ne hij.ne'] at hupdated
    · rw [hcalls, hcallsᵢ, List.append_assoc]
    · rw [TcpClientPool.removedIds, List.filterMap_append, ← TcpClientPool.removedIds,
        ← TcpClientPool.removedIds, hremovedᵢ, hremoved, List.range'_succ, List.flatMap_cons]
      congr 1
      refine List.flatMap_congr fun j hj => ?_
      have hij : i + 1 ≤ j := (List.mem_range'_1.1 hj).1
      rw [Function.update_of_ne (by omega)]

end

/-! ## All lists -/

variable (acquireId extractServerId)

/-- The client follows the list `l`, where the list before was `prev`: the slots of the servers of the
    list have a connection, each registered at the address of the last server with the slot, and
    no other servers are registered; a slot whose server is the same keeps its connection, and every
    other connection is removed, once. -/
structure Mirrors (prev l : List ServerInfo) (s t : SmallServerListTcpClient) : Prop where
  slots : ∀ i < maxSmallServerListSize, (t.serverInfoContainer i).connectionId ≠ 0 ↔
    ∃ server ∈ l, extractIndexFromSmallServerId extractServerId server.serverId = i
  registered : ∀ id address, (id, address) ∈ t.clientPool.servers ↔ id ≠ 0 ∧
    ∃ i < maxSmallServerListSize, (t.serverInfoContainer i).connectionId = id ∧
      (lastAt extractServerId l i).map ServerInfo.address = some address
  kept : ∀ i < maxSmallServerListSize, lastAt extractServerId prev i = lastAt extractServerId l i →
    (t.serverInfoContainer i).connectionId = (s.serverInfoContainer i).connectionId
  removed : ∃ calls, t.clientPool.calls = s.clientPool.calls ++ calls ∧
    (TcpClientPool.removedIds calls).Nodup ∧
    ∀ id, id ∈ TcpClientPool.removedIds calls ↔ id ≠ 0 ∧
      ∃ i < maxSmallServerListSize, (s.serverInfoContainer i).connectionId = id ∧
        lastAt extractServerId prev i ≠ lastAt extractServerId l i
  posts : l ≠ [] → ∀ hash, ∃ id, t.postMessage hash = .ok (some id) ∧ id ≠ 0

/-- The client follows each of the lists, in turn. -/
def MirrorsLists (ls : List (List ServerInfo)) : Prop :=
  ∀ pre l, pre ++ [l] <+: ls → ∃ s t,
    exec (updateServerList acquireId extractServerId) {} pre = .ok s ∧
    updateServerList acquireId extractServerId s l = .ok t ∧
    Mirrors extractServerId (pre.getLast?.getD []) l s t

/-- The connections are those of the list. -/
structure Follows (s : SmallServerListTcpClient) (l : List ServerInfo) : Prop where
  connected : Connected s.serverInfoContainer s.clientPool
  slot : ∀ i < maxSmallServerListSize, lastAt extractServerId l i =
    if (s.serverInfoContainer i).connectionId ≠ 0 then some (s.serverInfoContainer i).serverInfo
    else none

variable {acquireId extractServerId} {prev : List ServerInfo} {s : SmallServerListTcpClient}

/-- A server with the id 0 has no slot. -/
theorem InSlots.serverId_ne_zero (h : InSlots extractServerId l) (hzero : (extractServerId 0).2 = 0)
    {i : ℕ} {server : ServerInfo} (hlast : lastAt extractServerId l i = some server) :
    server.serverId ≠ 0 := by
  intro hid
  have hlt := h server (lastAt_eq_some hlast).1
  rw [hid, extractIndexFromSmallServerId, hzero] at hlt
  exact absurd hlt (by decide)

namespace SlotUpdated

variable {last : Option ServerInfo} {old info : ServerLocalInfo}
  (hlast : ∀ server, last = some server → server.serverId ≠ 0)
include hlast

/-- The array of the new servers has a server for a slot exactly when the list has. -/
theorem serverId_ne_zero_iff : (last.getD {}).serverId ≠ 0 ↔ last ≠ none := by
  rcases last with _ | server
  · exact iff_of_false (fun hne => hne rfl) fun hne => hne rfl
  · exact iff_of_true (hlast server rfl) (Option.some_ne_none server)

/-- A slot holds the server that the list has for it. -/
theorem eq_ite (h : SlotUpdated (last.getD {}) old info) :
    last = if info.connectionId ≠ 0 then some info.serverInfo else none := by
  have hconnected := h.connected.trans (serverId_ne_zero_iff hlast)
  rcases last with _ | server
  · rw [if_neg (hconnected.not.2 fun hne => hne rfl)]
  · have hne := hconnected.2 (Option.some_ne_none server)
    rw [if_pos hne, h.serverInfo hne, Option.getD_some]

variable (hold : old.connectionId ≠ 0 → old.serverInfo.serverId ≠ 0)
include hold

/-- A slot with a connection is compared with its server by what the lists have for it. -/
theorem getD_eq_iff (hne : old.connectionId ≠ 0) :
    last.getD {} = old.serverInfo ↔ last = some old.serverInfo := by
  rcases last with _ | server
  · refine iff_of_false (fun heq => hold hne ?_) fun heq => Option.some_ne_none _ heq.symm
    exact heq ▸ rfl
  · rw [Option.getD_some, Option.some_inj]

/-- A slot with the same server keeps its connection. -/
theorem connectionId_eq (h : SlotUpdated (last.getD {}) old info)
    (hsame : (if old.connectionId ≠ 0 then some old.serverInfo else none) = last) :
    info.connectionId = old.connectionId := by
  by_cases hne : old.connectionId ≠ 0
  · rw [if_pos hne] at hsame
    rw [h.kept hne ((getD_eq_iff hlast hold hne).2 hsame.symm)]
  · rw [if_neg hne] at hsame
    have hnone := (h.connected.trans (serverId_ne_zero_iff hlast)).not.2 (not_not.2 hsame.symm)
    rw [not_not.1 hne, not_not.1 hnone]

end SlotUpdated

/-- The connections that are removed are those of the slots whose server is another. -/
theorem mem_removed {c : ℕ → ServerLocalInfo} {pool : TcpClientPool} (h : Connected c pool)
    {a : ℕ → ServerInfo} {last : ℕ → Option ServerInfo} (ha : ∀ i, a i = (last i).getD {})
    (hlast : ∀ i server, last i = some server → server.serverId ≠ 0)  {id : ℕ} :
    id ∈ (List.range' 0 maxSmallServerListSize).flatMap (fun j => dropped (a j) (c j)) ↔ id ≠ 0 ∧
      ∃ i < maxSmallServerListSize, (c i).connectionId = id ∧
        (if (c i).connectionId ≠ 0 then some (c i).serverInfo else none) ≠ last i := by
  rw [← List.range_eq_range', List.mem_flatMap]
  constructor
  · rintro ⟨i, hi, hid⟩
    obtain ⟨hne, hci, hother⟩ := mem_dropped.1 hid
    refine ⟨hne, i, List.mem_range.1 hi, hci, fun heq => hother ?_⟩
    have hcne : (c i).connectionId ≠ 0 := hci ▸ hne
    rw [if_pos hcne] at heq
    rw [ha, ← heq, Option.getD_some]
  · rintro ⟨hne, i, hi, hci, hother⟩
    have hcne : (c i).connectionId ≠ 0 := hci ▸ hne
    refine ⟨i, List.mem_range.2 hi, mem_dropped.2 ⟨hne, hci, fun heq => hother ?_⟩⟩
    rw [if_pos hcne]
    rw [ha] at heq
    exact ((SlotUpdated.getD_eq_iff (hlast i) (h.named i hi) hcne).1 heq).symm

/-- No connection is removed twice. -/
theorem nodup_removed {c : ℕ → ServerLocalInfo} {pool : TcpClientPool} (h : Connected c pool)
    (a : ℕ → ServerInfo) :
    ((List.range' 0 maxSmallServerListSize).flatMap fun j => dropped (a j) (c j)).Nodup := by
  rw [List.nodup_flatMap]
  refine ⟨fun j _ => ?_, ?_⟩
  · rw [dropped]
    split
    · exact List.nodup_singleton _
    · exact List.nodup_nil
  · rw [← List.range_eq_range']
    refine List.Pairwise.imp_of_mem (fun {i j} hi hj hij id hidi hidj => ?_)
      (List.nodup_range (n := maxSmallServerListSize))
    obtain ⟨hne, hci, -⟩ := mem_dropped.1 hidi
    obtain ⟨-, hcj, -⟩ := mem_dropped.1 hidj
    exact hij (h.unique i (List.mem_range.1 hi) j (List.mem_range.1 hj) (hci.trans hcj.symm)
      (hci ▸ hne))

/-- The list before the first one is empty. -/
theorem follows_init : Follows extractServerId {} [] where
  connected := Connected.empty
  slot _ _ := rfl

/-- A list whose ids are those of slots. -/
theorem Follows.update (hpool : TcpClientPool.Limited (maxSmallServerListSize * 5) acquireId)
    (hzero : (extractServerId 0).2 = 0) (h : Follows extractServerId s prev)
    (hl : InSlots extractServerId l) (hsize : l.length ≤ maxSmallServerListSize) :
    ∃ t, updateServerList acquireId extractServerId s l = .ok t ∧ Follows extractServerId t l ∧
      Mirrors extractServerId prev l s t := by
  obtain ⟨a, p, hfill, ha, hp⟩ := fillLoop_eq (i := 0) hl (by rwa [Nat.zero_add]) (fun _ => {}) fun _ => 0
  obtain ⟨c, pool, calls, hloop, -, hslots, hconnected, hcalls, hremoved⟩ :=
    slotLoop_spec hpool a h.connected (Nat.zero_add maxSmallServerListSize)
  have hlast : ∀ i server, lastAt extractServerId l i = some server → server.serverId ≠ 0 :=
    fun i server => hl.serverId_ne_zero hzero
  have hupdated : ∀ i < maxSmallServerListSize,
      SlotUpdated ((lastAt extractServerId l i).getD {}) (s.serverInfoContainer i) (c i) :=
    fun i hi => ha i ▸ hslots i (Nat.zero_le i) hi
  have hslot : ∀ i < maxSmallServerListSize, lastAt extractServerId l i =
      if (c i).connectionId ≠ 0 then some (c i).serverInfo else none :=
    fun i hi => (hupdated i hi).eq_ite (hlast i)
  have hnamed : ∀ i < maxSmallServerListSize, (c i).connectionId ≠ 0 ↔
      ∃ server ∈ l, extractIndexFromSmallServerId extractServerId server.serverId = i := by
    intro i hi
    rw [(hupdated i hi).connected, SlotUpdated.serverId_ne_zero_iff (hlast i),
      Option.ne_none_iff_exists']
    constructor
    · exact fun ⟨server, hserver⟩ => ⟨server, lastAt_eq_some hserver⟩
    · rintro ⟨server, hserver, rfl⟩
      exact exists_lastAt hserver
  refine ⟨{ serverInfoContainer := c, clientPool := pool, packedServerList := p,
            packedServerListSize := l.length }, ?_, ⟨hconnected, hslot⟩, hnamed, ?_, ?_,
    ⟨calls, hcalls, ?_, ?_⟩, ?_⟩
  · rw [updateServerList, hfill, ok_bind]
    dsimp only
    rw [hloop, ok_bind]
  · intro id address
    dsimp only
    rw [hconnected.mem_iff]
    refine and_congr_right fun hid => exists_congr fun i => and_congr_right fun hi =>
      and_congr_right fun hci => ?_
    rw [hslot i hi, if_pos (hci ▸ hid), Option.map_some, Option.some_inj]
  · intro i hi hsame
    rw [h.slot i hi] at hsame
    exact (hupdated i hi).connectionId_eq (hlast i) (h.connected.named i hi) hsame
  · rw [hremoved]
    exact nodup_removed h.connected a
  · intro id
    rw [hremoved, mem_removed h.connected ha hlast]
    refine and_congr_right fun _ => exists_congr fun i => and_congr_right fun hi =>
      and_congr_right fun _ => ?_
    rw [h.slot i hi]
  · intro hne hash
    have hpos : 0 < l.length := List.length_pos_of_ne_nil hne
    have hk := Nat.mod_lt hash.toNat hpos
    -- The slot selected is that of an entry of the list.
    have hselected : p (hash.toNat % l.length) =
        extractIndexFromSmallServerId extractServerId l[hash.toNat % l.length].serverId := by
      rw [Nat.zero_add, firsts_zero, List.nil_append] at hp
      have hget := congrArg (fun list => list[hash.toNat % l.length]?) hp
      simpa [firsts, List.getElem?_map, List.getElem?_range hk, List.getElem?_eq_getElem hk] using hget
    have hmem : l[hash.toNat % l.length] ∈ l := List.getElem_mem hk
    have hi := hl _ hmem
    refine ⟨_, ?_, (hnamed _ hi).2 ⟨_, hmem, rfl⟩⟩
    rw [postMessage, if_neg hpos.ne', readAt_of_lt (hk.trans_le hsize), ok_bind]
    dsimp only
    rw [hselected, readAt_of_lt hi]
    rfl

/-- The lists are followed as long as their ids are those of slots. -/
theorem exists_follows (hpool : TcpClientPool.Limited (maxSmallServerListSize * 5) acquireId)
    (hzero : (extractServerId 0).2 = 0) {ls : List (List ServerInfo)}
    (hls : ∀ l ∈ ls, InSlots extractServerId l ∧ l.length ≤ maxSmallServerListSize) :
    ∃ s, exec (updateServerList acquireId extractServerId) {} ls = .ok s ∧
      Follows extractServerId s (ls.getLast?.getD []) := by
  induction ls using List.reverseRecOn with
  | nil => exact ⟨{}, rfl, follows_init⟩
  | append_singleton ls l ih =>
    obtain ⟨s, hs, hfollows⟩ := ih fun l hl => hls l (List.mem_append_left _ hl)
    obtain ⟨hl, hsize⟩ := hls l (List.mem_append_right _ (List.mem_singleton_self l))
    obtain ⟨t, ht, hfollows, -⟩ := hfollows.update hpool hzero hl hsize
    refine ⟨t, (exec_snoc l hs).trans ht, ?_⟩
    rwa [List.getLast?_append, List.getLast?_singleton, Option.some_or, Option.getD_some]

/-- The client follows the lists exactly when the ids of the servers are those of slots. -/
theorem mirrorsLists_iff (hpool : TcpClientPool.Limited (maxSmallServerListSize * 5) acquireId)
    (hzero : (extractServerId 0).2 = 0) {ls : List (List ServerInfo)}
    (hsize : ∀ l ∈ ls, l.length ≤ maxSmallServerListSize) :
    MirrorsLists acquireId extractServerId ls ↔ ∀ l ∈ ls, InSlots extractServerId l := by
  constructor
  · intro h l hl
    obtain ⟨pre, post, rfl⟩ := List.append_of_mem hl
    obtain ⟨s, t, -, ht, -⟩ := h pre l ⟨post, by rw [List.append_assoc, List.singleton_append]⟩
    obtain ⟨r, hfill, -⟩ := bind_eq_ok.1 ht
    exact inSlots_of_fillLoop hfill
  · rintro hall pre l ⟨post, rfl⟩
    have hmem : ∀ l' ∈ pre ++ [l], l' ∈ pre ++ [l] ++ post := fun l' => List.mem_append_left post
    have hl : l ∈ pre ++ [l] := List.mem_append_right _ (List.mem_singleton_self l)
    have hpre : ∀ l' ∈ pre, InSlots extractServerId l' ∧ l'.length ≤ maxSmallServerListSize :=
      fun l' hl' =>
        have hl' := hmem l' (List.mem_append_left _ hl')
        ⟨hall l' hl', hsize l' hl'⟩
    obtain ⟨s, hs, hfollows⟩ := exists_follows hpool hzero hpre
    obtain ⟨t, ht, -, hmirrors⟩ := hfollows.update hpool hzero (hall l (hmem l hl)) (hsize l (hmem l hl))
    exact ⟨s, t, hs, ht, hmirrors⟩

/-- The ids of the example are those of slots. -/
theorem inSlots_of_lt (h : ∀ server ∈ l, server.serverId ≠ 0 ∧ server.serverId ≤ 128) :
    InSlots ServerListRun.decimalServerId l := by
  intro server hserver
  obtain ⟨hpos, hle⟩ := h server hserver
  rw [extractIndexFromSmallServerId, ServerListRun.decimalServerId, maxSmallServerListSize]
  dsimp only
  omega

theorem mirrorsLists_iff_two :
    MirrorsLists (AuditConnections.limitedId (maxSmallServerListSize * 5)) ServerListRun.decimalServerId
      [[⟨1, {}⟩, ⟨2, {}⟩], [⟨2, {}⟩]] := by
  refine (mirrorsLists_iff (AuditConnections.limited_limitedId _) rfl (by decide)).2 ?_
  exact fun l hl => inSlots_of_lt (by revert l; decide)

/-- A server has the object id 200. -/
theorem mirrorsLists_counterexample :
    updateServerList (AuditConnections.limitedId (maxSmallServerListSize * 5)) ServerListRun.decimalServerId {}
        [⟨200, {}⟩] = .error .indexOutOfRange ∧
      ¬MirrorsLists (AuditConnections.limitedId (maxSmallServerListSize * 5)) ServerListRun.decimalServerId
        [[⟨200, {}⟩]] := by
  have herror : updateServerList (AuditConnections.limitedId (maxSmallServerListSize * 5))
      ServerListRun.decimalServerId {} [⟨200, {}⟩] = .error .indexOutOfRange := by
    have hindex : ¬extractIndexFromSmallServerId ServerListRun.decimalServerId 200 <
        maxSmallServerListSize := by decide
    rw [updateServerList, fillLoop, writeAt, if_neg hindex]
    rfl
  refine ⟨herror, fun h => ?_⟩
  obtain ⟨s, t, hs, ht, -⟩ := h [] [⟨200, {}⟩] List.prefix_rfl
  cases hs
  rw [herror] at ht
  cases ht

end SmallServerListTcpClient

end ProxyPlatform
