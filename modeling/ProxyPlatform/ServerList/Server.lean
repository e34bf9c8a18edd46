import ProxyPlatform.ServerList.Message

/-!
# The server list server

The server keeps a list for each server group, with a slot for each of its servers, and
sends the servers of a group to whoever asks. The response is built when the list has
changed since it was built last (`dirty`), with a new version; otherwise it is sent again,
under the request id of the new request.

The id service, which calls `onNewServerId` and `onRemoveServerId`, is not in the
repository: `extractServerId` is the group and the object id of a server id, and which
servers are registered is said by the calls alone (`register`). A failing `X_PASS_ASSERT` is
a fault.
-/

namespace ProxyPlatform

/-- The groups `main` enables. -/
def enabledServerGroups : List UInt8 := [0x00, 0x01, 0x02, 0x03, 0x04, 0x05, 0x06, 0x07, 0x08, 0x09, 0x0A]

/-- `xBufferedSmallList`. -/
structure BufferedSmallList where
  list : ℕ → ServerInfo := fun _ => {}
  resp : ServerListPacket := {}
  dirty : Bool := true
  versionTimestampMS : UInt64 := 0

/-- The lists, and the packets sent so far. -/
structure SmallServerListServer where
  serverListMap : UInt8 → Option BufferedSmallList := fun _ => none
  sent : List ServerListPacket := []

/-- What happens to the server: calls of the id service, and requests, with the reading of the clock
    that the answer takes. -/
inductive ServerListEvent
  | newServerId (serverId : ℕ) (exportAddress : NetAddress)
  | removeServerId (serverId : ℕ)
  | downloadList (commandId requestId : ℕ) (payload : Bytes) (timestampMS : UInt64)

namespace BufferedSmallList

/-- The servers of the list, in the order of their slots. -/
def servers (list : BufferedSmallList) : List ServerInfo :=
  (firsts list.list maxSmallServerListSize).filter fun ref => ref.serverId ≠ 0

/-- `BuildServerListResponse`. -/
def buildServerListResponse (C : StreamCodec) (list : BufferedSmallList) (requestId : ℕ)
    (timestampMS : UInt64) : BufferedSmallList :=
  let list :=
    if list.dirty then
      let newVersionTimestampMS :=
        if timestampMS ≤ list.versionTimestampMS then list.versionTimestampMS + 1 else timestampMS
      { list with
        dirty := false
        versionTimestampMS := newVersionTimestampMS
        resp :=
          { commandId := cmdDownloadSmallServerListResp
            requestId := 0
            payload := PPGetSmallServerListResp.serialize C newVersionTimestampMS list.servers } }
    else list
  { list with resp := { list.resp with requestId := requestId } }

section buildServerListResponse

variable {C : StreamCodec} (list : BufferedSmallList) (requestId : ℕ) (timestampMS : UInt64)

@[simp] theorem buildServerListResponse_list :
    (list.buildServerListResponse C requestId timestampMS).list = list.list := by
  simp only [buildServerListResponse]
  split <;> rfl

@[simp] theorem servers_buildServerListResponse :
    (list.buildServerListResponse C requestId timestampMS).servers = list.servers := by
  rw [servers, buildServerListResponse_list, ← servers]

@[simp] theorem buildServerListResponse_dirty :
    (list.buildServerListResponse C requestId timestampMS).dirty = false := by
  simp only [buildServerListResponse]
  split
  · rfl
  · next h => simpa using h

@[simp] theorem buildServerListResponse_requestId :
    (list.buildServerListResponse C requestId timestampMS).resp.requestId = requestId := rfl

variable {list}

/-- A list that has not changed is sent again, under another request id. -/
theorem buildServerListResponse_of_not_dirty (h : list.dirty = false) :
    list.buildServerListResponse C requestId timestampMS =
      { list with resp := { list.resp with requestId := requestId } } := by
  simp [buildServerListResponse, h]

/-- The response for a list that has changed holds its servers. -/
theorem resp_buildServerListResponse (h : list.dirty) :
    (list.buildServerListResponse C requestId timestampMS).resp =
      ⟨cmdDownloadSmallServerListResp, requestId, PPGetSmallServerListResp.serialize C
        (list.buildServerListResponse C requestId timestampMS).versionTimestampMS list.servers⟩ := by
  simp [buildServerListResponse, h]

/-- Its version is new, unless there is no greater one. -/
theorem lt_buildServerListResponse (h : list.dirty)
    (hmax : list.versionTimestampMS ≠ 0xFFFFFFFFFFFFFFFF) :
    list.versionTimestampMS <
      (list.buildServerListResponse C requestId timestampMS).versionTimestampMS := by
  simp only [buildServerListResponse, h, if_true]
  split
  · have hlt : list.versionTimestampMS.toNat ≠ 2 ^ 64 - 1 := fun heq => hmax (UInt64.toNat_inj.1 heq)
    have hbound := list.versionTimestampMS.toNat_lt
    rw [UInt64.lt_iff_toNat_lt, UInt64.toNat_add]
    change _ < (_ + 1) % 2 ^ 64
    omega
  · next hlt => exact UInt64.not_le.1 hlt

end buildServerListResponse

end BufferedSmallList

namespace SmallServerListServer

variable (C : StreamCodec) (extractServerId : ℕ → UInt8 × ℕ) (readServerGroup : Bytes → Option UInt8)

/-- `EnableServerGroup`. -/
def enableServerGroup (s : SmallServerListServer) (type : UInt8) : SmallServerListServer :=
  { s with serverListMap := Function.update s.serverListMap type (some {}) }

/-- The server when it starts. -/
def init : SmallServerListServer := enabledServerGroups.foldl enableServerGroup {}

/-- The list of a group is replaced. -/
def setList (s : SmallServerListServer) (type : UInt8) (list : BufferedSmallList) :
    SmallServerListServer :=
  { s with serverListMap := Function.update s.serverListMap type (some list) }

/-- `OnNewServerId`. -/
def onNewServerId (s : SmallServerListServer) (serverId : ℕ) (exportAddress : NetAddress) :
    Except Fault SmallServerListServer :=
  let (type, objectId) := extractServerId serverId
  match s.serverListMap type with
  | none => .error .assertion
  | some list =>
    let index := objectId - 1
    if objectId = 0 then .error .assertion
    else if maxSmallServerListSize ≤ index then .ok s
    else if (list.list index).serverId ≠ 0 ∨ (list.list index).address.isSet then .error .assertion
    else .ok (s.setList type { list with
      list := Function.update list.list index { serverId := serverId, address := exportAddress }
      dirty := true })

/-- `OnRemoveServerId`. -/
def onRemoveServerId (s : SmallServerListServer) (serverId : ℕ) : Except Fault SmallServerListServer :=
  let (type, objectId) := extractServerId serverId
  match s.serverListMap type with
  | none => .error .assertion
  | some list =>
    let index := objectId - 1
    if objectId = 0 then .error .assertion
    else if maxSmallServerListSize ≤ index then .ok s
    else .ok (s.setList type { list with
      list := Function.update list.list index {}
      dirty := true })

/-- `OnDownloadList`. -/
def onDownloadList (s : SmallServerListServer) (commandId requestId : ℕ) (payload : Bytes)
    (timestampMS : UInt64) : SmallServerListServer :=
  if commandId ≠ cmdDownloadSmallServerList then s
  else match readServerGroup payload with
    | none => s
    | some serverGroup => match s.serverListMap serverGroup with
      | none => s
      | some list =>
        let list := list.buildServerListResponse C requestId timestampMS
        { s.setList serverGroup list with sent := s.sent ++ [list.resp] }

/-- One event. -/
def step (s : SmallServerListServer) : ServerListEvent → Except Fault SmallServerListServer
  | .newServerId serverId exportAddress => s.onNewServerId extractServerId serverId exportAddress
  | .removeServerId serverId => s.onRemoveServerId extractServerId serverId
  | .downloadList commandId requestId payload timestampMS =>
    .ok (s.onDownloadList C readServerGroup commandId requestId payload timestampMS)

variable {C extractServerId readServerGroup} {s t : SmallServerListServer}

/-- No list is added by replacing one. -/
theorem isSome_setList {g type : UInt8} {list list' : BufferedSmallList}
    (h : s.serverListMap type = some list) (hg : ((s.setList type list').serverListMap g).isSome) :
    (s.serverListMap g).isSome := by
  rw [setList] at hg
  by_cases htype : g = type
  · rw [htype, h]
    rfl
  · simpa only [Function.update_of_ne htype] using hg

/-- A server that is registered gets its slot, which is free, if it has one. -/
theorem onNewServerId_eq_ok {serverId : ℕ} {exportAddress : NetAddress}
    (h : s.onNewServerId extractServerId serverId exportAddress = .ok t) :
    ∃ list, s.serverListMap (extractServerId serverId).1 = some list ∧
      (extractServerId serverId).2 ≠ 0 ∧
      (maxSmallServerListSize ≤ (extractServerId serverId).2 - 1 ∧ t = s ∨
        (extractServerId serverId).2 - 1 < maxSmallServerListSize ∧
          t = s.setList (extractServerId serverId).1 { list with
            list := Function.update list.list ((extractServerId serverId).2 - 1)
              { serverId := serverId, address := exportAddress }
            dirty := true }) := by
  simp only [onNewServerId] at h
  split at h
  · cases h
  · next list hlist =>
    split at h
    · cases h
    · next hzero =>
      refine ⟨list, hlist, hzero, ?_⟩
      split at h
      · next hle =>
        cases h
        exact .inl ⟨hle, rfl⟩
      · next hlt =>
        split at h
        · cases h
        · cases h
          exact .inr ⟨Nat.not_le.1 hlt, rfl⟩

/-- The slot of a server that is removed is cleared. -/
theorem onRemoveServerId_eq_ok {serverId : ℕ}
    (h : s.onRemoveServerId extractServerId serverId = .ok t) :
    ∃ list, s.serverListMap (extractServerId serverId).1 = some list ∧
      (extractServerId serverId).2 ≠ 0 ∧
      (maxSmallServerListSize ≤ (extractServerId serverId).2 - 1 ∧ t = s ∨
        (extractServerId serverId).2 - 1 < maxSmallServerListSize ∧
          t = s.setList (extractServerId serverId).1 { list with
            list := Function.update list.list ((extractServerId serverId).2 - 1) {}
            dirty := true }) := by
  simp only [onRemoveServerId] at h
  split at h
  · cases h
  · next list hlist =>
    split at h
    · cases h
    · next hzero =>
      refine ⟨list, hlist, hzero, ?_⟩
      split at h
      · next hle =>
        cases h
        exact .inl ⟨hle, rfl⟩
      · next hlt =>
        cases h
        exact .inr ⟨Nat.not_le.1 hlt, rfl⟩

variable (C readServerGroup) in
/-- A request is answered by the list of its group, or ignored. -/
theorem onDownloadList_cases (s : SmallServerListServer) (commandId requestId : ℕ) (payload : Bytes)
    (timestampMS : UInt64) :
    (∃ g list, commandId = cmdDownloadSmallServerList ∧ readServerGroup payload = some g ∧
      s.serverListMap g = some list ∧
      s.onDownloadList C readServerGroup commandId requestId payload timestampMS =
        { s.setList g (list.buildServerListResponse C requestId timestampMS) with
          sent := s.sent ++ [(list.buildServerListResponse C requestId timestampMS).resp] }) ∨
    s.onDownloadList C readServerGroup commandId requestId payload timestampMS = s := by
  rw [onDownloadList]
  split
  · exact .inr rfl
  · next hcommand =>
    split
    · exact .inr rfl
    · next g hg =>
      split
      · exact .inr rfl
      · next list hlist => exact .inl ⟨g, list, not_not.1 hcommand, hg, hlist, rfl⟩

/-- No step adds a list. -/
theorem isSome_of_step {e : ServerListEvent} {g : UInt8}
    (h : step C extractServerId readServerGroup s e = .ok t) (hg : (t.serverListMap g).isSome) :
    (s.serverListMap g).isSome := by
  rcases e with ⟨serverId, exportAddress⟩ | serverId | ⟨commandId, requestId, payload, timestampMS⟩
  · obtain ⟨list, hlist, -, ⟨-, rfl⟩ | ⟨-, rfl⟩⟩ := onNewServerId_eq_ok h
    · exact hg
    · exact isSome_setList hlist hg
  · obtain ⟨list, hlist, -, ⟨-, rfl⟩ | ⟨-, rfl⟩⟩ := onRemoveServerId_eq_ok h
    · exact hg
    · exact isSome_setList hlist hg
  · cases h
    rcases onDownloadList_cases C readServerGroup s commandId requestId payload timestampMS with
      ⟨k, list, -, -, hlist, hu⟩ | hu
    · rw [hu] at hg
      exact isSome_setList hlist hg
    · rwa [hu] at hg

end SmallServerListServer

end ProxyPlatform
