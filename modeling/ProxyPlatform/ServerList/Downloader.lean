import ProxyPlatform.Base.Linked
import ProxyPlatform.ServerList.Message

/-!
# The server list downloader

`xSmallServerListDownloader` asks for the lists of the server groups that are enabled, one
group at a tick, and replaces the list of a group when a response comes with a version that
is not the one it has. Responses are datagrams, in which anything may be.

* `onUdpPacket_of_accepts`, `onUdpPacket_of_ignored`, `onUdpPacket_of_overflows`: what a
  datagram does;
* `Move`: the steps there are;
* `handlesAtomically_iff`: it stays in range and is handled at once or not at all, but for
  a response with the request id 128, which passes the check of the request id.

The list of the servers to ask is empty (`ServerListServerList` is never filled), so it is
always the master that is asked. A failing `assert` is a fault, as in a debug build; the
timeout depends on the build, too.
-/

namespace ProxyPlatform

def stServerList : ℕ := 0

/-- `UPDATE_SERVER_LIST_TIMEOUT_MS`, in a release build (`NDEBUG`) or in a debug build. -/
def updateServerListTimeoutMS (ndebug : Bool) : ℕ := if ndebug then 900000 else 60000

/-- `xEnabledServerGroupNode`. -/
structure EnabledServerGroupNode where
  enabled : Bool := false
  serverGroup : ℕ := 0
  versionTimestampMS : UInt64 := 0
  lastUpdateTimestampMS : ℕ := 0
  serverListSize : ℕ := 0
  serverList : Option (ℕ → ServerInfo) := none

/-- A request for a list, as it is posted. -/
structure ServerListPost where
  serverAddress : NetAddress
  requestId : ℕ
  serverGroup : ℕ

/-- A call of `OnServerListUpdated`. -/
structure ServerListUpdate where
  serverGroup : ℕ
  serverList : List ServerInfo
  versionTimestampMS : UInt64
  deriving DecidableEq

/-- A datagram, and what is behind it in the receive buffer. -/
structure ServerListDatagram extends ServerListPacket where
  beyond : Bytes := []

/-- `xSmallServerListDownloader`. -/
structure SmallServerListDownloader where
  localTicker : ℕ := 0
  serverListServerMasterAddress : NetAddress
  enabledServerGroupList : Linked Unit := .empty
  enabledServerGroupMap : ℕ → EnabledServerGroupNode := fun _ => {}
  lastUpdateServerListSlaveListTimestampMS : ℕ := 0
  tempSmallServerListForResponse : ℕ → ServerInfo := fun _ => {}
  /-- The requests posted so far. -/
  posts : List ServerListPost := []
  /-- The updates announced so far. -/
  updates : List ServerListUpdate := []

/-- What happens to the downloader. -/
inductive DownloaderEvent
  | enable (type : ℕ)
  | disable (type : ℕ)
  | tick (nowMS : ℕ)
  | datagram (d : ServerListDatagram)

/-- The list of a group. -/
def EnabledServerGroupNode.held (node : EnabledServerGroupNode) : List ServerInfo :=
  match node.serverList with
  | none => []
  | some a => firsts a node.serverListSize

namespace SmallServerListDownloader

variable (C : StreamCodec) (ndebug : Bool)

/-- `EnableServerGroup`. -/
def enableServerGroup (s : SmallServerListDownloader) (type : ℕ) :
    Except Fault SmallServerListDownloader :=
  if type = stServerList then .error .assertion
  else match readAt maxSmallServerListSize s.enabledServerGroupMap type with
    | .error x => .error x
    | .ok node =>
      if node.enabled ∨ type ∈ s.enabledServerGroupList.nodes () ∨ node.serverList.isSome ∨
          node.serverGroup ≠ 0 then .error .assertion
      else
        .ok { s with
          enabledServerGroupMap := Function.update s.enabledServerGroupMap type { node with
            enabled := true
            serverGroup := type
            serverList := some fun _ => {}
            serverListSize := 0 }
          enabledServerGroupList := s.enabledServerGroupList.grabTail () type }

/-- `DisableServerGroup`. -/
def disableServerGroup (s : SmallServerListDownloader) (type : ℕ) :
    Except Fault SmallServerListDownloader :=
  match readAt maxSmallServerListSize s.enabledServerGroupMap type with
  | .error x => .error x
  | .ok node =>
    if node.enabled ∧ type ∈ s.enabledServerGroupList.nodes () ∧ node.serverList.isSome ∧
        node.serverGroup ≠ 0 then
      .ok { s with
        enabledServerGroupMap := Function.update s.enabledServerGroupMap type { node with
          enabled := false
          serverGroup := 0
          lastUpdateTimestampMS := 0
          serverListSize := 0
          serverList := none }
        enabledServerGroupList := s.enabledServerGroupList.unlink type }
    else .error .assertion

/-- `GetServerListView`. -/
def getServerListView (s : SmallServerListDownloader) (type : ℕ) : Except Fault (List ServerInfo) :=
  match readAt maxSmallServerListSize s.enabledServerGroupMap type with
  | .error x => .error x
  | .ok node =>
    if node.enabled then
      match node.serverList with
      | none => .error .nullPointer
      | some a => .ok (firsts a node.serverListSize)
    else .ok []

/-- `UpdateServerListSlaveList`. -/
def updateServerListSlaveList (s : SmallServerListDownloader) : SmallServerListDownloader :=
  if sub64 s.localTicker (updateServerListTimeoutMS ndebug) <
      s.lastUpdateServerListSlaveListTimestampMS then s
  else
    { s with
      lastUpdateServerListSlaveListTimestampMS := s.localTicker
      posts := s.posts ++ [⟨s.serverListServerMasterAddress, stServerList, stServerList⟩] }

/-- `UpdateOneEnabledServerList`. -/
def updateOneEnabledServerList (s : SmallServerListDownloader) : SmallServerListDownloader :=
  match s.enabledServerGroupList.nodes () with
  | [] => s
  | index :: _ =>
    let node := s.enabledServerGroupMap index
    if node.lastUpdateTimestampMS ≤ sub64 s.localTicker (updateServerListTimeoutMS ndebug) then
      { s with
        enabledServerGroupMap := Function.update s.enabledServerGroupMap index
          { node with lastUpdateTimestampMS := s.localTicker }
        enabledServerGroupList := s.enabledServerGroupList.grabTail () index
        posts := s.posts ++
          [⟨s.serverListServerMasterAddress, node.serverGroup, node.serverGroup⟩] }
    else s

/-- `Tick`. -/
def tick (s : SmallServerListDownloader) (nowMS : ℕ) : SmallServerListDownloader :=
  updateOneEnabledServerList ndebug
    (updateServerListSlaveList ndebug { s with localTicker := nowMS })

/-- What `OnUdpPacket` does with a response of the group `serverGroup`. -/
def replaceServerList (s : SmallServerListDownloader) (serverGroup : ℕ)
    (resp : PPGetSmallServerListResp) : Except Fault SmallServerListDownloader :=
  match readAt maxSmallServerListSize s.enabledServerGroupMap serverGroup with
  | .error x => .error x
  | .ok node =>
    if node.enabled ∧ node.versionTimestampMS ≠ resp.versionTimestampMS then
      match node.serverList with
      | none => .error .nullPointer
      | some a =>
        match copyLoop maxSmallServerListSize s.tempSmallServerListForResponse
          resp.serverListSize 0 a with
        | .error x => .error x
        | .ok a =>
          .ok { s with
            enabledServerGroupMap := Function.update s.enabledServerGroupMap serverGroup { node with
              serverList := some a
              serverListSize := resp.serverListSize
              versionTimestampMS := resp.versionTimestampMS }
            updates := s.updates ++
              [⟨serverGroup, firsts a resp.serverListSize, resp.versionTimestampMS⟩] }
    else .ok s

/-- `OnUdpPacket`. -/
def onUdpPacket (s : SmallServerListDownloader) (d : ServerListDatagram) :
    Except Fault SmallServerListDownloader :=
  -- The request id is the group of the list; that of the bound itself passes.
  if d.commandId ≠ cmdDownloadSmallServerListResp ∨ maxSmallServerListSize < d.requestId then .ok s
  else match PPGetSmallServerListResp.deserialize C s.tempSmallServerListForResponse
      d.payload d.beyond with
    | .error x => .error x
    | .ok (a, none) => .ok { s with tempSmallServerListForResponse := a }
    | .ok (a, some resp) =>
      if maxSmallServerListSize < d.requestId then
        .ok { s with tempSmallServerListForResponse := a }
      else replaceServerList { s with tempSmallServerListForResponse := a } d.requestId resp

/-- One event. -/
def step (s : SmallServerListDownloader) : DownloaderEvent → Except Fault SmallServerListDownloader
  | .enable type => s.enableServerGroup type
  | .disable type => s.disableServerGroup type
  | .tick nowMS => .ok (s.tick ndebug nowMS)
  | .datagram d => s.onUdpPacket C d

/-- The downloader before any event. -/
def init (master : NetAddress) : SmallServerListDownloader :=
  { serverListServerMasterAddress := master }

/-! ## Consistency -/

/-- The group `g` is in the list, and has an array, if it is enabled. -/
structure GroupConsistent (s : SmallServerListDownloader) (g : ℕ) : Prop where
  linked : g ∈ s.enabledServerGroupList.nodes () ↔ (s.enabledServerGroupMap g).enabled
  ready : (s.enabledServerGroupMap g).enabled → ∃ a, (s.enabledServerGroupMap g).serverList = some a
  group : (s.enabledServerGroupMap g).enabled →
    (s.enabledServerGroupMap g).serverGroup = g ∧ 0 < g ∧ g < maxSmallServerListSize

/-- All groups are. -/
def Consistent (s : SmallServerListDownloader) : Prop := ∀ g, GroupConsistent s g

/-- The datagram `d` is a response that replaces the list of its group, by that of `v` and `l`. -/
structure Accepts (s : SmallServerListDownloader) (d : ServerListDatagram) (v : UInt64)
    (l : List ServerInfo) : Prop where
  command : d.commandId = cmdDownloadSmallServerListResp
  lt : d.requestId < maxSmallServerListSize
  decode : PPGetSmallServerListResp.decode C d.payload d.beyond = some (v, l)
  enabled : (s.enabledServerGroupMap d.requestId).enabled
  version : (s.enabledServerGroupMap d.requestId).versionTimestampMS ≠ v

/-- The datagram `d` is a well formed response whose request id is the size of the map. -/
structure Overflows (d : ServerListDatagram) : Prop where
  command : d.commandId = cmdDownloadSmallServerListResp
  requestId : d.requestId = maxSmallServerListSize
  decode : (PPGetSmallServerListResp.decode C d.payload d.beyond).isSome

variable {C ndebug} {s t : SmallServerListDownloader} {d : ServerListDatagram} {v : UInt64}
  {l : List ServerInfo}

/-- A response that is accepted replaces the list of its group. -/
theorem onUdpPacket_of_accepts (hs : Consistent s) (h : Accepts C s d v l) :
    ∃ a b, firsts b l.length = l ∧ s.onUdpPacket C d = .ok { s with
      tempSmallServerListForResponse := a
      enabledServerGroupMap := Function.update s.enabledServerGroupMap d.requestId
        { s.enabledServerGroupMap d.requestId with
          serverList := some b
          serverListSize := l.length
          versionTimestampMS := v }
      updates := s.updates ++ [⟨d.requestId, l, v⟩] } := by
  obtain ⟨a, ha, hfirsts⟩ := PPGetSmallServerListResp.deserialize_eq (C := C)
    s.tempSmallServerListForResponse d.payload d.beyond
  obtain ⟨hl, hle⟩ := hfirsts v l h.decode
  obtain ⟨a₀, ha₀⟩ := (hs d.requestId).ready h.enabled
  obtain ⟨b, hb, hbl⟩ := firsts_copyLoop a a₀ hle
  have hlt : ¬(d.commandId ≠ cmdDownloadSmallServerListResp ∨
      maxSmallServerListSize < d.requestId) := by
    rw [not_or]
    exact ⟨not_not.2 h.command, h.lt.le.not_gt⟩
  refine ⟨a, b, hbl.trans hl, ?_⟩
  rw [onUdpPacket, if_neg hlt, ha, h.decode, Option.map_some]
  dsimp only
  rw [if_neg h.lt.le.not_gt, replaceServerList, readAt_of_lt h.lt]
  dsimp only
  rw [if_pos ⟨h.enabled, h.version⟩, ha₀]
  dsimp only
  rw [hb]
  dsimp only
  rw [hbl, hl]

/-- A datagram that is neither accepted nor out of range changes nothing but the scratch array. -/
theorem onUdpPacket_of_ignored (h : ∀ v l, ¬Accepts C s d v l) (hd : ¬Overflows C d) :
    ∃ a, s.onUdpPacket C d = .ok { s with tempSmallServerListForResponse := a } := by
  obtain ⟨a, ha, hfirsts⟩ := PPGetSmallServerListResp.deserialize_eq (C := C)
    s.tempSmallServerListForResponse d.payload d.beyond
  rw [onUdpPacket]
  split
  · exact ⟨_, rfl⟩
  · next hlt =>
    rw [not_or, not_not, Nat.not_lt] at hlt
    rw [ha]
    rcases hdecode : PPGetSmallServerListResp.decode C d.payload d.beyond with _ | ⟨v, l⟩
    · exact ⟨a, rfl⟩
    · have hne : d.requestId ≠ maxSmallServerListSize := fun heq =>
        hd ⟨hlt.1, heq, by rw [hdecode]; rfl⟩
      have hlt' : d.requestId < maxSmallServerListSize := hlt.2.lt_of_ne hne
      refine ⟨a, ?_⟩
      rw [Option.map_some]
      dsimp only
      rw [if_neg hlt'.le.not_gt, replaceServerList, readAt_of_lt hlt']
      dsimp only
      rw [if_neg fun hen => h v l ⟨hlt.1, hlt', hdecode, hen.1, hen.2⟩]

/-- A well formed response with the request id 128 is looked up beyond the end of the map. -/
theorem onUdpPacket_of_overflows (h : Overflows C d) :
    s.onUdpPacket C d = .error .indexOutOfRange := by
  obtain ⟨a, ha, -⟩ := PPGetSmallServerListResp.deserialize_eq (C := C)
    s.tempSmallServerListForResponse d.payload d.beyond
  obtain ⟨x, hx⟩ := Option.isSome_iff_exists.1 h.decode
  have hle : ¬maxSmallServerListSize < d.requestId := h.requestId.le.not_gt
  have hlt : ¬(d.commandId ≠ cmdDownloadSmallServerListResp ∨
      maxSmallServerListSize < d.requestId) := not_or.2 ⟨not_not.2 h.command, hle⟩
  rw [onUdpPacket, if_neg hlt, ha, hx, Option.map_some]
  dsimp only
  rw [if_neg hle, replaceServerList, readAt, if_neg h.requestId.ge.not_gt]

/-! ## Reachable states -/

theorem updateServerListSlaveList_eq (ndebug : Bool) (s : SmallServerListDownloader) :
    ∃ last new, s.updateServerListSlaveList ndebug = { s with
      lastUpdateServerListSlaveListTimestampMS := last
      posts := s.posts ++ new } := by
  rw [updateServerListSlaveList]
  split
  · exact ⟨s.lastUpdateServerListSlaveListTimestampMS, [], by rw [List.append_nil]⟩
  · exact ⟨_, _, rfl⟩

/-- A tick at which the head of the list is due requests its group. -/
theorem tick_of_due {nowMS g : ℕ} {l : List ℕ} (hnodes : s.enabledServerGroupList.nodes () = g :: l)
    (hdue : (s.enabledServerGroupMap g).lastUpdateTimestampMS ≤
      sub64 nowMS (updateServerListTimeoutMS ndebug)) :
    ∃ last new, s.tick ndebug nowMS = { s with
      localTicker := nowMS
      lastUpdateServerListSlaveListTimestampMS := last
      enabledServerGroupMap := Function.update s.enabledServerGroupMap g
        { s.enabledServerGroupMap g with lastUpdateTimestampMS := nowMS }
      enabledServerGroupList := s.enabledServerGroupList.grabTail () g
      posts := s.posts ++ (new ++ [⟨s.serverListServerMasterAddress,
        (s.enabledServerGroupMap g).serverGroup, (s.enabledServerGroupMap g).serverGroup⟩]) } := by
  obtain ⟨last, new, hslave⟩ :=
    updateServerListSlaveList_eq ndebug { s with localTicker := nowMS }
  refine ⟨last, new, ?_⟩
  rw [tick, hslave, updateOneEnabledServerList]
  dsimp only
  rw [hnodes]
  dsimp only
  rw [if_pos hdue, List.append_assoc]

/-- A tick at which the head of the list is not due requests no group that is enabled. -/
theorem tick_of_not_due {nowMS : ℕ}
    (hdue : ∀ g l, s.enabledServerGroupList.nodes () = g :: l →
      ¬(s.enabledServerGroupMap g).lastUpdateTimestampMS ≤
        sub64 nowMS (updateServerListTimeoutMS ndebug)) :
    ∃ last new, s.tick ndebug nowMS = { s with
      localTicker := nowMS
      lastUpdateServerListSlaveListTimestampMS := last
      posts := s.posts ++ new } := by
  obtain ⟨last, new, hslave⟩ :=
    updateServerListSlaveList_eq ndebug { s with localTicker := nowMS }
  refine ⟨last, new, ?_⟩
  rw [tick, hslave, updateOneEnabledServerList]
  dsimp only
  rcases hnodes : s.enabledServerGroupList.nodes () with _ | ⟨g, l⟩
  · rfl
  · dsimp only
    rw [if_neg (hdue g l hnodes)]

/-- A group is enabled that is not, and has no array. -/
theorem enableServerGroup_eq_ok {type : ℕ} (h : s.enableServerGroup type = .ok t) :
    0 < type ∧ type < maxSmallServerListSize ∧ (s.enabledServerGroupMap type).enabled = false ∧
      t = { s with
        enabledServerGroupMap := Function.update s.enabledServerGroupMap type
          { s.enabledServerGroupMap type with
            enabled := true
            serverGroup := type
            serverList := some fun _ => {}
            serverListSize := 0 }
        enabledServerGroupList := s.enabledServerGroupList.grabTail () type } := by
  rw [enableServerGroup] at h
  split at h
  · cases h
  · next htype =>
    by_cases hlt : type < maxSmallServerListSize
    · rw [readAt_of_lt hlt] at h
      dsimp only at h
      split at h
      · cases h
      · next hnode =>
        cases h
        exact ⟨Nat.pos_of_ne_zero htype, hlt, by simpa using fun hen => hnode (.inl hen), rfl⟩
    · rw [readAt, if_neg hlt] at h
      cases h

/-- A group is disabled that is enabled. -/
theorem disableServerGroup_eq_ok {type : ℕ} (h : s.disableServerGroup type = .ok t) :
    (s.enabledServerGroupMap type).enabled ∧ t = { s with
      enabledServerGroupMap := Function.update s.enabledServerGroupMap type
        { s.enabledServerGroupMap type with
          enabled := false
          serverGroup := 0
          lastUpdateTimestampMS := 0
          serverListSize := 0
          serverList := none }
      enabledServerGroupList := s.enabledServerGroupList.unlink type } := by
  rw [disableServerGroup] at h
  by_cases hlt : type < maxSmallServerListSize
  · rw [readAt_of_lt hlt] at h
    dsimp only at h
    split at h
    · next hnode =>
      cases h
      exact ⟨hnode.1, rfl⟩
    · cases h
  · rw [readAt, if_neg hlt] at h
    cases h

variable (C ndebug s) in
/-- The steps of the downloader. -/
inductive Move : DownloaderEvent → SmallServerListDownloader → Prop
  /-- A group is enabled, with an array but without a list. -/
  | enable {g : ℕ} (hpos : 0 < g) (hlt : g < maxSmallServerListSize)
    (hg : (s.enabledServerGroupMap g).enabled = false) :
    Move (.enable g) { s with
      enabledServerGroupMap := Function.update s.enabledServerGroupMap g
        { s.enabledServerGroupMap g with
          enabled := true
          serverGroup := g
          serverList := some fun _ => {}
          serverListSize := 0 }
      enabledServerGroupList := s.enabledServerGroupList.grabTail () g }
  /-- A group is disabled. -/
  | disable {g : ℕ} (hg : (s.enabledServerGroupMap g).enabled) :
    Move (.disable g) { s with
      enabledServerGroupMap := Function.update s.enabledServerGroupMap g
        { s.enabledServerGroupMap g with
          enabled := false
          serverGroup := 0
          lastUpdateTimestampMS := 0
          serverListSize := 0
          serverList := none }
      enabledServerGroupList := s.enabledServerGroupList.unlink g }
  /-- The group at the head of the list is due, and requested. -/
  | request {nowMS g : ℕ} {l : List ℕ} (hnodes : s.enabledServerGroupList.nodes () = g :: l)
    (hdue : (s.enabledServerGroupMap g).lastUpdateTimestampMS ≤
      sub64 nowMS (updateServerListTimeoutMS ndebug)) (last : ℕ) (new : List ServerListPost) :
    Move (.tick nowMS) { s with
      localTicker := nowMS
      lastUpdateServerListSlaveListTimestampMS := last
      enabledServerGroupMap := Function.update s.enabledServerGroupMap g
        { s.enabledServerGroupMap g with lastUpdateTimestampMS := nowMS }
      enabledServerGroupList := s.enabledServerGroupList.grabTail () g
      posts := s.posts ++ (new ++ [⟨s.serverListServerMasterAddress,
        (s.enabledServerGroupMap g).serverGroup, (s.enabledServerGroupMap g).serverGroup⟩]) }
  /-- No group is due. -/
  | idle {nowMS : ℕ} (hdue : ∀ g l, s.enabledServerGroupList.nodes () = g :: l →
      ¬(s.enabledServerGroupMap g).lastUpdateTimestampMS ≤
        sub64 nowMS (updateServerListTimeoutMS ndebug)) (last : ℕ) (new : List ServerListPost) :
    Move (.tick nowMS) { s with
      localTicker := nowMS
      lastUpdateServerListSlaveListTimestampMS := last
      posts := s.posts ++ new }
  /-- A datagram is ignored. -/
  | ignore (d : ServerListDatagram) (a : ℕ → ServerInfo) :
    Move (.datagram d) { s with tempSmallServerListForResponse := a }
  /-- The list of a group is replaced. -/
  | accept {d : ServerListDatagram} {v : UInt64} {l : List ServerInfo} (h : Accepts C s d v l)
    (a : ℕ → ServerInfo) {b : ℕ → ServerInfo} (hb : firsts b l.length = l) :
    Move (.datagram d) { s with
      tempSmallServerListForResponse := a
      enabledServerGroupMap := Function.update s.enabledServerGroupMap d.requestId
        { s.enabledServerGroupMap d.requestId with
          serverList := some b
          serverListSize := l.length
          versionTimestampMS := v }
      updates := s.updates ++ [⟨d.requestId, l, v⟩] }

theorem Consistent.move {e : DownloaderEvent} (hs : Consistent s) (h : s.step C ndebug e = .ok t) :
    Move C ndebug s e t := by
  rcases e with g | g | nowMS | d
  · obtain ⟨hpos, hlt, hg, rfl⟩ := enableServerGroup_eq_ok h
    exact .enable hpos hlt hg
  · obtain ⟨hg, rfl⟩ := disableServerGroup_eq_ok h
    exact .disable hg
  · cases h
    by_cases hdue : ∀ g l, s.enabledServerGroupList.nodes () = g :: l →
        ¬(s.enabledServerGroupMap g).lastUpdateTimestampMS ≤
          sub64 nowMS (updateServerListTimeoutMS ndebug)
    · obtain ⟨last, new, ht⟩ := tick_of_not_due hdue
      exact ht ▸ .idle hdue last new
    · push Not at hdue
      obtain ⟨g, l, hnodes, hdue⟩ := hdue
      obtain ⟨last, new, ht⟩ := tick_of_due hnodes hdue
      exact ht ▸ .request hnodes hdue last new
  · by_cases hd : Overflows C d
    · rw [step, onUdpPacket_of_overflows hd] at h
      cases h
    · by_cases ha : ∀ v l, ¬Accepts C s d v l
      · obtain ⟨a, ha⟩ := onUdpPacket_of_ignored ha hd
        rw [step, ha] at h
        cases h
        exact .ignore d a
      · push Not at ha
        obtain ⟨v, l, ha⟩ := ha
        obtain ⟨a, b, hb, hok⟩ := onUdpPacket_of_accepts hs ha
        rw [step, hok] at h
        cases h
        exact .accept ha a hb

/-- What changes neither the place of a group nor whether it is enabled keeps it consistent. -/
theorem GroupConsistent.frame {g : ℕ} (h : GroupConsistent s g)
    (hmem : g ∈ t.enabledServerGroupList.nodes () ↔ g ∈ s.enabledServerGroupList.nodes ())
    (henabled : (t.enabledServerGroupMap g).enabled = (s.enabledServerGroupMap g).enabled)
    (hgroup : (t.enabledServerGroupMap g).serverGroup = (s.enabledServerGroupMap g).serverGroup)
    (hready : (s.enabledServerGroupMap g).serverList.isSome →
      (t.enabledServerGroupMap g).serverList.isSome) : GroupConsistent t g where
  linked := by rw [hmem, henabled, h.linked]
  ready hen := by
    obtain ⟨a, ha⟩ := h.ready (henabled ▸ hen)
    exact Option.isSome_iff_exists.1 (hready (by rw [ha]; rfl))
  group hen := by
    rw [hgroup]
    exact h.group (henabled ▸ hen)

theorem Consistent.step {e : DownloaderEvent} (hs : Consistent s) (h : s.step C ndebug e = .ok t) :
    Consistent t := by
  intro k
  rcases hs.move h with @⟨g, hpos, hlt, -⟩ | @⟨g, -⟩ | @⟨nowMS, g, l, hnodes, -, last, new⟩ |
    ⟨-, last, new⟩ | ⟨d, a⟩ | @⟨d, v, l, ha, a, b, -⟩
  · by_cases hk : k = g
    · subst hk
      exact ⟨by simp [Linked.mem_grabTail], by simp, by simp [hpos, hlt]⟩
    · refine (hs k).frame (Linked.mem_grabTail.trans (by rw [if_neg hk])) ?_ ?_ ?_ <;>
        simp [Function.update_of_ne hk]
  · by_cases hk : k = g
    · subst hk
      exact ⟨by simp, by simp, by simp⟩
    · refine (hs k).frame (Linked.mem_unlink.trans (and_iff_right hk)) ?_ ?_ ?_ <;>
        simp [Function.update_of_ne hk]
  · by_cases hk : k = g
    · subst hk
      refine (hs k).frame (Linked.mem_grabTail.trans ?_) ?_ ?_ ?_ <;> simp [hnodes]
    · refine (hs k).frame (Linked.mem_grabTail.trans (by rw [if_neg hk])) ?_ ?_ ?_ <;>
        simp [Function.update_of_ne hk]
  · exact (hs k).frame Iff.rfl rfl rfl id
  · exact (hs k).frame Iff.rfl rfl rfl id
  · by_cases hk : k = d.requestId
    · subst hk
      refine (hs d.requestId).frame Iff.rfl ?_ ?_ ?_ <;> simp
    · refine (hs k).frame Iff.rfl ?_ ?_ ?_ <;> simp [Function.update_of_ne hk]

theorem consistent_init (master : NetAddress) : Consistent (init master) := fun g =>
  ⟨by simp [init, Linked.empty], fun hen => (by cases hen), fun hen => (by cases hen)⟩

theorem consistent_of_exec {master : NetAddress} {es : List DownloaderEvent}
    (h : exec (step C ndebug) (init master) es = .ok s) :
    Consistent s := by
  exact exec_invariant (I := Consistent) (fun s e t hs ht => hs.step ht) (consistent_init master) h

/-! ## Datagrams -/

/-- The list of the group `g`, its size and its version are the same. -/
def SameList (s t : SmallServerListDownloader) (g : ℕ) : Prop :=
  (t.enabledServerGroupMap g).serverList = (s.enabledServerGroupMap g).serverList ∧
    (t.enabledServerGroupMap g).serverListSize = (s.enabledServerGroupMap g).serverListSize ∧
    (t.enabledServerGroupMap g).versionTimestampMS = (s.enabledServerGroupMap g).versionTimestampMS

/-- The list of the group `g`, which is enabled, is replaced by `l`, its version by `v`, and this is
    announced once; the other groups keep theirs. -/
structure Replaces (s t : SmallServerListDownloader) (g : ℕ) (v : UInt64) (l : List ServerInfo) :
    Prop where
  enabled : (s.enabledServerGroupMap g).enabled
  held : (t.enabledServerGroupMap g).held = l
  serverListSize : (t.enabledServerGroupMap g).serverListSize = l.length
  versionTimestampMS : (t.enabledServerGroupMap g).versionTimestampMS = v
  others : ∀ k ≠ g, SameList s t k
  updates : t.updates = s.updates ++ [⟨g, l, v⟩]

/-- The datagram `d` is handled with no access out of range, and at once or not at all. -/
def HandlesAtomically (C : StreamCodec) (s : SmallServerListDownloader) (d : ServerListDatagram) : Prop :=
  ∃ t, s.onUdpPacket C d = .ok t ∧
    ((∀ g, SameList s t g) ∧ t.updates = s.updates ∨
      ∃ v l, PPGetSmallServerListResp.decode C d.payload d.beyond = some (v, l) ∧
        Replaces s t d.requestId v l)

/-- In every reachable state, a datagram is handled in range and at once or not at all, if and only
    if it is not a well formed response with the request id 128. -/
theorem handlesAtomically_iff {master : NetAddress} {es : List DownloaderEvent}
    (h : exec (step C ndebug) (init master) es = .ok s)
    (d : ServerListDatagram) : HandlesAtomically C s d ↔ ¬Overflows C d := by
  have hs := consistent_of_exec h
  constructor
  · rintro ⟨t, ht, -⟩ hd
    rw [onUdpPacket_of_overflows hd] at ht
    cases ht
  · intro hd
    by_cases ha : ∀ v l, ¬Accepts C s d v l
    · obtain ⟨a, ha⟩ := onUdpPacket_of_ignored ha hd
      exact ⟨_, ha, .inl ⟨fun g => ⟨rfl, rfl, rfl⟩, rfl⟩⟩
    · push Not at ha
      obtain ⟨v, l, ha⟩ := ha
      obtain ⟨a, b, hb, ht⟩ := onUdpPacket_of_accepts hs ha
      refine ⟨_, ht, .inr ⟨v, l, ha.decode, ha.enabled, ?_, ?_, ?_, fun k hk => ?_, rfl⟩⟩
      · simp [EnabledServerGroupNode.held, hb]
      · simp
      · simp
      · simp [SameList, Function.update_of_ne hk]

/-- The response of the version 7 with an empty list, for the request `requestId`. -/
def emptyResponse (requestId : ℕ) : ServerListDatagram where
  commandId := cmdDownloadSmallServerListResp
  requestId := requestId
  payload := PPGetSmallServerListResp.serialize plainCodec 7 []

theorem handlesAtomically_iff_emptyResponse :
    ∃ s, exec (step plainCodec true) (init {}) [.enable 5] = .ok s ∧
      (HandlesAtomically plainCodec s (emptyResponse 5) ↔
        ¬Overflows plainCodec (emptyResponse 5)) := by
  obtain ⟨s, hs, -⟩ := exists_ok_of_check
    (x := exec (step plainCodec true) (init {}) [.enable 5])
    (p := fun _ => true) (by decide +kernel)
  exact ⟨s, hs, handlesAtomically_iff hs _⟩

/-- The map of the groups is indexed beyond its end. -/
theorem handlesAtomically_counterexample :
    ¬HandlesAtomically plainCodec (init {}) (emptyResponse 128) := by
  rintro ⟨t, ht, -⟩
  have hfault : (match onUdpPacket plainCodec (init {})
      (emptyResponse 128) with | .ok _ => false | .error _ => true) = true := by decide +kernel
  rw [ht] at hfault
  cases hfault

end SmallServerListDownloader

end ProxyPlatform
