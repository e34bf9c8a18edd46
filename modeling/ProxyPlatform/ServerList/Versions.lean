import ProxyPlatform.ServerList.Server

/-!
# A version identifies a server list

What the server answers is a matter of whole runs: the response may have been built long
before, and is then sent again. That it is up to date is an invariant (`Mirrors`); that its
version tells it from all others is a relation between the list at two points of a run
(`Onward`), which each step establishes and which composes.

* `versionsIdentify_of_along`: responses list the servers that are registered, and their
  versions go up with every change, as long as no version is the greatest there is.

A registration that the server has no slot for changes nothing, and not the version.
-/

namespace ProxyPlatform

/-- The server, and the servers registered in each group, by their object ids. -/
structure ServerListRun where
  server : SmallServerListServer
  registered : UInt8 → ℕ → Option ServerInfo

namespace ServerListRun

variable (C : StreamCodec) (extractServerId : ℕ → UInt8 × ℕ) (readServerGroup : Bytes → Option UInt8)

/-- A call of the id service registers a server, or takes it out. -/
def register (R : UInt8 → ℕ → Option ServerInfo) : ServerListEvent → UInt8 → ℕ → Option ServerInfo
  | .newServerId serverId exportAddress =>
    let (type, objectId) := extractServerId serverId
    Function.update R type (Function.update (R type) objectId (some ⟨serverId, exportAddress⟩))
  | .removeServerId serverId =>
    let (type, objectId) := extractServerId serverId
    if (R type objectId).map ServerInfo.serverId = some serverId then
      Function.update R type (Function.update (R type) objectId none)
    else R
  | .downloadList .. => R

/-- The run when the server starts. -/
def init : ServerListRun where
  server := SmallServerListServer.init
  registered _ _ := none

/-- One event. -/
def step (r : ServerListRun) (e : ServerListEvent) : Except Fault ServerListRun :=
  match SmallServerListServer.step C extractServerId readServerGroup r.server e with
  | .error x => .error x
  | .ok server => .ok ⟨server, register extractServerId r.registered e⟩

/-- The servers a response is to list: those registered in the group with a slot, in their order. -/
def registeredServers (r : ServerListRun) (g : UInt8) : List ServerInfo :=
  (List.range maxSmallServerListSize).filterMap fun i => r.registered g (i + 1)

/-- The id service calls for groups that are enabled, and never has two live ids with the same object
    id in a group. -/
def OneLive (r : ServerListRun) : ServerListEvent → Prop
  | .newServerId serverId _ =>
    r.registered (extractServerId serverId).1 (extractServerId serverId).2 = none
  | .removeServerId serverId =>
    ∀ server, r.registered (extractServerId serverId).1 (extractServerId serverId).2 = some server →
      server.serverId = serverId
  | .downloadList .. => True

/-- No response is built anew for a list with the greatest version there is. -/
def Unwrapped (r : ServerListRun) : ServerListEvent → Prop
  | .downloadList _ _ payload _ => ∀ g list, readServerGroup payload = some g →
    r.server.serverListMap g = some list → list.dirty → list.versionTimestampMS ≠ 0xFFFFFFFFFFFFFFFF
  | _ => True

/-- The server id that an event registers or removes. -/
def serverIdOf : ServerListEvent → Option ℕ
  | .newServerId serverId _ | .removeServerId serverId => some serverId
  | .downloadList .. => none

/-- A registration or a removal in the group `g`. -/
def Concerns (g : UInt8) (e : ServerListEvent) : Prop :=
  ∃ serverId, serverIdOf e = some serverId ∧ (extractServerId serverId).1 = g

/-- A registration or a removal in the group `g`, of a server that has a slot. -/
def Changes (g : UInt8) (e : ServerListEvent) : Prop :=
  ∃ serverId, serverIdOf e = some serverId ∧ (extractServerId serverId).1 = g ∧
    (extractServerId serverId).2 - 1 < maxSmallServerListSize

/-- After the events `pre`, the request `requestId` for the list of the group `g` is answered by the
    packet `p`, of the version `v`. -/
def RespondsAt (pre : List ServerListEvent) (e : ServerListEvent) (g : UInt8) (requestId : ℕ)
    (p : ServerListPacket) (v : UInt64) : Prop :=
  ∃ r t list payload timestampMS, exec (step C extractServerId readServerGroup) init pre = .ok r ∧
    e = .downloadList cmdDownloadSmallServerList requestId payload timestampMS ∧
    readServerGroup payload = some g ∧ step C extractServerId readServerGroup r e = .ok t ∧
    t.server.sent = r.server.sent ++ [p] ∧ t.server.serverListMap g = some list ∧
    v = list.versionTimestampMS

/-- What is claimed of the events `es`, where `changes` are the events that are to change the
    version. -/
structure VersionsIdentify (changes : UInt8 → ServerListEvent → Prop) (es : List ServerListEvent) :
    Prop where
  encodes : ∀ pre e g requestId p v r, pre ++ [e] <+: es →
    RespondsAt C extractServerId readServerGroup pre e g requestId p v →
      exec (step C extractServerId readServerGroup) init pre = .ok r →
        p = ⟨cmdDownloadSmallServerListResp, requestId,
          PPGetSmallServerListResp.serialize C v (registeredServers r g)⟩
  versions : ∀ pre e mid f g id₁ id₂ p₁ p₂ v₁ v₂, pre ++ e :: mid ++ [f] <+: es →
    RespondsAt C extractServerId readServerGroup pre e g id₁ p₁ v₁ →
      RespondsAt C extractServerId readServerGroup (pre ++ e :: mid) f g id₂ p₂ v₂ →
        v₁ ≤ v₂ ∧ (v₁ = v₂ → p₁ = { p₂ with requestId := p₁.requestId }) ∧
          ((∃ e ∈ mid, changes g e) → v₁ < v₂)

variable {C extractServerId readServerGroup} {r t : ServerListRun} {e : ServerListEvent} {g : UInt8}
  {R S : ℕ → Option ServerInfo} {L M N : BufferedSmallList}

/-! ## One group -/

variable (C extractServerId readServerGroup e g R L) in
/-- What a step does to the group `g`, whose registered servers are `R` and whose list is `L`. -/
inductive GroupMove : (ℕ → Option ServerInfo) → BufferedSmallList → Prop
  /-- The group is not concerned. -/
  | keep (h : ¬Changes extractServerId g e) : GroupMove R L
  /-- A server is registered or removed that has no slot. -/
  | unslotted (h : ¬Changes extractServerId g e) {objectId : ℕ} (server : Option ServerInfo)
    (hlt : maxSmallServerListSize ≤ objectId - 1) (hid : ∀ x ∈ server, x.serverId ≠ 0) :
    GroupMove (Function.update R objectId server) L
  /-- A slot is filled or cleared. -/
  | set {objectId : ℕ} (hpos : objectId ≠ 0) (server : Option ServerInfo)
    (hid : ∀ x ∈ server, x.serverId ≠ 0) :
    GroupMove (Function.update R objectId server) { L with
      list := Function.update L.list (objectId - 1) (server.getD {})
      dirty := true }
  /-- The list is sent. -/
  | build (h : ¬Changes extractServerId g e) {requestId : ℕ} {payload : Bytes} {timestampMS : UInt64}
    (he : e = .downloadList cmdDownloadSmallServerList requestId payload timestampMS)
    (hg : readServerGroup payload = some g) :
    GroupMove R (L.buildServerListResponse C requestId timestampMS)

theorem changes_iff {serverId : ℕ} (he : serverIdOf e = some serverId) :
    Changes extractServerId g e ↔ (extractServerId serverId).1 = g ∧
      (extractServerId serverId).2 - 1 < maxSmallServerListSize := by
  simp only [Changes, he, Option.some.injEq]
  constructor
  · rintro ⟨_, rfl, h⟩
    exact h
  · exact fun h => ⟨serverId, rfl, h⟩

/-- What a removal does to the registered servers, when it removes the one that is registered. -/
theorem register_removeServerId {R : UInt8 → ℕ → Option ServerInfo} {serverId : ℕ}
    (h : ∀ server, R (extractServerId serverId).1 (extractServerId serverId).2 = some server →
      server.serverId = serverId) :
    register extractServerId R (.removeServerId serverId) =
      Function.update R (extractServerId serverId).1
        (Function.update (R (extractServerId serverId).1) (extractServerId serverId).2 none) := by
  simp only [register]
  rcases hR : R (extractServerId serverId).1 (extractServerId serverId).2 with _ | server
  · rw [if_neg (by simp), ← hR, Function.update_eq_self, Function.update_eq_self]
  · rw [if_pos (by rw [Option.map_some, h server hR])]

/-- A call of the id service, which sets an entry to `v`, as a move. -/
theorem groupMove_of_call {serverId : ℕ} {v : Option ServerInfo} {u : SmallServerListServer}
    (he : serverIdOf e = some serverId) (hid : ∀ x ∈ v, x.serverId ≠ 0)
    (hzero : (extractServerId serverId).2 ≠ 0)
    {list : BufferedSmallList} (hlist : r.server.serverListMap (extractServerId serverId).1 = some list)
    (hserver : maxSmallServerListSize ≤ (extractServerId serverId).2 - 1 ∧ u = r.server ∨
      (extractServerId serverId).2 - 1 < maxSmallServerListSize ∧
        u = r.server.setList (extractServerId serverId).1 { list with
          list := Function.update list.list ((extractServerId serverId).2 - 1) (v.getD {})
          dirty := true })
    (hg : r.server.serverListMap g = some L) :
    ∃ M, u.serverListMap g = some M ∧ GroupMove C extractServerId readServerGroup e g (r.registered g) L
      (Function.update r.registered (extractServerId serverId).1
        (Function.update (r.registered (extractServerId serverId).1) (extractServerId serverId).2 v) g)
        M := by
  by_cases hgroup : (extractServerId serverId).1 = g
  · subst hgroup
    rw [Function.update_self]
    rw [hlist, Option.some.injEq] at hg
    subst hg
    rcases hserver with ⟨hle, rfl⟩ | ⟨hlt, rfl⟩
    · refine ⟨list, hlist, .unslotted ?_ v hle hid⟩
      rw [changes_iff he]
      exact fun h => absurd h.2 hle.not_gt
    · refine ⟨_, ?_, .set hzero v hid⟩
      rw [SmallServerListServer.setList]
      exact Function.update_self ..
  · have hkeep : ¬Changes extractServerId g e := by
      rw [changes_iff he]
      exact fun h => hgroup h.1
    rw [Function.update_of_ne (Ne.symm hgroup)]
    refine ⟨L, ?_, .keep hkeep⟩
    rcases hserver with ⟨-, rfl⟩ | ⟨-, rfl⟩
    · exact hg
    · rw [SmallServerListServer.setList]
      exact (Function.update_of_ne (Ne.symm hgroup) ..).trans hg

theorem step_eq_ok (h : step C extractServerId readServerGroup r e = .ok t) :
    ∃ u, SmallServerListServer.step C extractServerId readServerGroup r.server e = .ok u ∧
      t = ⟨u, register extractServerId r.registered e⟩ := by
  rw [step] at h
  split at h
  · cases h
  · next u hu =>
    cases h
    exact ⟨u, hu, rfl⟩

/-- A step is one of the moves, for every group. -/
theorem groupMove_of_step (hextract : (extractServerId 0).2 = 0) (hone : OneLive extractServerId r e)
    (h : step C extractServerId readServerGroup r e = .ok t)
    (hg : r.server.serverListMap g = some L) :
    ∃ M, t.server.serverListMap g = some M ∧
      GroupMove C extractServerId readServerGroup e g (r.registered g) L (t.registered g) M := by
  obtain ⟨u, hu, rfl⟩ := step_eq_ok h
  rcases e with ⟨serverId, exportAddress⟩ | serverId | ⟨commandId, requestId, payload, timestampMS⟩
  · obtain ⟨list, hlist, hzero, hserver⟩ := SmallServerListServer.onNewServerId_eq_ok hu
    refine groupMove_of_call (v := some ⟨serverId, exportAddress⟩) rfl ?_ hzero hlist hserver hg
    rintro x ⟨⟩ rfl
    exact hzero hextract
  · obtain ⟨list, hlist, hzero, hserver⟩ := SmallServerListServer.onRemoveServerId_eq_ok hu
    dsimp only
    rw [register_removeServerId hone]
    exact groupMove_of_call (v := none) rfl (fun _ hx => (by cases hx)) hzero hlist hserver hg
  · cases hu
    have hkeep : ¬Changes extractServerId g (.downloadList commandId requestId payload timestampMS) :=
      fun ⟨_, he, _⟩ => (by cases he)
    rcases SmallServerListServer.onDownloadList_cases C readServerGroup r.server commandId requestId
      payload timestampMS with ⟨k, list, rfl, hk, hlist, hu⟩ | hu
    · rw [hu]
      by_cases hkg : k = g
      · subst hkg
        rw [hlist, Option.some.injEq] at hg
        subst hg
        exact ⟨_, Function.update_self .., .build hkeep rfl hk⟩
      · exact ⟨L, (Function.update_of_ne (Ne.symm hkg) ..).trans hg, .keep hkeep⟩
    · rw [hu]
      exact ⟨L, hg, .keep hkeep⟩

/-! ## The response is up to date -/

variable (C R L) in
/-- The slots of the list are those of the registered servers, which the response lists unless the
    list is dirty. -/
structure Mirrors : Prop where
  slots : ∀ i < maxSmallServerListSize, L.list i = (R (i + 1)).getD {}
  nonzero : ∀ i server, R i = some server → server.serverId ≠ 0
  fresh : L.dirty = false → L.resp.commandId = cmdDownloadSmallServerListResp ∧
    L.resp.payload = PPGetSmallServerListResp.serialize C L.versionTimestampMS L.servers

/-- An entry is set that is no server with the id 0. -/
theorem nonzero_update {objectId : ℕ} {v : Option ServerInfo} (hid : ∀ x ∈ v, x.serverId ≠ 0)
    (h : ∀ i server, R i = some server → server.serverId ≠ 0) (i : ℕ) (server : ServerInfo)
    (hi : Function.update R objectId v i = some server) : server.serverId ≠ 0 := by
  by_cases hio : i = objectId
  · rw [hio, Function.update_self] at hi
    exact hid server hi
  · rw [Function.update_of_ne hio] at hi
    exact h i server hi

/-- A list that is built has a response that is up to date. -/
theorem Mirrors.build (h : Mirrors C R L) (requestId : ℕ) (timestampMS : UInt64) :
    Mirrors C R (L.buildServerListResponse C requestId timestampMS) where
  slots := by
    rw [BufferedSmallList.buildServerListResponse_list]
    exact h.slots
  nonzero := h.nonzero
  fresh _ := by
    rw [BufferedSmallList.servers_buildServerListResponse]
    by_cases hd : L.dirty
    · rw [BufferedSmallList.resp_buildServerListResponse _ _ hd]
      exact ⟨rfl, rfl⟩
    · rw [Bool.not_eq_true] at hd
      rw [BufferedSmallList.buildServerListResponse_of_not_dirty _ _ hd]
      exact h.fresh hd

theorem Mirrors.move (h : Mirrors C R L)
    (hmove : GroupMove C extractServerId readServerGroup e g R L S M) : Mirrors C S M := by
  rcases hmove with _ | ⟨-, v, hle, hid⟩ | @⟨objectId, hpos, v, hid⟩ |
    @⟨-, requestId, payload, timestampMS, -, -⟩
  · exact h
  · refine ⟨fun i hi => ?_, nonzero_update hid h.nonzero, h.fresh⟩
    rw [Function.update_of_ne (by omega)]
    exact h.slots i hi
  · refine ⟨fun i hi => ?_, nonzero_update hid h.nonzero, fun hd => (by cases hd)⟩
    dsimp only
    by_cases hio : i + 1 = objectId
    · subst hio
      simp
    · rw [Function.update_of_ne (by omega), Function.update_of_ne hio]
      exact h.slots i hi
  · exact h.build requestId timestampMS

/-- The servers in the slots are those registered. -/
theorem Mirrors.servers (h : Mirrors C (r.registered g) L) : L.servers = registeredServers r g := by
  rw [BufferedSmallList.servers, registeredServers, firsts, ← List.filterMap_eq_filter,
    List.filterMap_map]
  refine List.filterMap_congr fun i hi => ?_
  rw [Function.comp_apply, h.slots i (List.mem_range.1 hi)]
  rcases hR : r.registered g (i + 1) with _ | server
  · simp
  · simpa using h.nonzero _ server hR

theorem eq_empty_of_foldl {types : List UInt8} {s : SmallServerListServer}
    (hs : ∀ L, s.serverListMap g = some L → L = {})
    (h : (types.foldl SmallServerListServer.enableServerGroup s).serverListMap g = some L) :
    L = {} := by
  induction types generalizing s with
  | nil => exact hs L h
  | cons type types ih =>
    refine ih (fun L hL => ?_) h
    rw [SmallServerListServer.enableServerGroup] at hL
    dsimp only at hL
    by_cases htype : g = type
    · rw [htype, Function.update_self] at hL
      cases hL
      rfl
    · rw [Function.update_of_ne htype] at hL
      exact hs L hL

/-- The lists are empty when the server starts. -/
theorem mirrors_init (h : init.server.serverListMap g = some L) :
    Mirrors C (init.registered g) L := by
  obtain rfl : L = {} := eq_empty_of_foldl (fun L hL => (by cases hL)) h
  exact ⟨fun i _ => rfl, fun i server hi => (by cases hi), fun hd => (by cases hd)⟩

theorem mirrors_of_exec {es : List ServerListEvent} (hextract : (extractServerId 0).2 = 0)
    (hone : Along (step C extractServerId readServerGroup) (OneLive extractServerId) init es)
    (h : exec (step C extractServerId readServerGroup) init es = .ok r) :
    ∀ g L, r.server.serverListMap g = some L → Mirrors C (r.registered g) L := by
  refine exec_invariant_along (C := OneLive extractServerId)
    (I := fun r => ∀ g L, r.server.serverListMap g = some L → Mirrors C (r.registered g) L)
    (fun r e t hr hone ht g M hM => ?_) (fun g L hL => mirrors_init hL) hone h
  obtain ⟨u, hu, rfl⟩ := step_eq_ok ht
  obtain ⟨L, hL⟩ := Option.isSome_iff_exists.1
    (SmallServerListServer.isSome_of_step hu (Option.isSome_iff_exists.2 ⟨M, hM⟩))
  obtain ⟨M', hM', hmove⟩ := groupMove_of_step hextract hone ht hL
  obtain rfl : M' = M := Option.some.inj (hM'.symm.trans hM)
  exact (hr g L hL).move hmove

/-! ## Versions only go up -/

variable (L M) in
/-- The list `M` is a later state of the list `L`, after a change if there was one. -/
structure Onward (changed : Prop) : Prop where
  le : L.versionTimestampMS ≤ M.versionTimestampMS
  resp : M.versionTimestampMS = L.versionTimestampMS →
    M.resp.commandId = L.resp.commandId ∧ M.resp.payload = L.resp.payload
  due : changed ∨ L.dirty → M.dirty ∨ L.versionTimestampMS < M.versionTimestampMS

theorem Onward.refl (L : BufferedSmallList) : Onward L L False where
  le := UInt64.le_refl _
  resp _ := ⟨rfl, rfl⟩
  due h := .inl (h.resolve_left id)

theorem Onward.mono {c d : Prop} (h : Onward L M c) (hdc : d → c) : Onward L M d :=
  ⟨h.le, h.resp, fun hd => h.due (hd.imp_left hdc)⟩

theorem Onward.trans {c d : Prop} (h : Onward L M c) (h' : Onward M N d) : Onward L N (c ∨ d) where
  le := UInt64.le_trans h.le h'.le
  resp heq := by
    have hML : M.versionTimestampMS = L.versionTimestampMS :=
      UInt64.le_antisymm (heq ▸ h'.le) h.le
    obtain ⟨hc, hp⟩ := h.resp hML
    obtain ⟨hc', hp'⟩ := h'.resp (heq.trans hML.symm)
    exact ⟨hc'.trans hc, hp'.trans hp⟩
  due hdue := by
    have hM : d ∨ M.dirty ∨ L.versionTimestampMS < M.versionTimestampMS := by
      rcases hdue with (hc | hd) | hL
      · exact .inr (h.due (.inl hc))
      · exact .inl hd
      · exact .inr (h.due (.inr hL))
    rcases hM with hd | hM | hlt
    · exact (h'.due (.inl hd)).imp_right (UInt64.lt_of_le_of_lt h.le)
    · exact (h'.due (.inr hM)).imp_right (UInt64.lt_of_le_of_lt h.le)
    · exact .inr (UInt64.lt_of_lt_of_le hlt h'.le)

/-- A list is built, with a new version if it is dirty. -/
theorem onward_build (requestId : ℕ) (timestampMS : UInt64)
    (hmax : L.dirty → L.versionTimestampMS ≠ 0xFFFFFFFFFFFFFFFF) :
    Onward L (L.buildServerListResponse C requestId timestampMS) False := by
  by_cases hd : L.dirty
  · have hlt := BufferedSmallList.lt_buildServerListResponse (C := C) requestId timestampMS hd (hmax hd)
    exact ⟨UInt64.le_of_lt hlt, fun heq => absurd heq (UInt64.ne_of_lt hlt).symm, fun _ => .inr hlt⟩
  · rw [Bool.not_eq_true] at hd
    rw [BufferedSmallList.buildServerListResponse_of_not_dirty _ _ hd]
    exact ⟨UInt64.le_refl _, fun _ => ⟨rfl, rfl⟩, fun h => absurd (h.resolve_left id) (by simp [hd])⟩

theorem GroupMove.onward (h : GroupMove C extractServerId readServerGroup e g R L S M)
    (hunwrapped : Unwrapped readServerGroup r e) (hL : r.server.serverListMap g = some L) :
    Onward L M (Changes extractServerId g e) := by
  rcases h with hkeep | ⟨hkeep, -, -, -⟩ | _ | @⟨hkeep, requestId, payload, timestampMS, rfl, hg⟩
  · exact (Onward.refl L).mono hkeep
  · exact (Onward.refl L).mono hkeep
  · exact ⟨UInt64.le_refl _, fun _ => ⟨rfl, rfl⟩, fun _ => .inl rfl⟩
  · exact (onward_build requestId timestampMS (hunwrapped g L hg hL)).mono hkeep

/-- What happens to a list in a run. -/
theorem onward_of_exec {es : List ServerListEvent} (hextract : (extractServerId 0).2 = 0)
    (hone : Along (step C extractServerId readServerGroup) (OneLive extractServerId) r es)
    (hunwrapped : Along (step C extractServerId readServerGroup) (Unwrapped readServerGroup) r es)
    (hL : r.server.serverListMap g = some L)
    (h : exec (step C extractServerId readServerGroup) r es = .ok t) :
    ∃ M, t.server.serverListMap g = some M ∧ Onward L M (∃ e ∈ es, Changes extractServerId g e) := by
  induction es generalizing r L with
  | nil =>
    cases h
    exact ⟨L, hL, (Onward.refl L).mono (by simp)⟩
  | cons e es ih =>
    obtain ⟨u, hu, hes⟩ := exec_cons_eq_ok.1 h
    obtain ⟨M, hM, hmove⟩ := groupMove_of_step hextract hone.1 hu hL
    obtain ⟨N, hN, honward⟩ := ih (hone.2 u hu) (hunwrapped.2 u hu) hM hes
    refine ⟨N, hN, ((hmove.onward hunwrapped.1 hL).trans honward).mono ?_⟩
    rintro ⟨f, hf, hchange⟩
    rcases List.mem_cons.1 hf with rfl | hf
    · exact .inl hchange
    · exact .inr ⟨f, hf, hchange⟩

/-! ## Responses -/

/-- A response is that of the list, just built or sent again. -/
theorem RespondsAt.build {pre : List ServerListEvent} {requestId : ℕ} {p : ServerListPacket}
    {v : UInt64} (h : RespondsAt C extractServerId readServerGroup pre e g requestId p v)
    (hr : exec (step C extractServerId readServerGroup) init pre = .ok r) :
    ∃ L t timestampMS, r.server.serverListMap g = some L ∧
      step C extractServerId readServerGroup r e = .ok t ∧
      t.server.serverListMap g = some (L.buildServerListResponse C requestId timestampMS) ∧
      p = (L.buildServerListResponse C requestId timestampMS).resp ∧
      v = (L.buildServerListResponse C requestId timestampMS).versionTimestampMS := by
  obtain ⟨r', t, M, payload, timestampMS, hr', rfl, hg, ht, hp, hM, rfl⟩ := h
  obtain rfl : r' = r := Except.ok.inj (hr'.symm.trans hr)
  obtain ⟨u, hu, rfl⟩ := step_eq_ok ht
  cases hu
  rcases SmallServerListServer.onDownloadList_cases C readServerGroup r'.server
    cmdDownloadSmallServerList requestId payload timestampMS with ⟨k, L, -, hk, hL, hu⟩ | hu
  · obtain rfl : g = k := Option.some.inj (hg.symm.trans hk)
    dsimp only at hp hM
    rw [hu] at hp hM
    obtain rfl : M = L.buildServerListResponse C requestId timestampMS :=
      Option.some.inj (hM.symm.trans (Function.update_self ..))
    refine ⟨L, _, timestampMS, hL, ht, ?_, ?_, rfl⟩
    · rw [hu]
      exact Function.update_self ..
    · exact (List.singleton_inj.1 (List.append_cancel_left hp)).symm
  · dsimp only at hp
    rw [hu] at hp
    simp at hp

theorem RespondsAt.exec {pre : List ServerListEvent} {requestId : ℕ} {p : ServerListPacket}
    {v : UInt64} (h : RespondsAt C extractServerId readServerGroup pre e g requestId p v) :
    ∃ r, ProxyPlatform.exec (step C extractServerId readServerGroup) init pre = .ok r := by
  obtain ⟨r, -, -, -, -, hr, -⟩ := h
  exact ⟨r, hr⟩

/-- A response lists the registered servers. -/
theorem RespondsAt.encodes {pre : List ServerListEvent} {requestId : ℕ} {p : ServerListPacket}
    {v : UInt64} (h : RespondsAt C extractServerId readServerGroup pre e g requestId p v)
    (hr : ProxyPlatform.exec (step C extractServerId readServerGroup) init pre = .ok r)
    (hmirrors : ∀ g L, r.server.serverListMap g = some L → Mirrors C (r.registered g) L) :
    p = ⟨cmdDownloadSmallServerListResp, requestId,
      PPGetSmallServerListResp.serialize C v (registeredServers r g)⟩ := by
  obtain ⟨L, -, timestampMS, hL, -, -, rfl, rfl⟩ := h.build hr
  obtain ⟨hcommand, hpayload⟩ := ((hmirrors g L hL).build requestId timestampMS).fresh (by simp)
  rw [BufferedSmallList.servers_buildServerListResponse, (hmirrors g L hL).servers] at hpayload
  rw [ServerListPacket.mk.injEq]
  exact ⟨hcommand, rfl, hpayload⟩

theorem RespondsAt.unwrapped {pre : List ServerListEvent} {requestId : ℕ} {p : ServerListPacket}
    {v : UInt64} (h : RespondsAt C extractServerId readServerGroup pre e g requestId p v)
    (hunwrapped : Unwrapped readServerGroup r e) (hL : r.server.serverListMap g = some L)
    (hd : L.dirty) : L.versionTimestampMS ≠ 0xFFFFFFFFFFFFFFFF := by
  obtain ⟨-, -, -, payload, timestampMS, -, rfl, hg, -⟩ := h
  exact hunwrapped g L hg hL hd

/-- In every run, a version tells the list it is sent with from all others, as long as the id service
    does as it should and no version is the greatest there is. -/
theorem versionsIdentify_of_along {es : List ServerListEvent} (hextract : (extractServerId 0).2 = 0)
    (hone : Along (step C extractServerId readServerGroup) (OneLive extractServerId) init es)
    (hunwrapped : Along (step C extractServerId readServerGroup) (Unwrapped readServerGroup) init es) :
    VersionsIdentify C extractServerId readServerGroup (Changes extractServerId) es where
  encodes pre e g requestId p v r hpre h hr := by
    have hone' := hone.of_prefix ((List.prefix_append pre [e]).trans hpre)
    exact h.encodes hr (mirrors_of_exec hextract hone' hr)
  versions pre e mid f g id₁ id₂ p₁ p₂ v₁ v₂ hpre h₁ h₂ := by
    obtain ⟨r, hr⟩ := h₁.exec
    obtain ⟨u, hu⟩ := h₂.exec
    obtain ⟨L, t, ts₁, -, ht, hL, rfl, rfl⟩ := h₁.build hr
    obtain ⟨M, w, ts₂, hM, -, -, rfl, rfl⟩ := h₂.build hu
    -- Between the responses, the list moves on from the first, which leaves it clean.
    obtain ⟨t', ht', hmid⟩ := exec_cons_eq_ok.1 ((exec_append (e :: mid) hr).symm.trans hu)
    obtain rfl : t' = t := Except.ok.inj (ht'.symm.trans ht)
    have hone' := (hone.of_prefix ((List.prefix_append _ _).trans hpre)).of_append hr
    have hunwrapped' := hunwrapped.of_prefix hpre
    have hunwrapped'' := (hunwrapped'.of_prefix (List.prefix_append _ _)).of_append hr
    obtain ⟨M', hM', honward⟩ :=
      onward_of_exec hextract (hone'.2 _ ht) (hunwrapped''.2 _ ht) hL hmid
    obtain rfl : M' = M := Option.some.inj (hM'.symm.trans hM)
    have hlast : Along (step C extractServerId readServerGroup) (Unwrapped readServerGroup) u [f] :=
      hunwrapped'.of_append hu
    have hall := honward.trans (onward_build (C := C) id₂ ts₂ (h₂.unwrapped hlast.1 hM))
    refine ⟨hall.le, fun heq => ?_, fun hchange => ?_⟩
    · obtain ⟨hcommand, hpayload⟩ := hall.resp heq.symm
      rw [ServerListPacket.mk.injEq]
      exact ⟨hcommand.symm, rfl, hpayload.symm⟩
    · exact (hall.due (.inl (.inl hchange))).resolve_left (by simp)

instance : ∀ (r : ServerListRun) (e : ServerListEvent), Decidable (OneLive extractServerId r e)
  | r, .newServerId serverId _ => inferInstanceAs
    (Decidable (r.registered (extractServerId serverId).1 (extractServerId serverId).2 = none))
  | r, .removeServerId serverId => inferInstanceAs
    (Decidable (∀ server ∈ r.registered (extractServerId serverId).1 (extractServerId serverId).2,
      server.serverId = serverId))
  | _, .downloadList .. => .isTrue trivial

instance : ∀ (r : ServerListRun) (e : ServerListEvent), Decidable (Unwrapped readServerGroup r e)
  | _, .newServerId .. | _, .removeServerId _ => .isTrue trivial
  | r, .downloadList _ _ payload _ => decidable_of_iff
    (((readServerGroup payload).all fun g => (r.server.serverListMap g).all fun list =>
      !list.dirty || decide (list.versionTimestampMS ≠ 0xFFFFFFFFFFFFFFFF)) = true)
    (by simp only [Unwrapped, Option.all_eq_true]; grind)

/-- Server ids as decimal numbers: the group before the last three digits. -/
def decimalServerId (serverId : ℕ) : UInt8 × ℕ := (.ofNat (serverId / 1000), serverId % 1000)

/-- A request for the list of the group 2. -/
def requestAt (requestId : ℕ) (timestampMS : UInt64) : ServerListEvent :=
  .downloadList cmdDownloadSmallServerList requestId [2] timestampMS

theorem versionsIdentify_of_along_clockBack :
    VersionsIdentify plainCodec decimalServerId List.head? (Changes decimalServerId)
      [.newServerId 2003 {}, requestAt 1 50, .removeServerId 2003, requestAt 2 10] :=
  versionsIdentify_of_along (by decide) (along_of_check (by decide +kernel))
    (along_of_check (by decide +kernel))

/-- The version of the answer to such a request after the events `pre`. -/
def versionAt (pre : List ServerListEvent) (requestId : ℕ) (timestampMS : UInt64) : Option UInt64 :=
  match ProxyPlatform.exec (step plainCodec decimalServerId List.head?) init pre with
  | .error _ => none
  | .ok r => (r.server.serverListMap 2).map fun L =>
    (L.buildServerListResponse plainCodec requestId timestampMS).versionTimestampMS

/-- The request is answered. -/
theorem respondsAt_of_versionAt {pre : List ServerListEvent} {requestId : ℕ} {timestampMS v : UInt64}
    (h : versionAt pre requestId timestampMS = some v) :
    ∃ p, RespondsAt plainCodec decimalServerId List.head? pre (requestAt requestId timestampMS) 2
      requestId p v := by
  rw [versionAt] at h
  split at h
  · cases h
  next r hr =>
  obtain ⟨L, hL, rfl⟩ := Option.map_eq_some_iff.1 h
  have hanswer : r.server.onDownloadList plainCodec List.head? cmdDownloadSmallServerList requestId [2]
      timestampMS = { r.server.setList 2 (L.buildServerListResponse plainCodec requestId timestampMS) with
        sent := r.server.sent ++
          [(L.buildServerListResponse plainCodec requestId timestampMS).resp] } := by
    simp [SmallServerListServer.onDownloadList, hL]
  refine ⟨(L.buildServerListResponse plainCodec requestId timestampMS).resp, r, _, _, [2], timestampMS,
    hr, rfl, rfl, rfl, ?_, ?_, rfl⟩
  · dsimp only
    rw [hanswer]
  · dsimp only
    rw [hanswer]
    simp [SmallServerListServer.setList]

/-- A server with no slot is registered between two responses of the same version; and a list changes
    after a response of the greatest version there is. -/
theorem versionsIdentify_counterexample :
    ¬VersionsIdentify plainCodec decimalServerId List.head? (Concerns decimalServerId)
      [requestAt 1 50, .newServerId 2129 {}, requestAt 2 60] ∧
    ¬VersionsIdentify plainCodec decimalServerId List.head? (Changes decimalServerId)
      [requestAt 1 0xFFFFFFFFFFFFFFFF, .newServerId 2003 {}, requestAt 2 60] := by
  constructor
  · intro h
    obtain ⟨p₁, h₁⟩ := respondsAt_of_versionAt (by decide +kernel : versionAt [] 1 50 = some 50)
    obtain ⟨p₂, h₂⟩ := respondsAt_of_versionAt
      (by decide +kernel : versionAt [requestAt 1 50, .newServerId 2129 {}] 2 60 = some 50)
    have hlt := (h.versions [] _ [.newServerId 2129 {}] _ 2 1 2 p₁ p₂ 50 50 List.prefix_rfl h₁ h₂).2.2
      ⟨.newServerId 2129 {}, List.mem_singleton_self _, 2129, rfl, rfl⟩
    exact absurd hlt (by decide)
  · intro h
    obtain ⟨p₁, h₁⟩ := respondsAt_of_versionAt
      (by decide +kernel : versionAt [] 1 0xFFFFFFFFFFFFFFFF = some 0xFFFFFFFFFFFFFFFF)
    obtain ⟨p₂, h₂⟩ := respondsAt_of_versionAt (by decide +kernel :
      versionAt [requestAt 1 0xFFFFFFFFFFFFFFFF, .newServerId 2003 {}] 2 60 = some 0)
    have hle := (h.versions [] _ [.newServerId 2003 {}] _ 2 1 2 p₁ p₂ _ _ List.prefix_rfl h₁ h₂).1
    exact absurd hle (by decide)

end ServerListRun

end ProxyPlatform
