import ProxyPlatform.ServerList.Network
import ProxyPlatform.ServerList.Rollback

/-!
# What the lists of the downloaders are

What a downloader is told of a group is what the server had for it at one moment. The moment may be
long ago, as a response may be late, or sent again; but it is that of the version, so that
downloaders with the same version have the same list, and of two versions the greater stands for
the later moment.

* `Shows`: the server has a response, of a version and with a list, that is up to date; what is
  shown later has a greater version, or the same list (`shows_onward`);
* `Issued`: every response, announcement and list in the network was shown at a moment of the run;
* `version_moment`: a version stands for a moment of the run.
-/

namespace ProxyPlatform

/-- The response of the group `g` is up to date: it is of the version `v`, and lists `l`. -/
def ServerListRun.Shows (r : ServerListRun) (g : UInt8) (v : UInt64) (l : List ServerInfo) : Prop :=
  ∃ list, r.server.serverListMap g = some list ∧ list.dirty = false ∧
    list.versionTimestampMS = v ∧ r.registeredServers g = l

/-! ## The downloader -/

namespace SmallServerListDownloader

variable {C : StreamCodec} {ndebug : Bool} {s t : SmallServerListDownloader} {e : DownloaderEvent}

theorem mem_posts_updateServerListSlaveList {post : ServerListPost}
    (h : post ∈ (s.updateServerListSlaveList ndebug).posts) :
    post ∈ s.posts ∨ post.requestId = post.serverGroup := by
  rw [updateServerListSlaveList] at h
  split at h
  · exact .inl h
  · exact (List.mem_append.1 h).imp_right fun h => by rw [List.mem_singleton.1 h]

theorem mem_posts_updateOneEnabledServerList {post : ServerListPost}
    (h : post ∈ (s.updateOneEnabledServerList ndebug).posts) :
    post ∈ s.posts ∨ post.requestId = post.serverGroup := by
  rw [updateOneEnabledServerList] at h
  split at h
  · exact .inl h
  · dsimp only at h
    split at h
    · exact (List.mem_append.1 h).imp_right fun h => by rw [List.mem_singleton.1 h]
    · exact .inl h

/-- A request is posted under the group as its id. -/
theorem mem_posts_of_step {post : ServerListPost} (hs : Consistent s) (h : s.step C ndebug e = .ok t)
    (hpost : post ∈ t.posts) : post ∈ s.posts ∨ post.requestId = post.serverGroup := by
  cases e with
  | tick nowMS =>
    cases h
    rcases mem_posts_updateOneEnabledServerList hpost with h | h
    · have hslave := mem_posts_updateServerListSlaveList h
      exact hslave
    · exact .inr h
  | enable g =>
    obtain ⟨-, -, -, rfl⟩ := enableServerGroup_eq_ok h
    exact .inl hpost
  | disable g =>
    obtain ⟨-, rfl⟩ := disableServerGroup_eq_ok h
    exact .inl hpost
  | datagram d =>
    cases hs.move h with
    | ignore => exact .inl hpost
    | accept => exact .inl hpost

/-- An update is announced for a response that is accepted. -/
theorem mem_updates_of_step {u : ServerListUpdate} (hs : Consistent s)
    (h : s.step C ndebug e = .ok t) (hu : u ∈ t.updates) : u ∈ s.updates ∨ ∃ p,
      e = .datagram p ∧ Accepts C s p u.versionTimestampMS u.serverList ∧
        p.requestId = u.serverGroup := by
  rcases hs.move h with _ | _ | _ | _ | _ | @⟨d, v, l, haccepts, a, b, -⟩
  · exact .inl hu
  · exact .inl hu
  · exact .inl hu
  · exact .inl hu
  · exact .inl hu
  · rcases List.mem_append.1 hu with hu | hu
    · exact .inl hu
    · rw [List.mem_singleton.1 hu]
      exact .inr ⟨d, rfl, haccepts, rfl⟩

/-- A group stays enabled when a response is accepted. -/
theorem enabled_of_accepts {d : ServerListDatagram} {v : UInt64} {l : List ServerInfo}
    (hs : Consistent s) (ha : Accepts C s d v l) (h : s.step C ndebug (.datagram d) = .ok t) :
    (t.enabledServerGroupMap d.requestId).enabled := by
  obtain ⟨a, b, -, ht⟩ := onUdpPacket_of_accepts hs ha
  rw [step, ht, Except.ok.injEq] at h
  subst h
  dsimp only
  rw [Function.update_self]
  exact ha.enabled

end SmallServerListDownloader

namespace ServerListNetwork

open ServerListRun (Shows Mirrors registeredServers)

variable {P : ServerListSetup} {r t : ServerListRun} {g : UInt8} {v w : UInt64}
  {l l' : List ServerInfo} {es : List ServerListEvent}

/-! ## The server -/

/-- The servers that are registered have ids and addresses that can be written. -/
def RegisteredWellFormed (R : UInt8 → ℕ → Option ServerInfo) : Prop :=
  ∀ g i server, R g i = some server → server.WellFormed

theorem RegisteredWellFormed.update {R : UInt8 → ℕ → Option ServerInfo}
    (h : RegisteredWellFormed R) (type : UInt8) (objectId : ℕ) {entry : Option ServerInfo}
    (hentry : ∀ server ∈ entry, server.WellFormed) : RegisteredWellFormed
      (Function.update R type (Function.update (R type) objectId entry)) := by
  intro g i server hi
  by_cases hg : g = type
  · subst hg
    rw [Function.update_self] at hi
    by_cases hid : i = objectId
    · rw [hid, Function.update_self] at hi
      exact hentry server hi
    · rw [Function.update_of_ne hid] at hi
      exact h _ _ _ hi
  · rw [Function.update_of_ne hg] at hi
    exact h _ _ _ hi

theorem RegisteredWellFormed.register {e : ServerListEvent} (h : RegisteredWellFormed r.registered)
    (he : ServerExpected P r e) :
    RegisteredWellFormed (ServerListRun.register P.extractServerId r.registered e) := by
  cases e with
  | newServerId serverId exportAddress =>
    exact h.update _ _ fun server hserver => Option.some.inj hserver ▸ he.wellFormed
  | removeServerId serverId =>
    rw [ServerListRun.register_removeServerId he.oneLive]
    exact h.update _ _ fun server hserver => by cases hserver
  | downloadList commandId requestId payload timestampMS => exact h

/-- What is known of the server after a run from its start. -/
structure Served (P : ServerListSetup) (r : ServerListRun) : Prop where
  mirrors : ∀ g list, r.server.serverListMap g = some list →
    Mirrors P.codec (r.registered g) list
  wellFormed : RegisteredWellFormed r.registered
  positive : ∀ g list, r.server.serverListMap g = some list → list.dirty = false →
    list.versionTimestampMS ≠ 0

theorem served_init : Served P .init where
  mirrors _ _ := ServerListRun.mirrors_init
  wellFormed _ _ _ hi := by cases hi
  positive g list hlist hdirty := by
    obtain rfl : list = {} := ServerListRun.eq_empty_of_foldl (fun L hL => by cases hL) hlist
    cases hdirty

/-- What an event does to the list of one group, which was there before. -/
theorem Served.groupMove (hP : P.Lawful) {e : ServerListEvent} (he : ServerExpected P r e)
    (ht : serverStep P r e = .ok t) {list : BufferedSmallList}
    (hlist : t.server.serverListMap g = some list) :
    ∃ old, r.server.serverListMap g = some old ∧
      ServerListRun.GroupMove P.codec P.extractServerId P.readServerGroup e g (r.registered g) old
        (t.registered g) list := by
  obtain ⟨u, hu, rfl⟩ := ServerListRun.step_eq_ok ht
  obtain ⟨old, hold⟩ := Option.isSome_iff_exists.1
    (SmallServerListServer.isSome_of_step hu (Option.isSome_iff_exists.2 ⟨list, hlist⟩))
  obtain ⟨new, hnew, hmove⟩ := ServerListRun.groupMove_of_step hP.extract he.oneLive ht hold
  obtain rfl : new = list := Option.some.inj (hnew.symm.trans hlist)
  exact ⟨old, hold, hmove⟩

theorem Served.step (hP : P.Lawful) {e : ServerListEvent} (h : Served P r)
    (he : ServerExpected P r e) (ht : serverStep P r e = .ok t) : Served P t where
  mirrors g list hlist := by
    obtain ⟨old, hold, hmove⟩ := Served.groupMove hP he ht hlist
    exact (h.mirrors g old hold).move hmove
  wellFormed := by
    obtain ⟨u, -, rfl⟩ := ServerListRun.step_eq_ok ht
    exact h.wellFormed.register he
  positive g list hlist hdirty := by
    obtain ⟨old, hold, hmove⟩ := Served.groupMove hP he ht hlist
    have honward := hmove.onward he.unwrapped hold
    by_cases hold' : old.dirty
    · -- The list has been built, with a version that is greater than one there was.
      have hlt := (honward.due (.inr hold')).resolve_left (by simp [hdirty])
      exact fun hzero => absurd (hzero ▸ hlt) UInt64.not_lt_zero
    · rw [Bool.not_eq_true] at hold'
      have hpos := h.positive g old hold hold'
      intro hzero
      exact hpos (UInt64.le_zero_iff.1 (hzero ▸ honward.le))

theorem served_of_exec (hP : P.Lawful) (hes : Along (serverStep P) (ServerExpected P) .init es)
    (h : exec (serverStep P) .init es = .ok r) : Served P r :=
  exec_invariant_along (fun _ _ _ hr he ht => hr.step hP he ht) served_init hes h

/-! ## What is shown -/

theorem length_registeredServers_le (r : ServerListRun) (g : UInt8) :
    (registeredServers r g).length ≤ maxSmallServerListSize :=
  (List.length_filterMap_le _ _).trans List.length_range.le

theorem Served.wellFormed_registeredServers (h : Served P r) (g : UInt8) :
    ∀ server ∈ registeredServers r g, server.WellFormed := by
  intro server hserver
  obtain ⟨i, -, hi⟩ := List.mem_filterMap.1 hserver
  exact h.wellFormed _ _ _ hi

/-- A list that is shown can be read back by who it is sent to. -/
theorem Served.decode (hP : P.Lawful) (h : Served P r) (g : UInt8) (v : UInt64) (beyond : Bytes) :
    PPGetSmallServerListResp.decode P.codec
      (PPGetSmallServerListResp.serialize P.codec v (registeredServers r g)) beyond =
        some (v, registeredServers r g) := by
  obtain ⟨a, ha, hfirsts⟩ := PPGetSmallServerListResp.deserialize_serialize hP.codec v
    (length_registeredServers_le r g) (h.wellFormed_registeredServers g) (fun _ => {}) beyond
  rw [PPGetSmallServerListResp.decode_of_deserialize ha]
  dsimp only
  rw [hfirsts]

/-- The response that is shown. -/
theorem Served.payload (h : Served P r) {list : BufferedSmallList}
    (hlist : r.server.serverListMap g = some list) (hdirty : list.dirty = false) :
    list.resp.commandId = cmdDownloadSmallServerListResp ∧
      list.resp.payload = PPGetSmallServerListResp.serialize P.codec list.versionTimestampMS
        (registeredServers r g) := by
  rw [← (h.mirrors g list hlist).servers]
  exact (h.mirrors g list hlist).fresh hdirty

/-- What is shown later has a greater version, or is the same. -/
theorem shows_onward (hP : P.Lawful) (hr : Served P r)
    (hes : Along (serverStep P) (ServerExpected P) r es) (ht : exec (serverStep P) r es = .ok t)
    (h : Shows r g v l) (h' : Shows t g w l') : v ≤ w ∧ (v = w → l = l') := by
  obtain ⟨list, hlist, hdirty, rfl, rfl⟩ := h
  obtain ⟨list', hlist', hdirty', rfl, rfl⟩ := h'
  have hone := hes.mono fun _ _ he => he.oneLive
  have hunwrapped := hes.mono fun _ _ he => he.unwrapped
  obtain ⟨new, hnew, honward⟩ :=
    ServerListRun.onward_of_exec hP.extract hone hunwrapped hlist ht
  obtain rfl : new = list' := Option.some.inj (hnew.symm.trans hlist')
  have htServed : Served P t :=
    exec_invariant_along (fun _ _ _ hr he ht => hr.step hP he ht) hr hes ht
  refine ⟨honward.le, fun heq => ?_⟩
  have hpayload := (honward.resp heq.symm).2
  rw [(hr.payload hlist hdirty).2, (htServed.payload hlist' hdirty').2, ← heq] at hpayload
  have hdecode := htServed.decode hP g list.versionTimestampMS []
  rw [hpayload, hr.decode hP, Option.some.injEq, Prod.mk.injEq] at hdecode
  exact hdecode.2

/-! ## Moments of a run -/

section Network

variable {ω : Type} [DecidableEq ω] {master : NetAddress} {n m : ServerListNetwork ω}
  {fs : List (ServerListNetworkEvent ω)} {e : ServerListNetworkEvent ω}

variable (P master) in
/-- At a moment of the run, the server showed the list `l` under the version `v`. -/
def Shown (fs : List (ServerListNetworkEvent ω)) (g : UInt8) (v : UInt64) (l : List ServerInfo) :
    Prop :=
  ∃ pre n, pre <+: fs ∧ exec (step P) (init master) pre = .ok n ∧ Shows n.run g v l

theorem Shown.concat (h : Shown P master fs g v l) (e : ServerListNetworkEvent ω) :
    Shown P master (fs ++ [e]) g v l := by
  obtain ⟨pre, n, hpre, hn, hshows⟩ := h
  exact ⟨pre, n, hpre.trans (List.prefix_append _ _), hn, hshows⟩

theorem served_of_network (hP : P.Lawful)
    (hfs : Along (step P) (Expected P) (init master : ServerListNetwork ω) fs)
    (h : exec (step P) (init master) fs = .ok n) : Served P n.run :=
  served_of_exec hP (along_serverRun h hfs) (exec_serverRun h)

/-- Two moments are in the order of their versions, and show the same under the same version. -/
theorem shown_onward (hP : P.Lawful) {pre pre' : List (ServerListNetworkEvent ω)}
    (hfs : Along (step P) (Expected P) (init master) pre') (hpre : pre <+: pre')
    (hn : exec (step P) (init master) pre = .ok n) (hm : exec (step P) (init master) pre' = .ok m)
    (h : Shows n.run g v l) (h' : Shows m.run g w l') : v ≤ w ∧ (v = w → l = l') := by
  obtain ⟨mid, rfl⟩ := hpre
  have hmid : exec (step P) n mid = .ok m := by rwa [exec_append mid hn] at hm
  have hserved := served_of_network hP (hfs.of_prefix (List.prefix_append pre mid)) hn
  exact shows_onward hP hserved (along_serverRun hmid (hfs.of_append hn)) (exec_serverRun hmid) h h'

/-- A version stands for one list. -/
theorem Shown.unique (hP : P.Lawful)
    (hfs : Along (step P) (Expected P) (init master : ServerListNetwork ω) fs)
    (h : Shown P master fs g v l) (h' : Shown P master fs g v l') : l = l' := by
  obtain ⟨pre, n, hpre, hn, hshows⟩ := h
  obtain ⟨pre', m, hpre', hm, hshows'⟩ := h'
  rcases List.prefix_or_prefix_of_prefix hpre hpre' with hle | hle
  · exact (shown_onward hP (hfs.of_prefix hpre') hle hn hm hshows hshows').2 rfl
  · exact ((shown_onward hP (hfs.of_prefix hpre) hle hm hn hshows' hshows).2 rfl).symm

variable (P master) in
/-- What a downloader has announced and holds was shown at a moment of the run. -/
structure IssuedTo (fs : List (ServerListNetworkEvent ω)) (d : SmallServerListDownloader) : Prop where
  consistent : d.Consistent
  posts : ∀ post ∈ d.posts, post.requestId = post.serverGroup
  updates : ∀ u ∈ d.updates,
    Shown P master fs (.ofNat u.serverGroup) u.versionTimestampMS u.serverList
  held : ∀ i, (d.enabledServerGroupMap i).versionTimestampMS = 0 ∧
      (d.enabledServerGroupMap i).held = [] ∨
    Shown P master fs (.ofNat i) (d.enabledServerGroupMap i).versionTimestampMS
      (d.enabledServerGroupMap i).held
  fresh : ∀ i, (d.enabledServerGroupMap i).enabled = false →
    (d.enabledServerGroupMap i).versionTimestampMS = 0

namespace IssuedTo

variable {d d' : SmallServerListDownloader}

theorem init : IssuedTo P master fs (.init master) where
  consistent := SmallServerListDownloader.consistent_init master
  posts _ hpost := by cases hpost
  updates _ hu := by cases hu
  held _ := .inl ⟨rfl, rfl⟩
  fresh _ _ := rfl

theorem concat (h : IssuedTo P master fs d) (e : ServerListNetworkEvent ω) :
    IssuedTo P master (fs ++ [e]) d where
  consistent := h.consistent
  posts := h.posts
  updates u hu := (h.updates u hu).concat e
  held i := (h.held i).imp_right (·.concat e)
  fresh := h.fresh

/-- Any event but that a group is disabled, of which a response that is accepted was shown. -/
theorem step {f : DownloaderEvent} (h : IssuedTo P master fs d)
    (hd : d.step P.codec P.ndebug f = .ok d') (hf : ∀ i, f ≠ .disable i)
    (hshown : ∀ p v l, f = .datagram p → d.Accepts P.codec p v l →
      Shown P master fs (.ofNat p.requestId) v l) : IssuedTo P master fs d' where
  consistent := h.consistent.step hd
  posts post hpost := (SmallServerListDownloader.mem_posts_of_step h.consistent hd hpost).elim
    (h.posts post) id
  updates u hu := by
    rcases SmallServerListDownloader.mem_updates_of_step h.consistent hd hu with
      hu | ⟨p, hp, haccepts, hg⟩
    · exact h.updates u hu
    · exact hg ▸ hshown p _ _ hp haccepts
  held i := by
    rcases SmallServerListDownloader.groupStep_of_step h.consistent hd i with
      ⟨-, -, -, hversion, hheld, -⟩ | hswitch | ⟨hp, hg, haccepts, hversion, hheld, -⟩
    · rw [hversion, hheld]
      exact h.held i
    · -- The group has just been enabled, and had no version before.
      rcases hswitch with rfl | rfl
      · obtain ⟨-, -, hg, rfl⟩ := SmallServerListDownloader.enableServerGroup_eq_ok hd
        dsimp only
        rw [Function.update_self]
        exact .inl ⟨h.fresh i hg, rfl⟩
      · exact absurd rfl (hf i)
    · rw [hversion, hheld, ← hg]
      exact .inr (hshown _ _ _ hp haccepts)
  fresh i hi := by
    rcases SmallServerListDownloader.groupStep_of_step h.consistent hd i with
      ⟨-, -, henabled, hversion, -, -⟩ | hswitch | ⟨hp, hg, haccepts, -, -, -⟩
    · rw [hversion]
      exact h.fresh i (henabled ▸ hi)
    · rcases hswitch with rfl | rfl
      · obtain ⟨-, -, -, rfl⟩ := SmallServerListDownloader.enableServerGroup_eq_ok hd
        dsimp only at hi
        rw [Function.update_self] at hi
        cases hi
      · exact absurd rfl (hf i)
    · have henabled := SmallServerListDownloader.enabled_of_accepts h.consistent haccepts (hp ▸ hd)
      rw [hg, hi] at henabled
      cases henabled

end IssuedTo

variable (P master) in
/-- Everything that was sent, announced or is held was shown at a moment of the run. -/
structure Issued (fs : List (ServerListNetworkEvent ω)) (n : ServerListNetwork ω) : Prop where
  responses : ∀ o, ∀ p ∈ n.responses o, ∃ v l, Shown P master fs (.ofNat p.requestId) v l ∧
    p.payload = PPGetSmallServerListResp.serialize P.codec v l
  downloaders : ∀ o, IssuedTo P master fs (n.downloaders o)

theorem issued_init : Issued P master [] (init master : ServerListNetwork ω) where
  responses _ _ hp := by cases hp
  downloaders _ := .init

/-- A response that was shown is read back. -/
theorem Shown.decode (hP : P.Lawful)
    (hfs : Along (step P) (Expected P) (init master : ServerListNetwork ω) fs)
    (h : Shown P master fs g v l) (beyond : Bytes) :
    PPGetSmallServerListResp.decode P.codec (PPGetSmallServerListResp.serialize P.codec v l) beyond =
      some (v, l) := by
  obtain ⟨pre, n, hpre, hn, -, -, -, -, rfl⟩ := h
  exact (served_of_network hP (hfs.of_prefix hpre) hn).decode hP g v beyond

/-- What the server sends when a request arrives. -/
theorem exists_shows (hP : P.Lawful) {post : ServerListPost} {timestampMS : UInt64}
    (ht : serverStep P r (requestOf P post timestampMS) = .ok t) (hserved : Served P t) :
    ∀ p ∈ t.server.sent.drop r.server.sent.length, p.requestId = post.requestId ∧
      p.commandId = cmdDownloadSmallServerListResp ∧ ∃ v l, Shows t (.ofNat post.serverGroup) v l ∧
        p.payload = PPGetSmallServerListResp.serialize P.codec v l := by
  obtain ⟨u, hu, rfl⟩ := ServerListRun.step_eq_ok ht
  cases hu
  rcases SmallServerListServer.onDownloadList_cases P.codec P.readServerGroup r.server
    cmdDownloadSmallServerList post.requestId (P.writeServerGroup (.ofNat post.serverGroup))
    timestampMS with ⟨g, list, -, hg, hlist, hsent⟩ | hsent
  · obtain rfl : .ofNat post.serverGroup = g := Option.some.inj ((hP.group _).symm.trans hg)
    have hnew : (r.server.onDownloadList P.codec P.readServerGroup cmdDownloadSmallServerList
        post.requestId (P.writeServerGroup (.ofNat post.serverGroup)) timestampMS).serverListMap
          (.ofNat post.serverGroup) =
            some (list.buildServerListResponse P.codec post.requestId timestampMS) := by
      rw [hsent]
      exact Function.update_self ..
    have hdirty := list.buildServerListResponse_dirty (C := P.codec) post.requestId timestampMS
    intro p hp
    dsimp only at hp
    rw [hsent, List.drop_left] at hp
    rw [List.mem_singleton.1 hp]
    obtain ⟨hcommand, hpayload⟩ := hserved.payload hnew hdirty
    exact ⟨rfl, hcommand, _, _, ⟨_, hnew, hdirty, rfl, rfl⟩, hpayload⟩
  · intro p hp
    dsimp only at hp
    rw [hsent, List.drop_length] at hp
    cases hp

theorem Issued.step (hP : P.Lawful)
    (hfs : Along (step P) (Expected P) (init master : ServerListNetwork ω) (fs ++ [e]))
    (hn : exec (ServerListNetwork.step P) (ServerListNetwork.init master) fs = .ok n)
    (h : Issued P master fs n) (hm : ServerListNetwork.step P n e = .ok m) :
    Issued P master (fs ++ [e]) m := by
  have hall : exec (ServerListNetwork.step P) (ServerListNetwork.init master) (fs ++ [e]) = .ok m :=
    (exec_snoc e hn).trans hm
  have hserved := served_of_network hP hfs hall
  have hbefore : ∀ o, ∀ p ∈ n.responses o,
      ∃ v l, Shown P master (fs ++ [e]) (.ofNat p.requestId) v l ∧
        p.payload = PPGetSmallServerListResp.serialize P.codec v l := fun o p hp => by
    obtain ⟨v, l, hshown, hpayload⟩ := h.responses o p hp
    exact ⟨v, l, hshown.concat e, hpayload⟩
  refine ⟨fun o p hp => ?_, fun o => ?_⟩
  · rcases responses_step hm o with heq | ⟨i, timestampMS, post, hpost, hrun, heq⟩
    · exact hbefore o p (heq ▸ hp)
    · rw [heq] at hp
      rcases List.mem_append.1 hp with hp | hp
      · exact hbefore o p hp
      · obtain ⟨hid, -, v, l, hshows, hpayload⟩ := exists_shows hP hrun hserved p hp
        have hgroup := (h.downloaders o).posts post (List.mem_of_getElem? hpost)
        rw [hid, hgroup]
        exact ⟨v, l, ⟨_, _, List.prefix_rfl, hall, hshows⟩, hpayload⟩
  · have hdownloader := (h.downloaders o).concat e
    rcases downloader_step hm o with heq | ⟨f, hf, hdisable, hdatagram⟩
    · rw [heq]
      exact hdownloader
    · refine hdownloader.step hf hdisable fun d v l hd haccepts => ?_
      obtain ⟨j, p, -, hp, hdp⟩ := hdatagram d hd
      obtain ⟨w, l', hshown, hpayload⟩ := hbefore o p (List.mem_of_getElem? hp)
      have hdecode := haccepts.decode
      rw [hdp] at hdecode ⊢
      dsimp only at hdecode ⊢
      rw [hpayload, hshown.decode hP hfs, Option.some.injEq, Prod.mk.injEq] at hdecode
      obtain ⟨rfl, rfl⟩ := hdecode
      exact hshown

theorem issued_of_exec (hP : P.Lawful)
    (hfs : Along (step P) (Expected P) (init master : ServerListNetwork ω) fs)
    (h : exec (step P) (init master) fs = .ok n) : Issued P master fs n := by
  induction fs using List.reverseRecOn generalizing n with
  | nil =>
    cases h
    exact issued_init
  | append_singleton fs e ih =>
    obtain ⟨u, hu, he⟩ := exec_append_eq_ok.1 h
    obtain ⟨n', hn', hnil⟩ := exec_cons_eq_ok.1 he
    cases hnil
    exact (ih (hfs.of_prefix (List.prefix_append _ _)) hu).step hP hfs hu hn'

/-! ## A version is a moment -/

/-- In every run, a version stands for a moment: all lists that any downloader has announced for a
    group under the version are those of the servers that were registered then, and of two
    versions the greater stands for the later moment. -/
theorem version_moment (hP : P.Lawful)
    (hfs : Along (step P) (Expected P) (init master : ServerListNetwork ω) fs)
    (h : exec (step P) (init master) fs = .ok n) :
    ∃ moment : UInt8 → UInt64 → List (ServerListNetworkEvent ω),
      (∀ o, ∀ u ∈ (n.downloaders o).updates, ∃ m,
        moment (.ofNat u.serverGroup) u.versionTimestampMS <+: fs ∧
        exec (step P) (init master) (moment (.ofNat u.serverGroup) u.versionTimestampMS) = .ok m ∧
        u.serverList = registeredServers m.run (.ofNat u.serverGroup)) ∧
      ∀ o o', ∀ u ∈ (n.downloaders o).updates, ∀ u' ∈ (n.downloaders o').updates,
        u.serverGroup = u'.serverGroup → u.versionTimestampMS < u'.versionTimestampMS →
          moment (.ofNat u.serverGroup) u.versionTimestampMS <+:
              moment (.ofNat u'.serverGroup) u'.versionTimestampMS ∧
            moment (.ofNat u.serverGroup) u.versionTimestampMS ≠
              moment (.ofNat u'.serverGroup) u'.versionTimestampMS := by
  classical
  have hissued := issued_of_exec hP hfs h
  -- The moment is one at which the version was shown.
  let moment (g : UInt8) (v : UInt64) : List (ServerListNetworkEvent ω) :=
    if hshown : ∃ l, Shown P master fs g v l then hshown.choose_spec.choose else []
  have hmoment {g : UInt8} {v : UInt64} {l : List ServerInfo} (hl : Shown P master fs g v l) :
      ∃ m, moment g v <+: fs ∧ exec (step P) (init master) (moment g v) = .ok m ∧
        Shows m.run g v l := by
    have hshown : ∃ l, Shown P master fs g v l := ⟨l, hl⟩
    have heq : moment g v = hshown.choose_spec.choose := dif_pos hshown
    obtain ⟨m, hpre, hm, hshows⟩ := hshown.choose_spec.choose_spec
    rw [heq]
    exact ⟨m, hpre, hm, hshown.choose_spec.unique hP hfs hl ▸ hshows⟩
  refine ⟨moment, fun o u hu => ?_, fun o o' u hu u' hu' hgroup hlt => ?_⟩
  · obtain ⟨m, hpre, hm, -, -, -, -, hl⟩ := hmoment ((hissued.downloaders o).updates u hu)
    exact ⟨m, hpre, hm, hl.symm⟩
  · obtain ⟨m, hpre, hm, hshows⟩ := hmoment ((hissued.downloaders o).updates u hu)
    obtain ⟨m', hpre', hm', hshows'⟩ := hmoment ((hissued.downloaders o').updates u' hu')
    rw [hgroup] at hpre hm hshows ⊢
    -- Were the moment of the greater version before the other, it would not be greater.
    have hnot : ¬moment (.ofNat u'.serverGroup) u'.versionTimestampMS <+:
        moment (.ofNat u'.serverGroup) u.versionTimestampMS := fun hle => by
      have hback := (shown_onward hP (hfs.of_prefix hpre) hle hm' hm hshows' hshows).1
      exact absurd hlt (UInt64.not_lt.2 hback)
    refine ⟨(List.prefix_or_prefix_of_prefix hpre hpre').resolve_right hnot, fun heq => hnot ?_⟩
    rw [heq]

instance : ∀ f : ServerListEvent, Decidable (RegistersWellFormed f)
  | .newServerId serverId exportAddress => inferInstanceAs (Decidable (serverId < 2 ^ 64 ∧
      exportAddress.bytes.length = NetAddress.size exportAddress.type ∧ exportAddress.port < 65536))
  | .removeServerId _ | .downloadList .. => .isTrue trivial

instance (r : ServerListRun) (f : ServerListEvent) : Decidable (ServerExpected P r f) :=
  decidable_of_iff (ServerListRun.OneLive P.extractServerId r f ∧
      ServerListRun.Unwrapped P.readServerGroup r f ∧ RegistersWellFormed f)
    ⟨fun h => ⟨h.1, h.2.1, h.2.2⟩, fun h => ⟨h.oneLive, h.unwrapped, h.wellFormed⟩⟩

instance (n : ServerListNetwork ω) (e : ServerListNetworkEvent ω) : Decidable (Expected P n e) :=
  inferInstanceAs (Decidable (∀ f ∈ serverEvents P n e, ServerExpected P n.run f))

end Network

/-- Groups as their bytes, and server ids as decimal numbers. -/
def plainSetup : ServerListSetup where
  codec := strictCodec
  extractServerId := ServerListRun.decimalServerId
  writeServerGroup g := [g]
  readServerGroup := List.head?
  ndebug := true

theorem plainSetup_lawful : plainSetup.Lawful where
  codec := strictCodec_lawful
  extract := rfl
  group _ := rfl

/-- The response from before a server was removed arrives after the one from after that. -/
def lateResponse : List (ServerListNetworkEvent Bool) :=
  [.enable false 2, .tick false 1000000, .server (.newServerId 2001 {}), .requestArrives false 1 50,
    .server (.removeServerId 2001), .requestArrives false 1 60, .responseArrives false 1 [],
    .responseArrives false 0 []]

theorem version_moment_lateResponse :
    ∃ n, exec (step plainSetup) (init {}) lateResponse = .ok n ∧
      (n.downloaders false).updates.length = 2 ∧
      ∃ moment : UInt8 → UInt64 → List (ServerListNetworkEvent Bool),
        (∀ o, ∀ u ∈ (n.downloaders o).updates, ∃ m,
          moment (.ofNat u.serverGroup) u.versionTimestampMS <+: lateResponse ∧
          exec (step plainSetup) (init {})
            (moment (.ofNat u.serverGroup) u.versionTimestampMS) = .ok m ∧
          u.serverList = registeredServers m.run (.ofNat u.serverGroup)) ∧
        ∀ o o', ∀ u ∈ (n.downloaders o).updates, ∀ u' ∈ (n.downloaders o').updates,
          u.serverGroup = u'.serverGroup → u.versionTimestampMS < u'.versionTimestampMS →
            moment (.ofNat u.serverGroup) u.versionTimestampMS <+:
                moment (.ofNat u'.serverGroup) u'.versionTimestampMS ∧
              moment (.ofNat u.serverGroup) u.versionTimestampMS ≠
                moment (.ofNat u'.serverGroup) u'.versionTimestampMS := by
  obtain ⟨n, hn, hlength⟩ := exists_ok_of_check
    (x := exec (step plainSetup) (init {}) lateResponse)
    (p := fun n => (n.downloaders false).updates.length = 2) (by decide +kernel)
  have hexpected : Along (step plainSetup) (Expected plainSetup) (init {}) lateResponse :=
    along_of_check (by decide +kernel)
  exact ⟨n, hn, of_decide_eq_true hlength, version_moment plainSetup_lawful hexpected hn⟩

end ServerListNetwork

end ProxyPlatform
