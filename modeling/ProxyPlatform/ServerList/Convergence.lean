import ProxyPlatform.ServerList.Moments

/-!
# When the lists of the downloaders are up to date

A response that is late may put an old list back; and one that is ignored, as the version is the
one there is, leaves what there is. So that a downloader has the servers that are registered takes a
stretch of the run in which these do not change, and in which no response arrives from before
(`Quiet`): from the first response on that was sent in the stretch, its list is that of the
registered servers (`settles`), whatever else is lost, comes twice or in another order.

In such a stretch what the server shows for the group stays (`shows_keep`), all responses sent in it
are of the version that is shown (`Fresh`), and a downloader with that version has the list.
-/

namespace ProxyPlatform

namespace ServerListNetwork

open ServerListRun (Shows Changes registeredServers)

variable {P : ServerListSetup} {r t : ServerListRun} {g : UInt8} {v : UInt64}
  {l : List ServerInfo}

/-! ## What stays shown -/

/-- An entry without a slot is not listed. -/
theorem registeredServers_update {registered : UInt8 → ℕ → Option ServerInfo}
    (server : SmallServerListServer) {u : SmallServerListServer}
    {type : UInt8} {objectId : ℕ} {entry : Option ServerInfo}
    (h : type = g → maxSmallServerListSize ≤ objectId - 1) :
    registeredServers ⟨u, Function.update registered type
      (Function.update (registered type) objectId entry)⟩ g =
        registeredServers ⟨server, registered⟩ g := by
  refine List.filterMap_congr fun i hi => ?_
  dsimp only
  by_cases htype : type = g
  · subst htype
    have hi' := List.mem_range.1 hi
    have hle := h rfl
    rw [Function.update_self, Function.update_of_ne (by omega)]
  · rw [Function.update_of_ne (Ne.symm htype)]

/-- A call of the id service that gives no server of the group a slot, or takes none. -/
theorem shows_call {type : UInt8} {objectId : ℕ} {entry : Option ServerInfo}
    {list : BufferedSmallList} {u : SmallServerListServer}
    (hgroup : type = g → maxSmallServerListSize ≤ objectId - 1)
    (hu : maxSmallServerListSize ≤ objectId - 1 ∧ u = r.server ∨
      objectId - 1 < maxSmallServerListSize ∧ u = r.server.setList type list)
    (h : Shows r g v l) :
    Shows ⟨u, Function.update r.registered type
      (Function.update (r.registered type) objectId entry)⟩ g v l := by
  obtain ⟨old, hold, hdirty, hv, hl⟩ := h
  refine ⟨old, ?_, hdirty, hv, (registeredServers_update r.server hgroup).trans hl⟩
  rcases hu with ⟨-, rfl⟩ | ⟨hlt, rfl⟩
  · exact hold
  · have htype : type ≠ g := fun heq => absurd hlt (hgroup heq).not_gt
    rw [SmallServerListServer.setList]
    exact (Function.update_of_ne htype.symm ..).trans hold

/-- What is shown stays, unless a server gets a slot or gives one up. -/
theorem shows_keep {f : ServerListEvent} (he : ServerExpected P r f)
    (hf : ¬Changes P.extractServerId g f) (ht : serverStep P r f = .ok t) (h : Shows r g v l) :
    Shows t g v l := by
  obtain ⟨u, hu, rfl⟩ := ServerListRun.step_eq_ok ht
  cases f with
  | newServerId serverId exportAddress =>
    obtain ⟨list, -, -, hserver⟩ := SmallServerListServer.onNewServerId_eq_ok hu
    refine shows_call (fun heq => ?_) hserver h
    rw [ServerListRun.changes_iff rfl, not_and, Nat.not_lt] at hf
    exact hf heq
  | removeServerId serverId =>
    obtain ⟨list, -, -, hserver⟩ := SmallServerListServer.onRemoveServerId_eq_ok hu
    rw [ServerListRun.register_removeServerId he.oneLive]
    refine shows_call (fun heq => ?_) hserver h
    rw [ServerListRun.changes_iff rfl, not_and, Nat.not_lt] at hf
    exact hf heq
  | downloadList commandId requestId payload timestampMS =>
    obtain ⟨old, hold, hdirty, hv, hl⟩ := h
    cases hu
    rcases SmallServerListServer.onDownloadList_cases P.codec P.readServerGroup r.server commandId
      requestId payload timestampMS with ⟨k, list, -, -, hlist, hsent⟩ | hsent
    · by_cases hk : k = g
      · -- The list is sent again, as it has not changed.
        subst hk
        obtain rfl : list = old := Option.some.inj (hlist.symm.trans hold)
        refine ⟨list.buildServerListResponse P.codec requestId timestampMS, ?_,
          BufferedSmallList.buildServerListResponse_dirty _ _ _, ?_, hl⟩
        · dsimp only
          rw [hsent]
          exact Function.update_self ..
        · rw [BufferedSmallList.buildServerListResponse_of_not_dirty _ _ hdirty]
          exact hv
      · refine ⟨old, ?_, hdirty, hv, hl⟩
        dsimp only
        rw [hsent]
        exact (Function.update_of_ne (Ne.symm hk) ..).trans hold
    · refine ⟨old, ?_, hdirty, hv, hl⟩
      dsimp only
      rw [hsent]
      exact hold

/-! ## A quiet stretch -/

section Network

variable {ω : Type} {master : NetAddress} {n m : ServerListNetwork ω}
  {es fs gs : List (ServerListNetworkEvent ω)} {e : ServerListNetworkEvent ω} {o : ω} {i k : ℕ}

variable (P o i k) in
/-- No server gets a slot in the group `i` or gives one up, and no response for the group arrives at the
    downloader of the first `k` that were sent to it. -/
structure Quiet (n : ServerListNetwork ω) (e : ServerListNetworkEvent ω) : Prop where
  keeps : ∀ f ∈ serverEvents P n e, ¬Changes P.extractServerId (.ofNat i) f
  sent : ∀ j beyond p, e = .responseArrives o j beyond → (n.responses o)[j]? = some p →
    p.requestId = i → k ≤ j

variable (P o i k) in
/-- The responses that were sent to the downloader for the group `i`, but for the first `k`, are of the
    version that is shown. -/
def Fresh (n : ServerListNetwork ω) : Prop :=
  ∀ j p, k ≤ j → (n.responses o)[j]? = some p → p.requestId = i →
    p.commandId = cmdDownloadSmallServerListResp ∧ ∃ v l, Shows n.run (.ofNat i) v l ∧
      p.payload = PPGetSmallServerListResp.serialize P.codec v l

variable (o i) in
/-- The downloader has the version that is shown. -/
def UpToDate (n : ServerListNetwork ω) : Prop :=
  ∃ l, Shows n.run (.ofNat i)
    ((n.downloaders o).enabledServerGroupMap i).versionTimestampMS l

/-- A fresh response that is accepted is of the version that is shown. -/
theorem Fresh.version {p : ServerListPacket} {j : ℕ} {d : ServerListDatagram}
    (hP : P.Lawful) (hserved : Served P n.run) (h : Fresh P o i k n)
    (hp : (n.responses o)[j]? = some p) (hid : p.requestId = i) (hk : k ≤ j)
    (hd : d = { p with beyond := d.beyond }) :
    d.commandId = cmdDownloadSmallServerListResp ∧ ∃ v l, Shows n.run (.ofNat i) v l ∧
      PPGetSmallServerListResp.decode P.codec d.payload d.beyond = some (v, l) := by
  obtain ⟨hcommand, v, l, ⟨list, hlist, hdirty, hv, rfl⟩, hpayload⟩ := h j p hk hp hid
  rw [hd]
  refine ⟨hcommand, v, _, ⟨list, hlist, hdirty, hv, rfl⟩, ?_⟩
  dsimp only
  rw [hpayload, hserved.decode hP]

variable [DecidableEq ω]

theorem shows_step (he : Expected P n e) (hq : Quiet P o i k n e) (hm : step P n e = .ok m)
    (h : Shows n.run (.ofNat i) v l) : Shows m.run (.ofNat i) v l := by
  have hrun := exec_serverEvents hm
  rcases serverEvents_cases (P := P) (n := n) (e := e) with hnil | ⟨f, hf⟩
  · rw [hnil, exec_nil, Except.ok.injEq] at hrun
    exact hrun ▸ h
  · have hmem : f ∈ serverEvents P n e := hf ▸ List.mem_singleton_self f
    rw [hf] at hrun
    obtain ⟨t, ht, hnil⟩ := exec_cons_eq_ok.1 hrun
    cases hnil
    exact shows_keep (he f hmem) (hq.keeps f hmem) ht h

theorem Fresh.step (hP : P.Lawful) (hserved : Served P m.run)
    (hposts : ∀ post ∈ (n.downloaders o).posts, post.requestId = post.serverGroup)
    (he : Expected P n e) (hq : Quiet P o i k n e) (hm : ServerListNetwork.step P n e = .ok m)
    (h : Fresh P o i k n) : Fresh P o i k m := by
  have hold : ∀ j p, k ≤ j → (n.responses o)[j]? = some p → p.requestId = i →
      p.commandId = cmdDownloadSmallServerListResp ∧ ∃ v l, Shows m.run (.ofNat i) v l ∧
        p.payload = PPGetSmallServerListResp.serialize P.codec v l := fun j p hk hp hid => by
    obtain ⟨hcommand, v, l, hshows, hpayload⟩ := h j p hk hp hid
    exact ⟨hcommand, v, l, shows_step he hq hm hshows, hpayload⟩
  intro j p hk hp hid
  rcases responses_step hm o with heq | ⟨i', timestampMS, post, hpost, hrun, heq⟩
  · exact hold j p hk (heq ▸ hp) hid
  · rw [heq, List.getElem?_append] at hp
    split at hp
    · exact hold j p hk hp hid
    · -- It has just been sent, for the group of its request id.
      obtain ⟨hid', hcommand, v, l, hshows, hpayload⟩ :=
        exists_shows hP hrun hserved p (List.mem_of_getElem? hp)
      rw [← hposts post (List.mem_of_getElem? hpost), ← hid', hid] at hshows
      exact ⟨hcommand, v, l, hshows, hpayload⟩

theorem UpToDate.step (hP : P.Lawful) (hserved : Served P n.run)
    (hissued : IssuedTo P master es (n.downloaders o)) (he : Expected P n e)
    (hq : Quiet P o i k n e) (hm : ServerListNetwork.step P n e = .ok m)
    (hfresh : Fresh P o i k n) (h : UpToDate o i n) : UpToDate o i m := by
  obtain ⟨l, hshows⟩ := h
  have hkeeps := shows_step he hq hm hshows
  rcases downloader_step hm o with heq | ⟨f, hf, hdisable, hdatagram⟩
  · rw [UpToDate, heq]
    exact ⟨l, hkeeps⟩
  rcases SmallServerListDownloader.groupStep_of_step hissued.consistent hf i with
    ⟨-, -, -, hversion, -, -⟩ | hswitch | ⟨hd, hg, haccepts, hversion, -, -⟩
  · rw [UpToDate, hversion]
    exact ⟨l, hkeeps⟩
  · rcases hswitch with rfl | rfl
    · obtain ⟨-, -, -, henable⟩ := SmallServerListDownloader.enableServerGroup_eq_ok hf
      rw [UpToDate, henable]
      dsimp only
      rw [Function.update_self]
      exact ⟨l, hkeeps⟩
    · exact absurd rfl (hdisable i)
  · -- Another response is accepted, of the version that is shown.
    obtain ⟨j, p, he', hp, hdp⟩ := hdatagram _ hd
    have hid : p.requestId = i := by rw [← hg, hdp]
    obtain ⟨-, v, l', hshown, hdecode⟩ :=
      hfresh.version hP hserved hp hid (hq.sent j _ p he' hp hid) hdp
    rw [haccepts.decode, Option.some.injEq, Prod.mk.injEq] at hdecode
    rw [UpToDate, hversion, hdecode.1]
    exact ⟨l', shows_step he hq hm hshown⟩

/-- A fresh response arrives. -/
theorem Fresh.upToDate (hP : P.Lawful) {p : ServerListPacket} {j : ℕ} {beyond : Bytes}
    (hserved : Served P n.run) (hissued : IssuedTo P master es (n.downloaders o))
    (hp : (n.responses o)[j]? = some p) (hid : p.requestId = i) (hk : k ≤ j)
    (henabled : ((n.downloaders o).enabledServerGroupMap i).enabled)
    (hm : ServerListNetwork.step P n (.responseArrives o j beyond) = .ok m)
    (h : Fresh P o i k n) : UpToDate o i m := by
  rw [ServerListNetwork.step, hp] at hm
  obtain ⟨d, hd, rfl⟩ := map_eq_ok hm
  have hself : (n.setDownloader o d).downloaders o = d := Function.update_self ..
  obtain ⟨hcommand, v, l, hshows, hdecode⟩ :=
    h.version (d := { p with beyond := beyond }) hP hserved hp hid hk rfl
  have hstep : (n.downloaders o).step P.codec P.ndebug (.datagram { p with beyond := beyond }) =
    .ok d := hd
  refine ⟨l, ?_⟩
  rw [hself]
  rcases SmallServerListDownloader.groupStep_of_step hissued.consistent hstep i with
    ⟨-, hignored, -, hversion, -, -⟩ | hswitch | ⟨hd', -, haccepts, hversion, -, -⟩
  · -- It is ignored as it is of the version there is.
    by_cases hv : ((n.downloaders o).enabledServerGroupMap i).versionTimestampMS = v
    · rw [hversion, hv]
      exact hshows
    · obtain ⟨-, -, hlt⟩ := (hissued.consistent i).group henabled
      subst hid
      exact absurd ⟨hcommand, hlt, hdecode, henabled, hv⟩ (hignored _ v l rfl rfl)
  · simp at hswitch
  · cases hd'
    have heq := haccepts.decode.symm.trans hdecode
    rw [Option.some.injEq, Prod.mk.injEq] at heq
    rw [hversion, heq.1]
    exact hshows

/-! ## The list is up to date -/

/-- A downloader with the version that is shown has the list of the registered servers. -/
theorem UpToDate.held (hP : P.Lawful)
    (hes : Along (ServerListNetwork.step P) (Expected P) (ServerListNetwork.init master) es)
    (hn : exec (ServerListNetwork.step P) (ServerListNetwork.init master) es = .ok n)
    (h : UpToDate o i n) : ((n.downloaders o).enabledServerGroupMap i).held =
      registeredServers n.run (.ofNat i) := by
  obtain ⟨l, hshows⟩ := h
  have hshown : Shown P master es (.ofNat i) _ l := ⟨es, n, List.prefix_rfl, hn, hshows⟩
  obtain ⟨list, hlist, hdirty, hv, rfl⟩ := hshows
  rcases ((issued_of_exec hP hes hn).downloaders o).held i with ⟨hzero, -⟩ | hheld
  · exact absurd (hv.trans hzero) ((served_of_network hP hes hn).positive _ list hlist hdirty)
  · exact hheld.unique hP hes hshown

variable (P master o i k) in
/-- What holds in a quiet stretch of a run, after the events `es` in all. -/
structure Settling (es : List (ServerListNetworkEvent ω)) (n : ServerListNetwork ω) : Prop where
  expected : Along (ServerListNetwork.step P) (Expected P) (ServerListNetwork.init master) es
  exec : ProxyPlatform.exec (ServerListNetwork.step P) (ServerListNetwork.init master) es = .ok n
  fresh : Fresh P o i k n

namespace Settling

theorem step (hP : P.Lawful) (h : Settling P master o i k es n)
    (he : Expected P n e ∧ Quiet P o i k n e) (hm : ServerListNetwork.step P n e = .ok m) :
    Settling P master o i k (es ++ [e]) m := by
  have hexpected := h.expected.snoc h.exec he.1
  have hexec := (exec_snoc e h.exec).trans hm
  have hposts := ((issued_of_exec hP h.expected h.exec).downloaders o).posts
  exact ⟨hexpected, hexec,
    h.fresh.step hP (served_of_network hP hexpected hexec) hposts he.1 he.2 hm⟩

theorem run (hP : P.Lawful) (h : Settling P master o i k es n)
    (hfs : Along (ServerListNetwork.step P) (fun n e => Expected P n e ∧ Quiet P o i k n e) n fs)
    (hm : ProxyPlatform.exec (ServerListNetwork.step P) n fs = .ok m) :
    Settling P master o i k (es ++ fs) m := by
  refine exec_history_along (I := fun pre s => Settling P master o i k (es ++ pre) s)
    (fun pre s e t hs he ht => ?_) (by rwa [List.append_nil]) hfs hm
  rw [← List.append_assoc]
  exact hs.step hP he ht

/-- A downloader that is up to date stays so. -/
theorem stays (hP : P.Lawful) (h : Settling P master o i k es n) (hup : UpToDate o i n)
    (hfs : Along (ServerListNetwork.step P) (fun n e => Expected P n e ∧ Quiet P o i k n e) n fs)
    (hm : ProxyPlatform.exec (ServerListNetwork.step P) n fs = .ok m) : UpToDate o i m := by
  refine (exec_history_along (I := fun pre s => Settling P master o i k (es ++ pre) s ∧ UpToDate o i s)
    (fun pre s e t hs he ht => ?_) ⟨by rwa [List.append_nil], hup⟩ hfs hm).2
  have hserved := served_of_network hP hs.1.expected hs.1.exec
  have hissued := (issued_of_exec hP hs.1.expected hs.1.exec).downloaders o
  rw [← List.append_assoc]
  exact ⟨hs.1.step hP he ht, hs.2.step hP hserved hissued he.1 he.2 ht hs.1.fresh⟩

end Settling

/-- Once a response arrives that was sent in a quiet stretch of a run, a downloader has the list of the
    servers that are registered, to the end of the stretch. -/
theorem settles (hP : P.Lawful) {t : ServerListNetwork ω} {j : ℕ} {beyond : Bytes}
    {p : ServerListPacket}
    (hexpected : Along (step P) (Expected P) (init master)
      (es ++ (fs ++ .responseArrives o j beyond :: gs)))
    (hn : exec (step P) (init master) es = .ok n) (hm : exec (step P) n fs = .ok m)
    (hquiet : Along (step P) (Quiet P o i (n.responses o).length) n
      (fs ++ .responseArrives o j beyond :: gs))
    (hp : (m.responses o)[j]? = some p) (hid : p.requestId = i)
    (henabled : ((m.downloaders o).enabledServerGroupMap i).enabled)
    (ht : exec (step P) n (fs ++ .responseArrives o j beyond :: gs) = .ok t) :
    ((t.downloaders o).enabledServerGroupMap i).held = registeredServers t.run (.ofNat i) := by
  have hboth := (hexpected.of_append hn).and hquiet
  have hstart : Settling P master o i (n.responses o).length es n := by
    refine ⟨hexpected.of_prefix (List.prefix_append _ _), hn, fun j p hj hp => ?_⟩
    rw [List.getElem?_eq_none hj] at hp
    cases hp
  have hbefore := hstart.run hP (hboth.of_prefix (List.prefix_append _ _)) hm
  obtain ⟨m', hm', hrest⟩ := exec_append_eq_ok.1 ht
  obtain rfl : m' = m := Except.ok.inj (hm'.symm.trans hm)
  obtain ⟨u, hu, hgs⟩ := exec_cons_eq_ok.1 hrest
  have harrives := hboth.of_append hm
  -- The response arrives, and the downloader has the version it is of.
  have hup : UpToDate o i u := hbefore.fresh.upToDate hP
    (served_of_network hP hbefore.expected hbefore.exec)
    ((issued_of_exec hP hbefore.expected hbefore.exec).downloaders o) hp hid
    (harrives.1.2.sent j beyond p rfl hp hid) henabled hu
  have hafter := hbefore.step hP harrives.1 hu
  have hend := hafter.run hP (harrives.2 u hu) hgs
  exact (hafter.stays hP hup (harrives.2 u hu) hgs).held hP hend.expected hend.exec

end Network

/-- A request is answered; then a server is registered in the group. -/
def answered : List (ServerListNetworkEvent Bool) :=
  [.enable false 2, .tick false 1000000, .requestArrives false 1 50, .server (.newServerId 2001 {})]

/-- The request arrives again, and is answered again, before the second response arrives. -/
def answersAgain (n : ServerListNetwork Bool) : Bool :=
  decide ((n.responses false).length = 1) &&
    (exec (step plainSetup) n [.requestArrives false 1 60]).toOption.any fun m =>
      ((m.responses false)[1]?.any fun p => p.requestId = 2) &&
        ((m.downloaders false).enabledServerGroupMap 2).enabled &&
        (exec (step plainSetup) m [.responseArrives false 1 []]).toOption.isSome

theorem settles_answersAgain :
    ∃ n t, exec (step plainSetup) (init {}) answered = .ok n ∧
      exec (step plainSetup) n [.requestArrives false 1 60, .responseArrives false 1 []] = .ok t ∧
      ((t.downloaders false).enabledServerGroupMap 2).held = registeredServers t.run 2 := by
  obtain ⟨n, hn, hcheck⟩ := exists_ok_of_check (x := exec (step plainSetup) (init {}) answered)
    (p := answersAgain) (by decide +kernel)
  rw [answersAgain, Bool.and_eq_true, decide_eq_true_eq] at hcheck
  obtain ⟨hlength, hcheck⟩ := hcheck
  cases hm : exec (step plainSetup) n [.requestArrives false 1 60] with
  | error x =>
    rw [hm] at hcheck
    cases hcheck
  | ok m =>
    rw [hm, Except.toOption, Option.any_some, Bool.and_eq_true, Bool.and_eq_true,
      Option.any_eq_true, Option.isSome_iff_exists] at hcheck
    obtain ⟨⟨⟨p, hp, hid⟩, henabled⟩, t, ht⟩ := hcheck
    have hresponse : exec (step plainSetup) m [.responseArrives false 1 []] = .ok t := by
      cases hexec : exec (step plainSetup) m [.responseArrives false 1 []] with
      | error x =>
        rw [hexec] at ht
        cases ht
      | ok u =>
        rw [hexec] at ht
        cases ht
        rfl
    have hall : exec (step plainSetup) n
        ([.requestArrives false 1 60] ++ .responseArrives false 1 [] :: []) = .ok t :=
      exec_append_eq_ok.2 ⟨m, hm, hresponse⟩
    have hquiet : Along (step plainSetup) (Quiet plainSetup false 2 (n.responses false).length) n
        ([.requestArrives false 1 60] ++ .responseArrives false 1 [] :: []) := by
      rw [hlength]
      refine ⟨⟨fun f hf => ?_, ?_⟩, fun u hu => ⟨⟨?_, ?_⟩, fun _ _ => trivial⟩⟩
      · obtain ⟨post, -, rfl⟩ := Option.map_eq_some_iff.1 (Option.mem_toList.1 hf)
        rintro ⟨serverId, ⟨⟩, -⟩
      · rintro j beyond q ⟨⟩
      · rintro f ⟨⟩
      · rintro j beyond q ⟨rfl, rfl⟩ - -
        exact le_rfl
    exact ⟨n, t, hn, hall, settles plainSetup_lawful (along_of_check (by decide +kernel)) hn hm hquiet
      hp (of_decide_eq_true hid) henabled hall⟩

end ServerListNetwork

end ProxyPlatform
