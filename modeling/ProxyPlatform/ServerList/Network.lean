import ProxyPlatform.Base.Project
import ProxyPlatform.ServerList.Checksum
import ProxyPlatform.ServerList.Downloader
import ProxyPlatform.ServerList.Versions

/-!
# The server list server and the downloaders

The server and those that download its lists (the relays, the dispatchers, the device entries and
the collectors), with the datagrams between them. A request that was posted may arrive at the
server at any time, any number of times or never; so may a response at whom it was sent to, with
anything behind it in the receive buffer. The server is asked by others, too, and called by the
id service.

A downloader asks for the list of a group under the group as the request id, and the response comes
under the id of the request. No service disables a group.

For the server the network is a run of its own events (`serverEvents`).
-/

namespace ProxyPlatform

/-- What the network is made of that is not in the repository: how messages are written and read, and
    server ids taken apart; and which build the downloaders are. -/
structure ServerListSetup where
  codec : StreamCodec
  extractServerId : ℕ → UInt8 × ℕ
  writeServerGroup : UInt8 → Bytes
  readServerGroup : Bytes → Option UInt8
  ndebug : Bool

/-- What is written is read back, and no server has the id 0. -/
structure ServerListSetup.Lawful (P : ServerListSetup) : Prop where
  codec : P.codec.Lawful
  extract : (P.extractServerId 0).2 = 0
  group : ∀ g, P.readServerGroup (P.writeServerGroup g) = some g

/-- What happens in the network. -/
inductive ServerListNetworkEvent (ω : Type)
  | server (e : ServerListEvent)
  | enable (o : ω) (type : ℕ)
  | tick (o : ω) (nowMS : ℕ)
  | requestArrives (o : ω) (i : ℕ) (timestampMS : UInt64)
  | responseArrives (o : ω) (i : ℕ) (beyond : Bytes)

/-- The network: the server, the downloaders, and the responses sent to each of them so far. -/
structure ServerListNetwork (ω : Type) where
  run : ServerListRun
  downloaders : ω → SmallServerListDownloader
  responses : ω → List ServerListPacket

namespace ServerListNetwork

variable {ω : Type} (P : ServerListSetup)

/-- The network before any event, with the address of the server. -/
def init (master : NetAddress) : ServerListNetwork ω where
  run := .init
  downloaders _ := .init master
  responses _ := []

/-- A step of the server. -/
abbrev serverStep (r : ServerListRun) (e : ServerListEvent) : Except Fault ServerListRun :=
  ServerListRun.step P.codec P.extractServerId P.readServerGroup r e

/-- The request a downloader has posted, as the server reads it. -/
def requestOf (post : ServerListPost) (timestampMS : UInt64) : ServerListEvent :=
  .downloadList cmdDownloadSmallServerList post.requestId
    (P.writeServerGroup (.ofNat post.serverGroup)) timestampMS

/-- The event of the server in an event of the network, if there is one. -/
def serverEvents (n : ServerListNetwork ω) : ServerListNetworkEvent ω → List ServerListEvent
  | .server e => [e]
  | .requestArrives o i timestampMS =>
    ((n.downloaders o).posts[i]?.map (requestOf P · timestampMS)).toList
  | _ => []

/-- The id service registers a server at an address of its family. -/
def RegistersWellFormed : ServerListEvent → Prop
  | .newServerId serverId exportAddress => ServerInfo.WellFormed ⟨serverId, exportAddress⟩
  | _ => True

/-- The id service calls for enabled groups, with at most one live id for each object id; and no
    response is built anew for a list with the greatest version there is. -/
structure ServerExpected (r : ServerListRun) (e : ServerListEvent) : Prop where
  oneLive : r.OneLive P.extractServerId e
  unwrapped : r.Unwrapped P.readServerGroup e
  wellFormed : RegistersWellFormed e

/-- What the server is asked or called for is expected. -/
def Expected (n : ServerListNetwork ω) (e : ServerListNetworkEvent ω) : Prop :=
  ∀ f ∈ serverEvents P n e, ServerExpected P n.run f

section serverEvents

variable {P} {n : ServerListNetwork ω} {e : ServerListNetworkEvent ω}

/-- An event of the network is one of the server at most. -/
theorem serverEvents_cases : serverEvents P n e = [] ∨ ∃ f, serverEvents P n e = [f] := by
  cases e with
  | server e => exact .inr ⟨e, rfl⟩
  | enable o type => exact .inl rfl
  | tick o nowMS => exact .inl rfl
  | requestArrives o i timestampMS =>
    rw [serverEvents]
    cases (n.downloaders o).posts[i]? with
    | none => exact .inl rfl
    | some post => exact .inr ⟨_, rfl⟩
  | responseArrives o i beyond => exact .inl rfl

theorem along_serverEvents (h : Expected P n e) :
    Along (serverStep P) (ServerExpected P) n.run (serverEvents P n e) := by
  rcases serverEvents_cases (P := P) (n := n) (e := e) with hnil | ⟨f, hf⟩
  · rw [hnil]
    trivial
  · rw [hf]
    exact ⟨h f (hf ▸ List.mem_singleton_self f), fun _ _ => trivial⟩

end serverEvents

variable [DecidableEq ω]

/-- A downloader has changed. -/
def setDownloader (n : ServerListNetwork ω) (o : ω) (d : SmallServerListDownloader) :
    ServerListNetwork ω :=
  { n with downloaders := Function.update n.downloaders o d }

/-- A response is on its way to whom it was asked for by. -/
def respond (n : ServerListNetwork ω) (o : ω) (run : ServerListRun) : ServerListNetwork ω :=
  { n with
    run := run
    responses := Function.update n.responses o
      (n.responses o ++ run.server.sent.drop n.run.server.sent.length) }

/-- One event. -/
def step (n : ServerListNetwork ω) :
    ServerListNetworkEvent ω → Except Fault (ServerListNetwork ω)
  | .server e => (serverStep P n.run e).map fun run => { n with run := run }
  | .enable o type => ((n.downloaders o).enableServerGroup type).map (n.setDownloader o)
  | .tick o nowMS => .ok (n.setDownloader o ((n.downloaders o).tick P.ndebug nowMS))
  | .requestArrives o i timestampMS => match (n.downloaders o).posts[i]? with
    | none => .ok n
    | some post => (serverStep P n.run (requestOf P post timestampMS)).map (n.respond o)
  | .responseArrives o i beyond => match (n.responses o)[i]? with
    | none => .ok n
    | some p =>
      ((n.downloaders o).onUdpPacket P.codec { p with beyond := beyond }).map (n.setDownloader o)

/-- The events of the server in a run of the network. -/
def serverRun (n : ServerListNetwork ω) (es : List (ServerListNetworkEvent ω)) :
    List ServerListEvent :=
  collectAlong (step P) (serverEvents P) n es

variable {P} {n t : ServerListNetwork ω} {es : List (ServerListNetworkEvent ω)}
  {e : ServerListNetworkEvent ω}

/-! ## The run of the server -/

theorem exec_serverEvents (h : step P n e = .ok t) :
    exec (serverStep P) n.run (serverEvents P n e) = .ok t.run := by
  cases e with
  | server e =>
    obtain ⟨run, hrun, rfl⟩ := map_eq_ok h
    rw [serverEvents, exec_cons_of_ok [] hrun]
    rfl
  | enable o type =>
    obtain ⟨d, -, rfl⟩ := map_eq_ok h
    rfl
  | tick o nowMS =>
    cases h
    rfl
  | requestArrives o i timestampMS =>
    rw [step] at h
    split at h
    · next hpost =>
      cases h
      rw [serverEvents, hpost]
      rfl
    · next post hpost =>
      obtain ⟨run, hrun, rfl⟩ := map_eq_ok h
      rw [serverEvents, hpost]
      exact exec_cons_of_ok [] hrun
  | responseArrives o i beyond =>
    rw [step] at h
    split at h
    · cases h
      rfl
    · obtain ⟨d, -, rfl⟩ := map_eq_ok h
      rfl

/-- For the server, a run of the network is a run of its own. -/
theorem exec_serverRun (h : exec (step P) n es = .ok t) :
    exec (serverStep P) n.run (serverRun P n es) = .ok t.run :=
  exec_project (fun _ _ _ => exec_serverEvents) h

theorem along_serverRun (h : exec (step P) n es = .ok t) (hes : Along (step P) (Expected P) n es) :
    Along (serverStep P) (ServerExpected P) n.run (serverRun P n es) :=
  Along.project (fun _ _ _ => exec_serverEvents) (fun _ _ => along_serverEvents) h hes

/-! ## The run of a downloader -/

/-- A downloader does not change in an event, or by one of its own: it disables no group, and a datagram
    it receives is a response that was sent to it. -/
theorem downloader_step (h : step P n e = .ok t) (o : ω) :
    t.downloaders o = n.downloaders o ∨
      ∃ f, (n.downloaders o).step P.codec P.ndebug f = .ok (t.downloaders o) ∧
        (∀ i, f ≠ .disable i) ∧ ∀ d, f = .datagram d → ∃ j p, e = .responseArrives o j d.beyond ∧
          (n.responses o)[j]? = some p ∧ d = { p with beyond := d.beyond } := by
  have hset {o' : ω} {d : SmallServerListDownloader} {f : DownloaderEvent}
      (hd : (n.downloaders o').step P.codec P.ndebug f = .ok d) :
      (n.setDownloader o' d).downloaders o = n.downloaders o ∨ o' = o ∧
        (n.downloaders o).step P.codec P.ndebug f = .ok ((n.setDownloader o' d).downloaders o) := by
    by_cases heq : o' = o
    · subst heq
      have hself : (n.setDownloader o' d).downloaders o' = d := Function.update_self ..
      exact .inr ⟨rfl, hself.symm ▸ hd⟩
    · exact .inl (Function.update_of_ne (Ne.symm heq) ..)
  cases e with
  | server f =>
    obtain ⟨run, -, rfl⟩ := map_eq_ok h
    exact .inl rfl
  | enable o' type =>
    obtain ⟨d, hd, rfl⟩ := map_eq_ok h
    refine (hset (f := .enable type) hd).imp_right fun hown => ⟨_, hown.2, by simp, ?_⟩
    rintro d' ⟨⟩
  | tick o' nowMS =>
    cases h
    refine (hset (f := .tick nowMS) rfl).imp_right fun hown => ⟨_, hown.2, by simp, ?_⟩
    rintro d' ⟨⟩
  | requestArrives o' i timestampMS =>
    rw [step] at h
    split at h
    · cases h
      exact .inl rfl
    · obtain ⟨run, -, rfl⟩ := map_eq_ok h
      exact .inl rfl
  | responseArrives o' i beyond =>
    rw [step] at h
    split at h
    · cases h
      exact .inl rfl
    next p hp =>
    obtain ⟨d, hd, rfl⟩ := map_eq_ok h
    refine (hset (f := .datagram { p with beyond := beyond }) hd).imp_right fun hown =>
      ⟨_, hown.2, by simp, ?_⟩
    rintro d' ⟨⟩
    exact ⟨i, p, hown.1 ▸ rfl, hown.1 ▸ hp, rfl⟩

/-- Nothing is sent to a downloader in an event, or what the server sends when its request arrives. -/
theorem responses_step (h : step P n e = .ok t) (o : ω) :
    t.responses o = n.responses o ∨ ∃ (i : ℕ) (timestampMS : UInt64) (post : ServerListPost),
      (n.downloaders o).posts[i]? = some post ∧
      serverStep P n.run (requestOf P post timestampMS) = .ok t.run ∧
      t.responses o = n.responses o ++ t.run.server.sent.drop n.run.server.sent.length := by
  cases e with
  | server f =>
    obtain ⟨run, -, rfl⟩ := map_eq_ok h
    exact .inl rfl
  | enable o' type =>
    obtain ⟨d, -, rfl⟩ := map_eq_ok h
    exact .inl rfl
  | tick o' nowMS =>
    cases h
    exact .inl rfl
  | requestArrives o' i timestampMS =>
    rw [step] at h
    split at h
    · cases h
      exact .inl rfl
    next post hpost =>
    obtain ⟨run, hrun, rfl⟩ := map_eq_ok h
    by_cases heq : o' = o
    · subst heq
      exact .inr ⟨i, timestampMS, post, hpost, hrun, Function.update_self ..⟩
    · exact .inl (Function.update_of_ne (Ne.symm heq) ..)
  | responseArrives o' i beyond =>
    rw [step] at h
    split at h
    · cases h
      exact .inl rfl
    · obtain ⟨d, -, rfl⟩ := map_eq_ok h
      exact .inl rfl

end ServerListNetwork

end ProxyPlatform
