import ProxyPlatform.LocalDevice.Kill

/-!
# The kill pipeline of the local devices

Runs of a `LocalDeviceManager`, with the connections and the UDP channels together. Every event
is one step of each kind (`exists_step`), so that what holds of the nodes of one kind
(`DeviceNodes.Sound`, `DeviceNodes.Logged`) holds of both after any run.

A tick releases exactly the nodes that were marked or were idle for too long, each once. But it
moves the idle ones to the nodes to kill without a mark, which the pass that kills
asserts: `killsMarked_iff` says that the assertions hold in those runs only in which no tick
finds a node that was idle for too long.
-/

namespace ProxyPlatform

namespace LocalDeviceManager

variable {m : LocalDeviceManager} {nowMS : ℕ} {kind : DeviceNodeKind}

/-- A manager, with what was done to the nodes of each kind. -/
abbrev Traced := LocalDeviceManager × (DeviceNodeKind → List NodeEntry)

/-- Nothing was done so far. -/
def start (nowMS : ℕ) : Traced := (init nowMS, fun _ => [])

/-- The nodes that are kept alive or killed are there, the time does not go back, and
    is not shorter than the timeouts. -/
def Allowed (s : Traced) : LocalDeviceEvent → Prop
  | .create _ => True
  | .keepAlive kind n | .deferKill kind n => ((s.1.nodes kind).pool.get n).isSome = true
  | .tick nowMS => s.1.localTicker ≤ nowMS ∧
    targetConnectionIdleTimeoutMS ≤ nowMS ∧ targetUdpChannelIdleTimeoutMS ≤ nowMS

instance (s : Traced) (e : LocalDeviceEvent) : Decidable (Allowed s e) :=
  match e with
  | .create _ => inferInstanceAs (Decidable True)
  | .keepAlive _ _ | .deferKill _ _ => inferInstanceAs (Decidable (_ = true))
  | .tick _ => inferInstanceAs (Decidable (_ ∧ _))

theorem Allowed.timeoutMS_le {s : Traced} (h : Allowed s (.tick nowMS)) (kind : DeviceNodeKind) :
    timeoutMS kind ≤ nowMS := by
  cases kind with
  | connection => exact h.2.1
  | udpChannel => exact h.2.2

/-! ## One event -/

theorem nodes_setNodes (D : DeviceNodes) (kind : DeviceNodeKind) :
    (m.setNodes D kind).nodes = Function.update m.nodes kind D := by
  funext other
  cases kind <;> cases other <;> rfl

@[simp] theorem localTicker_setNodes (D : DeviceNodes) (kind : DeviceNodeKind) :
    (m.setNodes D kind).localTicker = m.localTicker := by
  cases kind <;> rfl

theorem nodes_processIdle (nowMS : ℕ) (kind : DeviceNodeKind) :
    (m.processIdle nowMS).nodes kind = (m.nodes kind).processIdle nowMS (timeoutMS kind) := by
  cases kind <;> rfl

/-- The passes of a tick treat the two kinds alike. -/
theorem tick_eq {D : DeviceNodeKind → DeviceNodes} {done : DeviceNodeKind → List NodeEntry}
    (h : ∀ kind, ((m.nodes kind).processIdle nowMS (timeoutMS kind)).performKill =
      .ok (D kind, done kind)) :
    m.tick nowMS = .ok (⟨nowMS, D .connection, D .udpChannel⟩, done) := by
  have hconnections : (m.processIdle nowMS).connections.performKill = _ := h .connection
  have hudp : (m.processIdle nowMS).udpChannels.performKill = _ := h .udpChannel
  simp only [tick, performKillConnections, hconnections, performKillUdpChannels, hudp]
  refine congrArg (fun done => Except.ok (_, done)) ?_
  funext kind
  cases kind <;> rfl

/-- What holds between the events. -/
def Good (s : Traced) : Prop :=
  ∀ kind, (s.1.nodes kind).Sound s.1.localTicker ∧ (s.1.nodes kind).Logged (s.2 kind)

theorem good_start (nowMS : ℕ) : Good (start nowMS) := by
  intro kind
  cases kind with
  | connection => exact ⟨.init _, .init _⟩
  | udpChannel => exact ⟨.init _, .init _⟩

/-- An event is one of each kind. -/
def Moves (s t : Traced) : Prop :=
  ∀ kind, ∃ done, t.2 kind = s.2 kind ++ done ∧
    DeviceNodes.NodesStep (timeoutMS kind) s.1.localTicker (s.1.nodes kind) t.1.localTicker
      (t.1.nodes kind) done

/-- An event at the nodes of one kind leaves those of the other. -/
theorem moves_setNodes {s : Traced} {D : DeviceNodes} {done : DeviceNodeKind → List NodeEntry}
    (hother : ∀ other, other ≠ kind → done other = [])
    (h : DeviceNodes.NodesStep (timeoutMS kind) s.1.localTicker (s.1.nodes kind) s.1.localTicker D
      (done kind)) : Moves s (s.1.setNodes D kind, fun k => s.2 k ++ done k) := by
  intro other
  refine ⟨done other, rfl, ?_⟩
  simp only [nodes_setNodes, localTicker_setNodes]
  by_cases hkind : other = kind
  · subst hkind
    simpa only [Function.update_self] using h
  · simpa only [Function.update_of_ne hkind, hother other hkind] using .same

/-- An allowed event leads to a next state. -/
theorem exists_step {s : Traced} {e : LocalDeviceEvent} (hs : Good s) (he : Allowed s e) :
    ∃ t, step s e = .ok t ∧ Moves s t := by
  cases e with
  | create kind =>
    refine ⟨_, rfl, moves_setNodes (fun _ hother => Function.update_of_ne hother _ _) ?_⟩
    rw [Function.update_self]
    rcases ha : (s.1.nodes kind).pool.acquire fun n => ({ localId := n } : DeviceNode) with
      _ | ⟨n, pool⟩ <;> simp only [DeviceNodes.create, ha]
    · exact .same
    · exact .created ha
  | keepAlive kind n =>
    obtain ⟨N, hN⟩ := Option.isSome_iff_exists.1 he
    have hk : ∃ D, (s.1.nodes kind).keepAlive s.1.localTicker n = .ok D := by
      simp only [DeviceNodes.keepAlive, hN]
      split <;> exact ⟨_, rfl⟩
    obtain ⟨D, hD⟩ := hk
    refine ⟨(s.1.setNodes D kind, fun k => s.2 k ++ []), ?_,
      moves_setNodes (fun _ _ => rfl) (.keptAlive hD)⟩
    simp only [step, call, hD]
  | deferKill kind n =>
    obtain ⟨N, hN⟩ := Option.isSome_iff_exists.1 he
    have hk : ∃ D, (s.1.nodes kind).deferKill n = .ok D := by
      simp only [DeviceNodes.deferKill, hN]
      split <;> exact ⟨_, rfl⟩
    obtain ⟨D, hD⟩ := hk
    refine ⟨(s.1.setNodes D kind, fun k => s.2 k ++ []), ?_,
      moves_setNodes (fun _ _ => rfl) (.deferred hD)⟩
    simp only [step, call, hD]
  | tick nowMS =>
    have hkill : ∀ kind, ∃ D done,
        ((s.1.nodes kind).processIdle nowMS (timeoutMS kind)).performKill = .ok (D, done) :=
      fun kind => ⟨_, _, (hs kind).1.performKill⟩
    choose D done hkill using hkill
    refine ⟨(⟨nowMS, D .connection, D .udpChannel⟩, fun k => s.2 k ++ done k), ?_,
      fun kind => ⟨done kind, rfl, ?_⟩⟩
    · simp only [step, call, tick_eq hkill]
    · cases kind with
      | connection => exact .ticked he.1 (hkill .connection)
      | udpChannel => exact .ticked he.1 (hkill .udpChannel)

theorem Good.moves {s t : Traced} (hs : Good s) (h : Moves s t) : Good t := by
  intro kind
  obtain ⟨done, hlog, hstep⟩ := h kind
  rw [hlog]
  exact ⟨(hs kind).1.step hstep, (hs kind).2.step (hs kind).1 hstep⟩

theorem Good.step {s t : Traced} {e : LocalDeviceEvent} (hs : Good s) (he : Allowed s e)
    (h : step s e = .ok t) : Good t := by
  obtain ⟨u, hu, hmoves⟩ := exists_step hs he
  cases hu.symm.trans h
  exact hs.moves hmoves

/-- What a tick leaves of the nodes. -/
theorem nodes_tick {s t : Traced} (hs : Good s) (h : step s (.tick nowMS) = .ok t)
    (kind : DeviceNodeKind) : t.1.nodes kind =
      ((s.1.nodes kind).processIdle nowMS (timeoutMS kind)).releaseAll
        ((s.1.nodes kind).killed (sub64 nowMS (timeoutMS kind))) ∧
    t.2 kind = s.2 kind ++ ((s.1.nodes kind).killed (sub64 nowMS (timeoutMS kind))).flatMap
      (s.1.nodes kind).killEntries := by
  simp only [step, call, tick_eq fun kind => (hs kind).1.performKill] at h
  cases h
  cases kind <;> exact ⟨rfl, rfl⟩

/-! ## A run -/

/-- The nodes to kill are marked, also where the passes of a tick take them. -/
def NodesMarked (s : Traced) (e : LocalDeviceEvent) : Prop :=
  (∀ kind, (s.1.nodes kind).KillMarked) ∧
    ∀ nowMS, e = .tick nowMS → ∀ kind, ((s.1.processIdle nowMS).nodes kind).KillMarked

/-- No node to kill is kept alive, and a node that is to be killed is marked. -/
def StaysMarked (s : Traced) (e : LocalDeviceEvent) : Prop :=
  ∀ t, step s e = .ok t →
    (∀ kind n, e = .keepAlive kind n → ∀ other, ∀ j ∈ (s.1.nodes other).lists.nodes .kill,
      j ∈ (t.1.nodes other).lists.nodes .kill) ∧
    ∀ kind n, e = .deferKill kind n →
      ∃ N, (t.1.nodes kind).pool.get n = some N ∧ N.killMark = true

/-- A tick releases the nodes that are marked or were idle for too long, and no others. -/
def TickReleases (s : Traced) (e : LocalDeviceEvent) : Prop :=
  ∀ nowMS t, e = .tick nowMS → step s e = .ok t → ∀ kind n,
    ((s.1.nodes kind).pool.get n).isSome = true →
      ((t.1.nodes kind).pool.get n = none ↔
        (∃ N, (s.1.nodes kind).pool.get n = some N ∧ N.killMark = true) ∨
          (s.1.nodes kind).Overdue (timeoutMS kind) nowMS n)

/-- A run on the events `es` that leads to `t` kills the nodes as it should. -/
structure KillsMarked (nowMS : ℕ) (es : List LocalDeviceEvent) (t : Traced) : Prop where
  /-- The nodes to kill are marked at any time, -/
  marked : Along step NodesMarked (start nowMS) es
  /-- so that no assertion fails, -/
  asserted : ∀ kind n, .asserted n false ∉ t.2 kind
  /-- none escapes, -/
  stays : Along step StaysMarked (start nowMS) es
  /-- none is missed, -/
  releases : Along step TickReleases (start nowMS) es
  /-- and a node is cleaned and released once, if it is no longer live. -/
  once : ∀ kind n, .created n ∈ t.2 kind → ∀ e, e = .cleaned n ∨ e = .released n →
    (t.2 kind).count e = if ((t.1.nodes kind).pool.get n).isSome = true then 0 else 1

/-- No tick finds a node that was idle for too long. -/
def NoneOverdue (s : Traced) : LocalDeviceEvent → Prop
  | .tick nowMS => ∀ kind n, ¬(s.1.nodes kind).Overdue (timeoutMS kind) nowMS n
  | _ => True

theorem nodesMarked_iff {s : Traced} {e : LocalDeviceEvent} (hs : Good s) (he : Allowed s e) :
    NodesMarked s e ↔ NoneOverdue s e := by
  have hmarked : ∀ kind, (s.1.nodes kind).KillMarked := fun kind => (hs kind).1.killMarked
  cases e with
  | tick nowMS =>
    have htick (kind : DeviceNodeKind) : ((s.1.processIdle nowMS).nodes kind).KillMarked ↔
        ∀ n, ¬(s.1.nodes kind).Overdue (timeoutMS kind) nowMS n := by
      rw [nodes_processIdle]
      exact (hs kind).1.killMarked_processIdle (he.timeoutMS_le kind)
    constructor
    · exact fun h kind => (htick kind).1 (h.2 nowMS rfl kind)
    · rintro h
      refine ⟨hmarked, fun _ heq kind => ?_⟩
      cases heq
      exact (htick kind).2 (h kind)
  | create _ | keepAlive _ _ | deferKill _ _ =>
    exact iff_of_true ⟨hmarked, fun _ h => by cases h⟩ trivial

theorem staysMarked {s : Traced} {e : LocalDeviceEvent} (hs : Good s) : StaysMarked s e := by
  intro t ht
  refine ⟨fun kind n he other j hj => ?_, fun kind n he => ?_⟩
  · subst he
    rcases hk : (s.1.nodes kind).keepAlive s.1.localTicker n with x | D <;>
      simp only [step, call, hk] at ht <;> cases ht
    simp only [nodes_setNodes]
    by_cases hother : other = kind
    · subst hother
      rw [Function.update_self, (hs other).1.nodes_kill_keepAlive hk]
      exact hj
    · rwa [Function.update_of_ne hother]
  · subst he
    rcases hk : (s.1.nodes kind).deferKill n with x | D <;>
      simp only [step, call, hk] at ht <;> cases ht
    simp only [nodes_setNodes, Function.update_self]
    exact DeviceNodes.marked_of_deferKill hk

theorem tickReleases {s : Traced} {e : LocalDeviceEvent} (hs : Good s) (he : Allowed s e) :
    TickReleases s e := by
  rintro nowMS t rfl ht kind n hlive
  rw [(nodes_tick hs ht kind).1]
  exact (hs kind).1.get_tick (he.timeoutMS_le kind) hlive

/-- The assertions hold as long as no tick finds a node that was idle for too long. -/
theorem asserted_step {s t : Traced} {e : LocalDeviceEvent} (hs : Good s) (he : Allowed s e)
    (hnone : NoneOverdue s e) (ht : step s e = .ok t)
    (h : ∀ kind n, .asserted n false ∉ s.2 kind) (kind : DeviceNodeKind) (n : ℕ) :
    .asserted n false ∉ t.2 kind := by
  cases e with
  | tick nowMS =>
    rw [(nodes_tick hs ht kind).2, List.mem_append]
    refine not_or.2 ⟨h kind n, fun hmem => ?_⟩
    obtain ⟨j, hj, hmem⟩ := List.mem_flatMap.1 hmem
    -- the node is marked, as it was not idle for too long
    obtain ⟨N, hN, hmark⟩ := (((hs kind).1.mem_killed (he.timeoutMS_le kind)).1 hj).resolve_right
      (hnone kind j)
    simp [DeviceNodes.killEntries, DeviceNodes.markOf_of_get hN, hmark] at hmem
  | create other =>
    cases ht
    rw [List.mem_append]
    refine not_or.2 ⟨h kind n, ?_⟩
    by_cases hkind : kind = other
    · subst hkind
      rw [Function.update_self]
      rcases ha : (s.1.nodes kind).pool.acquire fun n => ({ localId := n } : DeviceNode) with
        _ | ⟨j, pool⟩ <;> simp [DeviceNodes.create, ha]
    · simp [Function.update_of_ne hkind]
  | keepAlive other j =>
    rcases hk : (s.1.nodes other).keepAlive s.1.localTicker j with x | D <;>
      simp only [step, call, hk] at ht <;> cases ht
    simpa using h kind n
  | deferKill other j =>
    rcases hk : (s.1.nodes other).deferKill j with x | D <;>
      simp only [step, call, hk] at ht <;> cases ht
    simpa using h kind n

/-- A run kills the nodes as it should if and only if none was idle for too long at a tick. -/
theorem killsMarked_iff {nowMS : ℕ} {es : List LocalDeviceEvent}
    (hA : Along step Allowed (start nowMS) es) :
    ∃ t, exec step (start nowMS) es = .ok t ∧
      (KillsMarked nowMS es t ↔ Along step NoneOverdue (start nowMS) es) := by
  have hstart := good_start nowMS
  obtain ⟨t, ht, hgood⟩ := exists_exec_along (I := Good) (fun s e hs he =>
    have ⟨u, hu, hmoves⟩ := exists_step hs he
    ⟨u, hu, hs.moves hmoves⟩) hstart hA
  have hmarked : Along step NodesMarked (start nowMS) es ↔ Along step NoneOverdue (start nowMS) es :=
    hA.congr (fun _ _ => nodesMarked_iff) (fun _ _ _ => Good.step) hstart
  refine ⟨t, ht, fun h => hmarked.1 h.marked, fun h => ⟨hmarked.2 h, ?_, ?_, ?_, ?_⟩⟩
  · refine (exec_invariant_along (I := fun s => Good s ∧ ∀ kind n, .asserted n false ∉ s.2 kind)
      (fun s e u hs hC hu => ?_) ⟨hstart, fun _ _ => List.not_mem_nil⟩ (hA.and h) ht).2
    exact ⟨hs.1.step hC.1 hu, asserted_step hs.1 hC.1 hC.2 hu hs.2⟩
  · exact hA.of_invariant (I := Good) (fun _ _ hs _ => staysMarked hs) (fun _ _ _ => Good.step) hstart
  · exact hA.of_invariant (I := Good) (fun _ _ => tickReleases) (fun _ _ _ => Good.step) hstart
  · exact fun kind => (hgood kind).2.count

/-- A connection is kept alive and killed by its service, a channel is kept alive until a tick. -/
def killedInTime : List LocalDeviceEvent :=
  [.create .connection, .create .udpChannel, .keepAlive .connection 1, .deferKill .connection 1,
    .keepAlive .connection 1, .tick 125000, .keepAlive .udpChannel 1, .tick 200000]

theorem killsMarked_iff_inTime : ∃ t, exec step (start 125000) killedInTime = .ok t ∧
    (KillsMarked 125000 killedInTime t ↔ Along step NoneOverdue (start 125000) killedInTime) :=
  killsMarked_iff (along_of_check (by decide))

/-- A connection that is kept alive, and then idle for the time of the timeout. -/
def idleTooLong : List LocalDeviceEvent :=
  [.create .connection, .keepAlive .connection 1, .tick 125000]

theorem killsMarked_counterexample : ¬∀ nowMS es t, Along step Allowed (start nowMS) es →
    exec step (start nowMS) es = .ok t → KillsMarked nowMS es t := by
  intro h
  obtain ⟨t, ht, hfails⟩ := exists_ok_of_check (x := exec step (start 0) idleTooLong)
    (p := fun t => decide (.asserted 1 false ∈ t.2 .connection)) (by decide)
  exact (h 0 idleTooLong t (along_of_check (by decide)) ht).asserted .connection 1
    (of_decide_eq_true hfails)

end LocalDeviceManager

end ProxyPlatform
