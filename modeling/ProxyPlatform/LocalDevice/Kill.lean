import ProxyPlatform.LocalDevice.Basic

/-!
# What happens to a node

The nodes of one kind, by what each operation does to them. Between the events the lists and
the marks agree (`DeviceNodes.Sound`): the idle nodes are not marked, those to kill are exactly
the marked ones. The passes of a tick move the nodes that were idle for too long, without a
mark, and release whatever is to kill (`tick_spec`); a node that was created is cleaned and
released once if it is no longer live, and was not if it is (`DeviceNodes.Logged`).
-/

namespace ProxyPlatform

namespace DeviceNodes

variable {D D' : DeviceNodes} {now now' timeoutMS n j : ℕ} {N : DeviceNode}

/-! ## The pass that kills -/

/-- The mark of a node. -/
def markOf (D : DeviceNodes) (n : ℕ) : Bool := ((D.pool.get n).map DeviceNode.killMark).getD false

/-- What is done to a node that is killed. -/
def killEntries (D : DeviceNodes) (n : ℕ) : List NodeEntry :=
  [.asserted n (D.markOf n), .cleaned n, .released n]

/-- The nodes `l` are released. -/
def releaseAll (D : DeviceNodes) (l : List ℕ) : DeviceNodes where
  pool := l.foldl Storage.release D.pool
  lists := l.foldl Linked.unlink D.lists

theorem get_releaseAll (l : List ℕ) :
    (D.releaseAll l).pool.get j = if j ∈ l then none else D.pool.get j :=
  Storage.get_foldl_release _ _ _

theorem markOf_of_get (h : D.pool.get n = some N) : D.markOf n = N.killMark := by
  rw [markOf, h]
  rfl

/-- The pass kills the nodes of its list, each live and under its own id, in order. -/
theorem performKillLoop_spec {l : List ℕ} (hl : D.lists.nodes .kill = l)
    (hD : ∀ n ∈ l, ∃ N, D.pool.get n = some N ∧ N.localId = n) :
    performKillLoop l.length D = .ok (D.releaseAll l, l.flatMap D.killEntries) := by
  induction l generalizing D with
  | nil => rfl
  | cons n l ih =>
    obtain ⟨N, hN, hid⟩ := hD n List.mem_cons_self
    have hnodup := D.lists.nodup .kill
    rw [hl, List.nodup_cons] at hnodup
    -- the node that is taken is not seen again
    have hother {j : ℕ} (hj : j ∈ l) : (D.pool.release n).get j = D.pool.get j := by
      rw [Storage.get_release, if_neg (ne_of_mem_of_not_mem hj hnodup.1)]
    have hrelease : release { D with lists := D.lists.unlink n } N.localId =
        .ok { pool := D.pool.release n, lists := D.lists.unlink n } := by
      rw [hid]
      simp only [release, hN, Linked.unlink_unlink]
    have hrest := ih (D := { pool := D.pool.release n, lists := D.lists.unlink n })
      (Linked.nodes_unlink_of_cons hl) fun j hj => by
        obtain ⟨M, hM, hj'⟩ := hD j (List.mem_cons_of_mem n hj)
        exact ⟨M, (hother hj).trans hM, hj'⟩
    have hentries : l.flatMap (killEntries { pool := D.pool.release n, lists := D.lists.unlink n }) =
        l.flatMap D.killEntries :=
      List.flatMap_congr fun j hj => by simp only [killEntries, markOf, hother hj]
    rw [List.length_cons, performKillLoop, Linked.popHead_of_cons hl]
    simp only [hN, hrelease, hrest]
    rw [hentries, hid, List.flatMap_cons, killEntries, markOf_of_get hN]
    rfl

/-- How often a node is cleaned by the pass, and released. -/
theorem count_killEntries (D : DeviceNodes) (l : List ℕ) :
    (l.flatMap D.killEntries).count (.cleaned n) = l.count n ∧
      (l.flatMap D.killEntries).count (.released n) = l.count n := by
  induction l with
  | nil => exact ⟨rfl, rfl⟩
  | cons k l ih =>
    simp only [List.flatMap_cons, List.count_append, ih.1, ih.2, killEntries, List.count_cons]
    simp [Nat.add_comm]

/-! ## The lists and the marks -/

/-- What holds between the events. -/
structure Sound (now : ℕ) (D : DeviceNodes) : Prop where
  localId : ∀ n N, D.pool.get n = some N → N.localId = n
  idle : ∀ n ∈ D.lists.nodes .idle, ∃ N, D.pool.get n = some N ∧ N.killMark = false
  kill : ∀ n, n ∈ D.lists.nodes .kill ↔ ∃ N, D.pool.get n = some N ∧ N.killMark = true
  stamped : Stamped (D.pool.stamps DeviceNode.keepAliveTimestamp) now (D.lists.nodes .idle)

/-- The node `n` was not kept alive for the time of the timeout. -/
def Overdue (timeoutMS now : ℕ) (D : DeviceNodes) (n : ℕ) : Prop :=
  n ∈ D.lists.nodes .idle ∧ ∃ N, D.pool.get n = some N ∧ N.keepAliveTimestamp + timeoutMS ≤ now

/-- The nodes to kill are marked. -/
def KillMarked (D : DeviceNodes) : Prop :=
  ∀ n ∈ D.lists.nodes .kill, ∃ N, D.pool.get n = some N ∧ N.killMark = true

namespace Sound

theorem init (poolSize : ℕ) : Sound now (init poolSize) where
  localId _ _ h := by cases h
  idle _ h := absurd h List.not_mem_nil
  kill _ := ⟨fun h => absurd h List.not_mem_nil, fun ⟨_, h, _⟩ => by cases h⟩
  stamped := Stamped.nil

/-- The idle nodes are not marked, and those to kill are. -/
theorem killMarked (h : Sound now D) : D.KillMarked := fun n hn => (h.kill n).1 hn

theorem create {pool : Storage DeviceNode} (h : Sound now D)
    (ha : (D.pool.acquire fun n => { localId := n }) = some (n, pool)) :
    Sound now { D with pool := pool } := by
  have hget := Storage.get_acquire ha
  have hnone := Storage.get_of_acquire ha
  refine ⟨fun j M hM => ?_, fun j hj => ?_, fun j => ?_, h.stamped.acquire ha⟩
  · rw [hget] at hM
    split at hM
    · next hj =>
      cases hM
      exact hj.symm
    · exact h.localId j M hM
  · obtain ⟨M, hM, hmark⟩ := h.idle j hj
    have hne : j ≠ n := by
      rintro rfl
      rw [hnone] at hM
      cases hM
    exact ⟨M, by rw [hget, if_neg hne, hM], hmark⟩
  · rw [h.kill, hget]
    split
    · next hj =>
      rw [hj, hnone]
      exact iff_of_false (fun ⟨_, hM, _⟩ => by cases hM) fun ⟨_, hM, hmark⟩ => by
        cases hM
        cases hmark
    · exact Iff.rfl

/-- A node is written to, under its id, and moved to the list that its mark says. -/
theorem set {M : DeviceNode} {ℓ : DeviceNodeList} (h : Sound now D) (hN : D.pool.get n = some N)
    (hid : M.localId = N.localId) (hmark : M.killMark = true ↔ ℓ = .kill)
    (hstamped : Stamped ((D.pool.set n M).stamps DeviceNode.keepAliveTimestamp) now
      ((D.lists.grabTail ℓ n).nodes .idle)) :
    Sound now { pool := D.pool.set n M, lists := D.lists.grabTail ℓ n } := by
  have hget := Storage.get_set hN M
  refine ⟨fun j K hK => ?_, fun j hj => ?_, fun j => ?_, hstamped⟩
  · rw [hget] at hK
    split at hK
    · next hj =>
      cases hK
      rw [hj, hid, h.localId n N hN]
    · exact h.localId j K hK
  · rw [hget]
    by_cases hjn : j = n
    · rw [Linked.mem_grabTail_self hjn] at hj
      refine ⟨M, if_pos hjn, ?_⟩
      rw [← Bool.not_eq_true, hmark, ← hj]
      exact fun h => by cases h
    · rw [if_neg hjn]
      exact h.idle j ((Linked.mem_grabTail_of_ne hjn).1 hj)
  · rw [hget]
    by_cases hjn : j = n
    · rw [Linked.mem_grabTail_self hjn, if_pos hjn]
      constructor
      · exact fun hℓ => ⟨M, rfl, hmark.2 hℓ.symm⟩
      · rintro ⟨K, hK, hKmark⟩
        cases hK
        exact (hmark.1 hKmark).symm
    · rw [Linked.mem_grabTail_of_ne hjn, if_neg hjn]
      exact h.kill j

theorem keepAlive (h : Sound now D) (hk : D.keepAlive now n = .ok D') : Sound now D' := by
  rcases hN : D.pool.get n with _ | N <;> simp only [DeviceNodes.keepAlive, hN] at hk
  · cases hk
  · split at hk <;> cases hk
    · exact h
    · next hmark =>
      exact h.set hN rfl (iff_of_false hmark (by decide)) (h.stamped.touch hN rfl)

theorem deferKill (h : Sound now D) (hk : D.deferKill n = .ok D') : Sound now D' := by
  rcases hN : D.pool.get n with _ | N <;> simp only [DeviceNodes.deferKill, hN] at hk
  · cases hk
  · split at hk <;> cases hk
    · exact h
    · refine h.set hN rfl (iff_of_true rfl rfl) ?_
      rw [Linked.nodes_grabTail_of_ne (by decide)]
      exact h.stamped.set hN rfl List.filter_sublist

/-- Keeping a node alive leaves the nodes to kill. -/
theorem nodes_kill_keepAlive (h : Sound now D) (hk : D.keepAlive now n = .ok D') :
    D'.lists.nodes .kill = D.lists.nodes .kill := by
  rcases hN : D.pool.get n with _ | N <;> simp only [DeviceNodes.keepAlive, hN] at hk
  · cases hk
  · split at hk <;> cases hk
    · rfl
    · next hmark =>
      rw [Linked.nodes_grabTail_of_ne (by decide), List.filter_eq_self]
      intro j hj
      refine decide_eq_true fun hjn => hmark ?_
      obtain ⟨M, hM, hmarked⟩ := h.killMarked j hj
      rw [hjn, hN] at hM
      cases hM
      exact hmarked

end Sound

/-- A node that is to be killed is marked. -/
theorem marked_of_deferKill (hk : D.deferKill n = .ok D') :
    ∃ N, D'.pool.get n = some N ∧ N.killMark = true := by
  rcases hN : D.pool.get n with _ | N <;> simp only [DeviceNodes.deferKill, hN] at hk
  · cases hk
  · split at hk <;> cases hk
    · next hmark => exact ⟨N, hN, hmark⟩
    · exact ⟨_, Storage.get_set_self hN _, rfl⟩

/-! ## A tick -/

/-- The nodes that a tick releases: those to kill, and the idle ones that are due. -/
def killed (D : DeviceNodes) (killTimepoint : ℕ) : List ℕ :=
  D.lists.nodes .kill ++ (D.lists.nodes .idle).takeWhile (D.isDue killTimepoint)

theorem nodes_kill_processIdle :
    (D.processIdle now timeoutMS).lists.nodes .kill = D.killed (sub64 now timeoutMS) := rfl

theorem nodes_idle_processIdle :
    (D.processIdle now timeoutMS).lists.nodes .idle =
      (D.lists.nodes .idle).dropWhile (D.isDue (sub64 now timeoutMS)) := rfl

namespace Sound

/-- The idle nodes that a tick finds due are those that were idle for too long. -/
theorem mem_due (h : Sound now D) (ht : timeoutMS ≤ now') :
    n ∈ (D.lists.nodes .idle).takeWhile (D.isDue (sub64 now' timeoutMS)) ↔
      D.Overdue timeoutMS now' n := by
  rw [sub64_of_le ht]
  constructor
  · intro hn
    have hmem := (List.takeWhile_sublist _).subset hn
    obtain ⟨N, hN, -⟩ := h.idle n hmem
    have hdue := List.mem_takeWhile_imp hn
    simp only [isDue, hN, decide_eq_true_eq] at hdue
    exact ⟨hmem, N, hN, (Nat.le_sub_iff_add_le ht).1 hdue⟩
  · rintro ⟨hmem, N, hN, hle⟩
    refine h.stamped.mem_takeWhile (t := now' - timeoutMS) (fun j x hx => ?_) hmem
      (y := N.keepAliveTimestamp) (by rw [Storage.stamps, hN]; rfl)
      ((Nat.le_sub_iff_add_le ht).2 hle)
    obtain ⟨M, hM, rfl⟩ := Option.map_eq_some_iff.1 hx
    simp only [isDue, hM, decide_eq_true_eq]

/-- A tick releases the nodes that are marked or were idle for too long, and no others. -/
theorem mem_killed (h : Sound now D) (ht : timeoutMS ≤ now') :
    n ∈ D.killed (sub64 now' timeoutMS) ↔
      (∃ N, D.pool.get n = some N ∧ N.killMark = true) ∨ D.Overdue timeoutMS now' n := by
  rw [killed, List.mem_append, h.kill, h.mem_due ht]

theorem live_of_mem_killed (h : Sound now D) {killTimepoint : ℕ}
    (hn : n ∈ D.killed killTimepoint) : ∃ N, D.pool.get n = some N ∧ N.localId = n := by
  rcases List.mem_append.1 hn with hn | hn
  · obtain ⟨N, hN, -⟩ := h.killMarked n hn
    exact ⟨N, hN, h.localId n N hN⟩
  · obtain ⟨N, hN, -⟩ := h.idle n ((List.takeWhile_sublist _).subset hn)
    exact ⟨N, hN, h.localId n N hN⟩

theorem nodup_killed (D : DeviceNodes) : (D.killed (sub64 now timeoutMS)).Nodup :=
  nodes_kill_processIdle ▸ (D.processIdle now timeoutMS).lists.nodup .kill

/-- The passes of a tick succeed. -/
theorem performKill (h : Sound now D) :
    (D.processIdle now' timeoutMS).performKill =
      .ok ((D.processIdle now' timeoutMS).releaseAll (D.killed (sub64 now' timeoutMS)),
        (D.killed (sub64 now' timeoutMS)).flatMap D.killEntries) :=
  performKillLoop_spec rfl fun _ hn => h.live_of_mem_killed hn

theorem tick (h : Sound now D) (hnow : now ≤ now') :
    Sound now' ((D.processIdle now' timeoutMS).releaseAll (D.killed (sub64 now' timeoutMS))) := by
  have hget (j : ℕ) : ((D.processIdle now' timeoutMS).releaseAll
      (D.killed (sub64 now' timeoutMS))).pool.get j =
        if j ∈ D.killed (sub64 now' timeoutMS) then none else D.pool.get j := get_releaseAll _
  refine ⟨fun j N hN => ?_, fun j hj => ?_, fun j => ?_, ?_⟩
  · rw [hget] at hN
    split at hN
    · cases hN
    · exact h.localId j N hN
  · obtain ⟨hkilled, hj⟩ := Linked.mem_foldl_unlink.1 hj
    rw [hget, if_neg hkilled]
    rw [nodes_idle_processIdle] at hj
    exact h.idle j ((List.dropWhile_sublist _).subset hj)
  · -- whatever was to kill is released
    refine iff_of_false (fun hj => ?_) fun ⟨N, hN, hmark⟩ => ?_
    · obtain ⟨hkilled, hj⟩ := Linked.mem_foldl_unlink.1 hj
      exact hkilled hj
    · rw [hget] at hN
      split at hN
      · cases hN
      · next hkilled =>
        exact hkilled (List.mem_append_left _ ((h.kill j).2 ⟨N, hN, hmark⟩))
  · refine h.stamped.of_sublist ((Linked.sublist_foldl_unlink _ _ _).trans ?_) (fun j hj => ?_) hnow
    · rw [nodes_idle_processIdle]
      exact List.dropWhile_sublist _
    · rw [Storage.stamps, Storage.stamps, hget, if_neg (Linked.mem_foldl_unlink.1 hj).1]

/-- A tick releases the nodes that are marked and those that were idle for too long. -/
theorem get_tick (h : Sound now D) (ht : timeoutMS ≤ now')
    (hlive : (D.pool.get n).isSome = true) :
    ((D.processIdle now' timeoutMS).releaseAll (D.killed (sub64 now' timeoutMS))).pool.get n =
      none ↔ (∃ N, D.pool.get n = some N ∧ N.killMark = true) ∨ D.Overdue timeoutMS now' n := by
  rw [get_releaseAll, ← h.mem_killed ht]
  split
  · next hkilled => exact iff_of_true rfl hkilled
  · next hkilled =>
    refine iff_of_false (fun hnone => ?_) hkilled
    rw [show D.pool.get n = none from hnone] at hlive
    cases hlive

/-- The nodes that the pass finds are marked only if none was idle for too long. -/
theorem killMarked_processIdle (h : Sound now D) (ht : timeoutMS ≤ now') :
    (D.processIdle now' timeoutMS).KillMarked ↔ ∀ n, ¬D.Overdue timeoutMS now' n := by
  constructor
  · intro hmarked n hn
    obtain ⟨N, hN, hmark⟩ := hmarked n ((h.mem_killed ht).2 (.inr hn))
    obtain ⟨M, hM, hunmarked⟩ := h.idle n hn.1
    obtain rfl := Option.some.inj (hN.symm.trans hM)
    rw [hmark] at hunmarked
    cases hunmarked
  · intro hnone n hn
    exact ((h.mem_killed ht).1 hn).resolve_right (hnone n)

end Sound

/-! ## What was done so far -/

/-- What one event does to the nodes of a kind. -/
inductive NodesStep (timeoutMS now : ℕ) (D : DeviceNodes) :
    ℕ → DeviceNodes → List NodeEntry → Prop
  | same : NodesStep timeoutMS now D now D []
  | created {n : ℕ} {pool : Storage DeviceNode}
    (h : (D.pool.acquire fun n => { localId := n }) = some (n, pool)) :
    NodesStep timeoutMS now D now { D with pool := pool } [.created n]
  | keptAlive {n : ℕ} {D' : DeviceNodes} (h : D.keepAlive now n = .ok D') :
    NodesStep timeoutMS now D now D' []
  | deferred {n : ℕ} {D' : DeviceNodes} (h : D.deferKill n = .ok D') :
    NodesStep timeoutMS now D now D' []
  | ticked {nowMS : ℕ} {D' : DeviceNodes} {done : List NodeEntry} (hnow : now ≤ nowMS)
    (h : (D.processIdle nowMS timeoutMS).performKill = .ok (D', done)) :
    NodesStep timeoutMS now D nowMS D' done

/-- A node that was created is live, or was cleaned and released once. -/
structure Logged (log : List NodeEntry) (D : DeviceNodes) : Prop where
  bound : ∀ e ∈ log, e.localId ≤ D.pool.lastId
  created : ∀ n, (D.pool.get n).isSome = true → .created n ∈ log
  count : ∀ n, .created n ∈ log → ∀ e, e = .cleaned n ∨ e = .released n →
    log.count e = if (D.pool.get n).isSome = true then 0 else 1

/-- The same nodes are live. -/
def SameLive (D D' : DeviceNodes) : Prop :=
  (∀ j, (D'.pool.get j).isSome = (D.pool.get j).isSome) ∧ D'.pool.lastId = D.pool.lastId

theorem sameLive_set {M : DeviceNode} {lists : Linked DeviceNodeList}
    (hN : D.pool.get n = some N) : SameLive D { pool := D.pool.set n M, lists := lists } := by
  refine ⟨fun j => ?_, Storage.lastId_set _ _ _⟩
  rw [Storage.get_set hN]
  split
  · next hj => rw [hj, hN]; rfl
  · rfl

theorem sameLive_keepAlive (hk : D.keepAlive now n = .ok D') : SameLive D D' := by
  rcases hN : D.pool.get n with _ | N <;> simp only [DeviceNodes.keepAlive, hN] at hk
  · cases hk
  · split at hk <;> cases hk
    · exact ⟨fun _ => rfl, rfl⟩
    · exact sameLive_set hN

theorem sameLive_deferKill (hk : D.deferKill n = .ok D') : SameLive D D' := by
  rcases hN : D.pool.get n with _ | N <;> simp only [DeviceNodes.deferKill, hN] at hk
  · cases hk
  · split at hk <;> cases hk
    · exact ⟨fun _ => rfl, rfl⟩
    · exact sameLive_set hN

theorem lastId_releaseAll (D : DeviceNodes) (l : List ℕ) :
    (D.releaseAll l).pool.lastId = D.pool.lastId := by
  change (l.foldl Storage.release D.pool).lastId = D.pool.lastId
  generalize D.pool = p
  induction l generalizing p with
  | nil => rfl
  | cons n l ih => exact ih (p.release n)

namespace Logged

variable {log : List NodeEntry}

theorem init (poolSize : ℕ) : Logged [] (init poolSize) where
  bound _ h := absurd h List.not_mem_nil
  created _ h := by cases h
  count _ h := absurd h List.not_mem_nil

theorem congr (h : Logged log D) (hlive : SameLive D D') : Logged log D' where
  bound e he := hlive.2 ▸ h.bound e he
  created n hn := h.created n (hlive.1 n ▸ hn)
  count n hn e he := by rw [hlive.1, h.count n hn e he]

/-- Nothing was done to a node that is not created yet. -/
theorem not_mem (h : Logged log D) {e : NodeEntry} (he : D.pool.lastId < e.localId) : e ∉ log :=
  fun hmem => absurd (h.bound e hmem) (Nat.not_le.2 he)

theorem create {pool : Storage DeviceNode} (h : Logged log D)
    (ha : (D.pool.acquire fun n => { localId := n }) = some (n, pool)) :
    Logged (log ++ [.created n]) { D with pool := pool } := by
  obtain ⟨hn, hlast, -⟩ := Storage.acquire_eq_some ha
  have hget := Storage.get_acquire ha
  have hnew {e : NodeEntry} (he : e.localId = n) : e ∉ log :=
    h.not_mem (by rw [he, hn]; exact Nat.lt_succ_self _)
  refine ⟨fun e he => ?_, fun j hj => ?_, fun j hj e he => ?_⟩
  · change _ ≤ pool.lastId
    rw [hlast]
    rcases List.mem_append.1 he with he | he
    · exact (h.bound e he).trans (by rw [hn]; exact Nat.le_succ _)
    · rw [List.mem_singleton.1 he]
      exact le_rfl
  · rw [hget] at hj
    split at hj
    · next hjn => simp [hjn]
    · exact List.mem_append_left _ (h.created j hj)
  · have hlog : (log ++ [NodeEntry.created n]).count e = log.count e := by
      rw [List.count_append, List.count_singleton, if_neg, Nat.add_zero]
      rcases he with rfl | rfl <;> simp
    rw [hlog, hget]
    rcases List.mem_append.1 hj with hj | hj
    · have hjn : j ≠ n := fun hjn => hnew (e := .created j) hjn hj
      rw [if_neg hjn]
      exact h.count j hj e he
    · obtain rfl : j = n := by simpa using hj
      rw [if_pos rfl]
      exact List.count_eq_zero_of_not_mem (hnew (by rcases he with rfl | rfl <;> rfl))

theorem tick (h : Logged log D) (hs : Sound now D) :
    Logged (log ++ (D.killed (sub64 now' timeoutMS)).flatMap D.killEntries)
      ((D.processIdle now' timeoutMS).releaseAll (D.killed (sub64 now' timeoutMS))) := by
  have hget (j : ℕ) : ((D.processIdle now' timeoutMS).releaseAll
      (D.killed (sub64 now' timeoutMS))).pool.get j =
        if j ∈ D.killed (sub64 now' timeoutMS) then none else D.pool.get j := get_releaseAll _
  have hentries {e : NodeEntry}
      (he : e ∈ (D.killed (sub64 now' timeoutMS)).flatMap D.killEntries) :
      e.localId ∈ D.killed (sub64 now' timeoutMS) ∧ ∀ j, e ≠ .created j := by
    obtain ⟨j, hj, he⟩ := List.mem_flatMap.1 he
    simp only [killEntries, List.mem_cons, List.not_mem_nil, or_false] at he
    rcases he with rfl | rfl | rfl <;> exact ⟨hj, fun _ => by simp⟩
  refine ⟨fun e he => ?_, fun j hj => ?_, fun j hj e he => ?_⟩
  · rw [lastId_releaseAll]
    rcases List.mem_append.1 he with he | he
    · exact h.bound e he
    · obtain ⟨N, hN, -⟩ := hs.live_of_mem_killed (hentries he).1
      exact Storage.le_lastId_of_get hN
  · rw [hget] at hj
    split at hj
    · cases hj
    · exact List.mem_append_left _ (h.created j hj)
  · have hcreated : .created j ∈ log :=
      (List.mem_append.1 hj).resolve_right fun hj => (hentries hj).2 j rfl
    have hcount : ((D.killed (sub64 now' timeoutMS)).flatMap D.killEntries).count e =
        if j ∈ D.killed (sub64 now' timeoutMS) then 1 else 0 := by
      rw [← (Sound.nodup_killed D).count]
      rcases he with rfl | rfl
      · exact (count_killEntries D _).1
      · exact (count_killEntries D _).2
    rw [List.count_append, h.count j hcreated e he, hcount, hget]
    by_cases hkilled : j ∈ D.killed (sub64 now' timeoutMS)
    · obtain ⟨N, hN, -⟩ := hs.live_of_mem_killed hkilled
      simp [hkilled, hN]
    · simp [hkilled]

end Logged

/-! ## One event -/

theorem Sound.step {new : List NodeEntry} (h : Sound now D)
    (hstep : NodesStep timeoutMS now D now' D' new) : Sound now' D' := by
  cases hstep with
  | same => exact h
  | created ha => exact h.create ha
  | keptAlive hk => exact h.keepAlive hk
  | deferred hk => exact h.deferKill hk
  | ticked hnow hk =>
    cases h.performKill.symm.trans hk
    exact h.tick hnow

theorem Logged.step {log new : List NodeEntry} (h : Logged log D) (hs : Sound now D)
    (hstep : NodesStep timeoutMS now D now' D' new) : Logged (log ++ new) D' := by
  cases hstep with
  | same => rwa [List.append_nil]
  | created ha => exact h.create ha
  | keptAlive hk =>
    rw [List.append_nil]
    exact h.congr (sameLive_keepAlive hk)
  | deferred hk =>
    rw [List.append_nil]
    exact h.congr (sameLive_deferKill hk)
  | ticked hnow hk =>
    cases hs.performKill.symm.trans hk
    exact h.tick hs

end DeviceNodes

end ProxyPlatform
