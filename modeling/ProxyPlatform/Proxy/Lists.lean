import ProxyPlatform.Proxy.Ledger

/-!
# The kill lists

A marked connection is never kept alive, and its own close does nothing any more: only
the kill lists get rid of it. `KillLinked` says that every marked connection is in the
kill list, or waits in the graceful kill list for its writes.

* `Turn.moved`: what a turn does to a connection, its mark and its place in the lists;
* `Turn.killLinked`: all turns keep `KillLinked`, but for a `CloseConnection` of an
  unmarked connection that has nothing to write;
* `Turn.doomed`: a marked connection in the kill list stays there until it is destroyed,
  by the next tick (`tick_doomed`);
* `killLinked_iff`: a run keeps the kill lists, and destroys what the relay closes, exactly
  when every `CloseConnection` finds something to write, or a marked connection.
-/

namespace ProxyPlatform.ProxyAccessService

variable {σ : Type*} {S : Services σ} {P : Platform}

/-- Every marked connection is in the kill list, or is in the graceful kill list and has
    something to write. -/
def KillLinked (s : ProxyAccessService σ) : Prop :=
  ∀ k c, s.clientConnectionPool.get k = some c → c.deleteMark = true →
    k ∈ s.timeoutLists.nodes .kill ∨
      c.hasPendingWrites = true ∧ k ∈ s.timeoutLists.nodes .gracefulKill

/-- The connections of the kill list are marked. -/
def KillMarked (s : ProxyAccessService σ) : Prop :=
  ∀ k c, k ∈ s.timeoutLists.nodes .kill → s.clientConnectionPool.get k = some c →
    c.deleteMark = true

/-- The connection `k` was handed out, and is destroyed, or marked and in the kill list. -/
def Doomed (k : ℕ) (s : ProxyAccessService σ) : Prop :=
  k ≤ s.clientConnectionPool.lastId ∧ ∀ c, s.clientConnectionPool.get k = some c →
    c.deleteMark = true ∧ k ∈ s.timeoutLists.nodes .kill

/-- A close by the relay hits a marked connection, or one that has something to write. -/
def CloseAllowed (s : ProxyAccessService σ) (e : ProxyEvent) : Prop :=
  ∀ k c, e = .closeConnection k → s.clientConnectionPool.get k = some c →
    c.deleteMark = true ∨ c.hasPendingWrites = true

/-- What a turn with the label `l` does to the connection `j` and to its place in the lists. -/
inductive Moved (s : ProxyAccessService σ) (l : TurnLabel) (t : ProxyAccessService σ) (j : ℕ) : Prop
  /-- It is not there any more, or was not there. -/
  | gone (h : t.clientConnectionPool.get j = none)
  | fresh (d) (hj : s.clientConnectionPool.lastId < j) (hd : t.clientConnectionPool.get j = some d)
      (hmark : d.deleteMark = false)
      (hlists : ∀ m, j ∈ t.timeoutLists.nodes m ↔ m = .initTimeout)
  | kept (c d) (hc : s.clientConnectionPool.get j = some c)
      (hd : t.clientConnectionPool.get j = some d) (hmark : d.deleteMark = c.deleteMark)
      (hpending : c.deleteMark = true → c.hasPendingWrites = true → d.hasPendingWrites = true)
      (hlists : ∀ m, j ∈ t.timeoutLists.nodes m ↔ j ∈ s.timeoutLists.nodes m)
  /-- It is kept alive. -/
  | touched (c d) (hc : s.clientConnectionPool.get j = some c)
      (hd : t.clientConnectionPool.get j = some d)
      (hmark : c.deleteMark = false ∧ d.deleteMark = false)
      (hlists : ∀ m, j ∈ t.timeoutLists.nodes m ↔ m = .idleTimeout)
  | killed (c d) (hc : s.clientConnectionPool.get j = some c)
      (hd : t.clientConnectionPool.get j = some d) (hmark : d.deleteMark = true)
      (hlists : ∀ m, j ∈ t.timeoutLists.nodes m ↔ m = .kill)
  /-- It is marked and waits for its writes. -/
  | waits (c d) (hc : s.clientConnectionPool.get j = some c)
      (hd : t.clientConnectionPool.get j = some d) (hmark : c.deleteMark = false)
      (hpending : d.hasPendingWrites = true)
      (hlists : ∀ m, j ∈ t.timeoutLists.nodes m ↔ m = .gracefulKill)
  /-- It is marked, and stays where it is. -/
  | left (c d) (hl : l = .close j) (hc : s.clientConnectionPool.get j = some c)
      (hd : t.clientConnectionPool.get j = some d)
      (hcmark : c.deleteMark = false ∧ c.hasPendingWrites = false)
      (hdmark : d.deleteMark = true ∧ d.hasPendingWrites = false)
      (hlists : ∀ m, j ∈ t.timeoutLists.nodes m ↔ j ∈ s.timeoutLists.nodes m)
  /-- Its time is up. -/
  | expired (m) (hl : l = .expire m)
      (hget : t.clientConnectionPool.get j = s.clientConnectionPool.get j)
      (hlists : ∀ q, j ∈ t.timeoutLists.nodes q ↔ q = .kill)

section

variable {s t s' : ProxyAccessService σ} {c c' : ClientConnection} {j k : ℕ} {l : TurnLabel}

/-! ## What a turn does to the lists -/

/-- A connection that is as before is kept, if it is there. -/
theorem Moved.of_eq (hget : t.clientConnectionPool.get j = s.clientConnectionPool.get j)
    (hlists : ∀ m, j ∈ t.timeoutLists.nodes m ↔ j ∈ s.timeoutLists.nodes m) : Moved s l t j := by
  cases hc : s.clientConnectionPool.get j with
  | none => exact .gone (hget.trans hc)
  | some c => exact .kept c c hc (hget.trans hc) rfl (fun _ h => h) hlists

/-- A call on the connection `k` moves only `k`, as its frame says. -/
theorem Frame.moved (h : Frame s c s' c') (hc : s.clientConnectionPool.get k = some c)
    (hid : c.connectionId = k)
    (hget : ∀ i, t.clientConnectionPool.get i = if i = k then some c' else s.clientConnectionPool.get i)
    (hlists : t.timeoutLists = s'.timeoutLists) : Moved s l t j := by
  have hj := hget j
  rcases h.timeoutLists with ⟨hl, -⟩ | ⟨hmark, hl, -⟩
  · rw [hl] at hlists
    have hsame (m : ClientList) : j ∈ t.timeoutLists.nodes m ↔ j ∈ s.timeoutLists.nodes m := by
      rw [hlists]
    split at hj
    · next hjk =>
      subst hjk
      exact .kept c c' hc hj h.deleteMark (fun _ hp => h.hasPendingWrites hp) hsame
    · exact .of_eq hj hsame
  · rw [hl, hid] at hlists
    split at hj
    · next hjk =>
      subst hjk
      exact .touched c c' hc hj ⟨hmark, h.deleteMark.trans hmark⟩ fun m => by
        rw [hlists, Linked.mem_grabTail, if_pos rfl]
    · next hjk =>
      exact .of_eq hj fun m => by rw [hlists, Linked.mem_grabTail, if_neg hjk]

/-- A turn that kills `k` moves only `k`. -/
theorem Moved.kill (hc : s.clientConnectionPool.get k = some c)
    (hget : ∀ i, t.clientConnectionPool.get i = if i = k then some c' else s.clientConnectionPool.get i)
    (hmark : c'.deleteMark = true) (hlists : t.timeoutLists = s.timeoutLists.grabTail .kill k) :
    Moved s l t j := by
  have hj := hget j
  split at hj
  · next hjk =>
    subst hjk
    exact .killed c c' hc hj hmark fun m => by rw [hlists, Linked.mem_grabTail, if_pos rfl]
  · next hjk =>
    exact .of_eq hj fun m => by rw [hlists, Linked.mem_grabTail, if_neg hjk]

theorem Turn.moved (h : Turn S s l t) (hs : Sound s) (j : ℕ) : Moved s l t j := by
  cases h with
  | clock nowMS audit => exact .of_eq rfl fun _ => .rfl
  | accept remoteAddress localAddress k p hacquire =>
    obtain ⟨hk, -, -⟩ := Storage.acquire_eq_some hacquire
    have hget := Storage.get_acquire hacquire j
    split at hget
    · next hj =>
      subst hj
      exact .fresh _ (by omega) hget rfl fun m => by simp [linkTail, Linked.mem_grabTail]
    · next hj =>
      exact .of_eq hget fun m => by simp [linkTail, Linked.mem_grabTail, hj]
  | refuse x k p hacquire =>
    refine .of_eq ?_ fun _ => .rfl
    change (p.release k).get j = _
    rw [Storage.get_release, Storage.get_acquire hacquire]
    split
    · next hj => rw [hj, Storage.get_of_acquire hacquire]
    · rfl
  | call k c s' c' hc heffect hstage =>
    have hid := hs.connectionId k c hc
    exact heffect.moved hc hid
      (get_store_of_pool heffect.clientConnectionPool hc (heffect.connectionId.trans hid)) rfl
  | result κ f m future c s' c' hpop hf hc hcf heffect hcf' hstage =>
    have hid := hs.connectionId _ c hc
    have hframe : Frame s c s' (c'.setFuture κ none) :=
      ⟨heffect.clientConnectionPool, heffect.localTicker, heffect.destroyed, heffect.connectionId,
        heffect.remoteAddress, heffect.deleteMark, heffect.hasPendingWrites, heffect.type,
        heffect.timeoutLists⟩
    exact hframe.moved hc hid
      (get_store_of_pool (by exact hframe.clientConnectionPool) hc (hframe.connectionId.trans hid)) rfl
  | touch k c s' c' l hc hframe hcore hshape hudp hcalls hdelivery hmark =>
    have hid := hs.connectionId k c hc
    exact hframe.moved hc hid
      (get_store_of_pool hframe.clientConnectionPool hc (hframe.connectionId.trans hid)) rfl
  | forwardUdp => exact .of_eq rfl fun _ => .rfl
  | peerClose k c s' c' hc hmark h =>
    have hid := hs.connectionId k c hc
    obtain ⟨u, l, heq, -⟩ := onPeerClose_eq_ok hmark h
    cases heq
    refine .kill hc (get_store_of_pool (by rfl) hc hid) rfl ?_
    rw [← hid]
    rfl
  | flush k c hc =>
    have hid := hs.connectionId k c hc
    rcases onFlush_eq s c with ⟨hmark, heq⟩ | ⟨hmark, heq⟩
    · rw [heq]
      refine .kill hc (get_store_of_pool (by rfl) hc hid) hmark ?_
      rw [← hid]
      rfl
    · rw [heq]
      have hget := get_store (c := { c with hasPendingWrites := false }) hc hid j
      split at hget
      · next hj =>
        subst hj
        exact .kept c _ hc hget rfl (fun h => by rw [hmark] at h; cases h) fun _ => .rfl
      · exact .of_eq hget fun _ => .rfl
  | close k c hc =>
    have hid := hs.connectionId k c hc
    rcases closeConnection_eq s c with ⟨hmark, heq⟩ | ⟨hmark, hp, heq⟩ | ⟨hmark, hp, heq⟩
    · rw [heq]
      have hget := get_store hc hid j
      split at hget
      · next hj =>
        subst hj
        exact .kept c c hc hget rfl (fun _ h => h) fun _ => .rfl
      · exact .of_eq hget fun _ => .rfl
    · rw [heq]
      have hget := get_store (s := s.linkTail .gracefulKill c.connectionId)
        (c := { c with deleteMark := true, timestampMS := s.localTicker }) hc hid j
      split at hget
      · next hj =>
        subst hj
        exact .waits c _ hc hget hmark hp fun m => by
          simp [store, linkTail, Linked.mem_grabTail, hid]
      · next hj =>
        exact .of_eq hget fun m => by simp [store, linkTail, Linked.mem_grabTail, hid, hj]
    · rw [heq]
      have hget := get_store (c := { c with deleteMark := true }) hc hid j
      split at hget
      · next hj =>
        subst hj
        exact .left c _ rfl hc hget ⟨hmark, hp⟩ ⟨rfl, hp⟩ fun _ => .rfl
      · exact .of_eq hget fun _ => .rfl
  | ready κ f r =>
    unfold setReady
    split
    · exact .of_eq rfl fun _ => .rfl
    · split
      · exact .of_eq rfl fun _ => .rfl
      · exact .of_eq rfl fun _ => .rfl
  | expire m h timeoutMS =>
    have hlists (q : ClientList) :
        j ∈ (deferKillTimeoutConnection s m h timeoutMS).timeoutLists.nodes q ↔ _ :=
      Linked.mem_expire (h := h)
    split at hlists
    · exact .expired m rfl rfl hlists
    · exact .of_eq rfl hlists
  | destroy k lists c t hpop hc hready h =>
    have hid := hs.connectionId k c hc
    obtain ⟨hpool, -, -, hlists, -⟩ := destroyConnection_eq_ok h
    have hget : t.clientConnectionPool.get j = if j = k then none else s.clientConnectionPool.get j := by
      rw [hpool, Storage.get_release, hid]
    split at hget
    · exact .gone hget
    · next hj =>
      refine .of_eq hget fun m => ?_
      obtain ⟨q, hq⟩ : ∃ q, s.timeoutLists.nodes .kill = k :: q := by
        unfold Linked.popHead at hpop
        split at hpop
        · cases hpop
        · next n q hn => cases hpop; exact ⟨q, hn⟩
      rw [Linked.popHead_of_cons hq] at hpop
      cases hpop
      rw [hlists]
      simp [hid, hj]

/-! ## What the turns keep -/

/-- A turn keeps the kill lists, unless it closes an unmarked connection that has nothing to
    write. -/
theorem Turn.killLinked (h : Turn S s l t) (hs : Sound s) (hk : KillLinked s)
    (hclose : ∀ k c, l = .close k → s.clientConnectionPool.get k = some c →
      c.deleteMark = true ∨ c.hasPendingWrites = true) : KillLinked t := by
  intro j e he hmark
  cases h.moved hs j with
  | gone h => rw [h] at he; cases he
  | fresh d hj hd hd' => rw [hd] at he; cases he; rw [hmark] at hd'; cases hd'
  | kept c d hc hd hcd hpending hlists =>
    rw [hd] at he
    cases he
    have hc' : c.deleteMark = true := hcd ▸ hmark
    rw [hlists, hlists]
    exact (hk j c hc hc').imp_right fun ⟨hp, hm⟩ => ⟨hpending hc' hp, hm⟩
  | touched c d hc hd hcd => rw [hd] at he; cases he; rw [hmark] at hcd; cases hcd.2
  | killed c d hc hd hd' hlists => exact .inl ((hlists _).2 rfl)
  | waits c d hc hd hc' hp hlists =>
    rw [hd] at he
    cases he
    exact .inr ⟨hp, (hlists _).2 rfl⟩
  | left c d hl hc hd hc' =>
    rcases hclose j c hl hc with h | h
    · rw [h] at hc'; cases hc'.1
    · rw [h] at hc'; cases hc'.2
  | expired m hl hget hlists => exact .inl ((hlists _).2 rfl)

/-- A turn puts no unmarked connection in the kill list, unless its time is up. -/
theorem Turn.killMarked (h : Turn S s l t) (hs : Sound s) (hk : KillMarked s)
    (hl : ∀ m, l ≠ .expire m) : KillMarked t := by
  intro j e hj he
  cases h.moved hs j with
  | gone h => rw [h] at he; cases he
  | fresh d hjs hd hd' hlists => cases (hlists _).1 hj
  | kept c d hc hd hcd hpending hlists =>
    rw [hd] at he
    cases he
    rw [hcd]
    exact hk j c ((hlists _).1 hj) hc
  | touched c d hc hd hcd hlists => cases (hlists _).1 hj
  | killed c d hc hd hd' => rw [hd] at he; cases he; exact hd'
  | waits c d hc hd hc' hp hlists => cases (hlists _).1 hj
  | left c d _ hc hd hc' hd' => rw [hd] at he; cases he; exact hd'.1
  | expired m h => exact absurd h (hl m)

/-- A turn lets no connection escape from the kill list. -/
theorem Turn.doomed (h : Turn S s l t) (hs : Sound s) (hk : Doomed k s) : Doomed k t := by
  refine ⟨hk.1.trans (h.later hs).lastId, fun e he => ?_⟩
  cases h.moved hs k with
  | gone h => rw [h] at he; cases he
  | fresh d hj => exact absurd hk.1 (Nat.not_le.2 hj)
  | kept c d hc hd hcd hpending hlists =>
    rw [hd] at he
    cases he
    rw [hcd, hlists]
    exact hk.2 c hc
  | touched c d hc hd hcd => rw [(hk.2 c hc).1] at hcd; cases hcd.1
  | killed c d hc hd hd' hlists => rw [hd] at he; cases he; exact ⟨hd', (hlists _).2 rfl⟩
  | waits c d hc hd hc' => rw [(hk.2 c hc).1] at hc'; cases hc'
  | left c d hl hc hd hc' => rw [(hk.2 c hc).1] at hc'; cases hc'.1
  | expired m hl hget hlists =>
    rw [hget] at he
    exact ⟨(hk.2 e he).1, (hlists _).2 rfl⟩

/-! ## Runs -/

theorem step_closeConnection (hc : s.clientConnectionPool.get k = some c) :
    step S P s (.closeConnection k) = .ok ((closeConnection s c).1.store (closeConnection s c).2) := by
  simp only [step, onConnection, hc]
  rfl

/-- A step keeps the kill lists, unless it closes an unmarked connection that has nothing to
    write. -/
theorem step_killLinked {e : ProxyEvent} (hs : Sound s) (hk : KillLinked s) (hclose : CloseAllowed s e)
    (h : step S P s e = .ok t) : KillLinked t := by
  cases e with
  | closeConnection k =>
    cases hc : s.clientConnectionPool.get k with
    | none =>
      simp only [step, onConnection, hc] at h
      cases h
      exact hk
    | some c =>
      rw [step_closeConnection hc] at h
      cases h
      have hturn : Turn S s (.close k) _ := .close k c hc
      refine hturn.killLinked hs hk fun i d hi hd => ?_
      cases hi
      exact hclose _ d rfl hd
  | _ =>
    refine (step_turns hs h).invariant (fun s l t hl hs hk hturn => hturn.killLinked hs hk ?_) hs hk
    rintro i d rfl -
    simp [ProxyEvent.Allows] at hl

/-- In between two events, the kill list holds only marked connections. -/
theorem step_killMarked {e : ProxyEvent} (hs : Sound s) (hk : KillMarked s)
    (h : step S P s e = .ok t) : KillMarked t := by
  cases e with
  | tick nowMS =>
    obtain ⟨-, hkill, -⟩ := tick_turns hs h
    intro j c hj
    rw [hkill] at hj
    cases hj
  | _ =>
    refine (step_turns hs h).invariant (fun s l t hl hs hk hturn => hturn.killMarked hs hk ?_) hs hk
    rintro m rfl
    simp [ProxyEvent.Allows] at hl

theorem step_doomed {e : ProxyEvent} (hs : Sound s) (hk : Doomed k s) (h : step S P s e = .ok t) :
    Doomed k t :=
  (step_turns hs h).invariant (fun _ _ _ _ hs hk hturn => hturn.doomed hs hk) hs hk

/-- A tick destroys what is in the kill list. -/
theorem tick_doomed {nowMS : ℕ} (hs : Sound s) (hk : Doomed k s)
    (h : step S P s (.tick nowMS) = .ok t) : t.clientConnectionPool.get k = none := by
  obtain ⟨-, hkill, -⟩ := tick_turns hs h
  rw [Option.eq_none_iff_forall_ne_some]
  intro c hc
  have hmem := ((step_doomed hs hk h).2 c hc).2
  rw [hkill] at hmem
  cases hmem

theorem killMarked_of_exec {services : σ} {es : List ProxyEvent}
    (h : exec (step S P) (init services) es = .ok s) : KillMarked s := by
  have hboth : Sound s ∧ KillMarked s :=
    exec_invariant (I := fun s => Sound s ∧ KillMarked s)
      (fun s e t hs ht => ⟨step_sound s e t hs.1 ht, step_killMarked hs.1 hs.2 ht⟩)
      ⟨sound_init services, fun _ _ hk => by cases hk⟩ h
  exact hboth.2

/-- As long as every close hits something to write, or a marked connection, the kill lists
    are kept. -/
theorem killLinked_of_along {services : σ} {es : List ProxyEvent}
    (hes : Along (step S P) CloseAllowed (init services) es)
    (h : exec (step S P) (init services) es = .ok s) : KillLinked s := by
  have hboth : Sound s ∧ KillLinked s :=
    exec_invariant_along (I := fun s => Sound s ∧ KillLinked s)
      (fun s e t hs hC ht => ⟨step_sound s e t hs.1 ht, step_killLinked hs.1 hs.2 hC ht⟩)
      ⟨sound_init services, fun _ _ hc => by cases hc⟩ hes h
  exact hboth.2

/-- What the relay closes while nothing is to be written is destroyed once there was a tick. -/
def ClosesClients (S : Services σ) (P : Platform) (services : σ) (es : List ProxyEvent) : Prop :=
  ∀ pre k mid nowMS s c t, pre ++ .closeConnection k :: (mid ++ [.tick nowMS]) <+: es →
    exec (step S P) (init services) pre = .ok s → s.clientConnectionPool.get k = some c →
    c.hasPendingWrites = false →
    exec (step S P) s (.closeConnection k :: (mid ++ [.tick nowMS])) = .ok t →
    t.clientConnectionPool.get k = none

theorem closesClients_of_along {services : σ} {es : List ProxyEvent}
    (hes : Along (step S P) CloseAllowed (init services) es) : ClosesClients S P services es := by
  intro pre k mid nowMS s c t hpre hs hc hp ht
  have hsound : Sound s := sound_of_exec hs
  have hpre' : pre ++ [.closeConnection k] <+: es :=
    (List.prefix_append_right_inj pre).2 (List.prefix_append [.closeConnection k] _) |>.trans hpre
  have hmark : c.deleteMark = true := by
    rcases along_iff.1 hes pre _ s hpre' hs k c rfl hc with h | h
    · exact h
    · rw [hp] at h; cases h
  have hlinked : KillLinked s :=
    killLinked_of_along (hes.of_prefix ((List.prefix_append _ _).trans hpre)) hs
  have hdoomed : Doomed k s := by
    refine ⟨Storage.le_lastId_of_get hc, fun d hd => ?_⟩
    rw [hc] at hd
    cases hd
    rcases hlinked k c hc hmark with h | ⟨h, -⟩
    · exact ⟨hmark, h⟩
    · rw [hp] at h; cases h
  rw [← List.cons_append, exec_append_eq_ok] at ht
  obtain ⟨u, hu, ht⟩ := ht
  obtain ⟨v, hv, ht⟩ := exec_cons_eq_ok.1 ht
  cases ht
  have hboth : Sound u ∧ Doomed k u :=
    exec_invariant (I := fun s => Sound s ∧ Doomed k s)
      (fun s e t hs ht => ⟨step_sound s e t hs.1 ht, step_doomed hs.1 hs.2 ht⟩)
      ⟨hsound, hdoomed⟩ hu
  exact tick_doomed hboth.1 hboth.2 hv

/-- A run keeps every marked connection in a kill list, and destroys what the relay closes, if and
    only if every close hits a marked connection, or one that has something to write. -/
theorem killLinked_iff (services : σ) (es : List ProxyEvent) :
    ((∀ s, Visits (step S P) (init services) es s → KillLinked s) ∧
        ClosesClients S P services es) ↔
      Along (step S P) CloseAllowed (init services) es := by
  constructor
  · rintro ⟨hlinked, -⟩
    refine along_iff.2 fun pre e s hpre hs k c he hc => ?_
    subst he
    by_contra hno
    rw [not_or, Bool.not_eq_true, Bool.not_eq_true] at hno
    obtain ⟨hmark, hp⟩ := hno
    have hstep : step S P s (.closeConnection k) = .ok (s.store { c with deleteMark := true }) := by
      rw [step_closeConnection hc, closeConnection, deferGracefulKill, if_neg (by simp [hmark]),
        if_neg (by simp [hp])]
    have hid : c.connectionId = k := (sound_of_exec hs).connectionId k c hc
    have hget := get_store (c := { c with deleteMark := true }) hc hid k
    rw [if_pos rfl] at hget
    rcases hlinked _ ⟨_, hpre, (exec_snoc _ hs).trans hstep⟩ k _ hget rfl with h | ⟨h, -⟩
    · have hm := killMarked_of_exec hs k c h hc
      rw [hmark] at hm
      cases hm
    · exact absurd (hp.symm.trans h) Bool.false_ne_true
  · intro hes
    refine ⟨fun s hs => ?_, closesClients_of_along hes⟩
    obtain ⟨pre, hpre, hs⟩ := hs
    exact killLinked_of_along (hes.of_prefix hpre) hs

/-- A client whose relay connection is closed while nothing is to be written. -/
theorem killLinked_counterexample :
    ¬∀ s, Visits (step grantingServices localPlatform) (init ())
      [.onNewConnection localAddress localAddress true, .closeConnection 1] s → KillLinked s := by
  intro h
  obtain ⟨s, hs, hp⟩ := exists_ok_of_check
    (x := exec (step grantingServices localPlatform) (init ())
      [.onNewConnection localAddress localAddress true, .closeConnection 1])
    (p := fun s => (s.clientConnectionPool.get 1).map
        (fun c => (c.deleteMark, c.hasPendingWrites)) = some (true, false) ∧
      s.timeoutLists.nodes .kill = []) (by decide +kernel)
  obtain ⟨hget, hkill⟩ := of_decide_eq_true hp
  obtain ⟨c, hc, hcm⟩ := Option.map_eq_some_iff.1 hget
  rw [Prod.mk.injEq] at hcm
  rcases h s ⟨_, List.prefix_refl _, hs⟩ 1 c hc hcm.1 with h | ⟨h, -⟩
  · rw [hkill] at h
    cases h
  · rw [hcm.2] at h
    cases h

end

end ProxyPlatform.ProxyAccessService
