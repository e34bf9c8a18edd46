import ProxyPlatform.Proxy.Granted

/-!
# The authentication deadline

A connection is linked in the init list when it is accepted, and a tick destroys what stays
there for longer than `paClientAuthTimeoutMS`. Only `KeepAlive` and a graceful kill take a
connection out of the list.

* `Waiting`: the connections without a grant are in the init list, or about to be
  destroyed;
* `Aged`: their timestamps are still those of their acceptance;
* `InitOrdered`: the init list is ordered by the timestamps, so that the pass over it
  leaves no connection that is due (`InitFresh`).

The data processor of HTTP bodies calls `KeepAlive` for a connection that was not granted
anything: while its authentication is pending, and after it was refused. `meetsDeadline_iff`:
a run meets the deadline exactly when no body comes in for such a connection. Ticks are assumed
not to go back, and the relay to post to and to close a connection only if it was granted
something (`RelayGranted`), as the relay does that the proxy is bound to.
-/

namespace ProxyPlatform

/-- The turns that neither call, touch nor close a connection, nor take up a result. -/
def TurnLabel.IsApart (l : TurnLabel) : Prop :=
  ¬l.IsResult ∧ ∀ k, l ≠ .call k ∧ l ≠ .touch k ∧ l ≠ .close k

namespace ProxyAccessService

variable {σ : Type*} {S : Services σ} {P : Platform}

/-! ## Connections without a grant -/

/-- The connections without a grant are in the init list, or about to be destroyed. -/
structure Waiting (s : ProxyAccessService σ) : Prop where
  listed : ∀ k c, s.clientConnectionPool.get k = some c → c.localAuthId = 0 →
    k ∈ s.timeoutLists.nodes .initTimeout ∨ k ∈ s.timeoutLists.nodes .kill

/-- A connection that has no grant in `t` had none in `s`, if it was there, and is as old. -/
structure Aged (s t : ProxyAccessService σ) : Prop where
  lastId : s.clientConnectionPool.lastId ≤ t.clientConnectionPool.lastId
  old : ∀ k d, k ≤ s.clientConnectionPool.lastId → t.clientConnectionPool.get k = some d →
    d.localAuthId = 0 → ∃ c, s.clientConnectionPool.get k = some c ∧ c.localAuthId = 0 ∧
      d.timestampMS = c.timestampMS

/-- The init list is ordered by the timestamps of its connections. -/
structure InitOrdered (s : ProxyAccessService σ) : Prop where
  live : ∀ k ∈ s.timeoutLists.nodes .initTimeout, ∃ c, s.clientConnectionPool.get k = some c ∧
    c.timestampMS ≤ s.localTicker
  sorted : (s.timeoutLists.nodes .initTimeout).Pairwise fun i j => ∀ c d,
    s.clientConnectionPool.get i = some c → s.clientConnectionPool.get j = some d →
    c.timestampMS ≤ d.timestampMS

/-- Nothing in the init list is due at the time `nowMS`. -/
def InitFresh (nowMS : ℕ) (s : ProxyAccessService σ) : Prop :=
  ∀ k ∈ s.timeoutLists.nodes .initTimeout, ∀ c, s.clientConnectionPool.get k = some c →
    sub64 nowMS paClientAuthTimeoutMS < c.timestampMS

/-! ## The conditions of a run -/

/-- Ticks do not go back. -/
def TickForward (s : ProxyAccessService σ) : ProxyEvent → Prop
  | .tick nowMS => s.localTicker ≤ nowMS
  | _ => True

/-- The relay posts to and closes a connection only if it was granted something. -/
def RelayGranted (s : ProxyAccessService σ) : ProxyEvent → Prop
  | .postData k _ | .closeConnection k => ∀ c ∈ s.clientConnectionPool.get k, c.localAuthId ≠ 0
  | _ => True

/-- A body comes in for a connection only if it is marked, or was granted something. -/
def BodyGranted (s : ProxyAccessService σ) : ProxyEvent → Prop
  | .onData k _ => ∀ c ∈ s.clientConnectionPool.get k,
    c.dataProcessor = .onHttpBody → c.deleteMark = true ∨ c.localAuthId ≠ 0
  | _ => True

instance (s : ProxyAccessService σ) : ∀ e : ProxyEvent, Decidable (TickForward s e)
  | .tick _ => inferInstanceAs (Decidable (_ ≤ _))
  | .onNewConnection .. | .onPeerClose _ | .onFlush _ | .onData .. | .onUdpData ..
  | .postData .. | .postUdpData .. | .closeConnection _ | .setReady .. => .isTrue trivial

instance (s : ProxyAccessService σ) : ∀ e : ProxyEvent, Decidable (RelayGranted s e)
  | .postData k _ | .closeConnection k => inferInstanceAs
    (Decidable (∀ c ∈ s.clientConnectionPool.get k, c.localAuthId ≠ 0))
  | .onNewConnection .. | .onPeerClose _ | .onFlush _ | .onData .. | .onUdpData ..
  | .postUdpData .. | .setReady .. | .tick _ => .isTrue trivial

instance (s : ProxyAccessService σ) : ∀ e : ProxyEvent, Decidable (BodyGranted s e)
  | .onData k _ => inferInstanceAs (Decidable (∀ c ∈ s.clientConnectionPool.get k,
      c.dataProcessor = .onHttpBody → c.deleteMark = true ∨ c.localAuthId ≠ 0))
  | .onNewConnection .. | .onPeerClose _ | .onFlush _ | .onUdpData .. | .postData ..
  | .postUdpData .. | .closeConnection _ | .setReady .. | .tick _ => .isTrue trivial

/-- On the events `es`, no connection without a grant outlives its deadline, and none gets to
    the idle list. -/
structure MeetsDeadline (S : Services σ) (P : Platform) (services : σ) (es : List ProxyEvent) :
    Prop where
  expired : ∀ pre remoteAddress localAddress k mid nowMS s t u c,
    pre ++ .onNewConnection remoteAddress localAddress true :: (mid ++ [.tick nowMS]) <+: es →
    exec (step S P) (init services) pre = .ok s →
    step S P s (.onNewConnection remoteAddress localAddress true) = .ok t →
    s.clientConnectionPool.get k = none → (t.clientConnectionPool.get k).isSome →
    exec (step S P) t (mid ++ [.tick nowMS]) = .ok u → u.clientConnectionPool.get k = some c →
    c.localAuthId = 0 → sub64 nowMS paClientAuthTimeoutMS < s.localTicker
  idle : ∀ s, Visits (step S P) (init services) es s → ∀ k c,
    s.clientConnectionPool.get k = some c → c.localAuthId = 0 →
    k ∉ s.timeoutLists.nodes .idleTimeout

section

variable {s t u s' : ProxyAccessService σ} {c c' : ClientConnection} {k : ℕ}

/-! ## What keeps the connections without a grant waiting -/

theorem Aged.refl (s : ProxyAccessService σ) : Aged s s :=
  ⟨le_rfl, fun _ d _ hd hid => ⟨d, hd, hid, rfl⟩⟩

theorem Aged.trans (h : Aged s t) (h' : Aged t u) : Aged s u := by
  refine ⟨h.lastId.trans h'.lastId, fun k d hk hd hid => ?_⟩
  obtain ⟨e, he, hide, hde⟩ := h'.old k d (hk.trans h.lastId) hd hid
  obtain ⟨c, hc, hidc, hec⟩ := h.old k e hk he hide
  exact ⟨c, hc, hidc, hde.trans hec⟩

/-- The connections go on waiting when none of them changes. -/
theorem Waiting.of_pool (hw : Waiting s)
    (hpool : ∀ j, t.clientConnectionPool.get j = s.clientConnectionPool.get j)
    (hlast : s.clientConnectionPool.lastId ≤ t.clientConnectionPool.lastId)
    (hlists : ∀ j, j ∈ s.timeoutLists.nodes .initTimeout ∨ j ∈ s.timeoutLists.nodes .kill →
      j ∈ t.timeoutLists.nodes .initTimeout ∨ j ∈ t.timeoutLists.nodes .kill) :
    Waiting t ∧ Aged s t := by
  refine ⟨⟨fun j d hd hid => ?_⟩, hlast, fun j d _ hd hid => ?_⟩
  · exact hlists j (hw.listed j d (by rwa [← hpool]) hid)
  · exact ⟨d, by rwa [← hpool], hid, rfl⟩

/-- The connections go on waiting when one is written back that does, or has a grant. -/
theorem Waiting.store (hw : Waiting s) (hpool : s'.clientConnectionPool = s.clientConnectionPool)
    (hc : s.clientConnectionPool.get k = some c) (hid : c'.connectionId = k)
    (hlists : ∀ j m, j ≠ k → j ∈ s.timeoutLists.nodes m → j ∈ s'.timeoutLists.nodes m)
    (hk : c'.localAuthId = 0 → c.localAuthId = 0 ∧ c'.timestampMS = c.timestampMS ∧
      (k ∈ s'.timeoutLists.nodes .initTimeout ∨ k ∈ s'.timeoutLists.nodes .kill)) :
    Waiting (s'.store c') ∧ Aged s (s'.store c') := by
  have hget := get_store_of_pool hpool hc hid
  refine ⟨⟨fun j d hd hz => ?_⟩, ?_, fun j d _ hd hz => ?_⟩
  · rw [hget] at hd
    split at hd
    · next hj => cases hd; subst hj; exact (hk hz).2.2
    · next hj => exact (hw.listed j d hd hz).imp (hlists j _ hj) (hlists j _ hj)
  · simp [ProxyAccessService.store, hpool]
  · rw [hget] at hd
    split at hd
    · next hj => cases hd; exact ⟨c, by rw [hj, hc], (hk hz).1, (hk hz).2.1⟩
    · exact ⟨d, hd, hz, rfl⟩

/-- A turn that is no call of the client and takes up no result keeps the connections waiting,
    if it touches and closes none of those without a grant. -/
theorem Turn.waiting {l : TurnLabel} (h : Turn S s l t) (hs : Sound s) (hw : Waiting s)
    (hl : ∀ k, l ≠ .call k) (hr : ¬l.IsResult)
    (hk : ∀ k c, l = .touch k ∨ l = .close k → s.clientConnectionPool.get k = some c →
      c.localAuthId ≠ 0) : Waiting t ∧ Aged s t := by
  have hgrab {k : ℕ} {c : ClientConnection} (hid : c.connectionId = k) (l : ClientList) (j : ℕ)
      (m : ClientList) (hj : j ≠ k) (hm : j ∈ s.timeoutLists.nodes m) :
      j ∈ (s.timeoutLists.grabTail l c.connectionId).nodes m :=
    (Linked.mem_grabTail_of_ne (by rwa [hid])).2 hm
  cases h with
  | clock | forwardUdp => exact hw.of_pool (fun _ => rfl) le_rfl fun _ => id
  | accept remoteAddress localAddress k p hacquire =>
    obtain ⟨hk', hlast, -⟩ := Storage.acquire_eq_some hacquire
    have hget (j : ℕ) : ({ s with clientConnectionPool := p }.linkTail .initTimeout
        k).clientConnectionPool.get j = if j = k then some (newConnection s remoteAddress localAddress k)
          else s.clientConnectionPool.get j := Storage.get_acquire hacquire j
    refine ⟨⟨fun j d hd hz => ?_⟩, ?_, fun j d hj hd hz => ?_⟩
    · rw [hget] at hd
      simp only [linkTail, Linked.mem_grabTail]
      split at hd
      · next hj => exact .inl (by rw [if_pos hj]; trivial)
      · next hj => rw [if_neg hj, if_neg hj]; exact hw.listed j d hd hz
    · change _ ≤ p.lastId
      omega
    · rw [hget, if_neg (by omega)] at hd
      exact ⟨d, hd, hz, rfl⟩
  | refuse x k p hacquire =>
    obtain ⟨hk', hlast, -⟩ := Storage.acquire_eq_some hacquire
    refine hw.of_pool (fun j => ?_) ?_ fun _ => id
    · change (p.release k).get j = _
      rw [Storage.get_release, Storage.get_acquire hacquire]
      split
      · next hj => rw [hj, Storage.get_of_acquire hacquire]
      · rfl
    · change _ ≤ p.lastId
      omega
  | call k => exact absurd rfl (hl k)
  | result κ => exact absurd ⟨κ, rfl⟩ hr
  | touch k c s' c' l hc hframe hcore =>
    have hid : c'.localAuthId = c.localAuthId := congrArg Core.localAuthId hcore
    refine hw.store hframe.clientConnectionPool hc
      (hframe.connectionId.trans (hs.connectionId k c hc))
      (hframe.mem_of_ne (hs.connectionId k c hc)) fun hz => ?_
    exact absurd (hid.symm.trans hz) (hk k c (.inl rfl) hc)
  | peerClose k c s' c' hc hmark h =>
    obtain ⟨u, l, heq, -⟩ := onPeerClose_eq_ok hmark h
    cases heq
    have hid := hs.connectionId k c hc
    exact hw.store rfl hc hid (hgrab hid _) fun hz =>
      ⟨hz, rfl, .inr (by simp [linkTail, Linked.mem_grabTail, hid])⟩
  | flush k c hc =>
    have hid := hs.connectionId k c hc
    rcases onFlush_eq s c with ⟨-, heq⟩ | ⟨-, heq⟩
    · rw [heq]
      exact hw.store rfl hc hid (hgrab hid _) fun hz =>
        ⟨hz, rfl, .inr (by simp [linkTail, Linked.mem_grabTail, hid])⟩
    · rw [heq]
      exact hw.store rfl hc hid (fun _ _ _ => id) fun hz => ⟨hz, rfl, hw.listed k c hc hz⟩
  | close k c hc =>
    have hid := hs.connectionId k c hc
    have hz := hk k c (.inr rfl) hc
    rcases closeConnection_eq s c with ⟨-, heq⟩ | ⟨-, -, heq⟩ | ⟨-, -, heq⟩
    · rw [heq]
      exact hw.store rfl hc hid (fun _ _ _ => id) fun h => absurd h hz
    · rw [heq]
      exact hw.store rfl hc hid (hgrab hid _) fun h => absurd h hz
    · rw [heq]
      exact hw.store rfl hc hid (fun _ _ _ => id) fun h => absurd h hz
  | ready κ f r =>
    unfold setReady
    split
    · exact hw.of_pool (fun _ => rfl) le_rfl fun _ => id
    · split
      · exact hw.of_pool (fun _ => rfl) le_rfl fun _ => id
      · exact hw.of_pool (fun _ => rfl) le_rfl fun _ => id
  | expire l h timeoutMS =>
    refine hw.of_pool (fun _ => rfl) le_rfl fun j hj => ?_
    simp only [deferKillTimeoutConnection, Linked.mem_expire]
    split
    · exact .inr trivial
    · exact hj
  | destroy k lists c t hpop hc hready h =>
    have hid := hs.connectionId k c hc
    obtain ⟨hpool, -, -, hlists, -⟩ := destroyConnection_eq_ok h
    have hlive {j : ℕ} {d : ClientConnection} (hd : t.clientConnectionPool.get j = some d) :
        j ≠ k ∧ s.clientConnectionPool.get j = some d := by
      rw [hpool, Storage.get_release, hid] at hd
      split at hd
      · cases hd
      · next hj => exact ⟨hj, hd⟩
    have hmem (j : ℕ) (m : ClientList) (hj : j ≠ k) (hm : j ∈ s.timeoutLists.nodes m) :
        j ∈ t.timeoutLists.nodes m := by
      rw [hlists, hid]
      exact Linked.mem_unlink.2 ⟨hj, (Linked.mem_of_popHead hpop).2 ⟨hj, hm⟩⟩
    refine ⟨⟨fun j d hd hz => ?_⟩, ?_, fun j d _ hd hz => ⟨d, (hlive hd).2, hz, rfl⟩⟩
    · obtain ⟨hj, hd⟩ := hlive hd
      exact (hw.listed j d hd hz).imp (hmem j _ hj) (hmem j _ hj)
    · rw [hpool]; exact le_rfl

/-- A body that comes in for a marked connection is not taken. -/
theorem onData_of_marked {data : Bytes} {n : Option ℕ} (hp : c.dataProcessor = .onHttpBody)
    (hmark : c.deleteMark = true) (h : onData S P s c data = .ok (s', c', n)) :
    Settled s c s' c' := by
  simp only [onData, processData, hp, onHttpBody, keepAlive, hmark, if_true] at h
  cases h
  exact ⟨rfl, rfl, rfl, fun _ _ => rfl, .inr (by simp)⟩

theorem onData_waiting {data : Bytes} {n : Option ℕ} (hs : Accounted s) (hw : Waiting s)
    (hc : s.clientConnectionPool.get k = some c)
    (hbody : c.dataProcessor = .onHttpBody → c.deleteMark = true ∨ c.localAuthId ≠ 0)
    (h : onData S P s c data = .ok (s', c', n)) :
    Waiting (s'.store c') ∧ Aged s (s'.store c') := by
  obtain ⟨g, hg⟩ := hs.sound.stage k c hc
  obtain ⟨heffect, -⟩ := onData_spec hg h
  have hid := hs.sound.connectionId k c hc
  refine hw.store heffect.clientConnectionPool hc (heffect.connectionId.trans hid)
    (heffect.mem_of_ne hid) fun hz => ?_
  obtain ⟨hzc, -⟩ := onData_ungranted hs.sound hs.served hc h hz
  have hunserved := hs.served.unserved k c hc hzc
  have hsettled : Settled s c s' c' := by
    by_cases hp : c.dataProcessor = .onHttpBody
    · exact onData_of_marked hp ((hbody hp).resolve_right (not_not.2 hzc)) h
    · exact onData_settled ⟨hunserved.processor.1, hunserved.processor.2, hp⟩ h
  have hconn := hsettled.connection
  simp only [Prod.mk.injEq] at hconn
  rw [hsettled.timeoutLists]
  exact ⟨hzc, hconn.1, hw.listed k c hc hzc⟩

/-! ## Ticks -/

/-- Taking up the results keeps the connections waiting: those without a grant get none, or are
    refused. -/
theorem processResults_waiting (hs : Accounted s) (hw : Waiting s)
    (h : processResults S P s = .ok t) : Accounted t ∧ Waiting t ∧ Aged s t := by
  refine processResults_keeps (I := fun u => Accounted u ∧ Waiting u ∧ Aged s u)
    (fun κ u v f m hu hpop hv => ?_) ⟨hs, hw, .refl s⟩ h
  obtain ⟨hu, hw, ha⟩ := hu
  obtain ⟨-, k, c, s', c', hc, rfl, hpool, hid, hne, hk⟩ :=
    onReady_ungranted hu.sound hu.ledger hu.served hpop hv
  obtain ⟨hw', ha'⟩ := hw.store hpool hc hid hne fun hz => by
    obtain ⟨hzc, -, htime, hlists⟩ := hk hz
    rw [hlists]
    exact ⟨hzc, htime, hw.listed k c hc hzc⟩
  exact ⟨onReady_accounted hu hpop hv, hw', ha.trans ha'⟩

theorem Turns.waiting {L : TurnLabel → Prop} (h : Turns S L s t) (hL : ∀ l, L l → l.IsApart)
    (hs : Sound s) (hw : Waiting s) : Waiting t ∧ Aged s t := by
  refine h.invariant (I := fun t => Waiting t ∧ Aged s t)
    (fun u l v hl hu hw hturn => ?_) hs ⟨hw, .refl s⟩
  obtain ⟨hr, hk⟩ := hL l hl
  obtain ⟨hv, ha⟩ := hturn.waiting hu hw.1 (fun k => (hk k).1) hr fun k c hl => by
    rcases hl with hl | hl
    · exact absurd hl (hk k).2.1
    · exact absurd hl (hk k).2.2
  exact ⟨hv, hw.2.trans ha⟩

theorem isApart_of_isPass (l : TurnLabel) (h : l.IsPass) : l.IsApart := by
  rcases h with rfl | ⟨m, rfl⟩
  · simp [TurnLabel.IsApart, TurnLabel.IsResult]
  · simp [TurnLabel.IsApart, TurnLabel.IsResult]

theorem isApart_of_isDestroy (l : TurnLabel) (h : l.IsDestroy) : l.IsApart := by
  obtain ⟨k, rfl⟩ := h
  simp [TurnLabel.IsApart, TurnLabel.IsResult]

/-! ## The order of the init list -/

theorem initOrdered_iff : InitOrdered s ↔ OrderedIn .initTimeout s := by
  constructor
  · refine fun ho => ⟨fun k hk => ?_, ho.sorted.imp fun {i j} hij x y hx hy => ?_⟩
    · obtain ⟨c, hc, hle⟩ := ho.live k hk
      exact ⟨_, stampOf_of_get hc, hle⟩
    · obtain ⟨c, hc, rfl⟩ := Option.map_eq_some_iff.1 hx
      obtain ⟨d, hd, rfl⟩ := Option.map_eq_some_iff.1 hy
      exact hij c d hc hd
  · refine fun ho => ⟨fun k hk => ho.live hk, ho.sorted.imp fun {i j} hij c d hc hd => ?_⟩
    exact hij _ _ (stampOf_of_get hc) (stampOf_of_get hd)

theorem Writes.initOrdered ⦃s t : ProxyAccessService σ⦄ (h : Writes s t) (ho : InitOrdered s) :
    InitOrdered t :=
  initOrdered_iff.2 (h.orderedIn (initOrdered_iff.1 ho) (by decide))

/-- What a tick leaves. -/
theorem tick_waiting {nowMS : ℕ} (hs : Accounted s) (hw : Waiting s)
    (h : tick S P s nowMS = .ok t) : Waiting t ∧ Aged s t := by
  obtain ⟨s₁, h₁, h₂⟩ := bind_eq_ok.1 h
  have hclock : Turn S s .clock { s with localTicker := nowMS } := .clock nowMS s.audit
  have hs₀ := hclock.accounted (isQuiet_of_isPass _ (.inl rfl)) hs
  obtain ⟨hw₀, ha₀⟩ := (Turns.single (.inl rfl) hclock).waiting isApart_of_isPass hs.sound hw
  obtain ⟨hs₁, hw₁, ha₁⟩ := processResults_waiting hs₀ hw₀ h₁
  obtain ⟨-, hready⟩ := processResults_turns hs₀.sound h₁
  have hpass : Turns S TurnLabel.IsPass s₁ (deferKillTimeouts s₁) := deferKillTimeouts_turns s₁
  have hs₂ := hpass.sound hs₁.sound
  obtain ⟨hw₂, ha₂⟩ := hpass.waiting isApart_of_isPass hs₁.sound hw₁
  obtain ⟨hkills, -⟩ := executeKillConnections_turns _ hs₂ (by exact hready) h₂
  obtain ⟨hw₃, ha₃⟩ := hkills.waiting isApart_of_isDestroy hs₂ hw₂
  exact ⟨hw₃, ((ha₀.trans ha₁).trans ha₂).trans ha₃⟩

/-- A tick leaves nothing in the init list that is due. -/
theorem tick_initFresh {nowMS : ℕ} (hs : Sound s) (ho : InitOrdered s)
    (hforward : s.localTicker ≤ nowMS) (h : tick S P s nowMS = .ok t) :
    InitOrdered t ∧ InitFresh nowMS t := by
  obtain ⟨ho', hf⟩ := tick_writes Writes.initOrdered hs ho hforward h
  exact ⟨ho', hf .initTimeout (by decide) fun _ => initOrdered_iff.1⟩

/-! ## Runs -/

/-- What a run keeps that meets the conditions. -/
structure Timely (s : ProxyAccessService σ) : Prop extends Accounted s where
  waiting : Waiting s
  ordered : InitOrdered s

theorem timely_init (services : σ) : Timely (init services) where
  toAccounted := accounted_init services
  waiting := ⟨fun _ _ h => (by cases h)⟩
  ordered := ⟨fun _ h => (by cases h), List.Pairwise.nil⟩

/-- Turns that are apart, or touch or close a connection with a grant, keep the others waiting. -/
theorem Turns.waiting_of_granted {L : TurnLabel → Prop} (h : Turns S L s t)
    (hL : ∀ l, L l → l.IsApart ∨ l = .touch k ∨ l = .close k) (hs : Sound s) (hw : Waiting s)
    (hc : s.clientConnectionPool.get k = some c) (hz : c.localAuthId ≠ 0) :
    Waiting t ∧ Aged s t := by
  have hall : Waiting t ∧ Aged s t ∧ Later s t := by
    refine h.invariant (I := fun t => Waiting t ∧ Aged s t ∧ Later s t)
      (fun u l v hl hu hw hturn => ?_) hs ⟨hw, .refl s, .of_pool rfl⟩
    obtain ⟨hw, ha, hlater⟩ := hw
    have hgranted (d : ClientConnection) (hd : u.clientConnectionPool.get k = some d) :
        d.localAuthId ≠ 0 := by
      obtain ⟨e, he, -, -, hid⟩ := hlater.connection k d (Storage.le_lastId_of_get hc) hd
      rw [hc] at he
      cases he
      rwa [hid hz]
    have hv : Waiting v ∧ Aged u v := by
      rcases hL l hl with ⟨hr, hapart⟩ | rfl | rfl
      · refine hturn.waiting hu hw (fun j => (hapart j).1) hr fun j d hl => ?_
        rcases hl with hl | hl
        · exact absurd hl (hapart j).2.1
        · exact absurd hl (hapart j).2.2
      · refine hturn.waiting hu hw (by simp) (fun ⟨_, h⟩ => by cases h) fun j d hl hd => ?_
        obtain rfl : k = j := by simpa using hl
        exact hgranted d hd
      · refine hturn.waiting hu hw (by simp) (fun ⟨_, h⟩ => by cases h) fun j d hl hd => ?_
        obtain rfl : k = j := by simpa using hl
        exact hgranted d hd
    exact ⟨hv.1, ha.trans hv.2, hlater.trans (hturn.later hu)⟩
  exact ⟨hall.1, hall.2.1⟩

/-- A step that meets the conditions keeps the connections without a grant waiting. -/
theorem step_waiting {e : ProxyEvent} (hs : Accounted s) (hw : Waiting s)
    (hrelay : RelayGranted s e) (hbody : BodyGranted s e) (h : step S P s e = .ok t) :
    Waiting t ∧ Aged s t := by
  have hsound := hs.sound
  have hturns := step_turns hsound h
  have hnone (h : t = s) : Waiting t ∧ Aged s t := by rw [h]; exact ⟨hw, .refl s⟩
  cases e with
  | onNewConnection remoteAddress localAddress initOk =>
    refine hturns.waiting (fun l hl => ?_) hsound hw
    rw [show l = .accept from hl]
    simp [TurnLabel.IsApart, TurnLabel.IsResult]
  | onPeerClose k =>
    obtain ⟨-, rfl⟩ | ⟨c, s', c', hc, hp, rfl⟩ := onConnection_eq_ok h
    · exact hnone rfl
    · by_cases hmark : c.deleteMark = true
      · rw [onPeerClose, if_pos hmark] at hp
        cases hp
        exact hw.store rfl hc (hsound.connectionId k c hc) (fun _ _ _ => id)
          fun hz => ⟨hz, rfl, hw.listed k c hc hz⟩
      · have hturn : Turn S s (.peerClose k) (s'.store c') :=
          .peerClose k c s' c' hc (eq_false_of_ne_true hmark) hp
        exact hturn.waiting hsound hw (by simp) (by simp [TurnLabel.IsResult]) (by simp)
  | onFlush k =>
    refine hturns.waiting (fun l hl => ?_) hsound hw
    rw [show l = .flush k from hl]
    simp [TurnLabel.IsApart, TurnLabel.IsResult]
  | onData k data =>
    obtain ⟨-, rfl⟩ | ⟨c, s', c', n, hc, hd, rfl⟩ := step_onData_eq_ok h
    · exact hnone rfl
    · exact onData_waiting hs hw hc (hbody c hc) hd
  | onUdpData i data a =>
    simp only [step, onUdpChannel] at h
    split at h
    · cases h; exact hnone rfl
    · next x hx =>
      obtain ⟨c, hc, hbind⟩ := hsound.exists_parent hx
      refine (onUdpData_turns hx h).waiting_of_granted (fun l hl => ?_) hsound hw hc
        (hs.served.granted hc (.inl (by rw [hbind]; rfl)))
      rcases hl with rfl | rfl
      · exact .inl (by simp [TurnLabel.IsApart, TurnLabel.IsResult])
      · exact .inr (.inl rfl)
  | postData k data =>
    obtain ⟨-, rfl⟩ | ⟨c, -, -, hc, -, -⟩ := onConnection_eq_ok h
    · exact hnone rfl
    · exact hturns.waiting_of_granted (fun l hl => .inr (.inl hl)) hsound hw hc (hrelay c hc)
  | postUdpData i a data =>
    simp only [step, onUdpChannel] at h
    split at h
    · cases h; exact hnone rfl
    · next x hx =>
      obtain ⟨c, hc, hbind⟩ := hsound.exists_parent hx
      exact (postUdpData_turns h).waiting_of_granted (S := S) (fun l hl => .inr (.inl hl)) hsound hw hc
        (hs.served.granted hc (.inl (by rw [hbind]; rfl)))
  | closeConnection k =>
    obtain ⟨-, rfl⟩ | ⟨c, -, -, hc, -, -⟩ := onConnection_eq_ok h
    · exact hnone rfl
    · exact hturns.waiting_of_granted (fun l hl => .inr (.inr hl)) hsound hw hc (hrelay c hc)
  | setReady κ f r =>
    refine hturns.waiting (fun l hl => ?_) hsound hw
    rw [show l = .ready from hl]
    simp [TurnLabel.IsApart, TurnLabel.IsResult]
  | tick nowMS => exact tick_waiting hs hw h

/-- A step keeps the init list in order, if the clock does not go back. -/
theorem step_initOrdered {e : ProxyEvent} (hs : Sound s) (ho : InitOrdered s)
    (hforward : TickForward s e) (h : step S P s e = .ok t) : InitOrdered t := by
  refine step_writes Writes.initOrdered hs ho ?_ h
  rintro nowMS rfl
  exact hforward

/-- All the conditions on a step. -/
def Punctual (s : ProxyAccessService σ) (e : ProxyEvent) : Prop :=
  TickForward s e ∧ RelayGranted s e ∧ BodyGranted s e

theorem step_timely {e : ProxyEvent} (hs : Timely s) (he : Punctual s e)
    (h : step S P s e = .ok t) : Timely t ∧ Aged s t := by
  obtain ⟨hforward, hrelay, hbody⟩ := he
  obtain ⟨hw, ha⟩ := step_waiting hs.toAccounted hs.waiting hrelay hbody h
  have hordered := step_initOrdered hs.sound hs.ordered hforward h
  exact ⟨⟨step_accounted hs.toAccounted h, hw, hordered⟩, ha⟩

theorem exec_timely {es : List ProxyEvent} (hs : Timely s) (hes : Along (step S P) Punctual s es)
    (h : exec (step S P) s es = .ok t) : Timely t ∧ Aged s t := by
  refine exec_invariant_along (I := fun t => Timely t ∧ Aged s t) (fun u e v hu hC hv => ?_)
    ⟨hs, .refl s⟩ hes h
  obtain ⟨ht, ha⟩ := step_timely hu.1 hC hv
  exact ⟨ht, hu.2.trans ha⟩

/-- A tick leaves no connection without a grant that was accepted too long before. -/
theorem tick_expired {a b : NetAddress} {nowMS : ℕ}
    (hnew : t.clientConnectionPool.get k = some (newConnection s a b k)) (ha : Aged t s')
    (hs : Timely s') (hforward : s'.localTicker ≤ nowMS) (h : step S P s' (.tick nowMS) = .ok u)
    (hc : u.clientConnectionPool.get k = some c) (hz : c.localAuthId = 0) :
    sub64 nowMS paClientAuthTimeoutMS < s.localTicker := by
  obtain ⟨hu, ha'⟩ := step_timely (e := .tick nowMS) hs ⟨hforward, trivial, trivial⟩ h
  -- The connection is in the init list, as old as it was when it was accepted.
  have hinit : k ∈ u.timeoutLists.nodes .initTimeout := by
    refine (hu.waiting.listed k c hc hz).resolve_right ?_
    rw [(tick_turns hs.sound h).2.1]
    exact List.not_mem_nil
  obtain ⟨d, hd, -, htime⟩ := (ha.trans ha').old k c (Storage.le_lastId_of_get hnew) hc hz
  rw [hnew] at hd
  cases hd
  rw [← show c.timestampMS = s.localTicker from htime]
  exact (tick_initFresh hs.sound hs.ordered hforward h).2 k hinit c hc

/-- No connection without a grant is in the idle list. -/
theorem Waiting.not_mem_idle (hw : Waiting s) (hc : s.clientConnectionPool.get k = some c)
    (hz : c.localAuthId = 0) : k ∉ s.timeoutLists.nodes .idleTimeout := by
  intro hidle
  rcases hw.listed k c hc hz with h | h
  · cases s.timeoutLists.disjoint h hidle
  · cases s.timeoutLists.disjoint h hidle

/-- A body that comes in for an unmarked connection without a grant keeps it alive. -/
theorem step_onHttpBody (data : Bytes) (hs : Sound s) (hc : s.clientConnectionPool.get k = some c)
    (hp : c.dataProcessor = .onHttpBody) (hmark : c.deleteMark = false) (hz : c.localAuthId = 0) :
    ∃ t d, step S P s (.onData k data) = .ok t ∧ t.clientConnectionPool.get k = some d ∧
      d.localAuthId = 0 ∧ k ∈ t.timeoutLists.nodes .idleTimeout := by
  have hid := hs.connectionId k c hc
  have hbody : ∃ s' c' n, onHttpBody S s c data = (s', c', some n) ∧
      s'.clientConnectionPool = s.clientConnectionPool ∧ c'.connectionId = k ∧
      c'.localAuthId = 0 ∧ k ∈ s'.timeoutLists.nodes .idleTimeout := by
    have hmem : k ∈ (s.timeoutLists.grabTail .idleTimeout c.connectionId).nodes .idleTimeout := by
      simp [Linked.mem_grabTail, hid]
    rcases onHttpBody_eq S s c data with ⟨hmark', -⟩ | ⟨-, -, heq⟩ | ⟨-, -, heq⟩
    · rw [hmark] at hmark'
      cases hmark'
    · exact ⟨_, _, _, heq, rfl, hid, hz, hmem⟩
    · exact ⟨_, _, _, heq, rfl, hid, hz, hmem⟩
  obtain ⟨s', c', n, hd, hpool, hid', hz', hidle⟩ := hbody
  obtain ⟨d, hdata, hid', hz'⟩ : ∃ d, onData S P s c data = .ok (s', d, some n) ∧
      d.connectionId = k ∧ d.localAuthId = 0 := by
    refine ⟨{ c' with
      totalTcpBytesFromClient := c'.totalTcpBytesFromClient + data.length.toUInt64 }, ?_, hid', hz'⟩
    simp only [onData, processData, hp, hd]
  refine ⟨s'.store d, d, ?_, ?_, hz', hidle⟩
  · simp only [step, onConnection, hc, hdata]
    rfl
  · rw [get_store_of_pool hpool hc hid', if_pos rfl]

/-- The connection that a step accepts is new. -/
theorem step_accepts {remoteAddress localAddress : NetAddress}
    (h : step S P s (.onNewConnection remoteAddress localAddress true) = .ok t)
    (hfree : s.clientConnectionPool.get k = none) (hk : (t.clientConnectionPool.get k).isSome) :
    t.clientConnectionPool.get k = some (newConnection s remoteAddress localAddress k) := by
  cases h
  unfold onNewConnection at hk ⊢
  dsimp only at hk ⊢
  split at hk
  · rw [hfree] at hk
    cases hk
  · next j p hp =>
    simp only [if_true] at hk ⊢
    change (p.get k).isSome at hk
    change p.get k = _
    rw [Storage.get_acquire hp] at hk ⊢
    split at hk
    · next hj => rw [if_pos hj, hj]; rfl
    · rw [hfree] at hk
      cases hk

/-- No connection without a grant outlives its deadline or gets to the idle list, if and only if
    no body comes in for an unmarked one. -/
theorem meetsDeadline_iff (services : σ) (es : List ProxyEvent)
    (hforward : Along (step S P) TickForward (init services) es)
    (hrelay : Along (step S P) RelayGranted (init services) es) :
    MeetsDeadline S P services es ↔ Along (step S P) BodyGranted (init services) es := by
  constructor
  · intro h
    refine along_iff.2 fun pre e s hpre hs => ?_
    cases e with
    | onData k data =>
      intro c hc hp
      by_contra hno
      rw [not_or, Bool.not_eq_true, not_not] at hno
      obtain ⟨t, d, ht, hd, hz, hidle⟩ :=
        step_onHttpBody (S := S) (P := P) data (sound_of_exec hs) hc hp hno.1 hno.2
      exact h.idle t ⟨_, hpre, (exec_snoc _ hs).trans ht⟩ k d hd hz hidle
    | _ => trivial
  · intro hbody
    have hes : Along (step S P) Punctual (init services) es := hforward.and (hrelay.and hbody)
    refine ⟨fun pre remoteAddress localAddress k mid nowMS s t u c hpre hs ht hfree hk hu hc hz => ?_,
      fun s hs k c hc hz hidle => ?_⟩
    · have hs' := (exec_timely (timely_init services)
        (hes.of_prefix ((List.prefix_append _ _).trans hpre)) hs).1
      have hrest := (hes.of_prefix hpre).of_append hs
      have ht' := (step_timely hs' hrest.1 ht).1
      obtain ⟨v, hv, hu⟩ := exec_append_eq_ok.1 hu
      obtain ⟨w, hw, hu⟩ := exec_cons_eq_ok.1 hu
      cases hu
      have hmid := hrest.2 t ht
      obtain ⟨hv', hav⟩ := exec_timely ht' (hmid.of_prefix (List.prefix_append _ _)) hv
      have htick : Punctual v (.tick nowMS) := (hmid.of_append hv).1
      exact tick_expired (step_accepts ht hfree hk) hav hv' htick.1 hw hc hz
    · obtain ⟨pre, hpre, hs⟩ := hs
      have hs' := (exec_timely (timely_init services) (hes.of_prefix hpre) hs).1
      exact hs'.waiting.not_mem_idle hc hz hidle

/-- Services that refuse every authentication. -/
def refusingServices : Services Unit where
  __ := grantingServices
  acquireAuthInfo _ _ := .ok ((), none)
  localAuthId_ne_zero h := by cases h

/-- A platform on which the credential `YTpi` is that of the account `a`. -/
def encodedPlatform : Platform where
  __ := localPlatform
  base64Decode s := if s = ascii "YTpi" then ascii "a:b" else []

/-- A client whose request is refused, and which goes on to send `body`. -/
def refusedClient (body : List ProxyEvent) : List ProxyEvent :=
  [.tick 200000, .onNewConnection localAddress localAddress true,
    .onData 1 (ascii "GET http://a/ HTTP/1.1\r\n"),
    .onData 1 (ascii "Proxy-Authorization: Basic YTpi\r\n\r\n"), .tick 200001] ++ body ++
    [.tick 205000]

theorem meetsDeadline_sample :
    MeetsDeadline refusingServices encodedPlatform () (refusedClient []) :=
  (meetsDeadline_iff () _ (along_of_check (by decide +kernel)) (along_of_check (by decide +kernel))).2
    (along_of_check (by decide +kernel))

/-- The body keeps the refused client alive. -/
theorem meetsDeadline_counterexample :
    ¬MeetsDeadline refusingServices encodedPlatform () (refusedClient [.onData 1 [1]]) := by
  intro h
  obtain ⟨u, hu, hp⟩ := exists_ok_of_check
    (x := exec (step refusingServices encodedPlatform) (init ()) (refusedClient [.onData 1 [1]]))
    (p := fun u => (u.clientConnectionPool.get 1).map (fun c => c.localAuthId) = some 0)
    (by decide +kernel)
  obtain ⟨c, hc, hz⟩ := Option.map_eq_some_iff.1 (of_decide_eq_true hp)
  obtain ⟨s, hs, ht⟩ := exec_cons_eq_ok.1 hu
  obtain ⟨t, ht, hu⟩ := exec_cons_eq_ok.1 ht
  have htick : exec (step refusingServices encodedPlatform) (init ()) [.tick 200000] = .ok s :=
    exec_cons_eq_ok.2 ⟨s, hs, rfl⟩
  obtain ⟨s', hs', hp⟩ := exists_ok_of_check
    (x := exec (step refusingServices encodedPlatform) (init ()) [.tick 200000])
    (p := fun s => s.localTicker = 200000 ∧ (s.clientConnectionPool.get 1).isNone)
    (by decide +kernel)
  obtain ⟨t', ht', hp'⟩ := exists_ok_of_check
    (x := exec (step refusingServices encodedPlatform) (init ())
      [.tick 200000, .onNewConnection localAddress localAddress true])
    (p := fun t => (t.clientConnectionPool.get 1).isSome) (by decide +kernel)
  obtain rfl : s = s' := Except.ok.inj (htick.symm.trans hs')
  rw [exec_cons_of_ok _ hs, exec_cons_of_ok _ ht] at ht'
  obtain rfl : t = t' := Except.ok.inj ht'
  obtain ⟨hticker, hnone⟩ := of_decide_eq_true hp
  have hlate := h.expired [.tick 200000] localAddress localAddress 1 _ 205000 s t u c
    (List.prefix_refl _) htick ht (Option.isNone_iff_eq_none.1 hnone) hp' hu hc hz
  rw [hticker] at hlate
  exact absurd hlate (by decide)

end

end ProxyAccessService

end ProxyPlatform
