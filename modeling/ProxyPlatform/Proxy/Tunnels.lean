import ProxyPlatform.Proxy.Deadline

/-!
# Established tunnels and the authentication deadline

A connection leaves the init list by `KeepAlive`, and only the completion of a UDP
association calls it. The three handlers that take up a relay connection do not: a tunnel
that was established without traffic is still in the init list, and killed at the deadline of
the authentication.

* `Established`: what the relay has set up for a connection;
* `Unlisted`: no established connection is in the init list. Only taking up a relay
  connection for a client in the init list breaks it (`Turn.unlisted`, `onReady_unlisted`);
* `sparesTunnels_of_along`: without such a result, no run kills a tunnel in the init pass.
-/

namespace ProxyPlatform.ProxyAccessService

variable {σ : Type*} {S : Services σ} {P : Platform}

/-- The connection has a relay connection, or a UDP association that is ready. -/
def Established (s : ProxyAccessService σ) (c : ClientConnection) : Prop :=
  c.relaySideConnectionId ≠ 0 ∨ ∃ u udpChannel, c.bindUdpChannel = some u ∧
    s.clientUdpChannelPool.get u = some udpChannel ∧ udpChannel.relaySideUdpChannelId ≠ 0

/-- No established connection without a mark is in the init list. -/
def Unlisted (s : ProxyAccessService σ) : Prop :=
  ∀ k c, s.clientConnectionPool.get k = some c → c.deleteMark = false → s.Established c →
    k ∉ s.timeoutLists.nodes .initTimeout

/-- The relay connections that are ready to be taken up are for marked clients, or for clients
    that have left the init list. -/
def ResultsApart (s : ProxyAccessService σ) : Prop :=
  ∀ f ∈ (s.futureManager .acquireDeviceConnection).futureList,
    ∀ future ∈ (s.futureManager .acquireDeviceConnection).get f, ∀ r ∈ future.result,
      ∀ c ∈ s.clientConnectionPool.get future.context,
        r = 0 ∨ c.deleteMark = true ∨ future.context ∉ s.timeoutLists.nodes .initTimeout

/-- When a tick gets to the relay connections, those that are ready are apart from the init
    list. -/
def TakesUpApart (S : Services σ) (P : Platform) (s : ProxyAccessService σ) : ProxyEvent → Prop
  | .tick nowMS => ∀ t ∈ (loopsBefore S P { s with localTicker := nowMS }
      .acquireDeviceConnection).toOption, ResultsApart t
  | _ => True

instance (s : ProxyAccessService σ) : Decidable (ResultsApart s) := by
  unfold ResultsApart; infer_instance

instance (s : ProxyAccessService σ) : ∀ e : ProxyEvent, Decidable (TakesUpApart S P s e)
  | .tick nowMS => inferInstanceAs
    (Decidable (∀ t ∈ (loopsBefore S P { s with localTicker := nowMS }
      .acquireDeviceConnection).toOption, ResultsApart t))
  | .onNewConnection .. | .onPeerClose _ | .onFlush _ | .onData .. | .onUdpData ..
  | .postData .. | .postUdpData .. | .closeConnection _ | .setReady .. => .isTrue trivial

/-- On the events `es`, no established tunnel is subject to the authentication deadline. -/
structure SparesTunnels (S : Services σ) (P : Platform) (services : σ) (es : List ProxyEvent) :
    Prop where
  unlisted : ∀ s, Visits (step S P) (init services) es s → Unlisted s
  /-- The pass of a tick over the init list kills none. -/
  spared : ∀ pre nowMS s t, pre ++ [.tick nowMS] <+: es → exec (step S P) (init services) pre = .ok s →
    processResults S P { s with localTicker := nowMS } = .ok t →
    ∀ k c, t.clientConnectionPool.get k = some c → c.deleteMark = false → t.Established c →
      k ∈ (deferKillInitTimeoutConnection t).timeoutLists.nodes .kill →
      k ∈ t.timeoutLists.nodes .kill

section

variable {s t u s' : ProxyAccessService σ} {c c' : ClientConnection} {k : ℕ}
  {taken : Option ((κ : FutureKind) × Option κ.Result)}

/-! ## What establishes a tunnel -/

/-- The UDP channels of `t` that the relay serves are served in `s`. -/
def ServedBefore (s t : ProxyAccessService σ) : Prop :=
  ∀ u x, t.clientUdpChannelPool.get u = some x → x.relaySideUdpChannelId ≠ 0 →
    ∃ y, s.clientUdpChannelPool.get u = some y ∧ y.relaySideUdpChannelId ≠ 0

theorem ServedBefore.of_get (h : ∀ u, t.clientUdpChannelPool.get u = s.clientUdpChannelPool.get u) :
    ServedBefore s t := fun u x hx hne => ⟨x, by rw [← h, hx], hne⟩

/-- A connection that holds the same was established before. -/
theorem Established.before (h : t.Established c') (hserved : ServedBefore s t)
    (hrelay : c'.relaySideConnectionId = c.relaySideConnectionId)
    (hbind : c'.bindUdpChannel = c.bindUdpChannel) : s.Established c := by
  rcases h with h | ⟨u, x, hu, hx, hne⟩
  · exact .inl (by rwa [← hrelay])
  · obtain ⟨y, hy, hne'⟩ := hserved u x hx hne
    exact .inr ⟨u, y, by rw [← hbind, hu], hy, hne'⟩

theorem Act.relaySideConnectionId {x : Core σ} (h : Act S s c s' x taken) :
    x.relaySideConnectionId = c.relaySideConnectionId ∨
      ∃ r, taken = some ⟨.acquireDeviceConnection, some r⟩ ∧ x.relaySideConnectionId = r := by
  cases h with
  | establish r _ _ hcore | establishNormal r _ _ _ _ hcore =>
    exact .inr ⟨r, rfl, congrArg Core.relaySideConnectionId hcore⟩
  | quiet _ hcore | authenticate _ _ _ _ _ _ _ _ _ hcore | grant _ _ hcore
  | locate _ _ _ _ _ _ _ _ _ _ hcore | connect _ _ _ _ _ _ _ _ _ _ _ _ hcore
  | unbound _ _ _ _ hcore | bind _ _ _ _ _ _ _ hcore
  | associate _ _ _ _ _ _ _ _ _ _ _ _ _ _ _ _ hcore | channelReady _ _ _ _ _ _ hcore
  | forward _ _ hcore => exact .inl (congrArg Core.relaySideConnectionId hcore)

/-- A call on a connection establishes no other, and it only by taking up what the relay has set
    up for it. -/
theorem Effect.established (h : Effect S taken s c s' c') (hs : Paired s)
    (hc : s.clientConnectionPool.get k = some c) :
    (∀ j d, j ≠ k → s.clientConnectionPool.get j = some d → s'.Established d → s.Established d) ∧
      (s'.Established c' → s.Established c ∨
        (∃ r, r ≠ 0 ∧ taken = some ⟨.acquireDeviceConnection, some r⟩) ∨
        ∃ r, taken = some ⟨.acquireDeviceUdpChannel, some r⟩) := by
  have hrelay : c'.relaySideConnectionId ≠ 0 → c.relaySideConnectionId ≠ 0 ∨
      ∃ r, r ≠ 0 ∧ taken = some ⟨.acquireDeviceConnection, some r⟩ := by
    intro hne
    rcases h.act.relaySideConnectionId with heq | ⟨r, htaken, heq⟩
    · exact .inl (by rwa [← show c'.relaySideConnectionId = _ from heq])
    · exact .inr ⟨r, by rwa [← show c'.relaySideConnectionId = _ from heq], htaken⟩
  rcases h.act.channels with ⟨hbind, hget⟩ | ⟨v, w, hnone, hbind, hfree, -, hzero, hget⟩ |
    ⟨v, w, e, htaken, hbind, hbind', -, hv, hget⟩
  · have hserved : ServedBefore s s' := .of_get hget
    refine ⟨fun j d _ _ hd => hd.before hserved rfl rfl, ?_⟩
    rintro (hne | hudp)
    · exact (hrelay hne).imp .inl .inl
    · obtain ⟨i, x, hi, hx, hne⟩ := hudp
      obtain ⟨y, hy, hne'⟩ := hserved i x hx hne
      exact .inl (.inr ⟨i, y, hbind.symm.trans hi, hy, hne'⟩)
  · -- The channel that is bound is not served yet.
    have hserved : ServedBefore s s' := by
      intro i x hx hne
      rw [show s'.clientUdpChannelPool.get i = _ from hget i] at hx
      split at hx
      · cases hx
        exact absurd hzero hne
      · exact ⟨x, hx, hne⟩
    refine ⟨fun j d _ _ hd => hd.before hserved rfl rfl, ?_⟩
    rintro (hne | ⟨i, x, hi, hx, hne⟩)
    · exact (hrelay hne).imp .inl .inl
    · rw [show c'.bindUdpChannel = _ from hbind, Option.some_inj] at hi
      subst hi
      obtain ⟨y, hy, -⟩ := hserved v x hx hne
      rw [hfree] at hy
      cases hy
  · refine ⟨fun j d hj hd hest => ?_, fun _ => .inr (.inr ⟨e, htaken⟩)⟩
    rcases hest with hne | ⟨i, x, hi, hx, hne⟩
    · exact .inl hne
    · rw [show s'.clientUdpChannelPool.get i = _ from hget i] at hx
      split at hx
      · -- The channel is that of `k`.
        next hiv =>
        subst hiv
        have hj' := hs.parent hd hi hv
        exact absurd (hj'.symm.trans (hs.parent hc hbind hv)) hj
      · exact .inr ⟨i, x, hi, hx, hne⟩

/-! ## Turns -/

/-- Nothing is listed anew when no connection changes. -/
theorem Unlisted.of_get (hu : Unlisted s)
    (hget : ∀ j c, t.clientConnectionPool.get j = some c → s.clientConnectionPool.get j = some c)
    (hserved : ServedBefore s t)
    (hlists : ∀ j ∈ t.timeoutLists.nodes .initTimeout, j ∈ s.timeoutLists.nodes .initTimeout) :
    Unlisted t := fun k c hc hmark hest hk =>
  hu k c (hget k c hc) hmark (hest.before hserved rfl rfl) (hlists k hk)

/-- Writing back a connection keeps the others off the init list. -/
theorem Unlisted.store (hu : Unlisted s) (hpool : s'.clientConnectionPool = s.clientConnectionPool)
    (hc : s.clientConnectionPool.get k = some c) (hid : c'.connectionId = k)
    (hothers : ∀ j d, j ≠ k → s.clientConnectionPool.get j = some d → s'.Established d →
      s.Established d)
    (hlists : ∀ j ∈ s'.timeoutLists.nodes .initTimeout, j ∈ s.timeoutLists.nodes .initTimeout)
    (hk : c'.deleteMark = false → s'.Established c' →
      s.Established c ∧ c.deleteMark = false ∨ k ∉ s'.timeoutLists.nodes .initTimeout) :
    Unlisted (s'.store c') := by
  intro j d hd hmark hest hj
  rw [get_store_of_pool hpool hc hid] at hd
  split at hd
  · next hjk =>
    subst hjk
    cases hd
    rcases hk hmark hest with ⟨hold, hmark'⟩ | hnot
    · exact hu j c hc hmark' hold (hlists j hj)
    · exact hnot hj
  · next hjk => exact hu j d hd hmark (hothers j d hjk hd hest) (hlists j hj)

/-- A call on a connection links none in the init list. -/
theorem Frame.mem_init (h : Frame s c s' c') (j : ℕ)
    (hj : j ∈ s'.timeoutLists.nodes .initTimeout) : j ∈ s.timeoutLists.nodes .initTimeout := by
  rcases h.timeoutLists with ⟨hl, -⟩ | ⟨-, hl, -⟩
  · rwa [← hl]
  · rw [hl, Linked.mem_grabTail] at hj
    split at hj
    · cases hj
    · exact hj

theorem mem_init_of_grabTail {L : Linked ClientList} {l : ClientList} (hl : l ≠ .initTimeout) {j : ℕ}
    (hj : j ∈ (L.grabTail l k).nodes .initTimeout) : j ∈ L.nodes .initTimeout := by
  rw [Linked.mem_grabTail] at hj
  split at hj
  · exact absurd hj.symm hl
  · exact hj

/-- A turn that takes up nothing of the relay lists no established connection. -/
theorem Turn.unlisted {x : TurnLabel} (h : Turn S s x t) (hs : Sound s) (hu : Unlisted s)
    (hx : x ≠ .result .acquireDeviceConnection ∧ x ≠ .result .acquireDeviceUdpChannel) :
    Unlisted t := by
  cases h with
  | clock | forwardUdp => exact hu.of_get (fun _ _ => id) (.of_get fun _ => rfl) fun _ => id
  | accept remoteAddress localAddress k p hacquire =>
    have hget (j : ℕ) : ({ s with clientConnectionPool := p }.linkTail .initTimeout
        k).clientConnectionPool.get j = if j = k then some (newConnection s remoteAddress localAddress k)
          else s.clientConnectionPool.get j := Storage.get_acquire hacquire j
    intro j d hd hmark hest hj
    rw [hget] at hd
    split at hd
    · cases hd
      rcases hest with hne | ⟨_, _, hbind, -⟩
      · exact hne rfl
      · cases hbind
    · next hjk =>
      refine hu j d hd hmark (hest.before (.of_get fun _ => rfl) rfl rfl) ?_
      rwa [linkTail, Linked.mem_grabTail, if_neg hjk] at hj
  | refuse y k p hacquire =>
    refine hu.of_get (fun j c hj => ?_) (.of_get fun _ => rfl) fun _ => id
    change (p.release k).get j = some c at hj
    rw [Storage.get_release, Storage.get_acquire hacquire] at hj
    split at hj
    · cases hj
    · exact hj
  | call k c s' c' hc heffect hstage =>
    obtain ⟨hothers, hself⟩ := heffect.established hs.toPaired hc
    refine hu.store heffect.clientConnectionPool hc
      (heffect.connectionId.trans (hs.connectionId k c hc)) hothers heffect.mem_init
      fun hmark hest => .inl ⟨?_, heffect.deleteMark ▸ hmark⟩
    rcases hself hest with hold | ⟨r, -, htaken⟩ | ⟨r, htaken⟩
    · exact hold
    · cases htaken
    · cases htaken
  | result κ f m future c s' c' hpop hf hc hcf heffect hcf' hstage =>
    obtain ⟨hothers, hself⟩ := heffect.established (hs.toPaired.popHead hpop) hc
    refine hu.store (by exact heffect.clientConnectionPool) hc
      (by exact heffect.connectionId.trans (hs.connectionId _ c hc)) (by exact hothers)
      (by exact heffect.mem_init) fun hmark hest => .inl ⟨?_, heffect.deleteMark ▸ hmark⟩
    rcases hself hest with hold | ⟨r, -, htaken⟩ | ⟨r, htaken⟩
    · exact hold
    · exact absurd (congrArg TurnLabel.result (Sigma.mk.inj (Option.some.inj htaken)).1) hx.1
    · exact absurd (congrArg TurnLabel.result (Sigma.mk.inj (Option.some.inj htaken)).1) hx.2
  | touch k c s' c' l hc hframe hcore hshape hudp =>
    have hserved : ServedBefore s s' := by
      intro v x hx hne
      have h := hudp v
      rw [hx, Option.map_some, eq_comm, Option.map_eq_some_iff] at h
      obtain ⟨y, hy, hxy⟩ := h
      rw [Prod.mk.injEq] at hxy
      exact ⟨y, hy, by rwa [hxy.2]⟩
    refine hu.store hframe.clientConnectionPool hc
      (hframe.connectionId.trans (hs.connectionId k c hc))
      (fun j d _ _ hd => hd.before hserved rfl rfl) hframe.mem_init
      fun hmark hest => .inl ⟨?_, hframe.deleteMark ▸ hmark⟩
    exact hest.before hserved (congrArg Core.relaySideConnectionId hcore)
      (congrArg Core.bindUdpChannel hcore)
  | peerClose k c s' c' hc hmark h =>
    obtain ⟨v, l, heq, -⟩ := onPeerClose_eq_ok hmark h
    cases heq
    exact hu.store rfl hc (hs.connectionId k c hc) (fun _ _ _ _ => id)
      (fun _ => mem_init_of_grabTail (by decide)) fun hmark => by cases hmark
  | flush k c hc =>
    have hid := hs.connectionId k c hc
    rcases onFlush_eq s c with ⟨hm, heq⟩ | ⟨hm, heq⟩
    · rw [heq]
      refine hu.store rfl hc hid (fun _ _ _ _ => id)
        (fun _ => mem_init_of_grabTail (by decide)) fun hmark => ?_
      rw [show c.deleteMark = false from hmark] at hm
      cases hm
    · rw [heq]
      exact hu.store rfl hc hid (fun _ _ _ _ => id) (fun _ => id) fun _ hest => .inl ⟨hest, hm⟩
  | close k c hc =>
    have hid := hs.connectionId k c hc
    rcases closeConnection_eq s c with ⟨hm, heq⟩ | ⟨-, -, heq⟩ | ⟨-, -, heq⟩
    · rw [heq]
      exact hu.store rfl hc hid (fun _ _ _ _ => id) (fun _ => id) fun hmark hest => .inl ⟨hest, hmark⟩
    · rw [heq]
      exact hu.store rfl hc hid (fun _ _ _ _ => id)
        (fun _ => mem_init_of_grabTail (by decide)) fun hmark => by cases hmark
    · rw [heq]
      exact hu.store rfl hc hid (fun _ _ _ _ => id) (fun _ => id) fun hmark => by cases hmark
  | ready κ f r =>
    obtain ⟨hpool, hlists, -⟩ := setReady_leaves s κ f r
    refine hu.of_get (fun j c hj => by rwa [← hpool]) (.of_get fun v => ?_) fun j hj => by
      rwa [← hlists]
    unfold setReady
    split
    · rfl
    · split <;> rfl
  | expire l h timeoutMS =>
    refine hu.of_get (fun _ _ => id) (.of_get fun _ => rfl) fun j hj => ?_
    simp only [deferKillTimeoutConnection, Linked.mem_expire] at hj
    split at hj
    · cases hj
    · exact hj
  | destroy k lists c t hpop hc hready h =>
    obtain ⟨hpool, -, hudp, hlists, -⟩ := destroyConnection_eq_ok h
    refine hu.of_get (fun j d hd => ?_) (fun v x hx hne => ⟨x, ?_, hne⟩) fun j hj => ?_
    · rw [hpool, Storage.get_release] at hd
      split at hd
      · cases hd
      · exact hd
    · rw [hudp] at hx
      split at hx
      · exact hx
      · rw [Storage.get_release] at hx
        split at hx
        · cases hx
        · exact hx
    · rw [hlists, Linked.mem_unlink] at hj
      exact ((Linked.mem_of_popHead hpop).1 hj.2).2

/-! ## Results of the relay -/

variable {κ : FutureKind} {f : ℕ} {m : FuturePoolManager ℕ κ.Result}

/-- The completion of a UDP association keeps its connection alive. -/
theorem onUdpChannelResult_lists {e : ℕ} (h : onUdpChannelResult P s c (some e) = .ok (s', c'))
    (hmark : c.deleteMark = false) :
    s'.timeoutLists = s.timeoutLists.grabTail .idleTimeout c.connectionId := by
  simp only [onUdpChannelResult] at h
  split at h
  · cases h
  · split at h
    · cases h
    · rw [Except.ok.injEq, post, keepAlive, if_neg (by simp [hmark])] at h
      cases h
      rfl

/-- What is ready stays apart from the init list while one result after the other is taken up. -/
theorem ResultsApart.result (ha : ResultsApart s) (hs : Sound s)
    (h : Turn S s (.result .acquireDeviceConnection) t) : ResultsApart t := by
  cases h with
  | result _ f m future c s' c' hpop hf hc hcf heffect hcf' hstage =>
    obtain ⟨hget, -, hlist⟩ := popHead_eq_some hpop
    have hmanager : s'.futureManager .acquireDeviceConnection = m := by
      rcases heffect.act.futures .acquireDeviceConnection with ⟨heq, -⟩ | ⟨_, _, _, _, hnone, -⟩
      · exact Eq.trans heq (by simp [setFutureManager])
      · rw [hcf] at hnone
        cases hnone
    intro g hg x hx r hr d hd
    simp only [store, setFutureManager, Function.update_self, hmanager,
      FuturePoolManager.mem_futureList_releaseFuture, hlist] at hg
    simp only [store, setFutureManager, Function.update_self, hmanager,
      FuturePoolManager.get_releaseFuture, if_neg hg.1, hget] at hx
    -- Another future belongs to another connection.
    have hne : x.context ≠ future.context := by
      intro heq
      have hfut (i y) (hy : (s.futureManager .acquireDeviceConnection).get i = some y) :
          s.futureOf .acquireDeviceConnection y.context = some i :=
        (hs.futures _ _ i).2 (by simp [contextOf, hy])
      have h₁ := hfut g x hx
      rw [heq, hfut f future hf, Option.some_inj] at h₁
      exact hg.1 h₁.symm
    have hpool : (s'.setFutureManager .acquireDeviceConnection ((s'.futureManager
        .acquireDeviceConnection).releaseFuture f)).clientConnectionPool = s.clientConnectionPool :=
      heffect.clientConnectionPool
    have hid : (c'.setFuture .acquireDeviceConnection none).connectionId = future.context :=
      heffect.connectionId.trans (hs.connectionId _ c hc)
    rw [Option.mem_def, get_store_of_pool hpool hc hid, if_neg hne] at hd
    exact (ha g hg.2.2 x hx r hr d hd).imp_right (Or.imp_right fun hnot hmem =>
      hnot (heffect.mem_init _ hmem))

/-- Taking up a result lists no established connection. -/
theorem onReady_unlisted (hs : Sound s) (hu : Unlisted s)
    (hpop : (s.futureManager κ).popHead = some (f, m))
    (ha : κ = .acquireDeviceConnection → ResultsApart s)
    (h : onReady S P κ (s.setFutureManager κ m) f = .ok t) :
    Turn S s (.result κ) t ∧ Unlisted t := by
  obtain ⟨handle, heq, hhandles, -⟩ := onReady_spec (S := S) (P := P) κ
  have hturn : Turn S s (.result κ) t := (onResult_turn hs hpop hhandles (by rw [← heq, h])).1
  refine ⟨hturn, ?_⟩
  by_cases hκ : κ ≠ .acquireDeviceConnection ∧ κ ≠ .acquireDeviceUdpChannel
  · exact hturn.unlisted hs hu ⟨by simpa using hκ.1, by simpa using hκ.2⟩
  have hlists := h
  cases hturn with
  | result _ f' m' future c s' c' hpop' hf hc hcf heffect hcf' hstage =>
    rw [hpop, Option.some_inj, Prod.mk.injEq] at hpop'
    obtain ⟨rfl, rfl⟩ := hpop'
    obtain ⟨hothers, hself⟩ := heffect.established (hs.toPaired.popHead hpop) hc
    have hid := hs.connectionId _ c hc
    refine hu.store (by exact heffect.clientConnectionPool) hc
      (by exact heffect.connectionId.trans hid) (by exact hothers) (by exact heffect.mem_init)
      fun hmark hest => ?_
    have hmark' : c.deleteMark = false := heffect.deleteMark ▸ hmark
    rcases hself hest with hold | ⟨r, hr, htaken⟩ | ⟨r, htaken⟩
    · exact .inl ⟨hold, hmark'⟩
    · obtain ⟨rfl, hres⟩ := Sigma.mk.inj (Option.some.inj htaken)
      refine .inr fun hmem => ?_
      rcases ha rfl f (popHead_eq_some hpop).2.1 future hf r (eq_of_heq hres) c hc with hz | hm | hnot
      · exact hr hz
      · rw [hmark'] at hm
        cases hm
      · exact hnot (heffect.mem_init _ hmem)
    · obtain ⟨rfl, hres⟩ := Sigma.mk.inj (Option.some.inj htaken)
      refine .inr ?_
      obtain ⟨future', c₀, s₁, c₁, i, hf₀, hc₀, hp, -, ht⟩ :=
        onResult_eq_ok (show onResult .acquireDeviceUdpChannel (onUdpChannelResult P) _ f = _ from
          hlists)
      have hfut : ((s.setFutureManager .acquireDeviceUdpChannel m).futureManager
          .acquireDeviceUdpChannel).get f = some future := by
        simpa [setFutureManager, (popHead_eq_some hpop).1] using hf
      rw [hfut] at hf₀
      cases hf₀
      rw [show (s.setFutureManager .acquireDeviceUdpChannel m).clientConnectionPool.get
        future.context = some c from hc] at hc₀
      cases hc₀
      rw [eq_of_heq hres] at hp
      have hkept := onUdpChannelResult_lists hp hmark'
      have hsame : s'.timeoutLists = s₁.timeoutLists := by
        have hboth := congrArg timeoutLists ht
        exact hboth
      change future.context ∉ s'.timeoutLists.nodes .initTimeout
      rw [hsame, hkept, hid, Linked.mem_grabTail, if_pos rfl]
      decide

theorem processReady_unlisted (hs : Sound s) (hu : Unlisted s)
    (ha : κ = .acquireDeviceConnection → ResultsApart s)
    (h : processReady κ (onReady S P κ) s = .ok t) : Sound t ∧ Unlisted t := by
  unfold processReady at h
  generalize (s.futureManager κ).futureList.length = n at h
  induction n generalizing s with
  | zero =>
    obtain ⟨-, rfl⟩ | ⟨_, _, _, _, hn, -⟩ := processReadyFutures_eq_ok h
    · exact ⟨hs, hu⟩
    · cases hn
  | succ n ih =>
    obtain ⟨-, rfl⟩ | ⟨f, m, k, u, hn, hpop, hv, h⟩ := processReadyFutures_eq_ok h
    · exact ⟨hs, hu⟩
    · cases hn
      obtain ⟨hturn, hunlisted⟩ := onReady_unlisted hs hu hpop ha hv
      refine ih (hturn.sound hs) hunlisted (fun hκ => ?_) h
      subst hκ
      exact (ha rfl).result hs hturn

/-- The results a tick takes up list no established connection. -/
theorem processResults_unlisted (hs : Sound s) (hu : Unlisted s)
    (ha : ∀ t, loopsBefore S P s .acquireDeviceConnection = .ok t → ResultsApart t)
    (h : processResults S P s = .ok t) : Sound t ∧ Unlisted t := by
  obtain ⟨s₁, h₁, h⟩ := bind_eq_ok.1 h
  obtain ⟨s₂, h₂, h⟩ := bind_eq_ok.1 h
  obtain ⟨s₃, h₃, h₄⟩ := bind_eq_ok.1 h
  have hloop {κ : FutureKind} {s t : ProxyAccessService σ} (hs : Sound s ∧ Unlisted s)
      (ha : κ = .acquireDeviceConnection → ResultsApart s)
      (h : processReady κ (onReady S P κ) s = .ok t) : Sound t ∧ Unlisted t :=
    processReady_unlisted hs.1 hs.2 ha h
  have hs₁ := hloop (κ := .auth) ⟨hs, hu⟩ (fun h => (by cases h)) h₁
  have hs₂ := hloop (κ := .acquireDevice) hs₁ (fun h => (by cases h)) h₂
  have hs₃ := hloop (κ := .acquireDeviceConnection) hs₂
    (fun _ => ha s₂ (bind_eq_ok.2 ⟨s₁, h₁, h₂⟩)) h₃
  exact hloop (κ := .acquireDeviceUdpChannel) hs₃ (fun h => (by cases h)) h₄

/-! ## Runs -/

/-- Turns that take up nothing of the relay list no established connection. -/
theorem Turns.unlisted {L : TurnLabel → Prop} (h : Turns S L s t) (hL : ∀ x, L x → ¬x.IsResult)
    (hs : Sound s) (hu : Unlisted s) : Unlisted t :=
  h.invariant (fun _ x _ hx hs hu hturn => hturn.unlisted hs hu
    ⟨fun h => hL x hx ⟨_, h⟩, fun h => hL x hx ⟨_, h⟩⟩) hs hu

theorem tick_unlisted {nowMS : ℕ} (hs : Sound s) (hu : Unlisted s)
    (ha : TakesUpApart S P s (.tick nowMS))
    (h : processResults S P { s with localTicker := nowMS } = .ok t) : Sound t ∧ Unlisted t := by
  have hs₀ : Sound { s with localTicker := nowMS } := hs.congr (fun _ => rfl) rfl fun _ => rfl
  refine processResults_unlisted hs₀ (hu.of_get (fun _ _ => id) (.of_get fun _ => rfl) fun _ => id)
    (fun t ht => ?_) h
  exact ha t (by rw [ht]; rfl)

theorem step_unlisted {e : ProxyEvent} (hs : Sound s) (hu : Unlisted s) (ha : TakesUpApart S P s e)
    (h : step S P s e = .ok t) : Unlisted t := by
  have hturns := step_turns hs h
  cases e with
  | tick nowMS =>
    obtain ⟨s₁, h₁, h₂⟩ := bind_eq_ok.1 h
    obtain ⟨hs₁, hu₁⟩ := tick_unlisted hs hu ha h₁
    have hpass : Turns S TurnLabel.IsPass s₁ (deferKillTimeouts s₁) := deferKillTimeouts_turns s₁
    have hs₂ := hpass.sound hs₁
    have hu₂ := hpass.unlisted (fun x hx => (isApart_of_isPass x hx).1) hs₁ hu₁
    have hready := (processResults_turns (hs.congr (t := { s with localTicker := nowMS })
      (fun _ => rfl) rfl fun _ => rfl) h₁).2
    obtain ⟨hkills, -⟩ := executeKillConnections_turns _ hs₂ (by exact hready) h₂
    exact hkills.unlisted (fun x hx => (isApart_of_isDestroy x hx).1) hs₂ hu₂
  | onPeerClose k =>
    exact hturns.unlisted (fun x hx => by rcases hx with rfl | rfl <;> rintro ⟨_, h⟩ <;> cases h) hs hu
  | onUdpData i data a =>
    exact hturns.unlisted
      (fun x hx => by rcases hx with rfl | ⟨_, rfl⟩ <;> rintro ⟨_, h⟩ <;> cases h) hs hu
  | postUdpData i a data =>
    exact hturns.unlisted (fun x hx => by obtain ⟨_, rfl⟩ := hx; rintro ⟨_, h⟩; cases h) hs hu
  | _ =>
    exact hturns.unlisted
      (fun x hx => by rw [show x = _ from hx]; rintro ⟨_, h⟩; cases h) hs hu

/-- A run spares the tunnels if every relay connection that a tick takes up is for a client that
    has left the init list, or is marked. -/
theorem sparesTunnels_of_along {services : σ} {es : List ProxyEvent}
    (hes : Along (step S P) (TakesUpApart S P) (init services) es) :
    SparesTunnels S P services es := by
  have hrun {pre : List ProxyEvent} {s : ProxyAccessService σ} (hpre : pre <+: es)
      (h : exec (step S P) (init services) pre = .ok s) : Sound s ∧ Unlisted s := by
    refine exec_invariant_along (I := fun s => Sound s ∧ Unlisted s)
      (fun s e t hs he h => ⟨step_sound s e t hs.1 h, step_unlisted hs.1 hs.2 he h⟩)
      ⟨sound_init services, fun _ _ hc => by cases hc⟩ (hes.of_prefix hpre) h
  refine ⟨fun s ⟨pre, hpre, hs⟩ => (hrun hpre hs).2, ?_⟩
  intro pre nowMS s t hpre hs ht k c hc hmark hest hk
  obtain ⟨hsound, hunlisted⟩ := hrun ((List.prefix_append pre _).trans hpre) hs
  have hu := (tick_unlisted hsound hunlisted (along_iff.1 hes pre _ s hpre hs) ht).2
  change k ∈ (deferKillTimeoutConnection t .initTimeout (by decide)
    paClientAuthTimeoutMS).timeoutLists.nodes .kill at hk
  simp only [deferKillTimeoutConnection, Linked.mem_expire] at hk
  split at hk
  · next hdue => exact absurd ((List.takeWhile_sublist _).subset hdue) (hu k c hc hmark hest)
  · exact hk

/-- Services that locate a device and connect at once. -/
def connectingServices (y : Completion ℕ) : Services Unit where
  __ := locatingServices
  createConnection _ _ _ _ _ _ := ((), y)

/-- A client that sends its body while the relay connects, which keeps it alive. -/
def sendingClient : List ProxyEvent :=
  [.tick 200000, .onNewConnection localAddress localAddress true,
    .onData 1 (ascii "POST http://a/ HTTP/1.1\r\n"),
    .onData 1 (ascii "Proxy-Authorization: Basic YTpi\r\n\r\n"), .tick 200001,
    .onData 1 [1], .setReady .acquireDeviceConnection 1 (some 9), .tick 200002]

theorem sparesTunnels_sendingClient :
    ∃ s, exec (step (connectingServices .pending) encodedPlatform) (init ()) sendingClient = .ok s ∧
      ∃ c, s.clientConnectionPool.get 1 = some c ∧ c.relaySideConnectionId = 9 ∧
        1 ∉ s.timeoutLists.nodes .initTimeout := by
  obtain ⟨s, hs, hp⟩ := exists_ok_of_check
    (x := exec (step (connectingServices .pending) encodedPlatform) (init ()) sendingClient)
    (p := fun s => (s.clientConnectionPool.get 1).map
      (fun c => (c.relaySideConnectionId, c.deleteMark)) = some (9, false)) (by decide +kernel)
  obtain ⟨c, hc, hcm⟩ := Option.map_eq_some_iff.1 (of_decide_eq_true hp)
  rw [Prod.mk.injEq] at hcm
  have hspares : SparesTunnels (connectingServices .pending) encodedPlatform () sendingClient :=
    sparesTunnels_of_along (along_of_check (by decide +kernel))
  have hspared := hspares.unlisted s ⟨_, List.prefix_refl _, hs⟩ 1 c hc hcm.2
    (.inl (by rw [hcm.1]; decide))
  exact ⟨s, hs, c, hc, hcm.1, hspared⟩

/-- A tunnel that was established at once is still in the init list. -/
theorem sparesTunnels_counterexample :
    ¬SparesTunnels (connectingServices (.ready (some 9))) localPlatform () (connectingClient 1) := by
  intro h
  obtain ⟨s, hs, hp⟩ := exists_ok_of_check
    (x := exec (step (connectingServices (.ready (some 9))) localPlatform) (init ())
      (connectingClient 1))
    (p := fun s => (s.clientConnectionPool.get 1).map
        (fun c => (c.relaySideConnectionId, c.deleteMark)) = some (9, false) ∧
      1 ∈ s.timeoutLists.nodes .initTimeout) (by decide +kernel)
  obtain ⟨hget, hinit⟩ := of_decide_eq_true hp
  obtain ⟨c, hc, hcm⟩ := Option.map_eq_some_iff.1 hget
  rw [Prod.mk.injEq] at hcm
  exact h.unlisted s ⟨_, List.prefix_refl _, hs⟩ 1 c hc hcm.2 (.inl (by rw [hcm.1]; decide)) hinit

end

end ProxyPlatform.ProxyAccessService
