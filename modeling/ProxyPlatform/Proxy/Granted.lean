import ProxyPlatform.Proxy.Futures
import ProxyPlatform.Proxy.Timers

/-!
# Who is served

A client gets what the relay has for it only after it was authenticated: `OnAuthResult` stores
the `LocalAuthId` of the grant before anything is asked of the relay, and nothing takes it back.
So a connection without a grant has no device, no relay connection and no UDP channel, in
every state that a step leads to, whatever comes in for it.

* `Unserved`: nothing of the relay was asked for a connection;
* `ServesGranted`: the connections without a grant are unserved;
* `Turn.outline_of_get`: the turns that are no call of the client and take up no result leave the
  outlines of the connections;
* `onData_ungranted`, `onReady_ungranted`: what is left of a connection that has no grant after
  a call of the client, or after a result that it takes up, had none before, and is unserved;
* `step_keeps`: a step is made of turns that serve no connection without a grant.
-/

namespace ProxyPlatform

/-- The turns that are no call of the client and take up no result. -/
def TurnLabel.IsQuiet (l : TurnLabel) : Prop := ¬l.IsResult ∧ ∀ k, l ≠ .call k

namespace ProxyAccessService

variable {σ : Type*} {S : Services σ} {P : Platform}

/-- Nothing of the relay was asked for the connection. -/
structure Unserved (c : ClientConnection) : Prop where
  processor : c.dataProcessor ≠ .onS5Target ∧ c.dataProcessor ≠ .onRawData
  futures : ∀ κ, κ ≠ .auth → c.futures κ = none
  relaySideConnectionId : c.relaySideConnectionId = 0
  bindUdpChannel : c.bindUdpChannel = none

/-- The connections without a grant are unserved. -/
structure ServesGranted (s : ProxyAccessService σ) : Prop where
  unserved : ∀ k c, s.clientConnectionPool.get k = some c → c.localAuthId = 0 → Unserved c

theorem servesGranted_init (services : σ) : ServesGranted (init services) :=
  ⟨fun _ _ h => by cases h⟩

section

variable {s t s' : ProxyAccessService σ} {c c' d : ClientConnection} {k : ℕ}

/-! ## Connections without a grant -/

/-- A connection that holds what another one without a grant holds is unserved, too. -/
theorem Unserved.congr (h : Unserved c) (hp : c'.dataProcessor = c.dataProcessor)
    (hf : ∀ κ, κ ≠ .auth → c'.futures κ = c.futures κ)
    (hr : c'.relaySideConnectionId = c.relaySideConnectionId)
    (hb : c'.bindUdpChannel = c.bindUdpChannel) : Unserved c' where
  processor := by rw [hp]; exact h.processor
  futures κ hκ := (hf κ hκ).trans (h.futures κ hκ)
  relaySideConnectionId := hr.trans h.relaySideConnectionId
  bindUdpChannel := hb.trans h.bindUdpChannel

theorem Settled.unserved (h : Settled s c s' c') (hc : Unserved c) : Unserved c' := by
  have hconn := h.connection
  simp only [Prod.mk.injEq] at hconn
  refine ⟨?_, fun κ hκ => (h.futures κ hκ).trans (hc.futures κ hκ),
    hconn.2.2.1.trans hc.relaySideConnectionId, hconn.2.2.2.trans hc.bindUdpChannel⟩
  rcases h.processor with hp | hp
  · rw [hp]; exact hc.processor
  · exact hp

/-- Who has a UDP channel, or something of the relay, was granted something. -/
theorem ServesGranted.granted (hg : ServesGranted s) (hc : s.clientConnectionPool.get k = some c)
    (h : c.bindUdpChannel.isSome ∨ (c.futures .acquireDeviceConnection).isSome ∨
      c.relaySideConnectionId ≠ 0) : c.localAuthId ≠ 0 := by
  intro hz
  have hu := hg.unserved k c hc hz
  rcases h with h | h | h
  · rw [hu.bindUdpChannel] at h
    cases h
  · rw [hu.futures _ (by simp)] at h
    cases h
  · exact h hu.relaySideConnectionId

/-- Only granted connections are served still when one is written back that is unserved, or was
    granted something. -/
theorem ServesGranted.store (hg : ServesGranted s)
    (hpool : s'.clientConnectionPool = s.clientConnectionPool)
    (hc : s.clientConnectionPool.get k = some c) (hid : c'.connectionId = k)
    (hk : c'.localAuthId = 0 → Unserved c') : ServesGranted (s'.store c') := by
  refine ⟨fun j d hd hz => ?_⟩
  rw [get_store_of_pool hpool hc hid] at hd
  split at hd
  · cases hd
    exact hk hz
  · exact hg.unserved j d hd hz

/-- The frame of a call on `k` leaves the other connections in their lists. -/
theorem Frame.mem_of_ne (h : Frame s c s' c') (hid : c.connectionId = k) (j : ℕ) (m : ClientList)
    (hj : j ≠ k) (hm : j ∈ s.timeoutLists.nodes m) : j ∈ s'.timeoutLists.nodes m := by
  rcases h.timeoutLists with ⟨hl, -⟩ | ⟨-, hl, -⟩
  · rwa [hl]
  · rw [hl, hid]
    exact (Linked.mem_grabTail_of_ne hj).2 hm

/-! ## Turns -/

/-- A turn that is no call of the client and takes up no result leaves what the connections
    hold. -/
theorem Turn.outline_of_get {l : TurnLabel} (h : Turn S s l t) (hs : Sound s)
    (hl : l.IsQuiet) (hd : t.clientConnectionPool.get k = some d) :
    (∃ a b, d = newConnection s a b k) ∨
      ∃ c, s.clientConnectionPool.get k = some c ∧ d.outline = c.outline := by
  have hkept (h : ∀ j, (t.clientConnectionPool.get j).map ClientConnection.outline =
      (s.clientConnectionPool.get j).map ClientConnection.outline) :
      ∃ c, s.clientConnectionPool.get k = some c ∧ d.outline = c.outline := by
    have hk := h k
    rw [hd, Option.map_some, eq_comm, Option.map_eq_some_iff] at hk
    obtain ⟨c, hc, hout⟩ := hk
    exact ⟨c, hc, hout.symm⟩
  cases h with
  | clock | forwardUdp | expire => exact .inr ⟨d, hd, rfl⟩
  | accept a b j p hacquire =>
    have hget : p.get k = some d := hd
    rw [Storage.get_acquire hacquire] at hget
    split at hget
    · next hk =>
      cases hget
      exact .inl ⟨a, b, by rw [hk]⟩
    · exact .inr ⟨d, hget, rfl⟩
  | refuse x j p hacquire =>
    refine .inr (hkept fun i => ?_)
    change ((p.release j).get i).map _ = _
    rw [Storage.get_release, Storage.get_acquire hacquire]
    split
    · next hi => rw [hi, Storage.get_of_acquire hacquire]
    · rfl
  | call j => exact absurd rfl (hl.2 j)
  | result κ => exact absurd ⟨κ, rfl⟩ hl.1
  | touch j c s' c' l hc hframe hcore hshape =>
    refine .inr (hkept (outline_store hframe.clientConnectionPool hc (hs.connectionId j c hc) ?_))
    simp only [core, Core.mk.injEq, true_and] at hcore
    obtain ⟨-, -, hfut, hid, hrelay, hbind⟩ := hcore
    rw [Prod.mk.injEq] at hshape
    simp only [ClientConnection.outline, hframe.connectionId, hshape, hfut, hid, hrelay, hbind]
  | peerClose j c s' c' hc hmark h =>
    obtain ⟨u, calls, heq, -⟩ := onPeerClose_eq_ok hmark h
    cases heq
    exact .inr (hkept (outline_store (by rfl) hc (hs.connectionId j c hc) rfl))
  | flush j c hc =>
    rcases onFlush_eq s c with ⟨-, heq⟩ | ⟨-, heq⟩
    all_goals
      rw [heq] at hkept
      exact .inr (hkept (outline_store (by rfl) hc (hs.connectionId j c hc) rfl))
  | close j c hc =>
    rcases closeConnection_eq s c with ⟨-, heq⟩ | ⟨-, -, heq⟩ | ⟨-, -, heq⟩
    all_goals
      rw [heq] at hkept
      exact .inr (hkept (outline_store (by rfl) hc (hs.connectionId j c hc) rfl))
  | ready κ f r =>
    rw [(setReady_leaves s κ f r).1] at hd
    exact .inr ⟨d, hd, rfl⟩
  | destroy j lists c t hpop hc hready h =>
    rw [(destroyConnection_eq_ok h).1, Storage.get_release] at hd
    split at hd
    · cases hd
    · exact .inr ⟨d, hd, rfl⟩

/-- Such a turn serves no connection without a grant. -/
theorem Turn.servesGranted {l : TurnLabel} (h : Turn S s l t) (hs : Sound s)
    (hl : l.IsQuiet) (hg : ServesGranted s) : ServesGranted t := by
  refine ⟨fun k d hd hz => ?_⟩
  obtain ⟨a, b, rfl⟩ | ⟨c, hc, hout⟩ := h.outline_of_get hs hl hd
  · exact ⟨by simp [newConnection], fun _ _ => rfl, rfl, rfl⟩
  · simp only [ClientConnection.outline, Prod.mk.injEq] at hout
    obtain ⟨-, -, hp, hf, hid, hrelay, hbind⟩ := hout
    exact (hg.unserved k c hc (hid.symm.trans hz)).congr hp (fun κ _ => congrFun hf κ) hrelay hbind

/-! ## Calls of the client -/

/-- A call of the client on a connection without a grant that is not served settles it. -/
theorem onData_settled {data : Bytes} {n : Option ℕ}
    (hp : c.dataProcessor ≠ .onS5Target ∧ c.dataProcessor ≠ .onRawData ∧
      c.dataProcessor ≠ .onHttpBody)
    (h : onData S P s c data = .ok (s', c', n)) : Settled s c s' c' := by
  obtain ⟨c₁, total, hd, rfl⟩ := onData_eq_ok h
  have h₁ := processData_settled hp hd
  exact ⟨h₁.clientUdpChannelPool, h₁.timeoutLists, h₁.connection, h₁.futures, h₁.processor⟩

/-- A body leaves what the connection has of the relay. -/
theorem onData_body {data : Bytes} {n : Option ℕ} (hp : c.dataProcessor = .onHttpBody)
    (h : onData S P s c data = .ok (s', c', n)) :
    (c'.dataProcessor, c'.futures, c'.relaySideConnectionId, c'.bindUdpChannel) =
      (c.dataProcessor, c.futures, c.relaySideConnectionId, c.bindUdpChannel) := by
  obtain ⟨c₁, total, hd, rfl⟩ := onData_eq_ok h
  rw [processData, hp] at hd
  have hbody := Except.ok.inj hd
  rcases onHttpBody_eq S s c data with ⟨-, heq⟩ | ⟨-, -, heq⟩ | ⟨-, -, heq⟩
  all_goals
    rw [heq] at hbody
    cases hbody
    rfl

/-- A connection that has no grant after a call of the client had none before, and is unserved. -/
theorem onData_ungranted {data : Bytes} {n : Option ℕ} (hs : Sound s) (hg : ServesGranted s)
    (hc : s.clientConnectionPool.get k = some c) (h : onData S P s c data = .ok (s', c', n))
    (hz : c'.localAuthId = 0) : c.localAuthId = 0 ∧ Unserved c' := by
  obtain ⟨g, hstage⟩ := hs.stage k c hc
  obtain ⟨heffect, -⟩ := onData_spec hstage h
  have hzc : c.localAuthId = 0 := by
    by_contra hne
    exact hne ((heffect.act.localAuthId hne).symm.trans hz)
  have hunserved := hg.unserved k c hc hzc
  refine ⟨hzc, ?_⟩
  by_cases hp : c.dataProcessor = .onHttpBody
  · have hbody := onData_body hp h
    simp only [Prod.mk.injEq] at hbody
    obtain ⟨hproc, hfutures, hrelay, hbind⟩ := hbody
    exact hunserved.congr hproc (fun κ _ => congrFun hfutures κ) hrelay hbind
  · exact (onData_settled ⟨hunserved.processor.1, hunserved.processor.2, hp⟩ h).unserved hunserved

/-! ## Results -/

variable {κ : FutureKind} {f : ℕ} {m : FuturePoolManager ℕ κ.Result}

/-- A result that is taken up writes one connection back. If this has no grant then, it had none
    before: it was refused, is unserved, and stays where it is linked. -/
theorem onReady_ungranted (hs : Sound s) (hl : Ledger s) (hg : ServesGranted s)
    (hpop : (s.futureManager κ).popHead = some (f, m))
    (h : onReady S P κ (s.setFutureManager κ m) f = .ok t) :
    Turn S s (.result κ) t ∧ ∃ k c, ∃ (s' : ProxyAccessService σ) (c' : ClientConnection),
      s.clientConnectionPool.get k = some c ∧
      t = s'.store c' ∧ s'.clientConnectionPool = s.clientConnectionPool ∧ c'.connectionId = k ∧
      (∀ j m, j ≠ k → j ∈ s.timeoutLists.nodes m → j ∈ s'.timeoutLists.nodes m) ∧
      (c'.localAuthId = 0 → c.localAuthId = 0 ∧ Unserved c' ∧ c'.timestampMS = c.timestampMS ∧
        s'.timeoutLists = s.timeoutLists) := by
  obtain ⟨handle, heq, hhandles, -⟩ := onReady_spec (S := S) (P := P) κ
  obtain ⟨future, c, hf, hc, hcf⟩ := hs.exists_waiter hpop
  obtain ⟨g, hstage⟩ := hs.stage _ c hc
  have hid := hs.connectionId _ c hc
  have hf' : ((s.setFutureManager κ m).futureManager κ).get f = some future := by
    simpa [setFutureManager, (popHead_eq_some hpop).1] using hf
  have h' := h
  rw [heq] at h'
  refine ⟨(onResult_turn hs hpop hhandles h').1, ?_⟩
  obtain ⟨future', c₀, s', c', i, hf₀, hc₀, hp, -, ht⟩ := onResult_eq_ok h'
  rw [hf'] at hf₀
  cases hf₀
  change s.clientConnectionPool.get future.context = some c₀ at hc₀
  rw [hc] at hc₀
  cases hc₀
  obtain ⟨heffect, -⟩ := hhandles _ c _ s' c' g hstage (hstage.awaits_of_futures hcf) hp
  have hpool : (s'.setFutureManager κ
      ((s'.futureManager κ).releaseFuture i)).clientConnectionPool = s.clientConnectionPool :=
    heffect.clientConnectionPool
  have hid' : (c'.setFuture κ none).connectionId = future.context := heffect.connectionId.trans hid
  refine ⟨_, c, _, _, hc, ht, hpool, hid', heffect.mem_of_ne hid, fun hz => ?_⟩
  have hz' : c'.localAuthId = 0 := hz
  have hzc : c.localAuthId = 0 := by
    by_contra hne
    exact hne ((heffect.act.localAuthId hne).symm.trans hz')
  have hunserved := hg.unserved _ c hc hzc
  -- The future is that of the authentication, which was refused.
  obtain rfl : κ = .auth := by
    by_contra hκ
    rw [hunserved.futures κ hκ] at hcf
    cases hcf
  have hnone : future.result = none := by
    rcases heffect.act.auth with ⟨-, -, -, -, hr⟩ | ⟨htaken, -⟩ | ⟨r, htaken, -, hrid, -⟩
    · rw [Option.eq_none_iff_forall_ne_some]
      intro r hr'
      exact hr r (by rw [hr'])
    · cases htaken
    · have hr : future.result = some r := by
        simpa using htaken
      exact absurd (hrid.symm.trans hz') (hl.ne_zero f future r hf hr)
  obtain ⟨c₁, d, s₁, m₁, hc₁, ht₁, hpool₁, hid₁, hsettled, hproc⟩ :=
    onAuthResult_refused hf' hnone h
  change s.clientConnectionPool.get future.context = some c₁ at hc₁
  rw [hc] at hc₁
  cases hc₁
  -- Both ways to write the outcome lead to the same connection.
  have hd : c'.setFuture .auth none = d := by
    have h₁ : t.clientConnectionPool.get future.context = some d := by
      rw [ht₁, get_store_of_pool (by exact hpool₁) hc (hid₁.trans hid), if_pos rfl]
    have h₂ : t.clientConnectionPool.get future.context = some (c'.setFuture .auth none) := by
      rw [ht, get_store_of_pool hpool hc hid', if_pos rfl]
    exact Option.some.inj (h₂.symm.trans h₁)
  have hlists : s'.timeoutLists = s.timeoutLists := by
    have h₁ : t.timeoutLists = s₁.timeoutLists := by rw [ht₁]; rfl
    have h₂ : t.timeoutLists = s'.timeoutLists := by rw [ht]; rfl
    rw [← h₂, h₁]
    exact hsettled.timeoutLists
  have hconn := hsettled.connection
  simp only [Prod.mk.injEq] at hconn
  rw [hd]
  exact ⟨hzc, hsettled.unserved hunserved, hconn.1, hlists⟩

/-- What taking up one result keeps, taking up all of them keeps. -/
theorem processReadyFutures_keeps {I : ProxyAccessService σ → Prop} {n : ℕ}
    (hI : ∀ s t f m, I s → (s.futureManager κ).popHead = some (f, m) →
      onReady S P κ (s.setFutureManager κ m) f = .ok t → I t) (hs : I s)
    (h : processReadyFutures κ (onReady S P κ) n s = .ok t) : I t := by
  induction n generalizing s with
  | zero =>
    obtain ⟨-, rfl⟩ | ⟨_, _, _, _, hn, -⟩ := processReadyFutures_eq_ok h
    · exact hs
    · cases hn
  | succ n ih =>
    obtain ⟨-, rfl⟩ | ⟨f, m, k, u, hn, hpop, hu, h⟩ := processReadyFutures_eq_ok h
    · exact hs
    · cases hn
      exact ih (hI s u f m hs hpop hu) h

theorem processResults_keeps {I : ProxyAccessService σ → Prop}
    (hI : ∀ κ s t f m, I s → (s.futureManager κ).popHead = some (f, m) →
      onReady S P κ (s.setFutureManager κ m) f = .ok t → I t) (hs : I s)
    (h : processResults S P s = .ok t) : I t := by
  obtain ⟨s₁, h₁, h⟩ := bind_eq_ok.1 h
  obtain ⟨s₂, h₂, h⟩ := bind_eq_ok.1 h
  obtain ⟨s₃, h₃, h₄⟩ := bind_eq_ok.1 h
  have hs₁ := processReadyFutures_keeps (hI _) hs h₁
  have hs₂ := processReadyFutures_keeps (hI _) hs₁ h₂
  have hs₃ := processReadyFutures_keeps (hI _) hs₂ h₃
  exact processReadyFutures_keeps (hI _) hs₃ h₄

/-! ## Steps -/

/-- What the turns keep that concern the grants. -/
structure Accounted (s : ProxyAccessService σ) : Prop where
  sound : Sound s
  ledger : Ledger s
  served : ServesGranted s

theorem accounted_init (services : σ) : Accounted (init services) :=
  ⟨sound_init services, ledger_init services, servesGranted_init services⟩

theorem onReady_accounted (hs : Accounted s) (hpop : (s.futureManager κ).popHead = some (f, m))
    (h : onReady S P κ (s.setFutureManager κ m) f = .ok t) : Accounted t := by
  obtain ⟨hturn, k, c, s', c', hc, rfl, hpool, hid, -, hk⟩ :=
    onReady_ungranted hs.sound hs.ledger hs.served hpop h
  exact ⟨hturn.sound hs.sound, hturn.ledger hs.sound hs.ledger,
    hs.served.store hpool hc hid fun hz => (hk hz).2.1⟩

theorem isQuiet_of_isPass (l : TurnLabel) (h : l.IsPass) : l.IsQuiet := by
  rcases h with rfl | ⟨m, rfl⟩
  all_goals simp [TurnLabel.IsQuiet, TurnLabel.IsResult]

theorem Turn.accounted {l : TurnLabel} (h : Turn S s l t) (hl : l.IsQuiet) (hs : Accounted s) :
    Accounted t :=
  ⟨h.sound hs.sound, h.ledger hs.sound hs.ledger, h.servesGranted hs.sound hl hs.served⟩

section

variable {I : ProxyAccessService σ → Prop}
  (hI : ∀ s l t, Accounted s → Accounted t → Turn S s l t → I s → I t)

include hI

theorem Turns.keeps_accounted {L : TurnLabel → Prop} (h : Turns S L s t) (hL : ∀ l, L l → l.IsQuiet)
    (hs : Accounted s) (hi : I s) : Accounted t ∧ I t := by
  refine h.invariant (I := fun u => Accounted u ∧ I u) (fun u l v hl _ hu ht => ?_) hs.sound
    ⟨hs, hi⟩
  have hv := ht.accounted (hL l hl) hu.1
  exact ⟨hv, hI u l v hu.1 hv ht hu.2⟩

theorem tick_keeps {nowMS : ℕ} (hs : Accounted s) (hi : I s) (h : tick S P s nowMS = .ok t) :
    Accounted t ∧ I t := by
  obtain ⟨s₁, h₁, h₂⟩ := bind_eq_ok.1 h
  have hclock : Turns S TurnLabel.IsPass s { s with localTicker := nowMS } :=
    .single (.inl rfl) (.clock nowMS s.audit)
  have hs₀ := hclock.keeps_accounted hI isQuiet_of_isPass hs hi
  have hs₁ : Accounted s₁ ∧ I s₁ := by
    refine processResults_keeps (I := fun u => Accounted u ∧ I u)
      (fun κ u v f m hu hpop hv => ?_) hs₀ h₁
    obtain ⟨hu, hi⟩ := hu
    have hv' := onReady_accounted hu hpop hv
    exact ⟨hv', hI u _ v hu hv' (onReady_ungranted hu.sound hu.ledger hu.served hpop hv).1 hi⟩
  obtain ⟨-, hready⟩ := processResults_turns hs₀.1.sound h₁
  have hpass : Turns S TurnLabel.IsPass s₁ (deferKillTimeouts s₁) := deferKillTimeouts_turns s₁
  have hs₂ := hpass.keeps_accounted hI isQuiet_of_isPass hs₁.1 hs₁.2
  obtain ⟨hkills, -⟩ := executeKillConnections_turns _ hs₂.1.sound (by exact hready) h₂
  refine hkills.keeps_accounted hI (fun l hl => ?_) hs₂.1 hs₂.2
  obtain ⟨k, rfl⟩ := hl
  simp [TurnLabel.IsQuiet, TurnLabel.IsResult]

/-- A step is made of turns that serve no connection without a grant, whatever comes in for it.
    What such turns keep, the step keeps. -/
theorem step_keeps {e : ProxyEvent} (hs : Accounted s) (hi : I s) (h : step S P s e = .ok t) :
    Accounted t ∧ I t := by
  have hturns := step_turns hs.sound h
  cases e with
  | onData k data =>
    obtain ⟨-, rfl⟩ | ⟨c, s', c', n, hc, hd, rfl⟩ := step_onData_eq_ok h
    · exact ⟨hs, hi⟩
    obtain ⟨g, hg⟩ := hs.sound.stage k c hc
    obtain ⟨heffect, hstage⟩ := onData_spec hg hd
    have hid := heffect.connectionId.trans (hs.sound.connectionId k c hc)
    have hturn : Turn S s (.call k) (s'.store c') := .call k c s' c' hc heffect hstage
    have ht : Accounted (s'.store c') := by
      refine ⟨hturn.sound hs.sound, hturn.ledger hs.sound hs.ledger, ?_⟩
      exact hs.served.store heffect.clientConnectionPool hc hid fun hz =>
        (onData_ungranted hs.sound hs.served hc hd hz).2
    exact ⟨ht, hI _ _ _ hs ht hturn hi⟩
  | tick nowMS => exact tick_keeps hI hs hi h
  | onNewConnection | onFlush | postData | closeConnection | setReady =>
    refine hturns.keeps_accounted hI (fun l hl => ?_) hs hi
    obtain rfl := hl
    simp [TurnLabel.IsQuiet, TurnLabel.IsResult]
  | onPeerClose k =>
    refine hturns.keeps_accounted hI (fun l hl => ?_) hs hi
    rcases hl with rfl | rfl
    all_goals simp [TurnLabel.IsQuiet, TurnLabel.IsResult]
  | onUdpData i data a =>
    refine hturns.keeps_accounted hI (fun l hl => ?_) hs hi
    rcases hl with rfl | ⟨_, rfl⟩
    all_goals simp [TurnLabel.IsQuiet, TurnLabel.IsResult]
  | postUdpData =>
    refine hturns.keeps_accounted hI (fun l hl => ?_) hs hi
    obtain ⟨_, rfl⟩ := hl
    simp [TurnLabel.IsQuiet, TurnLabel.IsResult]

end

theorem step_accounted {e : ProxyEvent} (hs : Accounted s) (h : step S P s e = .ok t) :
    Accounted t :=
  (step_keeps (I := fun _ => True) (fun _ _ _ _ _ _ _ => trivial) hs trivial h).1

end

end ProxyAccessService

end ProxyPlatform
