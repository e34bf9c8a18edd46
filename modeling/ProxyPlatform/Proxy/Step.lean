import ProxyPlatform.Base.Run
import ProxyPlatform.Proxy.Turn
import Mathlib.Logic.Relation

/-!
# Steps and runs of the proxy access service

* `step_turns`: a step from a sound state is a sequence of turns;
* `sound_of_exec`: every state of a run is sound;
* `exec_turns`: a run is a sequence of turns, so that what every turn preserves holds in
  every state reached (`Turns.invariant`).
-/

namespace ProxyPlatform

/-- The order in which a tick takes up the results. -/
def FutureKind.rank : FutureKind → ℕ
  | .auth => 0
  | .acquireDevice => 1
  | .acquireDeviceConnection => 2
  | .acquireDeviceUdpChannel => 3

/-- The turns that take up a result. -/
def TurnLabel.IsResult (l : TurnLabel) : Prop := ∃ κ, l = .result κ

/-- The turns of the passes over the timeout lists. -/
def TurnLabel.IsPass (l : TurnLabel) : Prop := l = .clock ∨ ∃ m, l = .expire m

/-- The turns that destroy a connection. -/
def TurnLabel.IsDestroy (l : TurnLabel) : Prop := ∃ k, l = .destroy k

/-- The turns that an event is made of. -/
def ProxyEvent.Allows : ProxyEvent → TurnLabel → Prop
  | .onNewConnection .., l => l = .accept
  | .onPeerClose k, l => l = .peerClose k ∨ l = .touch k
  | .onFlush k, l => l = .flush k
  | .onData k _, l => l = .call k
  | .onUdpData .., l => l = .forwardUdp ∨ ∃ k, l = .touch k
  | .postData k _, l => l = .touch k
  | .postUdpData .., l => ∃ k, l = .touch k
  | .closeConnection k, l => l = .close k
  | .setReady .., l => l = .ready
  | .tick _, l => l = .clock ∨ (∃ κ, l = .result κ) ∨ (∃ m, l = .expire m) ∨ ∃ k, l = .destroy k

namespace ProxyAccessService

variable {σ : Type*} {S : Services σ} {P : Platform} {s t u : ProxyAccessService σ}

/-- Sequences of turns with labels in `L`. -/
def Turns (S : Services σ) (L : TurnLabel → Prop) :
    ProxyAccessService σ → ProxyAccessService σ → Prop :=
  Relation.ReflTransGen fun s t => ∃ l, L l ∧ Turn S s l t

namespace Turns

variable {L M : TurnLabel → Prop}

theorem refl (s : ProxyAccessService σ) : Turns S L s s := Relation.ReflTransGen.refl

theorem trans (h : Turns S L s t) (h' : Turns S L t u) : Turns S L s u :=
  Relation.ReflTransGen.trans h h'

theorem single {l : TurnLabel} (hl : L l) (h : Turn S s l t) : Turns S L s t :=
  Relation.ReflTransGen.single ⟨l, hl, h⟩

theorem mono (hLM : ∀ l, L l → M l) (h : Turns S L s t) : Turns S M s t :=
  Relation.ReflTransGen.mono (fun _ _ ⟨l, hl, h⟩ => ⟨l, hLM l hl, h⟩) s t h

/-- What every turn from a sound state preserves, every sequence of turns preserves. -/
theorem invariant {I : ProxyAccessService σ → Prop}
    (hI : ∀ s l t, L l → Sound s → I s → Turn S s l t → I t) (hs : Sound s) (h : Turns S L s t)
    (hI₀ : I s) : I t := by
  have hboth : Sound t ∧ I t := by
    induction h with
    | refl => exact ⟨hs, hI₀⟩
    | tail _ hturn ih =>
      obtain ⟨l, hl, hturn⟩ := hturn
      exact ⟨hturn.sound ih.1, hI _ l _ hl ih.1 ih.2 hturn⟩
  exact hboth.2

theorem sound (h : Turns S L s t) (hs : Sound s) : Sound t :=
  invariant (fun _ _ _ _ hs _ h => h.sound hs) hs h hs

end Turns

/-! ## Results -/

section

variable {nowMS : ℕ}

/-- Taking up the first result of a kind is a turn, which leaves the futures of the kinds before
    it. -/
theorem onResult_turn {κ : FutureKind} {f : ℕ} {m : FuturePoolManager ℕ κ.Result}
    {handle : ProxyAccessService σ → ClientConnection → Option κ.Result →
      Except Fault (ProxyAccessService σ × ClientConnection)} (hs : Sound s)
    (hpop : (s.futureManager κ).popHead = some (f, m)) (hh : Handles S κ handle)
    (h : onResult κ handle (s.setFutureManager κ m) f = .ok t) :
    Turn S s (.result κ) t ∧
      ∀ ι : FutureKind, ι.rank < κ.rank → t.futureManager ι = s.futureManager ι := by
  unfold onResult at h
  have hm : (s.setFutureManager κ m).futureManager κ = m := by simp [setFutureManager]
  rw [hm, (popHead_eq_some hpop).1 f] at h
  split at h
  · cases h
  next future hf =>
  split at h
  · cases h
  next c hc =>
  change s.clientConnectionPool.get future.context = some c at hc
  split at h
  · cases h
  next s' c' hhandle =>
  have hcf : c.futures κ = some f := by
    have hfut : s.futureOf κ future.context = some f :=
      (hs.futures κ _ f).2 (by simp [contextOf, hf])
    simpa [futureOf, hc] using hfut
  obtain ⟨g, hg⟩ := hs.stage _ c hc
  obtain ⟨heffect, hstage⟩ := hh _ c _ s' c' g hg (hg.awaits_of_futures hcf) hhandle
  have hcf' : c'.futures κ = some f := by
    rcases heffect.act.futures κ with ⟨-, hkeep⟩ | ⟨_, _, _, _, hnone, -⟩
    · exact Eq.trans hkeep hcf
    · rw [hcf] at hnone; cases hnone
  rw [hcf'] at h
  cases h
  refine ⟨.result κ f m future c s' c' hpop hf hc hcf heffect hcf' hstage, fun ι hι => ?_⟩
  have hne : ι ≠ κ := by rintro rfl; exact lt_irrefl _ hι
  have hmanager : s'.futureManager ι = s.futureManager ι := by
    rcases heffect.act.futures ι with ⟨hkeep, -⟩ | ⟨_, _, _, _, _, _, _, _, h | ⟨rfl, _, h⟩ | ⟨rfl, _, h⟩⟩
    · exact Eq.trans hkeep (by simp [setFutureManager, hne])
    · cases h
    · cases h; simp [FutureKind.rank] at hι
    · cases h; simp [FutureKind.rank] at hι
  simp only [store, setFutureManager, Function.update_of_ne hne, hmanager]

/-- The loop over the results of a kind ends, or has another turn. -/
theorem processReadyFutures_eq_ok {κ : FutureKind} {n : ℕ}
    {onReady : ProxyAccessService σ → ℕ → Except Fault (ProxyAccessService σ)}
    (h : processReadyFutures κ onReady n s = .ok t) :
    (s.futureManager κ).popHead = none ∧ t = s ∨
      ∃ f m k u, n = k + 1 ∧ (s.futureManager κ).popHead = some (f, m) ∧
        onReady (s.setFutureManager κ m) f = .ok u ∧ processReadyFutures κ onReady k u = .ok t := by
  rw [processReadyFutures.eq_def] at h
  cases hpop : (s.futureManager κ).popHead with
  | none =>
    simp only [hpop] at h
    cases h
    exact .inl ⟨rfl, rfl⟩
  | some p =>
    obtain ⟨f, m⟩ := p
    simp only [hpop] at h
    cases n with
    | zero => cases h
    | succ k =>
      cases hu : onReady (s.setFutureManager κ m) f with
      | error x => simp only [hu] at h; cases h
      | ok u =>
        simp only [hu] at h
        exact .inr ⟨f, m, k, u, rfl, rfl, hu, h⟩

/-- The loop over the results of a kind is a sequence of turns, after which none is left. -/
theorem processReadyFutures_turns {κ : FutureKind}
    {onReady : ProxyAccessService σ → ℕ → Except Fault (ProxyAccessService σ)}
    (hh : ∃ handle, onReady = onResult κ handle ∧ Handles S κ handle ∧ Answers κ handle) (n : ℕ) (hs : Sound s)
    (h : processReadyFutures κ onReady n s = .ok t) :
    Turns S TurnLabel.IsResult s t ∧ (t.futureManager κ).futureList = [] ∧
      ∀ ι : FutureKind, ι.rank < κ.rank → t.futureManager ι = s.futureManager ι := by
  induction n generalizing s with
  | zero =>
    obtain ⟨hpop, rfl⟩ | ⟨_, _, _, _, hn, -⟩ := processReadyFutures_eq_ok h
    · exact ⟨.refl t, popHead_eq_none.1 hpop, fun _ _ => rfl⟩
    · cases hn
  | succ n ih =>
    obtain ⟨hpop, rfl⟩ | ⟨f, m, k, u, hn, hpop, hu, h⟩ := processReadyFutures_eq_ok h
    · exact ⟨.refl t, popHead_eq_none.1 hpop, fun _ _ => rfl⟩
    · cases hn
      obtain ⟨handle, rfl, hhandles, -⟩ := hh
      obtain ⟨hturn, hkeep⟩ := onResult_turn hs hpop hhandles hu
      obtain ⟨hturns, hempty, hkeep'⟩ := ih (hturn.sound hs) h
      exact ⟨(Turns.single ⟨κ, rfl⟩ hturn).trans hturns, hempty,
        fun ι hι => (hkeep' ι hι).trans (hkeep ι hι)⟩

/-- The first part of a tick leaves no result to take up. -/
theorem processResults_turns (hs : Sound s) (h : processResults S P s = .ok t) :
    Turns S TurnLabel.IsResult s t ∧ ∀ κ, (t.futureManager κ).futureList = [] := by
  unfold processResults at h
  obtain ⟨s₁, h₁, h⟩ := bind_eq_ok.1 h
  obtain ⟨s₂, h₂, h⟩ := bind_eq_ok.1 h
  obtain ⟨s₃, h₃, h₄⟩ := bind_eq_ok.1 h
  obtain ⟨ht₁, he₁, hk₁⟩ := processReadyFutures_turns (onAuthResult_spec (S := S) (P := P)) _ hs h₁
  have hs₁ := ht₁.sound hs
  obtain ⟨ht₂, he₂, hk₂⟩ :=
    processReadyFutures_turns (onAcquireDeviceResult_spec (S := S) (P := P)) _ hs₁ h₂
  have hs₂ := ht₂.sound hs₁
  obtain ⟨ht₃, he₃, hk₃⟩ :=
    processReadyFutures_turns (onAcquireDeviceConnectionResult_spec (S := S) (P := P)) _ hs₂ h₃
  have hs₃ := ht₃.sound hs₂
  obtain ⟨ht₄, he₄, hk₄⟩ :=
    processReadyFutures_turns (onAcquireDeviceUdpChannelResult_spec (S := S) (P := P)) _ hs₃ h₄
  refine ⟨((ht₁.trans ht₂).trans ht₃).trans ht₄, fun κ => ?_⟩
  -- No later loop touches the futures of an earlier kind.
  cases κ with
  | auth => rw [hk₄ _ (by decide), hk₃ _ (by decide), hk₂ _ (by decide), he₁]
  | acquireDevice => rw [hk₄ _ (by decide), hk₃ _ (by decide), he₂]
  | acquireDeviceConnection => rw [hk₄ _ (by decide), he₃]
  | acquireDeviceUdpChannel => exact he₄

/-! ## Ticks -/

/-- The loop over the kill list ends, or has another turn. -/
theorem executeKillConnections_eq_ok {n : ℕ} (h : executeKillConnections S n s = .ok t) :
    s.timeoutLists.popHead .kill = none ∧ t = s ∨
      ∃ k lists c m u, n = m + 1 ∧ s.timeoutLists.popHead .kill = some (k, lists) ∧
        s.clientConnectionPool.get k = some c ∧
        destroyConnection S { s with timeoutLists := lists } c = .ok u ∧
        executeKillConnections S m u = .ok t := by
  rw [executeKillConnections.eq_def] at h
  cases hpop : s.timeoutLists.popHead .kill with
  | none =>
    simp only [hpop] at h
    cases h
    exact .inl ⟨rfl, rfl⟩
  | some p =>
    obtain ⟨k, lists⟩ := p
    simp only [hpop] at h
    cases n with
    | zero => cases h
    | succ m =>
      cases hc : s.clientConnectionPool.get k with
      | none => simp only [hc] at h; cases h
      | some c =>
        simp only [hc] at h
        cases hu : destroyConnection S { s with timeoutLists := lists } c with
        | error x => simp only [hu] at h; cases h
        | ok u =>
          simp only [hu] at h
          exact .inr ⟨k, lists, c, m, u, rfl, rfl, hc, hu, h⟩

/-- Destroying the connections of the kill list is a sequence of turns, after which it is empty. -/
theorem executeKillConnections_turns (n : ℕ) (hs : Sound s)
    (hready : ∀ κ, (s.futureManager κ).futureList = [])
    (h : executeKillConnections S n s = .ok t) :
    Turns S TurnLabel.IsDestroy s t ∧ t.timeoutLists.nodes .kill = [] ∧
      ∀ κ, (t.futureManager κ).futureList = [] := by
  induction n generalizing s with
  | zero =>
    obtain ⟨hpop, rfl⟩ | ⟨_, _, _, _, _, hn, -⟩ := executeKillConnections_eq_ok h
    · exact ⟨.refl t, Linked.popHead_eq_none.1 hpop, hready⟩
    · cases hn
  | succ n ih =>
    obtain ⟨hpop, rfl⟩ | ⟨k, lists, c, m, u, hn, hpop, hc, hu, h⟩ := executeKillConnections_eq_ok h
    · exact ⟨.refl t, Linked.popHead_eq_none.1 hpop, hready⟩
    · cases hn
      have hturn : Turn S s (.destroy k) u := .destroy k lists c u hpop hc hready hu
      have hready' (κ : FutureKind) : (u.futureManager κ).futureList = [] := by
        rw [(destroyConnection_eq_ok hu).2.1]
        simp only [releaseFutures]
        split
        · exact hready κ
        · simp [FuturePoolManager.releaseFuture, hready κ]
      obtain ⟨hturns, hrest⟩ := ih (hturn.sound hs) hready' h
      exact ⟨(Turns.single ⟨k, rfl⟩ hturn).trans hturns, hrest⟩

/-- The passes over the timeout lists are turns. -/
theorem deferKillTimeouts_turns (s : ProxyAccessService σ) :
    Turns S TurnLabel.IsPass s (deferKillTimeouts s) := by
  have h₁ : Turns S TurnLabel.IsPass s (deferKillInitTimeoutConnection s) :=
    (Turns.single (.inr ⟨_, rfl⟩) (.expire .initTimeout (by decide) paClientAuthTimeoutMS)).trans
      (.single (.inl rfl) (.clock _ _))
  have h₂ := h₁.trans (.single (.inr ⟨_, rfl⟩)
    (.expire .idleTimeout (by decide) clientConnectionIdleTimeoutMS))
  exact h₂.trans (.single (.inr ⟨_, rfl⟩)
    (.expire .gracefulKill (by decide) paGracefulKillTimeoutMS))

/-- A tick is a sequence of turns, after which no result is left to take up and no connection
    to destroy. -/
theorem tick_turns (hs : Sound s) (h : tick S P s nowMS = .ok t) :
    Turns S (ProxyEvent.tick nowMS).Allows s t ∧ t.timeoutLists.nodes .kill = [] ∧
      ∀ κ, (t.futureManager κ).futureList = [] := by
  unfold tick at h
  obtain ⟨s₁, h₁, h₂⟩ := bind_eq_ok.1 h
  have hclock : Turns S (ProxyEvent.tick nowMS).Allows s { s with localTicker := nowMS } :=
    .single (.inl rfl) (.clock nowMS s.audit)
  obtain ⟨ht₁, hready⟩ := processResults_turns (hclock.sound hs) h₁
  have ht₂ : Turns S TurnLabel.IsPass s₁ (deferKillTimeouts s₁) := deferKillTimeouts_turns s₁
  have hs₁ := ht₁.sound (hclock.sound hs)
  obtain ⟨ht₃, hkill, hready'⟩ := executeKillConnections_turns _ (ht₂.sound hs₁) (by exact hready) h₂
  have ht₁' := ht₁.mono (M := (ProxyEvent.tick nowMS).Allows) fun _ h => .inr (.inl h)
  have ht₂' := ht₂.mono (M := (ProxyEvent.tick nowMS).Allows) fun _ h =>
    h.imp_right fun h => .inr (.inl h)
  have ht₃' := ht₃.mono (M := (ProxyEvent.tick nowMS).Allows) fun _ h => .inr (.inr (.inr h))
  exact ⟨((hclock.trans ht₁').trans ht₂').trans ht₃', hkill, hready'⟩

end

/-! ## Steps -/

section

variable {k : ℕ} {c c' : ClientConnection}

/-- Writing a connection back is a turn. -/
theorem store_turn (hc : s.clientConnectionPool.get k = some c) : Turn S s (.touch k) (s.store c) :=
  .touch k c s c [] hc ⟨rfl, rfl, rfl, rfl, rfl, rfl, id, .inr (.inr rfl), .inl ⟨rfl, rfl⟩⟩ rfl rfl
    (fun _ => rfl) (by simp) (by simp) (by simp)

theorem onNewConnection_turns (remoteAddress localAddress : NetAddress) (initOk : Bool) :
    Turns S (ProxyEvent.onNewConnection remoteAddress localAddress initOk).Allows s
      (s.onNewConnection remoteAddress localAddress initOk) := by
  unfold onNewConnection
  dsimp only
  split
  · exact .refl s
  · next k p hp =>
    split
    · exact .single rfl (.accept remoteAddress localAddress k p hp)
    · exact .single rfl (.refuse _ k p hp)

theorem onPeerClose_turns (hc : s.clientConnectionPool.get k = some c)
    (h : onPeerClose S s c = .ok (t, c')) :
    Turns S (ProxyEvent.onPeerClose k).Allows s (t.store c') := by
  cases hmark : c.deleteMark with
  | true =>
    simp only [onPeerClose, hmark, if_true] at h
    cases h
    exact .single (.inr rfl) (store_turn hc)
  | false => exact .single (.inl rfl) (.peerClose k c t c' hc hmark h)

/-- Keeping a connection alive, or not, is in the frame of a call. -/
theorem keepAlive_frame (hs : t.clientConnectionPool = s.clientConnectionPool ∧
      t.localTicker = s.localTicker ∧ t.destroyed = s.destroyed ∧
      t.timeoutLists = s.timeoutLists)
    (hconn : c'.connectionId = c.connectionId ∧ c'.remoteAddress = c.remoteAddress ∧
      c'.deleteMark = c.deleteMark ∧ c'.hasPendingWrites = c.hasPendingWrites ∧
      c'.type = c.type ∧ c'.timestampMS = c.timestampMS) :
    Frame s c ((keepAlive t c').getD (t, c')).1 ((keepAlive t c').getD (t, c')).2 := by
  obtain ⟨hpool, htick, hdes, hlists⟩ := hs
  obtain ⟨hid, hrem, hmark, hpend, htype, htime⟩ := hconn
  unfold keepAlive
  split
  · exact ⟨hpool, htick, hdes, hid, hrem, hmark, hpend.trans, .inr (.inr htype),
      .inl ⟨hlists, htime⟩⟩
  · next h =>
    refine ⟨hpool, htick, hdes, hid, hrem, hmark, hpend.trans, .inr (.inr htype),
      .inr ⟨?_, ?_, htick⟩⟩
    · rw [← hmark]; exact eq_false_of_ne_true h
    · simp only [Option.getD_some, linkTail, hlists, hid]

/-- Keeping a connection alive, or not, leaves what it holds. -/
theorem keepAlive_rest (s : ProxyAccessService σ) (c : ClientConnection) :
    core ((keepAlive s c).getD (s, c)).1 ((keepAlive s c).getD (s, c)).2 = core s c ∧
      (((keepAlive s c).getD (s, c)).2.type, ((keepAlive s c).getD (s, c)).2.dataProcessor) =
        (c.type, c.dataProcessor) ∧
      ((keepAlive s c).getD (s, c)).1.calls = s.calls := by
  unfold keepAlive
  split
  · exact ⟨rfl, rfl, rfl⟩
  · exact ⟨rfl, rfl, rfl⟩

theorem postData_turn {data : Bytes} (hc : s.clientConnectionPool.get k = some c) :
    Turn S s (.touch k) ((postData P s c data).1.store (postData P s c data).2) := by
  unfold postData
  cases hk : keepAlive s c with
  | none => exact store_turn hc
  | some p =>
    obtain ⟨t, d⟩ := p
    obtain ⟨hmark, rfl, rfl⟩ := keepAlive_eq_some hk
    exact .touch k c _ _ [.post c.connectionId .target data] hc
      ⟨rfl, rfl, rfl, rfl, rfl, rfl, fun h => by simp [post, h], .inr (.inr rfl),
        .inr ⟨hmark, rfl, rfl⟩⟩ rfl rfl (fun _ => rfl) rfl (by simp [ProxyCall.IsDelivery])
      fun _ => hmark

/-- A UDP channel that gets another address of the client stays the same otherwise. -/
theorem lastClientIpAddress_same {u : ℕ} {x : ClientUdpChannel} (a : NetAddress)
    (hu : s.clientUdpChannelPool.get u = some x) (i : ℕ) :
    ((s.clientUdpChannelPool.set u { x with lastClientIpAddress := a }).get i).map
        (fun y => (y.parentConnection, y.relaySideUdpChannelId)) =
      (s.clientUdpChannelPool.get i).map (fun y => (y.parentConnection, y.relaySideUdpChannelId)) := by
  rw [Storage.get_set hu]
  split
  · next hi => rw [hi, hu]; rfl
  · rfl

/-- A datagram of a client is dropped, or keeps its connection alive, and may then be forwarded. -/
theorem onUdpData_eq_ok {i : ℕ} {x : ClientUdpChannel} {data : Bytes} {a : NetAddress}
    (h : onUdpData S s i x data a = .ok t) :
    t = s ∨ ∃ c s₁ c₁ u, s.clientConnectionPool.get x.parentConnection = some c ∧
      a.ip = x.clientIpCheckAddress ∧
      s₁ = { s with clientUdpChannelPool :=
        s.clientUdpChannelPool.set i { x with lastClientIpAddress := a } } ∧
      c₁ = { c with
        totalUdpBytesFromClient := c.totalUdpBytesFromClient + data.length.toUInt64 } ∧
      u = ((keepAlive s₁ c₁).getD (s₁, c₁)).1.store ((keepAlive s₁ c₁).getD (s₁, c₁)).2 ∧
      (t = u ∨ ∃ server k j targetAddress payload, t =
        { u with services := S.postUdpData u.services server j targetAddress payload }.call
          (.relayPostUdpData k j targetAddress payload)) := by
  rw [onUdpData] at h
  split at h
  · cases h
    exact .inl rfl
  split at h
  · cases h
    exact .inl rfl
  next hip =>
  split at h
  · cases h
  next c hc =>
  refine .inr ⟨c, _, _, _, hc, not_not.1 hip, rfl, rfl, rfl, ?_⟩
  dsimp only at h
  split at h
  · cases h
    exact .inl rfl
  · split at h
    · cases h
      exact .inl rfl
    · cases h
      exact .inr ⟨_, _, _, _, _, rfl⟩

theorem onUdpData_turns {i : ℕ} {x : ClientUdpChannel} {data : Bytes} {a : NetAddress}
    (hi : s.clientUdpChannelPool.get i = some x) (h : onUdpData S s i x data a = .ok t) :
    Turns S (fun l => l = .forwardUdp ∨ l = .touch x.parentConnection) s t := by
  obtain rfl | ⟨c, s₁, c₁, u, hc, -, hs₁, hc₁, rfl, ht⟩ := onUdpData_eq_ok h
  · exact .refl t
  have htouch : Turn S s (.touch x.parentConnection) (((keepAlive s₁ c₁).getD (s₁, c₁)).1.store
      ((keepAlive s₁ c₁).getD (s₁, c₁)).2) := by
    obtain ⟨hcore, hshape, hcalls⟩ := keepAlive_rest s₁ c₁
    refine .touch x.parentConnection c _ _ [] hc
      (keepAlive_frame (by subst hs₁; exact ⟨rfl, rfl, rfl, rfl⟩)
        (by subst hc₁; exact ⟨rfl, rfl, rfl, rfl, rfl, rfl⟩)) ?_ ?_ ?_ ?_ (by simp) (by simp)
    · rw [show ((keepAlive s₁ c₁).getD (s₁, c₁)).1.clientUdpChannelPool = s₁.clientUdpChannelPool
        from congrArg Core.clientUdpChannelPool hcore, hcore]
      subst hs₁ hc₁
      rfl
    · rw [hshape]; subst hc₁; rfl
    · rw [show ((keepAlive s₁ c₁).getD (s₁, c₁)).1.clientUdpChannelPool = s₁.clientUdpChannelPool
        from congrArg Core.clientUdpChannelPool hcore]
      subst hs₁
      exact lastClientIpAddress_same a hi
    · rw [hcalls]; subst hs₁; simp
  rcases ht with rfl | ⟨server, k, j, targetAddress, payload, rfl⟩
  · exact .single (.inr rfl) htouch
  · exact (Turns.single (.inr rfl) htouch).trans (.single (.inl rfl) (.forwardUdp _ _ _ _ _))

/-- A datagram for a client is dropped, or keeps its connection alive, and may then be sent. -/
theorem postUdpData_eq_ok {x : ClientUdpChannel} {data : Bytes} {a : NetAddress}
    (h : postUdpData s x a data = .ok t) :
    t = s ∨ ∃ c, s.clientConnectionPool.get x.parentConnection = some c ∧ c.deleteMark = false ∧
      (t = (s.linkTail .idleTimeout c.connectionId).store { c with timestampMS := s.localTicker } ∨
      ∃ buffer, t = ((s.linkTail .idleTimeout c.connectionId).call
        (.postUdp c.connectionId x.lastClientIpAddress buffer)).store { c with
          timestampMS := s.localTicker
          totalUdpBytesToClient := c.totalUdpBytesToClient + buffer.length.toUInt64 }) := by
  rw [postUdpData] at h
  split at h
  · cases h
    exact .inl rfl
  split at h
  · cases h
    exact .inl rfl
  split at h
  · cases h
  next c hc =>
  split at h
  · cases h
    exact .inl rfl
  next s₁ c₁ hk =>
  obtain ⟨hmark, rfl, rfl⟩ := keepAlive_eq_some hk
  refine .inr ⟨c, hc, hmark, ?_⟩
  split at h
  · cases h
    exact .inl rfl
  · cases h
    exact .inr ⟨_, rfl⟩

theorem postUdpData_turns {x : ClientUdpChannel} {data : Bytes} {a : NetAddress}
    (h : postUdpData s x a data = .ok t) :
    Turns S (fun l => l = .touch x.parentConnection) s t := by
  obtain rfl | ⟨c, hc, hmark, rfl | ⟨buffer, rfl⟩⟩ := postUdpData_eq_ok h
  · exact .refl t
  · exact .single rfl (.touch x.parentConnection c _ _ [] hc ⟨rfl, rfl, rfl, rfl, rfl, rfl, id,
      .inr (.inr rfl), .inr ⟨hmark, rfl, rfl⟩⟩ rfl rfl (fun _ => rfl) (by simp [linkTail])
      (by simp) (by simp))
  · exact .single rfl (.touch x.parentConnection c _ _ [.postUdp c.connectionId x.lastClientIpAddress _]
      hc ⟨rfl, rfl, rfl, rfl, rfl, rfl, id, .inr (.inr rfl), .inr ⟨hmark, rfl, rfl⟩⟩ rfl rfl
      (fun _ => rfl) rfl (by simp [ProxyCall.IsDelivery]) fun _ => hmark)

/-- A call on a connection that is there writes the connection back. -/
theorem onConnection_eq_ok {run : ClientConnection →
      Except Fault (ProxyAccessService σ × ClientConnection)} (h : s.onConnection k run = .ok t) :
    s.clientConnectionPool.get k = none ∧ t = s ∨
      ∃ c s' c', s.clientConnectionPool.get k = some c ∧ run c = .ok (s', c') ∧ t = s'.store c' := by
  unfold onConnection at h
  split at h
  · next hc => cases h; exact .inl ⟨hc, rfl⟩
  next c hc =>
  cases hr : run c with
  | error x => rw [hr] at h; cases h
  | ok p =>
    rw [hr] at h
    cases h
    exact .inr ⟨c, p.1, p.2, hc, hr, rfl⟩

theorem onUdpChannel_eq_ok {i : ℕ} {run : ClientUdpChannel → Except Fault (ProxyAccessService σ)}
    (h : s.onUdpChannel i run = .ok t) :
    s.clientUdpChannelPool.get i = none ∧ t = s ∨
      ∃ x, s.clientUdpChannelPool.get i = some x ∧ run x = .ok t := by
  unfold onUdpChannel at h
  split at h
  · next hx => cases h; exact .inl ⟨hx, rfl⟩
  · next x hx => exact .inr ⟨x, hx, h⟩

/-- Data is presented to the connection, if it is there. -/
theorem step_onData_eq_ok {data : Bytes} (h : step S P s (.onData k data) = .ok t) :
    s.clientConnectionPool.get k = none ∧ t = s ∨
      ∃ c s' c' n, s.clientConnectionPool.get k = some c ∧
        onData S P s c data = .ok (s', c', n) ∧ t = s'.store c' := by
  obtain hnone | ⟨c, s', c', hc, hr, rfl⟩ := onConnection_eq_ok h
  · exact .inl hnone
  cases hd : onData S P s c data with
  | error x =>
    rw [hd] at hr
    cases hr
  | ok p =>
    rw [hd] at hr
    cases hr
    exact .inr ⟨c, p.1, p.2.1, p.2.2, hc, hd, rfl⟩

/-- A step from a sound state is a sequence of turns. -/
theorem step_turns {e : ProxyEvent} (hs : Sound s) (h : step S P s e = .ok t) :
    Turns S e.Allows s t := by
  have hconn {k : ℕ} {run : ClientConnection →
      Except Fault (ProxyAccessService σ × ClientConnection)}
      (hrun : ∀ c p, s.clientConnectionPool.get k = some c → run c = .ok p →
        Turns S e.Allows s (p.1.store p.2)) (h : s.onConnection k run = .ok t) :
      Turns S e.Allows s t := by
    obtain ⟨-, rfl⟩ | ⟨c, s', c', hc, hr, rfl⟩ := onConnection_eq_ok h
    · exact .refl t
    · exact hrun c (s', c') hc hr
  have hudp {i : ℕ} {run : ClientUdpChannel → Except Fault (ProxyAccessService σ)}
      (hrun : ∀ x, s.clientUdpChannelPool.get i = some x → run x = .ok t →
        Turns S e.Allows s t) (h : s.onUdpChannel i run = .ok t) : Turns S e.Allows s t := by
    obtain ⟨-, rfl⟩ | ⟨x, hx, hr⟩ := onUdpChannel_eq_ok h
    · exact .refl t
    · exact hrun x hx hr
  cases e with
  | onNewConnection remoteAddress localAddress initOk =>
    cases h
    exact onNewConnection_turns remoteAddress localAddress initOk
  | onPeerClose k => exact hconn (fun c p hc hr => onPeerClose_turns hc hr) h
  | onFlush k =>
    refine hconn (fun c p hc hr => ?_) h
    cases hr
    exact .single rfl (.flush k c hc)
  | onData k data =>
    obtain ⟨-, rfl⟩ | ⟨c, s', c', n, hc, hd, rfl⟩ := step_onData_eq_ok h
    · exact .refl t
    obtain ⟨g, hg⟩ := hs.stage k c hc
    obtain ⟨heffect, hstage⟩ := onData_spec hg hd
    exact .single rfl (.call k c s' c' hc heffect hstage)
  | onUdpData i data a =>
    exact hudp (fun x hx hr => (onUdpData_turns hx hr).mono fun _ h => h.imp_right fun h => ⟨_, h⟩) h
  | postData k data =>
    refine hconn (fun c p hc hr => ?_) h
    cases hr
    exact .single rfl (postData_turn hc)
  | postUdpData i a data => exact hudp (fun x hx hr => (postUdpData_turns hr).mono fun _ h => ⟨_, h⟩) h
  | closeConnection k =>
    refine hconn (fun c p hc hr => ?_) h
    cases hr
    exact .single rfl (.close k c hc)
  | setReady κ f r =>
    cases h
    exact .single rfl (.ready κ f r)
  | tick nowMS => exact (tick_turns hs h).1

end

/-! ## Runs -/

theorem sound_init (services : σ) : Sound (init services) where
  connectionId _ _ h := by cases h
  futures _ := .empty
  channels := .empty
  type _ _ _ h := by cases h
  stage _ _ h := by cases h
  auth _ _ h := by cases h

theorem step_sound (s : ProxyAccessService σ) (e : ProxyEvent) (t : ProxyAccessService σ)
    (hs : Sound s) (h : step S P s e = .ok t) : Sound t :=
  (step_turns hs h).sound hs

/-- Every state reached is sound. -/
theorem sound_of_exec {services : σ} {es : List ProxyEvent}
    (h : exec (step S P) (init services) es = .ok s) : Sound s :=
  exec_invariant step_sound (sound_init services) h

/-- A run from a sound state is a sequence of turns. -/
theorem exec_turns {es : List ProxyEvent} (hs : Sound s) (h : exec (step S P) s es = .ok t) :
    Turns S (fun _ => True) s t := by
  induction es generalizing s with
  | nil => cases h; exact .refl _
  | cons e es ih =>
    obtain ⟨u, hu, hes⟩ := exec_cons_eq_ok.1 h
    have hturns := (step_turns hs hu).mono (M := fun _ => True) fun _ _ => trivial
    exact hturns.trans (ih (hturns.sound hs) hes)

end ProxyAccessService

end ProxyPlatform
