import ProxyPlatform.Proxy.Timers
import ProxyPlatform.Proxy.Rounds

/-!
# Turns, and what they leave of a connection

A turn says which future a connection gets and which it loses, but not that a connection that
has sent its request stays with it. A *motion* (`Motion`) is a turn with what it carries over of
each connection (`Carries`): its type, and, once no more is to be asked for on its behalf, its
data processor and its futures.

* `processData_late`: the data processors after the request leave the connection as it is;
* `step_motions`: a step is a sequence of motions.
-/

namespace ProxyPlatform

/-- The data processors of a connection that waits for the relay, or is done with the
    handshake. -/
def TcpDataProcessor.IsLate (p : TcpDataProcessor) : Prop :=
  p = .killConnectionOnData ∨ p = .onRawData ∨ p = .onHttpBody

instance (p : TcpDataProcessor) : Decidable p.IsLate := by
  unfold TcpDataProcessor.IsLate; infer_instance

/-- What a turn with the label `l` carries over of the connection `i`, that was `d` and becomes
    `d'`. -/
structure Carries (l : TurnLabel) (i : ℕ) (d d' : ClientConnection) : Prop where
  type : l ≠ .call i → d'.type = d.type
  dataProcessor : l ≠ .call i → d'.dataProcessor = d.dataProcessor ∨
    d.type = .s5Challenge ∧ d'.dataProcessor = .onS5Target ∨ d'.dataProcessor = .onRawData
  late : l = .call i → d.dataProcessor.IsLate →
    (d'.type, d'.dataProcessor, d'.futures, d'.bindUdpChannel) =
      (d.type, d.dataProcessor, d.futures, d.bindUdpChannel)

/-- A connection of which the turn leaves the type and the data processor. -/
theorem Carries.of_shape {l : TurnLabel} {i : ℕ} {d d' : ClientConnection} (hl : l ≠ .call i)
    (h : (d'.type, d'.dataProcessor) = (d.type, d.dataProcessor)) : Carries l i d d' := by
  rw [Prod.mk.injEq] at h
  exact ⟨fun _ => h.1, fun _ => .inl h.2, fun hcall => absurd hcall hl⟩

namespace ProxyAccessService

variable {σ : Type*} {S : Services σ} {P : Platform} {s t u s' : ProxyAccessService σ}
  {c c' : ClientConnection} {k : ℕ} {l : TurnLabel}

/-- A turn, with what it carries over. -/
structure Motion (S : Services σ) (s : ProxyAccessService σ) (l : TurnLabel)
    (t : ProxyAccessService σ) : Prop where
  turn : Turn S s l t
  carries : ∀ i d d', s.clientConnectionPool.get i = some d →
    t.clientConnectionPool.get i = some d' → Carries l i d d'

/-! ## Turns that are motions -/

/-- Writing back a connection with the same shape keeps the shapes. -/
theorem shape_store {i : ℕ} {d d' : ClientConnection}
    (hd' : (s'.store c').clientConnectionPool.get i = some d')
    (hpool : s'.clientConnectionPool = s.clientConnectionPool)
    (hc : s.clientConnectionPool.get k = some c) (hid : c'.connectionId = k)
    (h : (c'.type, c'.dataProcessor) = (c.type, c.dataProcessor))
    (hd : s.clientConnectionPool.get i = some d) : (d'.type, d'.dataProcessor) = (d.type, d.dataProcessor) := by
  rw [get_store_of_pool hpool hc hid] at hd'
  split at hd'
  · next hik =>
    rw [hik, hc] at hd
    cases hd
    cases hd'
    exact h
  · rw [hd] at hd'
    cases hd'
    rfl

/-- A turn that is neither a call nor a result leaves the shapes. -/
theorem Turn.shape (h : Turn S s l t) (hs : Sound s) (hcall : ∀ k, l ≠ .call k)
    (hresult : ∀ κ, l ≠ .result κ) {i : ℕ} {d d' : ClientConnection}
    (hd : s.clientConnectionPool.get i = some d) (hd' : t.clientConnectionPool.get i = some d') :
    (d'.type, d'.dataProcessor) = (d.type, d.dataProcessor) := by
  have hsame (hget : t.clientConnectionPool.get i = some d' → s.clientConnectionPool.get i = some d') :
      (d'.type, d'.dataProcessor) = (d.type, d.dataProcessor) := by
    rw [hget hd'] at hd
    cases hd
    rfl
  cases h with
  | clock | forwardUdp | expire => exact hsame id
  | accept remoteAddress localAddress k p hacquire =>
    refine hsame fun h => ?_
    change p.get i = some d' at h
    rw [Storage.get_acquire hacquire] at h
    split at h
    · next hik =>
      rw [hik, Storage.get_of_acquire hacquire] at hd
      cases hd
    · exact h
  | refuse x k p hacquire =>
    refine hsame fun h => ?_
    change (p.release k).get i = some d' at h
    rw [Storage.get_release] at h
    split at h
    · cases h
    · next hik => rwa [Storage.get_acquire hacquire, if_neg hik] at h
  | call k => exact absurd rfl (hcall k)
  | result κ => exact absurd rfl (hresult κ)
  | touch k c s' c' l hc hframe hcore hshape =>
    exact shape_store hd' hframe.clientConnectionPool hc
      (hframe.connectionId.trans (hs.connectionId k c hc)) hshape hd
  | peerClose k c s' c' hc hmark h =>
    obtain ⟨v, l, heq, -⟩ := onPeerClose_eq_ok hmark h
    cases heq
    exact shape_store hd' rfl hc (hs.connectionId k c hc) rfl hd
  | flush k c hc =>
    rcases onFlush_eq s c with ⟨-, heq⟩ | ⟨-, heq⟩
    all_goals
      rw [heq] at hd'
      exact shape_store hd' rfl hc (hs.connectionId k c hc) rfl hd
  | close k c hc =>
    rcases closeConnection_eq s c with ⟨-, heq⟩ | ⟨-, -, heq⟩ | ⟨-, -, heq⟩
    all_goals
      rw [heq] at hd'
      exact shape_store hd' rfl hc (hs.connectionId k c hc) rfl hd
  | ready κ f r => exact hsame fun h => by rwa [(setReady_leaves s κ f r).1] at h
  | destroy k lists c t hpop hc hready h =>
    refine hsame fun hi => ?_
    rw [(destroyConnection_eq_ok h).1, Storage.get_release] at hi
    split at hi
    · cases hi
    · exact hi

theorem Turn.motion (h : Turn S s l t) (hs : Sound s) (hcall : ∀ k, l ≠ .call k)
    (hresult : ∀ κ, l ≠ .result κ) : Motion S s l t :=
  ⟨h, fun i _ _ hd hd' => .of_shape (hcall i) (h.shape hs hcall hresult hd hd')⟩

/-! ## Data -/

/-- The data processors after the request leave what the connection is and waits for. -/
theorem processData_late {data : Bytes} {n : Option ℕ} (hlate : c.dataProcessor.IsLate)
    (h : processData S P s c data = .ok (s', c', n)) :
    (c'.type, c'.dataProcessor, c'.futures, c'.bindUdpChannel) =
      (c.type, c.dataProcessor, c.futures, c.bindUdpChannel) := by
  rcases hlate with hp | hp | hp
  · simp only [processData, hp] at h
    cases h
    rfl
  · rw [processData, hp] at h
    rcases onRawData_eq S s c data with ⟨-, heq⟩ | ⟨-, heq⟩
    all_goals
      rw [heq] at h
      cases h
      rfl
  · rw [processData, hp] at h
    rcases onHttpBody_eq S s c data with ⟨-, heq⟩ | ⟨-, -, heq⟩ | ⟨-, -, heq⟩
    all_goals
      rw [heq] at h
      cases h
      rfl

theorem onData_late {data : Bytes} {n : Option ℕ} (hlate : c.dataProcessor.IsLate)
    (h : onData S P s c data = .ok (s', c', n)) :
    (c'.type, c'.dataProcessor, c'.futures, c'.bindUdpChannel) =
      (c.type, c.dataProcessor, c.futures, c.bindUdpChannel) := by
  obtain ⟨c₁, total, hp, rfl⟩ := onData_eq_ok h
  exact (processData_late hlate hp :)

/-- Presenting data is a motion. -/
theorem onData_motion {data : Bytes} {n : Option ℕ} (hs : Sound s)
    (hc : s.clientConnectionPool.get k = some c) (h : onData S P s c data = .ok (s', c', n)) :
    Motion S s (.call k) (s'.store c') := by
  obtain ⟨g, hg⟩ := hs.stage k c hc
  obtain ⟨heffect, hstage⟩ := onData_spec hg h
  have hid : c'.connectionId = k := heffect.connectionId.trans (hs.connectionId k c hc)
  refine ⟨.call k c s' c' hc heffect hstage, fun i d d' hd hd' => ?_⟩
  rw [get_store_of_pool heffect.clientConnectionPool hc hid] at hd'
  split at hd'
  · next hik =>
    rw [hik, hc] at hd
    cases hd
    cases hd'
    exact ⟨fun hne => absurd (by rw [hik]) hne, fun hne => absurd (by rw [hik]) hne,
      fun _ hlate => onData_late hlate h⟩
  · next hik =>
    rw [hd] at hd'
    cases hd'
    exact .of_shape (fun heq => hik (TurnLabel.call.inj heq).symm) rfl

/-! ## Results -/

variable {κ : FutureKind} {f : ℕ} {m : FuturePoolManager ℕ κ.Result}

/-- Taking up a result is a motion. -/
theorem onReady_motion (hs : Sound s) (hpop : (s.futureManager κ).popHead = some (f, m))
    (h : onReady S P κ (s.setFutureManager κ m) f = .ok t) : Motion S s (.result κ) t := by
  obtain ⟨handle, heq, hhandles, -⟩ := onReady_spec (S := S) (P := P) κ
  refine ⟨(onResult_turn hs hpop hhandles (heq ▸ h)).1, fun i d d' hd hd' => ?_⟩
  obtain ⟨k, c, s', c', hc, hhandled, rfl⟩ := onReady_handled (by exact hs.stage) h
  have hid : c'.connectionId = k := hhandled.connectionId.trans (hs.connectionId k c hc)
  rw [get_store_of_pool (s := s) hhandled.clientConnectionPool hc hid] at hd'
  split at hd'
  · next hik =>
    rw [hik, show s.clientConnectionPool.get k = some c from hc] at hd
    cases hd
    cases hd'
    exact ⟨fun _ => hhandled.type, fun _ => hhandled.dataProcessor, fun hcall => by cases hcall⟩
  · rw [hd] at hd'
    cases hd'
    exact .of_shape (fun hcall => by cases hcall) rfl

/-! ## Sequences -/

/-- Sequences of motions with labels in `L`. -/
def Motions (S : Services σ) (L : TurnLabel → Prop) :
    ProxyAccessService σ → ProxyAccessService σ → Prop :=
  Relation.ReflTransGen fun s t => ∃ l, L l ∧ Motion S s l t

namespace Motions

variable {L M : TurnLabel → Prop}

theorem refl (s : ProxyAccessService σ) : Motions S L s s := Relation.ReflTransGen.refl

theorem trans (h : Motions S L s t) (h' : Motions S L t u) : Motions S L s u :=
  Relation.ReflTransGen.trans h h'

theorem single (hl : L l) (h : Motion S s l t) : Motions S L s t :=
  Relation.ReflTransGen.single ⟨l, hl, h⟩

theorem mono (hLM : ∀ l, L l → M l) (h : Motions S L s t) : Motions S M s t :=
  Relation.ReflTransGen.mono (fun _ _ ⟨l, hl, h⟩ => ⟨l, hLM l hl, h⟩) s t h

/-- What every motion from a sound state preserves, every sequence of motions preserves. -/
theorem invariant {I : ProxyAccessService σ → Prop}
    (hI : ∀ s l t, L l → Sound s → I s → Motion S s l t → I t) (hs : Sound s)
    (h : Motions S L s t) (hI₀ : I s) : I t := by
  have hboth : Sound t ∧ I t := by
    induction h with
    | refl => exact ⟨hs, hI₀⟩
    | tail _ hmotion ih =>
      obtain ⟨l, hl, hmotion⟩ := hmotion
      exact ⟨hmotion.turn.sound ih.1, hI _ l _ hl ih.1 ih.2 hmotion⟩
  exact hboth.2

/-- Turns that are neither calls nor results are motions. -/
theorem of_turns (hL : ∀ l, L l → (∀ k, l ≠ .call k) ∧ ∀ κ, l ≠ .result κ) (hs : Sound s)
    (h : Turns S L s t) : Motions S L s t := by
  have hboth : Sound t ∧ Motions S L s t := by
    induction h with
    | refl => exact ⟨hs, .refl s⟩
    | tail _ hturn ih =>
      obtain ⟨l, hl, hturn⟩ := hturn
      exact ⟨hturn.sound ih.1,
        ih.2.trans (.single hl (hturn.motion ih.1 (hL l hl).1 (hL l hl).2))⟩
  exact hboth.2

end Motions

/-- The loop over the results of a kind is a sequence of motions. -/
theorem processReadyFutures_motions {n : ℕ} (hs : Sound s)
    (h : processReadyFutures κ (onReady S P κ) n s = .ok t) :
    Sound t ∧ Motions S TurnLabel.IsResult s t := by
  induction n generalizing s with
  | zero =>
    obtain ⟨-, rfl⟩ | ⟨_, _, _, _, hn, -⟩ := processReadyFutures_eq_ok h
    · exact ⟨hs, .refl t⟩
    · cases hn
  | succ n ih =>
    obtain ⟨-, rfl⟩ | ⟨f, m, i, u, hn, hpop, hu, h⟩ := processReadyFutures_eq_ok h
    · exact ⟨hs, .refl t⟩
    · cases hn
      have hmotion := onReady_motion hs hpop hu
      obtain ⟨ht, hrest⟩ := ih (hmotion.turn.sound hs) h
      exact ⟨ht, (Motions.single ⟨κ, rfl⟩ hmotion).trans hrest⟩

theorem processResults_motions (hs : Sound s) (h : processResults S P s = .ok t) :
    Motions S TurnLabel.IsResult s t := by
  obtain ⟨s₁, h₁, h⟩ := bind_eq_ok.1 h
  obtain ⟨s₂, h₂, h⟩ := bind_eq_ok.1 h
  obtain ⟨s₃, h₃, h₄⟩ := bind_eq_ok.1 h
  have hloop {κ : FutureKind} {s t : ProxyAccessService σ} (hs : Sound s)
      (h : processReady κ (onReady S P κ) s = .ok t) :
      Sound t ∧ Motions S TurnLabel.IsResult s t := processReadyFutures_motions hs h
  obtain ⟨hs₁, hm₁⟩ := hloop hs h₁
  obtain ⟨hs₂, hm₂⟩ := hloop hs₁ h₂
  obtain ⟨hs₃, hm₃⟩ := hloop hs₂ h₃
  obtain ⟨-, hm₄⟩ := hloop hs₃ h₄
  exact ((hm₁.trans hm₂).trans hm₃).trans hm₄

theorem deferKillTimeouts_motions (hs : Sound s) :
    Motions S TurnLabel.IsPass s (deferKillTimeouts s) := by
  refine .of_turns (fun l hl => ?_) hs (deferKillTimeouts_turns s)
  rcases hl with rfl | ⟨m, rfl⟩ <;> simp

theorem executeKillConnection_motions (hs : Sound s)
    (hready : ∀ κ, (s.futureManager κ).futureList = []) (h : executeKillConnection S s = .ok t) :
    Motions S TurnLabel.IsDestroy s t := by
  refine .of_turns (fun l hl => ?_) hs (executeKillConnections_turns _ hs hready h).1
  obtain ⟨k, rfl⟩ := hl
  simp

theorem tick_motions {nowMS : ℕ} (hs : Sound s) (h : tick S P s nowMS = .ok t) :
    Motions S (ProxyEvent.tick nowMS).Allows s t := by
  unfold tick at h
  obtain ⟨s₁, h₁, h₂⟩ := bind_eq_ok.1 h
  have hclock : Turn S s .clock { s with localTicker := nowMS } := .clock nowMS s.audit
  have hs₀ := hclock.sound hs
  have hready := (processResults_turns hs₀ h₁).2
  have hm₁ := processResults_motions hs₀ h₁
  have hs₁ : Sound s₁ := hm₁.invariant (fun _ _ _ _ hs _ h => h.turn.sound hs) hs₀ hs₀
  have hm₂ := deferKillTimeouts_motions (S := S) hs₁
  have hs₂ := hm₂.invariant (I := Sound) (fun _ _ _ _ hs _ h => h.turn.sound hs) hs₁ hs₁
  have hm₃ := executeKillConnection_motions hs₂ (by exact hready) h₂
  have hm₀ : Motions S (ProxyEvent.tick nowMS).Allows s { s with localTicker := nowMS } :=
    .single (.inl rfl) (hclock.motion hs (by simp) (by simp))
  exact ((hm₀.trans (hm₁.mono fun _ h => .inr (.inl h))).trans
    (hm₂.mono fun _ h => h.imp_right fun h => .inr (.inl h))).trans
    (hm₃.mono fun _ h => .inr (.inr (.inr h)))

/-- A step from a sound state is a sequence of motions. -/
theorem step_motions {e : ProxyEvent} (hs : Sound s) (h : step S P s e = .ok t) :
    Motions S e.Allows s t := by
  cases e with
  | onData k data =>
    obtain ⟨-, rfl⟩ | ⟨c, s', c', n, hc, hd, rfl⟩ := step_onData_eq_ok h
    · exact .refl t
    · exact .single rfl (onData_motion hs hc hd)
  | tick nowMS => exact tick_motions hs h
  | onPeerClose k => exact .of_turns (by rintro l (rfl | rfl) <;> simp) hs (step_turns hs h)
  | onUdpData u data a =>
    exact .of_turns (by rintro l (rfl | ⟨k, rfl⟩) <;> simp) hs (step_turns hs h)
  | postUdpData u a data => exact .of_turns (by rintro l ⟨k, rfl⟩; simp) hs (step_turns hs h)
  | onNewConnection | onFlush k | postData k | closeConnection k | setReady =>
    exact .of_turns (by rintro l rfl; simp) hs (step_turns hs h)

end ProxyAccessService

end ProxyPlatform
