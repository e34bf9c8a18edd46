import ProxyPlatform.Proxy.Handshake

/-!
# What the calls on a connection do

One lemma for each data processor and each handler of a result: from a connection at a
stage of its handshake, the call has an `Effect`, and leaves the connection at a stage.

* `processData_spec`: the data processors;
* `onAuthResult_spec`, `onAcquireDeviceResult_spec`, `onAcquireDeviceConnectionResult_spec`
  and `onAcquireDeviceUdpChannelResult_spec`: the handlers; the stage is that of the
  connection without the future that `onResult` then releases.
-/

namespace ProxyPlatform.ProxyAccessService

variable {σ : Type*} {S : Services σ} {P : Platform}
  {s s' s₁ : ProxyAccessService σ} {c c' c₁ : ClientConnection} {g : Stage}
  {taken : Option ((κ : FutureKind) × Option κ.Result)}

/-! ## Small changes -/

theorem Talk.refl (s : ProxyAccessService σ) : Talk s s :=
  ⟨[], (List.append_nil _).symm, by simp⟩

theorem Talk.append {l : List ProxyCall} (h : Talk s s₁) (hs : s'.calls = s₁.calls ++ l)
    (hl : ∀ x ∈ l, x.IsTalk) : Talk s s' := by
  obtain ⟨l₁, h₁, htalk⟩ := h
  refine ⟨l₁ ++ l, by rw [hs, h₁, List.append_assoc], fun x hx => ?_⟩
  rcases List.mem_append.1 hx with hx | hx
  · exact htalk x hx
  · exact hl x hx

/-- A reply to the client is talk. -/
theorem Talk.post {c : ClientConnection} {data : Bytes} (h : Talk s s₁) :
    Talk s (post P s₁ c .reply data).1 :=
  h.append (l := [.post c.connectionId .reply data]) rfl (by simp [ProxyCall.IsTalk])

/-- A reply to the client keeps the frame. -/
theorem Frame.post {o : Origin} {data : Bytes} (h : Frame s c s₁ c₁) :
    Frame s c (post P s₁ c₁ o data).1 (post P s₁ c₁ o data).2 :=
  { h with hasPendingWrites := fun hw => by simp [ProxyAccessService.post, h.hasPendingWrites hw] }

/-- What the frame of a call and its acts speak of is the same. -/
structure Same (s : ProxyAccessService σ) (c : ClientConnection) (s' : ProxyAccessService σ)
    (c' : ClientConnection) : Prop where
  core : core s' c' = core s c
  service : (s'.clientConnectionPool, s'.localTicker, s'.destroyed, s'.timeoutLists, s'.calls) =
    (s.clientConnectionPool, s.localTicker, s.destroyed, s.timeoutLists, s.calls)
  connection : (c'.connectionId, c'.remoteAddress, c'.deleteMark, c'.hasPendingWrites,
      c'.timestampMS) =
    (c.connectionId, c.remoteAddress, c.deleteMark, c.hasPendingWrites, c.timestampMS)
  type : c.type = .undetermined ∨ c.type = .s5Challenge ∨ c'.type = c.type

/-- A frame is one for what is the same. -/
theorem Same.frame (h : Same s c s' c') : Frame s c s' c' := by
  obtain ⟨-, hs, hc, htype⟩ := h
  simp only [Prod.mk.injEq] at hs hc
  obtain ⟨hpool, htick, hdes, hlists, -⟩ := hs
  obtain ⟨hid, hrem, hmark, hpend, htime⟩ := hc
  exact ⟨hpool, htick, hdes, hid, hrem, hmark, fun h => hpend.trans h, htype,
    .inl ⟨hlists, htime⟩⟩

theorem Same.talk (h : Same s c s' c') : Talk s s' :=
  ⟨[], by rw [List.append_nil]; exact congrArg (fun x => x.2.2.2.2) h.service, by simp⟩

theorem not_taken (κ : FutureKind) (r : κ.Result)
    (h : (none : Option ((κ : FutureKind) × Option κ.Result)) = some ⟨κ, some r⟩) :
    κ = .acquireDevice := by
  cases h

/-- A call that changes nothing that matters. -/
theorem Same.effect (h : Same s c s' c')
    (htaken : ∀ κ r, taken = some ⟨κ, some r⟩ → κ = .acquireDevice) : Effect S taken s c s' c' :=
  ⟨h.frame, .quiet htaken h.core h.talk⟩

/-- A call that replies to the client. -/
theorem Same.reply {data : Bytes} (h : Same s c s₁ c₁)
    (htaken : ∀ κ r, taken = some ⟨κ, some r⟩ → κ = .acquireDevice) :
    Effect S taken s c (post P s₁ c₁ .reply data).1 (post P s₁ c₁ .reply data).2 :=
  ⟨h.frame.post, .quiet htaken h.core h.talk.post⟩

/-- A call that leaves a connection at its stage. -/
theorem Same.stay (h : Same s c s' c') (hg : AtStage c g)
    (hshape : g.Shape c'.type c'.dataProcessor) :
    Effect S none s c s' c' ∧ ∃ g, AtStage c' g :=
  ⟨h.effect not_taken, g, hg.keep h.core hshape⟩

/-- A call that replies to the client and leaves the connection at its stage. -/
theorem Same.reply_stay {data : Bytes} (h : Same s c s₁ c₁) (hg : AtStage c g)
    (hshape : g.Shape c₁.type c₁.dataProcessor) :
    Effect S none s c (post P s₁ c₁ .reply data).1 (post P s₁ c₁ .reply data).2 ∧
      ∃ g, AtStage (post P s₁ c₁ .reply data).2 g :=
  ⟨h.reply not_taken, g, hg.keep h.core hshape⟩

/-- A call that refuses a request of a connection that has none pending, and stops it. -/
theorem Same.reply_stop {data : Bytes} (h : Same s c s₁ c₁) (hg : AtStage c g)
    (hstage : g.awaits = none ∧ g ≠ .tunnel) (hp : c₁.dataProcessor = .killConnectionOnData) :
    Effect S none s c (post P s₁ c₁ .reply data).1 (post P s₁ c₁ .reply data).2 ∧
      ∃ g, AtStage (post P s₁ c₁ .reply data).2 g := by
  refine ⟨h.reply not_taken, .stopped, .stop (fun κ => ?_) ?_ (.inl hp)⟩
  · change c₁.futures κ = none
    rw [show c₁.futures = c.futures from congrArg Core.futures h.core]
    exact hg.futures_eq_none (by simp [hstage.1])
  · exact (congrArg Core.relaySideConnectionId h.core).trans (hg.relaySideConnectionId hstage.2)

/-- Keeping a connection alive leaves what it holds. -/
theorem core_touch (s : ProxyAccessService σ) (c : ClientConnection) (t : ℕ) :
    core s { c with timestampMS := t } = core s c := rfl

/-! ## Requests -/

theorem requestAuthentication_eq_ok {authView : Bytes} {x : Option ℕ}
    (h : requestAuthentication S s c authView = .ok (s', x)) :
    x = none ∧ s' = s ∨ ∃ f m t r, x = some f ∧
      (s.futureManager .auth).acquireFuture c.connectionId = some (f, m) ∧
      S.acquireAuthInfo s.services authView = .ok (t, r) ∧
      s' = ({ s with services := t }.setFutureManager .auth (m.setReady f r)).call
        (.acquireAuthInfo c.connectionId c.remoteAddress authView r) := by
  unfold requestAuthentication at h
  split at h
  · cases h; exact .inl ⟨rfl, rfl⟩
  · next f m hm =>
    split at h
    · cases h
    · next t r hr =>
      cases h
      exact .inr ⟨f, m, t, r, rfl, hm, hr, rfl⟩

theorem requestDevice_eq {request : DeviceRequest} {x : Option ℕ}
    (h : requestDevice S s c request = (s', x)) :
    x = none ∧ s' = s ∨ ∃ f m t r, x = some f ∧
      (s.futureManager .acquireDevice).acquireFuture c.connectionId = some (f, m) ∧
      S.acquireDevice s.services request f = (t, r) ∧
      s' = { s with services := t }.setFutureManager .acquireDevice (m.complete f r) := by
  unfold requestDevice at h
  split at h
  · cases h; exact .inl ⟨rfl, rfl⟩
  · next f m hm => cases h; exact .inr ⟨f, m, _, _, rfl, hm, rfl, rfl⟩

/-- `ReportTarget` only talks. -/
theorem reportTarget_eq (s : ProxyAccessService σ) (globalAuthId : ℕ) (target : Target) :
    ∃ l, reportTarget P s globalAuthId target = { s with calls := s.calls ++ l } ∧
      ∀ x ∈ l, x.IsTalk := by
  unfold reportTarget
  split
  · cases target with
    | address a => exact ⟨[_], rfl, by simp [ProxyCall.IsTalk]⟩
    | hostname h p => exact ⟨[_], rfl, by simp [ProxyCall.IsTalk]⟩
  · exact ⟨[], by rw [List.append_nil], by simp⟩

theorem requestDeviceConnection_eq {target : Target} {x : Option ℕ}
    (h : requestDeviceConnection S P s c target = (s', x)) :
    ∃ l, (∀ y ∈ l, y.IsTalk) ∧
      (x = none ∧ s' = { s with calls := s.calls ++ l } ∨ ∃ f m t r, x = some f ∧
        (s.futureManager .acquireDeviceConnection).acquireFuture c.connectionId = some (f, m) ∧
        S.createConnection s.services c.deviceReference.relayServerId
          c.deviceReference.relaySideDeviceId c.connectionId target f = (t, r) ∧
        s' = { s with services := t, calls := s.calls ++ l }.setFutureManager
          .acquireDeviceConnection (m.complete f r)) := by
  obtain ⟨l, hl, htalk⟩ := reportTarget_eq (P := P) s c.globalAuthId target
  unfold requestDeviceConnection at h
  rw [hl] at h
  dsimp only at h
  split at h
  · cases h; exact ⟨l, htalk, .inl ⟨rfl, rfl⟩⟩
  · next f m hm =>
    cases h
    refine ⟨l ++ [.createConnection c.connectionId target], ?_, .inr ⟨f, m, _, _, rfl, hm, rfl, ?_⟩⟩
    · intro y hy
      rcases List.mem_append.1 hy with hy | hy
      · exact htalk y hy
      · simp only [List.mem_singleton] at hy; subst hy; trivial
    · simp [call, setFutureManager]

theorem requestDeviceUdpChannel_eq {u : ℕ} {x : Option ℕ}
    (h : requestDeviceUdpChannel S s c u = (s', x)) :
    x = none ∧ s' = s ∨ ∃ f m t r, x = some f ∧
      (s.futureManager .acquireDeviceUdpChannel).acquireFuture c.connectionId = some (f, m) ∧
      S.createUdpChannel s.services c.deviceReference.relayServerId
        c.deviceReference.relaySideDeviceId u f = (t, r) ∧
      s' = ({ s with services := t }.setFutureManager .acquireDeviceUdpChannel
        (m.complete f r)).call (.createUdpChannel c.connectionId) := by
  unfold requestDeviceUdpChannel at h
  split at h
  · cases h; exact .inl ⟨rfl, rfl⟩
  · next f m hm => cases h; exact .inr ⟨f, m, _, _, rfl, hm, rfl, rfl⟩

/-- What the frame of a call on a connection speaks of, when the call changes more. -/
theorem Same.frame_request (h : Same s c s c₁) (κ : FutureKind) (f : ℕ)
    (hpool : s'.clientConnectionPool = s.clientConnectionPool)
    (hservice : (s'.localTicker, s'.destroyed, s'.timeoutLists) =
      (s.localTicker, s.destroyed, s.timeoutLists)) :
    Frame s c s' (c₁.setFuture κ (some f)) := by
  simp only [Prod.mk.injEq] at hservice
  obtain ⟨htick, hdes, hlists⟩ := hservice
  have hf := h.frame
  have hconn := h.connection
  simp only [Prod.mk.injEq] at hconn
  exact ⟨hpool, htick, hdes, hf.connectionId, hf.remoteAddress, hf.deleteMark, hf.hasPendingWrites,
    hf.type, .inl ⟨hlists, hconn.2.2.2.2⟩⟩

/-- A greeting at whose end the client is authenticated. -/
theorem effect_authenticate {c₂ : ClientConnection} {authView : Bytes} {f : ℕ}
    (hg : AtStage c .greeting) (h₁ : Same s c s c₁)
    (h : requestAuthentication S s c₁ authView = .ok (s', some f)) (h₂ : Same s c s c₂)
    (hshape : Stage.authenticating.Shape c₂.type c₂.dataProcessor) :
    Effect S none s c s' (c₂.setFuture .auth (some f)) ∧
      AtStage (c₂.setFuture .auth (some f)) .authenticating := by
  have hnone : ∀ κ, c.futures κ = none := fun κ => hg.futures_eq_none (by simp [Stage.awaits])
  obtain ⟨hx, -⟩ | ⟨f', m, t, r, hx, hm, hr, rfl⟩ := requestAuthentication_eq_ok h
  · cases hx
  cases hx
  have hc₂ := h₂.core
  simp only [core, Core.mk.injEq, true_and] at hc₂
  obtain ⟨hfutures, hid, hrelay, hbind⟩ := hc₂
  rw [h₁.frame.connectionId] at hm
  refine ⟨⟨h₂.frame_request .auth f rfl rfl,
    .authenticate f m authView t r hm hr (hnone _) (hg.localAuthId (.inl rfl)) ?_ ?_⟩, ?_⟩
  · simp only [core, Core.request, ClientConnection.setFuture, setFutureManager, call, hfutures,
      hid, hrelay, hbind]
  · simp only [call, setFutureManager, h₁.frame.connectionId, h₁.frame.remoteAddress]
  · refine ⟨hshape, ?_, fun _ => hid.trans (hg.localAuthId (.inl rfl)),
      fun _ => hrelay.trans (hg.relaySideConnectionId (by simp)), fun hb => ?_⟩
    · exact ClientConnection.isSome_setFuture (by simpa only [hfutures] using hnone)
    · have hbind₂ : (c₂.setFuture .auth (some f)).bindUdpChannel = none :=
        hbind.trans (hg.bindUdpChannel_eq_none (by simp))
      rw [hbind₂] at hb
      cases hb

/-! ## SOCKS5 -/

theorem onS5Challenge_spec {data : Bytes} {n : Option ℕ} (hg : AtStage c .greeting)
    (htype : c.type = .undetermined)
    (h : onS5Challenge S P s c data = .ok (s', c', n)) :
    Effect S none s c s' c' ∧ ∃ g, AtStage c' g := by
  have hnone : ∀ κ, c.futures κ = none := fun κ => hg.futures_eq_none (by simp [Stage.awaits])
  simp only [onS5Challenge] at h
  iterate 2
    split at h
    · cases h
      exact Same.stay ⟨rfl, rfl, rfl, .inr (.inr rfl)⟩ hg hg.shape
  split at h
  · -- No method with a user and a password is offered.
    have hsame : Same s c s { c with
        type := .s5Challenge, noAuth := true, dataProcessor := .killConnectionOnData } :=
      ⟨rfl, rfl, rfl, .inl htype⟩
    split at h
    · cases h
    · next s₁ hs₁ =>
      obtain ⟨-, rfl⟩ | ⟨f, m, t, r, hx, -⟩ := requestAuthentication_eq_ok hs₁
      · rw [ClientConnection.setFuture_of_none (by exact hnone _)] at h
        cases h
        exact Same.reply_stop ⟨rfl, rfl, rfl, .inl htype⟩ hg (by simp [Stage.awaits]) rfl
      · cases hx
    · next s₁ f hs₁ =>
      cases h
      obtain ⟨heffect, hstage⟩ := effect_authenticate hg hsame hs₁ hsame (by simp [Stage.Shape])
      exact ⟨heffect, _, hstage⟩
  · cases h
    have hsame : Same s c s { c with type := .s5Challenge, dataProcessor := .onS5AuthInfo } :=
      ⟨rfl, rfl, rfl, .inl htype⟩
    exact hsame.reply_stay hg (.inr (.inl ⟨rfl, rfl⟩))

theorem onS5AuthInfo_spec {data : Bytes} {n : Option ℕ} (hg : AtStage c .greeting)
    (hp : c.dataProcessor = .onS5AuthInfo) (h : onS5AuthInfo S P s c data = .ok (s', c', n)) :
    Effect S none s c s' c' ∧ ∃ g, AtStage c' g := by
  have hnone : ∀ κ, c.futures κ = none := fun κ => hg.futures_eq_none (by simp [Stage.awaits])
  have htype : c.type = .s5Challenge := by
    have hshape := hg.shape
    simp only [Stage.Shape, hp] at hshape
    simpa using hshape
  have hsame : Same s c s { c with dataProcessor := .killConnectionOnData } := ⟨rfl, rfl, rfl, .inr (.inr rfl)⟩
  simp only [onS5AuthInfo] at h
  iterate 5
    split at h
    · cases h
      exact Same.stay ⟨rfl, rfl, rfl, .inr (.inr rfl)⟩ hg hg.shape
  split at h
  · cases h
  · next s₁ hs₁ =>
    obtain ⟨-, rfl⟩ | ⟨f, m, t, r, hx, -⟩ := requestAuthentication_eq_ok hs₁
    · rw [ClientConnection.setFuture_of_none (by exact hnone _)] at h
      cases h
      exact Same.reply_stop ⟨rfl, rfl, rfl, .inr (.inr rfl)⟩ hg (by simp [Stage.awaits]) rfl
    · cases hx
  · next s₁ f hs₁ =>
    cases h
    obtain ⟨heffect, hstage⟩ :=
      effect_authenticate hg hsame hs₁ hsame (by simp [Stage.Shape, htype])
    exact ⟨heffect, _, hstage⟩

/-- The request for a UDP channel of a connection that has none. -/
theorem onS5UdpTarget_spec {addrType : UInt8} {offset : ℕ} {n : Option ℕ}
    (hg : AtStage c .choosing)
    (h : onS5UdpTarget S P s { c with dataProcessor := .killConnectionOnData } addrType offset =
      (s', c', n)) :
    Effect S none s c s' c' ∧ ∃ g, AtStage c' g := by
  have hnone : ∀ κ, c.futures κ = none := fun κ => hg.futures_eq_none (by simp [Stage.awaits])
  have hrelay : c.relaySideConnectionId = 0 := hg.relaySideConnectionId (by simp)
  have hbind : c.bindUdpChannel = none := hg.bindUdpChannel_eq_none (by simp)
  have htype : c.type = .s5Challenge := hg.shape.1
  have hsame : Same s c s { c with dataProcessor := .killConnectionOnData } := ⟨rfl, rfl, rfl, .inr (.inr rfl)⟩
  simp only [onS5UdpTarget] at h
  iterate 2
    split at h
    · cases h
      exact hsame.reply_stop hg (by simp [Stage.awaits]) rfl
  split at h
  · cases h
    exact hsame.reply_stop hg (by simp [Stage.awaits]) rfl
  · next u p hup =>
    split at h
    · -- The channel is bound nowhere and given back.
      cases h
      exact ⟨⟨Frame.post ⟨rfl, rfl, rfl, rfl, rfl, rfl, id, .inr (.inr rfl), .inl ⟨rfl, rfl⟩⟩,
        .unbound u p _ hup rfl (Talk.post (P := P) (Talk.refl s))⟩, .stopped, .stop hnone hrelay (.inl rfl)⟩
    · split at h
      · next s₁ hs₁ =>
        obtain ⟨-, rfl⟩ | ⟨f, m, t, r, hx, -⟩ := requestDeviceUdpChannel_eq hs₁
        · rw [ClientConnection.setFuture_of_none (by exact hnone _)] at h
          cases h
          exact ⟨⟨Frame.post ⟨rfl, rfl, rfl, rfl, rfl, rfl, id, .inr (.inr rfl), .inl ⟨rfl, rfl⟩⟩,
            .bind u p _ hup rfl rfl hbind rfl (Talk.post (P := P) (Talk.refl s))⟩,
            .stopped, .stop hnone hrelay (.inl rfl)⟩
        · cases hx
      · next s₁ f hs₁ =>
        cases h
        obtain ⟨hx, -⟩ | ⟨f', m, t, r, hx, hm, hr, rfl⟩ := requestDeviceUdpChannel_eq hs₁
        · cases hx
        cases hx
        refine ⟨⟨⟨rfl, rfl, rfl, rfl, rfl, rfl, id, .inr (.inl htype), .inl ⟨rfl, rfl⟩⟩,
          .associate u p _ f m _ _ t r hup rfl rfl hbind hm hr (hnone _) rfl
            ((Talk.refl s).append (l := [.createUdpChannel c.connectionId]) rfl
              (by simp [ProxyCall.IsTalk]))⟩, .associating, ?_⟩
        exact ⟨by simp [Stage.Shape, ClientConnection.setFuture],
          ClientConnection.isSome_setFuture (by exact hnone), by simp, fun _ => hrelay,
          fun _ => .inl rfl⟩

theorem onS5Target_spec {data : Bytes} {n : Option ℕ} (hg : AtStage c .choosing)
    (h : onS5Target S P s c data = .ok (s', c', n)) :
    Effect S none s c s' c' ∧ ∃ g, AtStage c' g := by
  have hnone : ∀ κ, c.futures κ = none := fun κ => hg.futures_eq_none (by simp [Stage.awaits])
  have hrelay : c.relaySideConnectionId = 0 := hg.relaySideConnectionId (by simp)
  have hbind : c.bindUdpChannel = none := hg.bindUdpChannel_eq_none (by simp)
  have htype : c.type = .s5Challenge := hg.shape.1
  have hsame : Same s c s { c with dataProcessor := .killConnectionOnData } := ⟨rfl, rfl, rfl, .inr (.inr rfl)⟩
  simp only [onS5Target] at h
  iterate 3
    split at h
    · cases h
      exact Same.stay ⟨rfl, rfl, rfl, .inr (.inr rfl)⟩ hg hg.shape
  split at h
  · cases h
    exact Same.stay ⟨rfl, rfl, rfl, .inr (.inr rfl)⟩ hg hg.shape
  · next target offset _ =>
    split at h
    · split at h
      · next target _ =>
        split at h
        · next s₁ hs₁ =>
          obtain ⟨l, hl, ⟨-, rfl⟩ | ⟨f, m, t, r, hx, -⟩⟩ := requestDeviceConnection_eq hs₁
          · rw [ClientConnection.setFuture_of_none (by exact hnone _)] at h
            cases h
            exact ⟨⟨Frame.post ⟨rfl, rfl, rfl, rfl, rfl, rfl, id, .inr (.inr rfl), .inl ⟨rfl, rfl⟩⟩,
              .quiet not_taken rfl (Talk.post ⟨l, rfl, hl⟩)⟩,
              .stopped, .stop hnone hrelay (.inl rfl)⟩
          · cases hx
        · next s₁ f hs₁ =>
          cases h
          obtain ⟨l, hl, ⟨hx, -⟩ | ⟨f', m, t, r, hx, hm, hr, rfl⟩⟩ :=
            requestDeviceConnection_eq hs₁
          · cases hx
          cases hx
          refine ⟨⟨⟨rfl, rfl, rfl, rfl, rfl, rfl, id, .inr (.inl htype), .inl ⟨rfl, rfl⟩⟩,
            .connect f m _ _ target t r (.inl rfl) hm hr (hnone _) hrelay rfl ⟨l, rfl, hl⟩⟩,
            .connecting, ?_⟩
          exact ⟨by simp [Stage.Shape, ClientConnection.setFuture],
            ClientConnection.isSome_setFuture (by exact hnone), by simp, fun _ => hrelay,
            fun hb => by simp [ClientConnection.setFuture, hbind] at hb⟩
      · -- There is no future to release.
        rw [hnone] at h
        cases h
    · split at h
      · exact onS5UdpTarget_spec hg (Except.ok.inj h)
      · cases h
        exact hsame.reply_stop hg (by simp [Stage.awaits]) rfl

/-! ## HTTP -/

theorem onHttpNormalChallenge_spec {data : Bytes} {lineLength : ℕ} {n : Option ℕ}
    (hg : AtStage c .greeting) (htype : c.type = .undetermined)
    (h : onHttpNormalChallenge s c data lineLength = .ok (s', c', n)) :
    Effect S none s c s' c' ∧ ∃ g, AtStage c' g := by
  simp only [onHttpNormalChallenge] at h
  split at h
  · cases h
    exact Same.stay ⟨rfl, rfl, rfl, .inr (.inr rfl)⟩ hg hg.shape
  split at h
  · cases h
    exact Same.stay ⟨rfl, rfl, rfl, .inr (.inr rfl)⟩ hg hg.shape
  split at h
  · cases h
    exact Same.stay ⟨rfl, rfl, rfl, .inr (.inr rfl)⟩ hg hg.shape
  split at h
  · cases h
  · cases h
    exact Same.stay ⟨rfl, rfl, rfl, .inl htype⟩ hg (by simp [Stage.Shape])

theorem onHttpChallenge_spec {data : Bytes} {n : Option ℕ} (hg : AtStage c .greeting)
    (htype : c.type = .undetermined)
    (h : onHttpChallenge s c data = .ok (s', c', n)) :
    Effect S none s c s' c' ∧ ∃ g, AtStage c' g := by
  simp only [onHttpChallenge] at h
  split at h
  · cases h
    exact Same.stay ⟨rfl, rfl, rfl, .inr (.inr rfl)⟩ hg hg.shape
  split at h
  · cases h
    exact Same.stay ⟨rfl, rfl, rfl, .inr (.inr rfl)⟩ hg hg.shape
  split at h
  · split at h
    · cases h
    · cases h
      exact Same.stay ⟨rfl, rfl, rfl, .inr (.inr rfl)⟩ hg hg.shape
    · split at h
      · cases h
        exact Same.stay ⟨rfl, rfl, rfl, .inr (.inr rfl)⟩ hg hg.shape
      · cases h
        exact Same.stay ⟨rfl, rfl, rfl, .inl htype⟩ hg (by simp [Stage.Shape])
  · exact onHttpNormalChallenge_spec hg htype h

theorem onHttpRawHeaderProcessor_spec {data : Bytes} {n : Option ℕ} (hg : AtStage c .greeting)
    (hp : c.dataProcessor = .onHttpRawHeaderProcessor)
    (h : onHttpRawHeaderProcessor S P s c data = .ok (s', c', n)) :
    Effect S none s c s' c' ∧ ∃ g, AtStage c' g := by
  have hnone : ∀ κ, c.futures κ = none := fun κ => hg.futures_eq_none (by simp [Stage.awaits])
  have htype : c.type = .httpRaw := by
    have hshape := hg.shape
    simp only [Stage.Shape, hp] at hshape
    simpa using hshape
  have hsame : Same s c s { c with dataProcessor := .killConnectionOnData } := ⟨rfl, rfl, rfl, .inr (.inr rfl)⟩
  simp only [onHttpRawHeaderProcessor] at h
  split at h
  · cases h
  · cases h
    exact Same.stay ⟨rfl, rfl, rfl, .inr (.inr rfl)⟩ hg hg.shape
  · cases h
    exact Same.stay ⟨rfl, rfl, rfl, .inr (.inr rfl)⟩ hg hg.shape
  · cases h
    exact Same.reply_stay ⟨rfl, rfl, rfl, .inr (.inr rfl)⟩ hg hg.shape
  · cases h
    exact hsame.reply_stop hg (by simp [Stage.awaits]) rfl
  · split at h
    · cases h
    · next s₁ hs₁ =>
      obtain ⟨-, rfl⟩ | ⟨f, m, t, r, hx, -⟩ := requestAuthentication_eq_ok hs₁
      · rw [ClientConnection.setFuture_of_none (by exact hnone _)] at h
        cases h
        exact hsame.reply_stop hg (by simp [Stage.awaits]) rfl
      · cases hx
    · next s₁ f hs₁ =>
      cases h
      obtain ⟨heffect, hstage⟩ :=
        effect_authenticate hg hsame hs₁ hsame (by simp [Stage.Shape, htype])
      exact ⟨heffect, _, hstage⟩

theorem onHttpNormalHeaderProcessor_spec {data : Bytes} {n : Option ℕ} (hg : AtStage c .greeting)
    (hp : c.dataProcessor = .onHttpNormalHeaderProcessor)
    (h : onHttpNormalHeaderProcessor S P s c data = .ok (s', c', n)) :
    Effect S none s c s' c' ∧ ∃ g, AtStage c' g := by
  have hnone : ∀ κ, c.futures κ = none := fun κ => hg.futures_eq_none (by simp [Stage.awaits])
  have htype : c.type = .httpNormal := by
    have hshape := hg.shape
    simp only [Stage.Shape, hp] at hshape
    simpa using hshape
  simp only [onHttpNormalHeaderProcessor] at h
  split at h
  · cases h
  · cases h
    exact Same.stay ⟨rfl, rfl, rfl, .inr (.inr rfl)⟩ hg hg.shape
  · cases h
    exact Same.reply_stay ⟨rfl, rfl, rfl, .inr (.inr rfl)⟩ hg hg.shape
  · next http authKey consumedSize _ =>
    have hsame : Same s c s { c with
      http := { http with content := http.content ++ [13, 10] } } := ⟨rfl, rfl, rfl, .inr (.inr rfl)⟩
    split at h
    · cases h
    · next s₁ hs₁ =>
      obtain ⟨-, rfl⟩ | ⟨f, m, t, r, hx, -⟩ := requestAuthentication_eq_ok hs₁
      · rw [ClientConnection.setFuture_of_none (by exact hnone _)] at h
        cases h
        exact hsame.reply_stay hg hg.shape
      · cases hx
    · next s₁ f hs₁ =>
      cases h
      have hbody : Same s c s { c with
        http := { http with content := http.content ++ [13, 10] }, dataProcessor := .onHttpBody } :=
        ⟨rfl, rfl, rfl, .inr (.inr rfl)⟩
      obtain ⟨heffect, hstage⟩ :=
        effect_authenticate hg hsame hs₁ hbody (by simp [Stage.Shape, htype])
      exact ⟨heffect, _, hstage⟩

/-! ## Data -/

/-- Keeping a connection alive. -/
theorem keepAlive_eq_some (h : keepAlive s c = some (s', c')) :
    c.deleteMark = false ∧ s' = s.linkTail .idleTimeout c.connectionId ∧
      c' = { c with timestampMS := s.localTicker } := by
  unfold keepAlive at h
  split at h
  · cases h
  · next hmark => cases h; exact ⟨by simpa using hmark, rfl, rfl⟩

variable (S) in
/-- Data of a tunnel is not taken from a marked connection, and goes to the relay otherwise. -/
theorem onRawData_eq (s : ProxyAccessService σ) (c : ClientConnection) (data : Bytes) :
    c.deleteMark = true ∧ onRawData S s c data = (s, c, some 0) ∨
    c.deleteMark = false ∧ onRawData S s c data =
      (relayPostData S (s.linkTail .idleTimeout c.connectionId)
        { c with timestampMS := s.localTicker } data,
        { c with timestampMS := s.localTicker }, some data.length) := by
  rw [onRawData, keepAlive]
  cases c.deleteMark with
  | true => exact .inl ⟨rfl, rfl⟩
  | false => exact .inr ⟨rfl, rfl⟩

variable (S) in
/-- A body is not taken from a marked connection; otherwise it is kept behind the header, as long
    as that is kept, and then goes to the relay. -/
theorem onHttpBody_eq (s : ProxyAccessService σ) (c : ClientConnection) (data : Bytes) :
    c.deleteMark = true ∧ onHttpBody S s c data = (s, c, some 0) ∨
    c.deleteMark = false ∧ c.http.content ≠ [] ∧ onHttpBody S s c data =
      (s.linkTail .idleTimeout c.connectionId, { c with
        timestampMS := s.localTicker
        http := { c.http with content := c.http.content ++ data } }, some data.length) ∨
    c.deleteMark = false ∧ c.http.content = [] ∧ onHttpBody S s c data =
      (relayPostData S (s.linkTail .idleTimeout c.connectionId)
        { c with timestampMS := s.localTicker } data,
        { c with timestampMS := s.localTicker }, some data.length) := by
  rw [onHttpBody, keepAlive]
  cases c.deleteMark with
  | true => exact .inl ⟨rfl, rfl⟩
  | false =>
    by_cases hcontent : c.http.content = []
    · exact .inr (.inr ⟨rfl, hcontent, if_neg (not_not.2 hcontent)⟩)
    · exact .inr (.inl ⟨rfl, hcontent, if_pos hcontent⟩)

theorem onRawData_spec {data : Bytes} {n : Option ℕ} (hg : AtStage c g)
    (h : onRawData S s c data = (s', c', n)) :
    Effect S none s c s' c' ∧ ∃ g, AtStage c' g := by
  rcases onRawData_eq S s c data with ⟨-, heq⟩ | ⟨hmark, heq⟩
  · rw [heq] at h
    cases h
    exact Same.stay ⟨rfl, rfl, rfl, .inr (.inr rfl)⟩ hg hg.shape
  · rw [heq] at h
    cases h
    exact ⟨⟨⟨rfl, rfl, rfl, rfl, rfl, rfl, id, .inr (.inr rfl),
      .inr ⟨hmark, rfl, rfl⟩⟩,
      .forward _ data rfl rfl hmark⟩, g, hg.keep (core_touch s c s.localTicker) hg.shape⟩

theorem onHttpBody_spec {data : Bytes} {n : Option ℕ} (hg : AtStage c g)
    (h : onHttpBody S s c data = (s', c', n)) :
    Effect S none s c s' c' ∧ ∃ g, AtStage c' g := by
  rcases onHttpBody_eq S s c data with ⟨-, heq⟩ | ⟨hmark, -, heq⟩ | ⟨hmark, -, heq⟩
  · rw [heq] at h
    cases h
    exact Same.stay ⟨rfl, rfl, rfl, .inr (.inr rfl)⟩ hg hg.shape
  · rw [heq] at h
    cases h
    exact ⟨⟨⟨rfl, rfl, rfl, rfl, rfl, rfl, id, .inr (.inr rfl), .inr ⟨hmark, rfl, rfl⟩⟩,
      .quiet not_taken rfl (Talk.refl s)⟩, g, hg.keep (core_touch s c s.localTicker) hg.shape⟩
  · rw [heq] at h
    cases h
    exact ⟨⟨⟨rfl, rfl, rfl, rfl, rfl, rfl, id, .inr (.inr rfl), .inr ⟨hmark, rfl, rfl⟩⟩,
      .forward _ data rfl rfl hmark⟩, g, hg.keep (core_touch s c s.localTicker) hg.shape⟩

/-- The data processors. -/
theorem processData_spec {data : Bytes} {n : Option ℕ} (hg : AtStage c g)
    (h : processData S P s c data = .ok (s', c', n)) :
    Effect S none s c s' c' ∧ ∃ g, AtStage c' g := by
  have hshape := hg.shape
  unfold processData at h
  split at h
  · cases h
    exact Same.stay ⟨rfl, rfl, rfl, .inr (.inr rfl)⟩ hg hg.shape
  · next hp =>
    obtain ⟨hg, htype⟩ : AtStage c .greeting ∧ c.type = .undetermined := by
      cases g <;> simp [Stage.Shape, hp] at hshape
      exact ⟨hg, hshape⟩
    unfold onGuessProxyType at h
    split at h
    · cases h
      exact Same.stay ⟨rfl, rfl, rfl, .inr (.inr rfl)⟩ hg hg.shape
    split at h
    · exact onS5Challenge_spec hg htype h
    split at h
    · cases h
      exact Same.reply_stay ⟨rfl, rfl, rfl, .inr (.inr rfl)⟩ hg hg.shape
    · exact onHttpChallenge_spec hg htype h
  · next hp =>
    have hg : AtStage c .greeting := by
      cases g <;> simp [Stage.Shape, hp] at hshape
      exact hg
    exact onS5AuthInfo_spec hg hp h
  · next hp =>
    have hg : AtStage c .choosing := by
      cases g <;> simp [Stage.Shape, hp] at hshape
      exact hg
    exact onS5Target_spec hg h
  · exact onRawData_spec hg (Except.ok.inj h)
  · next hp =>
    have hg : AtStage c .greeting := by
      cases g <;> simp [Stage.Shape, hp] at hshape
      exact hg
    exact onHttpRawHeaderProcessor_spec hg hp h
  · next hp =>
    have hg : AtStage c .greeting := by
      cases g <;> simp [Stage.Shape, hp] at hshape
      exact hg
    exact onHttpNormalHeaderProcessor_spec hg hp h
  · exact onHttpBody_spec hg (Except.ok.inj h)

/-- `OnData` is its data processor, and charges the bytes. -/
theorem onData_eq_ok {data : Bytes} {n : Option ℕ} (h : onData S P s c data = .ok (s', c', n)) :
    ∃ c₁ total, processData S P s c data = .ok (s', c₁, n) ∧
      c' = { c₁ with totalTcpBytesFromClient := total } := by
  rw [onData] at h
  split at h
  · cases h
  · next hp =>
    cases h
    exact ⟨c', _, hp, rfl⟩
  · next s₁ c₁ m hp =>
    cases h
    exact ⟨c₁, _, hp, rfl⟩

/-- Charging the bytes of a call leaves its effect. -/
theorem onData_spec {data : Bytes} {n : Option ℕ} (hg : AtStage c g)
    (h : onData S P s c data = .ok (s', c', n)) :
    Effect S none s c s' c' ∧ ∃ g, AtStage c' g := by
  obtain ⟨c₁, total, hp, rfl⟩ := onData_eq_ok h
  obtain ⟨⟨hframe, hact⟩, g', hg'⟩ := processData_spec hg hp
  exact ⟨⟨{ hframe with }, hact⟩, g', { hg' with }⟩

/-! ## Results -/

/-- `handle` takes up the results of the futures of the kind `κ`: it has an effect, and leaves
    the connection at a stage once the future is released. -/
def Handles (S : Services σ) (κ : FutureKind)
    (handle : ProxyAccessService σ → ClientConnection → Option κ.Result →
      Except Fault (ProxyAccessService σ × ClientConnection)) : Prop :=
  ∀ s c r s' c' g, AtStage c g → g.awaits = some κ → handle s c r = .ok (s', c') →
    Effect S (some ⟨κ, r⟩) s c s' c' ∧ ∃ g, AtStage (c'.setFuture κ none) g

/-- `handle` takes up every result of a connection; that of a UDP channel, if the channel is
    there. -/
def Answers (κ : FutureKind)
    (handle : ProxyAccessService σ → ClientConnection → Option κ.Result →
      Except Fault (ProxyAccessService σ × ClientConnection)) : Prop :=
  ∀ s c r, (κ = .acquireDeviceUdpChannel → ∃ u udpChannel, c.bindUdpChannel = some u ∧
    s.clientUdpChannelPool.get u = some udpChannel) → ∃ p, handle s c r = .ok p

/-- A handler that replies to the client and stops it. -/
theorem Same.reply_finish {κ : FutureKind} {r : Option κ.Result} {data : Bytes}
    (h : Same s c s₁ c₁) (hg : AtStage c g) (hκ : g.awaits = some κ)
    (hp : c₁.dataProcessor = c.dataProcessor)
    (hr : ∀ ι x, (some ⟨κ, r⟩ : Option ((κ : FutureKind) × Option κ.Result)) = some ⟨ι, some x⟩ →
      ι = .acquireDevice) :
    Effect S (some ⟨κ, r⟩) s c (post P s₁ c₁ .reply data).1 (post P s₁ c₁ .reply data).2 ∧
      ∃ g, AtStage ((post P s₁ c₁ .reply data).2.setFuture κ none) g :=
  ⟨h.reply hr, .stopped, hg.finish hκ (congrArg Core.futures h.core)
    (congrArg Core.relaySideConnectionId h.core) hp⟩

/-- Nothing is taken from a future without a result. -/
theorem nothing_taken {κ : FutureKind} (ι : FutureKind) (x : ι.Result)
    (h : (some ⟨κ, none⟩ : Option ((κ : FutureKind) × Option κ.Result)) = some ⟨ι, some x⟩) :
    ι = .acquireDevice := by
  cases h

/-- `SendS5AuthError` replies to the client. -/
theorem sendS5AuthError_eq (s : ProxyAccessService σ) (c : ClientConnection) :
    ∃ data, sendS5AuthError P s c = post P s c .reply data := by
  unfold sendS5AuthError
  split
  · exact ⟨_, rfl⟩
  · exact ⟨_, rfl⟩

/-- `SendS5AuthAccepted` replies to the client. -/
theorem sendS5AuthAccepted_eq (s : ProxyAccessService σ) (c : ClientConnection) :
    ∃ data, sendS5AuthAccepted P s c = post P s c .reply data := by
  unfold sendS5AuthAccepted
  split
  · exact ⟨_, rfl⟩
  · exact ⟨_, rfl⟩

/-- A connection that takes up a grant and asks for a device. -/
theorem effect_locate {r : AuthResult} {request : DeviceRequest} {f : ℕ}
    (hg : AtStage c .authenticating) (hcore : core s c₁ = { core s c with
      localAuthId := r.localAuthId }) (hframe : Frame s c s c₁)
    (htime : c₁.timestampMS = c.timestampMS)
    (hshape : (c₁.type, c₁.dataProcessor) = (c.type, c.dataProcessor))
    (h : requestDevice S s c₁ request = (s', some f)) :
    Effect S (some ⟨.auth, some r⟩) s c s' (c₁.setFuture .acquireDevice (some f)) ∧
      ∃ g, AtStage ((c₁.setFuture .acquireDevice (some f)).setFuture .auth none) g := by
  obtain ⟨hx, -⟩ | ⟨f', m, t, y, hx, hm, hr, rfl⟩ := requestDevice_eq h
  · cases hx
  cases hx
  rw [hframe.connectionId] at hm
  simp only [core, Core.mk.injEq, true_and] at hcore
  obtain ⟨hfutures, hid, hrelay, hbind⟩ := hcore
  rw [Prod.mk.injEq] at hshape
  refine ⟨⟨{ hframe with timeoutLists := .inl ⟨rfl, htime⟩ },
    .locate r f m request t y hm hr (hg.futures_eq_none (by simp [Stage.awaits]))
      (hg.localAuthId (.inr rfl)) ?_ rfl⟩, .locating, ?_, ?_, by simp, fun _ => ?_, fun hb => ?_⟩
  · simp only [core, Core.request, ClientConnection.setFuture, setFutureManager, hfutures, hid,
      hrelay, hbind]
  · have h := hg.shape
    change Stage.locating.Shape c₁.type c₁.dataProcessor
    rw [hshape.1, hshape.2]
    exact h
  · intro j
    simp only [ClientConnection.setFuture, hfutures]
    exact hg.isSome_next rfl (by simp) f j
  · exact hrelay.trans (hg.relaySideConnectionId (by simp))
  · have hbind₂ : c₁.bindUdpChannel = none := hbind.trans (hg.bindUdpChannel_eq_none (by simp))
    rw [show ((c₁.setFuture .acquireDevice (some f)).setFuture .auth none).bindUdpChannel = none
      from hbind₂] at hb
    cases hb

theorem onS5AuthResult_spec {r : Option AuthResult} (hg : AtStage c .authenticating)
    (h : onS5AuthResult S P s c r = (s', c')) :
    Effect S (some ⟨.auth, r⟩) s c s' c' ∧ ∃ g, AtStage (c'.setFuture .auth none) g := by
  have hid : c.localAuthId = 0 := hg.localAuthId (.inr rfl)
  have hnone : c.futures .acquireDevice = none := hg.futures_eq_none (by simp [Stage.awaits])
  cases r with
  | none =>
    obtain ⟨data, hdata⟩ := sendS5AuthError_eq (P := P) s c
    simp only [onS5AuthResult, hdata] at h
    cases h
    exact Same.reply_finish ⟨rfl, rfl, rfl, .inr (.inr rfl)⟩ hg rfl rfl nothing_taken
  | some r =>
    simp only [onS5AuthResult] at h
    split at h
    · next s₁ hs₁ =>
      obtain ⟨-, rfl⟩ | ⟨f, m, t, y, hx, -⟩ := requestDevice_eq hs₁
      · rw [ClientConnection.setFuture_of_none (by exact hnone)] at h
        obtain ⟨data, hdata⟩ := sendS5AuthError_eq (P := P) s₁ _
        rw [hdata] at h
        cases h
        exact ⟨⟨Frame.post ⟨rfl, rfl, rfl, rfl, rfl, rfl, id, .inr (.inr rfl), .inl ⟨rfl, rfl⟩⟩,
          .grant r hid rfl (Talk.post (P := P) (Talk.refl s₁))⟩, .stopped, hg.finish rfl rfl rfl rfl⟩
      · cases hx
    · next s₁ f hs₁ =>
      cases h
      exact effect_locate hg rfl ⟨rfl, rfl, rfl, rfl, rfl, rfl, id, .inr (.inr rfl),
        .inl ⟨rfl, rfl⟩⟩ rfl rfl hs₁

theorem onHttpAuthResult_spec {r : Option AuthResult} (hg : AtStage c .authenticating)
    (h : onHttpAuthResult S P s c r = (s', c')) :
    Effect S (some ⟨.auth, r⟩) s c s' c' ∧ ∃ g, AtStage (c'.setFuture .auth none) g := by
  have hid : c.localAuthId = 0 := hg.localAuthId (.inr rfl)
  have hnone : c.futures .acquireDevice = none := hg.futures_eq_none (by simp [Stage.awaits])
  cases r with
  | none =>
    cases h
    exact Same.reply_finish ⟨rfl, rfl, rfl, .inr (.inr rfl)⟩ hg rfl rfl nothing_taken
  | some r =>
    simp only [onHttpAuthResult] at h
    split at h
    · next s₁ hs₁ =>
      obtain ⟨-, rfl⟩ | ⟨f, m, t, y, hx, -⟩ := requestDevice_eq hs₁
      · rw [ClientConnection.setFuture_of_none (by exact hnone)] at h
        cases h
        exact ⟨⟨Frame.post ⟨rfl, rfl, rfl, rfl, rfl, rfl, id, .inr (.inr rfl), .inl ⟨rfl, rfl⟩⟩,
          .grant r hid rfl (Talk.post (P := P) (Talk.refl s₁))⟩, .stopped, hg.finish rfl rfl rfl rfl⟩
      · cases hx
    · next s₁ f hs₁ =>
      cases h
      exact effect_locate hg rfl ⟨rfl, rfl, rfl, rfl, rfl, rfl, id, .inr (.inr rfl),
        .inl ⟨rfl, rfl⟩⟩ rfl rfl hs₁

/-- `OnAuthResult`. -/
theorem onAuthResult_spec :
    ∃ handle, onAuthResult S P = onResult .auth handle ∧
      Handles S .auth handle ∧ Answers .auth handle := by
  refine ⟨_, rfl, fun s c r s' c' g hg hκ h => ?_, fun s c r hudp => ?_⟩
  rotate_left
  · dsimp only
    split <;> exact ⟨_, rfl⟩
  dsimp only at h
  obtain rfl : g = .authenticating := by cases g <;> simp [Stage.awaits] at hκ ⊢
  have hshape := hg.shape
  simp only [Stage.Shape] at hshape
  split at h
  · exact onS5AuthResult_spec hg (Except.ok.inj h)
  · exact onHttpAuthResult_spec hg (Except.ok.inj h)
  · exact onHttpAuthResult_spec hg (Except.ok.inj h)
  all_goals simp_all

theorem device_taken {d : DeviceReference} (κ : FutureKind) (r : κ.Result)
    (h : (some ⟨.acquireDevice, some d⟩ : Option ((κ : FutureKind) × Option κ.Result)) =
      some ⟨κ, some r⟩) : κ = .acquireDevice := by
  cases h; rfl

theorem onS5AcquireDeviceResult_spec {r : Option DeviceReference} (hg : AtStage c .locating)
    (htype : c.type = .s5Challenge) (h : onS5AcquireDeviceResult P s c r = (s', c')) :
    Effect S (some ⟨.acquireDevice, r⟩) s c s' c' ∧
      ∃ g, AtStage (c'.setFuture .acquireDevice none) g := by
  cases r with
  | none =>
    obtain ⟨data, hdata⟩ := sendS5AuthError_eq (P := P) s c
    simp only [onS5AcquireDeviceResult, hdata] at h
    cases h
    exact Same.reply_finish ⟨rfl, rfl, rfl, .inr (.inr rfl)⟩ hg rfl rfl nothing_taken
  | some d =>
    obtain ⟨data, hdata⟩ := sendS5AuthAccepted_eq (P := P) s
      { c with deviceReference := d, dataProcessor := .onS5Target }
    simp only [onS5AcquireDeviceResult, hdata] at h
    cases h
    have hstop := hg.finish (κ := .acquireDevice) rfl rfl rfl rfl
    refine ⟨Same.reply ⟨rfl, rfl, rfl, .inr (.inr rfl)⟩ device_taken, .choosing, ⟨htype, rfl⟩,
      fun ι => (hstop.awaits ι).trans (by simp [Stage.awaits]), by simp,
      fun _ => hstop.relaySideConnectionId (by simp), fun hb => ?_⟩
    have hbind : c.bindUdpChannel = none := hg.bindUdpChannel_eq_none (by simp)
    change c.bindUdpChannel.isSome = true at hb
    simp [hbind] at hb

theorem onHttpAcquireDeviceResult_spec {r : Option DeviceReference} (hg : AtStage c .locating)
    (htype : c.type = .httpRaw ∨ c.type = .httpNormal)
    (h : onHttpAcquireDeviceResult S P s c r = (s', c')) :
    Effect S (some ⟨.acquireDevice, r⟩) s c s' c' ∧
      ∃ g, AtStage (c'.setFuture .acquireDevice none) g := by
  have hnone : c.futures .acquireDeviceConnection = none :=
    hg.futures_eq_none (by simp [Stage.awaits])
  have hrelay : c.relaySideConnectionId = 0 := hg.relaySideConnectionId (by simp)
  have hbind : c.bindUdpChannel = none := hg.bindUdpChannel_eq_none (by simp)
  cases r with
  | none =>
    cases h
    exact Same.reply_finish ⟨rfl, rfl, rfl, .inr (.inr rfl)⟩ hg rfl rfl nothing_taken
  | some d =>
    simp only [onHttpAcquireDeviceResult] at h
    split at h
    · next s₁ hs₁ =>
      obtain ⟨l, hl, ⟨-, rfl⟩ | ⟨f, m, t, y, hx, -⟩⟩ := requestDeviceConnection_eq hs₁
      · rw [ClientConnection.setFuture_of_none (by exact hnone)] at h
        cases h
        exact ⟨⟨Frame.post ⟨rfl, rfl, rfl, rfl, rfl, rfl, id, .inr (.inr rfl), .inl ⟨rfl, rfl⟩⟩,
          .quiet device_taken rfl (Talk.post (P := P) ⟨l, rfl, hl⟩)⟩, .stopped,
          hg.finish rfl rfl rfl rfl⟩
      · cases hx
    · next s₁ f hs₁ =>
      cases h
      obtain ⟨l, hl, ⟨hx, -⟩ | ⟨f', m, t, y, hx, hm, hr, rfl⟩⟩ := requestDeviceConnection_eq hs₁
      · cases hx
      cases hx
      refine ⟨⟨⟨rfl, rfl, rfl, rfl, rfl, rfl, id, .inr (.inr rfl), .inl ⟨rfl, rfl⟩⟩,
        .connect f m _ _ _ t y (.inr ⟨d, rfl⟩) hm hr hnone hrelay rfl ⟨l, rfl, hl⟩⟩, .connecting,
        ?_, hg.isSome_next rfl (by simp) f, by simp, fun _ => hrelay, fun hb => ?_⟩
      · have hshape := hg.shape
        change Stage.connecting.Shape c.type c.dataProcessor
        simp only [Stage.Shape] at hshape ⊢
        rcases htype with htype | htype <;> simp_all
      · change c.bindUdpChannel.isSome = true at hb
        simp [hbind] at hb

/-- `OnAcquireDeviceResult`. -/
theorem onAcquireDeviceResult_spec :
    ∃ handle, onAcquireDeviceResult S P = onResult .acquireDevice handle ∧
      Handles S .acquireDevice handle ∧ Answers .acquireDevice handle := by
  refine ⟨_, rfl, fun s c r s' c' g hg hκ h => ?_, fun s c r hudp => ?_⟩
  rotate_left
  · dsimp only
    split <;> exact ⟨_, rfl⟩
  dsimp only at h
  obtain rfl : g = .locating := by cases g <;> simp [Stage.awaits] at hκ ⊢
  have hshape := hg.shape
  simp only [Stage.Shape] at hshape
  split at h
  · next htype => exact onS5AcquireDeviceResult_spec hg htype (Except.ok.inj h)
  · next htype => exact onHttpAcquireDeviceResult_spec hg (.inl htype) (Except.ok.inj h)
  · next htype => exact onHttpAcquireDeviceResult_spec hg (.inr htype) (Except.ok.inj h)
  all_goals simp_all

/-- `OnAcquireDeviceConnectionResult`. -/
theorem onAcquireDeviceConnectionResult_spec :
    ∃ handle, onAcquireDeviceConnectionResult S P = onResult .acquireDeviceConnection handle ∧
      Handles S .acquireDeviceConnection handle ∧ Answers .acquireDeviceConnection handle := by
  refine ⟨_, rfl, fun s c r s' c' g hg hκ h => ?_, fun s c r hudp => ?_⟩
  rotate_left
  · dsimp only
    split <;> exact ⟨_, rfl⟩
  dsimp only at h
  obtain rfl : g = .connecting := by cases g <;> simp [Stage.awaits] at hκ ⊢
  have hrelay : c.relaySideConnectionId = 0 := hg.relaySideConnectionId (by simp)
  have hshape := hg.shape
  simp only [Stage.Shape] at hshape
  cases r with
  | none =>
    split at h
    iterate 3
      cases h
      exact Same.reply_finish ⟨rfl, rfl, rfl, .inr (.inr rfl)⟩ hg rfl rfl nothing_taken
    all_goals simp_all
  | some e =>
    split at h
    · next htype =>
      cases h
      exact ⟨⟨Frame.post ⟨rfl, rfl, rfl, rfl, rfl, rfl, id, .inr (.inr rfl), .inl ⟨rfl, rfl⟩⟩,
        .establish e _ hrelay rfl rfl⟩, .tunnel, hg.connected rfl rfl (.inl ⟨htype, rfl⟩)⟩
    · next htype =>
      cases h
      exact ⟨⟨Frame.post ⟨rfl, rfl, rfl, rfl, rfl, rfl, id, .inr (.inr rfl), .inl ⟨rfl, rfl⟩⟩,
        .establish e _ hrelay rfl rfl⟩, .tunnel, hg.connected rfl rfl (.inr (.inl ⟨htype, rfl⟩))⟩
    · next htype =>
      cases h
      have hp : c.dataProcessor = .onHttpBody := by simpa [htype] using hshape
      exact ⟨⟨⟨rfl, rfl, rfl, rfl, rfl, rfl, id, .inr (.inr rfl), .inl ⟨rfl, rfl⟩⟩,
        .establishNormal e _ _ hrelay htype rfl rfl⟩, .tunnel,
        hg.connected rfl rfl (.inr (.inr ⟨htype, hp⟩))⟩
    all_goals simp_all

/-- `OnAcquireDeviceUdpChannelResult`. -/
theorem onAcquireDeviceUdpChannelResult_spec :
    ∃ handle, onAcquireDeviceUdpChannelResult P = onResult .acquireDeviceUdpChannel handle ∧
      Handles S .acquireDeviceUdpChannel handle ∧ Answers .acquireDeviceUdpChannel handle := by
  refine ⟨_, rfl, fun s c r s' c' g hg hκ h => ?_, fun s c r hudp => ?_⟩
  rotate_left
  · obtain ⟨u, udpChannel, hu, hx⟩ := hudp rfl
    cases r with
    | none => exact ⟨_, rfl⟩
    | some e => exact ⟨_, by simp only [onUdpChannelResult, hu, hx]; rfl⟩
  obtain rfl : g = .associating := by cases g <;> simp [Stage.awaits] at hκ ⊢
  have hshape : c.type = .s5Udp ∧ c.dataProcessor = .killConnectionOnData := hg.shape
  cases r with
  | none =>
    cases h
    exact Same.reply_finish ⟨rfl, rfl, rfl, .inr (.inr rfl)⟩ hg rfl rfl nothing_taken
  | some e =>
    simp only [onUdpChannelResult] at h
    split at h
    · cases h
    · next u hu =>
      split at h
      · cases h
      · next udpChannel hudp =>
        have hstop := hg.finish (κ := .acquireDeviceUdpChannel) rfl rfl rfl rfl
        have hstage {c₂ : ClientConnection} (h₁ : (c₂.type, c₂.dataProcessor, c₂.futures) =
            (c.type, c.dataProcessor, c.futures))
            (h₂ : c₂.relaySideConnectionId = c.relaySideConnectionId) :
            AtStage (c₂.setFuture .acquireDeviceUdpChannel none) .associated := by
          simp only [Prod.mk.injEq] at h₁
          refine ⟨?_, fun ι => ?_, by simp, fun _ => h₂.trans (hg.relaySideConnectionId (by simp)),
            fun _ => .inr (.inl rfl)⟩
          · change c₂.type = _ ∧ c₂.dataProcessor = _
            rw [h₁.1, h₁.2.1]
            exact hshape
          · simp only [ClientConnection.setFuture, h₁.2.2, hg.take rfl]
            simp [Stage.awaits]
        rw [Except.ok.injEq] at h
        unfold keepAlive at h
        split at h
        · cases h
          exact ⟨⟨Frame.post ⟨rfl, rfl, rfl, rfl, rfl, rfl, id, .inr (.inr rfl), .inl ⟨rfl, rfl⟩⟩,
            .channelReady e u udpChannel hshape.1 hu hudp rfl (Talk.post (P := P) (Talk.refl s))⟩,
            .associated, hstage rfl rfl⟩
        · next hmark =>
          cases h
          have hframe : Frame s c (post P s c .reply []).1 (post P s c .reply []).2 :=
            Frame.post ⟨rfl, rfl, rfl, rfl, rfl, rfl, id, .inr (.inr rfl), .inl ⟨rfl, rfl⟩⟩
          refine ⟨⟨⟨rfl, rfl, rfl, rfl, rfl, rfl, hframe.hasPendingWrites, .inr (.inr rfl),
            .inr ⟨eq_false_of_ne_true hmark, rfl, rfl⟩⟩,
            .channelReady e u udpChannel hshape.1 hu hudp rfl
              (Talk.post (P := P) (Talk.refl s))⟩, .associated, hstage rfl rfl⟩

end ProxyPlatform.ProxyAccessService
