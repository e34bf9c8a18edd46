import ProxyPlatform.Proxy.Body

/-!
# What the services supply

The proxy relies on what is left in its futures: on the device that `AcquireDevice` found for a
client, and on the id of the relay connection that was opened for it. Both are taken up steps
later, and used steps after that: `OnHttpBody` passes data on to the relay as soon as nothing is
kept for the client any more, with the ids of its `DeviceReference` and of its relay connection.

* `Services.Supplies`, `ProxyEvent.Supplies`: what the services answer, at once or later;
* `ClientConnection.Equipped`: what a client has then;
* `step_supplied`: what is in the futures is as supplied, and the clients are equipped, in every
  state that a step leads to;
* `Services.Retains`, `Services.Preserves`, `exec_preserves`: what the services keep of their own
  state, the proxy keeps of it.
-/

namespace ProxyPlatform

/-- The results of a kind are as supplied: a device with `Q`, a relay connection with an id. -/
def FutureKind.Supplied (Q : DeviceReference → Prop) : (κ : FutureKind) → κ.Result → Prop
  | .acquireDevice, result => Q result
  | .acquireDeviceConnection, result => result ≠ 0
  | .auth, _ | .acquireDeviceUdpChannel, _ => True

/-- What the services answer at once is as supplied. -/
structure Services.Supplies {σ : Type*} (S : Services σ) (Q : DeviceReference → Prop) : Prop where
  acquireDevice : ∀ s request f result,
    (S.acquireDevice s request f).2 = .ready (some result) → Q result
  createConnection : ∀ s relayServerId deviceId k target f result,
    (S.createConnection s relayServerId deviceId k target f).2 = .ready (some result) → result ≠ 0

/-- What a service answers later is as supplied. -/
def ProxyEvent.Supplies (Q : DeviceReference → Prop) : ProxyEvent → Prop
  | .setReady κ _ result => ∀ r, result = some r → κ.Supplied Q r
  | _ => True

/-- What data is passed on with. -/
def ClientConnection.handshake (c : ClientConnection) :
    DeviceReference × TcpDataProcessor × HttpData × ℕ :=
  (c.deviceReference, c.dataProcessor, c.http, c.relaySideConnectionId)

/-- The device of a client is as supplied, and its body goes to a relay connection when no more of
    it is kept. -/
structure ClientConnection.Equipped (Q : DeviceReference → Prop) (c : ClientConnection) : Prop where
  deviceReference : Q c.deviceReference
  relaySideConnectionId : c.dataProcessor = .onHttpBody → c.http.content = [] →
    c.relaySideConnectionId ≠ 0

namespace ClientConnection.Equipped

variable {c c' : ClientConnection} {Q : DeviceReference → Prop}

theorem congr (h : c.Equipped Q) (hc : c'.handshake = c.handshake) : c'.Equipped Q := by
  simp only [handshake, Prod.mk.injEq] at hc
  obtain ⟨hdevice, hp, hhttp, hrelay⟩ := hc
  refine ⟨hdevice ▸ h.deviceReference, ?_⟩
  rw [hp, hhttp, hrelay]
  exact h.relaySideConnectionId

/-- A client at another processor. -/
theorem of_ne (h : Q c.deviceReference) (hp : c.dataProcessor ≠ .onHttpBody) : c.Equipped Q :=
  ⟨h, fun heq => absurd heq hp⟩

end ClientConnection.Equipped

namespace ProxyAccessService

variable {σ : Type*} {S : Services σ} {P : Platform} {s t u s' : ProxyAccessService σ}
  {c c' : ClientConnection} {k : ℕ} {data : Bytes} {Q : DeviceReference → Prop}

/-- The futures and the clients have what is supplied. -/
structure Supplied (Q : DeviceReference → Prop) (s : ProxyAccessService σ) : Prop where
  results : ∀ κ, (s.futureManager κ).Results (κ.Supplied Q)
  equipped : ∀ k c, s.clientConnectionPool.get k = some c → c.Equipped Q

theorem supplied_init (services : σ) : Supplied Q (init services) where
  results _ := .empty _ _
  equipped _ _ h := by cases h

/-! ## Clients -/

/-- The body is kept behind what is kept, or passed on. -/
theorem onHttpBody_keeps {n : Option ℕ} (h : onHttpBody S s c data = (s', c', n)) :
    c'.deviceReference = c.deviceReference ∧ c'.dataProcessor = c.dataProcessor ∧
      c'.relaySideConnectionId = c.relaySideConnectionId ∧
      (c'.http.content = [] → c.http.content = []) := by
  rcases onHttpBody_eq S s c data with ⟨-, heq⟩ | ⟨-, -, heq⟩ | ⟨-, -, heq⟩
  · rw [heq] at h
    cases h
    exact ⟨rfl, rfl, rfl, id⟩
  · rw [heq] at h
    cases h
    exact ⟨rfl, rfl, rfl, fun hnil => (List.append_eq_nil_iff.1 hnil).1⟩
  · rw [heq] at h
    cases h
    exact ⟨rfl, rfl, rfl, id⟩

/-- A header that is complete ends with its last line. -/
theorem onHttpNormalHeaderProcessor_content {n : Option ℕ} (hc : c.dataProcessor ≠ .onHttpBody)
    (hc' : c'.dataProcessor = .onHttpBody)
    (h : onHttpNormalHeaderProcessor S P s c data = .ok (s', c', n)) : c'.http.content ≠ [] := by
  simp only [onHttpNormalHeaderProcessor] at h
  repeat' split at h
  all_goals first
    | cases h; exact absurd hc' hc
    | cases h; exact List.append_ne_nil_of_right_ne_nil _ (List.cons_ne_nil _ _)
    | cases h

theorem onS5UdpTarget_deviceReference {addrType : UInt8} {offset : ℕ} {n : Option ℕ}
    (h : onS5UdpTarget S P s c addrType offset = (s', c', n)) :
    c'.deviceReference = c.deviceReference := by
  simp only [onS5UdpTarget] at h
  repeat' split at h
  all_goals
    cases h
    rfl

theorem onS5Target_deviceReference {n : Option ℕ} (h : onS5Target S P s c data = .ok (s', c', n)) :
    c'.deviceReference = c.deviceReference := by
  simp only [onS5Target] at h
  iterate 3
    split at h
    · cases h
      rfl
  split at h
  · cases h
    rfl
  split at h
  · repeat' split at h
    all_goals first
      | cases h; rfl
      | cases h
  split at h
  · exact (onS5UdpTarget_deviceReference (Except.ok.inj h) :)
  · cases h
    rfl

/-- No data processor changes the device of a client. -/
theorem processData_deviceReference {n : Option ℕ} (h : processData S P s c data = .ok (s', c', n)) :
    c'.deviceReference = c.deviceReference := by
  unfold processData at h
  split at h
  · cases h
    rfl
  · simp only [onGuessProxyType, onS5Challenge, onHttpChallenge, onHttpNormalChallenge] at h
    repeat' split at h
    all_goals first
      | cases h; rfl
      | cases h
  · simp only [onS5AuthInfo] at h
    repeat' split at h
    all_goals first
      | cases h; rfl
      | cases h
  · exact onS5Target_deviceReference h
  · rcases onRawData_eq S s c data with ⟨-, heq⟩ | ⟨-, heq⟩
    all_goals
      rw [heq] at h
      cases h
      rfl
  · simp only [onHttpRawHeaderProcessor] at h
    repeat' split at h
    all_goals first
      | cases h; rfl
      | cases h
  · simp only [onHttpNormalHeaderProcessor] at h
    repeat' split at h
    all_goals first
      | cases h; rfl
      | cases h
  · exact (onHttpBody_keeps (Except.ok.inj h)).1

/-- A client that has a device and a body keeps them, and a header that is complete is not empty. -/
theorem processData_equipped {n : Option ℕ} (hc : c.Equipped Q)
    (h : processData S P s c data = .ok (s', c', n)) : c'.Equipped Q := by
  have hdevice : Q c'.deviceReference := processData_deviceReference h ▸ hc.deviceReference
  by_cases hbody : c.dataProcessor = .onHttpBody
  · rw [processData, hbody] at h
    obtain ⟨-, -, hrelay, hcontent⟩ := onHttpBody_keeps (Except.ok.inj h)
    refine ⟨hdevice, fun _ hnil => ?_⟩
    rw [hrelay]
    exact hc.relaySideConnectionId hbody (hcontent hnil)
  by_cases hheader : c.dataProcessor = .onHttpNormalHeaderProcessor
  · rw [processData, hheader] at h
    refine ⟨hdevice, fun hp hnil => absurd hnil ?_⟩
    exact onHttpNormalHeaderProcessor_content (by rw [hheader]; decide) hp h
  by_cases hraw : c.dataProcessor = .onRawData
  · have hp := onRawData_dataProcessor (S := S) s c data
    rw [processData, hraw] at h
    rw [Except.ok.inj h, hraw] at hp
    exact .of_ne hdevice (by rw [show c'.dataProcessor = _ from hp]; decide)
  · exact .of_ne hdevice fun hp => hbody ((processData_prepares ⟨hheader, hraw, hbody⟩ h).body hp)

/-! ## Results -/

/-- What a result that is taken up leaves of its client. -/
structure Equips (Q : DeviceReference → Prop) (s : ProxyAccessService σ) (c : ClientConnection)
    (s' : ProxyAccessService σ) (c' : ClientConnection) : Prop where
  clientConnectionPool : s'.clientConnectionPool = s.clientConnectionPool
  connectionId : c'.connectionId = c.connectionId
  equipped : c.Equipped Q → c'.Equipped Q

namespace Equips

theorem of_handshake (hpool : s'.clientConnectionPool = s.clientConnectionPool)
    (hid : c'.connectionId = c.connectionId) (h : c'.handshake = c.handshake) : Equips Q s c s' c' :=
  ⟨hpool, hid, fun hc => hc.congr h⟩

theorem refl (s : ProxyAccessService σ) (c : ClientConnection) : Equips Q s c s c :=
  of_handshake rfl rfl rfl

theorem post (h : Equips Q s c s' c') (o : Origin) (data : Bytes) :
    Equips Q s c (post P s' c' o data).1 (post P s' c' o data).2 :=
  ⟨h.clientConnectionPool, h.connectionId, fun hc => (h.equipped hc).congr rfl⟩

theorem setFuture (h : Equips Q s c s' c') (κ : FutureKind) (f : Option ℕ) :
    Equips Q s c s' (c'.setFuture κ f) :=
  ⟨h.clientConnectionPool, h.connectionId, fun hc => (h.equipped hc).congr rfl⟩

/-- Keeping the connection alive, or not. -/
theorem keepAlive (h : Equips Q s c s' c') :
    Equips Q s c ((keepAlive s' c').getD (s', c')).1 ((keepAlive s' c').getD (s', c')).2 := by
  unfold ProxyAccessService.keepAlive
  split
  · exact h
  · exact ⟨h.clientConnectionPool, h.connectionId, fun hc => (h.equipped hc).congr rfl⟩

/-- The future is released. -/
theorem release {κ : FutureKind} {m : FuturePoolManager ℕ κ.Result} (h : Equips Q s c s' c') :
    Equips Q s c (s'.setFutureManager κ m) (c'.setFuture κ none) :=
  ⟨h.clientConnectionPool, h.connectionId, fun hc => (h.equipped hc).congr rfl⟩

theorem of_ok {x : ProxyAccessService σ × ClientConnection} (hx : Equips Q s c x.1 x.2)
    (h : (.ok x : Except Fault _) = .ok (s', c')) : Equips Q s c s' c' := by
  cases h
  exact hx

end Equips

theorem onS5AuthResult_equips (r : Option AuthResult) :
    Equips Q s c (onS5AuthResult S P s c r).1 (onS5AuthResult S P s c r).2 := by
  unfold onS5AuthResult
  split
  · obtain ⟨data, hdata⟩ := sendS5AuthError_eq (P := P) s c
    rw [hdata]
    exact (Equips.refl s c).post .reply data
  · dsimp only
    split
    · next s₁ hs₁ =>
      obtain ⟨data, hdata⟩ := sendS5AuthError_eq (P := P) s₁ (ClientConnection.setFuture _ _ none)
      rw [hdata]
      refine Equips.post ?_ .reply data
      exact .of_handshake (requestDevice_pool hs₁).1 rfl rfl
    · next s₁ f hs₁ => exact .of_handshake (requestDevice_pool hs₁).1 rfl rfl

theorem onHttpAuthResult_equips (r : Option AuthResult) :
    Equips Q s c (onHttpAuthResult S P s c r).1 (onHttpAuthResult S P s c r).2 := by
  unfold onHttpAuthResult
  split
  · exact (Equips.refl s c).post .reply _
  · dsimp only
    split
    · next s₁ hs₁ =>
      refine Equips.post ?_ .reply _
      exact .of_handshake (requestDevice_pool hs₁).1 rfl rfl
    · next s₁ f hs₁ => exact .of_handshake (requestDevice_pool hs₁).1 rfl rfl

/-- The device that was found for a client is as supplied. -/
theorem onS5AcquireDeviceResult_equips {r : Option DeviceReference} (hr : ∀ d, r = some d → Q d) :
    Equips Q s c (onS5AcquireDeviceResult P s c r).1 (onS5AcquireDeviceResult P s c r).2 := by
  unfold onS5AcquireDeviceResult
  split
  · obtain ⟨data, hdata⟩ := sendS5AuthError_eq (P := P) s c
    rw [hdata]
    exact (Equips.refl s c).post .reply data
  · next result =>
    obtain ⟨data, hdata⟩ := sendS5AuthAccepted_eq (P := P) s
      { c with deviceReference := result, dataProcessor := .onS5Target }
    rw [hdata]
    refine Equips.post ?_ .reply data
    exact ⟨rfl, rfl, fun _ => .of_ne (hr result rfl) (by simp)⟩

theorem onHttpAcquireDeviceResult_equips {r : Option DeviceReference} (hr : ∀ d, r = some d → Q d) :
    Equips Q s c (onHttpAcquireDeviceResult S P s c r).1 (onHttpAcquireDeviceResult S P s c r).2 := by
  unfold onHttpAcquireDeviceResult
  split
  · exact (Equips.refl s c).post .reply _
  · next result =>
    dsimp only
    have hequips {s₁ : ProxyAccessService σ} {f : Option ℕ}
        (hs₁ : requestDeviceConnection S P s { c with deviceReference := result }
          (.hostname c.http.targetHost c.http.targetPort) = (s₁, f)) :
        Equips Q s c s₁ { c with deviceReference := result } :=
      ⟨(requestDeviceConnection_pool hs₁).1, rfl, fun hc => ⟨hr result rfl, hc.relaySideConnectionId⟩⟩
    split
    · next s₁ hs₁ => exact ((hequips hs₁).setFuture .acquireDeviceConnection none).post .reply _
    · next s₁ f hs₁ => exact (hequips hs₁).setFuture .acquireDeviceConnection (some f)

/-- A tunnel is at another processor. -/
theorem onTunnelResult_equips (result : ℕ) (reply : Bytes) :
    Equips Q s c
      (post P s { c with relaySideConnectionId := result, dataProcessor := .onRawData } .established
        reply).1
      (post P s { c with relaySideConnectionId := result, dataProcessor := .onRawData } .established
        reply).2 := by
  refine Equips.post ?_ .established reply
  exact ⟨rfl, rfl, fun hc => .of_ne hc.deviceReference (by simp)⟩

/-- The relay connection that was opened for a client has an id. -/
theorem onHttpNormalAcquireDeviceConnectionResult_equips {r : Option ℕ}
    (hr : ∀ result, r = some result → result ≠ 0) :
    Equips Q s c (onHttpNormalAcquireDeviceConnectionResult S P s c r).1
      (onHttpNormalAcquireDeviceConnectionResult S P s c r).2 := by
  unfold onHttpNormalAcquireDeviceConnectionResult
  split
  · exact (Equips.refl s c).post .reply _
  · next result => exact ⟨rfl, rfl, fun hc => ⟨hc.deviceReference, fun _ _ => hr result rfl⟩⟩

theorem onUdpChannelResult_equips {r : Option ℕ} (h : onUdpChannelResult P s c r = .ok (s', c')) :
    Equips Q s c s' c' := by
  unfold onUdpChannelResult at h
  split at h
  · exact .of_ok ((Equips.refl s c).post .reply _) h
  split at h
  · cases h
  split at h
  · cases h
  next udpChannel hu =>
  refine Equips.of_ok ?_ h
  unfold keepAlive
  split
  · exact .of_handshake rfl rfl rfl
  · exact .of_handshake rfl rfl rfl

/-- A result that is taken up leaves its client equipped. -/
theorem onReady_equips {κ : FutureKind} {f : ℕ}
    (hresults : (s.futureManager κ).Results (κ.Supplied Q)) (h : onReady S P κ s f = .ok t) :
    ∃ k c s' c', s.clientConnectionPool.get k = some c ∧ Equips Q s c s' c' ∧ t = s'.store c' := by
  cases κ with
  | auth =>
    unfold onReady onAuthResult at h
    obtain ⟨future, c, s', c', g, -, hc, hp, -, rfl⟩ := onResult_eq_ok h
    have hequips : Equips Q s c s' c' := by
      split at hp
      · exact (onS5AuthResult_equips _).of_ok hp
      · exact (onHttpAuthResult_equips _).of_ok hp
      · exact (onHttpAuthResult_equips _).of_ok hp
      all_goals exact Equips.of_ok (.refl s c) hp
    exact ⟨_, c, _, _, hc, hequips.release, rfl⟩
  | acquireDevice =>
    unfold onReady onAcquireDeviceResult at h
    obtain ⟨future, c, s', c', g, hf, hc, hp, -, rfl⟩ := onResult_eq_ok h
    have hr : ∀ d, future.result = some d → Q d := hresults f future hf
    have hequips : Equips Q s c s' c' := by
      split at hp
      · exact (onS5AcquireDeviceResult_equips hr).of_ok hp
      · exact (onHttpAcquireDeviceResult_equips hr).of_ok hp
      · exact (onHttpAcquireDeviceResult_equips hr).of_ok hp
      all_goals exact Equips.of_ok (.refl s c) hp
    exact ⟨_, c, _, _, hc, hequips.release, rfl⟩
  | acquireDeviceConnection =>
    unfold onReady onAcquireDeviceConnectionResult at h
    obtain ⟨future, c, s', c', g, hf, hc, hp, -, rfl⟩ := onResult_eq_ok h
    have hr : ∀ result, future.result = some result → result ≠ 0 := hresults f future hf
    have hequips : Equips Q s c s' c' := by
      split at hp
      · unfold onS5AcquireDeviceConnectionResult at hp
        split at hp
        · exact Equips.of_ok ((Equips.refl s c).post .reply _) hp
        · exact (onTunnelResult_equips _ _).of_ok hp
      · unfold onHttpRawAcquireDeviceConnectionResult at hp
        split at hp
        · exact Equips.of_ok ((Equips.refl s c).post .reply _) hp
        · exact (onTunnelResult_equips _ _).of_ok hp
      · exact (onHttpNormalAcquireDeviceConnectionResult_equips hr).of_ok hp
      all_goals exact Equips.of_ok (.refl s c) hp
    exact ⟨_, c, _, _, hc, hequips.release, rfl⟩
  | acquireDeviceUdpChannel =>
    unfold onReady onAcquireDeviceUdpChannelResult at h
    obtain ⟨future, c, s', c', g, -, hc, hp, -, rfl⟩ := onResult_eq_ok h
    exact ⟨_, c, _, _, hc, (onUdpChannelResult_equips hp).release, rfl⟩

/-! ## Futures -/

variable {x : Core σ} {taken : Option ((κ : FutureKind) × Option κ.Result)} {l : TurnLabel}

/-- The results of one kind change. -/
theorem results_update {κ : FutureKind} {m : FuturePoolManager ℕ κ.Result}
    (hs : ∀ κ, (s.futureManager κ).Results (κ.Supplied Q)) (hm : m.Results (κ.Supplied Q))
    (ι : FutureKind) : (Function.update s.futureManager κ m ι).Results (ι.Supplied Q) := by
  by_cases hι : ι = κ
  · subst hι
    rwa [Function.update_self]
  · rw [Function.update_of_ne hι]
    exact hs ι

/-- A future is acquired, and completed at once or not. -/
theorem results_request {κ : FutureKind} {f : ℕ} {m : FuturePoolManager ℕ κ.Result}
    {y : Completion κ.Result} (hs : ∀ κ, (s.futureManager κ).Results (κ.Supplied Q))
    (hacquire : (s.futureManager κ).acquireFuture k = some (f, m))
    (hy : ∀ r, y = .ready (some r) → κ.Supplied Q r) (ι : FutureKind) :
    (Function.update s.futureManager κ (m.complete f y) ι).Results (ι.Supplied Q) :=
  results_update hs (((hs κ).acquire hacquire).complete hy) ι

/-- An act leaves results as supplied. -/
theorem Act.results (hS : S.Supplies Q) (h : Act S s c s' x taken)
    (hs : ∀ κ, (s.futureManager κ).Results (κ.Supplied Q)) (κ : FutureKind) :
    (x.futureManager κ).Results (κ.Supplied Q) := by
  cases h with
  | quiet _ hcore | grant _ _ hcore | unbound _ _ _ _ hcore | bind _ _ _ _ _ _ _ hcore
  | establish _ _ _ hcore | establishNormal _ _ _ _ _ hcore | channelReady _ _ _ _ _ _ hcore
  | forward _ _ hcore =>
    rw [hcore]
    exact hs κ
  | authenticate f m key t r hacquire hauth hfuture hid hcore =>
    rw [hcore]
    exact results_request hs hacquire (y := .ready r) (fun _ _ => trivial) κ
  | locate r f m request t y hacquire hdevice hfuture hid hcore =>
    rw [hcore]
    refine results_request hs hacquire (fun d hd => hS.acquireDevice s.services request f d ?_) κ
    rw [hdevice, hd]
  | connect f m a b target t y htaken hacquire hcreate hfuture hrelay hcore =>
    rw [hcore]
    refine results_request hs hacquire
      (fun r hr => hS.createConnection s.services a b c.connectionId target f r ?_) κ
    rw [hcreate, hr]
  | associate u p udpChannel f m a b t y hudp hparent hid hbind hacquire hcreate hfuture hcore =>
    rw [hcore]
    exact results_request hs hacquire (fun _ _ => trivial) κ

/-- A turn in which no service answers later. -/
theorem Turn.results (hS : S.Supplies Q) (h : Turn S s l t) (hl : l ≠ .ready)
    (hs : ∀ κ, (s.futureManager κ).Results (κ.Supplied Q)) (κ : FutureKind) :
    (t.futureManager κ).Results (κ.Supplied Q) := by
  cases h with
  | clock | accept | refuse | forwardUdp | expire => exact hs κ
  | call k c s' c' hc heffect => exact heffect.act.results hS hs κ
  | result ι f m future c s' c' hpop hf hc hcf heffect =>
    have hs' := heffect.act.results hS (s := s.setFutureManager ι m)
      (results_update hs ((hs ι).popHead hpop))
    exact results_update hs' (hs' ι).release κ
  | touch k c s' c' l hc hframe hcore =>
    change (s'.futureManager κ).Results _
    rw [show s'.futureManager = s.futureManager from congrArg Core.futureManager hcore]
    exact hs κ
  | peerClose k c s' c' hc hmark h =>
    obtain ⟨u, l, heq, -⟩ := onPeerClose_eq_ok hmark h
    cases heq
    exact hs κ
  | flush k c hc =>
    rcases onFlush_eq s c with ⟨-, heq⟩ | ⟨-, heq⟩
    all_goals
      rw [heq]
      exact hs κ
  | close k c hc =>
    rcases closeConnection_eq s c with ⟨-, heq⟩ | ⟨-, -, heq⟩ | ⟨-, -, heq⟩
    all_goals
      rw [heq]
      exact hs κ
  | ready => exact absurd rfl hl
  | destroy k lists c t hpop hc hready h =>
    rw [(destroyConnection_eq_ok h).2.1]
    simp only [releaseFutures]
    split
    · exact hs κ
    · exact (hs κ).release

/-- An act leaves the ready futures in the list. -/
theorem Act.queued {κ : FutureKind} (h : Act S s c s' x taken) (hs : (s.futureManager κ).Queued) :
    (x.futureManager κ).Queued := by
  rcases h.futures κ with ⟨hm, -⟩ | ⟨f, m, y, hacquire, -, -, hm, -⟩
  · rwa [hm]
  · rw [hm]
    exact (hs.acquire hacquire).complete

/-- A turn leaves the ready futures in the list. -/
theorem Turn.queued (h : Turn S s l t) (hs : ∀ κ, (s.futureManager κ).Queued) (κ : FutureKind) :
    (t.futureManager κ).Queued := by
  cases h with
  | clock | accept | refuse | forwardUdp | expire => exact hs κ
  | call k c s' c' hc heffect => exact heffect.act.queued (hs κ)
  | result ι f m future c s' c' hpop hf hc hcf heffect =>
    by_cases hκ : κ = ι
    · subst hκ
      have hm : s'.futureManager κ = m := by
        rcases heffect.act.futures κ with ⟨hm, -⟩ | ⟨_, _, _, _, _, _, _, _, h | ⟨rfl, _, h⟩ | ⟨rfl, _, h⟩⟩
        · exact Eq.trans hm (Function.update_self _ _ _)
        · cases h
        · cases h
        · cases h
      change (Function.update s'.futureManager κ _ κ).Queued
      rw [Function.update_self, hm]
      exact (hs κ).popHead hpop
    · change (Function.update s'.futureManager ι _ κ).Queued
      rw [Function.update_of_ne hκ]
      refine heffect.act.queued ?_
      change (Function.update s.futureManager ι m κ).Queued
      rw [Function.update_of_ne hκ]
      exact hs κ
  | touch k c s' c' l hc hframe hcore =>
    change (s'.futureManager κ).Queued
    rw [show s'.futureManager = s.futureManager from congrArg Core.futureManager hcore]
    exact hs κ
  | peerClose k c s' c' hc hmark h =>
    obtain ⟨u, l, heq, -⟩ := onPeerClose_eq_ok hmark h
    cases heq
    exact hs κ
  | flush k c hc =>
    rcases onFlush_eq s c with ⟨-, heq⟩ | ⟨-, heq⟩
    all_goals
      rw [heq]
      exact hs κ
  | close k c hc =>
    rcases closeConnection_eq s c with ⟨-, heq⟩ | ⟨-, -, heq⟩ | ⟨-, -, heq⟩
    all_goals
      rw [heq]
      exact hs κ
  | ready ι f r =>
    unfold setReady
    split
    · exact hs κ
    split
    · exact hs κ
    · by_cases hκ : κ = ι
      · subst hκ
        change (Function.update s.futureManager κ _ κ).Queued
        rw [Function.update_self]
        exact (hs κ).setReady r
      · change (Function.update s.futureManager ι _ κ).Queued
        rw [Function.update_of_ne hκ]
        exact hs κ
  | destroy k lists c t hpop hc hready h =>
    rw [(destroyConnection_eq_ok h).2.1]
    simp only [releaseFutures]
    split
    · exact hs κ
    · exact (hs κ).release

/-! ## Steps -/

/-- The client that something is done for is equipped still, and the others are. -/
theorem Equips.store (h : Equips Q s c s' c') (hs : Sound s)
    (hc : s.clientConnectionPool.get k = some c)
    (hequipped : ∀ k c, s.clientConnectionPool.get k = some c → c.Equipped Q) :
    ∀ j d, (s'.store c').clientConnectionPool.get j = some d → d.Equipped Q := by
  intro j d hd
  have hid : c'.connectionId = k := h.connectionId.trans (hs.connectionId k c hc)
  rw [get_store_of_pool h.clientConnectionPool hc hid] at hd
  split at hd
  · cases hd
    exact h.equipped (hequipped k c hc)
  · exact hequipped j d hd

/-- Turns in which no client changes. -/
theorem Turn.supplied (hS : S.Supplies Q) (h : Turn S s l t) (hl : l.IsPass ∨ l.IsDestroy)
    (hs : Supplied Q s) : Supplied Q t := by
  refine ⟨h.results hS ?_ hs.results, fun k c hc => hs.equipped k c ?_⟩
  · rintro rfl
    rcases hl with (hl | ⟨_, hl⟩) | ⟨_, hl⟩ <;> cases hl
  · cases h with
    | clock | expire => exact hc
    | destroy i lists d t hpop hd hready h =>
      rw [(destroyConnection_eq_ok h).1, Storage.get_release] at hc
      split at hc
      · cases hc
      · exact hc
    | _ => rcases hl with (hl | ⟨_, hl⟩) | ⟨_, hl⟩ <;> cases hl

theorem processReadyFutures_supplied {κ : FutureKind} {n : ℕ} (hS : S.Supplies Q) (hs : Sound s)
    (hsupplied : Supplied Q s) (h : processReadyFutures κ (onReady S P κ) n s = .ok t) :
    Sound t ∧ Supplied Q t := by
  induction n generalizing s with
  | zero =>
    obtain ⟨-, rfl⟩ | ⟨_, _, _, _, hn, -⟩ := processReadyFutures_eq_ok h
    · exact ⟨hs, hsupplied⟩
    · cases hn
  | succ n ih =>
    obtain ⟨-, rfl⟩ | ⟨f, m, i, u, hn, hpop, hu, h⟩ := processReadyFutures_eq_ok h
    · exact ⟨hs, hsupplied⟩
    cases hn
    obtain ⟨handle, heq, hhandles, -⟩ := onReady_spec (S := S) (P := P) κ
    have hturn := (onResult_turn hs hpop hhandles (heq ▸ hu)).1
    have hpopped := results_update hsupplied.results ((hsupplied.results κ).popHead hpop)
    obtain ⟨k, c, s', c', hc, hequips, rfl⟩ := onReady_equips (hpopped κ) hu
    have hequips' : Equips Q s c s' c' :=
      ⟨hequips.clientConnectionPool, hequips.connectionId, hequips.equipped⟩
    refine ih (hturn.sound hs) ⟨hturn.results hS (by simp) hsupplied.results, ?_⟩ h
    exact hequips'.store hs hc hsupplied.equipped

theorem processResults_supplied (hS : S.Supplies Q) (hs : Sound s) (hsupplied : Supplied Q s)
    (h : processResults S P s = .ok t) : Supplied Q t := by
  obtain ⟨s₁, h₁, h⟩ := bind_eq_ok.1 h
  obtain ⟨s₂, h₂, h⟩ := bind_eq_ok.1 h
  obtain ⟨s₃, h₃, h₄⟩ := bind_eq_ok.1 h
  have hloop {κ : FutureKind} {s t : ProxyAccessService σ} (hs : Sound s) (hsupplied : Supplied Q s)
      (h : processReady κ (onReady S P κ) s = .ok t) : Sound t ∧ Supplied Q t :=
    processReadyFutures_supplied hS hs hsupplied h
  obtain ⟨hs₁, hr₁⟩ := hloop hs hsupplied h₁
  obtain ⟨hs₂, hr₂⟩ := hloop hs₁ hr₁ h₂
  obtain ⟨hs₃, hr₃⟩ := hloop hs₂ hr₂ h₃
  exact (hloop hs₃ hr₃ h₄).2

theorem tick_supplied {nowMS : ℕ} (hS : S.Supplies Q) (hs : Sound s) (hsupplied : Supplied Q s)
    (h : tick S P s nowMS = .ok t) : Supplied Q t := by
  unfold tick at h
  obtain ⟨s₁, h₁, h₂⟩ := bind_eq_ok.1 h
  have hclock : Turn S s .clock { s with localTicker := nowMS } := .clock nowMS s.audit
  have hs₀ := hclock.sound hs
  have hresults := processResults_supplied hS hs₀ (hclock.supplied hS (.inl (.inl rfl)) hsupplied) h₁
  have hs₁ := (processResults_turns hs₀ h₁).1.sound hs₀
  have hpass := deferKillTimeouts_turns (S := S) s₁
  have hs₂ := hpass.sound hs₁
  have hkill := (executeKillConnections_turns _ hs₂ (processResults_turns hs₀ h₁).2 h₂).1
  refine hkill.invariant (fun _ _ _ hl _ hi ht => ht.supplied hS (.inr hl) hi) hs₂ ?_
  exact hpass.invariant (fun _ _ _ hl _ hi ht => ht.supplied hS (.inl hl) hi) hs₁ hresults

/-- A client that has just connected has no body yet. -/
theorem onNewConnection_equipped (hQ : Q {}) (remoteAddress localAddress : NetAddress) (initOk : Bool)
    (hequipped : ∀ k c, s.clientConnectionPool.get k = some c → c.Equipped Q) :
    ∀ k c, (s.onNewConnection remoteAddress localAddress initOk).clientConnectionPool.get k = some c →
      c.Equipped Q := by
  unfold onNewConnection
  dsimp only
  split
  · exact hequipped
  · next k p hp =>
    intro j d hd
    split at hd
    · change p.get j = some d at hd
      rw [Storage.get_acquire hp] at hd
      split at hd
      · cases hd
        exact .of_ne hQ (by simp)
      · exact hequipped j d hd
    · change (p.release k).get j = some d at hd
      rw [Storage.get_release] at hd
      split at hd
      · cases hd
      · next hj =>
        rw [Storage.get_acquire hp, if_neg hj] at hd
        exact hequipped j d hd

/-- A datagram of a client at most keeps its connection alive. -/
theorem onUdpData_equipped {x : ClientUdpChannel} {i : ℕ} {a : NetAddress} (hs : Sound s)
    (hequipped : ∀ k c, s.clientConnectionPool.get k = some c → c.Equipped Q)
    (h : onUdpData S s i x data a = .ok t) :
    ∀ k c, t.clientConnectionPool.get k = some c → c.Equipped Q := by
  obtain rfl | ⟨c, s₁, c₁, u, hc, -, rfl, rfl, rfl, ht⟩ := onUdpData_eq_ok h
  · exact hequipped
  have hequips : Equips Q s c
      { s with clientUdpChannelPool :=
        s.clientUdpChannelPool.set i { x with lastClientIpAddress := a } }
      { c with totalUdpBytesFromClient := c.totalUdpBytesFromClient + data.length.toUInt64 } :=
    .of_handshake rfl rfl rfl
  have hstored := hequips.keepAlive.store hs hc hequipped
  rcases ht with rfl | ⟨server, k, j, targetAddress, payload, rfl⟩
  · exact hstored
  · exact hstored

/-- So does a datagram for the client. -/
theorem postUdpData_equipped {x : ClientUdpChannel} {a : NetAddress} (hs : Sound s)
    (hequipped : ∀ k c, s.clientConnectionPool.get k = some c → c.Equipped Q)
    (h : postUdpData s x a data = .ok t) :
    ∀ k c, t.clientConnectionPool.get k = some c → c.Equipped Q := by
  obtain rfl | ⟨c, hc, -, rfl | ⟨buffer, rfl⟩⟩ := postUdpData_eq_ok h
  · exact hequipped
  all_goals
    refine Equips.store (s := s) ?_ hs hc hequipped
    exact .of_handshake rfl rfl rfl

/-- A step leaves the clients equipped, whatever is presented. -/
theorem step_equipped {e : ProxyEvent} (hQ : Q {}) (hs : Sound s)
    (hequipped : ∀ k c, s.clientConnectionPool.get k = some c → c.Equipped Q)
    (he : ∀ nowMS, e ≠ .tick nowMS) (h : step S P s e = .ok t) :
    ∀ k c, t.clientConnectionPool.get k = some c → c.Equipped Q := by
  have hconn {k : ℕ} {run : ClientConnection →
      Except Fault (ProxyAccessService σ × ClientConnection)}
      (hrun : ∀ c p, run c = .ok p → Equips Q s c p.1 p.2) (h : s.onConnection k run = .ok t) :
      ∀ k c, t.clientConnectionPool.get k = some c → c.Equipped Q := by
    obtain ⟨-, rfl⟩ | ⟨c, s', c', hc, hr, rfl⟩ := onConnection_eq_ok h
    · exact hequipped
    · exact (hrun c (s', c') hr).store hs hc hequipped
  have hudp {i : ℕ} {run : ClientUdpChannel → Except Fault (ProxyAccessService σ)}
      (hrun : ∀ x, run x = .ok t → ∀ k c, t.clientConnectionPool.get k = some c → c.Equipped Q)
      (h : s.onUdpChannel i run = .ok t) :
      ∀ k c, t.clientConnectionPool.get k = some c → c.Equipped Q := by
    obtain ⟨-, rfl⟩ | ⟨x, -, hr⟩ := onUdpChannel_eq_ok h
    · exact hequipped
    · exact hrun x hr
  cases e with
  | onNewConnection remoteAddress localAddress initOk =>
    cases h
    exact onNewConnection_equipped hQ remoteAddress localAddress initOk hequipped
  | onPeerClose k =>
    refine hconn (fun c p hp => ?_) h
    by_cases hmark : c.deleteMark = true
    · simp only [onPeerClose, hmark, if_true] at hp
      cases hp
      exact .refl s c
    · obtain ⟨s', c'⟩ := p
      obtain ⟨u, l, heq, -⟩ := onPeerClose_eq_ok (eq_false_of_ne_true hmark) hp
      cases heq
      exact .of_handshake rfl rfl rfl
  | onFlush k =>
    refine hconn (fun c p hp => ?_) h
    cases hp
    rcases onFlush_eq s c with ⟨-, heq⟩ | ⟨-, heq⟩
    all_goals
      rw [heq]
      exact .of_handshake rfl rfl rfl
  | onData k data =>
    obtain ⟨-, rfl⟩ | ⟨c, s', c', n, hc, hd, rfl⟩ := step_onData_eq_ok h
    · exact hequipped
    obtain ⟨g, hg⟩ := hs.stage k c hc
    have hframe := (onData_spec hg hd).1
    refine Equips.store ⟨hframe.clientConnectionPool, hframe.connectionId, fun hc => ?_⟩ hs hc hequipped
    obtain ⟨c₂, total, hp, rfl⟩ := onData_eq_ok hd
    exact (processData_equipped hc hp).congr rfl
  | onUdpData i data a => exact hudp (fun x h => onUdpData_equipped hs hequipped h) h
  | postData k data =>
    refine hconn (fun c p hp => ?_) h
    cases hp
    unfold postData
    split
    · exact .refl s c
    · next s₁ c₁ hk =>
      obtain ⟨-, rfl, rfl⟩ := keepAlive_eq_some hk
      exact .of_handshake rfl rfl rfl
  | postUdpData i a data => exact hudp (fun x h => postUdpData_equipped hs hequipped h) h
  | closeConnection k =>
    refine hconn (fun c p hp => ?_) h
    cases hp
    rcases closeConnection_eq s c with ⟨-, heq⟩ | ⟨-, -, heq⟩ | ⟨-, -, heq⟩
    all_goals
      rw [heq]
      exact .of_handshake rfl rfl rfl
  | setReady κ f r =>
    cases h
    unfold setReady
    split
    · exact hequipped
    · split <;> exact hequipped
  | tick nowMS => exact absurd rfl (he nowMS)

/-- What is supplied stays so in a step. -/
theorem step_supplied {e : ProxyEvent} (hS : S.Supplies Q) (hQ : Q {}) (hs : Sound s)
    (he : e.Supplies Q) (hsupplied : Supplied Q s) (h : step S P s e = .ok t) : Supplied Q t := by
  have hturns (htick : ∀ nowMS, e ≠ .tick nowMS) (hl : ∀ l, e.Allows l → l ≠ .ready) :
      Supplied Q t := by
    refine ⟨?_, step_equipped hQ hs hsupplied.equipped htick h⟩
    exact (step_turns hs h).invariant (I := fun t => ∀ κ, (t.futureManager κ).Results (κ.Supplied Q))
      (fun _ l _ hallow _ hi ht => ht.results hS (hl l hallow) hi) hs hsupplied.results
  cases e with
  | tick nowMS => exact tick_supplied hS hs hsupplied h
  | setReady κ f r =>
    refine ⟨?_, step_equipped hQ hs hsupplied.equipped (by simp) h⟩
    cases h
    unfold setReady
    split
    · exact hsupplied.results
    · split
      · exact hsupplied.results
      · exact results_update hsupplied.results ((hsupplied.results κ).setReady he)
  | onPeerClose k => exact hturns (by simp) (by rintro l (rfl | rfl) <;> simp)
  | onUdpData u data a => exact hturns (by simp) (by rintro l (rfl | ⟨k, rfl⟩) <;> simp)
  | postUdpData u a data => exact hturns (by simp) (by rintro l ⟨k, rfl⟩; simp)
  | onNewConnection | onFlush | onData | postData | closeConnection =>
    exact hturns (by simp) (by rintro l rfl; simp)

/-- What is supplied stays so in a run. -/
theorem exec_supplied {es : List ProxyEvent} (hS : S.Supplies Q) (hQ : Q {}) (hs : Sound s)
    (hes : ∀ e ∈ es, e.Supplies Q) (hsupplied : Supplied Q s)
    (h : exec (step S P) s es = .ok t) : Sound t ∧ Supplied Q t := by
  induction es generalizing s with
  | nil =>
    cases h
    exact ⟨hs, hsupplied⟩
  | cons e es ih =>
    obtain ⟨u, hu, h⟩ := exec_cons_eq_ok.1 h
    obtain ⟨he, hes⟩ := List.forall_mem_cons.1 hes
    exact ih (step_sound s e u hs hu) hes (step_supplied hS hQ hs he hsupplied hu) h

end ProxyAccessService

/-! ## The state of the services -/

/-- What the services keep of their state when they are called, but to destroy what they hold. -/
structure Services.Retains {σ : Type*} (S : Services σ) (I : σ → Prop) : Prop where
  acquireAuthInfo : ∀ s accountPassView t result,
    S.acquireAuthInfo s accountPassView = .ok (t, result) → I s → I t
  releaseAuthInfo : ∀ s localAuthId usage t,
    S.releaseAuthInfo s localAuthId usage = .ok t → I s → I t
  acquireDevice : ∀ s request f, I s → I (S.acquireDevice s request f).1
  createConnection : ∀ s relayServerId deviceId k target f, I s →
    I (S.createConnection s relayServerId deviceId k target f).1
  createUdpChannel : ∀ s relayServerId deviceId u f, I s →
    I (S.createUdpChannel s relayServerId deviceId u f).1
  postData : ∀ s relayServerId k data, I s → I (S.postData s relayServerId k data)
  postUdpData : ∀ s relayServerId u a data, I s → I (S.postUdpData s relayServerId u a data)

/-- What the services keep of their state when they are called. -/
structure Services.Preserves {σ : Type*} (S : Services σ) (I : σ → Prop) : Prop
    extends S.Retains I where
  destroyConnection : ∀ s relayServerId k, I s → I (S.destroyConnection s relayServerId k)
  destroyUdpChannel : ∀ s relayServerId u, I s → I (S.destroyUdpChannel s relayServerId u)

namespace ProxyAccessService

variable {σ : Type*} {S : Services σ} {P : Platform} {s t s' : ProxyAccessService σ}
  {c : ClientConnection} {x : Core σ} {taken : Option ((κ : FutureKind) × Option κ.Result)}
  {l : TurnLabel} {I : σ → Prop}

theorem Act.retains (hI : S.Retains I) (h : Act S s c s' x taken) (hs : I s.services) :
    I x.services := by
  cases h with
  | quiet _ hcore | grant _ _ hcore | unbound _ _ _ _ hcore | bind _ _ _ _ _ _ _ hcore
  | establish _ _ _ hcore | channelReady _ _ _ _ _ _ hcore =>
    rw [hcore]
    exact hs
  | authenticate f m key t r hacquire hauth hfuture hid hcore =>
    rw [hcore]
    exact hI.acquireAuthInfo _ _ _ _ hauth hs
  | locate r f m request t y hacquire hdevice hfuture hid hcore =>
    rw [hcore]
    have ht := hI.acquireDevice s.services request f hs
    rwa [hdevice] at ht
  | connect f m a b target t y htaken hacquire hcreate hfuture hrelay hcore =>
    rw [hcore]
    have ht := hI.createConnection s.services a b c.connectionId target f hs
    rwa [hcreate] at ht
  | associate u p udpChannel f m a b t y hudp hparent hid hbind hacquire hcreate hfuture hcore =>
    rw [hcore]
    have ht := hI.createUdpChannel s.services a b u f hs
    rwa [hcreate] at ht
  | establishNormal r a data hrelay htype hcore =>
    rw [hcore]
    exact hI.postData _ _ _ _ hs
  | forward a data hcore =>
    rw [hcore]
    exact hI.postData _ _ _ _ hs

/-- What the services keep of their state, the turns keep of it that destroy nothing of theirs. -/
theorem Turn.retains (hI : S.Retains I) (h : Turn S s l t) (hl : ∀ k, l ≠ .peerClose k) (hs : I s.services) :
    I t.services := by
  cases h with
  | clock | accept | refuse | expire => exact hs
  | call k c s' c' hc heffect => exact heffect.act.retains hI hs
  | result κ f m future c s' c' hpop hf hc hcf heffect => exact heffect.act.retains hI hs
  | touch k c s' c' l hc hframe hcore =>
    change I s'.services
    rwa [show s'.services = s.services from congrArg Core.services hcore]
  | forwardUdp => exact hI.postUdpData _ _ _ _ _ hs
  | peerClose k => exact absurd rfl (hl k)
  | flush k c hc =>
    rcases onFlush_eq s c with ⟨-, heq⟩ | ⟨-, heq⟩
    all_goals
      rw [heq]
      exact hs
  | close k c hc =>
    rcases closeConnection_eq s c with ⟨-, heq⟩ | ⟨-, -, heq⟩ | ⟨-, -, heq⟩
    all_goals
      rw [heq]
      exact hs
  | ready κ f r =>
    unfold setReady
    split
    · exact hs
    · split <;> exact hs
  | destroy k lists c t hpop hc hready h =>
    obtain ⟨-, -, -, -, -, -, ⟨-, heq, -⟩ | ⟨-, heq, -⟩⟩ := destroyConnection_eq_ok h
    · rwa [heq]
    · exact hI.releaseAuthInfo _ _ _ _ heq hs

/-- What the services keep of their state, every turn keeps of it. -/
theorem Turn.preserves (hI : S.Preserves I) (h : Turn S s l t) (hs : I s.services) :
    I t.services := by
  by_cases hl : ∃ k, l = .peerClose k
  · obtain ⟨k, rfl⟩ := hl
    cases h with
    | peerClose k c s' c' hc hmark h =>
      obtain ⟨u, l, heq, hu⟩ := onPeerClose_eq_ok hmark h
      cases heq
      rcases hu with ⟨-, rfl, -⟩ | ⟨-, i, x, -, -, -, rfl, -⟩ | ⟨-, -, rfl, -⟩
      · exact hI.destroyConnection _ _ _ hs
      · exact hI.destroyUdpChannel _ _ _ hs
      · exact hs
  · exact h.retains hI.toRetains (not_exists.1 hl) hs

/-- What the services keep of their state, a run of the proxy keeps of it. -/
theorem exec_preserves {es : List ProxyEvent} (hI : S.Preserves I) (hs : Sound s)
    (h : exec (step S P) s es = .ok t) (hi : I s.services) : I t.services :=
  (exec_turns hs h).invariant (I := fun s => I s.services) (fun _ _ _ _ _ hi ht => ht.preserves hI hi)
    hs hi

end ProxyAccessService

end ProxyPlatform
