import ProxyPlatform.Proxy.Effect

/-!
# What the handshake leaves alone

The data processors before the authentication, and the handlers of the results but the
last, move no connection in the timeout lists, bind no UDP channel and touch no future but
their own; what a connection gets from the relay it only gets once it was granted
something (`Settled`).
-/

namespace ProxyPlatform.ProxyAccessService

variable {σ : Type*} {S : Services σ} {P : Platform}
  {s s' t : ProxyAccessService σ} {c c' c₁ : ClientConnection}

/-- What a call leaves as it is that does not serve the connection yet. -/
structure Settled (s : ProxyAccessService σ) (c : ClientConnection) (s' : ProxyAccessService σ)
    (c' : ClientConnection) : Prop where
  clientUdpChannelPool : s'.clientUdpChannelPool = s.clientUdpChannelPool
  timeoutLists : s'.timeoutLists = s.timeoutLists
  connection : (c'.timestampMS, c'.localAuthId, c'.relaySideConnectionId, c'.bindUdpChannel) =
    (c.timestampMS, c.localAuthId, c.relaySideConnectionId, c.bindUdpChannel)
  futures : ∀ κ, κ ≠ .auth → c'.futures κ = c.futures κ
  processor : c'.dataProcessor = c.dataProcessor ∨
    c'.dataProcessor ≠ .onS5Target ∧ c'.dataProcessor ≠ .onRawData

theorem Settled.refl (s : ProxyAccessService σ) (c : ClientConnection) : Settled s c s c :=
  ⟨rfl, rfl, rfl, fun _ _ => rfl, .inl rfl⟩

/-- A reply to the client is settled. -/
theorem Settled.post {o : Origin} {data : Bytes} (h : Settled s c t c₁) :
    Settled s c (post P t c₁ o data).1 (post P t c₁ o data).2 :=
  ⟨h.clientUdpChannelPool, h.timeoutLists, h.connection, h.futures, h.processor⟩

/-- A connection that gets its auth future is settled. -/
theorem Settled.setAuth (h : Settled s c t c₁) (f : Option ℕ) :
    Settled s c t (c₁.setFuture .auth f) :=
  ⟨h.clientUdpChannelPool, h.timeoutLists, h.connection,
    fun κ hκ => by simp [ClientConnection.setFuture, hκ, h.futures κ hκ], h.processor⟩

/-- So is a service that was asked for authentication, with a connection that is. -/
theorem Settled.requestAuthentication {authView : Bytes} {f : Option ℕ}
    (h : Settled s c s c') (ht : requestAuthentication S s c₁ authView = .ok (t, f)) :
    Settled s c t c' := by
  obtain ⟨-, rfl⟩ | ⟨f, m, u, r, -, -, -, rfl⟩ := requestAuthentication_eq_ok ht
  · exact h
  · exact ⟨rfl, rfl, h.connection, h.futures, h.processor⟩

theorem onS5Challenge_settled {data : Bytes} {n : Option ℕ}
    (h : onS5Challenge S P s c data = .ok (s', c', n)) : Settled s c s' c' := by
  simp only [onS5Challenge] at h
  iterate 2
    split at h
    · cases h; exact .refl s c
  have hkill : Settled s c s { c with
      type := .s5Challenge, noAuth := true, dataProcessor := .killConnectionOnData } :=
    ⟨rfl, rfl, rfl, fun _ _ => rfl, .inr (by simp)⟩
  split at h
  · split at h
    · cases h
    · next s₁ hs₁ =>
      cases h
      have h₁ := hkill.requestAuthentication hs₁
      exact ⟨h₁.clientUdpChannelPool, h₁.timeoutLists, h₁.connection, (h₁.setAuth none).futures,
        h₁.processor⟩
    · next s₁ f hs₁ => cases h; exact (hkill.requestAuthentication hs₁).setAuth (some f)
  · cases h
    exact ⟨rfl, rfl, rfl, fun _ _ => rfl, .inr (by simp)⟩

theorem onS5AuthInfo_settled {data : Bytes} {n : Option ℕ}
    (h : onS5AuthInfo S P s c data = .ok (s', c', n)) : Settled s c s' c' := by
  simp only [onS5AuthInfo] at h
  iterate 5
    split at h
    · cases h; exact ⟨rfl, rfl, rfl, fun _ _ => rfl, .inl rfl⟩
  have hkill : Settled s c s { c with dataProcessor := .killConnectionOnData } :=
    ⟨rfl, rfl, rfl, fun _ _ => rfl, .inr (by simp)⟩
  split at h
  · cases h
  · next s₁ hs₁ =>
    cases h
    have h₁ := hkill.requestAuthentication hs₁
    exact ⟨h₁.clientUdpChannelPool, h₁.timeoutLists, h₁.connection, (h₁.setAuth none).futures,
      h₁.processor⟩
  · next s₁ f hs₁ => cases h; exact (hkill.requestAuthentication hs₁).setAuth (some f)

/-- The request line does not reach the service. -/
theorem onHttpChallenge_settled {data : Bytes} {n : Option ℕ}
    (h : onHttpChallenge s c data = .ok (s', c', n)) : Settled s c s' c' := by
  simp only [onHttpChallenge, onHttpNormalChallenge] at h
  repeat' split at h
  all_goals first
    | cases h; exact ⟨rfl, rfl, rfl, fun _ _ => rfl, .inl rfl⟩
    | cases h; exact ⟨rfl, rfl, rfl, fun _ _ => rfl, .inr (by simp)⟩
    | cases h

theorem onHttpRawHeaderProcessor_settled {data : Bytes} {n : Option ℕ}
    (h : onHttpRawHeaderProcessor S P s c data = .ok (s', c', n)) : Settled s c s' c' := by
  have hkill : Settled s c s { c with dataProcessor := .killConnectionOnData } :=
    ⟨rfl, rfl, rfl, fun _ _ => rfl, .inr (by simp)⟩
  simp only [onHttpRawHeaderProcessor] at h
  split at h
  · cases h
  · cases h; exact .refl s c
  · cases h; exact .refl s c
  · cases h; exact (Settled.refl s c).post
  · cases h; exact hkill.post
  split at h
  · cases h
  · next s₁ hs₁ => cases h; exact ((hkill.requestAuthentication hs₁).setAuth none).post
  · next s₁ f hs₁ => cases h; exact (hkill.requestAuthentication hs₁).setAuth (some f)

theorem onHttpNormalHeaderProcessor_settled {data : Bytes} {n : Option ℕ}
    (h : onHttpNormalHeaderProcessor S P s c data = .ok (s', c', n)) : Settled s c s' c' := by
  simp only [onHttpNormalHeaderProcessor] at h
  split at h
  · cases h
  · cases h; exact ⟨rfl, rfl, rfl, fun _ _ => rfl, .inl rfl⟩
  · next http reply _ =>
    cases h
    have hhttp : Settled s c s { c with http := http } :=
      ⟨rfl, rfl, rfl, fun _ _ => rfl, .inl rfl⟩
    exact hhttp.post
  next http authKey consumedSize _ =>
  have hbody : Settled s c s { c with
      http := { http with content := http.content ++ [13, 10] } } :=
    ⟨rfl, rfl, rfl, fun _ _ => rfl, .inl rfl⟩
  split at h
  · cases h
  · next s₁ hs₁ => cases h; exact ((hbody.requestAuthentication hs₁).setAuth none).post
  · next s₁ f hs₁ =>
    cases h
    have h₁ := (hbody.requestAuthentication hs₁).setAuth (some f)
    exact ⟨h₁.clientUdpChannelPool, h₁.timeoutLists, h₁.connection, h₁.futures, .inr (by simp)⟩

/-- The data processors that do not serve a connection. -/
theorem processData_settled {data : Bytes} {n : Option ℕ}
    (hp : c.dataProcessor ≠ .onS5Target ∧ c.dataProcessor ≠ .onRawData ∧
      c.dataProcessor ≠ .onHttpBody)
    (h : processData S P s c data = .ok (s', c', n)) : Settled s c s' c' := by
  unfold processData at h
  split at h
  · cases h; exact .refl s c
  · unfold onGuessProxyType at h
    split at h
    · cases h; exact .refl s c
    split at h
    · exact onS5Challenge_settled h
    split at h
    · cases h; exact (Settled.refl s c).post
    · exact onHttpChallenge_settled h
  · exact onS5AuthInfo_settled h
  · next h' => exact absurd h' hp.1
  · next h' => exact absurd h' hp.2.1
  · exact onHttpRawHeaderProcessor_settled h
  · exact onHttpNormalHeaderProcessor_settled h
  · next h' => exact absurd h' hp.2.2

/-- What the loop over the ready futures does with one of them. -/
theorem onResult_eq_ok {κ : FutureKind} {f : ℕ}
    {handle : ProxyAccessService σ → ClientConnection → Option κ.Result →
      Except Fault (ProxyAccessService σ × ClientConnection)}
    (h : onResult κ handle s f = .ok t) :
    ∃ future c s' c' g, (s.futureManager κ).get f = some future ∧
      s.clientConnectionPool.get future.context = some c ∧
      handle s c future.result = .ok (s', c') ∧ c'.futures κ = some g ∧
      t = (s'.setFutureManager κ ((s'.futureManager κ).releaseFuture g)).store
        (c'.setFuture κ none) := by
  unfold onResult at h
  split at h
  · cases h
  next future hf =>
  split at h
  · cases h
  next c hc =>
  split at h
  · cases h
  next s' c' hp =>
  split at h
  · cases h
  next g hg =>
  cases h
  exact ⟨future, c, s', c', g, hf, hc, hp, hg, rfl⟩

/-- A refusal is told to the client, which stays where it is. -/
theorem onAuthResult_refused {f : ℕ} {future : Future ℕ AuthResult}
    (hf : (s.futureManager .auth).get f = some future) (hr : future.result = none)
    (h : onAuthResult S P s f = .ok t) :
    ∃ c c' s' m, s.clientConnectionPool.get future.context = some c ∧
      t = (s'.setFutureManager .auth m).store c' ∧
      s'.clientConnectionPool = s.clientConnectionPool ∧ c'.connectionId = c.connectionId ∧
      Settled s c s' c' ∧ c'.dataProcessor = c.dataProcessor := by
  obtain ⟨future', c, s', c', g, hf', hc, hp, -, rfl⟩ := onResult_eq_ok h
  rw [show (s.futureManager .auth).get f = some future from hf] at hf'
  cases hf'
  rw [hr] at hp
  obtain ⟨data, hdata⟩ := sendS5AuthError_eq (P := P) s c
  have hsettled : s'.clientConnectionPool = s.clientConnectionPool ∧
      c'.connectionId = c.connectionId ∧ Settled s c s' c' ∧
      c'.dataProcessor = c.dataProcessor := by
    split at hp
    · simp only [onS5AuthResult, hdata] at hp
      cases hp
      exact ⟨rfl, rfl, (Settled.refl s c).post, rfl⟩
    · cases hp; exact ⟨rfl, rfl, (Settled.refl s c).post, rfl⟩
    · cases hp; exact ⟨rfl, rfl, (Settled.refl s c).post, rfl⟩
    all_goals cases hp; exact ⟨rfl, rfl, .refl s c, rfl⟩
  obtain ⟨hpool, hid, hsettled, hproc⟩ := hsettled
  exact ⟨c, _, s', _, hc, rfl, hpool, hid, hsettled.setAuth none, hproc⟩

end ProxyPlatform.ProxyAccessService
