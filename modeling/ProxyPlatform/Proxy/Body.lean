import ProxyPlatform.Proxy.Rounds

/-!
# The bytes of a request

The request of an HTTP client is kept in `Http.Content`: first the header, as
`OnHttpNormalHeaderProcessor` rebuilds it, and behind it the body, for as long as there is no relay
connection. The first `PostData` to the relay gives it all that was kept; from then on the body is
passed on as it arrives. That `Http.Content` is empty is all that tells the one from the other.

* `rebuiltHeader`, `headerBlock`, `bodyBytes`: the header that a run leaves of the client, and
  the bytes of its body that are consumed;
* `Conserves`: what the relay was given, and what is kept, is the header and then the body. Rounds
  keep this (`Round.conserves`), and so does data (`onData_conserves`);
* `request_relayed`: once there is a relay connection, the relay has the header and the body.

A client may send its body at any time: before it is authenticated, before there is a relay
connection, and in the step in which the relay connection is taken up.
-/

namespace ProxyPlatform.ProxyAccessService

variable {σ : Type*} {S : Services σ} {P : Platform} {s t s' : ProxyAccessService σ}
  {c c' c₁ : ClientConnection} {k : ℕ} {data header body : Bytes}

/-! ## The request -/

/-- The header that `OnHttpNormalHeaderProcessor` leaves in `Http.Content`, when it is complete. -/
def rebuiltHeader (P : Platform) (c : ClientConnection) (data : Bytes) : Bytes :=
  match normalHeaderLoop P (data.length + 1) data c.http [] 0 with
  | .ok (.finished http _ _) => http.content ++ [13, 10]
  | _ => []

/-- The call of `OnData` on the connection `k` in a step: the connection and what is presented,
    the connection left and the size returned. -/
def dataCall (S : Services σ) (P : Platform) (k : ℕ) (s : ProxyAccessService σ) :
    ProxyEvent → Option ((ClientConnection × Bytes) × ClientConnection × Option ℕ)
  | .onData j data =>
    if j = k then
      match s.clientConnectionPool.get k with
      | none => none
      | some c => match onData S P s c data with
        | .error _ => none
        | .ok (_, c', n) => some ((c, data), c', n)
    else none
  | _ => none

/-- The header of the client `k`, in the step that completes it. -/
def headerStep (S : Services σ) (P : Platform) (k : ℕ) (s : ProxyAccessService σ)
    (e : ProxyEvent) : Bytes :=
  match dataCall S P k s e with
  | none => []
  | some ((c, data), c', _) =>
    if c.dataProcessor = .onHttpNormalHeaderProcessor ∧ c'.dataProcessor = .onHttpBody then
      rebuiltHeader P c data
    else []

/-- The bytes of the body of the client `k` that are consumed in a step. -/
def bodyStep (S : Services σ) (P : Platform) (k : ℕ) (s : ProxyAccessService σ)
    (e : ProxyEvent) : Bytes :=
  match dataCall S P k s e with
  | none => []
  | some ((c, data), _, n) =>
    if c.dataProcessor = .onHttpBody then data.take (n.getD 0) else []

/-- The header of the client `k` that is complete in a run. -/
def headerBlock (S : Services σ) (P : Platform) (services : σ) (k : ℕ) (es : List ProxyEvent) :
    Bytes :=
  collectAlong (step S P) (headerStep S P k) (init services) es

/-- The bytes of the body of the client `k` that are consumed in a run, in order. -/
def bodyBytes (S : Services σ) (P : Platform) (services : σ) (k : ℕ) (es : List ProxyEvent) :
    Bytes :=
  collectAlong (step S P) (bodyStep S P k) (init services) es

/-! ## What is kept -/

/-- Nothing was passed on yet for a client at this processor. -/
def Unsent (p : TcpDataProcessor) : Prop :=
  p = .onGuessProxyType ∨ p = .onHttpNormalHeaderProcessor

/-- What the relay was given for the client `k`, and what is kept for it, is the header and then
    the body. -/
structure Conserves (k : ℕ) (header body : Bytes) (s : ProxyAccessService σ) : Prop where
  fresh : s.clientConnectionPool.lastId < k → relayed k s.calls = [] ∧ header = [] ∧ body = []
  unsent : ∀ c, s.clientConnectionPool.get k = some c → Unsent c.dataProcessor →
    relayed k s.calls = [] ∧ header = [] ∧ body = []
  sent : ∀ c, s.clientConnectionPool.get k = some c → c.dataProcessor = .onHttpBody →
    relayed k s.calls ++ c.http.content = header ++ body ∧
      (c.relaySideConnectionId ≠ 0 → c.http.content = [])

theorem Conserves.congr (h : Conserves k header body s)
    (hpool : t.clientConnectionPool = s.clientConnectionPool)
    (hcalls : relayed k t.calls = relayed k s.calls) : Conserves k header body t := by
  obtain ⟨hfresh, hunsent, hsent⟩ := h
  constructor
  · rw [hpool, hcalls]; exact hfresh
  · rw [hpool, hcalls]; exact hunsent
  · rw [hpool, hcalls]; exact hsent

/-- Other connections come and go. -/
theorem Conserves.of_get (h : Conserves k header body s)
    (hlast : s.clientConnectionPool.lastId ≤ t.clientConnectionPool.lastId)
    (hget : ∀ c, t.clientConnectionPool.get k = some c → s.clientConnectionPool.get k = some c)
    (hcalls : relayed k t.calls = relayed k s.calls) : Conserves k header body t := by
  refine ⟨fun hk => ?_, fun c hc => ?_, fun c hc => ?_⟩
  · rw [hcalls]; exact h.fresh (hlast.trans_lt hk)
  · rw [hcalls]; exact h.unsent c (hget c hc)
  · rw [hcalls]; exact h.sent c (hget c hc)

/-- A connection for which something is handled. -/
theorem Handled.conserves {j : ℕ} (h : Handled s c s' c') (hs : Conserves k header body s)
    (hc : s.clientConnectionPool.get j = some c) (hid : c.connectionId = j) :
    Conserves k header body (s'.store c') := by
  have hget := get_store_of_pool h.clientConnectionPool hc (h.connectionId.trans hid)
  by_cases hjk : k = j
  · subst hjk
    have hlast : k ≤ s.clientConnectionPool.lastId := Storage.le_lastId_of_get hc
    refine ⟨fun hk => ?_, fun d hd hp => ?_, fun d hd hp => ?_⟩
    · simp only [store, Storage.lastId_set, h.clientConnectionPool] at hk
      omega
    · -- The client is still at its header, and nothing is kept for the relay yet.
      rw [hget, if_pos rfl, Option.some_inj] at hd
      subst hd
      have hp' : Unsent c.dataProcessor := by
        rcases h.dataProcessor with heq | ⟨-, heq⟩ | heq
        · rwa [← heq]
        · rw [heq] at hp; rcases hp with hp | hp <;> cases hp
        · rw [heq] at hp; rcases hp with hp | hp <;> cases hp
      rcases h.relays with ⟨-, -, hcalls⟩ | ⟨hbody, -, -⟩
      · change relayed k s'.calls = [] ∧ _
        rw [hcalls]
        exact hs.unsent c hc hp'
      · rw [hbody] at hp'
        rcases hp' with hp' | hp' <;> cases hp'
    · rw [hget, if_pos rfl, Option.some_inj] at hd
      subst hd
      change relayed k s'.calls ++ _ = _ ∧ _
      have hp' : c.dataProcessor = .onHttpBody := by
        rcases h.dataProcessor with heq | ⟨-, heq⟩ | heq
        · rwa [← heq]
        · rw [heq] at hp; cases hp
        · rw [heq] at hp; cases hp
      obtain ⟨hall, hempty⟩ := hs.sent c hc hp'
      rcases h.relays with ⟨hhttp, hrelay | hraw, hcalls⟩ | ⟨-, hhttp, hcalls⟩
      · rw [hcalls, hhttp, hrelay]
        exact ⟨hall, hempty⟩
      · rw [hraw] at hp
        cases hp
      · -- All that was kept goes to the relay.
        rw [hcalls, hhttp, if_pos hid, List.append_nil]
        exact ⟨hall, fun _ => rfl⟩
  · have hcalls : relayed k (s'.store c').calls = relayed k s.calls := by
      rcases h.relays with ⟨-, -, hcalls⟩ | ⟨-, -, hcalls⟩
      · exact hcalls k
      · refine (hcalls k).trans ?_
        rw [if_neg (by rw [hid]; exact Ne.symm hjk), List.append_nil]
    refine hs.of_get (by simp [store, h.clientConnectionPool]) (fun d hd => ?_) hcalls
    rwa [hget, if_neg hjk] at hd

/-- A round keeps what was given and what is kept together. -/
theorem Round.conserves (h : Round s t) (hid : Identified s) (hs : Conserves k header body s) :
    Conserves k header body t := by
  cases h with
  | quiet t hpool hcalls => exact hs.congr hpool (hcalls k)
  | accept remoteAddress localAddress j p hacquire =>
    obtain ⟨hj, hlast, -⟩ := Storage.acquire_eq_some hacquire
    have hget (i : ℕ) := Storage.get_acquire hacquire i
    by_cases hk : k = j
    · subst hk
      have hnone := hs.fresh (by omega)
      refine ⟨fun _ => hnone, fun d _ _ => hnone, fun d hd hp => ?_⟩
      change p.get k = some d at hd
      rw [hget, if_pos rfl] at hd
      cases hd
      cases hp
    · refine hs.of_get (by change _ ≤ p.lastId; omega) (fun d hd => ?_) rfl
      change p.get k = some d at hd
      rwa [hget, if_neg hk] at hd
  | refuse x j p hacquire =>
    obtain ⟨hj, hlast, -⟩ := Storage.acquire_eq_some hacquire
    refine hs.of_get (by change _ ≤ p.lastId; omega) (fun d hd => ?_) rfl
    change (p.release j).get k = some d at hd
    rw [Storage.get_release] at hd
    split at hd
    · cases hd
    · next hk => rwa [Storage.get_acquire hacquire, if_neg hk] at hd
  | handle j c s' c' hc h => exact h.conserves hs hc (hid j c hc)
  | release j t hpool hcalls =>
    refine hs.of_get (by rw [hpool]; exact le_rfl) (fun d hd => ?_) (hcalls k)
    rw [hpool, Storage.get_release] at hd
    split at hd
    · cases hd
    · exact hd

/-! ## Data -/

/-- What a data processor does that passes nothing on. -/
structure Prepares (s : ProxyAccessService σ) (c : ClientConnection) (s' : ProxyAccessService σ)
    (c' : ClientConnection) : Prop where
  relaySideConnectionId : c'.relaySideConnectionId = c.relaySideConnectionId
  relayed : ∀ k, relayed k s'.calls = relayed k s.calls
  unsent : Unsent c'.dataProcessor → Unsent c.dataProcessor
  body : c'.dataProcessor = .onHttpBody → c.dataProcessor = .onHttpBody

namespace Prepares

theorem refl (s : ProxyAccessService σ) (c : ClientConnection) : Prepares s c s c :=
  ⟨rfl, fun _ => rfl, id, id⟩

/-- The data is not processed any more. -/
theorem killed (hrelay : c'.relaySideConnectionId = c.relaySideConnectionId)
    (hp : c'.dataProcessor = .killConnectionOnData) : Prepares s c s c' := by
  refine ⟨hrelay, fun _ => rfl, fun h => ?_, fun h => ?_⟩
  · rw [hp] at h
    rcases h with h | h <;> cases h
  · rw [hp] at h
    cases h

theorem post (h : Prepares s c t c₁) (o : Origin) (data : Bytes) :
    Prepares s c (post P t c₁ o data).1 (post P t c₁ o data).2 :=
  ⟨h.relaySideConnectionId, fun k => (relayed_post t c₁ k).trans (h.relayed k), h.unsent, h.body⟩

theorem setFuture (h : Prepares s c t c₁) (κ : FutureKind) (f : Option ℕ) :
    Prepares s c t (c₁.setFuture κ f) :=
  ⟨h.relaySideConnectionId, h.relayed, h.unsent, h.body⟩

theorem audit (h : Prepares s c t c₁) (audit : ProxyAudit) :
    Prepares s c { t with audit := audit } c₁ :=
  ⟨h.relaySideConnectionId, h.relayed, h.unsent, h.body⟩

/-- A request to a service. -/
theorem request (h : Prepares s c s c₁) (ht : ∀ k, ProxyAccessService.relayed k t.calls =
    ProxyAccessService.relayed k s.calls) : Prepares s c t c₁ :=
  ⟨h.relaySideConnectionId, ht, h.unsent, h.body⟩

end Prepares

theorem requestAuthentication_relayed {authView : Bytes} {f : Option ℕ}
    (h : requestAuthentication S s c authView = .ok (t, f)) (k : ℕ) :
    relayed k t.calls = relayed k s.calls := by
  obtain ⟨-, rfl⟩ | ⟨f, m, u, r, -, -, -, rfl⟩ := requestAuthentication_eq_ok h
  · rfl
  · exact relayed_call (x := .acquireAuthInfo _ _ _ _) (fun _ => rfl) _ k

theorem requestDeviceUdpChannel_relayed {i : ℕ} {f : Option ℕ}
    (h : requestDeviceUdpChannel S s c i = (t, f)) (k : ℕ) :
    relayed k t.calls = relayed k s.calls := by
  obtain ⟨-, rfl⟩ | ⟨f, m, u, r, -, -, -, rfl⟩ := requestDeviceUdpChannel_eq h
  · rfl
  · exact relayed_call (x := .createUdpChannel _) (fun _ => rfl) _ k

theorem onS5Challenge_prepares {n : Option ℕ} (h : onS5Challenge S P s c data = .ok (s', c', n)) :
    Prepares s c s' c' := by
  simp only [onS5Challenge] at h
  iterate 2
    split at h
    · cases h; exact .refl s c
  split at h
  · have hkill : Prepares s c s { c with
        type := .s5Challenge, noAuth := true, dataProcessor := .killConnectionOnData } :=
      .killed rfl rfl
    split at h
    · cases h
    · next s₁ hs₁ =>
      cases h
      exact (((hkill.request (requestAuthentication_relayed hs₁)).audit _).setFuture .auth none).post
        .reply _
    · next s₁ f hs₁ =>
      cases h
      exact (hkill.request (requestAuthentication_relayed hs₁)).setFuture .auth (some f)
  · cases h
    refine ⟨rfl, relayed_post s _, fun h => ?_, fun h => ?_⟩
    · rcases h with h | h <;> cases h
    · cases h

theorem onS5AuthInfo_prepares {n : Option ℕ} (h : onS5AuthInfo S P s c data = .ok (s', c', n)) :
    Prepares s c s' c' := by
  simp only [onS5AuthInfo] at h
  iterate 5
    split at h
    · cases h; exact (Prepares.refl s c).audit _
  have hkill : Prepares s c s { c with dataProcessor := .killConnectionOnData } := .killed rfl rfl
  split at h
  · cases h
  · next s₁ hs₁ =>
    cases h
    exact (((hkill.request (requestAuthentication_relayed hs₁)).audit _).setFuture .auth none).post
      .reply _
  · next s₁ f hs₁ =>
    cases h
    exact (hkill.request (requestAuthentication_relayed hs₁)).setFuture .auth (some f)

theorem onS5UdpTarget_prepares {addrType : UInt8} {offset : ℕ} {n : Option ℕ}
    (hkill : Prepares s c s c₁) (h : onS5UdpTarget S P s c₁ addrType offset = (s', c', n)) :
    Prepares s c s' c' := by
  simp only [onS5UdpTarget] at h
  iterate 3
    split at h
    · cases h; exact hkill.post .reply _
  next u p hp =>
  split at h
  · cases h
    refine Prepares.post ?_ .reply _
    exact hkill.request fun _ => rfl
  split at h
  · next s₁ hs₁ =>
    cases h
    have h₁ := requestDeviceUdpChannel_relayed hs₁
    have h₂ : Prepares s c s₁ { c₁ with bindUdpChannel := some u } :=
      ⟨hkill.relaySideConnectionId, h₁, hkill.unsent, hkill.body⟩
    exact (h₂.setFuture .acquireDeviceUdpChannel none).post .reply _
  · next s₁ f hs₁ =>
    cases h
    exact ⟨hkill.relaySideConnectionId, (requestDeviceUdpChannel_relayed hs₁ :), hkill.unsent,
      hkill.body⟩

theorem onS5Target_prepares {n : Option ℕ} (h : onS5Target S P s c data = .ok (s', c', n)) :
    Prepares s c s' c' := by
  simp only [onS5Target] at h
  iterate 3
    split at h
    · cases h; exact (Prepares.refl s c).audit _
  split at h
  · cases h; exact .refl s c
  have hkill : Prepares s c s { c with dataProcessor := .killConnectionOnData } := .killed rfl rfl
  split at h
  · split at h
    · split at h
      · next s₁ hs₁ =>
        cases h
        exact ((hkill.request (requestDeviceConnection_pool hs₁).2).setFuture
          .acquireDeviceConnection none).post .reply _
      · next s₁ f hs₁ =>
        cases h
        have h₁ := hkill.request (requestDeviceConnection_pool hs₁).2
        exact ⟨h₁.relaySideConnectionId, h₁.relayed, h₁.unsent, h₁.body⟩
    · split at h
      · cases h
      · cases h
        refine Prepares.post (Prepares.setFuture ?_ .acquireDeviceConnection none) .reply _
        exact hkill.request fun _ => rfl
  split at h
  · exact onS5UdpTarget_prepares hkill (Except.ok.inj h)
  · cases h; exact hkill.post .reply _

theorem onHttpChallenge_prepares {n : Option ℕ} (hp : c.dataProcessor = .onGuessProxyType)
    (h : onHttpChallenge s c data = .ok (s', c', n)) : Prepares s c s' c' := by
  have hguess : Unsent c.dataProcessor := .inl hp
  simp only [onHttpChallenge, onHttpNormalChallenge] at h
  repeat' split at h
  all_goals first
    | cases h; exact ⟨rfl, fun _ => rfl, id, id⟩
    | cases h; exact ⟨rfl, fun _ => rfl, fun _ => hguess, fun h => by cases h⟩
    | cases h

theorem onHttpRawHeaderProcessor_prepares {n : Option ℕ}
    (h : onHttpRawHeaderProcessor S P s c data = .ok (s', c', n)) : Prepares s c s' c' := by
  have hkill : Prepares s c s { c with dataProcessor := .killConnectionOnData } := .killed rfl rfl
  simp only [onHttpRawHeaderProcessor] at h
  split at h
  · cases h
  · cases h; exact .refl s c
  · cases h; exact .refl s c
  · cases h; exact (Prepares.refl s c).post .reply _
  · cases h; exact hkill.post .reply _
  split at h
  · cases h
  · next s₁ hs₁ =>
    cases h
    exact ((hkill.request (requestAuthentication_relayed hs₁)).setFuture .auth none).post .reply _
  · next s₁ f hs₁ =>
    cases h
    exact (hkill.request (requestAuthentication_relayed hs₁)).setFuture .auth (some f)

/-- The header is complete, or the client stays at it. -/
theorem onHttpNormalHeaderProcessor_header {n : Option ℕ}
    (h : onHttpNormalHeaderProcessor S P s c data = .ok (s', c', n)) :
    c'.relaySideConnectionId = c.relaySideConnectionId ∧
      (∀ k, relayed k s'.calls = relayed k s.calls) ∧
      (c'.dataProcessor = c.dataProcessor ∨ c'.dataProcessor = .onHttpBody ∧
        c'.http.content = rebuiltHeader P c data) := by
  simp only [onHttpNormalHeaderProcessor] at h
  split at h
  · cases h
  · cases h; exact ⟨rfl, fun _ => rfl, .inl rfl⟩
  · cases h; exact ⟨rfl, relayed_post s _, .inl rfl⟩
  next http authKey consumedSize hloop =>
  split at h
  · cases h
  · next s₁ hs₁ =>
    cases h
    exact ⟨rfl, fun k => (relayed_post s₁ _ k).trans (requestAuthentication_relayed hs₁ k), .inl rfl⟩
  · next s₁ f hs₁ =>
    cases h
    refine ⟨rfl, requestAuthentication_relayed hs₁, .inr ⟨rfl, ?_⟩⟩
    rw [rebuiltHeader, hloop]
    rfl

/-- The data processors that pass nothing on, and complete no header. -/
theorem processData_prepares {n : Option ℕ}
    (hp : c.dataProcessor ≠ .onHttpNormalHeaderProcessor ∧ c.dataProcessor ≠ .onRawData ∧
      c.dataProcessor ≠ .onHttpBody)
    (h : processData S P s c data = .ok (s', c', n)) : Prepares s c s' c' := by
  unfold processData at h
  split at h
  · cases h; exact .refl s c
  · next hguess =>
    unfold onGuessProxyType at h
    split at h
    · cases h; exact .refl s c
    split at h
    · exact onS5Challenge_prepares h
    split at h
    · cases h; exact (Prepares.refl s c).post .reply _
    · exact onHttpChallenge_prepares hguess h
  · exact onS5AuthInfo_prepares h
  · exact onS5Target_prepares h
  · next h' => exact absurd h' hp.2.1
  · exact onHttpRawHeaderProcessor_prepares h
  · next h' => exact absurd h' hp.1
  · next h' => exact absurd h' hp.2.2

theorem onRawData_dataProcessor (s : ProxyAccessService σ) (c : ClientConnection) (data : Bytes) :
    (onRawData S s c data).2.1.dataProcessor = c.dataProcessor := by
  rcases onRawData_eq S s c data with ⟨-, heq⟩ | ⟨-, heq⟩
  · rw [heq]
  · rw [heq]

/-- The body is kept behind the header, or goes to the relay. -/
theorem onHttpBody_relayed {n : Option ℕ} (hid : c.connectionId = k)
    (h : onHttpBody S s c data = (s', c', n)) :
    c'.dataProcessor = c.dataProcessor ∧ c'.relaySideConnectionId = c.relaySideConnectionId ∧
      relayed k s'.calls ++ c'.http.content =
        relayed k s.calls ++ c.http.content ++ data.take (n.getD 0) ∧
      (c.http.content = [] → c'.http.content = []) := by
  rcases onHttpBody_eq S s c data with ⟨-, heq⟩ | ⟨-, hcontent, heq⟩ | ⟨-, hempty, heq⟩
  · rw [heq] at h
    cases h
    refine ⟨rfl, rfl, ?_, id⟩
    exact (List.append_nil _).symm
  · rw [heq] at h
    cases h
    refine ⟨rfl, rfl, ?_, fun h => absurd h hcontent⟩
    change relayed k s.calls ++ (c.http.content ++ data) = _
    rw [Option.getD_some, List.take_length, List.append_assoc]
  · rw [heq] at h
    cases h
    refine ⟨rfl, rfl, ?_, id⟩
    change relayed k (s.calls ++ [.relayPostData c.connectionId _ data]) ++ c.http.content = _
    rw [hempty, List.append_nil, List.append_nil, Option.getD_some, List.take_length, relayed_append]
    simp [relayed, hid]

/-- A data processor passes on what it is for, of the client whose data it is. -/
theorem processData_conserves {n : Option ℕ} {g : Stage} (hs : Conserves k header body s)
    (hc : s.clientConnectionPool.get k = some c) (hid : c.connectionId = k) (hg : AtStage c g)
    (h : processData S P s c data = .ok (s', c', n)) :
    (Unsent c'.dataProcessor → relayed k s'.calls = [] ∧
      (header ++ if c.dataProcessor = .onHttpNormalHeaderProcessor ∧
        c'.dataProcessor = .onHttpBody then rebuiltHeader P c data else []) = [] ∧
      (body ++ if c.dataProcessor = .onHttpBody then data.take (n.getD 0) else []) = []) ∧
    (c'.dataProcessor = .onHttpBody → relayed k s'.calls ++ c'.http.content =
      (header ++ if c.dataProcessor = .onHttpNormalHeaderProcessor ∧
        c'.dataProcessor = .onHttpBody then rebuiltHeader P c data else []) ++
      (body ++ if c.dataProcessor = .onHttpBody then data.take (n.getD 0) else []) ∧
      (c'.relaySideConnectionId ≠ 0 → c'.http.content = [])) := by
  by_cases hbody : c.dataProcessor = .onHttpBody
  · rw [processData, hbody] at h
    obtain ⟨hp, hrelay, hall, hempty⟩ := onHttpBody_relayed hid (Except.ok.inj h)
    obtain ⟨hall₀, hempty₀⟩ := hs.sent c hc hbody
    rw [hp, hbody, hrelay]
    refine ⟨fun h => ?_, fun _ => ⟨?_, fun hne => hempty (hempty₀ hne)⟩⟩
    · rcases h with h | h <;> cases h
    · rw [if_neg (by simp), if_pos rfl, List.append_nil, ← List.append_assoc, ← hall₀]
      exact hall
  by_cases hheader : c.dataProcessor = .onHttpNormalHeaderProcessor
  · rw [processData, hheader] at h
    obtain ⟨hrelay, hcalls, hp⟩ := onHttpNormalHeaderProcessor_header h
    obtain ⟨hrelayed, hh, hb⟩ := hs.unsent c hc (.inr hheader)
    subst hh hb
    have hzero : c.relaySideConnectionId = 0 := by
      have hshape := hg.shape
      refine hg.relaySideConnectionId fun heq => ?_
      subst heq
      simp [Stage.Shape, hheader] at hshape
    rw [hcalls, hrelayed, hheader, if_neg (show ¬TcpDataProcessor.onHttpNormalHeaderProcessor =
      .onHttpBody by decide), hrelay]
    rcases hp with hp | ⟨hp, hcontent⟩
    · rw [hp, hheader]
      refine ⟨fun _ => ⟨rfl, ?_, rfl⟩, fun h => by cases h⟩
      rw [if_neg (by simp), List.append_nil]
    · rw [hp, hcontent]
      refine ⟨fun h => ?_, fun _ => ⟨?_, fun hne => absurd hzero hne⟩⟩
      · rcases h with h | h <;> cases h
      · rw [if_pos ⟨rfl, rfl⟩]
        exact (List.append_nil _).symm
  by_cases hraw : c.dataProcessor = .onRawData
  · have hp : c'.dataProcessor = .onRawData := by
      rw [processData, hraw] at h
      have hx := onRawData_dataProcessor (S := S) s c data
      rw [Except.ok.inj h, hraw] at hx
      exact hx
    rw [hp]
    refine ⟨fun h => ?_, fun h => by cases h⟩
    rcases h with h | h <;> cases h
  have hprep := processData_prepares ⟨hheader, hraw, hbody⟩ h
  rw [hprep.relayed k, if_neg (fun h => hheader h.1), if_neg hbody, List.append_nil, List.append_nil]
  exact ⟨fun h => hs.unsent c hc (hprep.unsent h), fun h => absurd (hprep.body h) hbody⟩

/-- The data of one client leaves what is passed on for another. -/
theorem processData_relayed_of_ne {n : Option ℕ} (hne : c.connectionId ≠ k)
    (h : processData S P s c data = .ok (s', c', n)) : relayed k s'.calls = relayed k s.calls := by
  have hforward (s : ProxyAccessService σ) (i : ℕ) : relayed k
      (s.call (.relayPostData c.connectionId i data)).calls = relayed k s.calls := by
    change relayed k (s.calls ++ [_]) = _
    rw [relayed_append]
    simp [relayed, hne]
  by_cases hbody : c.dataProcessor = .onHttpBody
  · rw [processData, hbody] at h
    rcases onHttpBody_eq S s c data with ⟨-, heq⟩ | ⟨-, -, heq⟩ | ⟨-, -, heq⟩
    · rw [heq] at h
      cases h
      rfl
    · rw [heq] at h
      cases h
      rfl
    · rw [heq] at h
      cases h
      exact hforward _ _
  by_cases hraw : c.dataProcessor = .onRawData
  · rw [processData, hraw] at h
    rcases onRawData_eq S s c data with ⟨-, heq⟩ | ⟨-, heq⟩
    · rw [heq] at h
      cases h
      rfl
    · rw [heq] at h
      cases h
      exact hforward _ _
  by_cases hheader : c.dataProcessor = .onHttpNormalHeaderProcessor
  · rw [processData, hheader] at h
    exact (onHttpNormalHeaderProcessor_header h).2.1 k
  exact (processData_prepares ⟨hheader, hraw, hbody⟩ h).relayed k

/-! ## Runs -/

/-- Data that is presented adds to the request of its client. -/
theorem onData_conserves {j : ℕ} (hsound : Sound s) (hs : Conserves k header body s)
    (h : step S P s (.onData j data) = .ok t) :
    Conserves k (header ++ headerStep S P k s (.onData j data))
      (body ++ bodyStep S P k s (.onData j data)) t := by
  rcases step_onData_eq_ok h with ⟨hc, rfl⟩ | ⟨c, s₁, c₁, n, hc, hr, rfl⟩
  · have hnone : dataCall S P k t (.onData j data) = none := by
      simp only [dataCall]
      split
      · next hj => rw [← hj, hc]
      · rfl
    rw [headerStep, bodyStep, hnone, List.append_nil, List.append_nil]
    exact hs
  have hid : c.connectionId = j := hsound.connectionId j c hc
  obtain ⟨g, hg⟩ := hsound.stage j c hc
  obtain ⟨heffect, -⟩ := onData_spec hg hr
  have hget := get_store_of_pool heffect.clientConnectionPool hc (heffect.connectionId.trans hid)
  obtain ⟨c₂, total, hp, rfl⟩ := onData_eq_ok hr
  by_cases hjk : j = k
  · subst hjk
    have hcall : dataCall S P j s (.onData j data) =
        some ((c, data), { c₂ with totalTcpBytesFromClient := total }, n) := by
      simp only [dataCall, if_true, hc, hr]
    have hlast : j ≤ s.clientConnectionPool.lastId := Storage.le_lastId_of_get hc
    obtain ⟨hunsent, hsent⟩ := processData_conserves hs hc hid hg hp
    rw [headerStep, bodyStep, hcall]
    refine ⟨fun hk => ?_, fun d hd hu => ?_, fun d hd hu => ?_⟩
    · simp only [store, Storage.lastId_set, heffect.clientConnectionPool] at hk
      omega
    · rw [hget, if_pos rfl, Option.some_inj] at hd
      subst hd
      exact hunsent hu
    · rw [hget, if_pos rfl, Option.some_inj] at hd
      subst hd
      exact hsent hu
  · have hnone : dataCall S P k s (.onData j data) = none := by
      simp only [dataCall, if_neg hjk]
    rw [headerStep, bodyStep, hnone, List.append_nil, List.append_nil]
    have hcalls : relayed k s₁.calls = relayed k s.calls :=
      processData_relayed_of_ne (by rw [hid]; exact hjk) hp
    refine hs.of_get (by simp [store, heffect.clientConnectionPool]) (fun d hd => ?_) hcalls
    rwa [hget, if_neg (Ne.symm hjk)] at hd

/-- A step adds what it is given of the request. -/
theorem step_conserves {e : ProxyEvent} (hsound : Sound s) (hs : Conserves k header body s)
    (h : step S P s e = .ok t) :
    Conserves k (header ++ headerStep S P k s e) (body ++ bodyStep S P k s e) t := by
  by_cases he : ∀ j data, e ≠ .onData j data
  · have hnone : dataCall S P k s e = none := by
      cases e with
      | onData j data => exact absurd rfl (he j data)
      | _ => rfl
    rw [headerStep, bodyStep, hnone, List.append_nil, List.append_nil]
    exact (step_rounds he hsound h).invariant (fun _ _ hid ih hround => hround.conserves hid ih)
      hsound.connectionId hs
  · simp only [not_forall, ne_eq, not_not] at he
    obtain ⟨j, data, rfl⟩ := he
    exact onData_conserves hsound hs h

/-- In every run, what the relay was given of a request and what is kept of it is the header and
    then the body. -/
theorem conserves_of_exec {services : σ} {es : List ProxyEvent}
    (h : exec (step S P) (init services) es = .ok s) (k : ℕ) :
    Conserves k (headerBlock S P services k es) (bodyBytes S P services k es) s := by
  induction es using List.reverseRecOn generalizing s with
  | nil =>
    cases h
    exact ⟨fun _ => ⟨rfl, rfl, rfl⟩, fun c hc => (by cases hc), fun c hc => (by cases hc)⟩
  | append_singleton pre e ih =>
    obtain ⟨t, ht, he⟩ := exec_append_eq_ok.1 h
    obtain ⟨u, hu, hnil⟩ := exec_cons_eq_ok.1 he
    cases hnil
    rw [headerBlock, bodyBytes, collectAlong_snoc e ht, collectAlong_snoc e ht]
    exact step_conserves (sound_of_exec ht) (ih ht) hu

/-- The request of an HTTP client reaches the relay in order, and once: the header as it was
    rebuilt, and then the bytes of the body that are reported as consumed. A mark makes no
    difference, as nothing is consumed any more. -/
theorem request_relayed (services : σ) (es : List ProxyEvent) (s : ProxyAccessService σ) (k : ℕ)
    (c : ClientConnection) (h : exec (step S P) (init services) es = .ok s)
    (hc : s.clientConnectionPool.get k = some c) (htype : c.type = .httpNormal)
    (hrelay : c.relaySideConnectionId ≠ 0) :
    relayed k s.calls = headerBlock S P services k es ++ bodyBytes S P services k es := by
  obtain ⟨g, hg⟩ := (sound_of_exec h).stage k c hc
  have hp : c.dataProcessor = .onHttpBody := by
    have hshape := hg.shape
    have htunnel : g = .tunnel := by
      by_contra hne
      exact hrelay (hg.relaySideConnectionId hne)
    subst htunnel
    simpa [Stage.Shape, htype] using hshape
  obtain ⟨hall, hempty⟩ := (conserves_of_exec h k).sent c hc hp
  rw [hempty hrelay, List.append_nil] at hall
  exact hall

/-- A service that grants a device, and a relay connection. -/
def postingServices : Services Unit :=
  { grantingServices with
    acquireDevice := fun _ _ _ => ((), .ready (some { relayServerId := 3, relaySideDeviceId := 5 }))
    createConnection := fun _ _ _ _ _ _ => ((), .ready (some 9)) }

/-- A client that sends a part of its body before it is authenticated, and one afterwards. -/
def earlyBody : List ProxyEvent :=
  [.tick 200000, .onNewConnection localAddress localAddress true,
    .onData 1 (ascii "POST http://a/b HTTP/1.1\r\n"), .onData 1 (ascii "Host: a\r\n\r\n"),
    .onData 1 (ascii "xy"), .tick 200001, .onData 1 (ascii "z")]

theorem request_relayed_earlyBody :
    ∃ s, exec (step postingServices localPlatform) (init ()) earlyBody = .ok s ∧
      relayed 1 s.calls = ascii "POST /b HTTP/1.1\r\nHost: a\r\n\r\nxyz" ∧
      relayed 1 s.calls = headerBlock postingServices localPlatform () 1 earlyBody ++
        bodyBytes postingServices localPlatform () 1 earlyBody := by
  obtain ⟨s, hs, hp⟩ := exists_ok_of_check
    (x := exec (step postingServices localPlatform) (init ()) earlyBody)
    (p := fun s => relayed 1 s.calls = ascii "POST /b HTTP/1.1\r\nHost: a\r\n\r\nxyz" ∧
      ∃ c ∈ s.clientConnectionPool.get 1, c.type = .httpNormal ∧ c.relaySideConnectionId ≠ 0)
    (by decide +kernel)
  obtain ⟨hrelayed, c, hc, htype, hrelay⟩ := of_decide_eq_true hp
  exact ⟨s, hs, hrelayed, request_relayed () earlyBody s 1 c hs hc htype hrelay⟩

end ProxyPlatform.ProxyAccessService
