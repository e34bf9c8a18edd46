import ProxyPlatform.Proxy.Futures

/-!
# The events that are not data of a client

A client connection counts the bytes of its client, and passes them on to the relay, when its
data is presented. Every other event is made of *rounds* (`Round`): a connection comes or goes, or
something is handled for one of them (`Handled`), without a charge, and without a byte for the
relay but for the request that was kept until the relay connection was there.

* `relayed`: what the relay was given for a client, in order;
* `onReady_handled`: a result that is taken up is handled so;
* `step_rounds`: a step that presents no data is a sequence of rounds.
-/

namespace ProxyPlatform.ProxyAccessService

variable {σ : Type*} {S : Services σ} {P : Platform} {s t u s' : ProxyAccessService σ}
  {c c' : ClientConnection} {k : ℕ}

/-- The payloads passed to `PostData` of the relay service for the connection `k`. -/
def relayed (k : ℕ) (calls : List ProxyCall) : Bytes :=
  calls.flatMap fun x => match x with
    | .relayPostData j _ data => if j = k then data else []
    | _ => []

theorem relayed_append (k : ℕ) (l m : List ProxyCall) :
    relayed k (l ++ m) = relayed k l ++ relayed k m := List.flatMap_append

/-- Calls that only talk give the relay nothing. -/
theorem relayed_of_isTalk {l : List ProxyCall} (h : ∀ x ∈ l, x.IsTalk) (k : ℕ) :
    relayed k l = [] := by
  refine List.flatMap_eq_nil_iff.2 fun x hx => ?_
  cases x with
  | relayPostData j i data => exact absurd (h _ hx) id
  | _ => rfl

theorem Talk.relayed (h : Talk s t) (k : ℕ) :
    relayed k t.calls = relayed k s.calls := by
  obtain ⟨l, hl, htalk⟩ := h
  rw [hl, relayed_append, relayed_of_isTalk htalk, List.append_nil]

/-! ## Handling something for a connection -/

/-- What a call on a connection does that presents no data. -/
structure Handled (s : ProxyAccessService σ) (c : ClientConnection) (s' : ProxyAccessService σ)
    (c' : ClientConnection) : Prop where
  clientConnectionPool : s'.clientConnectionPool = s.clientConnectionPool
  connectionId : c'.connectionId = c.connectionId
  totalTcpBytesFromClient : c'.totalTcpBytesFromClient = c.totalTcpBytesFromClient
  type : c'.type = c.type
  dataProcessor : c'.dataProcessor = c.dataProcessor ∨
    c.type = .s5Challenge ∧ c'.dataProcessor = .onS5Target ∨ c'.dataProcessor = .onRawData
  /-- The relay is given nothing, or what was kept for it. -/
  relays : c'.http = c.http ∧
      (c'.relaySideConnectionId = c.relaySideConnectionId ∨ c'.dataProcessor = .onRawData) ∧
      (∀ k, relayed k s'.calls = relayed k s.calls) ∨
    c.dataProcessor = .onHttpBody ∧ c'.http = { c.http with content := [] } ∧
      ∀ k, relayed k s'.calls =
        relayed k s.calls ++ if c.connectionId = k then c.http.content else []

/-- A call that leaves all of this. -/
theorem Handled.of_quiet {x : ProxyAccessService σ × ClientConnection}
    (hpool : x.1.clientConnectionPool = s.clientConnectionPool)
    (hconn : x.2.connectionId = c.connectionId ∧
      x.2.totalTcpBytesFromClient = c.totalTcpBytesFromClient ∧ x.2.type = c.type ∧
      x.2.dataProcessor = c.dataProcessor ∧ x.2.http = c.http ∧
      x.2.relaySideConnectionId = c.relaySideConnectionId)
    (hcalls : ∀ k, relayed k x.1.calls = relayed k s.calls) : Handled s c x.1 x.2 := by
  obtain ⟨hid, hcharge, htype, hp, hhttp, hrelay⟩ := hconn
  exact ⟨hpool, hid, hcharge, htype, .inl hp, .inl ⟨hhttp, .inl hrelay, hcalls⟩⟩

theorem Handled.of_ok {x : ProxyAccessService σ × ClientConnection} (hx : Handled s c x.1 x.2)
    (h : (.ok x : Except Fault _) = .ok (s', c')) : Handled s c s' c' := by
  cases h
  exact hx

/-- A call that relays nothing. -/
theorem relayed_call {x : ProxyCall} (hx : ∀ k, relayed k [x] = []) (s : ProxyAccessService σ)
    (k : ℕ) : relayed k (s.call x).calls = relayed k s.calls := by
  change relayed k (s.calls ++ [x]) = _
  rw [relayed_append, hx, List.append_nil]

theorem relayed_post {o : Origin} {data : Bytes} (s : ProxyAccessService σ) (c : ClientConnection)
    (k : ℕ) : relayed k (post P s c o data).1.calls = relayed k s.calls :=
  relayed_call (x := .post c.connectionId o data) (fun _ => rfl) s k

theorem Handled.refl (s : ProxyAccessService σ) (c : ClientConnection) : Handled s c s c :=
  .of_quiet (x := (s, c)) rfl ⟨rfl, rfl, rfl, rfl, rfl, rfl⟩ fun _ => rfl

/-- A reply to the client. -/
theorem Handled.post (s : ProxyAccessService σ) (c : ClientConnection) (o : Origin) (data : Bytes) :
    Handled s c (post P s c o data).1 (post P s c o data).2 :=
  .of_quiet rfl ⟨rfl, rfl, rfl, rfl, rfl, rfl⟩ (relayed_post s c)

/-! ### Results -/

theorem requestDevice_pool {request : DeviceRequest} {f : Option ℕ}
    (h : requestDevice S s c request = (s', f)) :
    s'.clientConnectionPool = s.clientConnectionPool ∧ s'.calls = s.calls := by
  obtain ⟨-, rfl⟩ | ⟨_, _, _, _, -, -, -, rfl⟩ := requestDevice_eq h
  · exact ⟨rfl, rfl⟩
  · exact ⟨rfl, rfl⟩

theorem requestDeviceConnection_pool {target : Target} {f : Option ℕ}
    (h : requestDeviceConnection S P s c target = (s', f)) :
    s'.clientConnectionPool = s.clientConnectionPool ∧
      ∀ k, relayed k s'.calls = relayed k s.calls := by
  obtain ⟨l, htalk, ⟨-, rfl⟩ | ⟨_, _, _, _, -, -, -, rfl⟩⟩ := requestDeviceConnection_eq h
  · refine ⟨rfl, fun k => ?_⟩
    change relayed k (s.calls ++ l) = _
    rw [relayed_append, relayed_of_isTalk htalk, List.append_nil]
  · refine ⟨rfl, fun k => ?_⟩
    change relayed k (s.calls ++ l) = _
    rw [relayed_append, relayed_of_isTalk htalk, List.append_nil]

theorem onS5AuthResult_handled (r : Option AuthResult) :
    Handled s c (onS5AuthResult S P s c r).1 (onS5AuthResult S P s c r).2 := by
  unfold onS5AuthResult
  split
  · obtain ⟨data, hdata⟩ := sendS5AuthError_eq (P := P) s c
    rw [hdata]
    exact .post s c .reply data
  · dsimp only
    split
    · next s₁ hs₁ =>
      obtain ⟨hpool, hcalls⟩ := requestDevice_pool hs₁
      obtain ⟨data, hdata⟩ := sendS5AuthError_eq (P := P) s₁ (ClientConnection.setFuture _ _ none)
      rw [hdata]
      exact .of_quiet hpool ⟨rfl, rfl, rfl, rfl, rfl, rfl⟩ fun k => by rw [relayed_post, hcalls]
    · next s₁ f hs₁ =>
      obtain ⟨hpool, hcalls⟩ := requestDevice_pool hs₁
      exact .of_quiet hpool ⟨rfl, rfl, rfl, rfl, rfl, rfl⟩ fun k => by rw [hcalls]

theorem onHttpAuthResult_handled (r : Option AuthResult) :
    Handled s c (onHttpAuthResult S P s c r).1 (onHttpAuthResult S P s c r).2 := by
  unfold onHttpAuthResult
  split
  · exact .post s c .reply _
  · dsimp only
    split
    · next s₁ hs₁ =>
      obtain ⟨hpool, hcalls⟩ := requestDevice_pool hs₁
      exact .of_quiet hpool ⟨rfl, rfl, rfl, rfl, rfl, rfl⟩ fun k => by rw [relayed_post, hcalls]
    · next s₁ f hs₁ =>
      obtain ⟨hpool, hcalls⟩ := requestDevice_pool hs₁
      exact .of_quiet hpool ⟨rfl, rfl, rfl, rfl, rfl, rfl⟩ fun k => by rw [hcalls]

theorem onS5AcquireDeviceResult_handled (htype : c.type = .s5Challenge)
    (r : Option DeviceReference) :
    Handled s c (onS5AcquireDeviceResult P s c r).1 (onS5AcquireDeviceResult P s c r).2 := by
  unfold onS5AcquireDeviceResult
  split
  · obtain ⟨data, hdata⟩ := sendS5AuthError_eq (P := P) s c
    rw [hdata]
    exact .post s c .reply data
  · next result =>
    obtain ⟨data, hdata⟩ := sendS5AuthAccepted_eq (P := P) s
      { c with deviceReference := result, dataProcessor := .onS5Target }
    rw [hdata]
    exact ⟨rfl, rfl, rfl, rfl, .inr (.inl ⟨htype, rfl⟩), .inl ⟨rfl, .inl rfl, relayed_post s _⟩⟩

theorem onHttpAcquireDeviceResult_handled (r : Option DeviceReference) :
    Handled s c (onHttpAcquireDeviceResult S P s c r).1 (onHttpAcquireDeviceResult S P s c r).2 := by
  unfold onHttpAcquireDeviceResult
  split
  · exact .post s c .reply _
  · dsimp only
    split
    · next s₁ hs₁ =>
      obtain ⟨hpool, hcalls⟩ := requestDeviceConnection_pool hs₁
      exact .of_quiet hpool ⟨rfl, rfl, rfl, rfl, rfl, rfl⟩ fun k => by rw [relayed_post, hcalls]
    · next s₁ f hs₁ =>
      obtain ⟨hpool, hcalls⟩ := requestDeviceConnection_pool hs₁
      exact .of_quiet hpool ⟨rfl, rfl, rfl, rfl, rfl, rfl⟩ hcalls

/-- A relay connection that is taken up for another request is given what was kept. -/
theorem onHttpNormalAcquireDeviceConnectionResult_handled (hbody : c.dataProcessor = .onHttpBody)
    (r : Option ℕ) :
    Handled s c (onHttpNormalAcquireDeviceConnectionResult S P s c r).1
      (onHttpNormalAcquireDeviceConnectionResult S P s c r).2 := by
  unfold onHttpNormalAcquireDeviceConnectionResult
  split
  · exact .post s c .reply _
  · next result =>
    refine ⟨rfl, rfl, rfl, rfl, .inl rfl, .inr ⟨hbody, rfl, fun k => ?_⟩⟩
    change relayed k (s.calls ++ [.relayPostData c.connectionId result c.http.content]) = _
    rw [relayed_append]
    simp [relayed]

/-- A relay connection that is taken up for a tunnel is told to the client. -/
theorem onTunnelResult_handled {reply : Bytes} (result : ℕ) :
    Handled s c
      (post P s { c with relaySideConnectionId := result, dataProcessor := .onRawData } .established
        reply).1
      (post P s { c with relaySideConnectionId := result, dataProcessor := .onRawData } .established
        reply).2 :=
  ⟨rfl, rfl, rfl, rfl, .inr (.inr rfl), .inl ⟨rfl, .inr rfl, relayed_post s _⟩⟩

/-- Keeping the connection alive, or not. -/
theorem Handled.keepAlive (h : Handled s c s' c') :
    Handled s c ((keepAlive s' c').getD (s', c')).1 ((keepAlive s' c').getD (s', c')).2 := by
  unfold ProxyAccessService.keepAlive
  split
  · exact h
  · exact ⟨h.1, h.2, h.3, h.4, h.5, h.6⟩

theorem onUdpChannelResult_handled {r : Option ℕ} (h : onUdpChannelResult P s c r = .ok (s', c')) :
    Handled s c s' c' := by
  unfold onUdpChannelResult at h
  split at h
  · exact .of_ok (.post s c .reply _) h
  split at h
  · cases h
  split at h
  · cases h
  next udpChannel hu =>
  refine Handled.of_ok (Handled.keepAlive ?_) h
  exact .of_quiet (x := ProxyAccessService.post P _ c .reply _) rfl ⟨rfl, rfl, rfl, rfl, rfl, rfl⟩ fun k =>
    relayed_post _ c k

/-- Releasing a future. -/
theorem Handled.release {κ : FutureKind} {m : FuturePoolManager ℕ κ.Result}
    (h : Handled s c s' c') : Handled s c (s'.setFutureManager κ m) (c'.setFuture κ none) :=
  ⟨h.1, h.2, h.3, h.4, h.5, h.6⟩

/-- A result that is taken up is handled for the connection that waits for it. -/
theorem onReady_handled {κ : FutureKind} {f : ℕ}
    (hstage : ∀ k c, s.clientConnectionPool.get k = some c → ∃ g, AtStage c g)
    (h : onReady S P κ s f = .ok t) :
    ∃ k c s' c', s.clientConnectionPool.get k = some c ∧ Handled s c s' c' ∧ t = s'.store c' := by
  cases κ with
  | auth =>
    unfold onReady onAuthResult at h
    obtain ⟨future, c, s', c', g, -, hc, hp, -, rfl⟩ := onResult_eq_ok h
    have hhandled : Handled s c s' c' := by
      split at hp
      · exact (onS5AuthResult_handled _).of_ok hp
      · exact (onHttpAuthResult_handled _).of_ok hp
      · exact (onHttpAuthResult_handled _).of_ok hp
      all_goals exact Handled.of_ok (.refl s c) hp
    exact ⟨_, c, _, _, hc, hhandled.release, rfl⟩
  | acquireDevice =>
    unfold onReady onAcquireDeviceResult at h
    obtain ⟨future, c, s', c', g, -, hc, hp, -, rfl⟩ := onResult_eq_ok h
    have hhandled : Handled s c s' c' := by
      split at hp
      · next htype => exact (onS5AcquireDeviceResult_handled htype _).of_ok hp
      · exact (onHttpAcquireDeviceResult_handled _).of_ok hp
      · exact (onHttpAcquireDeviceResult_handled _).of_ok hp
      all_goals exact Handled.of_ok (.refl s c) hp
    exact ⟨_, c, _, _, hc, hhandled.release, rfl⟩
  | acquireDeviceConnection =>
    unfold onReady onAcquireDeviceConnectionResult at h
    obtain ⟨future, c, s', c', f', -, hc, hp, hf', rfl⟩ := onResult_eq_ok h
    have hhandled : Handled s c s' c' := by
      generalize future.result = r at hp
      split at hp
      · cases r with
        | none => exact Handled.of_ok (.post s c .reply _) hp
        | some result => exact (onTunnelResult_handled result).of_ok hp
      · cases r with
        | none => exact Handled.of_ok (.post s c .reply _) hp
        | some result => exact (onTunnelResult_handled result).of_ok hp
      · next htype =>
        -- The connection waits for the relay connection, so that its header is complete.
        have hf : c.futures .acquireDeviceConnection = some f' := by
          rw [← hf']
          cases r <;> cases hp <;> rfl
        obtain ⟨g, hg⟩ := hstage _ c hc
        have hshape := hg.shape
        have hbody : c.dataProcessor = .onHttpBody := by
          have hawaits := hg.awaits_of_futures hf
          cases g <;> simp [Stage.awaits] at hawaits
          simpa [Stage.Shape, htype] using hshape
        exact (onHttpNormalAcquireDeviceConnectionResult_handled hbody r).of_ok hp
      all_goals exact Handled.of_ok (.refl s c) hp
    exact ⟨_, c, _, _, hc, hhandled.release, rfl⟩
  | acquireDeviceUdpChannel =>
    unfold onReady onAcquireDeviceUdpChannelResult at h
    obtain ⟨future, c, s', c', g, -, hc, hp, -, rfl⟩ := onResult_eq_ok h
    exact ⟨_, c, _, _, hc, (onUdpChannelResult_handled hp).release, rfl⟩

/-! ## Rounds -/

/-- What an event that presents no data is made of. -/
inductive Round (s : ProxyAccessService σ) : ProxyAccessService σ → Prop
  /-- Nothing happens to the connections. -/
  | quiet (t : ProxyAccessService σ) (hpool : t.clientConnectionPool = s.clientConnectionPool)
      (hcalls : ∀ k, relayed k t.calls = relayed k s.calls) : Round s t
  | accept (remoteAddress localAddress : NetAddress) (k : ℕ) (p : Storage ClientConnection)
      (hacquire : s.clientConnectionPool.acquire
        (newConnection s remoteAddress localAddress) = some (k, p)) :
      Round s ({ s with clientConnectionPool := p }.linkTail .initTimeout k)
  | refuse (x : ℕ → ClientConnection) (k : ℕ) (p : Storage ClientConnection)
      (hacquire : s.clientConnectionPool.acquire x = some (k, p)) :
      Round s { s with clientConnectionPool := p.release k }
  | handle (k : ℕ) (c : ClientConnection) (s' : ProxyAccessService σ) (c' : ClientConnection)
      (hc : s.clientConnectionPool.get k = some c) (h : Handled s c s' c') :
      Round s (s'.store c')
  | release (k : ℕ) (t : ProxyAccessService σ)
      (hpool : t.clientConnectionPool = s.clientConnectionPool.release k)
      (hcalls : ∀ j, relayed j t.calls = relayed j s.calls) : Round s t

/-- Sequences of rounds. -/
def Rounds : ProxyAccessService σ → ProxyAccessService σ → Prop := Relation.ReflTransGen Round

namespace Rounds

theorem refl (s : ProxyAccessService σ) : Rounds s s := Relation.ReflTransGen.refl

theorem trans (h : Rounds s t) (h' : Rounds t u) : Rounds s u := Relation.ReflTransGen.trans h h'

theorem single (h : Round s t) : Rounds s t := Relation.ReflTransGen.single h

/-- Rounds that leave the connections. -/
theorem quiet (hpool : t.clientConnectionPool = s.clientConnectionPool)
    (hcalls : t.calls = s.calls) : Rounds s t :=
  .single (.quiet t hpool fun _ => by rw [hcalls])

end Rounds

/-- Every connection knows its id. -/
def Identified (s : ProxyAccessService σ) : Prop :=
  ∀ k c, s.clientConnectionPool.get k = some c → c.connectionId = k

theorem Round.identified (h : Round s t) (hs : Identified s) : Identified t := by
  intro j d hd
  cases h with
  | quiet t hpool hcalls =>
    rw [hpool] at hd
    exact hs j d hd
  | accept remoteAddress localAddress k p hacquire =>
    change p.get j = some d at hd
    rw [Storage.get_acquire hacquire] at hd
    split at hd
    · next hj => cases hd; exact hj.symm
    · exact hs j d hd
  | refuse x k p hacquire =>
    change (p.release k).get j = some d at hd
    rw [Storage.get_release] at hd
    split at hd
    · cases hd
    · next hj =>
      rw [Storage.get_acquire hacquire, if_neg hj] at hd
      exact hs j d hd
  | handle k c s' c' hc h =>
    have hid : c'.connectionId = k := h.connectionId.trans (hs k c hc)
    rw [get_store_of_pool h.clientConnectionPool hc hid] at hd
    split at hd
    · next hj => cases hd; rw [hid, hj]
    · exact hs j d hd
  | release k t hpool hcalls =>
    rw [hpool, Storage.get_release] at hd
    split at hd
    · cases hd
    · exact hs j d hd

/-- What every round preserves, every sequence of rounds preserves. -/
theorem Rounds.invariant {I : ProxyAccessService σ → Prop}
    (hI : ∀ s t, Identified s → I s → Round s t → I t) (hs : Identified s) (h : Rounds s t)
    (h₀ : I s) : I t := by
  have hboth : Identified t ∧ I t := by
    induction h with
    | refl => exact ⟨hs, h₀⟩
    | tail _ hround ih => exact ⟨hround.identified ih.1, hI _ _ ih.1 ih.2 hround⟩
  exact hboth.2

/-- The loop over the ready futures of a kind is a sequence of rounds. -/
theorem processReadyFutures_rounds {κ : FutureKind} {n : ℕ} (hs : Sound s)
    (h : processReadyFutures κ (onReady S P κ) n s = .ok t) : Sound t ∧ Rounds s t := by
  induction n generalizing s with
  | zero =>
    obtain ⟨-, rfl⟩ | ⟨_, _, _, _, hn, -⟩ := processReadyFutures_eq_ok h
    · exact ⟨hs, .refl t⟩
    · cases hn
  | succ n ih =>
    obtain ⟨-, rfl⟩ | ⟨f, m, i, u, hn, hpop, hu, h⟩ := processReadyFutures_eq_ok h
    · exact ⟨hs, .refl t⟩
    · cases hn
      obtain ⟨handle, heq, hhandles, -⟩ := onReady_spec (S := S) (P := P) κ
      have hturn := (onResult_turn hs hpop hhandles (heq ▸ hu)).1
      obtain ⟨k, c, s', c', hc, hhandled, rfl⟩ := onReady_handled (by exact hs.stage) hu
      have hhandled' : Handled s c s' c' :=
        ⟨hhandled.1, hhandled.2, hhandled.3, hhandled.4, hhandled.5, hhandled.6⟩
      have hround : Round s (s'.store c') := .handle k c s' c' hc hhandled'
      obtain ⟨ht, hrest⟩ := ih (hturn.sound hs) h
      exact ⟨ht, (Rounds.single hround).trans hrest⟩

theorem processResults_rounds (hs : Sound s) (h : processResults S P s = .ok t) : Rounds s t := by
  obtain ⟨s₁, h₁, h⟩ := bind_eq_ok.1 h
  obtain ⟨s₂, h₂, h⟩ := bind_eq_ok.1 h
  obtain ⟨s₃, h₃, h₄⟩ := bind_eq_ok.1 h
  have hloop {κ : FutureKind} {s t : ProxyAccessService σ} (hs : Sound s)
      (h : processReady κ (onReady S P κ) s = .ok t) : Sound t ∧ Rounds s t :=
    processReadyFutures_rounds hs h
  obtain ⟨hs₁, hr₁⟩ := hloop hs h₁
  obtain ⟨hs₂, hr₂⟩ := hloop hs₁ h₂
  obtain ⟨hs₃, hr₃⟩ := hloop hs₂ h₃
  obtain ⟨-, hr₄⟩ := hloop hs₃ h₄
  exact ((hr₁.trans hr₂).trans hr₃).trans hr₄

/-- Destroying the connections of the kill list is a sequence of rounds. -/
theorem executeKillConnections_rounds {n : ℕ} (h : executeKillConnections S n s = .ok t) :
    Rounds s t := by
  induction n generalizing s with
  | zero =>
    obtain ⟨-, rfl⟩ | ⟨_, _, _, _, _, hn, -⟩ := executeKillConnections_eq_ok h
    · exact .refl t
    · cases hn
  | succ n ih =>
    obtain ⟨-, rfl⟩ | ⟨k, lists, c, m, u, hn, hpop, hc, hu, h⟩ := executeKillConnections_eq_ok h
    · exact .refl t
    · cases hn
      obtain ⟨hpool, -, -, -, -, -, hcalls⟩ := destroyConnection_eq_ok hu
      have hround : Round s u := by
        refine .release c.connectionId u hpool fun j => ?_
        rcases hcalls with ⟨-, -, hcalls⟩ | ⟨-, -, hcalls⟩
        · rw [hcalls]
        · rw [hcalls, relayed_append]
          exact List.append_nil _
      exact (Rounds.single hround).trans (ih h)

theorem tick_rounds {nowMS : ℕ} (hs : Sound s) (h : tick S P s nowMS = .ok t) : Rounds s t := by
  unfold tick at h
  obtain ⟨s₁, h₁, h₂⟩ := bind_eq_ok.1 h
  have hclock : Rounds s { s with localTicker := nowMS } := .quiet rfl rfl
  have hs₀ : Sound { s with localTicker := nowMS } :=
    Turn.sound (S := S) (.clock nowMS s.audit) hs
  have hpass : Rounds s₁ (deferKillTimeouts s₁) := .quiet rfl rfl
  exact ((hclock.trans (processResults_rounds hs₀ h₁)).trans hpass).trans
    (executeKillConnections_rounds h₂)

/-- A step that presents no data is a sequence of rounds. -/
theorem step_rounds {e : ProxyEvent} (he : ∀ k data, e ≠ .onData k data) (hs : Sound s)
    (h : step S P s e = .ok t) : Rounds s t := by
  have hconn {k : ℕ} {run : ClientConnection →
      Except Fault (ProxyAccessService σ × ClientConnection)}
      (hrun : ∀ c p, run c = .ok p → Handled s c p.1 p.2) (h : s.onConnection k run = .ok t) :
      Rounds s t := by
    obtain ⟨-, rfl⟩ | ⟨c, s', c', hc, hr, rfl⟩ := onConnection_eq_ok h
    · exact .refl t
    · exact .single (.handle k c s' c' hc (hrun c (s', c') hr))
  have hudp {i : ℕ} {run : ClientUdpChannel → Except Fault (ProxyAccessService σ)}
      (hrun : ∀ x, run x = .ok t → Rounds s t) (h : s.onUdpChannel i run = .ok t) : Rounds s t := by
    obtain ⟨-, rfl⟩ | ⟨x, -, hr⟩ := onUdpChannel_eq_ok h
    · exact .refl t
    · exact hrun x hr
  cases e with
  | onNewConnection remoteAddress localAddress initOk =>
    cases h
    unfold onNewConnection
    dsimp only
    split
    · exact .refl s
    · next k p hp =>
      split
      · exact .single (.accept remoteAddress localAddress k p hp)
      · exact .single (.refuse _ k p hp)
  | onPeerClose k =>
    refine hconn (fun c p hp => ?_) h
    by_cases hmark : c.deleteMark = true
    · simp only [onPeerClose, hmark, if_true] at hp
      cases hp
      exact .refl s c
    · obtain ⟨s', c'⟩ := p
      obtain ⟨u, l, heq, hl⟩ := onPeerClose_eq_ok (eq_false_of_ne_true hmark) hp
      have hnone (k : ℕ) : relayed k l = [] := by
        rcases hl with ⟨-, -, rfl⟩ | ⟨-, ⟨i, x, -, -, -, -, rfl⟩⟩ | ⟨-, -, -, rfl⟩
        · rfl
        · rfl
        · rfl
      cases heq
      refine .of_quiet (x := deferKill _ c) rfl ⟨rfl, rfl, rfl, rfl, rfl, rfl⟩ fun k => ?_
      change relayed k (s.calls ++ l) = _
      rw [relayed_append, hnone, List.append_nil]
  | onFlush k =>
    refine hconn (fun c p hp => ?_) h
    cases hp
    rcases onFlush_eq s c with ⟨-, heq⟩ | ⟨-, heq⟩
    all_goals
      rw [heq]
      exact .of_quiet (x := (_, _)) rfl ⟨rfl, rfl, rfl, rfl, rfl, rfl⟩ fun _ => rfl
  | onData k data => exact absurd rfl (he k data)
  | onUdpData i data a =>
    refine hudp (fun x h => ?_) h
    obtain rfl | ⟨c, s₁, c₁, u, hc, -, rfl, rfl, rfl, ht⟩ := onUdpData_eq_ok h
    · exact .refl t
    have hhandled : Handled s c
        { s with clientUdpChannelPool :=
          s.clientUdpChannelPool.set i { x with lastClientIpAddress := a } }
        { c with totalUdpBytesFromClient := c.totalUdpBytesFromClient + data.length.toUInt64 } :=
      .of_quiet (x := (_, _)) rfl ⟨rfl, rfl, rfl, rfl, rfl, rfl⟩ fun _ => rfl
    have hround := Rounds.single (.handle _ c _ _ hc hhandled.keepAlive)
    rcases ht with rfl | ⟨server, j, l, targetAddress, payload, rfl⟩
    · exact hround
    · refine hround.trans (.single (.quiet _ rfl fun k => ?_))
      exact relayed_call (x := .relayPostUdpData _ _ _ _) (fun _ => rfl) _ k
  | postData k data =>
    refine hconn (fun c p hp => ?_) h
    cases hp
    unfold postData
    split
    · exact .refl s c
    · next s₁ c₁ hk =>
      obtain ⟨-, rfl, rfl⟩ := keepAlive_eq_some hk
      exact .of_quiet (x := (_, _)) rfl ⟨rfl, rfl, rfl, rfl, rfl, rfl⟩ fun k =>
        relayed_call (x := .post _ _ _) (fun _ => rfl) s k
  | postUdpData i a data =>
    refine hudp (fun x h => ?_) h
    obtain rfl | ⟨c, hc, -, rfl | ⟨buffer, rfl⟩⟩ := postUdpData_eq_ok h
    · exact .refl t
    · refine .single (.handle _ c _ _ hc ?_)
      exact .of_quiet (x := (_, _)) rfl ⟨rfl, rfl, rfl, rfl, rfl, rfl⟩ fun _ => rfl
    · refine .single (.handle _ c _ _ hc ?_)
      exact .of_quiet (x := (_, _)) rfl ⟨rfl, rfl, rfl, rfl, rfl, rfl⟩ fun k =>
        relayed_call (x := .postUdp _ _ _) (fun _ => rfl) s k
  | closeConnection k =>
    refine hconn (fun c p hp => ?_) h
    cases hp
    rcases closeConnection_eq s c with ⟨-, heq⟩ | ⟨-, -, heq⟩ | ⟨-, -, heq⟩
    all_goals
      rw [heq]
      exact .of_quiet (x := (_, _)) rfl ⟨rfl, rfl, rfl, rfl, rfl, rfl⟩ fun _ => rfl
  | setReady κ f r =>
    cases h
    unfold setReady
    split
    · exact .refl s
    · split
      · exact .refl s
      · exact .quiet rfl rfl
  | tick nowMS => exact tick_rounds hs h

end ProxyPlatform.ProxyAccessService
