import ProxyPlatform.Proxy.Settled
import ProxyPlatform.Proxy.Step

/-!
# What a step does to the UDP channels

A UDP channel is bound for a connection, with the ip of its client to check, and keeps what it is
bound for as long as it lives. Only a datagram from the ip that is checked moves
`LastClientIpAddress`.

* `ClientUdpChannel.Follows`: what a channel may become;
* `BoundFor`: a channel that is new, for a connection. Only a request for a UDP association binds
  one (`onData_binds`);
* `step_comes`: after a step, every channel follows one that was there, or is new for a connection
  that was there.
-/

namespace ProxyPlatform

/-- What a UDP channel keeps. -/
structure ClientUdpChannel.Follows (y x : ClientUdpChannel) : Prop where
  bindAddress : y.bindAddress = x.bindAddress
  parentConnection : y.parentConnection = x.parentConnection
  clientIpCheckAddress : y.clientIpCheckAddress = x.clientIpCheckAddress
  /-- The client is where it was, or was seen again at the ip that is checked. -/
  lastClientIpAddress : y.lastClientIpAddress = x.lastClientIpAddress ∨
    y.lastClientIpAddress.ip = x.clientIpCheckAddress

namespace ClientUdpChannel

theorem Follows.refl (x : ClientUdpChannel) : x.Follows x := ⟨rfl, rfl, rfl, .inl rfl⟩

theorem Follows.trans {x y z : ClientUdpChannel} (h : z.Follows y) (h' : y.Follows x) :
    z.Follows x where
  bindAddress := h.bindAddress.trans h'.bindAddress
  parentConnection := h.parentConnection.trans h'.parentConnection
  clientIpCheckAddress := h.clientIpCheckAddress.trans h'.clientIpCheckAddress
  lastClientIpAddress := by
    rcases h.lastClientIpAddress with hlast | hlast
    · rw [hlast]
      exact h'.lastClientIpAddress
    · rw [hlast, h'.clientIpCheckAddress]
      exact .inr rfl

/-- The channel is new, for the connection `c`. -/
structure BoundFor (P : Platform) (c : ClientConnection) (y : ClientUdpChannel) : Prop where
  bindAddress : ∃ n a, a.isSet ∧ P.bindUdp n a = some y.bindAddress
  parentConnection : y.parentConnection = c.connectionId
  clientIpCheckAddress : y.clientIpCheckAddress = c.remoteAddress.ip
  lastClientIpAddress : y.lastClientIpAddress.isSet = false

end ClientUdpChannel

namespace ProxyAccessService

variable {σ : Type*} {S : Services σ} {P : Platform} {s s' t u : ProxyAccessService σ}
  {c c' : ClientConnection} {data : Bytes}

/-! ## New channels -/

/-- The UDP channels of `s'` are those of `s`, or new for the connection `c`. -/
def Binds (P : Platform) (s : ProxyAccessService σ) (c : ClientConnection)
    (s' : ProxyAccessService σ) : Prop :=
  ∀ i y, s'.clientUdpChannelPool.get i = some y →
    s.clientUdpChannelPool.get i = some y ∨ y.BoundFor P c

theorem Binds.of_pool (h : s'.clientUdpChannelPool = s.clientUdpChannelPool) : Binds P s c s' :=
  fun _ _ hy => .inl (by rwa [← h])

/-- A request for a relay connection leaves the UDP channels. -/
theorem requestDeviceConnection_channels {target : Target} {f : Option ℕ}
    (h : requestDeviceConnection S P s c target = (t, f)) :
    t.clientUdpChannelPool = s.clientUdpChannelPool := by
  obtain ⟨l, -, ⟨-, rfl⟩ | ⟨f, m, u, r, -, -, -, rfl⟩⟩ := requestDeviceConnection_eq h
  · rfl
  · rfl

theorem requestDeviceUdpChannel_channels {i : ℕ} {f : Option ℕ}
    (h : requestDeviceUdpChannel S s c i = (t, f)) :
    t.clientUdpChannelPool = s.clientUdpChannelPool := by
  obtain ⟨-, rfl⟩ | ⟨f, m, u, r, -, -, -, rfl⟩ := requestDeviceUdpChannel_eq h
  · rfl
  · rfl

theorem onS5UdpTarget_binds {addrType : UInt8} {offset : ℕ} {n : Option ℕ}
    (h : onS5UdpTarget S P s c addrType offset = (s', c', n)) : Binds P s c s' := by
  simp only [onS5UdpTarget] at h
  split at h
  · cases h; exact .of_pool rfl
  split at h
  · cases h; exact .of_pool rfl
  next hset =>
  split at h
  · cases h; exact .of_pool rfl
  next u p hp =>
  split at h
  · -- The channel is given back.
    cases h
    intro i y hy
    change (p.release u).get i = some y at hy
    rw [Storage.get_release, Storage.get_acquire hp] at hy
    split at hy
    · cases hy
    · exact .inl hy
  next hbound =>
  obtain ⟨b, hb⟩ : ∃ b, P.bindUdp s.calls.length (udpBindAddress c addrType) = some b := by
    cases hx : P.bindUdp s.calls.length (udpBindAddress c addrType) with
    | none => simp [hx] at hbound
    | some b => exact ⟨b, rfl⟩
  have hnew (s₁ : ProxyAccessService σ) (hpool : s₁.clientUdpChannelPool = p) : Binds P s c s₁ := by
    intro i y hy
    rw [hpool, Storage.get_acquire hp] at hy
    split at hy
    · cases hy
      exact .inr ⟨⟨_, _, by simpa using hset, by rw [hb]; rfl⟩, rfl, rfl, rfl⟩
    · exact .inl hy
  split at h
  · next s₁ hs₁ => cases h; exact hnew _ (requestDeviceUdpChannel_channels hs₁ :)
  · next s₁ f hs₁ => cases h; exact hnew _ (requestDeviceUdpChannel_channels hs₁ :)

theorem onS5Target_binds {n : Option ℕ} (h : onS5Target S P s c data = .ok (s', c', n)) :
    Binds P s c s' := by
  simp only [onS5Target] at h
  iterate 3
    split at h
    · cases h; exact .of_pool rfl
  split at h
  · cases h; exact .of_pool rfl
  split at h
  · split at h
    · split at h
      · next s₁ hs₁ => cases h; exact .of_pool (requestDeviceConnection_channels hs₁ :)
      · next s₁ f hs₁ => cases h; exact .of_pool (requestDeviceConnection_channels hs₁ :)
    · split at h
      · cases h
      · cases h; exact .of_pool rfl
  split at h
  · intro i y hy
    rcases onS5UdpTarget_binds (Except.ok.inj h) i y hy with hy | ⟨hbind, hparent, hcheck, hlast⟩
    · exact .inl hy
    · exact .inr ⟨hbind, hparent, hcheck, hlast⟩
  · cases h; exact .of_pool rfl

theorem processData_binds {n : Option ℕ} (h : processData S P s c data = .ok (s', c', n)) :
    Binds P s c s' := by
  by_cases hp : c.dataProcessor ≠ .onS5Target ∧ c.dataProcessor ≠ .onRawData ∧
      c.dataProcessor ≠ .onHttpBody
  · exact .of_pool (processData_settled hp h).clientUdpChannelPool
  have hcases : c.dataProcessor = .onS5Target ∨ c.dataProcessor = .onRawData ∨
      c.dataProcessor = .onHttpBody := by
    cases hp' : c.dataProcessor <;> simp [hp'] at hp ⊢
  rcases hcases with hp | hp | hp
  · simp only [processData, hp] at h
    exact onS5Target_binds h
  · rw [processData, hp] at h
    rcases onRawData_eq S s c data with ⟨-, heq⟩ | ⟨-, heq⟩
    all_goals
      rw [heq] at h
      cases h
      exact .of_pool rfl
  · rw [processData, hp] at h
    rcases onHttpBody_eq S s c data with ⟨-, heq⟩ | ⟨-, -, heq⟩ | ⟨-, -, heq⟩
    all_goals
      rw [heq] at h
      cases h
      exact .of_pool rfl

theorem onData_binds {n : Option ℕ} (h : onData S P s c data = .ok (s', c', n)) :
    Binds P s c s' := by
  obtain ⟨c₁, total, hp, rfl⟩ := onData_eq_ok h
  exact processData_binds hp

/-! ## Channels that stay -/

/-- Every UDP channel of `t` was there in `s`. -/
def Keeps (s t : ProxyAccessService σ) : Prop :=
  ∀ i y, t.clientUdpChannelPool.get i = some y →
    ∃ x, s.clientUdpChannelPool.get i = some x ∧ y.Follows x

theorem Keeps.of_pool (h : t.clientUdpChannelPool = s.clientUdpChannelPool) : Keeps s t :=
  fun _ y hy => ⟨y, by rwa [← h], .refl y⟩

theorem Keeps.trans (h : Keeps s t) (h' : Keeps t u) : Keeps s u := by
  intro i z hz
  obtain ⟨y, hy, hzy⟩ := h' i z hz
  obtain ⟨x, hx, hyx⟩ := h i y hy
  exact ⟨x, hx, hzy.trans hyx⟩

/-- Writing back a channel. -/
theorem Keeps.set {i : ℕ} {x y : ClientUdpChannel} (hx : s.clientUdpChannelPool.get i = some x)
    (hyx : y.Follows x) (ht : t.clientUdpChannelPool = s.clientUdpChannelPool.set i y) :
    Keeps s t := by
  intro j z hz
  rw [ht, Storage.get_set hx] at hz
  split at hz
  · next hj =>
    cases hz
    exact ⟨x, by rw [hj]; exact hx, hyx⟩
  · exact ⟨z, hz, .refl z⟩

/-- An act that takes up a result binds no channel. -/
theorem Act.keeps {x : Core σ} {taken : Option ((κ : FutureKind) × Option κ.Result)}
    (h : Act S s c s' x taken) (htaken : taken ≠ none) {t : ProxyAccessService σ}
    (ht : t.clientUdpChannelPool = x.clientUdpChannelPool) : Keeps s t := by
  cases h with
  | authenticate | unbound | bind | associate | forward => exact absurd rfl htaken
  | quiet _ hcore _ | grant _ _ hcore _ | locate _ _ _ _ _ _ _ _ _ _ hcore _
  | connect _ _ _ _ _ _ _ _ _ _ _ _ hcore _ | establish _ _ _ hcore _
  | establishNormal _ _ _ _ _ hcore _ =>
    rw [hcore] at ht
    exact .of_pool ht
  | channelReady e i udpChannel htype hbind hudp hcore _ =>
    rw [hcore] at ht
    exact .set hudp (y := { udpChannel with relaySideUdpChannelId := e })
      ⟨rfl, rfl, rfl, .inl rfl⟩ ht

/-- The turns of a tick bind no channel. -/
theorem Turn.keeps {nowMS : ℕ} {l : TurnLabel} (hl : (ProxyEvent.tick nowMS).Allows l)
    (h : Turn S s l t) : Keeps s t := by
  cases h with
  | clock | expire => exact .of_pool rfl
  | result κ f m future c s' c' hpop hf hc hcf heffect hcf' hstage =>
    exact heffect.act.keeps (by simp) rfl
  | destroy k lists c t hpop hc hready h =>
    intro i y hy
    rw [(destroyConnection_eq_ok h).2.2.1] at hy
    split at hy
    · exact ⟨y, hy, .refl y⟩
    · rw [Storage.get_release] at hy
      split at hy
      · cases hy
      · exact ⟨y, hy, .refl y⟩
  | accept | refuse | call | touch | forwardUdp | peerClose | flush | close | ready =>
    simp [ProxyEvent.Allows] at hl

theorem Turns.keeps {nowMS : ℕ} (h : Turns S (ProxyEvent.tick nowMS).Allows s t) (hs : Sound s) :
    Keeps s t :=
  h.invariant (fun _ _ _ hl _ ih hturn => ih.trans (hturn.keeps hl)) hs (.of_pool rfl)

theorem onUdpData_keeps {i : ℕ} {x : ClientUdpChannel} {a : NetAddress}
    (hx : s.clientUdpChannelPool.get i = some x) (h : onUdpData S s i x data a = .ok t) :
    Keeps s t := by
  obtain rfl | ⟨c, s₁, c₁, u, hc, hip, hs₁, -, rfl, ht⟩ := onUdpData_eq_ok h
  · exact .of_pool rfl
  have hpool : ((keepAlive s₁ c₁).getD (s₁, c₁)).1.clientUdpChannelPool =
      s.clientUdpChannelPool.set i { x with lastClientIpAddress := a } := by
    refine (congrArg Core.clientUdpChannelPool (keepAlive_rest s₁ c₁).1).trans ?_
    rw [hs₁]
    rfl
  have hkeeps : Keeps s (((keepAlive s₁ c₁).getD (s₁, c₁)).1.store
      ((keepAlive s₁ c₁).getD (s₁, c₁)).2) :=
    .set hx (y := { x with lastClientIpAddress := a })
      ⟨rfl, rfl, rfl, .inr hip⟩ hpool
  rcases ht with rfl | ⟨server, k, j, targetAddress, payload, rfl⟩
  · exact hkeeps
  · exact hkeeps

theorem postUdpData_keeps {x : ClientUdpChannel} {a : NetAddress}
    (h : postUdpData s x a data = .ok t) : Keeps s t := by
  obtain rfl | ⟨c, hc, -, rfl | ⟨buffer, rfl⟩⟩ := postUdpData_eq_ok h
  · exact .of_pool rfl
  · exact .of_pool rfl
  · exact .of_pool rfl

/-! ## Steps -/

/-- Every UDP channel of `t` was there in `s`, or is new for a connection of `s`. -/
def Comes (P : Platform) (s t : ProxyAccessService σ) : Prop :=
  ∀ i y, t.clientUdpChannelPool.get i = some y →
    (∃ x, s.clientUdpChannelPool.get i = some x ∧ y.Follows x) ∨
      ∃ c, s.clientConnectionPool.get y.parentConnection = some c ∧ y.BoundFor P c

theorem Keeps.comes (h : Keeps s t) : Comes P s t := fun i y hy => .inl (h i y hy)

theorem Binds.comes {k : ℕ} (h : Binds P s c s') (hc : s.clientConnectionPool.get k = some c)
    (hid : c.connectionId = k) : Comes P s (s'.store c') := by
  intro i y hy
  rcases h i y hy with hy | hy
  · exact .inl ⟨y, hy, .refl y⟩
  · exact .inr ⟨c, by rw [hy.parentConnection, hid]; exact hc, hy⟩

/-- What a step does to the UDP channels. -/
theorem step_comes {e : ProxyEvent} (hs : Sound s) (h : step S P s e = .ok t) : Comes P s t := by
  have hconn {k : ℕ} {run : ClientConnection →
      Except Fault (ProxyAccessService σ × ClientConnection)}
      (hrun : ∀ c p, run c = .ok p → Binds P s c p.1) (h : s.onConnection k run = .ok t) :
      Comes P s t := by
    obtain ⟨-, rfl⟩ | ⟨c, s', c', hc, hr, rfl⟩ := onConnection_eq_ok h
    · exact Keeps.comes (.of_pool rfl)
    · exact (hrun c (s', c') hr).comes hc (hs.connectionId k c hc)
  have hudp {i : ℕ} {run : ClientUdpChannel → Except Fault (ProxyAccessService σ)}
      (hrun : ∀ x, s.clientUdpChannelPool.get i = some x → run x = .ok t → Keeps s t)
      (h : s.onUdpChannel i run = .ok t) : Comes P s t := by
    obtain ⟨-, rfl⟩ | ⟨x, hx, hr⟩ := onUdpChannel_eq_ok h
    · exact Keeps.comes (.of_pool rfl)
    · exact (hrun x hx hr).comes
  cases e with
  | onNewConnection remoteAddress localAddress initOk =>
    cases h
    refine Keeps.comes (.of_pool ?_)
    unfold onNewConnection
    dsimp only
    split
    · rfl
    · split <;> rfl
  | onPeerClose k =>
    refine hconn (fun c p hp => ?_) h
    cases hmark : c.deleteMark with
    | true =>
      simp only [onPeerClose, hmark, if_true] at hp
      cases hp
      exact .of_pool rfl
    | false =>
      obtain ⟨s₁, c₁⟩ := p
      obtain ⟨u, l, heq, -⟩ := onPeerClose_eq_ok hmark hp
      rw [heq]
      exact .of_pool rfl
  | onFlush k =>
    refine hconn (fun c p hp => ?_) h
    cases hp
    rcases onFlush_eq s c with ⟨-, heq⟩ | ⟨-, heq⟩
    all_goals rw [heq]; exact .of_pool rfl
  | onData k data =>
    obtain ⟨-, rfl⟩ | ⟨c, s', c', n, hc, hd, rfl⟩ := step_onData_eq_ok h
    · exact Keeps.comes (.of_pool rfl)
    · exact (onData_binds hd).comes hc (hs.connectionId k c hc)
  | onUdpData i data a => exact hudp (fun x hx hr => onUdpData_keeps hx hr) h
  | postData k data =>
    refine hconn (fun c p hp => ?_) h
    cases hp
    unfold postData
    split
    · exact .of_pool rfl
    · next s₁ c₁ hk =>
      obtain ⟨-, rfl, rfl⟩ := keepAlive_eq_some hk
      exact .of_pool rfl
  | postUdpData i a data => exact hudp (fun x _ hr => postUdpData_keeps hr) h
  | closeConnection k =>
    refine hconn (fun c p hp => ?_) h
    cases hp
    rcases closeConnection_eq s c with ⟨-, heq⟩ | ⟨-, -, heq⟩ | ⟨-, -, heq⟩
    all_goals rw [heq]; exact .of_pool rfl
  | setReady κ f r =>
    cases h
    refine Keeps.comes (.of_pool ?_)
    unfold setReady
    split
    · rfl
    · split <;> rfl
  | tick nowMS => exact ((tick_turns hs h).1.keeps hs).comes

end ProxyAccessService

end ProxyPlatform
