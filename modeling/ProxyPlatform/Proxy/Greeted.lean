import ProxyPlatform.Proxy.Motions
import ProxyPlatform.Proxy.Supply

/-!
# The greeting of a tunnel

A client whose data is passed on as it is has a relay connection, and was told so: this is what
`OnAcquireDeviceConnectionResult` does for it, and no other call makes `OnRawData` its data
processor.

* `ConnectionType.Establishes`: the replies, one for each type of tunnel;
* `ClientConnection.Told`: a client that has its relay connection, and its reply;
* `step_greeted`: the clients of the tunnels have both in every state that a step leads to.
-/

namespace ProxyPlatform

/-- The reply to a client of this type that its tunnel is established. -/
def ConnectionType.Establishes : ConnectionType → Bytes → Prop
  | .s5Tcp, reply => reply = ProxyAccessService.s5ConnectionEstablished
  | .httpRaw, reply => reply = ProxyAccessService.http200
  | _, _ => False

/-- The client has a relay connection, and was told so in the calls given. -/
def ClientConnection.Told (calls : List ProxyCall) (c : ClientConnection) : Prop :=
  c.relaySideConnectionId ≠ 0 ∧
    ∃ reply, c.type.Establishes reply ∧ ProxyCall.post c.connectionId .established reply ∈ calls

namespace ProxyAccessService

variable {σ : Type*} {S : Services σ} {P : Platform} {s t s' : ProxyAccessService σ}
  {c c' : ClientConnection} {data : Bytes} {Q : DeviceReference → Prop} {l : TurnLabel}

/-- The clients whose data is passed on as it is were told of their tunnels. -/
def Greeted (s : ProxyAccessService σ) : Prop :=
  ∀ k c, s.clientConnectionPool.get k = some c → c.dataProcessor = .onRawData → c.Told s.calls

theorem greeted_init (services : σ) : Greeted (init services) := fun _ _ h => by cases h

/-! ## Data -/

theorem onS5UdpTarget_dataProcessor {addrType : UInt8} {offset : ℕ} {n : Option ℕ}
    (h : onS5UdpTarget S P s c addrType offset = (s', c', n)) : c'.dataProcessor = c.dataProcessor := by
  simp only [onS5UdpTarget] at h
  repeat' split at h
  all_goals
    cases h
    rfl

/-- A request leaves its client at another data processor. -/
theorem onS5Target_dataProcessor {n : Option ℕ} (hp : c.dataProcessor = .onS5Target)
    (h : onS5Target S P s c data = .ok (s', c', n)) : c'.dataProcessor ≠ .onRawData := by
  have hne : c.dataProcessor ≠ .onRawData := by
    rw [hp]
    decide
  simp only [onS5Target] at h
  iterate 3
    split at h
    · cases h
      exact hne
  split at h
  · cases h
    exact hne
  split at h
  · repeat' split at h
    all_goals first
      | cases h; simp [post, ClientConnection.setFuture]
      | cases h
  split at h
  · rw [onS5UdpTarget_dataProcessor (Except.ok.inj h)]
    simp
  · cases h
    simp [post]

/-- No data makes `OnRawData` the data processor of its client. -/
theorem processData_raw {n : Option ℕ} (h : processData S P s c data = .ok (s', c', n))
    (hraw : c'.dataProcessor = .onRawData) : c.dataProcessor = .onRawData := by
  by_cases hlate : c.dataProcessor.IsLate
  · have hshape := processData_late hlate h
    simp only [Prod.mk.injEq] at hshape
    rw [← hshape.2.1, hraw]
  by_cases htarget : c.dataProcessor = .onS5Target
  · rw [processData, htarget] at h
    exact absurd hraw (onS5Target_dataProcessor htarget h)
  · have hsettled := processData_settled
      ⟨htarget, fun hp => hlate (.inr (.inl hp)), fun hp => hlate (.inr (.inr hp))⟩ h
    rcases hsettled.processor with hp | ⟨-, hp⟩
    · rw [← hp, hraw]
    · exact absurd hraw hp

/-! ## Results -/

/-- The data processor is that of before, or another one than `OnRawData`. -/
def KeepsProcessor (c c' : ClientConnection) : Prop :=
  c'.dataProcessor = .onRawData → c.dataProcessor = .onRawData

theorem KeepsProcessor.of_ok {x : ProxyAccessService σ × ClientConnection} (hx : KeepsProcessor c x.2)
    (h : (.ok x : Except Fault _) = .ok (s', c')) : KeepsProcessor c c' := by
  cases h
  exact hx

theorem onS5AuthResult_keeps (r : Option AuthResult) :
    KeepsProcessor c (onS5AuthResult S P s c r).2 := by
  unfold onS5AuthResult
  split
  · obtain ⟨data, hdata⟩ := sendS5AuthError_eq (P := P) s c
    rw [hdata]
    exact id
  · dsimp only
    split
    · next s₁ hs₁ =>
      obtain ⟨data, hdata⟩ := sendS5AuthError_eq (P := P) s₁ (ClientConnection.setFuture _ _ none)
      rw [hdata]
      exact id
    · exact id

theorem onHttpAuthResult_keeps (r : Option AuthResult) :
    KeepsProcessor c (onHttpAuthResult S P s c r).2 := by
  unfold onHttpAuthResult
  split
  · exact id
  · dsimp only
    split
    · exact id
    · exact id

theorem onS5AcquireDeviceResult_keeps (r : Option DeviceReference) :
    KeepsProcessor c (onS5AcquireDeviceResult P s c r).2 := by
  unfold onS5AcquireDeviceResult
  split
  · obtain ⟨data, hdata⟩ := sendS5AuthError_eq (P := P) s c
    rw [hdata]
    exact id
  · next result =>
    obtain ⟨data, hdata⟩ := sendS5AuthAccepted_eq (P := P) s
      { c with deviceReference := result, dataProcessor := .onS5Target }
    rw [hdata]
    exact fun h => by cases h

theorem onHttpAcquireDeviceResult_keeps (r : Option DeviceReference) :
    KeepsProcessor c (onHttpAcquireDeviceResult S P s c r).2 := by
  unfold onHttpAcquireDeviceResult
  split
  · exact id
  · dsimp only
    split
    · exact id
    · exact id

theorem onHttpNormalAcquireDeviceConnectionResult_keeps (r : Option ℕ) :
    KeepsProcessor c (onHttpNormalAcquireDeviceConnectionResult S P s c r).2 := by
  unfold onHttpNormalAcquireDeviceConnectionResult
  split
  · exact id
  · exact id

theorem onUdpChannelResult_keeps {r : Option ℕ} (h : onUdpChannelResult P s c r = .ok (s', c')) :
    KeepsProcessor c c' := by
  unfold onUdpChannelResult at h
  split at h
  · exact KeepsProcessor.of_ok (x := post P s c .reply _) id h
  split at h
  · cases h
  split at h
  · cases h
  · refine KeepsProcessor.of_ok ?_ h
    unfold keepAlive
    split
    · exact id
    · exact id

/-- What a result that is taken up leaves of its client, which is told if it is a tunnel from now
    on. -/
structure Tells (Q : DeviceReference → Prop) (s : ProxyAccessService σ) (c : ClientConnection)
    (s' : ProxyAccessService σ) (c' : ClientConnection) : Prop extends Equips Q s c s' c' where
  told : c'.dataProcessor = .onRawData → c.dataProcessor = .onRawData ∨ c'.Told s'.calls

theorem Equips.tells {x : ProxyAccessService σ × ClientConnection} (h : Equips Q s c x.1 x.2)
    (hx : KeepsProcessor c x.2) (hok : (.ok x : Except Fault _) = .ok (s', c')) :
    Tells Q s c s' c' :=
  ⟨h.of_ok hok, fun hp => .inl (hx.of_ok hok hp)⟩

/-- A relay connection that is taken up for a tunnel is told to the client. -/
theorem onTunnelResult_tells {k : ℕ} {reply : Bytes} (hk : k ≠ 0) (hreply : c.type.Establishes reply)
    (h : (.ok (post P s { c with relaySideConnectionId := k, dataProcessor := .onRawData } .established
      reply) : Except Fault _) = .ok (s', c')) : Tells Q s c s' c' := by
  refine ⟨(onTunnelResult_equips k reply).of_ok h, fun _ => .inr ?_⟩
  cases h
  exact ⟨hk, reply, hreply, List.mem_append_right _ (List.mem_singleton_self _)⟩

/-- A result that is taken up leaves its client at its data processor, or tells it of its tunnel. -/
theorem onReady_tells {κ : FutureKind} {f : ℕ}
    (hresults : (s.futureManager κ).Results (κ.Supplied Q)) (h : onReady S P κ s f = .ok t) :
    ∃ k c s' c', s.clientConnectionPool.get k = some c ∧ Tells Q s c s' c' ∧ t = s'.store c' := by
  have hrelease {κ : FutureKind} {m : FuturePoolManager ℕ κ.Result} {s' : ProxyAccessService σ}
      {c c' : ClientConnection} (h : Tells Q s c s' c') :
      Tells Q s c (s'.setFutureManager κ m) (c'.setFuture κ none) := ⟨h.toEquips.release, h.told⟩
  have hrefl {s' : ProxyAccessService σ} {c c' : ClientConnection}
      (h : (.ok (s, c) : Except Fault _) = .ok (s', c')) : Tells Q s c s' c' :=
    Equips.tells (x := (s, c)) (.refl s c) id h
  cases κ with
  | auth =>
    unfold onReady onAuthResult at h
    obtain ⟨future, c, s', c', g, -, hc, hp, -, rfl⟩ := onResult_eq_ok h
    have htells : Tells Q s c s' c' := by
      split at hp
      · exact (onS5AuthResult_equips _).tells (onS5AuthResult_keeps _) hp
      · exact (onHttpAuthResult_equips _).tells (onHttpAuthResult_keeps _) hp
      · exact (onHttpAuthResult_equips _).tells (onHttpAuthResult_keeps _) hp
      all_goals exact hrefl hp
    exact ⟨_, c, _, _, hc, hrelease htells, rfl⟩
  | acquireDevice =>
    unfold onReady onAcquireDeviceResult at h
    obtain ⟨future, c, s', c', g, hf, hc, hp, -, rfl⟩ := onResult_eq_ok h
    have hr : ∀ d, future.result = some d → Q d := hresults f future hf
    have htells : Tells Q s c s' c' := by
      split at hp
      · exact (onS5AcquireDeviceResult_equips hr).tells (onS5AcquireDeviceResult_keeps _) hp
      · exact (onHttpAcquireDeviceResult_equips hr).tells (onHttpAcquireDeviceResult_keeps _) hp
      · exact (onHttpAcquireDeviceResult_equips hr).tells (onHttpAcquireDeviceResult_keeps _) hp
      all_goals exact hrefl hp
    exact ⟨_, c, _, _, hc, hrelease htells, rfl⟩
  | acquireDeviceConnection =>
    unfold onReady onAcquireDeviceConnectionResult at h
    obtain ⟨future, c, s', c', g, hf, hc, hp, -, rfl⟩ := onResult_eq_ok h
    have hr : ∀ result, future.result = some result → result ≠ 0 := hresults f future hf
    have htells : Tells Q s c s' c' := by
      split at hp
      · next htype =>
        unfold onS5AcquireDeviceConnectionResult at hp
        split at hp
        · exact ((Equips.refl s c).post .reply _).tells id hp
        · next hresult => exact onTunnelResult_tells (hr _ hresult) (by rw [htype]; rfl) hp
      · next htype =>
        unfold onHttpRawAcquireDeviceConnectionResult at hp
        split at hp
        · exact ((Equips.refl s c).post .reply _).tells id hp
        · next hresult => exact onTunnelResult_tells (hr _ hresult) (by rw [htype]; rfl) hp
      · exact (onHttpNormalAcquireDeviceConnectionResult_equips hr).tells
          (onHttpNormalAcquireDeviceConnectionResult_keeps _) hp
      all_goals exact hrefl hp
    exact ⟨_, c, _, _, hc, hrelease htells, rfl⟩
  | acquireDeviceUdpChannel =>
    unfold onReady onAcquireDeviceUdpChannelResult at h
    obtain ⟨future, c, s', c', g, -, hc, hp, -, rfl⟩ := onResult_eq_ok h
    have htells : Tells Q s c s' c' :=
      ⟨onUdpChannelResult_equips hp, fun hraw => .inl (onUdpChannelResult_keeps hp hraw)⟩
    exact ⟨_, c, _, _, hc, hrelease htells, rfl⟩

/-! ## Turns -/

variable {x : Core σ} {taken : Option ((κ : FutureKind) × Option κ.Result)}

theorem Talk.calls_grow (h : Talk s t) : s.calls <+: t.calls := by
  obtain ⟨l, hl, -⟩ := h
  rw [hl]
  exact List.prefix_append _ _

/-- What was called stays so. -/
theorem Act.calls_grow (h : Act S s c s' x taken) : s.calls <+: s'.calls := by
  cases h with
  | quiet _ _ htalk | grant _ _ _ htalk | connect _ _ _ _ _ _ _ _ _ _ _ _ _ htalk
  | unbound _ _ _ _ _ htalk | bind _ _ _ _ _ _ _ _ htalk
  | associate _ _ _ _ _ _ _ _ _ _ _ _ _ _ _ _ _ htalk | channelReady _ _ _ _ _ _ _ htalk =>
    exact htalk.calls_grow
  | locate _ _ _ _ _ _ _ _ _ _ _ hcalls =>
    rw [hcalls]
  | authenticate _ _ _ _ _ _ _ _ _ _ hcalls | establish _ _ _ _ hcalls
  | establishNormal _ _ _ _ _ _ hcalls | forward _ _ _ hcalls _ =>
    rw [hcalls]
    exact List.prefix_append _ _

theorem Turn.calls_grow (h : Turn S s l t) : s.calls <+: t.calls := by
  cases h with
  | clock | accept | refuse | expire => exact List.prefix_rfl
  | call k c s' c' hc heffect => exact heffect.act.calls_grow
  | result κ f m future c s' c' hpop hf hc hcf heffect => exact heffect.act.calls_grow
  | touch k c s' c' l hc hframe hcore hshape hudp hcalls =>
    change s.calls <+: s'.calls
    rw [hcalls]
    exact List.prefix_append _ _
  | forwardUdp => exact List.prefix_append _ _
  | peerClose k c s' c' hc hmark h =>
    obtain ⟨u, l, heq, -⟩ := onPeerClose_eq_ok hmark h
    cases heq
    exact List.prefix_append _ _
  | flush k c hc =>
    rcases onFlush_eq s c with ⟨-, heq⟩ | ⟨-, heq⟩
    all_goals
      rw [heq]
      exact List.prefix_rfl
  | close k c hc =>
    rcases closeConnection_eq s c with ⟨-, heq⟩ | ⟨-, -, heq⟩ | ⟨-, -, heq⟩
    all_goals
      rw [heq]
      exact List.prefix_rfl
  | ready κ f r =>
    unfold setReady
    split
    · exact List.prefix_rfl
    · split <;> exact List.prefix_rfl
  | destroy k lists c t hpop hc hready h =>
    obtain ⟨-, -, -, -, -, -, ⟨-, -, hcalls⟩ | ⟨-, -, hcalls⟩⟩ := destroyConnection_eq_ok h
    · rw [hcalls]
    · rw [hcalls]
      exact List.prefix_append _ _

/-- A relay connection is taken up once. -/
theorem Act.relay_of_ne_zero (h : Act S s c s' x taken) (hrelay : c.relaySideConnectionId ≠ 0) :
    x.relaySideConnectionId = c.relaySideConnectionId := by
  cases h with
  | quiet _ hcore | grant _ _ hcore | unbound _ _ _ _ hcore | bind _ _ _ _ _ _ _ hcore
  | channelReady _ _ _ _ _ _ hcore | forward _ _ hcore | authenticate _ _ _ _ _ _ _ _ _ hcore
  | locate _ _ _ _ _ _ _ _ _ _ hcore | connect _ _ _ _ _ _ _ _ _ _ _ _ hcore
  | associate _ _ _ _ _ _ _ _ _ _ _ _ _ _ _ _ hcore =>
    rw [hcore]
    rfl
  | establish _ _ hzero | establishNormal _ _ _ hzero => exact absurd hzero hrelay

/-- `d'` is of the type of `d`, once it is known what `d` is for, and keeps its relay connection. -/
structure StaysTunnel (d d' : ClientConnection) : Prop where
  type : d.type ≠ .undetermined → d.type ≠ .s5Challenge → d'.type = d.type
  relaySideConnectionId : d.relaySideConnectionId ≠ 0 →
    d'.relaySideConnectionId = d.relaySideConnectionId

theorem StaysTunnel.of_eq {d d' : ClientConnection} (htype : d'.type = d.type)
    (hrelay : d'.relaySideConnectionId = d.relaySideConnectionId) : StaysTunnel d d' :=
  ⟨fun _ _ => htype, fun _ => hrelay⟩

/-- A client has just connected, or was there before. A tunnel stays of its type, with its relay
    connection. -/
theorem Turn.comes (h : Turn S s l t) (hs : Sound s) {k : ℕ} {d' : ClientConnection}
    (hd' : t.clientConnectionPool.get k = some d') :
    s.clientConnectionPool.get k = none ∧ d'.dataProcessor = .onGuessProxyType ∨
      ∃ d, s.clientConnectionPool.get k = some d ∧ StaysTunnel d d' := by
  have hsame (hd : s.clientConnectionPool.get k = some d') :
      s.clientConnectionPool.get k = none ∧ d'.dataProcessor = .onGuessProxyType ∨
        ∃ d, s.clientConnectionPool.get k = some d ∧ StaysTunnel d d' :=
    .inr ⟨d', hd, .of_eq rfl rfl⟩
  have hstore {i : ℕ} {s' : ProxyAccessService σ} {c c' : ClientConnection}
      (hd' : (s'.store c').clientConnectionPool.get k = some d')
      (hpool : s'.clientConnectionPool = s.clientConnectionPool)
      (hc : s.clientConnectionPool.get i = some c) (hid : c'.connectionId = i)
      (h : StaysTunnel c c') :
      s.clientConnectionPool.get k = none ∧ d'.dataProcessor = .onGuessProxyType ∨
        ∃ d, s.clientConnectionPool.get k = some d ∧ StaysTunnel d d' := by
    rw [get_store_of_pool hpool hc hid] at hd'
    split at hd'
    · next hki =>
      cases hd'
      exact .inr ⟨c, hki ▸ hc, h⟩
    · exact hsame hd'
  have heffect {s₀ s' : ProxyAccessService σ} {c c' : ClientConnection}
      {taken : Option ((κ : FutureKind) × Option κ.Result)} (h : Effect S taken s₀ c s' c') :
      StaysTunnel c c' := by
    refine ⟨fun hundetermined hchallenge => ?_, h.act.relay_of_ne_zero⟩
    exact (h.type.resolve_left hundetermined).resolve_left hchallenge
  cases h with
  | clock | forwardUdp | expire => exact hsame hd'
  | accept remoteAddress localAddress i p hacquire =>
    change p.get k = some d' at hd'
    rw [Storage.get_acquire hacquire] at hd'
    split at hd'
    · next hki =>
      cases hd'
      exact .inl ⟨hki ▸ Storage.get_of_acquire hacquire, rfl⟩
    · exact hsame hd'
  | refuse y i p hacquire =>
    change (p.release i).get k = some d' at hd'
    rw [Storage.get_release] at hd'
    split at hd'
    · cases hd'
    · next hki =>
      rw [Storage.get_acquire hacquire, if_neg hki] at hd'
      exact hsame hd'
  | call i c s' c' hc h =>
    exact hstore hd' h.clientConnectionPool hc (h.connectionId.trans (hs.connectionId i c hc)) (heffect h)
  | result κ f m future c s' c' hpop hf hc hcf h =>
    have hstays := heffect h
    exact hstore hd' h.clientConnectionPool hc (h.connectionId.trans (hs.connectionId _ c hc))
      ⟨hstays.type, hstays.relaySideConnectionId⟩
  | touch i c s' c' l hc hframe hcore hshape =>
    refine hstore hd' hframe.clientConnectionPool hc (hframe.connectionId.trans (hs.connectionId i c hc)) ?_
    exact .of_eq (congrArg Prod.fst hshape) (congrArg Core.relaySideConnectionId hcore)
  | peerClose i c s' c' hc hmark h =>
    obtain ⟨u, l, heq, -⟩ := onPeerClose_eq_ok hmark h
    cases heq
    exact hstore hd' rfl hc (hs.connectionId i c hc) (.of_eq rfl rfl)
  | flush i c hc =>
    rcases onFlush_eq s c with ⟨-, heq⟩ | ⟨-, heq⟩
    all_goals
      rw [heq] at hd'
      exact hstore hd' rfl hc (hs.connectionId i c hc) (.of_eq rfl rfl)
  | close i c hc =>
    rcases closeConnection_eq s c with ⟨-, heq⟩ | ⟨-, -, heq⟩ | ⟨-, -, heq⟩
    all_goals
      rw [heq] at hd'
      exact hstore hd' rfl hc (hs.connectionId i c hc) (.of_eq rfl rfl)
  | ready κ f r =>
    rw [(setReady_leaves s κ f r).1] at hd'
    exact hsame hd'
  | destroy i lists c t hpop hc hready h =>
    rw [(destroyConnection_eq_ok h).1, Storage.get_release] at hd'
    split at hd'
    · cases hd'
    · exact hsame hd'

/-- The type of a client whose data is passed on as it is. -/
theorem type_of_raw {g : Stage} (h : AtStage c g) (hp : c.dataProcessor = .onRawData) :
    c.type = .s5Tcp ∨ c.type = .httpRaw := by
  have hshape := h.shape
  cases g <;> simp [Stage.Shape, hp] at hshape
  exact hshape

/-- A turn that makes `OnRawData` the data processor of those clients only that it tells. -/
theorem Turn.greeted (h : Turn S s l t) (hs : Sound s) (hg : Greeted s)
    (hraw : ∀ k c d, s.clientConnectionPool.get k = some c → t.clientConnectionPool.get k = some d →
      d.dataProcessor = .onRawData → c.dataProcessor = .onRawData ∨ d.Told t.calls) : Greeted t := by
  intro k d hd hp
  rcases h.comes hs hd with ⟨-, hguess⟩ | ⟨c, hc, hstays⟩
  · rw [hguess] at hp
    cases hp
  rcases hraw k c d hc hd hp with hcp | htold
  · obtain ⟨hrelay, reply, hreply, hmem⟩ := hg k c hc hcp
    obtain ⟨g, hstage⟩ := hs.stage k c hc
    have htype : c.type ≠ .undetermined ∧ c.type ≠ .s5Challenge := by
      rcases type_of_raw hstage hcp with htype | htype <;> simp [htype]
    have htype' := hstays.type htype.1 htype.2
    have hrelay' := hstays.relaySideConnectionId hrelay
    have hid : d.connectionId = c.connectionId :=
      ((h.sound hs).connectionId k d hd).trans (hs.connectionId k c hc).symm
    exact ⟨hrelay' ▸ hrelay, reply, htype' ▸ hreply, hid ▸ h.calls_grow.subset hmem⟩
  · exact htold

/-- Turns that are neither calls nor results. -/
theorem Turns.greeted {L : TurnLabel → Prop} (h : Turns S L s t)
    (hL : ∀ l, L l → (∀ k, l ≠ .call k) ∧ ∀ κ, l ≠ .result κ) (hs : Sound s) (hg : Greeted s) :
    Greeted t := by
  refine h.invariant (fun u l v hl hu hg hturn => hturn.greeted hu hg fun k c d hc hd hp => .inl ?_) hs hg
  have hshape := hturn.shape hu (hL l hl).1 (hL l hl).2 hc hd
  rw [← hp, ← show d.dataProcessor = c.dataProcessor from congrArg Prod.snd hshape]

/-! ## Steps -/

/-- The loop over the ready futures of a kind. -/
theorem processReadyFutures_greeted {κ : FutureKind} {n : ℕ} (hS : S.Supplies Q) (hs : Sound s)
    (hresults : ∀ κ, (s.futureManager κ).Results (κ.Supplied Q)) (hg : Greeted s)
    (h : processReadyFutures κ (onReady S P κ) n s = .ok t) :
    Sound t ∧ (∀ κ, (t.futureManager κ).Results (κ.Supplied Q)) ∧ Greeted t := by
  induction n generalizing s with
  | zero =>
    obtain ⟨-, rfl⟩ | ⟨_, _, _, _, hn, -⟩ := processReadyFutures_eq_ok h
    · exact ⟨hs, hresults, hg⟩
    · cases hn
  | succ n ih =>
    obtain ⟨-, rfl⟩ | ⟨f, m, i, u, hn, hpop, hu, h⟩ := processReadyFutures_eq_ok h
    · exact ⟨hs, hresults, hg⟩
    cases hn
    have hturn := (onReady_motion hs hpop hu).turn
    have hpopped := results_update hresults ((hresults κ).popHead hpop)
    obtain ⟨k, c, s', c', hc, htells, rfl⟩ := onReady_tells (hpopped κ) hu
    refine ih (hturn.sound hs) (hturn.results hS (by simp) hresults)
      (hturn.greeted hs hg fun j d d' hd hd' hp => ?_) h
    have hid : c'.connectionId = k := htells.connectionId.trans (hs.connectionId k c hc)
    rw [get_store_of_pool (s := s) htells.clientConnectionPool hc hid] at hd'
    split at hd'
    · next hjk =>
      rw [hjk, show s.clientConnectionPool.get k = some c from hc] at hd
      cases hd
      cases hd'
      exact htells.told hp
    · rw [hd] at hd'
      cases hd'
      exact .inl hp

/-- What is told when the results of a tick are taken up. -/
theorem processResults_greeted (hS : S.Supplies Q) (hs : Sound s)
    (hresults : ∀ κ, (s.futureManager κ).Results (κ.Supplied Q)) (hg : Greeted s)
    (h : processResults S P s = .ok t) : Greeted t := by
  obtain ⟨s₁, h₁, h⟩ := bind_eq_ok.1 h
  obtain ⟨s₂, h₂, h⟩ := bind_eq_ok.1 h
  obtain ⟨s₃, h₃, h₄⟩ := bind_eq_ok.1 h
  have hloop {κ : FutureKind} {s t : ProxyAccessService σ} (hs : Sound s)
      (hresults : ∀ κ, (s.futureManager κ).Results (κ.Supplied Q)) (hg : Greeted s)
      (h : processReady κ (onReady S P κ) s = .ok t) :
      Sound t ∧ (∀ κ, (t.futureManager κ).Results (κ.Supplied Q)) ∧ Greeted t :=
    processReadyFutures_greeted hS hs hresults hg h
  obtain ⟨hs₁, hr₁, hg₁⟩ := hloop hs hresults hg h₁
  obtain ⟨hs₂, hr₂, hg₂⟩ := hloop hs₁ hr₁ hg₁ h₂
  obtain ⟨hs₃, hr₃, hg₃⟩ := hloop hs₂ hr₂ hg₂ h₃
  exact (hloop hs₃ hr₃ hg₃ h₄).2.2

theorem tick_greeted {nowMS : ℕ} (hS : S.Supplies Q) (hs : Sound s) (hsupplied : Supplied Q s)
    (hg : Greeted s) (h : tick S P s nowMS = .ok t) : Greeted t := by
  unfold tick at h
  obtain ⟨s₁, h₁, h₂⟩ := bind_eq_ok.1 h
  have hclock : Turn S s .clock { s with localTicker := nowMS } := .clock nowMS s.audit
  have hs₀ := hclock.sound hs
  obtain ⟨hresults, hready⟩ := processResults_turns hs₀ h₁
  have hs₁ := hresults.sound hs₀
  have hg₁ : Greeted s₁ := processResults_greeted hS hs₀ (by exact hsupplied.results) (by exact hg) h₁
  have hpass := deferKillTimeouts_turns (S := S) s₁
  have hs₂ := hpass.sound hs₁
  have hg₂ : Greeted (deferKillTimeouts s₁) :=
    hpass.greeted (by rintro l (rfl | ⟨m, rfl⟩) <;> simp) hs₁ hg₁
  exact (executeKillConnections_turns _ hs₂ hready h₂).1.greeted (by rintro l ⟨k, rfl⟩; simp) hs₂ hg₂

/-- The clients of the tunnels stay told in a step. -/
theorem step_greeted {e : ProxyEvent} (hS : S.Supplies Q) (hs : Sound s) (hsupplied : Supplied Q s)
    (hg : Greeted s) (h : step S P s e = .ok t) : Greeted t := by
  have hturns (hL : ∀ l, e.Allows l → (∀ k, l ≠ .call k) ∧ ∀ κ, l ≠ .result κ) : Greeted t :=
    (step_turns hs h).greeted hL hs hg
  cases e with
  | tick nowMS => exact tick_greeted hS hs hsupplied hg h
  | onData k data =>
    obtain ⟨-, rfl⟩ | ⟨c, s', c', n, hc, hd, rfl⟩ := step_onData_eq_ok h
    · exact hg
    have hturn := (onData_motion hs hc hd).turn
    refine hturn.greeted hs hg fun j d d' hdj hd' hp => .inl ?_
    obtain ⟨g, hg⟩ := hs.stage k c hc
    have hframe := (onData_spec hg hd).1
    rw [get_store_of_pool hframe.clientConnectionPool hc
      (hframe.connectionId.trans (hs.connectionId k c hc))] at hd'
    split at hd'
    · next hjk =>
      rw [hjk, hc] at hdj
      cases hdj
      cases hd'
      obtain ⟨c₂, total, hprocess, rfl⟩ := onData_eq_ok hd
      exact processData_raw hprocess hp
    · rw [hdj] at hd'
      cases hd'
      exact hp
  | onPeerClose k => exact hturns (by rintro l (rfl | rfl) <;> simp)
  | onUdpData u data a => exact hturns (by rintro l (rfl | ⟨k, rfl⟩) <;> simp)
  | postUdpData u a data => exact hturns (by rintro l ⟨k, rfl⟩; simp)
  | onNewConnection | onFlush | postData | closeConnection | setReady =>
    exact hturns (by rintro l rfl; simp)

end ProxyAccessService

end ProxyPlatform
