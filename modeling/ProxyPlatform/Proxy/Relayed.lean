import ProxyPlatform.Proxy.Body
import ProxyPlatform.Proxy.Greeted

/-!
# What goes through the proxy

The relay gets data of a client in two ways: the client sends it, when it knows its relay
connection, or the request that was kept for it goes out once the relay connection is there. A
client gets data of the relay in one way, a call of `PostData`.

* `Services.Spares`: what no call of the services but `PostData` changes;
* `Turn.relays`: a turn gives the relay nothing, or data of one client for the connection it knows;
* `processData_relayed`: the data of a tunnel is given to the relay as it is;
* `handed`: what a client was sent of the relay, in order;
* `step_handed`: the events that send it nothing.
-/

namespace ProxyPlatform

/-- The view `V` of the state of the services is that of before after every call but `PostData`. -/
structure Services.Spares {σ γ : Type*} (S : Services σ) (V : σ → γ) : Prop where
  acquireAuthInfo : ∀ s accountPassView t result,
    S.acquireAuthInfo s accountPassView = .ok (t, result) → V t = V s
  releaseAuthInfo : ∀ s localAuthId usage t,
    S.releaseAuthInfo s localAuthId usage = .ok t → V t = V s
  acquireDevice : ∀ s request f, V (S.acquireDevice s request f).1 = V s
  createConnection : ∀ s relayServerId deviceId k target f,
    V (S.createConnection s relayServerId deviceId k target f).1 = V s
  createUdpChannel : ∀ s relayServerId deviceId u f,
    V (S.createUdpChannel s relayServerId deviceId u f).1 = V s
  postUdpData : ∀ s relayServerId u a data, V (S.postUdpData s relayServerId u a data) = V s
  destroyConnection : ∀ s relayServerId k, V (S.destroyConnection s relayServerId k) = V s
  destroyUdpChannel : ∀ s relayServerId u, V (S.destroyUdpChannel s relayServerId u) = V s

namespace ProxyAccessService

variable {σ γ : Type*} {S : Services σ} {P : Platform} {V : σ → γ} {s t s' : ProxyAccessService σ}
  {c c' : ClientConnection} {x : Core σ} {taken : Option ((κ : FutureKind) × Option κ.Result)}
  {l : TurnLabel}

/-- The relay is given nothing. -/
def Silent (V : σ → γ) (s : ProxyAccessService σ) (services : σ) (calls : List ProxyCall) : Prop :=
  V services = V s.services ∧ ∀ i, relayed i calls = relayed i s.calls

/-- The relay is given data of the client `i` for the connection `k`. -/
def Gives (S : Services σ) (s : ProxyAccessService σ) (i k : ℕ) (services : σ)
    (calls : List ProxyCall) : Prop :=
  ∃ relayServerId data, services = S.postData s.services relayServerId k data ∧
    ∀ j, relayed j calls = relayed j s.calls ++ if j = i then data else []

theorem relayed_relayPostData (i j k : ℕ) (data : Bytes) (calls : List ProxyCall) :
    relayed j (calls ++ [.relayPostData i k data]) = relayed j calls ++ if j = i then data else [] := by
  rw [relayed_append]
  simp [relayed, eq_comm]

/-- A call on a client gives the relay nothing, or what is for the connection that the client knows
    then. -/
theorem Act.relays (hV : S.Spares V) (h : Act S s c s' x taken) : Silent V s x.services s'.calls ∨
    Gives S s c.connectionId x.relaySideConnectionId x.services s'.calls ∧
      (taken = none ∧ c.deleteMark = false ∧ x.relaySideConnectionId = c.relaySideConnectionId ∨
        c.type = .httpNormal ∧
          taken = some ⟨.acquireDeviceConnection, some x.relaySideConnectionId⟩) := by
  have hsame {services : σ} (h : V services = V s.services) (htalk : Talk s s') :
      Silent V s services s'.calls := ⟨h, fun i => htalk.relayed i⟩
  cases h with
  | quiet _ hcore htalk | grant _ _ hcore htalk | unbound _ _ _ _ hcore htalk
  | bind _ _ _ _ _ _ _ hcore htalk | channelReady _ _ _ _ _ _ hcore htalk =>
    rw [hcore]
    exact .inl (hsame rfl htalk)
  | authenticate f m key u r _ hauth _ _ hcore hcalls =>
    rw [hcore, hcalls]
    refine .inl ⟨hV.acquireAuthInfo _ _ _ _ hauth, fun i => ?_⟩
    rw [relayed_append]
    exact List.append_nil _
  | locate r f m request u z _ hdevice _ _ hcore hcalls =>
    rw [hcore, hcalls]
    refine .inl ⟨?_, fun _ => rfl⟩
    have hu := hV.acquireDevice s.services request f
    rwa [hdevice] at hu
  | connect f m relayServerId deviceId target u z _ _ hcreate _ _ hcore htalk =>
    rw [hcore]
    refine .inl (hsame ?_ htalk)
    have hu := hV.createConnection s.services relayServerId deviceId c.connectionId target f
    rwa [hcreate] at hu
  | associate v p udpChannel f m relayServerId deviceId u z _ _ _ _ _ hcreate _ hcore htalk =>
    rw [hcore]
    refine .inl (hsame ?_ htalk)
    have hu := hV.createUdpChannel s.services relayServerId deviceId v f
    rwa [hcreate] at hu
  | establish k reply hrelay hcore hcalls =>
    rw [hcore, hcalls]
    refine .inl ⟨rfl, fun i => ?_⟩
    rw [relayed_append]
    exact List.append_nil _
  | establishNormal k relayServerId data hrelay htype hcore hcalls =>
    rw [hcore, hcalls]
    exact .inr ⟨⟨relayServerId, data, rfl, fun j => relayed_relayPostData _ j k data _⟩,
      .inr ⟨htype, rfl⟩⟩
  | forward relayServerId data hcore hcalls hmark =>
    rw [hcore, hcalls]
    exact .inr ⟨⟨relayServerId, data, rfl, fun j => relayed_relayPostData _ j _ data _⟩,
      .inl ⟨rfl, hmark, rfl⟩⟩

/-- A turn gives the relay nothing, or data of a client for the connection that the client knows
    then: data that the client sends, or the request that was kept for it. -/
theorem Turn.relays (hV : S.Spares V) (h : Turn S s l t) (hs : Sound s) :
    Silent V s t.services t.calls ∨
      ∃ i c c', s.clientConnectionPool.get i = some c ∧ t.clientConnectionPool.get i = some c' ∧
        c'.deleteMark = c.deleteMark ∧ Gives S s i c'.relaySideConnectionId t.services t.calls ∧
        (l = .call i ∧ c.deleteMark = false ∧
            c'.relaySideConnectionId = c.relaySideConnectionId ∨
          c.type = .httpNormal ∧ l = .result .acquireDeviceConnection ∧ ∃ f future,
            (s.futureManager .acquireDeviceConnection).get f = some future ∧
              future.result = some c'.relaySideConnectionId) := by
  have hquiet {services : σ} {calls : List ProxyCall} (hv : V services = V s.services)
      (hcalls : ∀ i, relayed i calls = relayed i s.calls) : Silent V s services calls := ⟨hv, hcalls⟩
  have hcall (y : ProxyCall) (hy : ∀ i, relayed i [y] = []) (i : ℕ) :
      relayed i (s.calls ++ [y]) = relayed i s.calls := by
    rw [relayed_append, hy, List.append_nil]
  cases h with
  | clock | accept | refuse | expire => exact .inl (hquiet rfl fun _ => rfl)
  | call k c s' c' hc heffect =>
    refine (heffect.act.relays hV).imp id ?_
    rintro ⟨hgives, ⟨-, hmark, hrelay⟩ | ⟨-, htaken⟩⟩
    · have hid := hs.connectionId k c hc
      have hc' : (s'.store c').clientConnectionPool.get k = some c' := by
        rw [get_store_of_pool heffect.clientConnectionPool hc (heffect.connectionId.trans hid), if_pos rfl]
      rw [hid] at hgives
      exact ⟨k, c, c', hc, hc', heffect.deleteMark, hgives, .inl ⟨rfl, hmark, hrelay⟩⟩
    · cases htaken
  | result κ f m future c s' c' hpop hf hc hcf heffect =>
    refine (heffect.act.relays hV).imp id ?_
    rintro ⟨hgives, ⟨htaken, -⟩ | ⟨htype, htaken⟩⟩
    · cases htaken
    · obtain rfl : κ = .acquireDeviceConnection := congrArg Sigma.fst (Option.some.inj htaken)
      have hid := hs.connectionId _ c hc
      have hpool : s'.clientConnectionPool = s.clientConnectionPool := heffect.clientConnectionPool
      have hid' : (c'.setFuture .acquireDeviceConnection none).connectionId = future.context :=
        heffect.connectionId.trans hid
      have hget := get_store_of_pool hpool hc hid' future.context
      refine ⟨future.context, c, c'.setFuture .acquireDeviceConnection none, hc, ?_, heffect.deleteMark,
        hid ▸ hgives, .inr ⟨htype, rfl, f, future, hf, ?_⟩⟩
      · rwa [if_pos rfl] at hget
      · exact eq_of_heq (Sigma.mk.inj (Option.some.inj htaken)).2
  | touch k c s' c' y hc hframe hcore hshape hudp hcalls hdelivery =>
    refine .inl (hquiet (congrArg V (congrArg Core.services hcore)) fun i => ?_)
    change relayed i s'.calls = _
    rw [hcalls, relayed_append, List.append_right_eq_self]
    refine List.flatMap_eq_nil_iff.2 fun z hz => ?_
    have hz := hdelivery z hz
    cases z <;> first | rfl | cases hz
  | forwardUdp k a u b data =>
    exact .inl (hquiet (hV.postUdpData _ _ _ _ _) (hcall _ fun _ => rfl))
  | peerClose k c s' c' hc hmark h =>
    obtain ⟨u, l, heq, hu⟩ := onPeerClose_eq_ok hmark h
    cases heq
    rcases hu with ⟨-, rfl, rfl⟩ | ⟨-, i, z, -, -, -, rfl, rfl⟩ | ⟨-, -, rfl, rfl⟩
    · exact .inl (hquiet (hV.destroyConnection _ _ _) (hcall _ fun _ => rfl))
    · exact .inl (hquiet (hV.destroyUdpChannel _ _ _) (hcall _ fun _ => rfl))
    · refine .inl (hquiet rfl fun i => ?_)
      change relayed i (s.calls ++ []) = _
      rw [List.append_nil]
  | flush k c hc =>
    rcases onFlush_eq s c with ⟨-, heq⟩ | ⟨-, heq⟩
    all_goals
      rw [heq]
      exact .inl (hquiet rfl fun _ => rfl)
  | close k c hc =>
    rcases closeConnection_eq s c with ⟨-, heq⟩ | ⟨-, -, heq⟩ | ⟨-, -, heq⟩
    all_goals
      rw [heq]
      exact .inl (hquiet rfl fun _ => rfl)
  | ready κ f r =>
    unfold setReady
    split
    · exact .inl (hquiet rfl fun _ => rfl)
    · split <;> exact .inl (hquiet rfl fun _ => rfl)
  | destroy k lists c t hpop hc hready h =>
    obtain ⟨-, -, -, -, -, -, ⟨-, heq, hcalls⟩ | ⟨-, heq, hcalls⟩⟩ := destroyConnection_eq_ok h
    · exact .inl (hquiet (congrArg V heq) fun _ => by rw [hcalls])
    · refine .inl (hquiet (hV.releaseAuthInfo _ _ _ _ heq) fun i => ?_)
      rw [hcalls]
      exact hcall _ (fun _ => rfl) i

/-- The data of a client without a request of its own goes to the relay when the client is an unmarked
    tunnel. -/
theorem processData_relayed {g : Stage} {data : Bytes} {n : Option ℕ} (hg : AtStage c g)
    (htype : c.type ≠ .httpNormal)
    (hkept : c.dataProcessor = .onHttpBody → c.relaySideConnectionId = 0 → c.http.content ≠ [])
    (h : processData S P s c data = .ok (s', c', n)) (k : ℕ) :
    relayed k s'.calls = relayed k s.calls ++
      if c.connectionId = k ∧ c.dataProcessor = .onRawData ∧ c.deleteMark = false then data else [] := by
  have hshape := hg.shape
  by_cases hraw : c.dataProcessor = .onRawData
  · rw [processData, hraw] at h
    rcases onRawData_eq S s c data with ⟨hmark, heq⟩ | ⟨hmark, heq⟩
    · rw [heq] at h
      cases h
      rw [if_neg (by simp [hmark]), List.append_nil]
    · rw [heq] at h
      cases h
      refine (relayed_relayPostData _ k _ data _).trans ?_
      simp only [hraw, hmark, and_true, eq_comm]
      rfl
  rw [if_neg (by simp [hraw]), List.append_nil]
  by_cases hbody : c.dataProcessor = .onHttpBody
  · by_cases hk : c.relaySideConnectionId = 0
    · -- The body is kept behind the header.
      rw [processData, hbody] at h
      rcases onHttpBody_eq S s c data with ⟨-, heq⟩ | ⟨-, -, heq⟩ | ⟨-, hempty, -⟩
      · rw [heq] at h
        cases h
        rfl
      · rw [heq] at h
        cases h
        rfl
      · exact absurd hempty (hkept hbody hk)
    · obtain rfl : g = .tunnel := by
        by_contra hne
        exact hk (hg.relaySideConnectionId hne)
      simp [Stage.Shape, hbody, htype] at hshape
  by_cases hheader : c.dataProcessor = .onHttpNormalHeaderProcessor
  · rw [processData, hheader] at h
    exact (onHttpNormalHeaderProcessor_header h).2.1 k
  · exact (processData_prepares ⟨hheader, hraw, hbody⟩ h).relayed k

/-! ## What is sent to the clients -/

/-- The data of the relay that was sent to the client `k`. -/
def handed (k : ℕ) (calls : List ProxyCall) : Bytes :=
  calls.flatMap fun x => match x with
    | .post j .target data => if j = k then data else []
    | _ => []

theorem handed_append (k : ℕ) (l m : List ProxyCall) : handed k (l ++ m) = handed k l ++ handed k m :=
  List.flatMap_append

theorem Talk.handed (h : Talk s t) (k : ℕ) : handed k t.calls = handed k s.calls := by
  obtain ⟨l, hl, htalk⟩ := h
  rw [hl, handed_append, List.append_right_eq_self]
  refine List.flatMap_eq_nil_iff.2 fun x hx => ?_
  have hx := htalk x hx
  cases x with
  | post j origin data =>
    obtain rfl : origin = .reply := hx
    rfl
  | _ => rfl

theorem Act.handed (h : Act S s c s' x taken) (k : ℕ) : handed k s'.calls = handed k s.calls := by
  have hcall {y : ProxyCall} (hcalls : s'.calls = s.calls ++ [y])
      (hy : ProxyAccessService.handed k [y] = []) :
      ProxyAccessService.handed k s'.calls = ProxyAccessService.handed k s.calls := by
    rw [hcalls, handed_append, hy, List.append_nil]
  cases h with
  | quiet _ _ htalk | grant _ _ _ htalk | connect _ _ _ _ _ _ _ _ _ _ _ _ _ htalk
  | unbound _ _ _ _ _ htalk | bind _ _ _ _ _ _ _ _ htalk
  | associate _ _ _ _ _ _ _ _ _ _ _ _ _ _ _ _ _ htalk | channelReady _ _ _ _ _ _ _ htalk =>
    exact htalk.handed k
  | locate _ _ _ _ _ _ _ _ _ _ _ hcalls => rw [hcalls]
  | authenticate _ _ _ _ _ _ _ _ _ _ hcalls => exact hcall hcalls rfl
  | establish _ _ _ _ hcalls => exact hcall hcalls rfl
  | establishNormal _ _ _ _ _ _ hcalls => exact hcall hcalls rfl
  | forward _ _ _ hcalls _ => exact hcall hcalls rfl

/-- The turns that deliver nothing send the clients no data of the relay. -/
theorem Turn.handed (h : Turn S s l t) (hl : ∀ k, l ≠ .touch k) (k : ℕ) :
    handed k t.calls = handed k s.calls := by
  have hcall (y : ProxyCall) (hy : ProxyAccessService.handed k [y] = []) :
      ProxyAccessService.handed k (s.calls ++ [y]) = ProxyAccessService.handed k s.calls := by
    rw [handed_append, hy, List.append_nil]
  cases h with
  | clock | accept | refuse | expire => rfl
  | call j c s' c' hc heffect => exact heffect.act.handed k
  | result κ f m future c s' c' hpop hf hc hcf heffect => exact heffect.act.handed k
  | touch j => exact absurd rfl (hl j)
  | forwardUdp => exact hcall _ rfl
  | peerClose j c s' c' hc hmark h =>
    obtain ⟨u, l, heq, hu⟩ := onPeerClose_eq_ok hmark h
    cases heq
    rcases hu with ⟨-, -, rfl⟩ | ⟨-, i, z, -, -, -, -, rfl⟩ | ⟨-, -, -, rfl⟩
    · exact hcall _ rfl
    · exact hcall _ rfl
    · exact congrArg (ProxyAccessService.handed k) (List.append_nil _)
  | flush j c hc =>
    rcases onFlush_eq s c with ⟨-, heq⟩ | ⟨-, heq⟩
    all_goals
      rw [heq]
      rfl
  | close j c hc =>
    rcases closeConnection_eq s c with ⟨-, heq⟩ | ⟨-, -, heq⟩ | ⟨-, -, heq⟩
    all_goals
      rw [heq]
      rfl
  | ready κ f r =>
    unfold setReady
    split
    · rfl
    · split <;> rfl
  | destroy j lists c t hpop hc hready h =>
    obtain ⟨-, -, -, -, -, -, ⟨-, -, hcalls⟩ | ⟨-, -, hcalls⟩⟩ := destroyConnection_eq_ok h
    · rw [hcalls]
    · rw [hcalls]
      exact hcall _ rfl

theorem calls_keepAlive (s : ProxyAccessService σ) (c : ClientConnection) :
    ((keepAlive s c).getD (s, c)).1.calls = s.calls := by
  unfold keepAlive
  split
  · rfl
  · rfl

theorem onUdpData_handed {u : ℕ} {udpChannel : ClientUdpChannel} {data : Bytes} {a : NetAddress}
    (h : onUdpData S s u udpChannel data a = .ok t) (k : ℕ) : handed k t.calls = handed k s.calls := by
  unfold onUdpData at h
  iterate 2
    split at h
    · cases h
      rfl
  split at h
  · cases h
  dsimp only at h
  split at h
  · cases h
    exact congrArg (handed k) (calls_keepAlive _ _)
  split at h
  · cases h
    exact congrArg (handed k) (calls_keepAlive _ _)
  · cases h
    refine (handed_append k _ _).trans ?_
    rw [show handed k [ProxyCall.relayPostUdpData _ _ _ _] = [] from rfl, List.append_nil]
    exact congrArg (handed k) (calls_keepAlive _ _)

theorem postUdpData_handed {udpChannel : ClientUdpChannel} {data : Bytes} {a : NetAddress}
    (h : postUdpData s udpChannel a data = .ok t) (k : ℕ) : handed k t.calls = handed k s.calls := by
  unfold postUdpData at h
  iterate 2
    split at h
    · cases h
      rfl
  split at h
  · cases h
  next c hc =>
  have hcalls := calls_keepAlive s c
  split at h
  · cases h
    rfl
  next s₁ c₁ heq =>
  rw [heq, Option.getD_some] at hcalls
  split at h
  · cases h
    exact congrArg (handed k) hcalls
  · cases h
    refine (handed_append k _ _).trans ?_
    rw [show handed k [ProxyCall.postUdp _ _ _] = [] from rfl, List.append_nil]
    exact congrArg (handed k) hcalls

/-- The events that are no data of the relay send the clients none. -/
theorem step_handed {e : ProxyEvent} (he : ∀ k data, e ≠ .postData k data) (hs : Sound s)
    (h : step S P s e = .ok t) (k : ℕ) : handed k t.calls = handed k s.calls := by
  have hturns (hl : ∀ l, e.Allows l → ∀ k, l ≠ .touch k) : handed k t.calls = handed k s.calls :=
    (step_turns hs h).invariant (I := fun t => handed k t.calls = handed k s.calls)
      (fun _ l _ hl' _ hi hturn => (hturn.handed (hl l hl') k).trans hi) hs rfl
  cases e with
  | postData k data => exact absurd rfl (he k data)
  | onUdpData u data a =>
    rcases onUdpChannel_eq_ok h with ⟨-, rfl⟩ | ⟨x, -, h⟩
    · rfl
    · exact onUdpData_handed h k
  | postUdpData u a data =>
    rcases onUdpChannel_eq_ok h with ⟨-, rfl⟩ | ⟨x, -, h⟩
    · rfl
    · exact postUdpData_handed h k
  | onPeerClose j =>
    rcases onConnection_eq_ok h with ⟨-, rfl⟩ | ⟨c, s', c', hc, hp, rfl⟩
    · rfl
    · cases hmark : c.deleteMark with
      | false => exact (Turn.peerClose (S := S) j c s' c' hc hmark hp).handed (by simp) k
      | true =>
        rw [onPeerClose, hmark] at hp
        cases hp
        rfl
  | onNewConnection | onFlush | onData | closeConnection | setReady =>
    refine hturns fun l hl j => ?_
    obtain rfl := hl
    simp
  | tick =>
    refine hturns fun l hl j => ?_
    rcases hl with rfl | ⟨_, rfl⟩ | ⟨_, rfl⟩ | ⟨_, rfl⟩
    all_goals simp

/-- Data of the relay is sent to its client, unless the client is marked. -/
theorem handed_postData {i : ℕ} {data : Bytes} (hs : Sound s) (h : step S P s (.postData i data) = .ok t)
    (k : ℕ) : handed k t.calls = handed k s.calls ++
      match s.clientConnectionPool.get i with
      | some c => if i = k ∧ c.deleteMark = false then data else []
      | none => [] := by
  rcases onConnection_eq_ok h with ⟨hnone, rfl⟩ | ⟨c, s', c', hc, hp, rfl⟩
  · rw [hnone, List.append_nil]
  rw [hc]
  dsimp only
  rw [postData, keepAlive] at hp
  split at hp
  · next heq =>
    cases hp
    split at heq
    · next hmark =>
      rw [if_neg (by simp [hmark]), List.append_nil]
      rfl
    · cases heq
  · next s₁ c₁ heq =>
    cases hp
    split at heq
    · cases heq
    · next hmark =>
      cases heq
      refine (handed_append k _ _).trans ?_
      have hid := hs.connectionId i c hc
      simp [handed, hid, hmark]
      rfl

end ProxyAccessService

end ProxyPlatform
