import ProxyPlatform.Proxy.Relayed

/-!
# Replies that a tunnel is there

The reply that the tunnel is there is posted to a client when its relay connection is taken up, and
at no other time: the converse of `Greeted`. A client that has a relay connection keeps it, with its
type, for as long as it is there.

* `Stays`: the clients of the one state in the other;
* `Promised`: the clients that were told that their tunnel is there have a relay connection;
* `Turn.promised`: a turn keeps this, if the results that it takes up are ids.
-/

namespace ProxyPlatform

namespace ProxyAccessService

variable {σ : Type*} {S : Services σ} {P : Platform} {s t u s' : ProxyAccessService σ} {c c' : ClientConnection}
  {x : Core σ} {taken : Option ((κ : FutureKind) × Option κ.Result)} {l : TurnLabel} {i : ℕ} {reply : Bytes}

/-! ## Clients that stay -/

/-- The clients of `t` that are not new were there in `s`, and stay what they were. -/
structure Stays (s t : ProxyAccessService σ) : Prop where
  lastId : s.clientConnectionPool.lastId ≤ t.clientConnectionPool.lastId
  client : ∀ i c', i ≤ s.clientConnectionPool.lastId → t.clientConnectionPool.get i = some c' →
    ∃ c, s.clientConnectionPool.get i = some c ∧ StaysTunnel c c'

theorem Stays.of_pool (h : t.clientConnectionPool = s.clientConnectionPool) : Stays s t :=
  ⟨by rw [h], fun _ c' _ hc' => ⟨c', by rwa [h] at hc', .of_eq rfl rfl⟩⟩

theorem Stays.trans (h : Stays s t) (h' : Stays t u) : Stays s u where
  lastId := h.lastId.trans h'.lastId
  client i c'' hi hc'' := by
    obtain ⟨c', hc', hlater⟩ := h'.client i c'' (hi.trans h.lastId) hc''
    obtain ⟨c, hc, hstays⟩ := h.client i c' hi hc'
    refine ⟨c, hc, fun hundetermined hchallenge => ?_, fun hrelay => ?_⟩
    · have htype := hstays.type hundetermined hchallenge
      exact (hlater.type (htype ▸ hundetermined) (htype ▸ hchallenge)).trans htype
    · have hsame := hstays.relaySideConnectionId hrelay
      exact (hlater.relaySideConnectionId (hsame ▸ hrelay)).trans hsame

theorem Turn.stays (h : Turn S s l t) (hs : Sound s) : Stays s t where
  lastId := (h.later hs).lastId
  client i c' hi hc' := by
    obtain ⟨d, hd, -⟩ := (h.later hs).connection i c' hi hc'
    rcases h.comes hs hc' with ⟨hnone, -⟩ | hcame
    · rw [hnone] at hd
      cases hd
    · exact hcame

/-! ## The replies -/

/-- The reply that the tunnel is there is posted when a relay connection is taken up. -/
theorem Act.established (h : Act S s c s' x taken)
    (hmem : ProxyCall.post i .established reply ∈ s'.calls) :
    ProxyCall.post i .established reply ∈ s.calls ∨ i = c.connectionId ∧
      ∃ k, taken = some ⟨.acquireDeviceConnection, some k⟩ ∧ x.relaySideConnectionId = k := by
  -- The calls of these acts are none of a post, or are one other call.
  have htalks (htalk : Talk s s') : ProxyCall.post i .established reply ∈ s.calls := by
    obtain ⟨l, hl, htalk⟩ := htalk
    rw [hl, List.mem_append] at hmem
    exact hmem.resolve_right fun hl => by cases htalk _ hl
  have hother {y : ProxyCall} (hcalls : s'.calls = s.calls ++ [y])
      (hy : y ≠ .post i .established reply) : ProxyCall.post i .established reply ∈ s.calls := by
    rw [hcalls, List.mem_append, List.mem_singleton] at hmem
    exact hmem.resolve_right fun heq => hy heq.symm
  cases h with
  | quiet _ _ htalk | grant _ _ _ htalk | connect _ _ _ _ _ _ _ _ _ _ _ _ _ htalk
  | unbound _ _ _ _ _ htalk | bind _ _ _ _ _ _ _ _ htalk
  | associate _ _ _ _ _ _ _ _ _ _ _ _ _ _ _ _ _ htalk | channelReady _ _ _ _ _ _ _ htalk =>
    exact .inl (htalks htalk)
  | locate _ _ _ _ _ _ _ _ _ _ _ hcalls => exact .inl (hcalls ▸ hmem)
  | authenticate _ _ _ _ _ _ _ _ _ _ hcalls => exact .inl (hother hcalls (by simp))
  | establishNormal _ _ _ _ _ _ hcalls => exact .inl (hother hcalls (by simp))
  | forward _ _ _ hcalls _ => exact .inl (hother hcalls (by simp))
  -- The reply, posted with the connection in hand.
  | establish k r hrelay hcore hcalls =>
    rw [hcalls, List.mem_append, List.mem_singleton] at hmem
    refine hmem.imp_right fun heq => ?_
    injection heq with hi
    exact ⟨hi, k, rfl, by rw [hcore]⟩

/-- A turn posts such a reply when it takes up a relay connection. -/
theorem Turn.established (h : Turn S s l t) (hs : Sound s)
    (hmem : ProxyCall.post i .established reply ∈ t.calls) :
    ProxyCall.post i .established reply ∈ s.calls ∨ l = .result .acquireDeviceConnection ∧
      ∃ f future k c', (s.futureManager .acquireDeviceConnection).get f = some future ∧
        future.result = some k ∧ t.clientConnectionPool.get i = some c' ∧ c'.relaySideConnectionId = k := by
  have hother (y : ProxyCall) (hy : y ≠ .post i .established reply)
      (hmem : ProxyCall.post i .established reply ∈ s.calls ++ [y]) :
      ProxyCall.post i .established reply ∈ s.calls := by
    rw [List.mem_append, List.mem_singleton] at hmem
    exact hmem.resolve_right fun heq => hy heq.symm
  cases h with
  | clock | accept | refuse | expire => exact .inl hmem
  | call j c s' c' hc heffect =>
    -- Data of the client takes up no result.
    refine (heffect.act.established hmem).imp_right fun ⟨_, k, htaken, _⟩ => ?_
    cases htaken
  | result κ f m future c s' c' hpop hf hc hcf heffect hcf' hstage =>
    rcases heffect.act.established hmem with hmem | ⟨hi, k, htaken, hrelay⟩
    · exact .inl hmem
    -- The result that is taken up is the one of the future, and the client is the one it is for.
    obtain ⟨rfl, hresult⟩ := Sigma.mk.inj_iff.1 (Option.some.inj htaken)
    have hid := hs.connectionId _ c hc
    refine .inr ⟨rfl, f, future, k, c'.setFuture .acquireDeviceConnection none, hf, eq_of_heq hresult,
      ?_, hrelay⟩
    have hid' : (c'.setFuture .acquireDeviceConnection none).connectionId = future.context :=
      heffect.connectionId.trans hid
    have hpool : (s'.setFutureManager .acquireDeviceConnection
        ((s'.futureManager .acquireDeviceConnection).releaseFuture f)).clientConnectionPool =
          s.clientConnectionPool := heffect.clientConnectionPool
    rw [get_store_of_pool hpool hc hid', if_pos (hi.trans hid)]
  | touch j c s' c' l hc hframe hcore hshape hudp hcalls hdelivery =>
    change _ ∈ s'.calls at hmem
    rw [hcalls, List.mem_append] at hmem
    exact .inl (hmem.resolve_right fun hl => by cases hdelivery _ hl)
  | forwardUdp => exact .inl (hother _ (by simp) hmem)
  | peerClose j c s' c' hc hmark h =>
    obtain ⟨u, l, heq, hu⟩ := onPeerClose_eq_ok hmark h
    cases heq
    rcases hu with ⟨-, -, rfl⟩ | ⟨-, i, z, -, -, -, -, rfl⟩ | ⟨-, -, -, rfl⟩
    · exact .inl (hother _ (by simp) hmem)
    · exact .inl (hother _ (by simp) hmem)
    · exact .inl (List.append_nil s.calls ▸ hmem)
  | flush j c hc =>
    rcases onFlush_eq s c with ⟨-, heq⟩ | ⟨-, heq⟩
    all_goals
      rw [heq] at hmem
      exact .inl hmem
  | close j c hc =>
    rcases closeConnection_eq s c with ⟨-, heq⟩ | ⟨-, -, heq⟩ | ⟨-, -, heq⟩
    all_goals
      rw [heq] at hmem
      exact .inl hmem
  | ready κ f r =>
    unfold setReady at hmem
    split at hmem
    · exact .inl hmem
    · split at hmem <;> exact .inl hmem
  | destroy j lists c t hpop hc hready h =>
    obtain ⟨-, -, -, -, -, -, ⟨-, -, hcalls⟩ | ⟨-, -, hcalls⟩⟩ := destroyConnection_eq_ok h
    · exact .inl (hcalls ▸ hmem)
    · rw [hcalls] at hmem
      exact .inl (hother _ (by simp) hmem)

theorem postData_of_unmarked (data : Bytes) (hmark : c.deleteMark = false) :
    (postData P s c data).1.clientConnectionPool = s.clientConnectionPool ∧
      (postData P s c data).1.calls = s.calls ++ [.post c.connectionId .target data] ∧
      (postData P s c data).2.connectionId = c.connectionId ∧ (postData P s c data).2.type = c.type := by
  rw [postData, keepAlive, if_neg (by simp [hmark])]
  exact ⟨rfl, rfl, rfl, rfl⟩

/-- Data of the relay for an unmarked client is posted to it. -/
theorem step_postData (hs : Sound s) (data : Bytes) (hc : s.clientConnectionPool.get i = some c)
    (hmark : c.deleteMark = false) : ∃ t c', step S P s (.postData i data) = .ok t ∧
      t.clientConnectionPool.get i = some c' ∧ c'.type = c.type ∧
      t.calls = s.calls ++ [.post i .target data] := by
  obtain ⟨hpool, hcalls, hid, htype⟩ := postData_of_unmarked (P := P) (s := s) data hmark
  rw [hs.connectionId i c hc] at hcalls hid
  refine ⟨(postData P s c data).1.store (postData P s c data).2, (postData P s c data).2, ?_, ?_, htype,
    hcalls⟩
  · rw [step, onConnection, hc]
    rfl
  · rw [get_store_of_pool hpool hc hid, if_pos rfl]

/-- The clients that were told that their tunnel is there have a relay connection. -/
structure Promised (s : ProxyAccessService σ) : Prop where
  told : ∀ i reply c, ProxyCall.post i .established reply ∈ s.calls →
    s.clientConnectionPool.get i = some c → c.relaySideConnectionId ≠ 0
  fresh : ∀ i reply, ProxyCall.post i .established reply ∈ s.calls → i ≤ s.clientConnectionPool.lastId

theorem promised_init (services : σ) : Promised (init services) where
  told _ _ _ h := by cases h
  fresh _ _ h := by cases h

/-- A turn keeps the promises, if the results that it takes up are ids. -/
theorem Turn.promised (h : Turn S s l t) (hs : Sound s) (hp : Promised s)
    (hresults : l = .result .acquireDeviceConnection → ∀ f future k,
      (s.futureManager .acquireDeviceConnection).get f = some future → future.result = some k → k ≠ 0) :
    Promised t where
  told i reply c' hmem hc' := by
    rcases h.established hs hmem with hmem | ⟨hl, f, future, k, d, hf, hresult, hd, hrelay⟩
    · obtain ⟨c, hc, hstays⟩ := (h.stays hs).client i c' (hp.fresh i reply hmem) hc'
      have hrelay := hp.told i reply c hmem hc
      rw [hstays.relaySideConnectionId hrelay]
      exact hrelay
    · cases hc'.symm.trans hd
      rw [hrelay]
      exact hresults hl f future k hf hresult
  fresh i reply hmem := by
    rcases h.established hs hmem with hmem | ⟨-, _, _, _, d, -, -, hd, -⟩
    · exact (hp.fresh i reply hmem).trans (h.later hs).lastId
    · exact Storage.le_lastId_of_get hd

end ProxyAccessService

end ProxyPlatform
