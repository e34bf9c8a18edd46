import ProxyPlatform.Proxy.Paired

/-!
# The turns of the proxy access service

A step of the service is a sequence of *turns* (`Turn`): one call on one connection, one
result taken up, one pass over a timeout list, one connection destroyed. The turns say
what they do in the terms of `Effect`, for a state that is sound (`Turn.sound`).
-/

namespace ProxyPlatform

/-- A call that delivers data to a client. -/
def ProxyCall.IsDelivery : ProxyCall → Prop
  | .post _ origin _ => origin = .target
  | .postUdp .. => True
  | _ => False

/-- What a turn is about, with the client connection that it concerns. -/
inductive TurnLabel
  | clock
  | accept
  | call (k : ℕ)
  | result (κ : FutureKind)
  | touch (k : ℕ)
  | forwardUdp
  | peerClose (k : ℕ)
  | flush (k : ℕ)
  | close (k : ℕ)
  | ready
  | expire (l : ClientList)
  | destroy (k : ℕ)

namespace ProxyAccessService

variable {σ : Type*} {S : Services σ} {P : Platform}

/-! ## Turns -/

/-- The connection made of an accepted socket. -/
def newConnection (s : ProxyAccessService σ) (remoteAddress localAddress : NetAddress)
    (connectionId : ℕ) : ClientConnection where
  connectionId := connectionId
  remoteAddress := remoteAddress
  localAddress := localAddress
  timestampMS := s.localTicker
  dataProcessor := .onGuessProxyType

/-- A turn of the service, with its label. -/
inductive Turn (S : Services σ) (s : ProxyAccessService σ) : TurnLabel → ProxyAccessService σ → Prop
  /-- The clock goes on, or a counter of the audit. -/
  | clock (nowMS audit) : Turn S s .clock { s with localTicker := nowMS, audit := audit }
  | accept (remoteAddress localAddress k p)
      (hacquire : s.clientConnectionPool.acquire
        (newConnection s remoteAddress localAddress) = some (k, p)) :
      Turn S s .accept ({ s with clientConnectionPool := p }.linkTail .initTimeout k)
  | refuse (x : ℕ → ClientConnection) (k p)
      (hacquire : s.clientConnectionPool.acquire x = some (k, p)) :
      Turn S s .accept { s with clientConnectionPool := p.release k }
  /-- The client sends data. -/
  | call (k c s' c') (hc : s.clientConnectionPool.get k = some c) (heffect : Effect S none s c s' c')
      (hstage : ∃ g, AtStage c' g) : Turn S s (.call k) (s'.store c')
  /-- A result is taken up. -/
  | result (κ f m future c s' c') (hpop : (s.futureManager κ).popHead = some (f, m))
      (hf : (s.futureManager κ).get f = some future)
      (hc : s.clientConnectionPool.get future.context = some c) (hcf : c.futures κ = some f)
      (heffect : Effect S (some ⟨κ, future.result⟩) (s.setFutureManager κ m) c s' c')
      (hcf' : c'.futures κ = some f) (hstage : ∃ g, AtStage (c'.setFuture κ none) g) :
      Turn S s (.result κ) ((s'.setFutureManager κ ((s'.futureManager κ).releaseFuture f)).store
        (c'.setFuture κ none))
  /-- Data is delivered to or comes from the client, and is charged. -/
  | touch (k c s' c' l) (hc : s.clientConnectionPool.get k = some c) (hframe : Frame s c s' c')
      (hcore : core s' c' = { core s c with clientUdpChannelPool := s'.clientUdpChannelPool })
      (hshape : (c'.type, c'.dataProcessor) = (c.type, c.dataProcessor))
      (hudp : ∀ u, (s'.clientUdpChannelPool.get u).map
          (fun x => (x.parentConnection, x.relaySideUdpChannelId)) =
        (s.clientUdpChannelPool.get u).map (fun x => (x.parentConnection, x.relaySideUdpChannelId)))
      (hcalls : s'.calls = s.calls ++ l) (hdelivery : ∀ x ∈ l, x.IsDelivery)
      (hmark : l ≠ [] → c.deleteMark = false) : Turn S s (.touch k) (s'.store c')
  /-- A datagram is sent to the relay. -/
  | forwardUdp (k relayServerId relaySideUdpChannelId targetAddress data) :
      Turn S s .forwardUdp ({ s with
          services := S.postUdpData s.services relayServerId relaySideUdpChannelId targetAddress data
        }.call (.relayPostUdpData k relaySideUdpChannelId targetAddress data))
  | peerClose (k c s' c') (hc : s.clientConnectionPool.get k = some c) (hmark : c.deleteMark = false)
      (h : onPeerClose S s c = .ok (s', c')) : Turn S s (.peerClose k) (s'.store c')
  | flush (k c) (hc : s.clientConnectionPool.get k = some c) :
      Turn S s (.flush k) ((onFlush s c).1.store (onFlush s c).2)
  | close (k c) (hc : s.clientConnectionPool.get k = some c) :
      Turn S s (.close k) ((closeConnection s c).1.store (closeConnection s c).2)
  | ready (κ f r) : Turn S s .ready (s.setReady κ f r)
  /-- The connections of a list whose time is up go to the kill list. -/
  | expire (l h timeoutMS) : Turn S s (.expire l) (deferKillTimeoutConnection s l h timeoutMS)
  /-- A connection is destroyed, when no result is left to take up. -/
  | destroy (k lists c t) (hpop : s.timeoutLists.popHead .kill = some (k, lists))
      (hc : s.clientConnectionPool.get k = some c) (hready : ∀ κ, (s.futureManager κ).futureList = [])
      (h : destroyConnection S { s with timeoutLists := lists } c = .ok t) :
      Turn S s (.destroy k) t

section

variable {s t s' : ProxyAccessService σ} {c c' : ClientConnection}

/-- Connections, futures and UDP channels stay together when nothing of theirs changes. -/
theorem Paired.congr (hs : Paired s)
    (hconn : ∀ k, (t.clientConnectionPool.get k).map ClientConnection.outline =
      (s.clientConnectionPool.get k).map ClientConnection.outline)
    (hctx : ∀ κ, t.contextOf κ = s.contextOf κ)
    (hudp : ∀ u, (t.clientUdpChannelPool.get u).map
        (fun x => (x.parentConnection, x.relaySideUdpChannelId)) =
      (s.clientUdpChannelPool.get u).map (fun x => (x.parentConnection, x.relaySideUdpChannelId))) :
    Paired t := by
  have hget {k : ℕ} {d : ClientConnection} (hd : t.clientConnectionPool.get k = some d) :
      ∃ c, s.clientConnectionPool.get k = some c ∧ d.outline = c.outline := by
    have h := hconn k
    rw [hd, Option.map_some, eq_comm, Option.map_eq_some_iff] at h
    obtain ⟨c, hc, h⟩ := h
    exact ⟨c, hc, h.symm⟩
  have hfut : t.futureOf = s.futureOf := by
    funext κ k
    have h := congrArg (fun x => x.bind fun y => y.2.2.2.1 κ) (hconn k)
    simpa [futureOf, Option.bind_map, Function.comp_def, ClientConnection.outline] using h
  have hch : t.channelOf = s.channelOf := by
    funext k
    have h := congrArg (fun x => x.bind fun y => y.2.2.2.2.2.2) (hconn k)
    simpa [channelOf, Option.bind_map, Function.comp_def, ClientConnection.outline] using h
  have hpar : t.parentOf = s.parentOf := by
    funext u
    have h := congrArg (Option.map Prod.fst) (hudp u)
    simpa [parentOf, Option.map_map, Function.comp_def] using h
  refine ⟨fun k d hd => ?_, fun κ => ?_, ?_, fun u x d hu hne hd => ?_⟩
  · obtain ⟨c, hc, h⟩ := hget hd
    exact (congrArg Prod.fst h).trans (hs.connectionId k c hc)
  · rw [hfut, hctx]; exact hs.futures κ
  · rw [hch, hpar]; exact hs.channels
  · obtain ⟨c, hc, h⟩ := hget hd
    have hu' := hudp u
    rw [hu, Option.map_some, eq_comm, Option.map_eq_some_iff] at hu'
    obtain ⟨y, hy, hxy⟩ := hu'
    rw [Prod.mk.injEq] at hxy
    rw [show d.type = c.type from congrArg (fun z => z.2.1) h]
    exact hs.type u y c hy (by rwa [hxy.2]) (by rwa [hxy.1])

/-- Soundness is about the outlines of the connections, the futures and the UDP channels. -/
theorem Sound.congr (hs : Sound s)
    (hconn : ∀ k, (t.clientConnectionPool.get k).map ClientConnection.outline =
      (s.clientConnectionPool.get k).map ClientConnection.outline)
    (hmanager : t.futureManager = s.futureManager)
    (hudp : ∀ u, (t.clientUdpChannelPool.get u).map
        (fun x => (x.parentConnection, x.relaySideUdpChannelId)) =
      (s.clientUdpChannelPool.get u).map (fun x => (x.parentConnection, x.relaySideUdpChannelId))) :
    Sound t where
  toPaired := hs.toPaired.congr hconn (fun κ => by funext f; simp only [contextOf, hmanager]) hudp
  stage k d hd := by
    have h := hconn k
    rw [hd, Option.map_some, eq_comm, Option.map_eq_some_iff] at h
    obtain ⟨c, hc, h⟩ := h
    obtain ⟨g, hg⟩ := hs.stage k c hc
    exact ⟨g, hg.congr h.symm⟩
  auth := by rw [hmanager]; exact hs.auth

/-- Writing back a connection with the same outline keeps the outlines. -/
theorem outline_store {k : ℕ} (hpool : s'.clientConnectionPool = s.clientConnectionPool)
    (hc : s.clientConnectionPool.get k = some c) (hid : c.connectionId = k)
    (h : c'.outline = c.outline) (j : ℕ) :
    ((s'.store c').clientConnectionPool.get j).map ClientConnection.outline =
      (s.clientConnectionPool.get j).map ClientConnection.outline := by
  rw [get_store (by rw [hpool]; exact hc) ((congrArg Prod.fst h).trans hid), hpool]
  split
  · next hj => rw [hj, hc]; exact congrArg some h
  · rfl

/-! ## Turns keep the state sound -/

theorem Sound.accept {remoteAddress localAddress : NetAddress} {k : ℕ}
    {p : Storage ClientConnection} (hs : Sound s)
    (hacquire : s.clientConnectionPool.acquire (newConnection s remoteAddress localAddress) =
      some (k, p)) :
    Sound ({ s with clientConnectionPool := p }.linkTail .initTimeout k) := by
  have hfree := Storage.get_of_acquire hacquire
  have hget (j : ℕ) : ({ s with clientConnectionPool := p }.linkTail .initTimeout
      k).clientConnectionPool.get j = if j = k then some (newConnection s remoteAddress localAddress k)
        else s.clientConnectionPool.get j := Storage.get_acquire hacquire j
  refine ⟨⟨fun j d hd => ?_, fun κ => ?_, ?_, fun u x d hu hne hd => ?_⟩, fun j d hd => ?_, hs.auth⟩
  · rw [hget] at hd
    split at hd
    · next hj => cases hd; exact hj.symm
    · exact hs.connectionId j d hd
  · have hfut : ({ s with clientConnectionPool := p }.linkTail .initTimeout k).futureOf κ =
        s.futureOf κ := by
      funext j
      simp only [futureOf, hget]
      split
      · next hj => simp [hj, hfree, newConnection]
      · rfl
    rw [hfut]
    exact hs.futures κ
  · have hch : ({ s with clientConnectionPool := p }.linkTail .initTimeout k).channelOf =
        s.channelOf := by
      funext j
      simp only [channelOf, hget]
      split
      · next hj => simp [hj, hfree, newConnection]
      · rfl
    rw [hch]
    exact hs.channels
  · obtain ⟨e, he, -⟩ := hs.exists_parent hu
    rw [hget, if_neg (by rintro rfl; rw [hfree] at he; cases he)] at hd
    exact hs.type u x d hu hne hd
  · rw [hget] at hd
    split at hd
    · cases hd
      exact ⟨.greeting, .inl ⟨rfl, rfl⟩, by simp [newConnection, Stage.awaits], fun _ => rfl,
        fun _ => rfl, fun h => by simp [newConnection] at h⟩
    · exact hs.stage j d hd

/-- What an act leaves of the authentication futures is all ready. -/
theorem Sound.effect_auth {taken : Option ((κ : FutureKind) × Option κ.Result)}
    (hs : ∀ f future, (s.futureManager .auth).get f = some future →
      f ∈ (s.futureManager .auth).futureList)
    (h : Effect S taken s c s' c') (f : ℕ) (future : Future ℕ AuthResult)
    (hf : (s'.futureManager .auth).get f = some future) :
    f ∈ (s'.futureManager .auth).futureList := by
  rcases h.act.futures .auth with ⟨hm, -⟩ | ⟨i, m, y, hacquire, -, -, hm, hy, -⟩
  · rw [show s'.futureManager .auth = s.futureManager .auth from hm] at hf ⊢
    exact hs f future hf
  · obtain ⟨r, rfl⟩ := hy rfl
    obtain ⟨-, -, hlist, hget⟩ := FuturePoolManager.acquireFuture_eq_some hacquire
    have hi : m.get i = some { context := c.connectionId } := by rw [hget, if_pos rfl]
    rw [show s'.futureManager .auth = m.setReady i r from hm] at hf ⊢
    rw [FuturePoolManager.mem_futureList_setReady hi, hlist]
    by_cases hfi : f = i
    · exact .inl hfi
    · rw [FuturePoolManager.get_setReady hi, if_neg hfi, hget, if_neg hfi] at hf
      exact .inr (hs f future hf)

theorem Sound.call {k : ℕ} (hs : Sound s) (hc : s.clientConnectionPool.get k = some c)
    (h : Effect S none s c s' c') (hstage : ∃ g, AtStage c' g) : Sound (s'.store c') where
  toPaired := hs.toPaired.effect hc h
  stage j d hd := by
    rw [get_store (by rw [h.clientConnectionPool]; exact hc)
      (h.connectionId.trans (hs.connectionId k c hc)), h.clientConnectionPool] at hd
    split at hd
    · cases hd; exact hstage
    · exact hs.stage j d hd
  auth f future hf := Sound.effect_auth hs.auth h f future hf

/-- Taking a future out of the ready list leaves the futures. -/
theorem popHead_eq_some {κ : FutureKind} {f : ℕ} {m : FuturePoolManager ℕ κ.Result}
    (h : (s.futureManager κ).popHead = some (f, m)) :
    (∀ i, m.get i = (s.futureManager κ).get i) ∧ f ∈ (s.futureManager κ).futureList ∧
      ∀ i, i ∈ m.futureList ↔ i ≠ f ∧ i ∈ (s.futureManager κ).futureList := by
  unfold FuturePoolManager.popHead at h
  split at h
  · cases h
  · next i l hl =>
    cases h
    refine ⟨fun _ => rfl, by rw [hl]; exact List.mem_cons_self, fun j => ?_⟩
    simp [and_comm]

theorem popHead_eq_none {κ : FutureKind} :
    (s.futureManager κ).popHead = none ↔ (s.futureManager κ).futureList = [] := by
  unfold FuturePoolManager.popHead
  split
  · next h => simp [h]
  · next h => simp [h]

/-- Taking a future out of the ready list keeps the rest together. -/
theorem Paired.popHead {κ : FutureKind} {f : ℕ} {m : FuturePoolManager ℕ κ.Result} (hs : Paired s)
    (h : (s.futureManager κ).popHead = some (f, m)) : Paired (s.setFutureManager κ m) := by
  refine hs.congr (fun _ => rfl) (fun ι => ?_) (fun _ => rfl)
  funext i
  by_cases hι : ι = κ
  · subst hι; simp [contextOf, setFutureManager, (popHead_eq_some h).1 i]
  · simp [contextOf, setFutureManager, hι]

/-- Writing a connection back twice. -/
theorem store_store (s : ProxyAccessService σ) (c c' : ClientConnection) (κ : FutureKind)
    (m : FuturePoolManager ℕ κ.Result) (h : c'.connectionId = c.connectionId) :
    ((s.store c).setFutureManager κ m).store c' = (s.setFutureManager κ m).store c' := by
  simp only [store, setFutureManager, h, Storage.set_set]

theorem Sound.result {κ : FutureKind} {f : ℕ} {m : FuturePoolManager ℕ κ.Result}
    {future : Future ℕ κ.Result} (hs : Sound s)
    (hpop : (s.futureManager κ).popHead = some (f, m))
    (hc : s.clientConnectionPool.get future.context = some c) (hcf : c'.futures κ = some f)
    (h : Effect S (some ⟨κ, future.result⟩) (s.setFutureManager κ m) c s' c')
    (hstage : ∃ g, AtStage (c'.setFuture κ none) g) :
    Sound ((s'.setFutureManager κ ((s'.futureManager κ).releaseFuture f)).store
      (c'.setFuture κ none)) := by
  have hid : c'.connectionId = future.context :=
    h.connectionId.trans (hs.connectionId _ c hc)
  have hpool : s'.clientConnectionPool = s.clientConnectionPool := h.clientConnectionPool
  have hc₁ : (s'.store c').clientConnectionPool.get future.context = some c' := by
    rw [get_store (by rw [hpool]; exact hc) hid, if_pos rfl]
  refine ⟨?_, fun j d hd => ?_, fun i fut hi => ?_⟩
  · have hp := ((hs.toPaired.popHead hpop).effect hc h).finish hc₁ hcf
    rwa [store_store s' c' (c'.setFuture κ none) κ _ rfl] at hp
  · have hid' : (c'.setFuture κ none).connectionId = future.context := hid
    rw [get_store (s := s'.setFutureManager κ _) (by rw [← hpool] at hc; exact hc) hid'] at hd
    split at hd
    · cases hd; exact hstage
    · exact hs.stage j d (by rw [← hpool]; exact hd)
  · by_cases hκ : κ = .auth
    · subst hκ
      have hm : s'.futureManager .auth = m := by
        rcases h.act.futures .auth with ⟨hm, -⟩ | ⟨_, _, _, _, _, _, _, _, h | ⟨h, _⟩ | ⟨h, _⟩⟩
        · rw [show s'.futureManager .auth = _ from hm]; simp [setFutureManager]
        · cases h
        · cases h
        · cases h
      simp only [store, setFutureManager, Function.update_self, hm,
        FuturePoolManager.get_releaseFuture, FuturePoolManager.mem_futureList_releaseFuture] at hi ⊢
      split at hi
      · cases hi
      · next hif =>
        rw [(popHead_eq_some hpop).2.2]
        exact ⟨hif, hif, hs.auth i fut (by rw [← (popHead_eq_some hpop).1]; exact hi)⟩
    · have hne : FutureKind.auth ≠ κ := Ne.symm hκ
      have hauth : ∀ j future, ((s.setFutureManager κ m).futureManager .auth).get j = some future →
          j ∈ ((s.setFutureManager κ m).futureManager .auth).futureList := by
        simpa [setFutureManager, hne] using hs.auth
      simp only [store, setFutureManager, Function.update_of_ne hne] at hi ⊢
      exact Sound.effect_auth hauth h i fut hi

theorem Sound.ready {κ : FutureKind} {f : ℕ} {r : Option κ.Result} (hs : Sound s) :
    Sound (s.setReady κ f r) := by
  unfold setReady
  split
  · exact hs
  split
  · exact hs
  next future hf _ =>
  refine ⟨hs.toPaired.congr (fun _ => rfl) (fun ι => ?_) (fun _ => rfl), hs.stage, fun i fut hi => ?_⟩
  · funext i
    by_cases hι : ι = κ
    · subst hι
      simp only [contextOf, setFutureManager, Function.update_self]
      exact context_complete _ f (.ready r) i
    · simp [contextOf, setFutureManager, hι]
  · by_cases hκ : κ = .auth
    · subst hκ
      simp only [setFutureManager, Function.update_self] at hi ⊢
      rw [FuturePoolManager.mem_futureList_setReady hf]
      by_cases hif : i = f
      · exact .inl hif
      · rw [FuturePoolManager.get_setReady hf, if_neg hif] at hi
        exact .inr (hs.auth i fut hi)
    · have hne : FutureKind.auth ≠ κ := Ne.symm hκ
      simp only [setFutureManager, Function.update_of_ne hne] at hi ⊢
      exact hs.auth i fut hi

/-- What a destroyed connection leaves. -/
theorem destroyConnection_eq_ok (h : destroyConnection S s c = .ok t) :
    t.clientConnectionPool = s.clientConnectionPool.release c.connectionId ∧
      t.futureManager = (releaseFutures s c).futureManager ∧
      t.clientUdpChannelPool = (match c.bindUdpChannel with
        | none => s.clientUdpChannelPool
        | some u => s.clientUdpChannelPool.release u) ∧
      t.timeoutLists = s.timeoutLists.unlink c.connectionId ∧ t.localTicker = s.localTicker ∧
      t.destroyed = s.destroyed ++ [(c, authResultOf s c)] ∧
      (c.localAuthId = 0 ∧ t.services = s.services ∧ t.calls = s.calls ∨
        c.localAuthId ≠ 0 ∧
          S.releaseAuthInfo s.services c.localAuthId (usageOf c) = .ok t.services ∧
          t.calls = s.calls ++ [.releaseAuthInfo c.connectionId c.localAuthId (usageOf c)]) := by
  simp only [destroyConnection] at h
  by_cases hz : c.localAuthId = 0
  · rw [if_pos hz] at h
    cases h
    exact ⟨rfl, rfl, rfl, rfl, rfl, rfl, .inl ⟨hz, rfl, rfl⟩⟩
  · rw [if_neg hz] at h
    cases hr : S.releaseAuthInfo s.services c.localAuthId (usageOf c) with
    | error x => rw [hr] at h; cases h
    | ok u =>
      rw [hr] at h
      cases h
      exact ⟨rfl, rfl, rfl, rfl, rfl, rfl, .inr ⟨hz, rfl, rfl⟩⟩

/-- Releasing the futures of a connection erases their entries. -/
theorem contextOf_releaseFutures (s : ProxyAccessService σ) (c : ClientConnection)
    (κ : FutureKind) : (releaseFutures s c).contextOf κ = match c.futures κ with
      | none => s.contextOf κ
      | some f => Function.update (s.contextOf κ) f none := by
  funext i
  cases hf : c.futures κ with
  | none => simp [contextOf, releaseFutures, hf]
  | some f =>
    by_cases hi : i = f
    · subst hi; simp [contextOf, releaseFutures, hf]
    · simp [contextOf, releaseFutures, hf, hi]

theorem Sound.destroy {k : ℕ} {lists : Linked ClientList} (hs : Sound s)
    (hc : s.clientConnectionPool.get k = some c)
    (h : destroyConnection S { s with timeoutLists := lists } c = .ok t) : Sound t := by
  have hid : c.connectionId = k := hs.connectionId k c hc
  obtain ⟨hpool, hmanager, hudp, -⟩ := destroyConnection_eq_ok h
  have hget (j : ℕ) : t.clientConnectionPool.get j =
      if j = k then none else s.clientConnectionPool.get j := by
    rw [hpool, Storage.get_release, hid]
  have hlive {j : ℕ} {d : ClientConnection} (hd : t.clientConnectionPool.get j = some d) :
      j ≠ k ∧ s.clientConnectionPool.get j = some d := by
    rw [hget] at hd
    split at hd
    · cases hd
    · next hj => exact ⟨hj, hd⟩
  refine ⟨⟨fun j d hd => hs.connectionId j d (hlive hd).2, fun κ => ?_, ?_,
    fun u x d hu hne hd => ?_⟩, fun j d hd => hs.stage j d (hlive hd).2, fun f future hf => ?_⟩
  · have hfut : t.futureOf κ = Function.update (s.futureOf κ) k none := by
      funext j
      by_cases hj : j = k
      · simp [futureOf, hget, hj]
      · simp [futureOf, hget, hj]
    have hctx : t.contextOf κ = (releaseFutures s c).contextOf κ := by
      funext f
      simp only [contextOf, hmanager]
      rfl
    rw [hfut, hctx, contextOf_releaseFutures]
    have hk : s.futureOf κ k = c.futures κ := by simp [futureOf, hc]
    cases hf : c.futures κ with
    | none =>
      rw [Pairing.update_none_of_none (by rw [hk, hf])]
      exact hs.futures κ
    | some f => exact (hs.futures κ).erase (by rw [hk, hf])
  · have hch : t.channelOf = Function.update s.channelOf k none := by
      funext j
      by_cases hj : j = k
      · simp [channelOf, hget, hj]
      · simp [channelOf, hget, hj]
    have hk : s.channelOf k = c.bindUdpChannel := by simp [channelOf, hc]
    rw [hch]
    cases hb : c.bindUdpChannel with
    | none =>
      have hpar : t.parentOf = s.parentOf := by
        funext u
        simp [parentOf, hudp, hb]
      rw [Pairing.update_none_of_none (by rw [hk, hb]), hpar]
      exact hs.channels
    | some u =>
      have hpar : t.parentOf = Function.update s.parentOf u none := by
        funext i
        by_cases hi : i = u
        · subst hi; simp [parentOf, hudp, hb]
        · simp [parentOf, hudp, hb, hi]
      rw [hpar]
      exact hs.channels.erase (by rw [hk, hb])
  · have hu' : s.clientUdpChannelPool.get u = some x := by
      rw [hudp] at hu
      split at hu
      · exact hu
      · rw [Storage.get_release] at hu
        split at hu
        · cases hu
        · exact hu
    exact hs.type u x d hu' hne (hlive hd).2
  · rw [hmanager] at hf ⊢
    simp only [releaseFutures] at hf ⊢
    split at hf
    · exact hs.auth f future hf
    · next i _ =>
      rw [FuturePoolManager.get_releaseFuture] at hf
      split at hf
      · cases hf
      · next hfi =>
        exact FuturePoolManager.mem_futureList_releaseFuture.2 ⟨hfi, hs.auth f future hf⟩

/-- What the close of an unmarked connection does: it goes to the kill list, and the relay is
    told of the relay connection or of the UDP channel that the connection holds, if any. -/
theorem onPeerClose_eq_ok (hmark : c.deleteMark = false)
    (h : onPeerClose S s c = .ok (s', c')) :
    ∃ u l, (s', c') = deferKill { s with services := u, calls := s.calls ++ l } c ∧
      (c.relaySideConnectionId ≠ 0 ∧
        u = S.destroyConnection s.services c.deviceReference.relayServerId
          c.relaySideConnectionId ∧
        l = [.destroyConnection c.connectionId c.relaySideConnectionId] ∨
      c.relaySideConnectionId = 0 ∧ (∃ i x, c.type = .s5Udp ∧ c.bindUdpChannel = some i ∧
        s.clientUdpChannelPool.get i = some x ∧
        u = S.destroyUdpChannel s.services c.deviceReference.relayServerId
          x.relaySideUdpChannelId ∧
        l = [.destroyUdpChannel c.connectionId x.relaySideUdpChannelId]) ∨
      c.relaySideConnectionId = 0 ∧ (c.type ≠ .s5Udp ∨ c.bindUdpChannel = none) ∧
        u = s.services ∧ l = []) := by
  unfold onPeerClose at h
  rw [hmark] at h
  simp only [Bool.false_eq_true, if_false] at h
  by_cases hr : c.relaySideConnectionId = 0
  · rw [if_neg (not_not.2 hr)] at h
    split at h
    · next i htype hbind =>
      split at h
      · cases h
      · next x hx =>
        cases h
        exact ⟨_, _, rfl, .inr (.inl ⟨hr, i, x, htype, hbind, hx, rfl, rfl⟩)⟩
    · next hno =>
      cases h
      refine ⟨s.services, [], by rw [List.append_nil]; rfl, .inr (.inr ⟨hr, ?_, rfl, rfl⟩)⟩
      by_cases htype : c.type = .s5Udp
      · refine .inr (Option.eq_none_iff_forall_ne_some.2 fun i hi => hno i htype hi)
      · exact .inl htype
  · rw [if_pos hr] at h
    cases h
    exact ⟨_, _, rfl, .inl ⟨hr, rfl, rfl⟩⟩

/-- What a call of the relay to close a connection does. -/
theorem closeConnection_eq (s : ProxyAccessService σ) (c : ClientConnection) :
    c.deleteMark = true ∧ closeConnection s c = (s, c) ∨
    c.deleteMark = false ∧ c.hasPendingWrites = true ∧ closeConnection s c =
      (s.linkTail .gracefulKill c.connectionId,
        { c with deleteMark := true, timestampMS := s.localTicker }) ∨
    c.deleteMark = false ∧ c.hasPendingWrites = false ∧ closeConnection s c =
      (s, { c with deleteMark := true }) := by
  unfold closeConnection deferGracefulKill
  cases hm : c.deleteMark <;> cases hp : c.hasPendingWrites <;> simp

/-- What a flush does: it kills a marked connection. -/
theorem onFlush_eq (s : ProxyAccessService σ) (c : ClientConnection) :
    c.deleteMark = true ∧ onFlush s c =
      (s.linkTail .kill c.connectionId, { c with hasPendingWrites := false }) ∨
    c.deleteMark = false ∧ onFlush s c = (s, { c with hasPendingWrites := false }) := by
  unfold onFlush deferKill
  cases hm : c.deleteMark <;> simp

/-- A turn keeps the state sound. -/
theorem Turn.sound {l : TurnLabel} (h : Turn S s l t) (hs : Sound s) : Sound t := by
  cases h with
  | clock nowMS audit => exact hs.congr (fun _ => rfl) rfl fun _ => rfl
  | accept remoteAddress localAddress k p hacquire => exact hs.accept hacquire
  | refuse x k p hacquire =>
    refine hs.congr (fun j => ?_) rfl fun _ => rfl
    change ((p.release k).get j).map _ = _
    rw [Storage.get_release, Storage.get_acquire hacquire]
    split
    · next hj => rw [hj, Storage.get_of_acquire hacquire]
    · rfl
  | call k c s' c' hc heffect hstage => exact hs.call hc heffect hstage
  | result κ f m future c s' c' hpop hf hc hcf heffect hcf' hstage =>
    exact hs.result hpop hc hcf' heffect hstage
  | touch k c s' c' l hc hframe hcore hshape hudp hcalls hdelivery hmark =>
    simp only [core, Core.mk.injEq, true_and] at hcore
    obtain ⟨hservices, hmanager, hfut, hid, hrelay, hbind⟩ := hcore
    refine hs.congr (outline_store hframe.clientConnectionPool hc (hs.connectionId k c hc) ?_)
      hmanager hudp
    rw [Prod.mk.injEq] at hshape
    simp only [ClientConnection.outline, hframe.connectionId, hshape, hfut, hid, hrelay, hbind]
  | forwardUdp => exact hs.congr (fun _ => rfl) rfl fun _ => rfl
  | peerClose k c s' c' hc hmark h =>
    obtain ⟨u, l, heq, -⟩ := onPeerClose_eq_ok hmark h
    cases heq
    exact hs.congr (outline_store (by rfl) hc (hs.connectionId k c hc) rfl) rfl fun _ => rfl
  | flush k c hc =>
    rcases onFlush_eq s c with ⟨-, heq⟩ | ⟨-, heq⟩
    · rw [heq]
      exact hs.congr (outline_store (by rfl) hc (hs.connectionId k c hc) rfl) rfl fun _ => rfl
    · rw [heq]
      exact hs.congr (outline_store (by rfl) hc (hs.connectionId k c hc) rfl) rfl fun _ => rfl
  | close k c hc =>
    rcases closeConnection_eq s c with ⟨-, heq⟩ | ⟨-, -, heq⟩ | ⟨-, -, heq⟩
    all_goals
      rw [heq]
      exact hs.congr (outline_store (by rfl) hc (hs.connectionId k c hc) rfl) rfl fun _ => rfl
  | ready κ f r => exact hs.ready
  | expire l h timeoutMS => exact hs.congr (fun _ => rfl) rfl fun _ => rfl
  | destroy k lists c t hpop hc hready h => exact hs.destroy hc h

end

end ProxyAccessService

end ProxyPlatform
