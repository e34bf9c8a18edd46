import ProxyPlatform.Proxy.Supply
import ProxyPlatform.Relay.Holders
import ProxyPlatform.Relay.Lists
import ProxyPlatform.Wiring.Basic
import ProxyPlatform.Wiring.Tunnel

/-!
# The halves of the tunnels

What `xProxyAccessService` and `xRelayLocalBindingService` hold of a tunnel, in the terms of
`Routes` and `Links`, and what their calls of each other do to it.

* `routesOf`, `linksOf`: the halves;
* `Act.route`: a call on a client leaves its route, asks for a relay connection, or learns of one;
* `createConnection_becomes` and the like: what a call of the relay does to its half;
* `dueConnections`: the connections that a tick of the relay ends because they are idle.
-/

namespace ProxyPlatform

namespace ProxyAccessService

variable {σ : Type*} {S : Services σ} {s t s' : ProxyAccessService σ} {c c' : ClientConnection}
  {x : Core σ} {taken : Option ((κ : FutureKind) × Option κ.Result)} {l : TurnLabel}

/-- What a client is to the relay. -/
def clientOf (s : ProxyAccessService σ) (i : ℕ) : Option (Bool × ℕ) :=
  (s.clientConnectionPool.get i).map fun c => (c.deleteMark, c.relaySideConnectionId)

/-- A future as a completion. -/
def answerOf (future : Future ℕ ℕ) : ℕ × Completion ℕ :=
  (future.context, if future.isReady then .ready future.result else .pending)

def connectionFutureOf (s : ProxyAccessService σ) (f : ℕ) : Option (ℕ × Completion ℕ) :=
  ((s.futureManager .acquireDeviceConnection).get f).map answerOf

/-- The client that a future is for waits for it. -/
theorem Paired.futureOf_of_future {f i : ℕ} {z : Completion ℕ} (hs : Paired s)
    (h : s.connectionFutureOf f = some (i, z)) : s.futureOf .acquireDeviceConnection i = some f := by
  obtain ⟨future, hf, heq⟩ := Option.map_eq_some_iff.1 h
  refine (hs.futures _ i f).2 ?_
  rw [contextOf, hf, Option.map_some, show future.context = i from congrArg Prod.fst heq]

/-- The future that a client waits for is live, and is for the client. -/
theorem Paired.future_of_futureOf {k f : ℕ} (hs : Paired s)
    (hc : s.clientConnectionPool.get k = some c) (hcf : c.futures .acquireDeviceConnection = some f) :
    ∃ z, s.connectionFutureOf f = some (k, z) := by
  have hcontext : s.contextOf .acquireDeviceConnection f = some k :=
    (hs.futures _ k f).1 (by rw [futureOf, hc, Option.bind_some, hcf])
  obtain ⟨future, hf, rfl⟩ := Option.map_eq_some_iff.1 hcontext
  rw [connectionFutureOf, hf]
  exact ⟨_, rfl⟩

/-- The half of the proxy. -/
def routesOf (s : ProxyAccessService σ) (hs : Sound s) : Routes where
  client := s.clientOf
  future := s.connectionFutureOf
  lastClient := s.clientConnectionPool.lastId
  lastFuture := (s.futureManager .acquireDeviceConnection).futurePool.lastId
  client_le i v h := by
    obtain ⟨c, hc, -⟩ := Option.map_eq_some_iff.1 h
    exact Storage.le_lastId_of_get hc
  future_le f v h := by
    obtain ⟨future, hf, -⟩ := Option.map_eq_some_iff.1 h
    exact Storage.le_lastId_of_get hf
  waiter f i z h := by
    obtain ⟨c, hc, hcf⟩ := Option.bind_eq_some_iff.1 (hs.futureOf_of_future h)
    obtain ⟨g, hg⟩ := hs.stage i c hc
    refine ⟨c.deleteMark, ?_⟩
    rw [clientOf, hc, Option.map_some,
      hg.relaySideConnectionId (AtStage.ne_tunnel (hg.awaits_of_futures hcf))]
  once f g i z z' h h' :=
    Option.some.inj ((hs.futureOf_of_future h).symm.trans (hs.futureOf_of_future h'))

/-- A call of the services that is neither `CreateConnection` nor `DestroyConnection`. -/
inductive OtherCall (S : Services σ) (x : σ) : σ → Prop
  | none : OtherCall S x x
  | acquireAuthInfo (key y r) (h : S.acquireAuthInfo x key = .ok (y, r)) : OtherCall S x y
  | releaseAuthInfo (i usage y) (h : S.releaseAuthInfo x i usage = .ok y) : OtherCall S x y
  | acquireDevice (request f) : OtherCall S x (S.acquireDevice x request f).1
  | createUdpChannel (a d u f) : OtherCall S x (S.createUdpChannel x a d u f).1
  | postData (a k data) : OtherCall S x (S.postData x a k data)
  | postUdpData (a u b data) : OtherCall S x (S.postUdpData x a u b data)
  | destroyUdpChannel (a u) : OtherCall S x (S.destroyUdpChannel x a u)

/-- What an act does to the route of its client: nothing, or it asks for a relay connection, or
    learns of one. -/
inductive ActRoute (S : Services σ) (s : ProxyAccessService σ) (c : ClientConnection)
    (x : Core σ) (taken : Option ((κ : FutureKind) × Option κ.Result)) : Prop
  | quiet (hservices : OtherCall S s.services x.services)
      (hmanager : x.futureManager .acquireDeviceConnection = s.futureManager .acquireDeviceConnection)
      (hrelay : x.relaySideConnectionId = c.relaySideConnectionId)
      (htaken : ∀ k, taken ≠ some ⟨.acquireDeviceConnection, some k⟩)
  | ask (f m a d target z) (hacquire : (s.futureManager .acquireDeviceConnection).acquireFuture
        c.connectionId = some (f, m))
      (hcreate : S.createConnection s.services a d c.connectionId target f = (x.services, z))
      (hmanager : x.futureManager .acquireDeviceConnection = m.complete f z)
      (hzero : c.relaySideConnectionId = 0) (hrelay : x.relaySideConnectionId = c.relaySideConnectionId)
      (htaken : ∀ r, taken ≠ some ⟨.acquireDeviceConnection, r⟩)
  | learn (k) (hservices : OtherCall S s.services x.services)
      (hmanager : x.futureManager .acquireDeviceConnection = s.futureManager .acquireDeviceConnection)
      (hrelay : x.relaySideConnectionId = k)
      (htaken : taken = some ⟨.acquireDeviceConnection, some k⟩)

theorem Act.route (h : Act S s c s' x taken) : ActRoute S s c x taken := by
  cases h with
  | quiet htaken hcore =>
    subst hcore
    exact .quiet .none rfl rfl fun k hk => (by cases htaken _ k hk)
  | grant r hid hcore =>
    subst hcore
    exact .quiet .none rfl rfl (by simp)
  | unbound _ _ _ _ hcore | bind _ _ _ _ _ _ _ hcore =>
    subst hcore
    exact .quiet .none rfl rfl (by simp)
  | authenticate f m key t r hacquire hauth hfuture hid hcore =>
    subst hcore
    exact .quiet (.acquireAuthInfo key t r hauth) (by simp [Core.request, core]) rfl (by simp)
  | locate r f m request t z hacquire hdevice hfuture hid hcore =>
    subst hcore
    refine .quiet ?_ (by simp [Core.request, core]) rfl (by simp)
    rw [show t = (S.acquireDevice s.services request f).1 by rw [hdevice]]
    exact .acquireDevice request f
  | connect f m a d target t z htaken hacquire hcreate hfuture hrelay hcore =>
    subst hcore
    refine .ask f m a d target z hacquire hcreate (by simp [Core.request, core]) hrelay rfl fun r hr => ?_
    rcases htaken with htaken | ⟨_, htaken⟩
    · rw [htaken] at hr
      cases hr
    · rw [htaken] at hr
      cases hr
  | associate u p udpChannel f m a d t z hudp hparent hid hbind hacquire hcreate hfuture hcore =>
    subst hcore
    refine .quiet ?_ (by simp [Core.request, core]) rfl (by simp)
    rw [show t = (S.createUdpChannel s.services a d u f).1 by rw [hcreate]]
    exact .createUdpChannel a d u f
  | establish k reply hrelay hcore =>
    subst hcore
    exact .learn k .none rfl rfl rfl
  | establishNormal k a data hrelay htype hcore =>
    subst hcore
    exact .learn k (.postData a k data) rfl rfl rfl
  | channelReady e u udpChannel htype hbind hudp hcore =>
    subst hcore
    exact .quiet .none rfl rfl (by simp)
  | forward a data hcore =>
    subst hcore
    exact .quiet (.postData a _ data) rfl rfl (by simp)

/-- Only the services and the futures matter. -/
theorem ActRoute.congr (h : ActRoute S s c x taken) (hservices : t.services = s.services)
    (hmanager : t.futureManager .acquireDeviceConnection = s.futureManager .acquireDeviceConnection) :
    ActRoute S t c x taken := by
  cases h with
  | quiet hother hsame hrelay htaken => 
    exact .quiet (hservices ▸ hother) (hsame.trans hmanager.symm) hrelay htaken
  | ask f m a d target z hacquire hcreate hafter hzero hrelay htaken =>
    exact .ask f m a d target z (hmanager ▸ hacquire) (hservices ▸ hcreate) hafter hzero hrelay htaken
  | learn k hother hsame hrelay htaken =>
    exact .learn k (hservices ▸ hother) (hsame.trans hmanager.symm) hrelay htaken

/-! ## The tables of the proxy -/

theorem futureManager_setFutureManager (s : ProxyAccessService σ) (κ : FutureKind)
    (m : FuturePoolManager ℕ κ.Result) : (s.setFutureManager κ m).futureManager κ = m := by
  simp [setFutureManager]

theorem clientOf_congr (h : t.clientConnectionPool = s.clientConnectionPool) :
    t.clientOf = s.clientOf := by
  funext i
  rw [clientOf, clientOf, h]

theorem connectionFutureOf_congr (h : t.futureManager .acquireDeviceConnection =
    s.futureManager .acquireDeviceConnection) : t.connectionFutureOf = s.connectionFutureOf := by
  funext f
  rw [connectionFutureOf, connectionFutureOf, h]

/-- A client is written back. -/
theorem clientOf_store {k : ℕ} (hpool : s'.clientConnectionPool = s.clientConnectionPool)
    (hc : s.clientConnectionPool.get k = some c) (hid : c'.connectionId = k) :
    (s'.store c').clientOf =
      Function.update s.clientOf k (some (c'.deleteMark, c'.relaySideConnectionId)) := by
  funext j
  rw [clientOf, get_store_of_pool hpool hc hid, Function.update_apply]
  split
  · rfl
  · rfl

/-- A client is written back with the same mark and the same relay connection. -/
theorem clientOf_store_same {k : ℕ} (hpool : s'.clientConnectionPool = s.clientConnectionPool)
    (hc : s.clientConnectionPool.get k = some c) (hid : c'.connectionId = k)
    (h : (c'.deleteMark, c'.relaySideConnectionId) = (c.deleteMark, c.relaySideConnectionId)) :
    (s'.store c').clientOf = s.clientOf := by
  rw [clientOf_store hpool hc hid, h, Function.update_eq_self_iff, clientOf, hc]
  rfl

/-- A future that is acquired, and answered at once or not. -/
theorem connectionFutureOf_ask {i f : ℕ} {m : FuturePoolManager ℕ ℕ} {z : Completion ℕ}
    (hacquire : (s.futureManager .acquireDeviceConnection).acquireFuture i = some (f, m))
    (ht : t.futureManager .acquireDeviceConnection = m.complete f z) :
    t.connectionFutureOf = Function.update s.connectionFutureOf f (some (i, z)) := by
  obtain ⟨-, -, -, hget⟩ := FuturePoolManager.acquireFuture_eq_some hacquire
  have hf := hget f
  rw [if_pos rfl] at hf
  funext g
  rw [connectionFutureOf, ht, Function.update_apply]
  cases z with
  | pending =>
    change (m.get g).map answerOf = _
    rw [hget]
    split
    · rfl
    · rfl
  | ready r =>
    change ((m.setReady f r).get g).map answerOf = _
    rw [FuturePoolManager.get_setReady hf, hget]
    split
    · rfl
    · rfl

theorem lastFuture_ask {i f : ℕ} {m : FuturePoolManager ℕ ℕ} {z : Completion ℕ}
    (hacquire : (s.futureManager .acquireDeviceConnection).acquireFuture i = some (f, m)) :
    (s.futureManager .acquireDeviceConnection).futurePool.lastId < f ∧
      (m.complete f z).futurePool.lastId = f := by
  obtain ⟨hf, hm⟩ := FuturePoolManager.lastId_of_acquireFuture hacquire
  refine ⟨by omega, ?_⟩
  cases z with
  | pending => exact hm
  | ready r => exact (FuturePoolManager.lastId_setReady m f r).trans hm

end ProxyAccessService

/-- How far a connection is. -/
def RelayLocalDeviceConnection.phase (c : RelayLocalDeviceConnection) : LinkPhase :=
  if c.deleteMark then .closing
  else match c.createConnectionFutureHandle with
    | some f => .opening f
    | none => .opened

namespace RelayLocalDeviceConnection

variable {c : RelayLocalDeviceConnection} {f : ℕ}

theorem phase_closing (hmark : c.deleteMark = true) : c.phase = .closing := if_pos hmark

theorem phase_opening (hmark : c.deleteMark = false) (hf : c.createConnectionFutureHandle = some f) :
    c.phase = .opening f := by
  rw [phase, if_neg (by simp [hmark]), hf]

theorem phase_opened (hmark : c.deleteMark = false) (hf : c.createConnectionFutureHandle = none) :
    c.phase = .opened := by
  rw [phase, if_neg (by simp [hmark]), hf]

/-- The future that an unmarked connection is to complete. -/
theorem future_phase (hmark : c.deleteMark = false) :
    c.phase.future = c.createConnectionFutureHandle := by
  cases hf : c.createConnectionFutureHandle with
  | none =>
    rw [phase_opened hmark hf]
    rfl
  | some f =>
    rw [phase_opening hmark hf]
    rfl

end RelayLocalDeviceConnection

namespace RelayLocalBindingService

/-- The half of the relay. -/
def linksOf (s : RelayLocalBindingService) : Links where
  link k := (s.localConnectionPool.get k).map fun c => (c.proxySideConnectionId, c.phase)
  lookup d := (s.dnsFutureManager.get d).map fun f =>
    (f.context.proxySideConnectionId, f.context.createConnectionFutureHandle)
  lastId := s.localConnectionPool.lastId
  link_le k v h := by
    obtain ⟨c, hc, -⟩ := Option.map_eq_some_iff.1 h
    exact ⟨Storage.pos_of_get hc, Storage.le_lastId_of_get hc⟩

end RelayLocalBindingService

namespace RelayLocalBindingService

variable {R : RelayPlatform} {s t : RelayLocalBindingService}

theorem linksOf_becomes (hpool : t.localConnectionPool = s.localConnectionPool)
    (hdns : t.dnsFutureManager = s.dnsFutureManager) :
    s.linksOf.Becomes s.linksOf.link s.linksOf.lookup t.linksOf where
  link := by
    funext k
    simp only [linksOf, hpool]
  lookup := by
    funext d
    simp only [linksOf, hdns]
  lastId := by
    simp only [linksOf, hpool]
    exact le_rfl

theorem linksOf_link {k : ℕ} {c : RelayLocalDeviceConnection} (hc : s.localConnectionPool.get k = some c) :
    s.linksOf.link k = some (c.proxySideConnectionId, c.phase) := by
  simp only [linksOf, hc, Option.map_some]

theorem link_eq_none {k : ℕ} (h : s.localConnectionPool.get k = none) : s.linksOf.link k = none := by
  simp only [linksOf, h, Option.map_none]

/-- A new connection. -/
theorem link_acquire {y : ℕ → RelayLocalDeviceConnection} {k i f : ℕ}
    (hacquire : s.localConnectionPool.acquire y = some (k, t.localConnectionPool))
    (hnew : (y k).IsNew k i f) :
    t.linksOf.link = Function.update s.linksOf.link k (some (i, .opening f)) ∧
      s.linksOf.lastId < k ∧ t.linksOf.lastId = k := by
  obtain ⟨hk, hlast, -⟩ := Storage.acquire_eq_some hacquire
  refine ⟨?_, ?_, hlast⟩
  · funext j
    simp only [linksOf, Storage.get_acquire hacquire, Function.update_apply]
    split
    · rw [Option.map_some, hnew.proxySideConnectionId,
        RelayLocalDeviceConnection.phase_opening hnew.deleteMark hnew.createConnectionFutureHandle]
    · rfl
  · simp only [linksOf]
    omega

theorem link_sameEntries (h : SameEntries t.localConnectionPool s.localConnectionPool) :
    t.linksOf.link = s.linksOf.link ∧ s.linksOf.lastId ≤ t.linksOf.lastId := by
  refine ⟨?_, h.1⟩
  funext j
  simp only [linksOf, h.2]

/-- A request for a connection is refused, or starts a lookup, or opens a connection. -/
theorem createConnection_becomes {d i f : ℕ} {target : Target} {z : Completion ℕ}
    (h : createConnection R s d i target f = (t, z)) :
    z = .ready none ∧ s.linksOf.Becomes s.linksOf.link s.linksOf.lookup t.linksOf ∨
    z = .pending ∧ (∃ e, s.linksOf.lookup e = none ∧ s.linksOf.Becomes s.linksOf.link
      (Function.update s.linksOf.lookup e (some (i, f))) t.linksOf) ∨
    z = .pending ∧ ∃ k, s.linksOf.lastId < k ∧ s.linksOf.Becomes
      (Function.update s.linksOf.link k (some (i, .opening f))) s.linksOf.lookup t.linksOf := by
  cases target with
  | address b =>
    rw [createConnection] at h
    rcases createConnectionToAddress_cases (R := R) s d i f b with
      ⟨attempts, p, hp, h'⟩ | ⟨attempts, y, k, p, hp, hnew, h'⟩
    · rw [h'] at h
      cases h
      exact .inl ⟨rfl, (link_sameEntries hp).1, rfl, (link_sameEntries hp).2⟩
    · rw [h'] at h
      cases h
      obtain ⟨hlink, hlt, hlast⟩ := link_acquire (t := { s with localConnectionPool := p }) hp hnew
      exact .inr (.inr ⟨rfl, k, hlt, hlink, rfl, hlt.le.trans hlast.ge⟩)
  | hostname name port =>
    simp only [createConnection, createConnectionToHostname] at h
    split at h
    · cases h
      exact .inl ⟨rfl, rfl, rfl, le_rfl⟩
    next e m hm =>
    obtain ⟨hnone, -, -, hget⟩ := FuturePoolManager.acquireFuture_eq_some hm
    split at h
    · cases h
      refine .inr (.inl ⟨rfl, e, by simp only [linksOf, hnone, Option.map_none], rfl, ?_, le_rfl⟩)
      funext j
      simp only [linksOf, hget, Function.update_apply]
      split
      · rfl
      · rfl
    · cases h
      refine .inl ⟨rfl, rfl, ?_, le_rfl⟩
      funext j
      simp only [linksOf, FuturePoolManager.get_releaseFuture, hget]
      split
      · next hj => rw [hj, hnone]
      · rfl

/-- A connection that is written back. -/
theorem link_store {c d : RelayLocalDeviceConnection} {k : ℕ} (hs : Tidy s)
    (lists : Linked RelayConnectionList) (hc : s.localConnectionPool.get k = some c)
    (hid : d.connectionId = c.connectionId) :
    ({ s with connectionLists := lists }.store d).linksOf.link =
      Function.update s.linksOf.link k (some (d.proxySideConnectionId, d.phase)) := by
  funext j
  simp only [linksOf, get_store (s := { s with connectionLists := lists }) hc
    (hid.trans (hs.connectionId hc)), Function.update_apply]
  split
  · rfl
  · rfl

/-- A connection that is marked. -/
theorem linksOf_becomes_closed {c d : RelayLocalDeviceConnection} {k : ℕ} (hs : Tidy s)
    (lists : Linked RelayConnectionList) (hc : s.localConnectionPool.get k = some c)
    (hid : d.connectionId = c.connectionId)
    (hfor : d.proxySideConnectionId = c.proxySideConnectionId) (hmark : d.deleteMark = true) :
    s.linksOf.Becomes (s.linksOf.closed k) s.linksOf.lookup
      ({ s with connectionLists := lists }.store d).linksOf where
  link := by
    rw [link_store hs lists hc hid, Links.closed_eq_update (linksOf_link hc), hfor,
      RelayLocalDeviceConnection.phase_closing hmark]
  lookup := rfl
  lastId := (Storage.lastId_set _ _ _).ge

/-- Destroying a connection closes it, if it is there. -/
theorem destroyConnection_becomes (hs : Tidy s) (k : ℕ) :
    s.linksOf.Becomes (s.linksOf.closed k) s.linksOf.lookup (destroyConnection s k).linksOf := by
  unfold destroyConnection
  split
  · next hnone =>
    refine ⟨funext fun j => ?_, rfl, le_rfl⟩
    unfold Links.closed
    split
    · next hj => rw [hj, link_eq_none hnone, Option.map_none]
    · rfl
  next c hc =>
  dsimp only
  by_cases hmark : c.deleteMark = true
  · rw [deferDestroyConnection, if_pos (by exact hmark)]
    exact linksOf_becomes_closed hs s.connectionLists hc rfl rfl hmark
  · rw [deferDestroyConnection, if_neg (by exact hmark)]
    have hclosed := linksOf_becomes_closed (d := { c with
      deleteMark := true, createConnectionFutureHandle := none }) hs
      (s.connectionLists.grabTail .kill c.connectionId) hc rfl rfl rfl
    simpa only [store, Storage.set_set] using hclosed

/-- A UDP channel is no connection. -/
theorem createUdpChannel_becomes (d i : ℕ) :
    s.linksOf.Becomes s.linksOf.link s.linksOf.lookup (createUdpChannel R s d i).1.linksOf := by
  unfold createUdpChannel
  dsimp only
  split
  · exact linksOf_becomes rfl rfl
  split
  · exact linksOf_becomes rfl rfl
  split
  · exact linksOf_becomes rfl rfl
  · exact linksOf_becomes rfl rfl

theorem destroyUdpChannel_becomes (u : ℕ) :
    s.linksOf.Becomes s.linksOf.link s.linksOf.lookup (destroyUdpChannel s u).linksOf := by
  unfold destroyUdpChannel
  split
  · exact linksOf_becomes rfl rfl
  · exact linksOf_becomes rfl rfl

theorem postData_becomes (k : ℕ) (data : Bytes) :
    s.linksOf.Becomes s.linksOf.link s.linksOf.lookup (postData s k data).linksOf := by
  unfold postData
  dsimp only
  split
  · exact linksOf_becomes rfl rfl
  split
  · exact linksOf_becomes rfl rfl
  · exact linksOf_becomes rfl rfl

theorem postUdpData_becomes (u : ℕ) (a : NetAddress) (data : Bytes) :
    s.linksOf.Becomes s.linksOf.link s.linksOf.lookup (postUdpData s u a data).linksOf := by
  unfold postUdpData
  dsimp only
  split
  · exact linksOf_becomes rfl rfl
  split
  · exact linksOf_becomes rfl rfl
  · exact linksOf_becomes rfl rfl

/-! ## Idle connections -/

variable (R) in
/-- The lookups leave the lists of the connections. -/
theorem connectionLists_processDnsResults (live : ℕ → Bool) (s : RelayLocalBindingService) :
    (processDnsResults R live s).1.connectionLists = s.connectionLists := by
  have hloop (is : List ℕ) (x : RelayLocalBindingService × List ProxyEvent) :
      (is.foldl (processDnsResult R live) x).1.connectionLists = x.1.connectionLists := by
    induction is generalizing x with
    | nil => rfl
    | cons i is ih =>
      rw [List.foldl_cons, ih]
      obtain ⟨s, o₀⟩ := x
      cases hi : s.dnsFutureManager.get i with
      | none => simp [processDnsResult, hi]
      | some dnsFuture =>
        rcases processDnsResult_cases R live hi with ⟨_, _, -, h⟩ | ⟨_, _, _, _, -, -, -, h⟩
        · rw [h]
        · rw [h]
  exact hloop _ _

/-- The first of the connections that a tick marks because they are idle, if any. -/
def dueConnection (s : RelayLocalBindingService) (nowMS : ℕ) : Option ℕ :=
  (s.connectionLists.nodes .idleTimeout).head?.filter { s with localTicker := nowMS }.isIdle

variable (R) in
/-- The lookups leave the idle connections as they are. -/
theorem isIdle_processDnsResults {k : ℕ} (live : ℕ → Bool) (hs : Tidy s)
    (hk : k ∈ s.connectionLists.nodes .idleTimeout) :
    (processDnsResults R live s).1.isIdle k = s.isIdle k := by
  obtain ⟨c, hc⟩ := hs.filed.live ⟨_, hk⟩
  have hkept := (processDnsResults_turns R live s).keptByDns hs
  rw [isIdle, isIdle, (hkept.kept k c hc).1, hc, hkept.localTicker]

/-- The connections that a tick marks because they are idle. -/
def dueConnections (s : RelayLocalBindingService) (nowMS : ℕ) : List ℕ :=
  (s.connectionLists.nodes .idleTimeout).takeWhile { s with localTicker := nowMS }.isIdle

theorem dueConnection_eq_none {nowMS : ℕ} : s.dueConnection nowMS = none ↔ s.dueConnections nowMS = [] := by
  rw [dueConnection, dueConnections, ← List.head?_takeWhile, List.head?_eq_none_iff]

variable (R) in
/-- The lookups leave the connections whose time is up. -/
theorem dueConnections_processDnsResults {nowMS : ℕ} (live : ℕ → Bool) (hs : Tidy s) :
    let t := (processDnsResults R live { s with localTicker := nowMS }).1
    (t.connectionLists.nodes .idleTimeout).takeWhile t.isIdle = s.dueConnections nowMS := by
  have hs' : Tidy { s with localTicker := nowMS } := hs.congr (fun _ => rfl) (fun _ => rfl) rfl rfl
  dsimp only
  rw [connectionLists_processDnsResults, dueConnections]
  exact takeWhile_congr fun k hk => isIdle_processDnsResults R live hs' hk

/-- The labels of the turns of a tick of the relay. -/
def Ticks (s : RelayLocalBindingService) (nowMS : ℕ) (l : RelayLabel) : Prop :=
  l = .quiet ∨ IsDns l ∨ (∃ k ∈ s.dueConnections nowMS, l = .idle k) ∨ IsCleanup l

variable (R) in
/-- The connections that a tick of the relay ends are those that are due. -/
theorem tick_turns_due (live : ℕ → Bool) (hs : Tidy s) (nowMS : ℕ) :
    RelayTurns live (s.Ticks nowMS) s (tick R live s nowMS).2 (tick R live s nowMS).1 := by
  have hclock : RelayTurn live s .quiet [] { s with localTicker := nowMS } :=
    quiet_turn nowMS s.attempts s.posts
  have hdns := processDnsResults_turns R live { s with localTicker := nowMS }
  have htidy := hdns.tidy (hclock.tidy hs)
  have hidle := (deferDestroyIdleConnections_turns live htidy).1
  have hrest := cleanup_turns live (hidle.tidy htidy)
  rw [dueConnections_processDnsResults R live hs] at hidle
  have h₁ : RelayTurns live (s.Ticks nowMS) s _ _ :=
    (RelayTurns.single (.inl rfl) hclock).trans (hdns.mono fun _ hl => .inr (.inl hl))
  have h₂ := (h₁.trans (hidle.mono fun _ hl => .inr (.inr (.inl hl)))).trans
    (hrest.mono fun _ hl => .inr (.inr (.inr hl)))
  rw [List.append_nil] at h₂
  exact h₂

end RelayLocalBindingService

namespace ProxyWithRelay

open ProxyAccessService RelayLocalBindingService

variable {α : Type*} {R : RelayPlatform} {A : AuthServiceStub α} {w t : ProxyWithRelay α}
  {x : Core (RelayLocalBindingService × α)} {c : ClientConnection} {i : ℕ}
  {taken : Option ((κ : FutureKind) × Option κ.Result)}

/-- The authentication service is not the relay. -/
theorem acquireAuthInfo_relay {x y : RelayLocalBindingService × α} {key : Bytes} {r : Option AuthResult}
    (h : (wiredServices R A).acquireAuthInfo x key = .ok (y, r)) : y.1 = x.1 := by
  change (A.acquireAuthInfo x.2 key).map _ = _ at h
  rcases hx : A.acquireAuthInfo x.2 key with e | ⟨b, z⟩
  · rw [hx] at h
    cases h
  · rw [hx] at h
    cases h
    rfl

theorem releaseAuthInfo_relay {x y : RelayLocalBindingService × α} {i : ℕ} {usage : LocalUsage}
    (h : (wiredServices R A).releaseAuthInfo x i usage = .ok y) : y.1 = x.1 := by
  change (A.releaseAuthInfo x.2 i usage).map _ = _ at h
  rcases hx : A.releaseAuthInfo x.2 i usage with e | b
  · rw [hx] at h
    cases h
  · rw [hx] at h
    cases h
    rfl

/-- The other calls leave the connections of the relay. -/
theorem otherCall_becomes {x y : RelayLocalBindingService × α} (h : OtherCall (wiredServices R A) x y) :
    x.1.linksOf.Becomes x.1.linksOf.link x.1.linksOf.lookup y.1.linksOf := by
  cases h with
  | none | acquireDevice => exact ⟨rfl, rfl, le_rfl⟩
  | acquireAuthInfo key y r h =>
    rw [acquireAuthInfo_relay h]
    exact ⟨rfl, rfl, le_rfl⟩
  | releaseAuthInfo i usage y h =>
    rw [releaseAuthInfo_relay h]
    exact ⟨rfl, rfl, le_rfl⟩
  | createUdpChannel a d u f => exact createUdpChannel_becomes d u
  | postData a k data => exact postData_becomes k data
  | postUdpData a u b data => exact postUdpData_becomes u b data
  | destroyUdpChannel a u => exact destroyUdpChannel_becomes u

end ProxyWithRelay

end ProxyPlatform
