import ProxyPlatform.Proxy.Timers
import ProxyPlatform.Wiring.Halves

/-!
# Turns as steps of the tunnels

A turn of either service is one step of the tunnels.

* `turn_tunnel`: a turn of the proxy, with the calls of the relay that it makes;
* `relayTurn_tunnel`: a turn of the relay, with the calls of the proxy that it makes.
-/

namespace ProxyPlatform

/-- The steps of the tunnels that a turn of the proxy may be. -/
def TurnLabel.IsTunnel : TurnLabel → TunnelLabel → Prop
  | .peerClose i, m => m = .peerClose i
  | .destroy i, m => m = .drop i
  | .result _, m => m = .quiet ∨ ∃ i, m = .take i
  | _, m => m = .quiet

/-- The steps of the tunnels that a turn of the relay may be. -/
def RelayLabel.IsTunnel : RelayLabel → TunnelLabel → Prop
  | .connected k, m => m = .quiet ∨ m = .connect k
  | .idle k, m => m = .idle k
  | _, m => m = .quiet

namespace ProxyWithRelay

open ProxyAccessService RelayLocalBindingService

variable {α : Type*} {R : RelayPlatform} {A : AuthServiceStub α} {w t : ProxyWithRelay α}
  {x : Core (RelayLocalBindingService × α)} {c : ClientConnection} {i : ℕ}
  {taken : Option ((κ : FutureKind) × Option κ.Result)} {l : TurnLabel}

/-- A call on a client that learns of no relay connection. -/
theorem tunnel_of_route (h : ActRoute (wiredServices R A) w c x taken) (hs : Sound w) (ht : Sound t)
    (hc : w.clientConnectionPool.get i = some c)
    (htaken : ∀ k, taken ≠ some ⟨.acquireDeviceConnection, some k⟩)
    (hservices : t.services = x.services)
    (hmanager : t.futureManager .acquireDeviceConnection = x.futureManager .acquireDeviceConnection)
    (hclient : t.clientOf = Function.update w.clientOf i (some (c.deleteMark, x.relaySideConnectionId)))
    (hlast : t.clientConnectionPool.lastId = w.clientConnectionPool.lastId) :
    TunnelStep (routesOf w hs) w.relay.linksOf .quiet (routesOf t ht) t.relay.linksOf := by
  have hi : w.clientOf i = some (c.deleteMark, c.relaySideConnectionId) := by
    rw [clientOf, hc, Option.map_some]
  have hid : c.connectionId = i := hs.connectionId i c hc
  have hsame (h : x.relaySideConnectionId = c.relaySideConnectionId) : t.clientOf = w.clientOf := by
    rw [hclient, h, ← hi, Function.update_eq_self]
  have hrelayof : t.relay = x.services.1 := congrArg Prod.fst hservices
  cases h with
  | quiet hother hmanager' hrelay =>
    refine .quiet ⟨hsame hrelay, connectionFutureOf_congr (hmanager.trans hmanager'), hlast.ge, ?_⟩ ?_
    · exact (congrArg (fun m => m.futurePool.lastId) (hmanager.trans hmanager')).ge
    · rw [hrelayof]
      exact otherCall_becomes hother
  | learn k hother hmanager' hrelay htaken' => exact absurd htaken' (htaken k)
  | ask f m a d target z hacquire hcreate hmanager' hzero hrelay =>
    rw [hid] at hacquire hcreate
    have hfuture := connectionFutureOf_ask hacquire (hmanager.trans hmanager')
    obtain ⟨hlt, hlastf⟩ := lastFuture_ask (z := z) hacquire
    have hle : (w.futureManager .acquireDeviceConnection).futurePool.lastId ≤
        (t.futureManager .acquireDeviceConnection).futurePool.lastId := by
      rw [hmanager.trans hmanager', hlastf]
      exact hlt.le
    rw [hzero] at hi
    have hfst := congrArg (fun y => y.1.1) hcreate
    have hsnd := congrArg Prod.snd hcreate
    have hcall : createConnection R w.relay d i target f = (x.services.1, z) := Prod.ext hfst hsnd
    rw [hrelayof]
    rcases createConnection_becomes hcall with ⟨rfl, hr⟩ | ⟨rfl, e, he, hr⟩ | ⟨rfl, k, hk, hr⟩
    · exact .refuse i f _ hi hlt ⟨hsame hrelay, hfuture, hlast.ge, hle⟩ hr
    · exact .look i f e _ hi hlt he ⟨hsame hrelay, hfuture, hlast.ge, hle⟩ hr
    · exact .open i f k _ hi hlt hk ⟨hsame hrelay, hfuture, hlast.ge, hle⟩ hr

/-- Nothing of the tunnels changes. -/
theorem tunnel_of_same (hs : Sound w) (ht : Sound t) (hclient : t.clientOf = w.clientOf)
    (hlast : w.clientConnectionPool.lastId ≤ t.clientConnectionPool.lastId)
    (hmanager : t.futureManager .acquireDeviceConnection = w.futureManager .acquireDeviceConnection)
    (hr : w.relay.linksOf.Becomes w.relay.linksOf.link w.relay.linksOf.lookup t.relay.linksOf) :
    TunnelStep (routesOf w hs) w.relay.linksOf .quiet (routesOf t ht) t.relay.linksOf :=
  .quiet ⟨hclient, connectionFutureOf_congr hmanager, hlast,
    (congrArg (fun m => m.futurePool.lastId) hmanager).ge⟩ hr

/-- Taking up a result of the relay. -/
theorem tunnel_of_result {f : ℕ} {m : FuturePoolManager ℕ ℕ} {future : Future ℕ ℕ} {b : Bool} {n : ℕ}
    (hs : Sound w) (ht : Sound t)
    (hpop : (w.futureManager .acquireDeviceConnection).popHead = some (f, m))
    (hf : (w.futureManager .acquireDeviceConnection).get f = some future)
    (hi : w.clientOf future.context = some (b, n))
    (hclient : t.clientOf = Function.update w.clientOf future.context (some (b, future.result.getD 0)))
    (hlast : t.clientConnectionPool.lastId = w.clientConnectionPool.lastId)
    (hmanager : t.futureManager .acquireDeviceConnection = m.releaseFuture f)
    (hr : w.relay.linksOf.Becomes w.relay.linksOf.link w.relay.linksOf.lookup t.relay.linksOf) :
    TunnelStep (routesOf w hs) w.relay.linksOf (.take future.context) (routesOf t ht)
      t.relay.linksOf := by
  obtain ⟨hget, hlastm⟩ := FuturePoolManager.get_of_popHead hpop
  have hready : (routesOf w hs).future f = some (future.context, .ready future.result) := by
    obtain ⟨y, hy, hisReady⟩ := (w.futureManager .acquireDeviceConnection).ready_live f
      (popHead_eq_some hpop).2.1
    rw [show (w.futureManager .acquireDeviceConnection).futurePool.get f = some future from hf] at hy
    cases hy
    change ((w.futureManager .acquireDeviceConnection).get f).map answerOf = _
    rw [hf, Option.map_some, answerOf, if_pos hisReady]
  obtain ⟨b', hb'⟩ := (routesOf w hs).waiter f _ _ hready
  cases hi.symm.trans hb'
  refine .take _ f b future.result hi hready ⟨hclient, funext fun g => ?_, hlast.ge, ?_⟩ hr
  · change ((t.futureManager .acquireDeviceConnection).get g).map answerOf = _
    rw [hmanager, FuturePoolManager.get_releaseFuture, hget, Function.update_apply]
    split
    · rfl
    · rfl
  · change _ ≤ (t.futureManager .acquireDeviceConnection).futurePool.lastId
    rw [hmanager]
    exact hlastm.ge

/-- What is left of the futures when a client is destroyed. -/
theorem connectionFutureOf_left {σ : Type*} {s t : ProxyAccessService σ} {k : ℕ} {c : ClientConnection}
    (hs : Paired s) (hc : s.clientConnectionPool.get k = some c)
    (hmanager : t.futureManager .acquireDeviceConnection =
      (releaseFutures s c).futureManager .acquireDeviceConnection) (f : ℕ) :
    t.connectionFutureOf f = (s.connectionFutureOf f).filter fun v => v.1 ≠ k := by
  have hfuture : s.futureOf .acquireDeviceConnection k = c.futures .acquireDeviceConnection := by
    rw [futureOf, hc, Option.bind_some]
  have hkept (h : c.futures .acquireDeviceConnection ≠ some f) :
      t.connectionFutureOf f = s.connectionFutureOf f := by
    rw [connectionFutureOf, connectionFutureOf, hmanager, releaseFutures]
    dsimp only
    split
    · rfl
    · next g hg =>
      rw [FuturePoolManager.get_releaseFuture, if_neg]
      rintro rfl
      exact h hg
  have hlive (hcf : c.futures .acquireDeviceConnection = some f) : ∃ z, s.connectionFutureOf f = some (k, z) :=
    hs.future_of_futureOf hc hcf
  rcases hf : s.connectionFutureOf f with _ | ⟨i, z⟩
  · rw [hkept, hf]
    · rfl
    · intro hcf
      obtain ⟨z, hz⟩ := hlive hcf
      rw [hf] at hz
      cases hz
  have hwait := hs.futureOf_of_future hf
  by_cases hik : i = k
  · subst hik
    rw [Option.filter_some, if_neg (by simp), connectionFutureOf, hmanager, releaseFutures]
    dsimp only
    rw [← hfuture, hwait]
    dsimp only
    rw [FuturePoolManager.get_releaseFuture, if_pos rfl]
    rfl
  · rw [Option.filter_some, if_pos (by simpa using hik), hkept, hf]
    intro hcf
    obtain ⟨z', hz⟩ := hlive hcf
    rw [hf] at hz
    cases hz
    exact hik rfl

/-- A turn of the proxy that the relay has no part in is a step of the tunnels. -/
theorem turn_tunnel (h : Turn (wiredServices R A) w l t) (hs : Sound w) (ht : Sound t)
    (htidy : w.relay.Tidy) (hl : l ≠ .ready ∧ ∀ k, l ≠ .close k) :
    ∃ m, l.IsTunnel m ∧
      TunnelStep (routesOf w hs) w.relay.linksOf m (routesOf t ht) t.relay.linksOf := by
  cases h with
  | clock => exact ⟨_, rfl, tunnel_of_same hs ht rfl le_rfl rfl (.refl _)⟩
  | expire => exact ⟨_, rfl, tunnel_of_same hs ht rfl le_rfl rfl (.refl _)⟩
  | forwardUdp k a u b data =>
    exact ⟨_, rfl, tunnel_of_same hs ht rfl le_rfl rfl (postUdpData_becomes u b data)⟩
  | ready => exact absurd rfl hl.1
  | close k => exact absurd rfl (hl.2 k)
  | accept remoteAddress localAddress k p hacquire =>
    obtain ⟨hk, hlast, -⟩ := Storage.acquire_eq_some hacquire
    refine ⟨_, rfl, .accept k (by change w.clientConnectionPool.lastId < k; omega)
      ⟨funext fun j => ?_, rfl, ?_, le_rfl⟩ hlast.ge (.refl _)⟩
    · change (p.get j).map _ = _
      rw [Storage.get_acquire hacquire, Function.update_apply]
      split
      · rfl
      · rfl
    · change w.clientConnectionPool.lastId ≤ p.lastId
      omega
  | refuse y k p hacquire =>
    have hsame := SameEntries.acquire hacquire
    refine ⟨_, rfl, tunnel_of_same hs ht (funext fun j => ?_) hsame.1 rfl (.refl _)⟩
    change ((p.release k).get j).map _ = _
    rw [hsame.2]
    rfl
  | call k c s' c' hc heffect hstage =>
    refine ⟨_, rfl, tunnel_of_route heffect.act.route hs ht hc (by simp) rfl rfl ?_ ?_⟩
    · rw [clientOf_store heffect.clientConnectionPool hc
        (heffect.connectionId.trans (hs.connectionId k c hc)), heffect.deleteMark]
      rfl
    · exact (Storage.lastId_set _ _ _).trans (congrArg Storage.lastId heffect.clientConnectionPool)
  | result κ f m future c s' c' hpop hf hc hcf heffect hcf' hstage =>
    have hid := hs.connectionId _ c hc
    have hpool : s'.clientConnectionPool = w.clientConnectionPool := heffect.clientConnectionPool
    have hlast := (Storage.lastId_set s'.clientConnectionPool c'.connectionId
      (c'.setFuture κ none)).trans (congrArg Storage.lastId hpool)
    have hpool' : (s'.setFutureManager κ ((s'.futureManager κ).releaseFuture f)).clientConnectionPool =
      w.clientConnectionPool := hpool
    have hid' : (c'.setFuture κ none).connectionId = future.context := heffect.connectionId.trans hid
    have hclient := clientOf_store hpool' hc hid'
    have hroute := heffect.act.route
    by_cases hκ : κ = .acquireDeviceConnection
    · subst hκ
      obtain ⟨g, hg⟩ := hs.stage _ c hc
      have hzero := hg.relaySideConnectionId (AtStage.ne_tunnel (hg.awaits_of_futures hcf))
      have hpopped : (w.setFutureManager .acquireDeviceConnection m).futureManager
          .acquireDeviceConnection = m := futureManager_setFutureManager w _ m
      obtain ⟨hother, hmanager, hrelay⟩ : OtherCall (wiredServices R A) w.services s'.services ∧
          s'.futureManager .acquireDeviceConnection = m ∧
          c'.relaySideConnectionId = future.result.getD 0 := by
        cases hroute with
        | quiet hother hmanager hrelay htaken =>
          refine ⟨hother, Eq.trans hmanager hpopped, Eq.trans hrelay ?_⟩
          rw [hzero]
          cases hr : future.result with
          | none => rfl
          | some k => exact absurd (by rw [hr]) (htaken k)
        | ask f m a d target z hacquire hcreate hafter _ hrelay htaken => exact absurd rfl (htaken _)
        | learn k hother hmanager hrelay htaken =>
          refine ⟨hother, Eq.trans hmanager hpopped, Eq.trans hrelay ?_⟩
          rw [eq_of_heq (Sigma.mk.inj (Option.some.inj htaken)).2]
          rfl
      refine ⟨_, .inr ⟨future.context, rfl⟩, tunnel_of_result (n := c.relaySideConnectionId)
        (b := c.deleteMark) hs ht hpop hf (by rw [clientOf, hc, Option.map_some]) ?_ hlast ?_ ?_⟩
      · rw [hclient, ← hrelay, ← heffect.deleteMark]
        rfl
      · rw [← hmanager]
        exact futureManager_setFutureManager s' .acquireDeviceConnection _
      · exact otherCall_becomes hother
    · have hne : FutureKind.acquireDeviceConnection ≠ κ := Ne.symm hκ
      have hmanager : (w.setFutureManager κ m).futureManager .acquireDeviceConnection =
          w.futureManager .acquireDeviceConnection := Function.update_of_ne hne _ _
      have hroute' : ActRoute (wiredServices R A) w c (core s' c') _ := hroute.congr rfl hmanager.symm
      refine ⟨_, .inl rfl, tunnel_of_route hroute' hs ht hc (fun k hk => hκ ?_) rfl
        (Function.update_of_ne hne _ _) ?_ hlast⟩
      · exact (Sigma.mk.inj (Option.some.inj hk)).1
      · rw [hclient, ← heffect.deleteMark]
        rfl
  | touch k c s' c' _ hc hframe hcore =>
    have hrelay : c'.relaySideConnectionId = c.relaySideConnectionId :=
      congrArg Core.relaySideConnectionId hcore
    refine ⟨_, rfl, tunnel_of_same hs ht ?_ ?_ ?_ ?_⟩
    · refine clientOf_store_same hframe.clientConnectionPool hc
        (hframe.connectionId.trans (hs.connectionId k c hc)) ?_
      rw [hframe.deleteMark, hrelay]
    · exact ((Storage.lastId_set _ _ _).trans (congrArg Storage.lastId hframe.clientConnectionPool)).ge
    · exact congrFun (congrArg Core.futureManager hcore) _
    · have hservices : s'.services = w.services := congrArg Core.services hcore
      change w.relay.linksOf.Becomes _ _ s'.services.1.linksOf
      rw [hservices]
      exact .refl _
  | peerClose k c s' c' hc hmark h =>
    obtain ⟨u, calls, heq, hu⟩ := onPeerClose_eq_ok hmark h
    cases heq
    have hi : w.clientOf k = some (false, c.relaySideConnectionId) := by
      rw [clientOf, hc, Option.map_some, hmark]
    refine ⟨_, rfl, .peerClose k _ hi ⟨?_, rfl, (Storage.lastId_set _ _ _).ge, le_rfl⟩ ?_⟩
    · rw [Routes.marked_eq_update hi]
      exact clientOf_store rfl hc (hs.connectionId k c hc)
    · change w.relay.linksOf.Becomes _ _ u.1.linksOf
      rcases hu with ⟨-, rfl, -⟩ | ⟨hzero, ⟨_, y, -, -, -, rfl, -⟩⟩ | ⟨hzero, -, rfl, -⟩
      · exact destroyConnection_becomes htidy _
      · rw [hzero, Links.closed_zero]
        exact destroyUdpChannel_becomes _
      · rw [hzero, Links.closed_zero]
        exact .refl _
  | flush k c hc =>
    have hid := hs.connectionId k c hc
    refine ⟨_, rfl, ?_⟩
    rcases onFlush_eq w c with ⟨hmark, heq⟩ | ⟨hmark, heq⟩
    · refine tunnel_of_same hs ht ?_ ?_ ?_ ?_
      all_goals rw [heq]
      · exact clientOf_store_same rfl hc hid (by simp [hmark])
      · exact (Storage.lastId_set _ _ _).ge
      · rfl
      · exact .refl _
    · refine tunnel_of_same hs ht ?_ ?_ ?_ ?_
      all_goals rw [heq]
      · exact clientOf_store_same rfl hc hid rfl
      · exact (Storage.lastId_set _ _ _).ge
      · rfl
      · exact .refl _
  | destroy k lists c t hpop hc hready h =>
    have hid := hs.connectionId k c hc
    obtain ⟨hpool, hmanager, -, -, -, -, hservices⟩ := destroyConnection_eq_ok h
    refine ⟨_, rfl, .drop k ⟨funext fun j => ?_, funext <| connectionFutureOf_left hs.toPaired hc (by
      rw [hmanager]; rfl), ?_, ?_⟩ ?_⟩
    · change (t.clientConnectionPool.get j).map _ = _
      rw [hpool, Storage.get_release, hid, Function.update_apply]
      split
      · rfl
      · rfl
    · change _ ≤ t.clientConnectionPool.lastId
      rw [hpool]
      exact le_rfl
    · change _ ≤ (t.futureManager .acquireDeviceConnection).futurePool.lastId
      rw [hmanager]
      unfold releaseFutures
      dsimp only
      split
      · exact le_rfl
      · exact le_rfl
    · change w.relay.linksOf.Becomes _ _ t.services.1.linksOf
      rcases hservices with ⟨-, heq, -⟩ | ⟨-, heq, -⟩
      · rw [heq]
        exact .refl _
      · rw [releaseAuthInfo_relay heq]
        exact .refl _

section

variable {σ : Type*} {P : Platform} {S : Services σ} {p p' : ProxyAccessService σ} {i f k : ℕ}

/-! ## What the relay does to the proxy -/

/-- What a call of the relay changes of a client that is closed. -/
theorem closeConnection_spec (s : ProxyAccessService σ) (c : ClientConnection) :
    let (s', c') := ProxyAccessService.closeConnection s c
    (s'.clientConnectionPool, s'.futureManager, s'.services) =
        (s.clientConnectionPool, s.futureManager, s.services) ∧
      (c'.connectionId, c'.deleteMark, c'.relaySideConnectionId) =
        (c.connectionId, true, c.relaySideConnectionId) := by
  rcases closeConnection_eq s c with ⟨hmark, heq⟩ | ⟨-, -, heq⟩ | ⟨-, -, heq⟩
  all_goals rw [heq]
  · exact ⟨rfl, by rw [hmark]⟩
  · exact ⟨rfl, rfl⟩
  · exact ⟨rfl, rfl⟩

theorem closeConnection_becomes (hp : Sound p) (hp' : Sound p')
    (h : ProxyAccessService.step S P p (.closeConnection i) = .ok p') :
    (routesOf p hp).Becomes ((routesOf p hp).marked i) (routesOf p hp).future (routesOf p' hp') ∧
      p'.services = p.services := by
  obtain ⟨hnone, rfl⟩ | ⟨c, s', c', hc, hr, rfl⟩ := onConnection_eq_ok h
  · refine ⟨⟨funext fun j => ?_, rfl, le_rfl, le_rfl⟩, rfl⟩
    unfold Routes.marked
    split
    · next hj =>
      change (p'.clientConnectionPool.get j).map _ = ((p'.clientConnectionPool.get j).map _).map _
      rw [hj, hnone]
      rfl
    · rfl
  · have hi : (routesOf p hp).client i = some (c.deleteMark, c.relaySideConnectionId) := by
      change (p.clientConnectionPool.get i).map _ = _
      rw [hc, Option.map_some]
    have hspec := closeConnection_spec p c
    rw [Except.ok.inj hr] at hspec
    simp only [Prod.mk.injEq] at hspec
    obtain ⟨⟨hpool, hmanager, hservices⟩, hid, hmark, hrelay⟩ := hspec
    refine ⟨⟨?_, connectionFutureOf_congr (congrFun hmanager _), ?_, ?_⟩, hservices⟩
    · rw [Routes.marked_eq_update hi]
      change (s'.store c').clientOf = _
      rw [clientOf_store hpool hc (hid.trans (hp.connectionId i c hc)), hmark, hrelay]
      rfl
    · exact ((Storage.lastId_set _ _ _).trans (congrArg Storage.lastId hpool)).ge
    · change _ ≤ (s'.futureManager .acquireDeviceConnection).futurePool.lastId
      rw [hmanager]
      exact le_rfl

theorem connectionFutureOf_setReady (p : ProxyAccessService σ) (f : ℕ) (result : Option ℕ) (g : ℕ) :
    (p.setReady .acquireDeviceConnection f result).connectionFutureOf g =
      if some f = some g then (p.connectionFutureOf g).map fun v => (v.1, v.2.settle result)
      else p.connectionFutureOf g := by
  by_cases hg : f = g
  · subst hg
    rw [if_pos rfl]
    unfold ProxyAccessService.setReady
    split
    · next hf => rw [connectionFutureOf, hf, Option.map_none, Option.map_none]
    next future hf =>
    split
    · next hready =>
      rw [connectionFutureOf, hf, Option.map_some, Option.map_some, answerOf, if_pos hready]
      rfl
    · next hready =>
      rw [connectionFutureOf, connectionFutureOf, futureManager_setFutureManager,
        FuturePoolManager.get_setReady hf, if_pos rfl, hf, Option.map_some, Option.map_some,
        Option.map_some, answerOf, answerOf, if_neg hready, if_pos rfl]
      rfl
  · rw [if_neg (by simpa using hg)]
    unfold ProxyAccessService.setReady
    split
    · rfl
    next future hf =>
    split
    · rfl
    · rw [connectionFutureOf, futureManager_setFutureManager, FuturePoolManager.get_setReady hf,
        if_neg (Ne.symm hg), connectionFutureOf]

theorem setReady_becomes (hp : Sound p) {result : Option ℕ}
    (hp' : Sound (p.setReady .acquireDeviceConnection f result)) :
    (routesOf p hp).Becomes (routesOf p hp).client ((routesOf p hp).settled (some f) result)
      (routesOf _ hp') ∧ (p.setReady .acquireDeviceConnection f result).services = p.services := by
  have hpool : (p.setReady .acquireDeviceConnection f result).clientConnectionPool =
      p.clientConnectionPool := (setReady_leaves p .acquireDeviceConnection f result).1
  refine ⟨⟨clientOf_congr hpool, funext (connectionFutureOf_setReady p f result),
    (congrArg Storage.lastId hpool).ge, ?_⟩, ?_⟩
  · change _ ≤ (ProxyAccessService.futureManager _ .acquireDeviceConnection).futurePool.lastId
    unfold ProxyAccessService.setReady
    split
    · exact le_rfl
    · split
      · exact le_rfl
      · rw [futureManager_setFutureManager, FuturePoolManager.lastId_setReady]
        exact le_rfl
  · unfold ProxyAccessService.setReady
    split
    · rfl
    · split
      · rfl
      · rfl

/-- The futures that are not live for the relay are not live. -/
def Covers (alive : ℕ → Bool) (x : Routes) : Prop := ∀ f, alive f = false → x.future f = none

theorem covers_alive (hp : Sound p) : Covers (alive p) (routesOf p hp) := fun f hf =>
  Option.map_eq_none_iff.2 (Option.not_isSome_iff_eq_none.1 (by rw [← Bool.not_eq_true] at hf; exact hf))

/-- An answer adds no future. -/
theorem Covers.settled {alive : ℕ → Bool} {x y : Routes} {c : ℕ → Option (Bool × ℕ)} {o result : Option ℕ}
    (h : Covers alive x) (hx : x.Becomes c (x.settled o result) y) : Covers alive y := by
  intro f hf
  rw [hx.future, Routes.settled, h f hf]
  split
  · rfl
  · rfl

/-- Completing a future of the proxy, if it is live. -/
theorem complete_becomes {live : ℕ → Bool} {handle result : Option ℕ} (hp : Sound p) (hp' : Sound p')
    (hlive : Covers live (routesOf p hp))
    (h : exec (ProxyAccessService.step S P) p (complete live handle result) = .ok p') :
    (routesOf p hp).Becomes (routesOf p hp).client ((routesOf p hp).settled handle result)
      (routesOf p' hp') ∧ p'.services = p.services := by
  unfold complete at h
  split at h
  · cases h
    exact ⟨⟨rfl, funext fun g => (if_neg (by simp)).symm, le_rfl, le_rfl⟩, rfl⟩
  next f =>
  split at h
  · obtain ⟨q, hq, h⟩ := exec_cons_eq_ok.1 h
    cases h
    cases hq
    exact setReady_becomes hp hp'
  · next hdead =>
    cases h
    refine ⟨⟨rfl, funext fun g => ?_, le_rfl, le_rfl⟩, rfl⟩
    unfold Routes.settled
    split
    · next hg =>
      cases hg
      rw [hlive f (eq_false_of_ne_true hdead)]
      rfl
    · rfl

/-- A client that is kept alive, or charged. -/
theorem touch_becomes (hp : Sound p) (hp' : Sound p') (h : Turn S p (.touch k) p') :
    (routesOf p hp).Becomes (routesOf p hp).client (routesOf p hp).future (routesOf p' hp') ∧
      p'.services = p.services := by
  cases h with
  | touch k c s' c' calls hc hframe hcore =>
    have hmanager : s'.futureManager = p.futureManager := congrArg Core.futureManager hcore
    refine ⟨⟨?_, connectionFutureOf_congr (congrFun hmanager _), ?_, ?_⟩,
      congrArg Core.services hcore⟩
    · refine clientOf_store_same hframe.clientConnectionPool hc
        (hframe.connectionId.trans (hp.connectionId k c hc)) (Prod.ext hframe.deleteMark ?_)
      exact congrArg Core.relaySideConnectionId hcore
    · exact ((Storage.lastId_set _ _ _).trans (congrArg Storage.lastId hframe.clientConnectionPool)).ge
    · change _ ≤ (s'.futureManager .acquireDeviceConnection).futurePool.lastId
      rw [hmanager]
      exact le_rfl

/-- Data and datagrams for the client. -/
theorem deliver_becomes {L : TurnLabel → Prop} (hL : ∀ l, L l → ∃ k, l = .touch k) (hp : Sound p)
    (hp' : Sound p') (h : Turns S L p p') :
    (routesOf p hp).Becomes (routesOf p hp).client (routesOf p hp).future (routesOf p' hp') ∧
      p'.services = p.services := by
  refine h.invariant (I := fun q => ∀ hq : Sound q, (routesOf p hp).Becomes (routesOf p hp).client
    (routesOf p hp).future (routesOf q hq) ∧ q.services = p.services) (fun q l q' hl hq hI ht hq' => ?_)
    hp (fun _ => ⟨⟨rfl, rfl, le_rfl, le_rfl⟩, rfl⟩) hp'
  obtain ⟨k, rfl⟩ := hL l hl
  obtain ⟨hx, hservices⟩ := hI hq
  obtain ⟨hy, hservices'⟩ := touch_becomes hq hq' ht
  exact ⟨⟨hy.client.trans hx.client, hy.future.trans hx.future, hx.lastClient.trans hy.lastClient,
    hx.lastFuture.trans hy.lastFuture⟩, hservices'.trans hservices⟩

section

open RelayLocalDeviceConnection

variable {s u : RelayLocalBindingService} {live : ℕ → Bool} {l : RelayLabel} {o : List ProxyEvent}

/-- A turn of the relay, and the calls of the proxy that it makes, are a step of the tunnels. -/
theorem relayTurn_tunnel (h : RelayTurn live s l o u) (hs : Tidy s) (hp : Sound p) (hp' : Sound p')
    (hlive : Covers live (routesOf p hp)) (hl : l ≠ .lookup ∧ ∀ k, l ≠ .create k ∧ l ≠ .destroy k)
    (hexec : exec (ProxyAccessService.step S P) p o = .ok p') :
    (∃ m, l.IsTunnel m ∧ TunnelStep (routesOf p hp) s.linksOf m (routesOf p' hp') u.linksOf) ∧
    Covers live (routesOf p' hp') ∧ p'.services = p.services := by
  -- Turns that have no part of the proxy.
  have hquiet (hquiet : l.IsTunnel .quiet) (ho : o = [])
      (hr : s.linksOf.Becomes s.linksOf.link s.linksOf.lookup u.linksOf) :
      (∃ m, l.IsTunnel m ∧ TunnelStep (routesOf p hp) s.linksOf m (routesOf p' hp') u.linksOf) ∧
      Covers live (routesOf p' hp') ∧ p'.services = p.services := by
    subst ho
    cases hexec
    exact ⟨⟨_, hquiet, .quiet ⟨rfl, rfl, le_rfl, le_rfl⟩ hr⟩, hlive, rfl⟩
  cases h with
  | lookup => exact absurd rfl hl.1
  | create | resolve => exact absurd rfl (hl.2 _).1
  | quiet nowMS attempts posts q q' hq hq' =>
    exact hquiet rfl rfl ⟨(link_sameEntries hq).1, rfl, (link_sameEntries hq).2⟩
  | refuse attempts request i m hacquire =>
    obtain ⟨hnone, -, -, hget⟩ := FuturePoolManager.acquireFuture_eq_some hacquire
    refine hquiet rfl rfl ⟨rfl, funext fun d => ?_, le_rfl⟩
    simp only [linksOf, FuturePoolManager.get_releaseFuture, hget]
    split
    · next hd => rw [hd, hnone]
    · rfl
  | answer i dnsFuture result hi =>
    refine hquiet rfl rfl ⟨rfl, funext fun d => ?_, le_rfl⟩
    simp only [linksOf, FuturePoolManager.get_setReady hi]
    split
    · next hd =>
      rw [hd, hi]
      rfl
    · rfl
  | fail i dnsFuture attempts q hi hq =>
    obtain ⟨hx, hservices⟩ := complete_becomes hp hp' hlive hexec
    have hd : s.linksOf.lookup i = some (dnsFuture.context.proxySideConnectionId,
        dnsFuture.context.createConnectionFutureHandle) := by
      simp only [linksOf, hi, Option.map_some]
    refine ⟨⟨_, rfl, .fail i _ _ hd hx ⟨(link_sameEntries hq).1, funext fun d => ?_,
      (link_sameEntries hq).2⟩⟩, hlive.settled hx, hservices⟩
    simp only [linksOf, FuturePoolManager.get_releaseFuture, Function.update_apply]
    split
    · rfl
    · rfl
  | orphan k c hc hconnected hdead =>
    cases hexec
    have hlink := link_store (d := { c with isConnected := true, createConnectionFutureHandle := none })
      hs s.connectionLists hc rfl
    -- A connection that is marked has no future any more.
    cases hf : c.createConnectionFutureHandle with
    | none =>
      refine ⟨⟨_, .inl rfl, ?_⟩, hlive, rfl⟩
      refine .quiet ⟨rfl, rfl, le_rfl, le_rfl⟩ ⟨hlink.trans ?_, rfl, (Storage.lastId_set _ _ _).ge⟩
      rw [Function.update_eq_self_iff, linksOf_link hc, phase, phase, hf]
    | some f =>
      have hmark : c.deleteMark = false := by
        by_contra hmark
        rw [hs.handle hc (eq_true_of_ne_false hmark)] at hf
        cases hf
      have hk := linksOf_link hc
      rw [phase_opening hmark hf] at hk
      refine ⟨⟨_, .inr rfl, .connect k _ f hk ⟨rfl, funext fun g => ?_, le_rfl, le_rfl⟩
        ⟨hlink.trans ?_, rfl, (Storage.lastId_set _ _ _).ge⟩⟩, hlive, rfl⟩
      · unfold Routes.settled
        split
        · next hg =>
          cases hg
          rw [hlive f (hdead f hf)]
          rfl
        · rfl
      · rw [phase_opened (by exact hmark) rfl]
  | connected k c f hc hconnected hmark hf halive =>
    obtain ⟨q, hq, hexec⟩ := exec_cons_eq_ok.1 hexec
    cases hexec
    cases hq
    obtain ⟨hx, hservices⟩ := setReady_becomes hp hp'
    have hk := linksOf_link hc
    rw [phase_opening hmark hf] at hk
    refine ⟨⟨_, .inr rfl, .connect k _ f hk hx ⟨?_, rfl, (Storage.lastId_set _ _ _).ge⟩⟩,
      hlive.settled hx, hservices⟩
    rw [link_store (d := { c with
      isConnected := true, createConnectionFutureHandle := none, timestampMS := s.localTicker }) hs _ hc rfl,
      phase_opened (by exact hmark) rfl]
  | data k c data hc hconnected hmark =>
    obtain ⟨q, hq, hexec⟩ := exec_cons_eq_ok.1 hexec
    cases hexec
    obtain ⟨hx, hservices⟩ := deliver_becomes (fun l hl => ⟨_, hl⟩) hp hp' (step_turns hp hq)
    refine ⟨⟨_, rfl, .quiet hx ⟨?_, rfl, (Storage.lastId_set _ _ _).ge⟩⟩, fun f hf => ?_, hservices⟩
    · rw [link_store (d := { c with timestampMS := s.localTicker }) hs _ hc rfl,
        Function.update_eq_self_iff, linksOf_link hc]
      rfl
    · rw [hx.future, hlive f hf]
  | closed k c hc hmark =>
    obtain ⟨q, hq, hexec⟩ := exec_cons_eq_ok.1 hexec
    cases hexec
    obtain ⟨hx, hservices⟩ := closeConnection_becomes hp hp' hq
    have hk := linksOf_link hc
    rw [phase_closing hmark] at hk
    refine ⟨⟨_, rfl, .close k _ _ hk ⟨hx.client, ?_, hx.lastClient, hx.lastFuture⟩
      ⟨?_, rfl, le_rfl⟩⟩, fun f hf => ?_, hservices⟩
    · rw [hx.future]
      exact funext fun g => (if_neg (by simp [LinkPhase.future])).symm
    · rw [Links.closed_eq_update hk, eq_comm, Function.update_eq_self_iff, hk]
    · rw [hx.future, hlive f hf]
  | mark l k c o hc hmark hlabel =>
    have hr := linksOf_becomes_closed (d := { c with
      deleteMark := true, createConnectionFutureHandle := none }) hs
      (s.connectionLists.grabTail .kill k) hc rfl rfl rfl
    have hk := linksOf_link hc
    rcases hlabel with ⟨rfl, rfl⟩ | ⟨rfl, -⟩ | ⟨rfl, -, -, rfl⟩
    · obtain ⟨q, hq, hexec⟩ := exec_cons_eq_ok.1 hexec
      have hsound := step_sound p _ q hp hq
      obtain ⟨hx, hservices⟩ := closeConnection_becomes hp hsound hq
      have hlive' : Covers live (routesOf q hsound) := fun f hf => by rw [hx.future, hlive f hf]
      obtain ⟨hy, hservices'⟩ := complete_becomes hsound hp' hlive' hexec
      refine ⟨⟨_, rfl, .close k _ _ hk ⟨hy.client.trans hx.client, ?_,
        hx.lastClient.trans hy.lastClient, hx.lastFuture.trans hy.lastFuture⟩ hr⟩, hlive'.settled hy,
        hservices'.trans hservices⟩
      rw [hy.future, future_phase hmark, Routes.settled_congr hx.future]
    · exact absurd rfl (hl.2 k).2
    · obtain ⟨hx, hservices⟩ := complete_becomes hp hp' hlive hexec
      rw [← future_phase hmark] at hx
      exact ⟨⟨_, rfl, .idle k _ _ hk hx hr⟩, hlive.settled hx, hservices⟩
  | clean k c hc hk =>
    cases hexec
    have hmark := (hs.filed.marked hc).1 hk
    have hlink := linksOf_link hc
    rw [phase_closing hmark] at hlink
    refine ⟨⟨_, rfl, .clean k _ hlink ⟨rfl, rfl, le_rfl, le_rfl⟩ ⟨funext fun j => ?_, rfl, le_rfl⟩⟩,
      hlive, rfl⟩
    simp only [linksOf, cleanConnection, Storage.get_release, Function.update_apply]
    split
    · rfl
    · rfl
  | createUdp | keepUdp | cleanUdp => exact hquiet rfl rfl (linksOf_becomes rfl rfl)
  | markUdp l u x hx hlabel =>
    refine hquiet ?_ rfl (linksOf_becomes rfl rfl)
    rcases hlabel with rfl | ⟨rfl, -⟩
    · rfl
    · rfl
  | dataUdp v y data a hy =>
    obtain ⟨q, hq, hexec⟩ := exec_cons_eq_ok.1 hexec
    cases hexec
    obtain ⟨hx, hservices⟩ := deliver_becomes (fun l hl => hl) hp hp' (step_turns hp hq)
    refine ⟨⟨_, rfl, .quiet hx (.refl _)⟩, fun f hf => ?_, hservices⟩
    rw [hx.future, hlive f hf]

end

end

end ProxyWithRelay

end ProxyPlatform
