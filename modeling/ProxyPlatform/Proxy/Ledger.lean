import ProxyPlatform.Proxy.Step

/-!
# Granted and released authentications

The ledger of a client connection: what was granted for it (`grants`), what was released
for it (`releases`), and what it still holds (`held`), in its auth future or in its
`localAuthId`. In every state reached, a live connection holds what was granted and
nothing was released for it, and for a destroyed one everything granted was released
(`Ledger`).

* `Turn.ledger`: a turn keeps the ledger;
* `Turn.later`: what no turn undoes: in particular the `localAuthId` of a connection that
  has one.
-/

namespace ProxyPlatform.ProxyAccessService

variable {σ : Type*} {S : Services σ} {P : Platform}

/-! ## The ledger -/

/-- The ids granted for the connection `k`. -/
def grants (k : ℕ) (calls : List ProxyCall) : List ℕ :=
  calls.filterMap fun
    | .acquireAuthInfo j _ _ (some r) => if j = k then some r.localAuthId else none
    | _ => none

/-- The ids released for the connection `k`. -/
def releases (k : ℕ) (calls : List ProxyCall) : List ℕ :=
  calls.filterMap fun
    | .releaseAuthInfo j localAuthId _ => if j = k then some localAuthId else none
    | _ => none

/-- The ids that the connection `c` holds. -/
def held (s : ProxyAccessService σ) (c : ClientConnection) : List ℕ :=
  if c.localAuthId ≠ 0 then [c.localAuthId]
  else ((authResultOf s c).map AuthResult.localAuthId).toList

/-- What is granted is held, or was released. -/
structure Ledger (s : ProxyAccessService σ) : Prop where
  live : ∀ k c, s.clientConnectionPool.get k = some c →
    releases k s.calls = [] ∧ grants k s.calls = s.held c
  dead : ∀ k, s.clientConnectionPool.get k = none →
    releases k s.calls = grants k s.calls ∧ (grants k s.calls).length ≤ 1
  fresh : ∀ k, s.clientConnectionPool.lastId < k → grants k s.calls = []
  ne_zero : ∀ f future r, (s.futureManager .auth).get f = some future → future.result = some r →
    r.localAuthId ≠ 0
  destroyed : ∀ e ∈ s.destroyed, e.2 = none


/-- A call that grants or releases. -/
def IsAuthCall : ProxyCall → Prop
  | .acquireAuthInfo .. | .releaseAuthInfo .. => True
  | _ => False

theorem grants_append (k : ℕ) (l m : List ProxyCall) :
    grants k (l ++ m) = grants k l ++ grants k m := List.filterMap_append ..

theorem releases_append (k : ℕ) (l m : List ProxyCall) :
    releases k (l ++ m) = releases k l ++ releases k m := List.filterMap_append ..

theorem grants_eq_nil {l : List ProxyCall} (h : ∀ x ∈ l, ¬IsAuthCall x) (k : ℕ) :
    grants k l = [] := by
  rw [grants, List.filterMap_eq_nil_iff]
  intro x hx
  have hno := h x hx
  cases x <;> simp_all [IsAuthCall]

theorem releases_eq_nil {l : List ProxyCall} (h : ∀ x ∈ l, ¬IsAuthCall x) (k : ℕ) :
    releases k l = [] := by
  rw [releases, List.filterMap_eq_nil_iff]
  intro x hx
  have hno := h x hx
  cases x <;> simp_all [IsAuthCall]

theorem not_isAuthCall_of_isTalk {x : ProxyCall} (h : x.IsTalk) : ¬IsAuthCall x := by
  cases x <;> simp_all [IsAuthCall, ProxyCall.IsTalk]

theorem not_isAuthCall_of_isDelivery {x : ProxyCall} (h : x.IsDelivery) : ¬IsAuthCall x := by
  cases x <;> simp_all [IsAuthCall, ProxyCall.IsDelivery]

/-- No grant and no release was added. -/
def SameAuthCalls (s t : ProxyAccessService σ) : Prop :=
  ∃ l, t.calls = s.calls ++ l ∧ ∀ x ∈ l, ¬IsAuthCall x

section

variable {s t s' : ProxyAccessService σ} {c c' : ClientConnection}

theorem SameAuthCalls.refl (s : ProxyAccessService σ) : SameAuthCalls s s :=
  ⟨[], (List.append_nil _).symm, by simp⟩

theorem Talk.sameAuthCalls (h : Talk s t) : SameAuthCalls s t :=
  let ⟨l, hl, htalk⟩ := h
  ⟨l, hl, fun x hx => not_isAuthCall_of_isTalk (htalk x hx)⟩

theorem SameAuthCalls.grants (h : SameAuthCalls s t) (k : ℕ) :
    grants k t.calls = grants k s.calls := by
  obtain ⟨l, hl, hno⟩ := h
  rw [hl, grants_append, grants_eq_nil hno, List.append_nil]

theorem SameAuthCalls.releases (h : SameAuthCalls s t) (k : ℕ) :
    releases k t.calls = releases k s.calls := by
  obtain ⟨l, hl, hno⟩ := h
  rw [hl, releases_append, releases_eq_nil hno, List.append_nil]

/-- What a connection holds depends on its id and on its auth future. -/
theorem held_congr (hid : c'.localAuthId = c.localAuthId)
    (hf : c'.futures .auth = c.futures .auth)
    (hm : ∀ f, c.futures .auth = some f →
      (t.futureManager .auth).get f = (s.futureManager .auth).get f) : t.held c' = s.held c := by
  have hresult : authResultOf t c' = authResultOf s c := by
    unfold authResultOf
    rw [hf]
    cases h : c.futures .auth with
    | none => rfl
    | some f => simp [hm f h]
  simp only [held, hid, hresult]

theorem held_of_localAuthId (h : c.localAuthId ≠ 0) : s.held c = [c.localAuthId] := if_pos h

theorem held_of_result (h : c.localAuthId = 0) :
    s.held c = ((authResultOf s c).map AuthResult.localAuthId).toList := if_neg (not_not.2 h)

theorem held_length (s : ProxyAccessService σ) (c : ClientConnection) : (s.held c).length ≤ 1 := by
  unfold held
  split
  · simp
  · cases authResultOf s c <;> simp

/-- A turn that neither grants nor releases, and changes nothing of what is held. -/
theorem Ledger.congr (hl : Ledger s)
    (hconn : ∀ k, (t.clientConnectionPool.get k).map (fun c => (c.localAuthId, c.futures .auth)) =
      (s.clientConnectionPool.get k).map (fun c => (c.localAuthId, c.futures .auth)))
    (hlast : s.clientConnectionPool.lastId ≤ t.clientConnectionPool.lastId)
    (hauth : t.futureManager .auth = s.futureManager .auth) (hcalls : SameAuthCalls s t)
    (hdes : t.destroyed = s.destroyed) : Ledger t where
  live k d hd := by
    have h := hconn k
    rw [hd, Option.map_some, eq_comm, Option.map_eq_some_iff] at h
    obtain ⟨c, hc, h⟩ := h
    rw [Prod.mk.injEq] at h
    rw [hcalls.releases, hcalls.grants]
    refine ⟨(hl.live k c hc).1, (hl.live k c hc).2.trans ?_⟩
    exact (held_congr h.1.symm h.2.symm fun f _ => by rw [hauth]).symm
  dead k hd := by
    have h := hconn k
    rw [hd, Option.map_none, eq_comm, Option.map_eq_none_iff] at h
    rw [hcalls.releases, hcalls.grants]
    exact hl.dead k h
  fresh k hk := by
    rw [hcalls.grants]
    exact hl.fresh k (hlast.trans_lt hk)
  ne_zero := by rw [hauth]; exact hl.ne_zero
  destroyed := by rw [hdes]; exact hl.destroyed

/-- What an act does to the auth futures: nothing, or it acquires a grant, or takes one up. -/
theorem Act.auth {x : Core σ} {taken : Option ((κ : FutureKind) × Option κ.Result)}
    (h : Act S s c s' x taken) :
    (x.localAuthId = c.localAuthId ∧ x.futures .auth = c.futures .auth ∧
      x.futureManager .auth = s.futureManager .auth ∧ SameAuthCalls s s' ∧
      ∀ r, taken ≠ some ⟨.auth, some r⟩) ∨
    (taken = none ∧ ∃ f m key t r,
      (s.futureManager .auth).acquireFuture c.connectionId = some (f, m) ∧
      S.acquireAuthInfo s.services key = .ok (t, r) ∧ c.futures .auth = none ∧
      c.localAuthId = 0 ∧ x.localAuthId = 0 ∧ x.futures .auth = some f ∧
      x.futureManager .auth = m.setReady f r ∧
      s'.calls = s.calls ++ [.acquireAuthInfo c.connectionId c.remoteAddress key r]) ∨
    ∃ r, taken = some ⟨.auth, some r⟩ ∧ c.localAuthId = 0 ∧ x.localAuthId = r.localAuthId ∧
      x.futures .auth = c.futures .auth ∧ x.futureManager .auth = s.futureManager .auth ∧
      SameAuthCalls s s' := by
  cases h with
  | quiet htaken hcore htalk =>
    rw [hcore]
    exact .inl ⟨rfl, rfl, rfl, htalk.sameAuthCalls, fun r hr => by cases htaken _ _ hr⟩
  | authenticate f m key t r hacquire hauth hfuture hid hcore hcalls =>
    rw [hcore]
    exact .inr (.inl ⟨rfl, f, m, key, t, r, hacquire, hauth, hfuture, hid, hid,
      by simp [Core.request], by simp [Core.request], hcalls⟩)
  | grant r hid hcore htalk =>
    rw [hcore]
    exact .inr (.inr ⟨r, rfl, hid, rfl, rfl, rfl, htalk.sameAuthCalls⟩)
  | locate r f m request t y hacquire hdevice hfuture hid hcore hcalls =>
    rw [hcore]
    refine .inr (.inr ⟨r, rfl, hid, rfl, ?_, ?_, [], by rw [hcalls, List.append_nil], by simp⟩)
    · simp [Core.request, core]
    · simp [Core.request, core]
  | connect f m a b target t y htaken hacquire hcreate hfuture hrelay hcore htalk =>
    rw [hcore]
    refine .inl ⟨rfl, ?_, ?_, htalk.sameAuthCalls, fun r hr => ?_⟩
    · simp [Core.request, core]
    · simp [Core.request, core]
    · rcases htaken with rfl | ⟨d, rfl⟩
      · cases hr
      · cases hr
  | unbound u p x hacquire hcore htalk =>
    rw [hcore]
    exact .inl ⟨rfl, rfl, rfl, htalk.sameAuthCalls, by simp⟩
  | bind u p x hacquire hparent hid hbind hcore htalk =>
    rw [hcore]
    exact .inl ⟨rfl, rfl, rfl, htalk.sameAuthCalls, by simp⟩
  | associate u p x f m a b t y hudp hparent hid hbind hacquire hcreate hfuture hcore htalk =>
    rw [hcore]
    refine .inl ⟨rfl, ?_, ?_, htalk.sameAuthCalls, by simp⟩
    · simp [Core.request, core]
    · simp [Core.request, core]
  | establish e reply hrelay hcore hcalls =>
    rw [hcore]
    exact .inl ⟨rfl, rfl, rfl, ⟨_, hcalls, by simp [IsAuthCall]⟩, by simp⟩
  | establishNormal e a data hrelay htype hcore hcalls =>
    rw [hcore]
    exact .inl ⟨rfl, rfl, rfl, ⟨_, hcalls, by simp [IsAuthCall]⟩, by simp⟩
  | channelReady e u x htype hbind hudp hcore htalk =>
    rw [hcore]
    exact .inl ⟨rfl, rfl, rfl, htalk.sameAuthCalls, by simp⟩
  | forward a data hcore hcalls hmark =>
    rw [hcore]
    exact .inl ⟨rfl, rfl, rfl, ⟨_, hcalls, by simp [IsAuthCall]⟩, by simp⟩

/-- The auth future of another connection is not the one that the connection `k` has. -/
theorem auth_future_ne {j k f i : ℕ} {d : ClientConnection} (hs : Sound s) (hjk : j ≠ k)
    (hd : s.clientConnectionPool.get j = some d) (hdf : d.futures .auth = some i)
    (hc : s.clientConnectionPool.get k = some c) (hcf : c.futures .auth = some f) : i ≠ f := by
  rintro rfl
  have h₁ : s.contextOf .auth i = some j := (hs.futures .auth j i).1 (by simp [futureOf, hd, hdf])
  have h₂ : s.contextOf .auth i = some k := (hs.futures .auth k i).1 (by simp [futureOf, hc, hcf])
  rw [h₁] at h₂
  exact hjk (Option.some.inj h₂)

/-- The auth future of a connection is live. -/
theorem auth_future_live {k f : ℕ} (hs : Sound s) (hc : s.clientConnectionPool.get k = some c)
    (hcf : c.futures .auth = some f) :
    ∃ future, (s.futureManager .auth).get f = some future ∧ future.context = k := by
  have h : s.contextOf .auth f = some k := (hs.futures .auth k f).1 (by simp [futureOf, hc, hcf])
  exact Option.map_eq_some_iff.1 h

theorem Ledger.call {k : ℕ} (hs : Sound s) (hl : Ledger s)
    (hc : s.clientConnectionPool.get k = some c) (h : Effect S none s c s' c') :
    Ledger (s'.store c') := by
  have hid : c.connectionId = k := hs.connectionId k c hc
  have hc₁ : s'.clientConnectionPool.get k = some c := by rw [h.clientConnectionPool, hc]
  have hget := get_store hc₁ (h.connectionId.trans hid)
  rw [h.clientConnectionPool] at hget
  have hlast : (s'.store c').clientConnectionPool.lastId = s.clientConnectionPool.lastId := by
    simp [store, h.clientConnectionPool]
  rcases h.act.auth with ⟨hlid, hf, hm, hcalls, -⟩ |
    ⟨-, f, m, key, t, r, hacquire, hauth, hnone, hzero, hzero', hf, hm, hcalls⟩ | ⟨r, htaken, -⟩
  · refine hl.congr (fun j => ?_) hlast.ge hm hcalls h.destroyed
    rw [hget]
    split
    · next hj =>
      rw [hj, hc]
      exact congrArg some (Prod.ext hlid hf)
    · rfl
  · -- The grant, if any, is in the new future.
    obtain ⟨hfree, -, -, hmget⟩ := FuturePoolManager.acquireFuture_eq_some hacquire
    have hmf : m.get f = some { context := c.connectionId } := by rw [hmget, if_pos rfl]
    have hold {i : ℕ} (hi : (s.futureManager .auth).get i ≠ none) :
        (s'.futureManager .auth).get i = (s.futureManager .auth).get i := by
      have hif : i ≠ f := by rintro rfl; exact hi hfree
      rw [show s'.futureManager .auth = m.setReady f r from hm,
        FuturePoolManager.get_setReady hmf, if_neg hif, hmget, if_neg hif]
    have hnew : (s'.futureManager .auth).get f =
        some { context := c.connectionId, isReady := true, result := r } := by
      rw [show s'.futureManager .auth = m.setReady f r from hm,
        FuturePoolManager.get_setReady hmf, if_pos rfl]
    have hrel (j : ℕ) : releases j (s'.store c').calls = releases j s.calls := by
      change releases j s'.calls = _
      rw [hcalls, releases_append]
      simp [releases]
    have hgr (j : ℕ) (hj : j ≠ k) : grants j (s'.store c').calls = grants j s.calls := by
      change grants j s'.calls = _
      rw [hcalls, grants_append, hid]
      cases r <;> simp [grants, Ne.symm hj]
    refine ⟨fun j d hd => ?_, fun j hd => ?_, fun j hj => ?_, fun i future r' hi hr' => ?_, ?_⟩
    · rw [hget] at hd
      rw [hrel]
      split at hd
      · next hj =>
        cases hd
        subst hj
        refine ⟨(hl.live _ c hc).1, ?_⟩
        have hheld : s.held c = [] := by
          rw [held_of_result hzero]
          simp [authResultOf, hnone]
        have hheld' : (s'.store c').held c' = (r.map AuthResult.localAuthId).toList := by
          rw [held_of_result hzero']
          have hresult : authResultOf (s'.store c') c' = r := by
            simp only [authResultOf, show c'.futures .auth = some f from hf, Option.bind_some]
            rw [show (s'.store c').futureManager = s'.futureManager from rfl, hnew]
            rfl
          rw [hresult]
        rw [hheld']
        change grants j s'.calls = _
        rw [hcalls, grants_append, (hl.live _ c hc).2, hheld, hid]
        cases r <;> simp [grants]
      · next hj =>
        rw [hgr j hj]
        refine ⟨(hl.live j d hd).1, (hl.live j d hd).2.trans ?_⟩
        refine (held_congr rfl rfl fun i hi => hold ?_).symm
        obtain ⟨future, hfuture, -⟩ := auth_future_live hs hd hi
        rw [hfuture]
        simp
    · rw [hget] at hd
      split at hd
      · cases hd
      · next hj =>
        rw [hrel, hgr j hj]
        exact hl.dead j hd
    · rw [hlast] at hj
      have hjk : j ≠ k := by
        rintro rfl
        exact absurd (Storage.le_lastId_of_get hc) (Nat.not_le.2 hj)
      rw [hgr j hjk]
      exact hl.fresh j hj
    · change (s'.futureManager .auth).get i = some future at hi
      by_cases hif : i = f
      · rw [hif, hnew] at hi
        cases hi
        cases hr'
        exact S.localAuthId_ne_zero hauth
      · rw [show s'.futureManager .auth = m.setReady f r from hm,
          FuturePoolManager.get_setReady hmf, if_neg hif, hmget, if_neg hif] at hi
        exact hl.ne_zero i future r' hi hr'
    · rw [show (s'.store c').destroyed = s.destroyed from h.destroyed]
      exact hl.destroyed
  · cases htaken

/-- A connection that takes up a result holds what the future carried. -/
theorem held_result {κ : FutureKind} {f : ℕ} {m : FuturePoolManager ℕ κ.Result}
    {future : Future ℕ κ.Result} {u : ProxyAccessService σ} (hs : Sound s) (hl : Ledger s)
    (hf : (s.futureManager κ).get f = some future)
    (hc : s.clientConnectionPool.get future.context = some c) (hcf : c.futures κ = some f)
    (h : Effect S (some ⟨κ, future.result⟩) (s.setFutureManager κ m) c s' c')
    (hu : κ ≠ .auth → u.futureManager .auth = s'.futureManager .auth) :
    u.held (c'.setFuture κ none) = s.held c := by
  by_cases hκ : κ = .auth
  · subst hκ
    have hstage : c.localAuthId = 0 := by
      obtain ⟨g, hg⟩ := hs.stage _ c hc
      have hg' := hg.awaits_of_futures hcf
      cases g <;> simp [Stage.awaits] at hg'
      exact hg.localAuthId (.inr rfl)
    have hbefore : s.held c = (future.result.map AuthResult.localAuthId).toList := by
      rw [held_of_result hstage]
      simp [authResultOf, hcf, hf]
    have hnone : authResultOf u (c'.setFuture .auth none) = none := by
      simp [authResultOf, ClientConnection.setFuture]
    rcases h.act.auth with ⟨hid, -, -, -, htaken⟩ | ⟨htaken, -⟩ | ⟨r, htaken, -, hid, -⟩
    · have hid' : (c'.setFuture .auth none).localAuthId = 0 := Eq.trans hid hstage
      rw [held_of_result hid', hnone, hbefore]
      cases hr : future.result with
      | none => rfl
      | some r => exact absurd (by rw [hr]) (htaken r)
    · cases htaken
    · have hr : future.result = some r := by simpa using htaken
      have hid' : (c'.setFuture .auth none).localAuthId = r.localAuthId := hid
      have hne : r.localAuthId ≠ 0 := hl.ne_zero f future r hf hr
      rw [held_of_localAuthId (by rwa [hid']), hid', hbefore, hr]
      rfl
  · have hne : FutureKind.auth ≠ κ := Ne.symm hκ
    rcases h.act.auth with ⟨hid, hfut, hm, -⟩ | ⟨htaken, -⟩ | ⟨r, htaken, -⟩
    · refine held_congr hid ?_ fun i _ => ?_
      · simp only [ClientConnection.setFuture, Function.update_of_ne hne]
        exact hfut
      · rw [hu hκ, show s'.futureManager .auth = _ from hm]
        simp [setFutureManager, hne]
    · cases htaken
    · simp only [Option.some.injEq, Sigma.mk.injEq] at htaken
      exact absurd htaken.1 hκ

theorem Ledger.result {κ : FutureKind} {f : ℕ} {m : FuturePoolManager ℕ κ.Result}
    {future : Future ℕ κ.Result} (hs : Sound s) (hl : Ledger s)
    (hpop : (s.futureManager κ).popHead = some (f, m))
    (hf : (s.futureManager κ).get f = some future)
    (hc : s.clientConnectionPool.get future.context = some c) (hcf : c.futures κ = some f)
    (h : Effect S (some ⟨κ, future.result⟩) (s.setFutureManager κ m) c s' c') :
    Ledger ((s'.setFutureManager κ ((s'.futureManager κ).releaseFuture f)).store
      (c'.setFuture κ none)) := by
  generalize ht : (s'.setFutureManager κ ((s'.futureManager κ).releaseFuture f)).store
    (c'.setFuture κ none) = t
  have hpool : s'.clientConnectionPool = s.clientConnectionPool := h.clientConnectionPool
  have hid : (c'.setFuture κ none).connectionId = future.context :=
    h.connectionId.trans (hs.connectionId _ c hc)
  have hget (j : ℕ) : t.clientConnectionPool.get j =
      if j = future.context then some (c'.setFuture κ none) else s.clientConnectionPool.get j := by
    rw [← ht, get_store (s := s'.setFutureManager κ _) (by rw [← hpool] at hc; exact hc) hid]
    exact congrArg (fun p => if j = _ then _ else Storage.get p j) hpool
  have hcalls : SameAuthCalls s t := by
    rcases h.act.auth with ⟨-, -, -, hcalls, -⟩ | ⟨htaken, -⟩ | ⟨r, -, -, -, -, -, hcalls⟩
    · rw [← ht]; exact hcalls
    · cases htaken
    · rw [← ht]; exact hcalls
  have hlast : t.clientConnectionPool.lastId = s.clientConnectionPool.lastId := by
    rw [← ht]
    simp [store, setFutureManager, hpool]
  -- The auth futures are those of before, without `f` if it is one of them.
  have hmanager : s'.futureManager .auth = (s.setFutureManager κ m).futureManager .auth := by
    rcases h.act.auth with ⟨-, -, hm, -⟩ | ⟨htaken, -⟩ | ⟨r, -, -, -, -, hm, -⟩
    · exact hm
    · cases htaken
    · exact hm
  have hne {i : ℕ} (hi : κ = .auth → i ≠ f) :
      (t.futureManager .auth).get i = (s.futureManager .auth).get i := by
    rw [← ht]
    by_cases hκ : κ = .auth
    · subst hκ
      simp [store, setFutureManager, hmanager, hi rfl, (popHead_eq_some hpop).1]
    · simp [store, setFutureManager, hmanager, Ne.symm hκ]
  refine ⟨fun j d hd => ?_, fun j hd => ?_, fun j hj => ?_, fun i fut r hi hr => ?_, ?_⟩
  · rw [hcalls.releases, hcalls.grants]
    rw [hget] at hd
    split at hd
    · next hj =>
      cases hd
      subst hj
      refine ⟨(hl.live _ c hc).1, (hl.live _ c hc).2.trans ?_⟩
      refine (held_result hs hl hf hc hcf h fun hκ => ?_).symm
      rw [← ht]
      simp [store, setFutureManager, Ne.symm hκ]
    · next hj =>
      refine ⟨(hl.live j d hd).1, (hl.live j d hd).2.trans ?_⟩
      refine (held_congr rfl rfl fun i hi => hne fun hκ => ?_).symm
      subst hκ
      exact auth_future_ne hs hj hd hi hc hcf
  · rw [hcalls.releases, hcalls.grants]
    rw [hget] at hd
    split at hd
    · cases hd
    · exact hl.dead j hd
  · rw [hcalls.grants]
    exact hl.fresh j (by rwa [hlast] at hj)
  · by_cases hif : κ = .auth ∧ i = f
    · obtain ⟨rfl, rfl⟩ := hif
      rw [← ht] at hi
      simp [store, setFutureManager] at hi
    · rw [hne fun hκ hi => hif ⟨hκ, hi⟩] at hi
      exact hl.ne_zero i fut r hi hr
  · rw [← ht]
    rw [show ((s'.setFutureManager κ _).store (c'.setFuture κ none)).destroyed = s.destroyed
      from h.destroyed]
    exact hl.destroyed

theorem Ledger.accept {remoteAddress localAddress : NetAddress} {k : ℕ}
    {p : Storage ClientConnection} (hl : Ledger s)
    (hacquire : s.clientConnectionPool.acquire (newConnection s remoteAddress localAddress) =
      some (k, p)) : Ledger ({ s with clientConnectionPool := p }.linkTail .initTimeout k) := by
  obtain ⟨hk, hlast, -⟩ := Storage.acquire_eq_some hacquire
  have hfresh : grants k s.calls = [] := hl.fresh k (by rw [hk]; exact Nat.lt_succ_self _)
  have hget (j : ℕ) : ({ s with clientConnectionPool := p }.linkTail .initTimeout
      k).clientConnectionPool.get j = if j = k then some (newConnection s remoteAddress localAddress k)
        else s.clientConnectionPool.get j := Storage.get_acquire hacquire j
  refine ⟨fun j d hd => ?_, fun j hd => ?_, fun j hj => hl.fresh j ?_, hl.ne_zero, hl.destroyed⟩
  · rw [hget] at hd
    split at hd
    · next hj =>
      cases hd
      subst hj
      refine ⟨(hl.dead j (Storage.get_of_acquire hacquire)).1.trans hfresh, hfresh.trans ?_⟩
      simp [held, authResultOf, newConnection]
    · exact hl.live j d hd
  · rw [hget] at hd
    split at hd
    · cases hd
    · exact hl.dead j hd
  · change p.lastId < j at hj
    omega

/-- A service that completes a future does not complete an auth future again. -/
theorem Ledger.ready {κ : FutureKind} {f : ℕ} {r : Option κ.Result} (hs : Sound s) (hl : Ledger s) :
    Ledger (s.setReady κ f r) := by
  unfold setReady
  split
  · exact hl
  split
  · exact hl
  next future hf hready =>
  have hκ : FutureKind.auth ≠ κ := by
    rintro rfl
    obtain ⟨future', hf', hready'⟩ := (s.futureManager .auth).ready_live f (hs.auth f future hf)
    rw [show (s.futureManager .auth).futurePool.get f = some future from hf] at hf'
    cases hf'
    exact hready hready'
  refine hl.congr (fun _ => rfl) le_rfl ?_ (.refl s) rfl
  simp only [setFutureManager, Function.update_of_ne hκ]

theorem Ledger.destroy {k : ℕ} {lists : Linked ClientList} (hs : Sound s) (hl : Ledger s)
    (hc : s.clientConnectionPool.get k = some c)
    (hready : ∀ κ, (s.futureManager κ).futureList = [])
    (h : destroyConnection S { s with timeoutLists := lists } c = .ok t) : Ledger t := by
  have hid : c.connectionId = k := hs.connectionId k c hc
  obtain ⟨hpool, hmanager, -, -, -, hdes, hcalls⟩ := destroyConnection_eq_ok h
  -- A live auth future would be ready, and none is left.
  have hdead (f : ℕ) : (s.futureManager .auth).get f = none := by
    rw [Option.eq_none_iff_forall_ne_some]
    intro future hf
    have hmem := hs.auth f future hf
    rw [hready] at hmem
    cases hmem
  have hnone : authResultOf s c = none := by
    unfold authResultOf
    cases c.futures .auth with
    | none => rfl
    | some f => simp [hdead f]
  have hauth (f : ℕ) : (t.futureManager .auth).get f = none := by
    rw [hmanager]
    simp only [releaseFutures]
    split
    · exact hdead f
    · simp [hdead f]
  have hheld (d : ClientConnection) : t.held d = s.held d := by
    unfold held authResultOf
    cases d.futures .auth with
    | none => rfl
    | some f => simp [hauth, hdead]
  have hget (j : ℕ) : t.clientConnectionPool.get j =
      if j = k then none else s.clientConnectionPool.get j := by
    rw [hpool, Storage.get_release, hid]
  have hgr (j : ℕ) : grants j t.calls = grants j s.calls := by
    rcases hcalls with ⟨-, -, hcalls⟩ | ⟨-, -, hcalls⟩
    · rw [hcalls]
    · rw [hcalls, grants_append]
      simp [grants]
  have hrel (j : ℕ) (hj : j ≠ k) : releases j t.calls = releases j s.calls := by
    rcases hcalls with ⟨-, -, hcalls⟩ | ⟨-, -, hcalls⟩
    · rw [hcalls]
    · rw [hcalls, releases_append]
      simp [releases, hid, Ne.symm hj]
  have hrelk : releases k t.calls = s.held c := by
    rcases hcalls with ⟨hz, -, hcalls⟩ | ⟨hz, -, hcalls⟩
    · rw [hcalls, held_of_result hz, hnone]
      exact (hl.live k c hc).1
    · rw [hcalls, releases_append, held_of_localAuthId hz]
      change releases k s.calls ++ _ = _
      rw [(hl.live k c hc).1]
      simp [releases, hid]
  refine ⟨fun j d hd => ?_, fun j hd => ?_, fun j hj => ?_, fun f future r hf => ?_, fun e he => ?_⟩
  · rw [hget] at hd
    split at hd
    · cases hd
    · next hj =>
      rw [hrel j hj, hgr, hheld]
      exact hl.live j d hd
  · rw [hgr]
    by_cases hj : j = k
    · subst hj
      rw [hrelk, (hl.live _ c hc).2]
      exact ⟨rfl, held_length s c⟩
    · rw [hget, if_neg hj] at hd
      rw [hrel j hj]
      exact hl.dead j hd
  · rw [hgr]
    exact hl.fresh j (by rw [hpool] at hj; exact hj)
  · rw [hauth] at hf
    cases hf
  · rw [hdes] at he
    rcases List.mem_append.1 he with he | he
    · exact hl.destroyed e he
    · rw [List.mem_singleton.1 he]
      exact hnone

theorem outline_localAuthId {a b : Option ClientConnection}
    (h : a.map ClientConnection.outline = b.map ClientConnection.outline) :
    a.map (fun c => (c.localAuthId, c.futures .auth)) =
      b.map (fun c => (c.localAuthId, c.futures .auth)) := by
  have h' := congrArg (Option.map fun y => (y.2.2.2.2.1, y.2.2.2.1 FutureKind.auth)) h
  simpa [Option.map_map, Function.comp_def, ClientConnection.outline] using h'

/-- A turn keeps the ledger. -/
theorem Turn.ledger {l : TurnLabel} (h : Turn S s l t) (hs : Sound s) (hl : Ledger s) : Ledger t := by
  cases h with
  | clock nowMS audit => exact hl.congr (fun _ => rfl) le_rfl rfl (.refl s) rfl
  | accept remoteAddress localAddress k p hacquire => exact hl.accept hacquire
  | refuse x k p hacquire =>
    refine hl.congr (fun j => ?_) ?_ rfl (.refl s) rfl
    · change ((p.release k).get j).map _ = _
      rw [Storage.get_release, Storage.get_acquire hacquire]
      split
      · next hj => rw [hj, Storage.get_of_acquire hacquire]
      · rfl
    · obtain ⟨hk, hlast, -⟩ := Storage.acquire_eq_some hacquire
      change _ ≤ p.lastId
      omega
  | call k c s' c' hc heffect hstage => exact hl.call hs hc heffect
  | result κ f m future c s' c' hpop hf hc hcf heffect hcf' hstage =>
    exact hl.result hs hpop hf hc hcf heffect
  | touch k c s' c' l hc hframe hcore hshape hudp hcalls hdelivery hmark =>
    simp only [core, Core.mk.injEq, true_and] at hcore
    obtain ⟨hservices, hmanager, hfut, hid, hrelay, hbind⟩ := hcore
    have hc' : c'.outline = c.outline := by
      rw [Prod.mk.injEq] at hshape
      simp only [ClientConnection.outline, hframe.connectionId, hshape, hfut, hid, hrelay, hbind]
    refine hl.congr (fun j => outline_localAuthId (outline_store hframe.clientConnectionPool hc
      (hs.connectionId k c hc) hc' j)) ?_ (congrFun hmanager _)
      ⟨l, hcalls, fun x hx => not_isAuthCall_of_isDelivery (hdelivery x hx)⟩ hframe.destroyed
    simp [store, hframe.clientConnectionPool]
  | forwardUdp => exact hl.congr (fun _ => rfl) le_rfl rfl ⟨_, rfl, by simp [IsAuthCall]⟩ rfl
  | peerClose k c s' c' hc hmark h =>
    obtain ⟨u, l, heq, hcases⟩ := onPeerClose_eq_ok hmark h
    cases heq
    refine hl.congr (fun j => outline_localAuthId (outline_store (by rfl) hc
      (hs.connectionId k c hc) (by rfl) j)) (by simp [store, linkTail]) rfl ⟨l, rfl, ?_⟩ rfl
    rcases hcases with ⟨-, -, rfl⟩ | ⟨-, _, _, -, -, -, -, rfl⟩ | ⟨-, -, -, rfl⟩
    · simp [IsAuthCall]
    · simp [IsAuthCall]
    · simp
  | flush k c hc =>
    rcases onFlush_eq s c with ⟨-, heq⟩ | ⟨-, heq⟩
    all_goals
      rw [heq]
      exact hl.congr (fun j => outline_localAuthId (outline_store (by rfl) hc
        (hs.connectionId k c hc) (by rfl) j)) (by simp [store, linkTail]) rfl (.refl s) rfl
  | close k c hc =>
    rcases closeConnection_eq s c with ⟨-, heq⟩ | ⟨-, -, heq⟩ | ⟨-, -, heq⟩
    all_goals
      rw [heq]
      exact hl.congr (fun j => outline_localAuthId (outline_store (by rfl) hc
        (hs.connectionId k c hc) (by rfl) j)) (by simp [store, linkTail]) rfl (.refl s) rfl
  | ready κ f r => exact hl.ready hs
  | expire l h timeoutMS => exact hl.congr (fun _ => rfl) le_rfl rfl (.refl s) rfl
  | destroy k lists c t hpop hc hready h => exact hl.destroy hs hc hready h

theorem ledger_init (services : σ) : Ledger (init services) where
  live _ _ h := by cases h
  dead _ _ := ⟨rfl, Nat.zero_le 1⟩
  fresh _ _ := rfl
  ne_zero _ _ _ h := by cases h
  destroyed _ h := by cases h

theorem ledger_of_exec {services : σ} {es : List ProxyEvent}
    (h : exec (step S P) (init services) es = .ok s) : Ledger s :=
  (exec_turns (sound_init services) h).invariant (fun _ _ _ _ hs hl ht => ht.ledger hs hl)
    (sound_init services) (ledger_init services)

end

/-! ## What no turn undoes -/

/-- What holds of a connection for the rest of its life: ids are not used again, the connection
    keeps its remote address, its mark and its `localAuthId`. -/
structure Later (s t : ProxyAccessService σ) : Prop where
  lastId : s.clientConnectionPool.lastId ≤ t.clientConnectionPool.lastId
  connection : ∀ k c', k ≤ s.clientConnectionPool.lastId → t.clientConnectionPool.get k = some c' →
    ∃ c, s.clientConnectionPool.get k = some c ∧ c'.remoteAddress = c.remoteAddress ∧
      (c.deleteMark = true → c'.deleteMark = true) ∧
      (c.localAuthId ≠ 0 → c'.localAuthId = c.localAuthId)

section

variable {s t u s' : ProxyAccessService σ} {c c' : ClientConnection}

theorem Later.of_pool (h : t.clientConnectionPool = s.clientConnectionPool) : Later s t :=
  ⟨by rw [h], fun _ c _ hc => ⟨c, by rwa [h] at hc, rfl, id, fun _ => rfl⟩⟩

theorem Later.trans (h : Later s t) (h' : Later t u) : Later s u := by
  refine ⟨h.lastId.trans h'.lastId, fun k d hk hd => ?_⟩
  obtain ⟨c', hc', hrem', hmark', hid'⟩ := h'.connection k d (hk.trans h.lastId) hd
  obtain ⟨c, hc, hrem, hmark, hid⟩ := h.connection k c' hk hc'
  refine ⟨c, hc, hrem'.trans hrem, hmark' ∘ hmark, fun hz => ?_⟩
  have hcc := hid hz
  exact (hid' (by rwa [hcc])).trans hcc

/-- Writing back a connection that keeps what it cannot lose. -/
theorem Later.store {k : ℕ} (hpool : s'.clientConnectionPool = s.clientConnectionPool)
    (hc : s.clientConnectionPool.get k = some c) (hid : c'.connectionId = k)
    (hrem : c'.remoteAddress = c.remoteAddress)
    (hmark : c.deleteMark = true → c'.deleteMark = true)
    (hauth : c.localAuthId ≠ 0 → c'.localAuthId = c.localAuthId) : Later s (s'.store c') := by
  refine ⟨?_, fun j d hj hd => ?_⟩
  · simp [ProxyAccessService.store, hpool]
  · rw [get_store (by rw [hpool]; exact hc) hid, hpool] at hd
    split at hd
    · next hjk =>
      cases hd
      exact ⟨c, by rw [hjk, hc], hrem, hmark, hauth⟩
    · exact ⟨d, hd, rfl, id, fun _ => rfl⟩

/-- An act does not overwrite the id of a connection that has one. -/
theorem Act.localAuthId {x : Core σ} {taken : Option ((κ : FutureKind) × Option κ.Result)}
    (h : Act S s c s' x taken) (hid : c.localAuthId ≠ 0) : x.localAuthId = c.localAuthId := by
  rcases h.auth with ⟨h, -⟩ | ⟨-, _, _, _, _, _, -, -, -, h, -⟩ | ⟨_, -, h, -⟩
  · exact h
  · exact absurd h hid
  · exact absurd h hid

theorem Turn.later {l : TurnLabel} (h : Turn S s l t) (hs : Sound s) : Later s t := by
  cases h with
  | clock nowMS audit => exact .of_pool rfl
  | accept remoteAddress localAddress k p hacquire =>
    obtain ⟨hk, hlast, -⟩ := Storage.acquire_eq_some hacquire
    refine ⟨?_, fun j d hj hd => ?_⟩
    · change _ ≤ p.lastId
      omega
    · change p.get j = some d at hd
      rw [Storage.get_acquire hacquire, if_neg (by omega)] at hd
      exact ⟨d, hd, rfl, id, fun _ => rfl⟩
  | refuse x k p hacquire =>
    obtain ⟨hk, hlast, -⟩ := Storage.acquire_eq_some hacquire
    refine ⟨?_, fun j d hj hd => ?_⟩
    · change _ ≤ p.lastId
      omega
    · change (p.release k).get j = some d at hd
      rw [Storage.get_release, if_neg (by omega), Storage.get_acquire hacquire,
        if_neg (by omega)] at hd
      exact ⟨d, hd, rfl, id, fun _ => rfl⟩
  | call k c s' c' hc heffect hstage =>
    exact .store heffect.clientConnectionPool hc (heffect.connectionId.trans (hs.connectionId k c hc))
      heffect.remoteAddress (fun hm => heffect.deleteMark.trans hm) heffect.act.localAuthId
  | result κ f m future c s' c' hpop hf hc hcf heffect hcf' hstage =>
    exact .store (by exact heffect.clientConnectionPool) hc
      (by exact heffect.connectionId.trans (hs.connectionId _ c hc)) (by exact heffect.remoteAddress)
      (fun hm => by exact heffect.deleteMark.trans hm) (by exact heffect.act.localAuthId)
  | touch k c s' c' l hc hframe hcore hshape hudp hcalls hdelivery hmark =>
    exact .store hframe.clientConnectionPool hc (hframe.connectionId.trans (hs.connectionId k c hc))
      hframe.remoteAddress (fun hm => hframe.deleteMark.trans hm)
      fun _ => congrArg Core.localAuthId hcore
  | forwardUdp => exact .of_pool rfl
  | peerClose k c s' c' hc hmark h =>
    obtain ⟨u, l, heq, -⟩ := onPeerClose_eq_ok hmark h
    cases heq
    exact .store (by rfl) hc (hs.connectionId k c hc) (by rfl) (fun _ => by rfl) fun _ => by rfl
  | flush k c hc =>
    rcases onFlush_eq s c with ⟨-, heq⟩ | ⟨-, heq⟩
    all_goals
      rw [heq]
      exact .store (by rfl) hc (hs.connectionId k c hc) (by rfl) (fun hm => hm) fun _ => by rfl
  | close k c hc =>
    rcases closeConnection_eq s c with ⟨-, heq⟩ | ⟨-, -, heq⟩ | ⟨-, -, heq⟩
    · rw [heq]
      exact .store (by rfl) hc (hs.connectionId k c hc) (by rfl) (fun hm => hm) fun _ => by rfl
    all_goals
      rw [heq]
      exact .store (by rfl) hc (hs.connectionId k c hc) (by rfl) (fun _ => by rfl) fun _ => by rfl
  | ready κ f r =>
    unfold setReady
    split
    · exact .of_pool rfl
    · split
      · exact .of_pool rfl
      · exact .of_pool rfl
  | expire l h timeoutMS => exact .of_pool rfl
  | destroy k lists c t hpop hc hready h =>
    obtain ⟨hpool, -⟩ := destroyConnection_eq_ok h
    refine ⟨by rw [hpool]; exact le_rfl, fun j d _ hd => ?_⟩
    rw [hpool, Storage.get_release] at hd
    split at hd
    · cases hd
    · exact ⟨d, hd, rfl, id, fun _ => rfl⟩

theorem Turns.later {L : TurnLabel → Prop} (hs : Sound s) (h : Turns S L s t) : Later s t :=
  h.invariant (fun _ _ _ _ hs ih hturn => ih.trans (hturn.later hs)) hs (.of_pool rfl)

/-- For every connection, what was granted is released when it is destroyed, once, and not
    before. A `localAuthId` stays for the life of its connection, and no grant is left in the
    future of a destroyed one. -/
theorem grants_released (services : σ) (es : List ProxyEvent) (s : ProxyAccessService σ)
    (h : exec (step S P) (init services) es = .ok s) :
    (∀ k c, s.clientConnectionPool.get k = some c → releases k s.calls = [] ∧
      (grants k s.calls).length ≤ 1 ∧ (c.localAuthId ≠ 0 → grants k s.calls = [c.localAuthId])) ∧
    (∀ k, s.clientConnectionPool.get k = none →
      releases k s.calls = grants k s.calls ∧ (grants k s.calls).length ≤ 1) ∧
    (∀ e t k c c', step S P s e = .ok t → s.clientConnectionPool.get k = some c →
      t.clientConnectionPool.get k = some c' → c.localAuthId ≠ 0 →
      c'.localAuthId = c.localAuthId) ∧
    ∀ x ∈ s.destroyed, x.2 = none := by
  have hl := ledger_of_exec h
  have hs := sound_of_exec h
  refine ⟨fun k c hc => ?_, hl.dead, fun e t k c c' ht hc hc' hid => ?_, hl.destroyed⟩
  · obtain ⟨hrel, hgr⟩ := hl.live k c hc
    refine ⟨hrel, ?_, fun hid => ?_⟩
    · rw [hgr]; exact held_length s c
    · rw [hgr, held_of_localAuthId hid]
  · obtain ⟨d, hd, -, -, hkeep⟩ := ((step_turns hs ht).later hs).connection k c'
      (Storage.le_lastId_of_get hc) hc'
    rw [hc] at hd
    cases hd
    exact hkeep hid

/-- A service that grants the same id for every key, and has no device. -/
def grantingServices : Services Unit where
  acquireAuthInfo _ _ := .ok ((), some {
    localAuthId := 1, globalAuthId := 7, proxyAccessAddress := {}, exportAddress := {},
    enableTcp := true, enableUdp := true })
  localAuthId_ne_zero h := by
    rw [Except.ok.injEq, Prod.mk.injEq, Option.some.injEq] at h
    rw [← h.2]
    exact Nat.one_ne_zero
  releaseAuthInfo _ _ _ := .ok ()
  acquireDevice _ _ _ := ((), .ready none)
  createConnection _ _ _ _ _ _ := ((), .ready none)
  createUdpChannel _ _ _ _ _ := ((), .ready none)
  postData _ _ _ _ := ()
  postUdpData _ _ _ _ _ := ()
  destroyConnection _ _ _ := ()
  destroyUdpChannel _ _ _ := ()

/-- A platform for a client at 127.0.0.1. -/
def localPlatform : Platform where
  base64Decode _ := []
  ipToString _ := ascii "127.0.0.1"
  sentAtOnce _ := true
  bindUdp _ a := some a
  targetReportService := false

def localAddress : NetAddress := { type := .ipv4, bytes := [127, 0, 0, 1], port := 4096 }

/-- A client that is authenticated by its ip, and one that leaves while its grant is in its
    future. -/
def leavingClients : List ProxyEvent :=
  [.onNewConnection localAddress localAddress true, .onData 1 [5, 1, 0], .tick 200000,
    .onNewConnection localAddress localAddress true, .onData 2 [5, 1, 0], .onPeerClose 2,
    .tick 200001, .onPeerClose 1, .tick 200002]

theorem grants_released_sample :
    ∃ s, exec (step grantingServices localPlatform) (init ()) leavingClients = .ok s ∧
      grants 2 s.calls = [1] ∧ releases 2 s.calls = grants 2 s.calls := by
  obtain ⟨s, hs, hp⟩ := exists_ok_of_check
    (x := exec (step grantingServices localPlatform) (init ()) leavingClients)
    (p := fun s => grants 2 s.calls = [1] ∧ s.clientConnectionPool.get 2 = none)
    (by decide +kernel)
  obtain ⟨hgr, hdead⟩ := of_decide_eq_true hp
  exact ⟨s, hs, hgr, ((grants_released () leavingClients s hs).2.1 2 hdead).1⟩

end

end ProxyPlatform.ProxyAccessService
