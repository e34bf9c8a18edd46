import ProxyPlatform.Wiring.Reply

/-!
# Tunnels that end without a word

When the relay ends a connection on its own, the proxy has to know, or it accepts data of the
client for a connection that is no longer there. The relay tells it when the peer closes; it does
not when it ends a connection that is idle.

* `Reached`: the relay connection of an unmarked client is open, but for those given;
* `Announces`: the proxy is told of every connection that the relay ends;
* `Forwards`: the data of an unmarked client of a tunnel is written to the target;
* `announces_iff`: both hold along a run exactly when no relay connection is ended because it is
  idle.

An upload does not keep the connection of the relay alive, only data of the target does.
-/

namespace ProxyPlatform

/-! ## Open tunnels -/

/-- The relay connections that the unmarked clients know, or are to learn of, are open, but for those
    in `ended`. -/
structure Reached (ended : ℕ → Prop) (x : Routes) (r : Links) : Prop where
  known : ∀ i n, x.client i = some (false, n) → n ≠ 0 → r.link n = some (i, .opened) ∨ ended n
  answered : ∀ f i n k, x.future f = some (i, .ready (some k)) → x.client i = some (false, n) →
    r.link k = some (i, .opened) ∨ ended k

section

variable {ended : ℕ → Prop} {x y : Routes} {r t : Links} {l : TunnelLabel} {i k n : ℕ}

/-- A client that is not marked was not marked before, or is new. -/
theorem TunnelStep.unmarked (hs : TunnelStep x r l y t) (hi : y.client i = some (false, n)) :
    x.client i = none ∨ ∃ m, x.client i = some (false, m) := by
  have hmarked {j : ℕ} (hi : x.marked j i = some (false, n)) : ∃ m, x.client i = some (false, m) := by
    unfold Routes.marked at hi
    split at hi
    · obtain ⟨v, -, hv⟩ := Option.map_eq_some_iff.1 hi
      cases hv
    · exact ⟨n, hi⟩
  cases hs with
  | quiet hx hr | refuse _ _ _ _ _ hx hr | look _ _ _ _ _ _ _ hx hr | «open» _ _ _ _ _ _ _ hx hr
  | resolve _ _ _ _ _ _ hx hr | fail _ _ _ _ hx hr | connect _ _ _ _ hx hr | idle _ _ _ _ hx hr
  | clean _ _ _ hx hr =>
    rw [hx.client] at hi
    exact .inr ⟨n, hi⟩
  | accept j hj hx hlast hr =>
    rw [hx.client, Function.update_apply] at hi
    split at hi
    · next hij =>
      refine .inl (Option.eq_none_iff_forall_ne_some.2 fun v hv => ?_)
      have hle := x.client_le i v hv
      omega
    · exact .inr ⟨n, hi⟩
  | peerClose j m hj hx hr | close k j p hk hx hr =>
    rw [hx.client] at hi
    exact .inr (hmarked hi)
  | take j f b result hj hf hx hr =>
    rw [hx.client, Function.update_apply] at hi
    split at hi
    · next hij =>
      cases hi
      exact .inr ⟨0, hij ▸ hj⟩
    · exact .inr ⟨n, hi⟩
  | drop j hx hr =>
    rw [hx.client, Function.update_apply] at hi
    split at hi
    · cases hi
    · exact .inr ⟨n, hi⟩

/-- An open connection stays open as long as its client is not marked, unless it is idle. -/
theorem TunnelStep.stays_open (hm : Mirrored x r) (hs : TunnelStep x r l y t) (hl : l ≠ .idle k)
    (hk : r.link k = some (i, .opened)) (hi : y.client i = some (false, n)) :
    t.link k = some (i, .opened) := by
  have hle := (r.link_le k _ hk).2
  -- The client of the connection that is closed is marked.
  have hmarked {j m : ℕ} (hj : k = m → j = i) (hx : y.client = x.marked j)
      (hr : t.link = r.closed m) : t.link k = some (i, .opened) := by
    rw [hr, Links.closed_eq_some (by simp)]
    refine ⟨fun hkm => ?_, hk⟩
    rw [hx, hj hkm, Routes.marked, if_pos rfl] at hi
    obtain ⟨v, -, hv⟩ := Option.map_eq_some_iff.1 hi
    cases hv
  cases hs with
  | quiet hx hr | accept _ _ hx _ hr | refuse _ _ _ _ _ hx hr | look _ _ _ _ _ _ _ hx hr
  | take _ _ _ _ _ _ hx hr | drop _ hx hr | fail _ _ _ _ hx hr =>
    rw [hr.link]
    exact hk
  | «open» j g m b hj hg hn hx hr | resolve d m j g hd hn hx hr =>
    rw [hr.link, Function.update_of_ne (by omega)]
    exact hk
  | idle m j p hn hx hr =>
    rw [hr.link, Links.closed_eq_some (by simp)]
    exact ⟨fun hkm => hl (hkm ▸ rfl), hk⟩
  | peerClose j m hj hx hr =>
    refine hmarked (fun hkm => ?_) hx.client hr.link
    subst hkm
    exact ((hm.known j _ k hj (r.link_le k _ hk).1.ne').client _ hk).symm
  | close m j p hn hx hr =>
    refine hmarked (fun hkm => ?_) hx.client hr.link
    rw [← hkm, hk] at hn
    cases hn
    rfl
  | connect m j g hn hx hr =>
    rw [hr.link, Function.update_of_ne, hk]
    rintro rfl
    rw [hk] at hn
    cases hn
  | clean m j hn hx hr =>
    rw [hr.link, Function.update_of_ne, hk]
    rintro rfl
    rw [hk] at hn
    cases hn

/-- A step leaves the connections of the unmarked clients open, unless it ends one that is idle. -/
theorem Reached.step (h : Reached ended x r) (hm : Mirrored x r) (hs : TunnelStep x r l y t)
    (hl : ∀ k, l = .idle k → ended k) : Reached ended y t := by
  have hstays {i k n : ℕ} (hk : r.link k = some (i, .opened) ∨ ended k) (hi : y.client i = some (false, n)) :
      t.link k = some (i, .opened) ∨ ended k := by
    rcases hk with hk | hk
    · by_cases hidle : l = .idle k
      · exact .inr (hl k hidle)
      · exact .inl (hs.stays_open hm hidle hk hi)
    · exact .inr hk
  refine ⟨fun i n hi hn => ?_, fun f i n k hf hi => ?_⟩
  · rcases hs.learns hi hn with ⟨b, hb⟩ | ⟨-, f, hf⟩
    · rcases hs.unmarked hi with hnone | ⟨m, hm'⟩
      · rw [hnone] at hb
        cases hb
      · rw [hb] at hm'
        cases hm'
        exact hstays (h.known i n hb hn) hi
    · obtain ⟨b, hb⟩ := x.waiter f i _ hf
      rcases hs.unmarked hi with hnone | ⟨m, hm'⟩
      · rw [hnone] at hb
        cases hb
      · exact hstays (h.answered f i m n hf hm') hi
  · rcases hs.answers hf with hf | ⟨-, hpending, j, hj, hj'⟩
    · obtain ⟨b, hb⟩ := x.waiter f i _ hf
      rcases hs.unmarked hi with hnone | ⟨m, hm'⟩
      · rw [hnone] at hb
        cases hb
      · exact hstays (h.answered f i m k hf hm') hi
    · cases (hm.awaited (.inr k) j f (Links.held_inr.2 hj)).pending _ hpending
      exact .inl hj'

theorem Reached.mono {ended' : ℕ → Prop} (h : Reached ended x r) (hended : ∀ k, ended k → ended' k) :
    Reached ended' x r where
  known i n hi hn := (h.known i n hi hn).imp_right (hended n)
  answered f i n k hf hi := (h.answered f i n k hf hi).imp_right (hended k)

end

/-! ## What the relay tells -/

namespace RelayLocalBindingService

variable {R : RelayPlatform} {alive : ℕ → Bool} {s t : RelayLocalBindingService} {k : ℕ} {l : RelayLabel}
  {o : List ProxyEvent} {d : RelayLocalDeviceConnection}

/-- The connection `d` with the id `k`, as the proxy knows it, is live and not marked. -/
def Lives (k : ℕ) (d : RelayLocalDeviceConnection) (s : RelayLocalBindingService) : Prop :=
  ∃ d', s.localConnectionPool.get k = some d' ∧ d'.deleteMark = false ∧
    d'.proxySideConnectionId = d.proxySideConnectionId

/-- A turn of another kind leaves a connection without a mark. -/
theorem RelayTurn.lives (h : RelayTurn alive s l o t) (hs : Tidy s) (hk : Lives k d s)
    (hl : l ≠ .close k ∧ l ≠ .destroy k ∧ l ≠ .idle k) : Lives k d t := by
  obtain ⟨d', hd', hmark, hproxy⟩ := hk
  cases h.moved hs k with
  | gone h hkill =>
    rcases hkill with hnone | ⟨-, hkill⟩
    · rw [hnone] at hd'
      cases hd'
    · rw [hs.filed.marked hd', hmark] at hkill
      cases hkill
  | created c i f hl hj =>
    have hle := Storage.le_lastId_of_get hd'
    omega
  | kept hget => exact ⟨d', hget.trans hd', hmark, hproxy⟩
  | orphaned c _ hc _ _ hd | connected c _ _ _ hc _ _ _ _ hd | data c _ hc _ _ hd =>
    rw [hd'] at hc
    cases hc
    exact ⟨_, hd, hmark, hproxy⟩
  | marked c hl' => exact absurd hl' (by simp [hl])

theorem RelayTurns.lives {L : RelayLabel → Prop} (h : RelayTurns alive L s o t) (hs : Tidy s)
    (hk : Lives k d s) (hL : ∀ l, L l → l ≠ .close k ∧ l ≠ .destroy k ∧ l ≠ .idle k) : Lives k d t := by
  induction h with
  | refl => exact hk
  | tail h hl ht ih => exact ht.lives (h.tidy hs) ih (hL _ hl)

variable (R alive) in
/-- A tick of the relay ends the connections whose time is up. -/
theorem tick_ends_due {nowMS : ℕ} (hs : Tidy s) (h : k ∈ s.dueConnections nowMS) :
    (∃ d, s.localConnectionPool.get k = some d ∧ d.deleteMark = false) ∧
      Dying k (tick R alive s nowMS).1 := by
  have hmem : k ∈ s.connectionLists.nodes .idleTimeout := (List.takeWhile_sublist _).subset h
  obtain ⟨d, hd⟩ := hs.filed.live ⟨_, hmem⟩
  refine ⟨⟨d, hd, hs.filed.not_marked hd hmem (by simp)⟩, ?_⟩
  have hs' : Tidy { s with localTicker := nowMS } := hs.congr (fun _ => rfl) (fun _ => rfl) rfl rfl
  have htidy := (processDnsResults_turns R alive { s with localTicker := nowMS }).tidy hs'
  obtain ⟨hturns, hdying⟩ := deferDestroyIdleConnections_turns alive htidy
  refine (cleanup_turns alive (hturns.tidy htidy)).dying (hturns.tidy htidy) (hdying k ?_)
  rw [dueConnections_processDnsResults R alive hs]
  exact h

/-- A tick of the relay leaves the other connections without a mark. -/
theorem tick_lives {nowMS : ℕ} (hs : Tidy s) (hk : Lives k d s) (h : k ∉ s.dueConnections nowMS) :
    Lives k d (tick R alive s nowMS).1 := by
  refine (tick_turns_due R alive hs nowMS).lives hs hk ?_
  rintro l (rfl | (rfl | ⟨_, rfl⟩) | ⟨m, hm, rfl⟩ | ⟨_, rfl | rfl | rfl⟩)
  case inr.inr.inl =>
    refine ⟨by simp, by simp, ?_⟩
    rintro ⟨⟩
    exact h hm
  all_goals simp

end RelayLocalBindingService

namespace ProxyWithRelay

open ProxyAccessService RelayLocalBindingService

variable {α : Type*} {R : RelayPlatform} {A : AuthServiceStub α} {P : Platform}
  {w w' : ProxyWithRelay α} {e : WiredEvent α} {i k : ℕ} {c : ClientConnection}

variable (R) in
/-- The proxy is told of every connection that the relay ends in a call of its own. -/
def Announces (w : ProxyWithRelay α) (e : WiredEvent α) : Prop :=
  ∀ e' k d, e.toCall = .relay e' → w.relay.localConnectionPool.get k = some d → d.deleteMark = false →
    (∀ d', (relayCall R w e').1.localConnectionPool.get k = some d' → d'.deleteMark = true) →
    ProxyEvent.closeConnection d.proxySideConnectionId ∈ (relayCall R w e').2

variable (R) in
/-- The proxy is told of the end of the connection `k`, if the relay ends it in a call of its own. -/
def Announced (w : ProxyWithRelay α) (k : ℕ) (e : WiredEvent α) : Prop :=
  ∀ e' d, e.toCall = .relay e' → w.relay.localConnectionPool.get k = some d → d.deleteMark = false →
    (∀ d', (relayCall R w e').1.localConnectionPool.get k = some d' → d'.deleteMark = true) →
    ProxyEvent.closeConnection d.proxySideConnectionId ∈ (relayCall R w e').2

variable (R A P) in
/-- The data of an unmarked client of a tunnel is written to the target. -/
def Forwards (w : ProxyWithRelay α) : WiredEvent α → Prop
  | .onData i data => ∀ c w', w.clientConnectionPool.get i = some c → c.dataProcessor = .onRawData →
    c.deleteMark = false → step R A P w (.onData i data) = .ok w' →
    w'.relay.posts = w.relay.posts ++ [.sent c.relaySideConnectionId data]
  | _ => True

/-- The relay connection `k` is ended because it is idle. -/
def IdlesOut (w : ProxyWithRelay α) (k : ℕ) : WiredEvent α → Prop
  | .relayTick nowMS => k ∈ w.relay.dueConnections nowMS
  | _ => False

/-- No relay connection is ended because it is idle. -/
def NoneIdle (w : ProxyWithRelay α) : WiredEvent α → Prop
  | .relayTick nowMS => w.relay.dueConnection nowMS = none
  | _ => True

theorem NoneIdle.not_idlesOut (h : NoneIdle w e) (k : ℕ) : ¬IdlesOut w k e := by
  cases e with
  | relayTick nowMS =>
    intro hk
    rw [NoneIdle, dueConnection_eq_none] at h
    change k ∈ w.relay.dueConnections nowMS at hk
    rw [h] at hk
    cases hk
  | _ => exact id

/-! ## Along a run -/

/-- What holds of the two services when no relay connection was ended because it was idle. -/
structure JointReached (w : ProxyWithRelay α) : Prop extends Joint w where
  reached : Reached (fun _ => False) (routesOf w sound) w.relay.linksOf

theorem reached_init (devices : List RelayLocalDevice) (a : α) :
    Reached (fun _ => False) (routesOf (init devices a) (sound_init _)) (init devices a).relay.linksOf where
  known _ _ h := by cases h
  answered _ _ _ _ h := by cases h

theorem jointReached_init (devices : List RelayLocalDevice) (a : α) : JointReached (init devices a) where
  toJoint := joint_init devices a
  reached := reached_init devices a

/-- A step leaves the connections of the unmarked clients open, but for those it ends. -/
theorem Joint.reached_step {ended : ℕ → Prop} (h : Joint w)
    (hr : Reached ended (routesOf w h.sound) w.relay.linksOf) (he : ∀ k, IdlesOut w k e → ended k)
    (hw : ProxyWithRelay.step R A P w e = .ok w') :
    Reached ended (routesOf w' (h.step hw).sound) w'.relay.linksOf := by
  refine ((step_tunnel h.toBound (h.step hw).sound hw).invariant
    (I := fun a => Mirrored a.1 a.2 ∧ Reached ended a.1 a.2) (fun a l b hl ha hstep => ?_)
    ⟨h.mirrored, hr⟩).2
  refine ⟨ha.1.step hstep, ha.2.step ha.1 hstep ?_⟩
  rintro k rfl
  cases e with
  | relayTick nowMS =>
    rcases hl with hl | ⟨m, hm, hl⟩
    · cases hl
    · cases hl
      exact he k hm
  | onPeerClose | relayOnConnected => rcases hl with hl | hl <;> cases hl
  | tick => rcases hl with hl | ⟨_, hl | hl⟩ <;> cases hl
  | _ => cases hl

theorem JointReached.step (h : JointReached w) (he : NoneIdle w e)
    (hw : ProxyWithRelay.step R A P w e = .ok w') : JointReached w' :=
  ⟨h.toJoint.step hw, h.toJoint.reached_step h.reached he.not_idlesOut hw⟩

/-- Data of an unmarked client of a tunnel is given to the relay. -/
theorem relay_onData {data : Bytes} (hc : w.clientConnectionPool.get i = some c)
    (hp : c.dataProcessor = .onRawData) (hmark : c.deleteMark = false)
    (hw : ProxyWithRelay.step R A P w (.onData i data) = .ok w') :
    w'.relay = w.relay.postData c.relaySideConnectionId data := by
  obtain ⟨hnone, -⟩ | ⟨c₁, s', c', n, hc₁, hd, rfl⟩ := step_onData_eq_ok hw
  · rw [hnone] at hc
    cases hc
  cases hc.symm.trans hc₁
  obtain ⟨c₂, total, hprocess, rfl⟩ := onData_eq_ok hd
  rw [processData, hp] at hprocess
  have hraw := Except.ok.inj hprocess
  simp only [onRawData, ProxyAccessService.keepAlive, hmark, Bool.false_eq_true, if_false] at hraw
  cases hraw
  rfl

/-- Data for an open connection is written. -/
theorem posts_postData {data : Bytes} (h : w.relay.Reported)
    (hlink : w.relay.linksOf.link k = some (i, .opened)) :
    (w.relay.postData k data).posts = w.relay.posts ++ [.sent k data] := by
  obtain ⟨d, hd, -⟩ := Option.map_eq_some_iff.1 hlink
  obtain ⟨-, hdmark, hconnected⟩ := (link_opened_iff h hd).1 hlink
  simp [RelayLocalBindingService.postData, hd, hdmark, hconnected]

/-- The connection of an unmarked client of a tunnel is open, or is one of those that were ended. -/
theorem Joint.open_or_ended {ended : ℕ → Prop} (h : Joint w)
    (hr : Reached ended (routesOf w h.sound) w.relay.linksOf)
    (hc : w.clientConnectionPool.get i = some c) (hp : c.dataProcessor = .onRawData)
    (hmark : c.deleteMark = false) :
    w.relay.linksOf.link c.relaySideConnectionId = some (i, .opened) ∨ ended c.relaySideConnectionId := by
  refine hr.known i _ ?_ (h.greeted i c hc hp).1
  change (w.clientConnectionPool.get i).map _ = _
  rw [hc, Option.map_some, hmark]

/-- The connection of an unmarked client of a tunnel takes its data. -/
theorem JointReached.forwards (h : JointReached w) : Forwards R A P w e := by
  cases e with
  | onData i data =>
    intro c w' hc hp hmark hw
    rw [relay_onData hc hp hmark hw]
    exact posts_postData h.reported ((h.open_or_ended h.reached hc hp hmark).resolve_right id)
  | _ => trivial

/-! ## What is announced -/

/-- The end of a connection is told by the turns of that name only. -/
theorem close_of_closeConnection {alive : ℕ → Bool} {u v : RelayLocalBindingService} {l : RelayLabel}
    {o : List ProxyEvent} (h : RelayTurn alive u l o v) (hmem : ProxyEvent.closeConnection i ∈ o) :
    ∃ k, l = .close k := by
  have hcomplete (handle result : Option ℕ) :
      ProxyEvent.closeConnection i ∉ complete alive handle result := by
    unfold complete
    split
    · simp
    · split <;> simp
  cases h with
  | closed k => exact ⟨k, rfl⟩
  | fail => exact absurd hmem (hcomplete _ _)
  | mark l k c o hc hmark hl =>
    rcases hl with ⟨rfl, -⟩ | ⟨-, rfl⟩ | ⟨-, -, -, rfl⟩
    · exact ⟨k, rfl⟩
    · cases hmem
    · exact absurd hmem (hcomplete _ _)
  | _ => simp at hmem

/-- The proxy is told of the end of a connection exactly when it is not for being idle. -/
theorem announced_iff (h : w.relay.Tidy) : Announced R w k e ↔ ¬IdlesOut w k e := by
  refine ⟨fun hall hidle => ?_, fun hidle e' d hcall hd hmark hended => ?_⟩
  · cases e with
    | relayTick nowMS =>
      obtain ⟨⟨d, hd, hmark⟩, hdying⟩ := tick_ends_due R (alive w) h hidle
      obtain ⟨l, u, v, o, hl, hturn, hmem⟩ :=
        (RelayLocalBindingService.tick_turns R (alive w) nowMS h).exists_turn
          (hall (.tick nowMS) d rfl hd hmark hdying.2)
      obtain ⟨k, rfl⟩ := close_of_closeConnection hturn hmem
      simp [RelayEvent.Allows] at hl
    | _ => exact hidle
  have hlives : Lives k d w.relay := ⟨d, hd, hmark, rfl⟩
  have hnot : ¬Lives k d (relayCall R w e').1 := by
    rintro ⟨d', hd', hmark', -⟩
    rw [hended d' hd'] at hmark'
    cases hmark'
  have hturns := RelayLocalBindingService.step_turns R (alive w) h e'
  cases e with
  | relayOnPeerClose k' =>
    cases hcall
    by_cases hk : k' = k
    · subst hk
      simp [relayCall, RelayLocalBindingService.step, RelayLocalBindingService.onConnection, hd,
        RelayLocalBindingService.onPeerClose]
    · refine absurd (hturns.lives h hlives fun l hl => ?_) hnot
      obtain rfl := hl
      simp [hk]
  | relayTick nowMS =>
    cases hcall
    exact absurd (tick_lives h hlives hidle) hnot
  | relayOnConnected | relayOnData | relayOnUdpData | dnsResult =>
    cases hcall
    refine absurd (hturns.lives h hlives fun l hl => ?_) hnot
    obtain rfl := hl
    simp
  | _ => cases hcall

theorem announces_of_noneIdle (h : w.relay.Tidy) (he : NoneIdle w e) : Announces R w e :=
  fun e' k => (announced_iff h).2 (he.not_idlesOut k) e'

theorem noneIdle_of_announces (h : w.relay.Tidy) (he : Announces R w e) : NoneIdle w e := by
  cases e with
  | relayTick nowMS =>
    rw [NoneIdle, dueConnection_eq_none, List.eq_nil_iff_forall_not_mem]
    exact fun k => (announced_iff h).1 fun e' => he e' k
  | _ => trivial

/-- In a run, the relay tells the proxy of every connection it ends, and the data of the tunnels is
    written to the targets, exactly when no relay connection is ended because it is idle. -/
theorem announces_iff (devices : List RelayLocalDevice) (a : α) (es : List (WiredEvent α)) :
    Along (step R A P) (fun w e => Announces R w e ∧ Forwards R A P w e) (init devices a) es ↔
      Along (step R A P) NoneIdle (init devices a) es := by
  refine ⟨fun hall => ?_, fun hall => ?_⟩
  · exact hall.of_invariant (I := Bound) (fun w e hw he => noneIdle_of_announces hw.tidy he.1)
      (fun _ _ _ hs _ ht => hs.step ht) (bound_init devices a)
  · exact hall.of_invariant (I := JointReached)
      (fun w e hw he => ⟨announces_of_noneIdle hw.tidy he, hw.forwards⟩)
      (fun _ _ _ hs he ht => hs.step he ht) (jointReached_init devices a)

end ProxyWithRelay

end ProxyPlatform
