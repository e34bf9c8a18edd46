import ProxyPlatform.Proxy.Relayed
import ProxyPlatform.Relay.Posts
import ProxyPlatform.Wiring.Carry

/-!
# What a client sends reaches its target

The data of a client goes from its socket through the proxy and the relay to the socket of its
target. On the way there are two ids, of the client and of the relay connection, and a client
learns of the latter only when the proxy takes up the answer of the relay.

* `Delivered`: the bytes written to the target of a client are those that the proxy gave the relay
  for it;
* `uploaded`: what the socket of a client presents while the client is a tunnel;
* `uploads_reach`: in a run in which no relay connection is ended because it is idle, the target of a
  client gets what the client sends, in order, without loss and without anything else.
-/

namespace ProxyPlatform

/-- The events that the relay makes. -/
def ProxyEvent.IsCallback : ProxyEvent → Prop
  | .postData .. | .postUdpData .. | .closeConnection _ | .setReady .. => True
  | _ => False

/-- The relay presents no data of a client, and takes up no result. -/
theorem ProxyEvent.IsCallback.allows {e : ProxyEvent} {l : TurnLabel} (he : e.IsCallback)
    (hl : e.Allows l) : (∀ k, l ≠ .call k) ∧ ∀ κ, l ≠ .result κ := by
  cases e with
  | postData | closeConnection | setReady =>
    obtain rfl := hl
    simp
  | postUdpData =>
    obtain ⟨k, rfl⟩ := hl
    simp
  | _ => cases he

open RelayLocalBindingService in
/-- A turn of the relay makes no other events. -/
theorem RelayLocalBindingService.RelayTurn.callbacks {alive : ℕ → Bool}
    {u v : RelayLocalBindingService} {l : RelayLabel} {o : List ProxyEvent}
    (h : RelayTurn alive u l o v) : ∀ e ∈ o, e.IsCallback := by
  have hcomplete (handle result : Option ℕ) : ∀ e ∈ complete alive handle result, e.IsCallback := by
    intro e he
    unfold complete at he
    split at he
    · cases he
    · split at he
      · rw [List.mem_singleton] at he
        rw [he]
        trivial
      · cases he
  cases h with
  | fail => exact hcomplete _ _
  | mark l k c o hc hmark hl =>
    rcases hl with ⟨-, rfl⟩ | ⟨-, rfl⟩ | ⟨-, -, -, rfl⟩
    · exact List.forall_mem_cons.2 ⟨trivial, hcomplete _ _⟩
    · exact List.forall_mem_nil _
    · exact hcomplete _ _
  | connected | data | closed | dataUdp => exact List.forall_mem_singleton.2 trivial
  | _ => exact List.forall_mem_nil _

namespace ProxyWithRelay

open ProxyAccessService RelayLocalBindingService

variable {α : Type*} {R : RelayPlatform} {A : AuthServiceStub α} {P : Platform}
  {s t w w' : ProxyWithRelay α} {e : WiredEvent α} {l : TurnLabel} {i k : ℕ} {c : ClientConnection}

/-! ## What is written -/

/-- What was written to the sockets of the relay. -/
def writtenOf (x : RelayLocalBindingService × α) (k : ℕ) : Bytes := written k x.1.posts

/-- Only a post is written to a connection. -/
theorem wiredServices_spares : (wiredServices R A).Spares (writtenOf (α := α)) where
  acquireAuthInfo s view t result h := by
    change (A.acquireAuthInfo s.2 view).map _ = _ at h
    rcases hx : A.acquireAuthInfo s.2 view with x | ⟨b, y⟩
    · rw [hx] at h
      cases h
    · rw [hx] at h
      cases h
      rfl
  releaseAuthInfo s i usage t h := by
    change (A.releaseAuthInfo s.2 i usage).map _ = _ at h
    rcases hx : A.releaseAuthInfo s.2 i usage with x | b
    · rw [hx] at h
      cases h
    · rw [hx] at h
      cases h
      rfl
  acquireDevice _ _ _ := rfl
  createConnection s _ d k target f := funext fun _ =>
    congrArg (written _) (posts_createConnection s.1 d k f target)
  createUdpChannel s _ d u _ := funext fun _ => congrArg (written _) (posts_createUdpChannel s.1 d u)
  postUdpData s _ u a data := funext fun k => written_postUdpData s.1 u a data k
  destroyConnection s _ k := funext fun _ => congrArg (written _) (posts_destroyConnection s.1 k)
  destroyUdpChannel s _ u := funext fun _ => congrArg (written _) (posts_destroyUdpChannel s.1 u)

/-- What the proxy gave the relay is written to the connections of the clients it is from. -/
def Delivered (w : ProxyWithRelay α) (hw : Sound w) : Prop :=
  Carried (fun i => relayed i w.calls) (fun k => written k w.relay.posts) (routesOf w hw) w.relay.linksOf

theorem Delivered.of_silent {ht : Sound t} (h : Carried (fun i => relayed i s.calls)
    (fun k => written k s.relay.posts) (routesOf t ht) t.relay.linksOf)
    (hwritten : ∀ k, written k t.relay.posts = written k s.relay.posts)
    (hcalls : ∀ i, relayed i t.calls = relayed i s.calls) : Delivered t ht := by
  rwa [Delivered, funext hcalls, funext hwritten]

/-- What a turn of the proxy gives the relay is written, if the connection is there. -/
theorem Delivered.turn (hturn : Turn (wiredServices R A) s l t) (hs : Sound s) (ht : Sound t)
    (htidy : s.relay.Tidy) (hl : l ≠ .ready ∧ ∀ k, l ≠ .close k) (hreported : s.relay.Reported)
    (hresults : ∀ κ, (s.futureManager κ).Results (κ.Supplied DeviceReference.IsLocal))
    (hcall : ∀ i c, l = .call i → s.clientConnectionPool.get i = some c → c.relaySideConnectionId = 0 →
      ∀ j, relayed j t.calls = relayed j s.calls)
    (hm : Mirrored (routesOf s hs) s.relay.linksOf)
    (hr : Reached (fun _ => False) (routesOf s hs) s.relay.linksOf)
    (h : Delivered s hs) : Mirrored (routesOf t ht) t.relay.linksOf ∧
      Reached (fun _ => False) (routesOf t ht) t.relay.linksOf ∧ Delivered t ht := by
  obtain ⟨m, hm', hstep⟩ := turn_tunnel hturn hs ht htidy hl
  have hidle : ∀ k, m = .idle k → False := by
    rintro k rfl
    cases l <;> simp [TurnLabel.IsTunnel] at hm'
  refine ⟨hm.step hstep, hr.step hm hstep hidle, ?_⟩
  have hcarried := Carried.step h hstep
  rcases hturn.relays wiredServices_spares hs with ⟨hwritten, hcalls⟩ |
    ⟨i, c, c', hc, hc', hmark, ⟨a, data, hservices, hcalls⟩, hl'⟩
  · exact .of_silent hcarried (congrFun hwritten) hcalls
  have hrelay : t.relay = s.relay.postData c'.relaySideConnectionId data := congrArg Prod.fst hservices
  by_cases hk : c'.relaySideConnectionId = 0
  · -- Nothing is posted to the connection 0, which no client that sends data has.
    refine .of_silent hcarried ?_ ?_
    · rw [hrelay, hk]
      rcases written_postData s.relay 0 data with ⟨hlost, -⟩ | ⟨⟨d, hd, -⟩, -⟩
      · exact hlost
      · exact absurd (Storage.pos_of_get hd) (by omega)
    · rcases hl' with ⟨rfl, -, heq⟩ | ⟨-, -, f, future, hf, hresult⟩
      · exact hcall i c rfl hc (heq ▸ hk)
      · exact absurd hk (hresults .acquireDeviceConnection f future hf _ hresult)
  have hi : (routesOf t ht).client i = some (c'.deleteMark, c'.relaySideConnectionId) := by
    change (t.clientConnectionPool.get i).map _ = _
    rw [hc', Option.map_some]
  refine hcarried.send (hm.step hstep) hi hk hcalls ?_
  have hlink : t.relay.linksOf.link = s.relay.linksOf.link := by
    rw [hrelay]
    exact (postData_becomes _ data).link
  rw [hrelay]
  rcases written_postData s.relay c'.relaySideConnectionId data with ⟨hlost, hclosed⟩ | ⟨⟨d, hd, -⟩, hwritten⟩
  · refine .inl ⟨funext hlost, ?_⟩
    -- The connection of an unmarked client is open.
    by_contra hunmarked
    rw [Bool.not_eq_true] at hunmarked
    rw [hunmarked] at hi
    have hopen := ((hr.step hm hstep hidle).known i _ hi hk).resolve_right id
    rw [hlink] at hopen
    obtain ⟨d, hd, -⟩ := Option.map_eq_some_iff.1 hopen
    obtain ⟨-, hd', hconnected⟩ := (link_opened_iff hreported hd).1 hopen
    rcases hclosed d hd with hd'' | hd''
    · rw [hd'] at hd''
      cases hd''
    · rw [hconnected] at hd''
      cases hd''
  · refine .inr ⟨⟨(d.proxySideConnectionId, d.phase), ?_⟩, hwritten⟩
    rw [← hrelay, hlink]
    exact linksOf_link hd

/-! ## Steps -/

/-- What the motions of the calls of the relay preserve. -/
theorem callbacks_invariant {I : ProxyWithRelay α → Prop} {es : List ProxyEvent}
    (hI : ∀ s l t, (∀ k, l ≠ .call k) → (∀ κ, l ≠ .result κ) → Sound s → I s →
      Motion (wiredServices R A) s l t → I t) (hs : Sound w) (hes : ∀ e ∈ es, e.IsCallback)
    (hw : ProxyPlatform.exec (ProxyAccessService.step (wiredServices R A) P) w es = .ok w')
    (hi : I w) : I w' := by
  induction es generalizing w with
  | nil =>
    cases hw
    exact hi
  | cons e es ih =>
    obtain ⟨v, hv, hw⟩ := exec_cons_eq_ok.1 hw
    obtain ⟨he, hes⟩ := List.forall_mem_cons.1 hes
    refine ih ((step_turns hs hv).sound hs) hes hw ?_
    refine (step_motions hs hv).invariant (fun s l t hl => ?_) hs hi
    obtain ⟨hcall, hresult⟩ := he.allows hl
    exact hI s l t hcall hresult

/-- The calls of the relay give it nothing, and write nothing. -/
theorem silent_callbacks {es : List ProxyEvent} (hs : Sound w) (hes : ∀ e ∈ es, e.IsCallback)
    (hw : ProxyPlatform.exec (ProxyAccessService.step (wiredServices R A) P) w es = .ok w') :
    Silent writtenOf w w'.services w'.calls := by
  refine callbacks_invariant (I := fun t => Silent writtenOf w t.services t.calls)
    (fun s l t hcall hresult hs hsame hmotion => ?_) hs hes hw ⟨rfl, fun _ => rfl⟩
  rcases hmotion.turn.relays wiredServices_spares hs with ⟨hwritten, hcalls⟩ |
    ⟨j, _, _, _, _, _, _, ⟨hl, -⟩ | ⟨-, hl, -⟩⟩
  · exact ⟨hwritten.trans hsame.1, fun i => (hcalls i).trans (hsame.2 i)⟩
  · exact absurd hl (hcall j)
  · exact absurd hl (hresult _)

theorem relayCall_callbacks (h : w.relay.Tidy) (e : RelayEvent) :
    ∀ x ∈ (relayCall R w e).2, x.IsCallback := by
  intro x hx
  obtain ⟨_, _, _, _, -, hturn, hx⟩ :=
    (RelayLocalBindingService.step_turns R (alive w) h e).exists_turn hx
  exact hturn.callbacks x hx

/-- What holds of the two services, and of the data between them, when no relay connection was ended
    because it was idle. -/
structure JointDelivered (w : ProxyWithRelay α) : Prop extends JointReached w where
  delivered : Delivered w sound

theorem jointDelivered_init (devices : List RelayLocalDevice) (a : α) :
    JointDelivered (init devices a) where
  toJointReached := jointReached_init devices a
  delivered := {
    known := fun _ _ h => by cases h
    unknown := fun _ _ h => by cases h
    fresh := fun _ _ => rfl
    met := fun _ h => absurd rfl h }

/-- A client that knows no relay connection gives the relay nothing. -/
theorem Joint.relayed_of_unknown {data : Bytes} (h : Joint w)
    (hc : w.clientConnectionPool.get i = some c) (hk : c.relaySideConnectionId = 0)
    (hw : ProxyWithRelay.step R A P w (.onData i data) = .ok w') (j : ℕ) :
    relayed j w'.calls = relayed j w.calls := by
  obtain ⟨hnone, -⟩ | ⟨c₁, s', c', n, hc₁, hd, rfl⟩ := step_onData_eq_ok hw
  · rw [hnone] at hc
    cases hc
  cases hc.symm.trans hc₁
  obtain ⟨c₂, total, hprocess, rfl⟩ := onData_eq_ok hd
  change relayed j s'.calls = _
  by_cases hraw : c.dataProcessor = .onRawData
  · exact absurd hk (h.greeted i c hc hraw).1
  by_cases hbody : c.dataProcessor = .onHttpBody
  · rw [processData, hbody] at hprocess
    have hcontent := mt (h.forwarding hc hbody).2.1 (not_not.2 hk)
    rcases onHttpBody_eq (wiredServices R A) w c data with ⟨-, heq⟩ | ⟨-, -, heq⟩ | ⟨-, hempty, -⟩
    · rw [heq] at hprocess
      cases hprocess
      rfl
    · rw [heq] at hprocess
      cases hprocess
      rfl
    · exact absurd hempty hcontent
  by_cases hheader : c.dataProcessor = .onHttpNormalHeaderProcessor
  · rw [processData, hheader] at hprocess
    exact (onHttpNormalHeaderProcessor_header hprocess).2.1 j
  · exact (processData_prepares ⟨hheader, hraw, hbody⟩ hprocess).relayed j

theorem JointDelivered.step (h : JointDelivered w) (he : NoneIdle w e)
    (hw : ProxyWithRelay.step R A P w e = .ok w') : JointDelivered w' := by
  have hreached := h.toJointReached.step he hw
  refine ⟨hreached, ?_⟩
  have hw₀ := hw
  rw [ProxyWithRelay.step] at hw
  split at hw
  · next e' hcall =>
    by_cases hdata : ∃ i data, e' = .onData i data
    · obtain ⟨i, data, rfl⟩ := hdata
      obtain rfl : e = .onData i data := by
        cases e <;> cases hcall
        rfl
      obtain ⟨-, rfl⟩ | ⟨c, s', c', n, hc, hd, rfl⟩ := step_onData_eq_ok hw
      · exact h.delivered
      obtain ⟨g, hg⟩ := h.sound.stage i c hc
      obtain ⟨heffect, hstage⟩ := onData_spec hg hd
      refine (Delivered.turn (.call i c s' c' hc heffect hstage) h.sound hreached.sound h.tidy (by simp)
        h.reported h.supplied.results ?_ h.mirrored h.reached h.delivered).2.2
      rintro j d hj hd hk
      cases hj
      exact h.relayed_of_unknown hd hk hw₀
    · refine ((step_turns h.sound hw).invariant (I := fun t : ProxyWithRelay α =>
        (t.relay.Tidy ∧ t.relay.Reported) ∧
        (∀ κ, (t.futureManager κ).Results (κ.Supplied DeviceReference.IsLocal)) ∧
        ∀ ht : Sound t, Mirrored (routesOf t ht) t.relay.linksOf ∧
          Reached (fun _ => False) (routesOf t ht) t.relay.linksOf ∧ Delivered t ht)
        (fun s l t hl hs hI hturn => ?_) h.sound
        ⟨⟨h.tidy, h.reported⟩, h.supplied.results, fun _ => ⟨h.mirrored, h.reached, h.delivered⟩⟩).2.2
        hreached.sound |>.2.2
      have hlabel := (tunnels_of_proxy (w := w) hcall hl).1
      refine ⟨hturn.preserves (wiredServices_preserves_turns fun _ _ _ _ _ hs hr ht => ht.reported hs hr)
        hI.1, hturn.results wiredServices_supplies hlabel.1 hI.2.1, fun ht => ?_⟩
      obtain ⟨hm, hr, hd⟩ := hI.2.2 hs
      refine Delivered.turn hturn hs ht hI.1.1 hlabel hI.1.2 hI.2.1 ?_ hm hr hd
      rintro i c rfl
      exact absurd hl (by cases e' <;> simp_all [ProxyEvent.Allows])
  · next e' hcall =>
    have hp : Sound { w with services := ((relayCall R w e').1, w.services.2) } :=
      h.sound.congr (fun _ => rfl) rfl fun _ => rfl
    obtain ⟨hwritten, hcalls⟩ := silent_callbacks hp (relayCall_callbacks h.tidy e') hw
    have hcarried := (step_tunnel h.toBound hreached.sound hw₀).invariant
      (I := fun a => Carried (fun i => relayed i w.calls) (fun k => written k w.relay.posts) a.1 a.2)
      (fun _ _ _ _ ha hstep => ha.step hstep) h.delivered
    refine .of_silent hcarried (fun k => ?_) hcalls
    rw [show written k w'.relay.posts = written k (relayCall R w e').1.posts from congrFun hwritten k,
      relayCall, posts_step ?_]
    cases e <;> cases hcall <;> simp
  · cases hw
    exact h.delivered

/-! ## Tunnels -/

/-- What the socket of the client `i` presents, while the client is an unmarked tunnel. -/
def uploaded (i : ℕ) (w : ProxyWithRelay α) : WiredEvent α → Bytes
  | .onData j data => match w.clientConnectionPool.get j with
    | some c => if j = i ∧ c.dataProcessor = .onRawData ∧ c.deleteMark = false then data else []
    | none => []
  | _ => []

/-- The relay was given `fed i` of the client `i`, unless the client has sent an HTTP request of its
    own. -/
structure Fed (fed : ℕ → Bytes) (w : ProxyWithRelay α) : Prop where
  live : ∀ i c, w.clientConnectionPool.get i = some c → c.type ≠ .httpNormal → relayed i w.calls = fed i
  fresh : ∀ i, w.clientConnectionPool.lastId < i → relayed i w.calls = [] ∧ fed i = []

theorem fed_init (devices : List RelayLocalDevice) (a : α) : Fed (fun _ => []) (init devices a) where
  live _ _ h := by cases h
  fresh _ _ := ⟨rfl, rfl⟩

/-- A motion that presents no data. -/
theorem Fed.motion {fed : ℕ → Bytes} (h : Fed fed s) (hs : Sound s)
    (hmotion : Motion (wiredServices R A) s l t) (hl : ∀ k, l ≠ .call k) : Fed fed t := by
  have hlater := hmotion.turn.later hs
  -- What is given to the relay is given for a client with a request of its own.
  have hgiven (i : ℕ) (hi : ∀ c, s.clientConnectionPool.get i = some c → c.type ≠ .httpNormal) :
      relayed i t.calls = relayed i s.calls := by
    rcases hmotion.turn.relays wiredServices_spares hs with ⟨-, hcalls⟩ |
      ⟨j, c, c', hc, hc', hmark, ⟨a, data, -, hcalls⟩, hl'⟩
    · exact hcalls i
    · rw [hcalls, if_neg, List.append_nil]
      rintro rfl
      rcases hl' with ⟨hl', -⟩ | ⟨htype, -⟩
      · exact hl i hl'
      · exact hi c hc htype
  have hnone {i : ℕ} (hi : s.clientConnectionPool.lastId < i) :
      ∀ c, s.clientConnectionPool.get i = some c → c.type ≠ .httpNormal := fun c hc =>
    absurd (Storage.le_lastId_of_get hc) (Nat.not_le.2 hi)
  refine ⟨fun i c' hc' htype => ?_, fun i hi => ?_⟩
  · by_cases hi : s.clientConnectionPool.lastId < i
    · rw [hgiven i (hnone hi), (h.fresh i hi).1, (h.fresh i hi).2]
    · obtain ⟨c, hc, -⟩ := hlater.connection i c' (Nat.not_lt.1 hi) hc'
      have hsame := (hmotion.carries i c c' hc hc').type (hl i)
      have htype' : c.type ≠ .httpNormal := by rwa [← hsame]
      rw [hgiven i, h.live i c hc htype']
      intro d hd
      rw [hc] at hd
      cases hd
      exact htype'
  · have hi' := hlater.lastId.trans_lt hi
    rw [hgiven i (hnone hi')]
    exact h.fresh i hi'

/-- Data of a client, which is given to the relay as it is when the client is a tunnel. -/
theorem Fed.onData {fed : ℕ → Bytes} {data : Bytes} (h : Fed fed w) (hb : Bound w)
    (hw : ProxyWithRelay.step R A P w (.onData i data) = .ok w') :
    Fed (fun j => fed j ++ uploaded j w (.onData i data)) w' := by
  obtain ⟨hnone, rfl⟩ | ⟨c, s', c', n, hc, hd, rfl⟩ := step_onData_eq_ok hw
  · simpa only [uploaded, hnone, List.append_nil] using h
  obtain ⟨g, hg⟩ := hb.sound.stage i c hc
  obtain ⟨heffect, -⟩ := onData_spec hg hd
  obtain ⟨c₂, total, hprocess, -⟩ := onData_eq_ok hd
  have hid := hb.sound.connectionId i c hc
  have hkept (hp : c.dataProcessor = .onHttpBody) (hk : c.relaySideConnectionId = 0) : c.http.content ≠ [] :=
    fun hempty => (hb.forwarding hc hp).2.1 hempty hk
  have hother {j : ℕ} (hj : j ≠ i) :
      relayed j s'.calls = relayed j w.calls ∧ uploaded j w (.onData i data) = [] := by
    refine ⟨processData_relayed_of_ne (by rw [hid]; exact hj.symm) hprocess, ?_⟩
    rw [uploaded, hc]
    exact if_neg fun hji => hj hji.1.symm
  refine ⟨fun j d hd' htype => ?_, fun j hj => ?_⟩
  · change relayed j s'.calls = _
    rw [get_store_of_pool heffect.clientConnectionPool hc (heffect.connectionId.trans hid)] at hd'
    split at hd'
    · next hji =>
      cases hd'
      subst hji
      -- An HTTP request of its own stays one.
      have htype' : c.type ≠ .httpNormal := by
        intro hnormal
        rcases heffect.type with hc' | hc' | hc'
        · cases hnormal.symm.trans hc'
        · cases hnormal.symm.trans hc'
        · exact htype (hc'.trans hnormal)
      rw [processData_relayed hg htype' hkept hprocess, hid, h.live j c hc htype', uploaded, hc]
    · next hji =>
      rw [(hother hji).1, (hother hji).2, List.append_nil]
      exact h.live j d hd' htype
  · change (s'.clientConnectionPool.set c'.connectionId c').lastId < j at hj
    rw [Storage.lastId_set, heffect.clientConnectionPool] at hj
    have hji : j ≠ i := fun hji => absurd (Storage.le_lastId_of_get hc) (by omega)
    change relayed j s'.calls = [] ∧ _
    rw [(hother hji).1, (hother hji).2, List.append_nil]
    exact h.fresh j hj

/-- A step gives the relay, of the clients without a request of their own, what the tunnels send. -/
theorem Fed.step {fed : ℕ → Bytes} (h : Fed fed w) (hb : Bound w)
    (hw : ProxyWithRelay.step R A P w e = .ok w') : Fed (fun j => fed j ++ uploaded j w e) w' := by
  by_cases hdata : ∃ i data, e = .onData i data
  · obtain ⟨i, data, rfl⟩ := hdata
    exact h.onData hb hw
  have hquiet : (fun j => fed j ++ uploaded j w e) = fed := by
    funext j
    cases e with
    | onData i data => exact absurd ⟨i, data, rfl⟩ hdata
    | _ => exact List.append_nil _
  rw [hquiet]
  rw [ProxyWithRelay.step] at hw
  split at hw
  · next e' hcall =>
    refine (step_motions hb.sound hw).invariant (fun s l t hl hs hfed hmotion => ?_) hb.sound h
    refine hfed.motion hs hmotion ?_
    rintro k rfl
    cases e' with
    | onData i data =>
      refine hdata ⟨i, data, ?_⟩
      cases e <;> cases hcall
      rfl
    | _ => simp [ProxyEvent.Allows] at hl
  · next e' hcall =>
    have hp : Sound { w with services := ((relayCall R w e').1, w.services.2) } :=
      hb.sound.congr (fun _ => rfl) rfl fun _ => rfl
    exact callbacks_invariant (fun s l t hl _ hs hfed hmotion => hfed.motion hs hmotion hl) hp
      (relayCall_callbacks hb.tidy e') hw ⟨h.live, h.fresh⟩
  · cases hw
    exact ⟨h.live, h.fresh⟩

/-! ## Runs -/

/-- In a run in which no relay connection is ended because it is idle, what was written to the target
    of an unmarked client is what the proxy gave the relay for it; for a tunnel, this is what its
    socket presented since it is one, in order. -/
theorem uploads_reach (devices : List RelayLocalDevice) (a : α) (es : List (WiredEvent α))
    (w : ProxyWithRelay α) (h : ProxyPlatform.exec (step R A P) (init devices a) es = .ok w)
    (hidle : Along (step R A P) NoneIdle (init devices a) es) (i : ℕ) (c : ClientConnection)
    (hc : w.clientConnectionPool.get i = some c) (hmark : c.deleteMark = false)
    (hk : c.relaySideConnectionId ≠ 0) :
    written c.relaySideConnectionId w.relay.posts = relayed i w.calls ∧
      (c.dataProcessor = .onRawData → written c.relaySideConnectionId w.relay.posts =
        collectAlong (step R A P) (uploaded i) (init devices a) es) := by
  have hall : ProxyPlatform.exec (step R A P) (init devices a) es = .ok w ∧ JointDelivered w ∧
      Fed (fun i => collectAlong (step R A P) (uploaded i) (init devices a) es) w := by
    refine exec_history_along (I := fun pre w => ProxyPlatform.exec (step R A P) (init devices a) pre = .ok w ∧
      JointDelivered w ∧ Fed (fun i => collectAlong (step R A P) (uploaded i) (init devices a) pre) w)
      (fun pre s e t hs he ht => ?_) ⟨rfl, jointDelivered_init devices a, fed_init devices a⟩ hidle h
    obtain ⟨hpre, hjoint, hfed⟩ := hs
    refine ⟨(exec_snoc e hpre).trans ht, hjoint.step he ht, ?_⟩
    simp only [collectAlong_snoc e hpre]
    exact hfed.step hjoint.toBound ht
  obtain ⟨-, hjoint, hfed⟩ := hall
  have hi : (routesOf w hjoint.sound).client i = some (false, c.relaySideConnectionId) := by
    change (w.clientConnectionPool.get i).map _ = _
    rw [hc, Option.map_some, hmark]
  have hwritten := hjoint.delivered.known i _ hi hk
  refine ⟨hwritten, fun hraw => hwritten.trans (hfed.live i c hc fun hnormal => ?_)⟩
  obtain ⟨g, hg⟩ := hjoint.sound.stage i c hc
  rcases type_of_raw hg hraw with htype | htype
  · cases hnormal.symm.trans htype
  · cases hnormal.symm.trans htype

instance (w : ProxyWithRelay α) (e : WiredEvent α) : Decidable (NoneIdle w e) := by
  cases e with
  | relayTick nowMS => exact inferInstanceAs (Decidable (w.relay.dueConnection nowMS = none))
  | _ => exact isTrue trivial

/-- A SOCKS5 client that sends two pieces of data, with an answer between them. -/
def chattingTunnel : List (WiredEvent Unit) :=
  [.tick 200000, .relayTick 200000, .onNewConnection localAddress localAddress true,
    .onData 1 [5, 1, 0], .tick 200001, .onData 1 [5, 1, 0, 1, 127, 0, 0, 1, 0, 80],
    .relayOnConnected 1, .tick 200002, .onData 1 (ascii "ab"), .relayOnData 1 (ascii "xy"),
    .onData 1 (ascii "c"), .relayOnData 1 (ascii "z"), .relayTick 200003]

theorem uploads_reach_chattingTunnel :
    ∃ w c, ProxyPlatform.exec (step openPlatform grantingStub localPlatform) (init [anyDevice] ())
        chattingTunnel = .ok w ∧ w.clientConnectionPool.get 1 = some c ∧ c.relaySideConnectionId = 1 ∧
      c.dataProcessor = .onRawData ∧ collectAlong (step openPlatform grantingStub localPlatform)
        (uploaded 1) (init [anyDevice] ()) chattingTunnel = ascii "abc" ∧
      written c.relaySideConnectionId w.relay.posts = relayed 1 w.calls ∧
      (c.dataProcessor = .onRawData → written c.relaySideConnectionId w.relay.posts =
        collectAlong (step openPlatform grantingStub localPlatform) (uploaded 1) (init [anyDevice] ())
          chattingTunnel) := by
  obtain ⟨w, hw, hcheck⟩ := exists_ok_of_check
    (x := ProxyPlatform.exec (step openPlatform grantingStub localPlatform) (init [anyDevice] ())
      chattingTunnel)
    (p := fun w => ∃ c ∈ w.clientConnectionPool.get 1, c.relaySideConnectionId = 1 ∧
      c.dataProcessor = .onRawData ∧ c.deleteMark = false) (by decide +kernel)
  obtain ⟨c, hc, hk, hraw, hmark⟩ := of_decide_eq_true hcheck
  have hidle : Along (step openPlatform grantingStub localPlatform) NoneIdle (init [anyDevice] ())
      chattingTunnel := along_of_check (by decide +kernel)
  exact ⟨w, c, hw, hc, hk, hraw, by decide +kernel,
    uploads_reach [anyDevice] () chattingTunnel w hw hidle 1 c hc hmark (by omega)⟩

end ProxyWithRelay

end ProxyPlatform
