import ProxyPlatform.Base.Since
import ProxyPlatform.Wiring.Joint

/-!
# The reply comes first

A client of a tunnel is told that its tunnel is there before it gets data of the target. The reply
is posted by the tick of the proxy that takes up the result of the relay; the data is passed on
when it arrives. `PostData` asserts that the result is taken up.

* `RepliesPrecede`: data that the relay passes on finds the reply posted, and the assertion holds;
* `Settled`: the proxy ticked when the relay connection was connected already;
* `repliesPrecede_iff`: each piece of data that is passed on finds the reply posted exactly when its
  connection is settled.

The results are taken up by the ticks only, so that a target that speaks first is heard too early,
if the relay reads its data before the proxy ticks.
-/

namespace ProxyPlatform

namespace ProxyWithRelay

open ProxyAccessService RelayLocalBindingService

variable {α : Type*} {R : RelayPlatform} {A : AuthServiceStub α} {P : Platform}
  {s w w' : ProxyWithRelay α} {e : WiredEvent α} {pre es : List (WiredEvent α)} {i k : ℕ}
  {c : ClientConnection}

variable (R A P) in
/-- The proxy ticked when the relay connection `k` was connected already. -/
def Settled (s : ProxyWithRelay α) (k : ℕ) (pre : List (WiredEvent α)) : Prop :=
  ∃ a nowMS b v d, pre = a ++ .tick nowMS :: b ∧ exec (step R A P) s a = .ok v ∧
    v.relay.localConnectionPool.get k = some d ∧ d.isConnected = true

/-- Data of `k` is passed on to its client: neither is marked. -/
def Passes (w : ProxyWithRelay α) (k : ℕ) : Prop :=
  ∃ d c, w.relay.localConnectionPool.get k = some d ∧ d.isConnected = true ∧ d.deleteMark = false ∧
    w.clientConnectionPool.get d.proxySideConnectionId = some c ∧ c.deleteMark = false

/-- The client has no result to take up, and, if it is one of a tunnel, was told so. -/
def Answered (w : ProxyWithRelay α) (c : ClientConnection) : Prop :=
  c.futures .acquireDeviceConnection = none ∧ (c.type = .s5Tcp ∨ c.type = .httpRaw →
    ∃ reply, c.type.Establishes reply ∧ ProxyCall.post c.connectionId .established reply ∈ w.calls)

variable (R) in
/-- The clients that data is passed on to are answered. -/
def RepliesPrecede (w : ProxyWithRelay α) (e : WiredEvent α) : Prop :=
  ∀ e' i data c, e.toCall = .relay e' → ProxyEvent.postData i data ∈ (relayCall R w e').2 →
    w.clientConnectionPool.get i = some c → c.deleteMark = false → Answered w c

/-! ## Settled connections -/

theorem Settled.snoc (h : Settled R A P s k pre) (e : WiredEvent α) : Settled R A P s k (pre ++ [e]) := by
  obtain ⟨a, nowMS, b, v, d, rfl, hv, hd⟩ := h
  exact ⟨a, nowMS, b ++ [e], v, d, by rw [List.append_assoc, List.cons_append], hv, hd⟩

theorem settled_snoc (hw : exec (step R A P) s pre = .ok w) : Settled R A P s k (pre ++ [e]) ↔
    Settled R A P s k pre ∨ (∃ nowMS, e = .tick nowMS) ∧
      ∃ d, w.relay.localConnectionPool.get k = some d ∧ d.isConnected = true := by
  refine ⟨?_, ?_⟩
  · rintro ⟨a, nowMS, b, v, d, heq, hv, hd⟩
    rcases concat_eq_append_cons.1 heq with ⟨rfl, rfl, -⟩ | ⟨b, -, rfl⟩
    · rw [hw] at hv
      cases hv
      exact .inr ⟨⟨nowMS, rfl⟩, d, hd⟩
    · exact .inl ⟨a, nowMS, b, v, d, rfl, hv, hd⟩
  · rintro (h | ⟨⟨nowMS, rfl⟩, d, hd⟩)
    · exact h.snoc e
    · exact ⟨pre, nowMS, [], w, d, rfl, hw, hd⟩

/-- A connection of the relay is open when it is connected and not marked. -/
theorem link_opened_iff (h : w.relay.Reported) {d : RelayLocalDeviceConnection}
    (hd : w.relay.localConnectionPool.get k = some d) :
    w.relay.linksOf.link k = some (i, .opened) ↔
      d.proxySideConnectionId = i ∧ d.deleteMark = false ∧ d.isConnected = true := by
  rw [linksOf_link hd, Option.some.injEq, Prod.mk.injEq]
  refine and_congr_right fun _ => ?_
  cases hmark : d.deleteMark with
  | true => simp [RelayLocalDeviceConnection.phase_closing hmark]
  | false =>
    rw [h k d hd hmark]
    cases hf : d.createConnectionFutureHandle with
    | none => simp [RelayLocalDeviceConnection.phase_opened hmark hf]
    | some f => simp [RelayLocalDeviceConnection.phase_opening hmark hf]

/-- A connection that is connected has no future to complete. -/
theorem met_of_isConnected (h : w.relay.Reported) {d : RelayLocalDeviceConnection}
    (hd : w.relay.localConnectionPool.get k = some d) (hconnected : d.isConnected = true) :
    w.relay.linksOf.Met k := by
  refine ⟨(w.relay.linksOf.link_le k _ (linksOf_link hd)).2, fun v hv => ?_⟩
  rw [linksOf_link hd] at hv
  cases hv
  cases hmark : d.deleteMark with
  | true => rw [RelayLocalDeviceConnection.phase_closing hmark, LinkPhase.future]
  | false =>
    rw [RelayLocalDeviceConnection.future_phase hmark]
    exact Option.not_isSome_iff_eq_none.1 fun hf => by simp_all [h k d hd hmark]

/-! ## Histories -/

variable (R A P) in
/-- What the tunnels have to do with the ticks of the run. -/
structure History (s : ProxyWithRelay α) (pre : List (WiredEvent α)) (w : ProxyWithRelay α) : Prop where
  reached : exec (step R A P) s pre = .ok w
  joint : Joint w
  /-- A client that knows an open connection has learnt of it in a tick. -/
  known : ∀ i b k j, w.clientOf i = some (b, k) → k ≠ 0 → w.relay.linksOf.link k = some (j, .opened) →
    Settled R A P s k pre
  /-- The result of a settled connection is taken up. -/
  settled : ∀ k, Settled R A P s k pre → w.relay.linksOf.Met k ∧
    ∀ f i, w.connectionFutureOf f ≠ some (i, .ready (some k))

theorem History.init (devices : List RelayLocalDevice) (a : α) :
    History R A P (ProxyWithRelay.init devices a) [] (ProxyWithRelay.init devices a) where
  reached := rfl
  joint := joint_init devices a
  known _ _ _ _ h := by cases h
  settled k h := by
    obtain ⟨a, nowMS, b, v, d, heq, -⟩ := h
    simp at heq

/-- After a tick of the proxy no result is left. -/
theorem tick_leaves {nowMS : ℕ} (h : Joint w) (h' : Joint w') (hw : step R A P w (.tick nowMS) = .ok w')
    (f i : ℕ) (r : Option ℕ) : w'.connectionFutureOf f ≠ some (i, .ready r) := by
  intro hf
  obtain ⟨future, hget, heq⟩ := Option.map_eq_some_iff.1 hf
  have hempty := (tick_turns h.sound hw).2.2 .acquireDeviceConnection
  cases hready : future.isReady with
  | false => simp [answerOf, hready] at heq
  | true =>
    have hmem := h'.queued .acquireDeviceConnection f future hget hready
    rw [hempty] at hmem
    cases hmem

/-- A step that is no tick teaches no client; a tick, only of connections that were open. -/
theorem History.known_step (h : History R A P s pre w) (hw : step R A P w e = .ok w') {b : Bool} {j : ℕ}
    (hi : w'.clientOf i = some (b, k)) (hk : k ≠ 0) (hlink : w'.relay.linksOf.link k = some (j, .opened)) :
    Settled R A P s k (pre ++ [e]) := by
  have hbound := h.joint.toBound
  have hsteps := step_tunnel hbound (hbound.step hw).sound hw
  refine (hsteps.invariant (I := fun a => Mirrored a.1 a.2 ∧
    ((∃ nowMS, e = .tick nowMS) → ∀ k j, a.2.link k = some (j, .opened) →
      w.relay.linksOf.link k = some (j, .opened)) ∧
    ∀ i b k j, a.1.client i = some (b, k) → k ≠ 0 → a.2.link k = some (j, .opened) →
      Settled R A P s k (pre ++ [e])) ?_ ?_).2.2 i b k j hi hk hlink
  · rintro ⟨x, r⟩ l ⟨y, t⟩ hl ⟨hmirrored, hopen, hknown⟩ hstep
    refine ⟨hmirrored.step hstep, ?_, fun i b k j hi hk hlink => ?_⟩
    · rintro ⟨nowMS, rfl⟩ k j hlink
      rcases hstep.opens hlink with hlink | ⟨rfl, -⟩
      · exact hopen ⟨nowMS, rfl⟩ k j hlink
      · rcases hl with hl | ⟨_, hl | hl⟩ <;> cases hl
    · have hbefore (hmet : r.Met k) : r.link k = some (j, .opened) :=
        (hstep.opens hlink).elim id fun ⟨_, f, hf⟩ => by cases hmet.future _ hf
      rcases hstep.learns hi hk with ⟨b, hi⟩ | ⟨rfl, f, hf⟩
      · exact hknown i b k j hi hk (hbefore (hmirrored.known i b k hi hk).toMet)
      · obtain ⟨nowMS, rfl⟩ : ∃ nowMS, e = .tick nowMS := by
          cases e with
          | tick nowMS => exact ⟨nowMS, rfl⟩
          | onPeerClose => rcases hl with hl | hl <;> cases hl
          | relayOnConnected => rcases hl with hl | hl <;> cases hl
          | relayTick => rcases hl with hl | ⟨_, -, hl⟩ <;> cases hl
          | _ => cases hl
        have hwlink := hopen ⟨nowMS, rfl⟩ k j (hbefore (hmirrored.answered f i k hf).toMet)
        obtain ⟨d, hd, -⟩ := Option.map_eq_some_iff.1 hwlink
        exact (settled_snoc h.reached).2 (.inr ⟨⟨nowMS, rfl⟩, d, hd,
          ((link_opened_iff h.joint.reported hd).1 hwlink).2.2⟩)
  · exact ⟨h.joint.mirrored, fun _ _ _ => id, fun i b k j hi hk hlink => (h.known i b k j hi hk hlink).snoc e⟩

theorem History.settled_step (h : History R A P s pre w) (hw : step R A P w e = .ok w')
    (hk : Settled R A P s k (pre ++ [e])) : w'.relay.linksOf.Met k ∧
      ∀ f i, w'.connectionFutureOf f ≠ some (i, .ready (some k)) := by
  have hbound := h.joint.toBound
  have hsteps := step_tunnel hbound (hbound.step hw).sound hw
  rcases (settled_snoc h.reached).1 hk with hk | ⟨⟨nowMS, rfl⟩, d, hd, hconnected⟩
  · refine hsteps.invariant (I := fun a => a.2.Met k ∧ ∀ f i, a.1.future f ≠ some (i, .ready (some k)))
      ?_ (h.settled k hk)
    rintro ⟨x, r⟩ l ⟨y, t⟩ - ⟨hmet, hready⟩ hstep
    refine ⟨hstep.met hmet, fun f i hf => ?_⟩
    rcases hstep.answers hf with hf | ⟨-, -, j, hj, -⟩
    · exact hready f i hf
    · cases hmet.future _ hj
  · exact ⟨hsteps.invariant (I := fun a => a.2.Met k) (fun _ _ _ _ hmet hstep => hstep.met hmet)
      (met_of_isConnected h.joint.reported hd hconnected), fun f i =>
        tick_leaves h.joint (h.joint.step hw) hw f i _⟩

theorem History.step (h : History R A P s pre w) (hw : ProxyWithRelay.step R A P w e = .ok w') :
    History R A P s (pre ++ [e]) w' where
  reached := (exec_snoc e h.reached).trans hw
  joint := h.joint.step hw
  known _ _ _ _ := h.known_step hw
  settled _ := h.settled_step hw

/-! ## Data that is passed on -/

/-- Data is passed on by the turns of that name only. -/
theorem data_of_postData {alive : ℕ → Bool} {u v : RelayLocalBindingService} {l : RelayLabel}
    {o : List ProxyEvent} {data : Bytes} (h : RelayTurn alive u l o v)
    (hmem : ProxyEvent.postData i data ∈ o) : ∃ k, l = .data k := by
  have hcomplete (handle result : Option ℕ) : ProxyEvent.postData i data ∉ complete alive handle result := by
    unfold complete
    split
    · simp
    · split <;> simp
  cases h with
  | data k => exact ⟨k, rfl⟩
  | fail => exact absurd hmem (hcomplete _ _)
  | mark l k c o hc hmark hl =>
    rcases hl with ⟨-, rfl⟩ | ⟨-, rfl⟩ | ⟨-, -, -, rfl⟩
    · exact absurd ((List.mem_cons.1 hmem).resolve_left (by simp)) (hcomplete _ _)
    · cases hmem
    · exact absurd hmem (hcomplete _ _)
  | _ => simp at hmem

/-- The relay passes data on when a socket presents it. -/
theorem postData_iff {e' : RelayEvent} {data : Bytes} (h : w.relay.Tidy) (hcall : e.toCall = .relay e') :
    ProxyEvent.postData i data ∈ (relayCall R w e').2 ↔
      ∃ k d, e = .relayOnData k data ∧ w.relay.localConnectionPool.get k = some d ∧
        d.isConnected = true ∧ d.deleteMark = false ∧ d.proxySideConnectionId = i := by
  refine ⟨fun hmem => ?_, ?_⟩
  · obtain ⟨l, u, v, o, hk, hturn, hmem'⟩ :=
      (RelayLocalBindingService.step_turns R (alive w) h e').exists_turn hmem
    obtain ⟨k, rfl⟩ := data_of_postData hturn hmem'
    cases e with
    | relayOnData k' data' =>
      cases hcall
      simp only [relayCall, RelayLocalBindingService.step, RelayLocalBindingService.onConnection] at hmem
      split at hmem
      · cases hmem
      next d hd =>
      split at hmem
      · next hconnected =>
        simp only [RelayLocalBindingService.onData, RelayLocalBindingService.keepAlive] at hmem
        split at hmem
        · cases hmem
        · next heq =>
          split at heq
          · cases heq
          · next hmark =>
            obtain ⟨rfl, rfl⟩ : i = d.proxySideConnectionId ∧ data = data' := by simpa using hmem
            exact ⟨k', d, rfl, hd, hconnected, by simpa using hmark, rfl⟩
      · cases hmem
    | relayTick =>
      cases hcall
      simp [RelayEvent.Allows] at hk
    | relayOnConnected | relayOnPeerClose | relayOnUdpData | dnsResult =>
      cases hcall
      cases hk
    | _ => cases hcall
  · rintro ⟨k, d, rfl, hd, hconnected, hmark, rfl⟩
    cases hcall
    simp [relayCall, RelayLocalBindingService.step, RelayLocalBindingService.onConnection, hd, hconnected,
      RelayLocalBindingService.onData, RelayLocalBindingService.keepAlive, hmark]

/-- A client that knows an open relay connection is answered. -/
theorem Joint.answered (h : Joint w) (hc : w.clientConnectionPool.get i = some c)
    (hk : c.relaySideConnectionId ≠ 0) : Answered w c := by
  obtain ⟨g, hg⟩ := h.sound.stage i c hc
  have htunnel : g = .tunnel := by
    by_contra hne
    exact hk (hg.relaySideConnectionId hne)
  subst htunnel
  refine ⟨hg.futures_eq_none (by simp [Stage.awaits]), fun htype => (h.greeted i c hc ?_).2⟩
  rcases hg.shape with ⟨-, hp⟩ | ⟨-, hp⟩ | ⟨hnormal, -⟩
  · exact hp
  · exact hp
  · rw [hnormal] at htype
    simp at htype

/-- The client of an open connection knows it, or waits for it. -/
theorem Joint.knows_or_waits (h : Joint w) (hlink : w.relay.linksOf.link k = some (i, .opened))
    (hc : w.clientConnectionPool.get i = some c) : c.relaySideConnectionId = k ∨
      ∃ f, c.futures .acquireDeviceConnection = some f ∧
        w.connectionFutureOf f = some (i, .ready (some k)) := by
  have hi : w.clientOf i = some (c.deleteMark, c.relaySideConnectionId) := by
    rw [clientOf, hc, Option.map_some]
  refine ((h.mirrored.opened k i hlink).knows _ _ hi).imp_right fun ⟨f, hf⟩ => ⟨f, ?_, hf⟩
  have hwait := h.sound.toPaired.futureOf_of_future hf
  rwa [futureOf, hc, Option.bind_some] at hwait

/-- The client of an open connection is answered exactly when the connection is settled. -/
theorem History.answered_iff (h : History R A P s pre w)
    (hlink : w.relay.linksOf.link k = some (i, .opened)) (hc : w.clientConnectionPool.get i = some c) :
    Answered w c ↔ Settled R A P s k pre := by
  have hk : k ≠ 0 := (w.relay.linksOf.link_le k _ hlink).1.ne'
  rcases h.joint.knows_or_waits hlink hc with rfl | ⟨f, hwait, hf⟩
  · refine iff_of_true (h.joint.answered hc hk) (h.known i c.deleteMark _ i ?_ hk hlink)
    rw [clientOf, hc, Option.map_some]
  · refine iff_of_false (fun hanswered => ?_) fun hsettled => (h.settled k hsettled).2 f i hf
    rw [hanswered.1] at hwait
    cases hwait

variable (R A P) in
/-- The data of an event finds the client it is for answered exactly when the proxy ticked since the
    relay connection was connected. -/
def AnsweredOnTick (s : ProxyWithRelay α) (pre : List (WiredEvent α)) (w : ProxyWithRelay α)
    (e : WiredEvent α) : Prop :=
  ∀ e' i data c, e.toCall = .relay e' → ProxyEvent.postData i data ∈ (relayCall R w e').2 →
    w.clientConnectionPool.get i = some c →
    ∃ k, e = .relayOnData k data ∧ (Answered w c ↔ Settled R A P s k pre)

theorem History.answeredOnTick (h : History R A P s pre w) (e : WiredEvent α) :
    AnsweredOnTick R A P s pre w e := by
  intro e' i data c hcall hmem hc
  obtain ⟨k, d, rfl, hd, hconnected, hdmark, hi⟩ := (postData_iff h.joint.tidy hcall).1 hmem
  have hlink := (link_opened_iff h.joint.reported hd).2 ⟨hi, hdmark, hconnected⟩
  exact ⟨k, rfl, h.answered_iff hlink hc⟩

/-- In a run, each piece of data that is passed on finds its client answered exactly when the proxy
    ticked since the relay connection was connected; so all of it does exactly when each of the
    connections is settled by the time that its data is passed on. -/
theorem repliesPrecede_iff (devices : List RelayLocalDevice) (a : α) (es : List (WiredEvent α)) :
    (∀ pre e w, pre ++ [e] <+: es → exec (step R A P) (init devices a) pre = .ok w →
      AnsweredOnTick R A P (init devices a) pre w e) ∧
    (Along (step R A P) (RepliesPrecede R) (init devices a) es ↔
      ∀ pre k data w, pre ++ [.relayOnData k data] <+: es →
        exec (step R A P) (init devices a) pre = .ok w → Passes w k →
        Settled R A P (init devices a) k pre) := by
  have hhistory {pre : List (WiredEvent α)} {w : ProxyWithRelay α}
      (hw : exec (step R A P) (init devices a) pre = .ok w) : History R A P (init devices a) pre w :=
    exec_history (fun _ _ _ _ h ht => h.step ht) (.init devices a) hw
  refine ⟨fun pre e w _ hw => (hhistory hw).answeredOnTick e, ?_⟩
  rw [along_iff]
  refine ⟨fun hall pre k data w hpre hw hpasses => ?_,
    fun hall pre e w hpre hw e' i data c hcall hmem hc hmark => ?_⟩
  · have h := hhistory hw
    obtain ⟨d, c, hd, hconnected, hdmark, hc, hmark⟩ := hpasses
    have hmem : ProxyEvent.postData d.proxySideConnectionId data ∈ (relayCall R w (.onData k data)).2 :=
      (postData_iff (e := .relayOnData k data) h.joint.tidy rfl).2
        ⟨k, d, rfl, hd, hconnected, hdmark, rfl⟩
    obtain ⟨k', hk', hiff⟩ := h.answeredOnTick (.relayOnData k data) _ _ data c rfl hmem hc
    cases hk'
    exact hiff.1 (hall pre _ w hpre hw _ _ data c rfl hmem hc hmark)
  · have h := hhistory hw
    obtain ⟨k, d, rfl, hd, hconnected, hdmark, hi⟩ := (postData_iff h.joint.tidy hcall).1 hmem
    obtain ⟨k', hk', hiff⟩ := h.answeredOnTick _ e' i data c hcall hmem hc
    cases hk'
    exact hiff.2 (hall pre k data w hpre hw ⟨d, c, hd, hconnected, hdmark, hi ▸ hc, hmark⟩)

end ProxyWithRelay

end ProxyPlatform
