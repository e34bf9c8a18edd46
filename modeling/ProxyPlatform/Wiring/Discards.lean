import ProxyPlatform.Wiring.Silence

/-!
# Data that is discarded

The relay passes the end of a connection on when its peer closes it. A connection that is idle it
marks without a word, and the client that goes on sending is not told: its data is taken, and
discarded.

* `Lasts`: the relay connection was not ended for being idle so far;
* `Chronicle`: a run, with what the connections that lasted and those that did not are like;
* `discards_iff`: the end of a connection is passed on unless it is for being idle, and data of a
  client is discarded exactly when its relay connection was ended for being idle before.
-/

namespace ProxyPlatform

namespace ProxyWithRelay

open ProxyAccessService RelayLocalBindingService

variable {α : Type*} {R : RelayPlatform} {A : AuthServiceStub α} {P : Platform}
  {s w w' : ProxyWithRelay α} {e : WiredEvent α} {pre es : List (WiredEvent α)} {i k : ℕ}
  {c : ClientConnection}

variable (R A P) in
/-- The relay connection `k` was not ended for being idle in the events `pre`. -/
def Lasts (s : ProxyWithRelay α) (k : ℕ) (pre : List (WiredEvent α)) : Prop :=
  Along (step R A P) (fun w e => ¬IdlesOut w k e) s pre

theorem lasts_snoc (hw : exec (step R A P) s pre = .ok w) :
    Lasts R A P s k (pre ++ [e]) ↔ Lasts R A P s k pre ∧ ¬IdlesOut w k e :=
  ⟨fun h => ⟨h.of_prefix (List.prefix_append _ _), (h.of_append hw).1⟩, fun h => h.1.snoc hw h.2⟩

variable (R A P) in
/-- The connections of the unmarked clients are open if they lasted, and not if they did not. -/
structure Chronicle (s : ProxyWithRelay α) (pre : List (WiredEvent α)) (w : ProxyWithRelay α) : Prop where
  reached : exec (step R A P) s pre = .ok w
  joint : Joint w
  opened : Reached (fun k => ¬Lasts R A P s k pre) (routesOf w joint.sound) w.relay.linksOf
  ended : ∀ k, ¬Lasts R A P s k pre → Dying k w.relay

theorem Chronicle.init (devices : List RelayLocalDevice) (a : α) :
    Chronicle R A P (ProxyWithRelay.init devices a) [] (ProxyWithRelay.init devices a) where
  reached := rfl
  joint := joint_init devices a
  opened := (reached_init devices a).mono fun _ => False.elim
  ended _ h := absurd trivial h

/-- A step ends the connections that are idle, and leaves the others as they are. -/
theorem Chronicle.step (h : Chronicle R A P s pre w) (hw : ProxyWithRelay.step R A P w e = .ok w') :
    Chronicle R A P s (pre ++ [e]) w' where
  reached := (exec_snoc e h.reached).trans hw
  joint := h.joint.step hw
  opened := by
    refine h.joint.reached_step (h.opened.mono fun k hk => ?_) (fun k hk => ?_) hw
    · exact fun hlasts => hk ((lasts_snoc h.reached).1 hlasts).1
    · exact fun hlasts => ((lasts_snoc h.reached).1 hlasts).2 hk
  ended k hk := by
    -- A connection that lasted until now is ended by this event, which is a tick then.
    by_cases hbefore : Lasts R A P s k pre
    · have hidle : IdlesOut w k e := not_not.1 fun hidle => hk ((lasts_snoc h.reached).2 ⟨hbefore, hidle⟩)
      cases e with
      | relayTick nowMS =>
        rw [relay_of_relayStep h.joint.toBound (e := .relayTick nowMS) rfl hw]
        exact (tick_ends_due R (alive w) h.joint.tidy hidle).2
      | _ => exact absurd hidle id
    · exact relay_invariant (fun _ _ _ _ _ hs hd ht => ht.dying hs hd) h.joint.toBound (h.ended k hbefore) hw

theorem chronicle_of_exec {devices : List RelayLocalDevice} {a : α}
    (h : exec (step R A P) (init devices a) es = .ok w) : Chronicle R A P (init devices a) es w :=
  exec_history (fun _ _ _ _ h ht => h.step ht) (.init devices a) h

/-- Data for a connection that is marked or gone is discarded. -/
theorem posts_postData_of_dying {data : Bytes} {r : RelayLocalBindingService} (h : Dying k r) :
    (r.postData k data).posts = r.posts ++ [.lost k data] := by
  rw [RelayLocalBindingService.postData]
  split
  · rfl
  · next d hd =>
    rw [h.2 d hd]
    rfl

/-- After every run, the next step of the relay tells the proxy of the end of each connection unless
    it is for being idle; and data that an unmarked client of a tunnel sends next is written to the
    target exactly when its relay connection was not ended for being idle, and discarded otherwise. -/
theorem discards_iff (devices : List RelayLocalDevice) (a : α) (es : List (WiredEvent α))
    (w : ProxyWithRelay α) (h : exec (step R A P) (init devices a) es = .ok w) :
    (∀ e k, Announced R w k e ↔ ¬IdlesOut w k e) ∧
    ∀ i c data w', w.clientConnectionPool.get i = some c → c.dataProcessor = .onRawData →
      c.deleteMark = false → step R A P w (.onData i data) = .ok w' →
      (w'.relay.posts = w.relay.posts ++ [.sent c.relaySideConnectionId data] ↔
        Lasts R A P (init devices a) c.relaySideConnectionId es) ∧
      (w'.relay.posts = w.relay.posts ++ [.lost c.relaySideConnectionId data] ↔
        ¬Lasts R A P (init devices a) c.relaySideConnectionId es) := by
  have hc := chronicle_of_exec h
  refine ⟨fun e k => announced_iff hc.joint.tidy, fun i c data w' hi hp hmark hw => ?_⟩
  -- `PostData` of the relay is all that the data leads to, and it depends on the connection alone.
  rw [relay_onData hi hp hmark hw]
  by_cases hlasts : Lasts R A P (init devices a) c.relaySideConnectionId es
  · have hlink := (hc.joint.open_or_ended hc.opened hi hp hmark).resolve_right (not_not.2 hlasts)
    rw [posts_postData hc.joint.reported hlink]
    simp [hlasts]
  · rw [posts_postData_of_dying (hc.ended _ hlasts)]
    simp [hlasts]

/-- A client of a tunnel that sends for as long as the relay waits for data of its target. -/
def uploadingTunnel : List (WiredEvent Unit) :=
  [.tick 200000, .relayTick 200000, .onNewConnection localAddress localAddress true,
    .onData 1 [5, 1, 0], .tick 200001, .onData 1 [5, 1, 0, 1, 127, 0, 0, 1, 0, 80],
    .relayOnConnected 1, .tick 200002, .onData 1 (ascii "ab"), .relayTick 325000]

theorem discards_uploadingTunnel :
    ∃ w c w', exec (step openPlatform grantingStub localPlatform) (init [anyDevice] ()) uploadingTunnel =
        .ok w ∧ w.clientConnectionPool.get 1 = some c ∧ c.relaySideConnectionId = 1 ∧
      step openPlatform grantingStub localPlatform w (.onData 1 (ascii "c")) = .ok w' ∧
      (∀ e k, Announced openPlatform w k e ↔ ¬IdlesOut w k e) ∧
      (w'.relay.posts = w.relay.posts ++ [.sent c.relaySideConnectionId (ascii "c")] ↔
        Lasts openPlatform grantingStub localPlatform (init [anyDevice] ()) c.relaySideConnectionId
          uploadingTunnel) ∧
      (w'.relay.posts = w.relay.posts ++ [.lost c.relaySideConnectionId (ascii "c")] ↔
        ¬Lasts openPlatform grantingStub localPlatform (init [anyDevice] ()) c.relaySideConnectionId
          uploadingTunnel) := by
  obtain ⟨w', hw', -⟩ := exists_ok_of_check
    (x := exec (step openPlatform grantingStub localPlatform) (init [anyDevice] ())
      (uploadingTunnel ++ [.onData 1 (ascii "c")])) (p := fun _ => true) (by decide +kernel)
  obtain ⟨w, hw, hcheck⟩ := exists_ok_of_check
    (x := exec (step openPlatform grantingStub localPlatform) (init [anyDevice] ()) uploadingTunnel)
    (p := fun w => ∃ c ∈ w.clientConnectionPool.get 1, c.relaySideConnectionId = 1 ∧
      c.dataProcessor = .onRawData ∧ c.deleteMark = false) (by decide +kernel)
  obtain ⟨c, hc, hk, hraw, hmark⟩ := of_decide_eq_true hcheck
  rw [exec_snoc _ hw] at hw'
  obtain ⟨hannounced, hdata⟩ := discards_iff [anyDevice] () uploadingTunnel w hw
  exact ⟨w, c, w', hw, hc, hk, hw', hannounced, hdata 1 c (ascii "c") w' hc hraw hmark hw'⟩

/-- The relay ends the connection of an unmarked client without a word, and discards what the client
    sends then. -/
theorem discards_counterexample :
    (∃ w, exec (step openPlatform grantingStub localPlatform) (init [anyDevice] ())
        (uploadingTunnel.take 9) = .ok w ∧ ¬Announced openPlatform w 1 (.relayTick 325000)) ∧
      ∃ w c w', exec (step openPlatform grantingStub localPlatform) (init [anyDevice] ())
          uploadingTunnel = .ok w ∧
        w.clientConnectionPool.get 1 = some c ∧ c.dataProcessor = .onRawData ∧ c.deleteMark = false ∧
        step openPlatform grantingStub localPlatform w (.onData 1 (ascii "c")) = .ok w' ∧
        w'.relay.posts = w.relay.posts ++ [.lost 1 (ascii "c")] := by
  refine ⟨?_, ?_⟩
  · obtain ⟨w, hw, hcheck⟩ := exists_ok_of_check
      (x := exec (step openPlatform grantingStub localPlatform) (init [anyDevice] ())
        (uploadingTunnel.take 9))
      (p := fun w => (∃ d ∈ w.relay.localConnectionPool.get 1, d.deleteMark = false) ∧
        ((relayCall openPlatform w (.tick 325000)).1.localConnectionPool.get 1).isNone ∧
        (relayCall openPlatform w (.tick 325000)).2.isEmpty) (by decide +kernel)
    obtain ⟨⟨d, hd, hmark⟩, hgone, hquiet⟩ := of_decide_eq_true hcheck
    refine ⟨w, hw, fun h => ?_⟩
    have hmem := h (.tick 325000) d rfl hd hmark fun d' hd' => by simp [hd'] at hgone
    simp [List.isEmpty_iff.1 hquiet] at hmem
  · obtain ⟨w', hw', hposts'⟩ := exists_ok_of_check
      (x := exec (step openPlatform grantingStub localPlatform) (init [anyDevice] ())
        (uploadingTunnel ++ [.onData 1 (ascii "c")]))
      (p := fun w => w.relay.posts = [.sent 1 (ascii "ab"), .lost 1 (ascii "c")]) (by decide +kernel)
    obtain ⟨w, hw, hcheck⟩ := exists_ok_of_check
      (x := exec (step openPlatform grantingStub localPlatform) (init [anyDevice] ()) uploadingTunnel)
      (p := fun w => (∃ c ∈ w.clientConnectionPool.get 1, c.dataProcessor = .onRawData ∧
        c.deleteMark = false) ∧ w.relay.posts = [.sent 1 (ascii "ab")]) (by decide +kernel)
    obtain ⟨⟨c, hc, hraw, hmark⟩, hposts⟩ := of_decide_eq_true hcheck
    rw [exec_snoc _ hw] at hw'
    refine ⟨w, c, w', hw, hc, hraw, hmark, hw', ?_⟩
    rw [of_decide_eq_true hposts', hposts]
    rfl

end ProxyWithRelay

end ProxyPlatform
