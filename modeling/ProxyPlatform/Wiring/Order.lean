import ProxyPlatform.Proxy.Promised
import ProxyPlatform.Wiring.Downloads

/-!
# What a client of a tunnel gets first

What is posted to a client of a tunnel is to begin with the reply that the tunnel is there. The
reply is posted by a tick, the data of the target when it comes, so that the order is that of the
two calls of the proxy.

* `RepliesFirst`: in what was posted to the clients of the tunnels, the reply comes before the data;
* `TakenUp`: the assertion of `PostData`, that the client does not wait for its connection;
* `repliesFirst_iff`: each of them holds along a run exactly when the connections, of the tunnels or
  of all clients, are settled when their data is passed on.
-/

namespace ProxyPlatform

namespace ProxyWithRelay

open ProxyAccessService RelayLocalBindingService

variable {α : Type*} {R : RelayPlatform} {A : AuthServiceStub α} {P : Platform}
  {s w w' : ProxyWithRelay α} {e : WiredEvent α} {pre es : List (WiredEvent α)} {i k : ℕ}
  {c c' : ClientConnection} {calls : List ProxyCall}

/-- In what was posted to the clients of the tunnels, the reply comes before the first byte of the
    target. -/
def RepliesFirst (w : ProxyWithRelay α) : Prop :=
  ∀ i c, w.clientConnectionPool.get i = some c → c.type = .s5Tcp ∨ c.type = .httpRaw →
    ∀ calls, calls <+: w.calls → handed i calls ≠ [] →
      ∃ reply, c.type.Establishes reply ∧ ProxyCall.post i .established reply ∈ calls

variable (R) in
/-- The clients that data is passed on to do not wait for their relay connections. -/
def TakenUp (w : ProxyWithRelay α) (e : WiredEvent α) : Prop :=
  ∀ e' i data c, e.toCall = .relay e' → ProxyEvent.postData i data ∈ (relayCall R w e').2 →
    w.clientConnectionPool.get i = some c → c.deleteMark = false →
    c.futures .acquireDeviceConnection = none

/-- Data of `k` is passed on to a client of a tunnel. -/
def PassesToTunnel (w : ProxyWithRelay α) (k : ℕ) : Prop :=
  ∃ d c, w.relay.localConnectionPool.get k = some d ∧ d.isConnected = true ∧ d.deleteMark = false ∧
    w.clientConnectionPool.get d.proxySideConnectionId = some c ∧ c.deleteMark = false ∧
    (c.type = .s5Tcp ∨ c.type = .httpRaw)

/-! ## Steps -/

theorem step_stays (h : Bound w) (hw : step R A P w e = .ok w') : Stays w w' :=
  (proxy_invariant (I := fun t => Sound t ∧ Stays w t)
    (fun _ _ _ hs ht => ⟨ht.sound hs.1, hs.2.trans (ht.stays hs.1)⟩)
    (fun _ _ hs => ⟨hs.1.congr (fun _ => rfl) rfl fun _ => rfl, hs.2.trans (.of_pool rfl)⟩) h
    ⟨h.sound, .of_pool rfl⟩ hw).2

theorem step_calls (h : Bound w) (hw : step R A P w e = .ok w') : w.calls <+: w'.calls :=
  proxy_invariant (I := fun t => w.calls <+: t.calls) (fun _ _ _ hs ht => hs.trans ht.calls_grow)
    (fun _ _ hs => hs) h List.prefix_rfl hw

theorem step_promised (h : Bound w) (hp : Promised w) (hw : step R A P w e = .ok w') : Promised w' := by
  rw [ProxyWithRelay.step] at hw
  split at hw
  · next e' hcall =>
    have hturns := step_turns h.sound hw
    by_cases htick : ∃ nowMS, e' = .tick nowMS
    · -- A tick takes results up: those of the relay are ids.
      obtain ⟨nowMS, rfl⟩ := htick
      refine (hturns.invariant (I := fun t => Promised t ∧
        ∀ κ, (t.futureManager κ).Results (κ.Supplied DeviceReference.IsLocal)) (fun s l t hl hs hi hturn => ?_)
        h.sound ⟨hp, h.supplied.results⟩).1
      refine ⟨hturn.promised hs hi.1 fun _ f future k hf => hi.2 _ f future hf k,
        hturn.results wiredServices_supplies ?_ hi.2⟩
      rintro rfl
      simp [ProxyEvent.Allows] at hl
    · refine hturns.invariant (fun s l t hl hs hi hturn => hturn.promised hs hi ?_) h.sound hp
      rintro rfl
      cases e' with
      | tick nowMS => exact absurd ⟨nowMS, rfl⟩ htick
      | _ => simp [ProxyEvent.Allows] at hl
  · next e' hcall =>
    have hs : Sound { w with services := ((relayCall R w e').1, w.services.2) } :=
      h.sound.congr (fun _ => rfl) rfl fun _ => rfl
    refine callbacks_invariant (I := Promised) (fun s l t _ hresult hs hi hmotion => ?_) hs
      (relayCall_callbacks h.tidy e') hw ⟨hp.told, hp.fresh⟩
    exact hmotion.turn.promised hs hi fun hl => absurd hl (hresult _)
  · cases hw
    exact ⟨hp.told, hp.fresh⟩

theorem handed_prefix_le (h : calls <+: w.calls) (hnil : handed i w.calls = []) : handed i calls = [] := by
  obtain ⟨l, hl⟩ := h
  rw [← hl, handed_append, List.append_eq_nil_iff] at hnil
  exact hnil.1

/-! ## Histories -/

/-- What the clients of the tunnels got is in order. -/
structure Ordered (w : ProxyWithRelay α) : Prop where
  first : RepliesFirst w
  determined : ∀ i c, w.clientConnectionPool.get i = some c → handed i w.calls ≠ [] →
    c.type ≠ .undetermined ∧ c.type ≠ .s5Challenge
  fresh : ∀ i, w.clientConnectionPool.lastId < i → handed i w.calls = []

theorem ordered_init (devices : List RelayLocalDevice) (a : α) : Ordered (init devices a) where
  first _ _ h := by cases h
  determined _ _ h := by cases h
  fresh _ _ := rfl

/-- It is known what a client is for when its relay connection is open. -/
theorem Joint.determined (h : Joint w) (hlink : w.relay.linksOf.link k = some (i, .opened))
    (hc : w.clientConnectionPool.get i = some c) : c.type ≠ .undetermined ∧ c.type ≠ .s5Challenge := by
  obtain ⟨g, hg⟩ := h.sound.stage i c hc
  have hstage : g = .tunnel ∨ g.awaits = some .acquireDeviceConnection := by
    refine (h.knows_or_waits hlink hc).imp (fun hk => ?_) fun ⟨f, hf, _⟩ => hg.awaits_of_futures hf
    -- An open connection has an id, and a client that is not at the tunnel knows none.
    by_contra hne
    exact (w.relay.linksOf.link_le k _ hlink).1.ne' (hk.symm.trans (hg.relaySideConnectionId hne))
  have hshape := hg.shape
  refine ⟨fun htype => ?_, fun htype => ?_⟩
  all_goals cases g <;> simp [Stage.awaits, Stage.Shape, htype] at hstage hshape

theorem Ordered.step (h : Joint w) (ho : Ordered w) (hw : ProxyWithRelay.step R A P w e = .ok w')
    (hsettled : ∀ k data c d, e = .relayOnData k data → data ≠ [] →
      w.relay.localConnectionPool.get k = some d → d.isConnected = true → d.deleteMark = false →
      w.clientConnectionPool.get d.proxySideConnectionId = some c → c.deleteMark = false →
      c.type = .s5Tcp ∨ c.type = .httpRaw → Answered w c) : Ordered w' := by
  have hstays := step_stays h.toBound hw
  have hcalls := step_calls h.toBound hw
  -- Either nothing is handed to the client, or data that was passed on.
  have hgot (i : ℕ) : handed i w'.calls = handed i w.calls ∨ ∃ k data d c, e = .relayOnData k data ∧
      data ≠ [] ∧ w.relay.localConnectionPool.get k = some d ∧ d.isConnected = true ∧ d.deleteMark = false ∧
      d.proxySideConnectionId = i ∧ w.clientConnectionPool.get i = some c ∧ c.deleteMark = false := by
    rcases handed_step h hw with ⟨hsame, -⟩ | ⟨k, data, d, c, rfl, hd, hopen, hc, hmark, hgot⟩
    · exact .inl (hsame i)
    · by_cases hi : i = d.proxySideConnectionId ∧ data ≠ []
      · exact .inr ⟨k, data, d, c, rfl, hi.2, hd, hopen.1, hopen.2, hi.1.symm, hi.1 ▸ hc, hmark⟩
      · left
        rw [hgot]
        split
        · next hid => rw [not_not.1 fun hne => hi ⟨hid, hne⟩, List.append_nil]
        · exact List.append_nil _
  have hnone (i : ℕ) (hi : w.clientConnectionPool.lastId < i) : handed i w'.calls = [] := by
    rcases hgot i with hsame | ⟨_, _, _, c, _, _, _, _, _, _, hc, _⟩
    · rw [hsame, ho.fresh i hi]
    · exact absurd (Storage.le_lastId_of_get hc) (Nat.not_le.2 hi)
  have hdetermined (i : ℕ) (c : ClientConnection) (hc : w.clientConnectionPool.get i = some c)
      (hi : handed i w'.calls ≠ []) : c.type ≠ .undetermined ∧ c.type ≠ .s5Challenge := by
    rcases hgot i with hsame | ⟨k, data, d, c₁, _, _, hd, hconnected, hdmark, hid, hc₁, _⟩
    · exact ho.determined i c hc (hsame ▸ hi)
    · exact h.determined ((link_opened_iff h.reported hd).2 ⟨hid, hdmark, hconnected⟩) hc
  refine ⟨fun i c' hc' htype calls hle hne => ?_, fun i c' hc' hne => ?_, fun i hi => ?_⟩
  · have hne' : handed i w'.calls ≠ [] := fun hnil => hne (handed_prefix_le hle hnil)
    obtain ⟨c, hc, hsame⟩ := hstays.client i c' (Nat.not_lt.1 fun hi => hne' (hnone i hi)) hc'
    obtain ⟨hundetermined, hchallenge⟩ := hdetermined i c hc hne'
    rw [hsame.type hundetermined hchallenge] at htype ⊢
    -- The calls up to there are from before this step, or reach into it.
    rcases List.prefix_or_prefix_of_prefix hle hcalls with hbefore | hafter
    · exact ho.first i c hc htype calls hbefore hne
    -- What was handed over before had its reply before; otherwise this data is the first.
    by_cases hold : handed i w.calls = []
    · rcases hgot i with heq | ⟨k, data, d, c₁, rfl, hdata, hd, hconnected, hdmark, rfl, hc₁, hmark⟩
      · exact absurd (heq.trans hold) hne'
      · cases hc.symm.trans hc₁
        obtain ⟨reply, hreply, hmem⟩ :=
          (hsettled k data c d rfl hdata hd hconnected hdmark hc hmark htype).2 htype
        rw [h.sound.connectionId _ c hc] at hmem
        exact ⟨reply, hreply, hafter.subset hmem⟩
    · obtain ⟨reply, hreply, hmem⟩ := ho.first i c hc htype w.calls List.prefix_rfl hold
      exact ⟨reply, hreply, hafter.subset hmem⟩
  · obtain ⟨c, hc, hsame⟩ := hstays.client i c' (Nat.not_lt.1 fun hi => hne (hnone i hi)) hc'
    have hd := hdetermined i c hc hne
    rw [hsame.type hd.1 hd.2]
    exact hd
  · exact hnone i (hstays.lastId.trans_lt hi)

/-- Data of a settled connection finds its client answered. -/
theorem History.answered (h : History R A P s pre w) {d : RelayLocalDeviceConnection}
    (hd : w.relay.localConnectionPool.get k = some d) (hconnected : d.isConnected = true)
    (hdmark : d.deleteMark = false) (hc : w.clientConnectionPool.get d.proxySideConnectionId = some c) :
    Answered w c ↔ Settled R A P s k pre :=
  h.answered_iff ((link_opened_iff h.joint.reported hd).2 ⟨rfl, hdmark, hconnected⟩) hc

/-- Data that is passed on to an unmarked client is posted to it. -/
theorem relayOnData_posts {d : RelayLocalDeviceConnection} (h : Joint w) (data : Bytes)
    (hd : w.relay.localConnectionPool.get k = some d) (hopen : d.isConnected = true ∧ d.deleteMark = false)
    (hc : w.clientConnectionPool.get d.proxySideConnectionId = some c) (hmark : c.deleteMark = false) :
    ∃ w' c', ProxyWithRelay.step R A P w (.relayOnData k data) = .ok w' ∧
      w'.clientConnectionPool.get d.proxySideConnectionId = some c' ∧ c'.type = c.type ∧
      w'.calls = w.calls ++ [.post d.proxySideConnectionId .target data] := by
  rcases relayCall_onData (R := R) w k data with ⟨d', hd', -, hes⟩ | ⟨hclosed, -⟩
  · cases hd.symm.trans hd'
    have hs : Sound { w with services := ((relayCall R w (.onData k data)).1, w.services.2) } :=
      h.sound.congr (fun _ => rfl) rfl fun _ => rfl
    obtain ⟨w', c', hw', hrest⟩ := step_postData (S := wiredServices R A) (P := P) hs data hc hmark
    refine ⟨w', c', ?_, hrest⟩
    change relayStep R A P w (.onData k data) = .ok w'
    rw [relayStep, hes, exec_cons_of_ok [] hw', exec_nil]
  · exact absurd hopen (hclosed d hd)

/-- What was promised is there along a run. -/
theorem promised_of_exec {devices : List RelayLocalDevice} {a : α}
    (h : ProxyPlatform.exec (step R A P) (init devices a) es = .ok w) : Promised w :=
  (exec_invariant (I := fun w => Bound w ∧ Promised w)
    (fun _ _ _ hs ht => ⟨hs.1.step ht, step_promised hs.1 hs.2 ht⟩)
    ⟨bound_init devices a, promised_init _⟩ h).2

/-- In a run, what is posted to the clients of tunnels begins with the reply exactly when the proxy
    ticked, since the relay connection was connected, before data of the target is passed on to one;
    and the assertion holds exactly when it did so before data is passed on to any client. -/
theorem repliesFirst_iff (devices : List RelayLocalDevice) (a : α) (es : List (WiredEvent α)) :
    ((∀ pre w, pre <+: es → ProxyPlatform.exec (step R A P) (init devices a) pre = .ok w →
        RepliesFirst w) ↔
      ∀ pre k data w, pre ++ [.relayOnData k data] <+: es →
        ProxyPlatform.exec (step R A P) (init devices a) pre = .ok w → data ≠ [] → PassesToTunnel w k →
        Settled R A P (init devices a) k pre) ∧
    (Along (step R A P) (TakenUp R) (init devices a) es ↔
      ∀ pre k data w, pre ++ [.relayOnData k data] <+: es →
        ProxyPlatform.exec (step R A P) (init devices a) pre = .ok w → Passes w k →
        Settled R A P (init devices a) k pre) := by
  have hhistory {pre : List (WiredEvent α)} {w : ProxyWithRelay α}
      (hw : ProxyPlatform.exec (step R A P) (init devices a) pre = .ok w) :
      History R A P (init devices a) pre w :=
    exec_history (fun _ _ _ _ h ht => h.step ht) (.init devices a) hw
  refine ⟨⟨fun hall pre k data w hpre hw hdata hpasses => ?_, fun hall pre w hpre hw => ?_⟩,
    along_iff.trans ⟨fun hall pre k data w hpre hw hpasses => ?_,
      fun hall pre e w hpre hw e' i data c hcall hmem hc hmark => ?_⟩⟩
  · have h := hhistory hw
    obtain ⟨d, c, hd, hconnected, hdmark, hc, hmark, htype⟩ := hpasses
    -- The reply is in what was posted up to the data, and so it was posted before.
    obtain ⟨w', c', hw', hc', htype', hcalls⟩ := relayOnData_posts (R := R) (A := A) (P := P) h.joint data hd
      ⟨hconnected, hdmark⟩ hc hmark
    obtain ⟨reply, -, hmem⟩ := hall (pre ++ [.relayOnData k data]) w' hpre ((exec_snoc _ hw).trans hw') _ c' hc'
      (htype' ▸ htype) w'.calls List.prefix_rfl (by simp [hcalls, handed, hdata])
    rw [hcalls, List.mem_append, List.mem_singleton] at hmem
    have hrelay := (promised_of_exec hw).told _ reply c (hmem.resolve_right (by simp)) hc
    exact (h.answered hd hconnected hdmark hc).1 (h.joint.answered hc hrelay)
  · suffices horder : pre <+: es → Ordered w from (horder hpre).first
    refine (exec_history (I := fun pre w => pre <+: es →
      ProxyPlatform.exec (step R A P) (init devices a) pre = .ok w ∧ Ordered w) (fun pre v e t hv ht hpre => ?_)
      (fun _ => ⟨rfl, ordered_init devices a⟩) hw · |>.2)
    obtain ⟨hexec, hordered⟩ := hv ((List.prefix_append _ _).trans hpre)
    have h := hhistory hexec
    refine ⟨(exec_snoc e hexec).trans ht, hordered.step h.joint ht ?_⟩
    rintro k data c d rfl hdata hd hconnected hdmark hc hmark htype
    exact (h.answered hd hconnected hdmark hc).2
      (hall pre k data v hpre hexec hdata ⟨d, c, hd, hconnected, hdmark, hc, hmark, htype⟩)
  · have h := hhistory hw
    obtain ⟨d, c, hd, hconnected, hdmark, hc, hmark⟩ := hpasses
    have hmem : ProxyEvent.postData d.proxySideConnectionId data ∈ (relayCall R w (.onData k data)).2 :=
      (postData_iff (e := .relayOnData k data) h.joint.tidy rfl).2 ⟨k, d, rfl, hd, hconnected, hdmark, rfl⟩
    have hlink := (link_opened_iff h.joint.reported hd).2 ⟨rfl, hdmark, hconnected⟩
    have hnone := hall pre _ w hpre hw _ _ data c rfl hmem hc hmark
    refine (h.answered_iff hlink hc).1 ?_
    rcases h.joint.knows_or_waits hlink hc with hk | ⟨f, hf, -⟩
    · exact h.joint.answered hc (hk ▸ (w.relay.linksOf.link_le k _ hlink).1.ne')
    · rw [hnone] at hf
      cases hf
  · have h := hhistory hw
    obtain ⟨k, d, rfl, hd, hconnected, hdmark, rfl⟩ := (postData_iff h.joint.tidy hcall).1 hmem
    exact ((h.answered hd hconnected hdmark hc).2
      (hall pre k data w hpre hw ⟨d, c, hd, hconnected, hdmark, hc, hmark⟩)).1

/-- A target that speaks first: its connection and its data come between two ticks of the proxy. -/
def hastyTarget : List (WiredEvent Unit) :=
  [.tick 200000, .relayTick 200000, .onNewConnection localAddress localAddress true,
    .onData 1 [5, 1, 0], .tick 200001, .onData 1 [5, 1, 0, 1, 127, 0, 0, 1, 0, 80],
    .relayOnConnected 1, .relayOnData 1 (ascii "xy"), .tick 200002]

/-- The data of the target is posted before the reply, and the assertion fails on it. -/
theorem repliesFirst_counterexample :
    (∃ w, ProxyPlatform.exec (step openPlatform grantingStub localPlatform) (init [anyDevice] ())
        hastyTarget = .ok w ∧ ¬RepliesFirst w) ∧
      ¬Along (step openPlatform grantingStub localPlatform) (TakenUp openPlatform) (init [anyDevice] ())
        hastyTarget := by
  refine ⟨?_, fun h => ?_⟩
  · obtain ⟨w, hw, hcheck⟩ := exists_ok_of_check
      (x := ProxyPlatform.exec (step openPlatform grantingStub localPlatform) (init [anyDevice] ())
        hastyTarget)
      (p := fun w => (∃ c ∈ w.clientConnectionPool.get 1, c.type = .s5Tcp) ∧
        handed 1 (w.calls.take 4) ≠ [] ∧
        ProxyCall.post 1 .established s5ConnectionEstablished ∉ w.calls.take 4) (by decide +kernel)
    obtain ⟨⟨c, hc, htype⟩, hhanded, hnone⟩ := of_decide_eq_true hcheck
    refine ⟨w, hw, fun hfirst => ?_⟩
    obtain ⟨reply, hreply, hmem⟩ := hfirst 1 c hc (.inl htype) _ (List.take_prefix 4 _) hhanded
    rw [htype] at hreply
    rw [show reply = s5ConnectionEstablished from hreply] at hmem
    exact hnone hmem
  · replace h : Along (step _ _ _) _ _ (hastyTarget.take 7 ++ [.relayOnData 1 (ascii "xy"), .tick 200002]) := h
    obtain ⟨w, hw, hcheck⟩ := exists_ok_of_check
      (x := ProxyPlatform.exec (step openPlatform grantingStub localPlatform) (init [anyDevice] ())
        (hastyTarget.take 7))
      (p := fun w => (∃ c ∈ w.clientConnectionPool.get 1, c.deleteMark = false ∧
          c.futures .acquireDeviceConnection ≠ none) ∧
        ∃ d ∈ w.relay.localConnectionPool.get 1, d.isConnected = true ∧ d.deleteMark = false ∧
          d.proxySideConnectionId = 1) (by decide +kernel)
    obtain ⟨⟨c, hc, hmark, hwaits⟩, d, hd, hconnected, hdmark, hid⟩ := of_decide_eq_true hcheck
    have hlast : TakenUp openPlatform w (.relayOnData 1 (ascii "xy")) := (Along.of_append h hw).1
    have hmem := (postData_iff (R := openPlatform) (e := .relayOnData 1 (ascii "xy")) (joint_of_exec hw).tidy
      rfl).2 ⟨1, d, rfl, hd, hconnected, hdmark, hid⟩
    exact hwaits (hlast _ 1 _ c rfl hmem hc hmark)

end ProxyWithRelay

end ProxyPlatform
