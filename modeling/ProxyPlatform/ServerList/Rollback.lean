import ProxyPlatform.ServerList.Refresh
import ProxyPlatform.ServerList.Server

/-!
# Responses out of order

A response is accepted if its version is not the one the group has: it need not be greater. So
the list of a group is that of the response accepted last (`HoldsLast`), whatever the order in
which the responses were sent.

* `GroupStep`: what a step does to one group;
* `holdsLast_and_neverRollsBack_iff`: the list is also the one with the greatest version,
  if and only if the responses are accepted in the order of their versions.

A datagram that the network delays is enough for a list to roll back, with a server that
gives out its versions as it should.
-/

namespace ProxyPlatform.SmallServerListDownloader

variable (C : StreamCodec) (ndebug : Bool) (s₀ : SmallServerListDownloader)
  (es : List DownloaderEvent)

/-- The last update announced for the group `g`. -/
def announced (s : SmallServerListDownloader) (g : ℕ) : Option ServerListUpdate :=
  (s.updates.filter fun update => update.serverGroup = g).getLast?

/-- As `AcceptedSince`, and no other response is accepted for the group afterwards. -/
def AcceptedLast (g : ℕ) (v : UInt64) (l : List ServerInfo) : Prop :=
  ∃ pre d mid u, es = pre ++ .datagram d :: mid ∧ exec (step C ndebug) s₀ pre = .ok u ∧
    Accepts C u d v l ∧ d.requestId = g ∧ (∀ e ∈ mid, e ≠ .enable g ∧ e ≠ .disable g) ∧
    ∀ mid₁ f mid₂ w v' l', mid = mid₁ ++ .datagram f :: mid₂ →
      exec (step C ndebug) s₀ (pre ++ .datagram d :: mid₁) = .ok w → f.requestId = g →
        ¬Accepts C w f v' l'

/-- The list of a group, and the one announced last for it, is that of the response accepted last
    since the group was enabled. -/
def HoldsLast : Prop :=
  ∀ pre s g, pre <+: es → exec (step C ndebug) s₀ pre = .ok s →
    (s.enabledServerGroupMap g).enabled → (∃ v l, AcceptedSince C ndebug s₀ pre g v l) →
      AcceptedLast C ndebug s₀ pre g (s.enabledServerGroupMap g).versionTimestampMS
        (s.enabledServerGroupMap g).held ∧
      announced s g =
        some ⟨g, (s.enabledServerGroupMap g).held, (s.enabledServerGroupMap g).versionTimestampMS⟩

/-- What is claimed of the events `es`: the list of a group, and the one announced last for it, is
    the one with the greatest version among those accepted since the group was enabled. -/
def NeverRollsBack : Prop :=
  ∀ pre s g v l, pre <+: es → exec (step C ndebug) s₀ pre = .ok s →
    (s.enabledServerGroupMap g).enabled → AcceptedSince C ndebug s₀ pre g v l →
      AcceptedSince C ndebug s₀ pre g (s.enabledServerGroupMap g).versionTimestampMS
        (s.enabledServerGroupMap g).held ∧
      v ≤ (s.enabledServerGroupMap g).versionTimestampMS ∧
      announced s g =
        some ⟨g, (s.enabledServerGroupMap g).held, (s.enabledServerGroupMap g).versionTimestampMS⟩

/-- No response is accepted that is older than one accepted before. -/
def InOrder : Prop :=
  ∀ pre d s v l v' l', pre ++ [.datagram d] <+: es → exec (step C ndebug) s₀ pre = .ok s →
    Accepts C s d v l → AcceptedSince C ndebug s₀ pre d.requestId v' l' → v' ≤ v

variable {C ndebug s₀ es} {s t : SmallServerListDownloader} {e : DownloaderEvent} {g : ℕ}
  {v : UInt64} {l : List ServerInfo}

/-! ## One group -/

variable (C s t e g) in
/-- What a step from `s` to `t` does to the group `g`. -/
inductive GroupStep : Prop
  /-- The group keeps what it has. -/
  | quiet (hswitch : e ≠ .enable g ∧ e ≠ .disable g)
    (hignored : ∀ d v l, e = .datagram d → d.requestId = g → ¬Accepts C s d v l)
    (henabled : (t.enabledServerGroupMap g).enabled = (s.enabledServerGroupMap g).enabled)
    (hversion : (t.enabledServerGroupMap g).versionTimestampMS =
      (s.enabledServerGroupMap g).versionTimestampMS)
    (hheld : (t.enabledServerGroupMap g).held = (s.enabledServerGroupMap g).held)
    (hannounced : announced t g = announced s g)
  /-- The group is enabled or disabled. -/
  | switch (hswitch : e = .enable g ∨ e = .disable g)
  /-- A response is accepted for the group. -/
  | accept {d : ServerListDatagram} {v : UInt64} {l : List ServerInfo} (he : e = .datagram d)
    (hg : d.requestId = g) (haccepts : Accepts C s d v l)
    (hversion : (t.enabledServerGroupMap g).versionTimestampMS = v)
    (hheld : (t.enabledServerGroupMap g).held = l) (hannounced : announced t g = some ⟨g, l, v⟩)

/-- A datagram after which there is no update was not accepted. -/
theorem not_accepts_of_updates {d : ServerListDatagram} (hs : Consistent s)
    (h : s.onUdpPacket C d = .ok t) (hupdates : t.updates = s.updates) : ¬Accepts C s d v l := by
  intro ha
  obtain ⟨a, b, -, ht⟩ := onUdpPacket_of_accepts hs ha
  rw [h, Except.ok.injEq] at ht
  subst ht
  simp at hupdates

theorem groupStep_of_step (hs : Consistent s) (h : step C ndebug s e = .ok t) (g : ℕ) :
    GroupStep C s t e g := by
  rcases hs.move h with @⟨k, hpos, hlt, hk⟩ | @⟨k, hk⟩ | @⟨nowMS, k, l, hnodes, hdue, last, new⟩ |
    @⟨nowMS, hdue, last, new⟩ | ⟨d, a⟩ | @⟨d, v, l, ha, a, b, hb⟩
  · by_cases hkg : g = k
    · exact .switch (.inl (hkg ▸ rfl))
    · refine .quiet ⟨by simpa using Ne.symm hkg, by simp⟩ (fun d v l he => (by cases he)) ?_ ?_ ?_ rfl <;>
        simp [Function.update_of_ne hkg]
  · by_cases hkg : g = k
    · exact .switch (.inr (hkg ▸ rfl))
    · refine .quiet ⟨by simp, by simpa using Ne.symm hkg⟩ (fun d v l he => (by cases he)) ?_ ?_ ?_ rfl <;>
        simp [Function.update_of_ne hkg]
  · refine .quiet ⟨by simp, by simp⟩ (fun d v l he => (by cases he)) ?_ ?_ ?_ rfl <;>
      by_cases hkg : g = k <;> simp [hkg, Function.update_of_ne, EnabledServerGroupNode.held]
  · exact .quiet ⟨by simp, by simp⟩ (fun d v l he => (by cases he)) rfl rfl rfl rfl
  · refine .quiet ⟨by simp, by simp⟩ (fun d' v l he hg => ?_) rfl rfl rfl rfl
    cases he
    exact not_accepts_of_updates hs h rfl
  · by_cases hkg : g = d.requestId
    · refine .accept rfl hkg.symm ha ?_ ?_ ?_
      · simp [hkg]
      · simp [hkg, EnabledServerGroupNode.held, hb]
      · simp [announced, hkg]
    · refine .quiet ⟨by simp, by simp⟩ (fun d' v l he hg => ?_) ?_ ?_ ?_ ?_
      · cases he
        exact absurd hg.symm hkg
      · simp [Function.update_of_ne hkg]
      · simp [Function.update_of_ne hkg]
      · simp [Function.update_of_ne hkg]
      · simp [announced, Ne.symm hkg]

/-- What is accepted in the events `es` and one more is accepted in `es`, or by the last. -/
theorem AcceptedSince.of_snoc (h : AcceptedSince C ndebug s₀ (es ++ [e]) g v l)
    (hes : exec (step C ndebug) s₀ es = .ok s) :
    AcceptedSince C ndebug s₀ es g v l ∧ e ≠ .enable g ∧ e ≠ .disable g ∨
      ∃ d, e = .datagram d ∧ d.requestId = g ∧ Accepts C s d v l := by
  obtain ⟨pre, d, mid, u, heq, hu, ha, hd, hmid⟩ := h
  rcases List.eq_nil_or_concat mid with rfl | ⟨mid, f, rfl⟩
  · obtain ⟨rfl, he⟩ := List.append_inj' heq rfl
    rw [List.cons.injEq] at he
    obtain rfl : u = s := Except.ok.inj (hu.symm.trans hes)
    exact .inr ⟨d, he.1, hd, ha⟩
  · rw [List.concat_eq_append, ← List.cons_append, ← List.append_assoc] at heq
    obtain ⟨rfl, hf⟩ := List.append_inj' heq rfl
    rw [List.cons.injEq] at hf
    obtain rfl := hf.1
    rw [List.concat_eq_append] at hmid
    exact .inl ⟨⟨pre, d, mid, u, rfl, hu, ha, hd,
      fun e he => hmid e (List.mem_append_left _ he)⟩, hmid e (by simp)⟩

theorem AcceptedLast.of_accepts {d : ServerListDatagram} (hs : exec (step C ndebug) s₀ es = .ok s)
    (h : Accepts C s d v l) :
    AcceptedLast C ndebug s₀ (es ++ [.datagram d]) d.requestId v l :=
  ⟨es, d, [], s, rfl, hs, h, rfl, fun _ he => absurd he List.not_mem_nil,
    fun _ _ _ _ _ _ hmid => absurd hmid (by simp)⟩

theorem AcceptedLast.snoc (h : AcceptedLast C ndebug s₀ es g v l)
    (hs : exec (step C ndebug) s₀ es = .ok s) (hswitch : e ≠ .enable g ∧ e ≠ .disable g)
    (hignored : ∀ d v l, e = .datagram d → d.requestId = g → ¬Accepts C s d v l) :
    AcceptedLast C ndebug s₀ (es ++ [e]) g v l := by
  obtain ⟨pre, d, mid, u, rfl, hu, ha, hd, hmid, hlast⟩ := h
  refine ⟨pre, d, mid ++ [e], u, by rw [List.append_assoc, List.cons_append], hu, ha, hd, ?_, ?_⟩
  · intro f hf
    rcases List.mem_append.1 hf with hf | hf
    · exact hmid f hf
    · exact List.mem_singleton.1 hf ▸ hswitch
  · intro mid₁ f mid₂ w v' l' heq hw hf
    -- The datagram `f` is the last event, or it comes before.
    rcases List.eq_nil_or_concat mid₂ with rfl | ⟨mid₂, f', rfl⟩
    · obtain ⟨rfl, he⟩ := List.append_inj' heq rfl
      rw [List.cons.injEq] at he
      obtain rfl : w = s := Except.ok.inj (hw.symm.trans hs)
      exact hignored f v' l' he.1 hf
    · rw [List.concat_eq_append, ← List.cons_append, ← List.append_assoc] at heq
      obtain ⟨rfl, -⟩ := List.append_inj' heq rfl
      exact hlast mid₁ f mid₂ w v' l' rfl hw hf

/-! ## Runs -/

variable (C ndebug s₀ es s) in
/-- What holds of a run so far: the groups are consistent, and each that accepted a response since it
    was enabled holds the last one. -/
structure Latest : Prop where
  exec : ProxyPlatform.exec (step C ndebug) s₀ es = .ok s
  consistent : Consistent s
  latest : ∀ g, (s.enabledServerGroupMap g).enabled → (∃ v l, AcceptedSince C ndebug s₀ es g v l) →
    AcceptedLast C ndebug s₀ es g (s.enabledServerGroupMap g).versionTimestampMS
      (s.enabledServerGroupMap g).held ∧
    announced s g =
      some ⟨g, (s.enabledServerGroupMap g).held, (s.enabledServerGroupMap g).versionTimestampMS⟩

theorem Latest.step (hs : Latest C ndebug s₀ es s)
    (h : SmallServerListDownloader.step C ndebug s e = .ok t) :
    Latest C ndebug s₀ (es ++ [e]) t := by
  refine ⟨(exec_snoc e hs.exec).trans h, hs.consistent.step h, ?_⟩
  rintro g henabled ⟨v, l, hsince⟩
  rcases groupStep_of_step hs.consistent h g with ⟨hswitch, hignored, hen, hversion, hheld, hann⟩ |
    hswitch | ⟨rfl, rfl, haccepts, hversion, hheld, hann⟩
  · rw [hversion, hheld, hann]
    rcases hsince.of_snoc hs.exec with ⟨hbefore, -⟩ | ⟨d, he, hd, ha⟩
    · obtain ⟨hlast, hup⟩ := hs.latest g (hen ▸ henabled) ⟨v, l, hbefore⟩
      exact ⟨hlast.snoc hs.exec hswitch hignored, hup⟩
    · exact absurd ha (hignored d v l he hd)
  · rcases hsince.of_snoc hs.exec with ⟨-, henable, hdisable⟩ | ⟨d, rfl, -, -⟩
    · exact absurd hswitch (not_or.2 ⟨henable, hdisable⟩)
    · simp at hswitch
  · rw [hversion, hheld]
    exact ⟨.of_accepts hs.exec haccepts, hann⟩

theorem latest_of_exec {master : NetAddress}
    (h : exec (step C ndebug) (init master) es = .ok s) : Latest C ndebug (init master) es s := by
  refine exec_history (I := fun es s => Latest C ndebug (init master) es s)
    (fun es s e t hs ht => hs.step ht) ⟨rfl, consistent_init master, ?_⟩ h
  exact fun g hg => (by cases hg)

theorem AcceptedLast.since (h : AcceptedLast C ndebug s₀ es g v l) :
    AcceptedSince C ndebug s₀ es g v l := by
  obtain ⟨pre, d, mid, u, heq, hu, ha, hd, hmid, -⟩ := h
  exact ⟨pre, d, mid, u, heq, hu, ha, hd, hmid⟩

/-- As long as responses are accepted in order, what was accepted is no newer than what is held. -/
theorem le_version_of_inOrder (horder : InOrder C ndebug s₀ es) (hs₀ : Consistent s₀)
    (hnone : ∀ g, (s₀.enabledServerGroupMap g).enabled = false)
    (h : exec (step C ndebug) s₀ es = .ok s) (hg : (s.enabledServerGroupMap g).enabled)
    (hsince : AcceptedSince C ndebug s₀ es g v l) :
    v ≤ (s.enabledServerGroupMap g).versionTimestampMS := by
  induction es using List.reverseRecOn generalizing s v l with
  | nil =>
    cases h
    rw [hnone g] at hg
    cases hg
  | append_singleton es e ih =>
    obtain ⟨u, hu, hes⟩ := exec_append_eq_ok.1 h
    obtain ⟨t, ht, hes⟩ := exec_cons_eq_ok.1 hes
    cases hes
    have hu' : Consistent u := exec_invariant (I := Consistent) (fun s e t hs ht => hs.step ht) hs₀ hu
    have horder' : InOrder C ndebug s₀ es := fun pre d s v l v' l' hpre =>
      horder pre d s v l v' l' (hpre.trans (List.prefix_append _ _))
    rcases groupStep_of_step hu' ht g with ⟨hswitch, hignored, hen, hversion, -, -⟩ | hswitch |
      ⟨rfl, rfl, haccepts, hversion, -, -⟩
    · rw [hversion]
      rcases hsince.of_snoc hu with ⟨hbefore, -⟩ | ⟨d, he, hd, ha⟩
      · exact ih horder' hu (hen ▸ hg) hbefore
      · exact absurd ha (hignored d v l he hd)
    · rcases hsince.of_snoc hu with ⟨-, henable, hdisable⟩ | ⟨d, rfl, -, -⟩
      · exact absurd hswitch (not_or.2 ⟨henable, hdisable⟩)
      · simp at hswitch
    · rw [hversion]
      rcases hsince.of_snoc hu with ⟨hbefore, -⟩ | ⟨d, he, -, ha⟩
      · exact horder es _ u _ _ v l List.prefix_rfl hu haccepts hbefore
      · cases he
        have heq := ha.decode.symm.trans haccepts.decode
        rw [Option.some.injEq, Prod.mk.injEq] at heq
        exact heq.1 ▸ UInt64.le_refl _

/-- In every run, a group holds the list of the response accepted last; and it never rolls back if and
    only if the responses are accepted in order. -/
theorem holdsLast_and_neverRollsBack_iff (C : StreamCodec) (ndebug : Bool) (master : NetAddress)
    (es : List DownloaderEvent) :
    HoldsLast C ndebug (init master) es ∧
      (NeverRollsBack C ndebug (init master) es ↔ InOrder C ndebug (init master) es) := by
  refine ⟨fun pre s g hpre hs hg hsince => (latest_of_exec hs).latest g hg hsince, ?_, ?_⟩
  · intro hnever pre d s v l v' l' hpre hs ha hsince
    -- The response is held after it is accepted, so that no older one can have been.
    have hcons := (latest_of_exec hs).consistent
    obtain ⟨a, b, hb, ht⟩ := onUdpPacket_of_accepts hcons ha
    have ht' : step C ndebug s (.datagram d) = .ok _ := ht
    have hexec := (exec_snoc (.datagram d) hs).trans ht'
    have hle := (hnever _ _ d.requestId v' l' hpre hexec (by simp [ha.enabled])
      (hsince.snoc ⟨by simp, by simp⟩)).2.1
    simpa using hle
  · intro horder pre s g v l hpre hs hg hsince
    obtain ⟨hlast, hann⟩ := (latest_of_exec hs).latest g hg ⟨v, l, hsince⟩
    have horder' : InOrder C ndebug (init master) pre := fun pre' d s v l v' l' hpre' =>
      horder pre' d s v l v' l' (hpre'.trans hpre)
    exact ⟨hlast.since, le_version_of_inOrder horder' (consistent_init master) (fun _ => rfl) hs hg
      hsince, hann⟩

/-- The packets the server has sent for the group 2: its list without a server, and with one. -/
def sentForGroup2 (timestampMS : UInt64) (serverList : List ServerInfo) : ServerListPacket where
  commandId := cmdDownloadSmallServerListResp
  requestId := 2
  payload := PPGetSmallServerListResp.serialize plainCodec timestampMS serverList

/-- A server sends two responses; the first is delayed, and replaces the second. -/
theorem neverRollsBack_counterexample :
    (∃ t, exec (SmallServerListServer.step plainCodec (fun id => (2, id)) List.head?)
        SmallServerListServer.init [.downloadList cmdDownloadSmallServerList 2 [2] 50,
          .newServerId 7 {}, .downloadList cmdDownloadSmallServerList 2 [2] 60] = .ok t ∧
      t.sent = [sentForGroup2 50 [], sentForGroup2 60 [⟨7, {}⟩]]) ∧
    ¬NeverRollsBack plainCodec true (init {}) [.enable 2, .datagram ⟨sentForGroup2 60 [⟨7, {}⟩], []⟩,
      .datagram ⟨sentForGroup2 50 [], []⟩] := by
  constructor
  · obtain ⟨t, ht, hsent⟩ := exists_ok_of_check
      (x := exec (SmallServerListServer.step plainCodec (fun id => (2, id)) List.head?)
        SmallServerListServer.init [.downloadList cmdDownloadSmallServerList 2 [2] 50,
          .newServerId 7 {}, .downloadList cmdDownloadSmallServerList 2 [2] 60])
      (p := fun t => t.sent = [sentForGroup2 50 [], sentForGroup2 60 [⟨7, {}⟩]]) (by decide +kernel)
    exact ⟨t, ht, of_decide_eq_true hsent⟩
  · intro hnever
    obtain ⟨u, hu, hcheck⟩ := exists_ok_of_check
      (x := exec (step plainCodec true) (init {}) [.enable 2])
      (p := fun u => (u.enabledServerGroupMap 2).enabled &&
        (u.enabledServerGroupMap 2).versionTimestampMS != 60) (by decide +kernel)
    obtain ⟨s, hs, hcheck'⟩ := exists_ok_of_check
      (x := exec (step plainCodec true) (init {}) [.enable 2,
        .datagram ⟨sentForGroup2 60 [⟨7, {}⟩], []⟩, .datagram ⟨sentForGroup2 50 [], []⟩])
      (p := fun s => (s.enabledServerGroupMap 2).enabled &&
        (s.enabledServerGroupMap 2).versionTimestampMS == 50) (by decide +kernel)
    rw [Bool.and_eq_true] at hcheck hcheck'
    have haccepts : Accepts plainCodec u ⟨sentForGroup2 60 [⟨7, {}⟩], []⟩ 60 [⟨7, {}⟩] :=
      ⟨rfl, by decide, by decide +kernel, hcheck.1, bne_iff_ne.1 hcheck.2⟩
    have hle := (hnever _ s 2 60 [⟨7, {}⟩] List.prefix_rfl hs hcheck'.1
      ((AcceptedSince.of_accepts hu haccepts).snoc (by simp))).2.1
    rw [beq_iff_eq.1 hcheck'.2] at hle
    exact absurd hle (by decide)

end ProxyPlatform.SmallServerListDownloader
