import ProxyPlatform.ServerList.Downloader
import Mathlib.Data.List.Count

/-!
# Enabling a group again

A group is refreshed as long as the list of the enabled groups is ordered by the time of
their last requests: then the one that waits longest is at the head, and each tick brings a
group that is due closer to it (`requested_of_rank`).

Two things get in the way when groups are enabled while others are already refreshed. A group
that was enabled before still has its version, though not the list of it, so that a response
with this version is ignored; and a group just enabled, which has never been requested, is
put behind those that have. `neverFreezes_iff` says that nothing else does, except for a clock
that goes back.
-/

namespace ProxyPlatform.SmallServerListDownloader

variable (C : StreamCodec) (ndebug : Bool)

/-- The time of the last request for the group `g`. -/
abbrev lastUpdate (s : SmallServerListDownloader) (g : ℕ) : ℕ :=
  (s.enabledServerGroupMap g).lastUpdateTimestampMS

/-- The list of the enabled groups is ordered by their last requests. -/
def Sorted (s : SmallServerListDownloader) : Prop :=
  (s.enabledServerGroupList.nodes ()).Pairwise fun i j => s.lastUpdate i ≤ s.lastUpdate j

/-- In the events `es`, a response with the version `v` and the list `l` is accepted for the group
    `g`, which is neither enabled nor disabled afterwards. -/
def AcceptedSince (s₀ : SmallServerListDownloader) (es : List DownloaderEvent) (g : ℕ) (v : UInt64)
    (l : List ServerInfo) : Prop :=
  ∃ pre d mid u, es = pre ++ .datagram d :: mid ∧ exec (step C ndebug) s₀ pre = .ok u ∧
    Accepts C u d v l ∧ d.requestId = g ∧ ∀ e ∈ mid, e ≠ .enable g ∧ e ≠ .disable g

/-- The number of ticks. -/
def ticks (es : List DownloaderEvent) : ℕ :=
  es.countP fun e => match e with | .tick _ => true | _ => false

/-- A request for the group `g` is among those posted between the states `s` and `t`. -/
def Requested (s t : SmallServerListDownloader) (g : ℕ) : Prop :=
  ∃ new, t.posts = s.posts ++ new ∧ ∃ p ∈ new, p.requestId = g ∧ p.serverGroup = g

/-- What is claimed of the events `es`. -/
structure NeverFreezes (s₀ : SmallServerListDownloader) (es : List DownloaderEvent) : Prop where
  holds : ∀ pre s g, pre <+: es → exec (step C ndebug) s₀ pre = .ok s →
    (s.enabledServerGroupMap g).enabled → (s.enabledServerGroupMap g).versionTimestampMS ≠ 0 →
      AcceptedSince C ndebug s₀ pre g (s.enabledServerGroupMap g).versionTimestampMS
        (s.enabledServerGroupMap g).held
  sorted : ∀ pre s, pre <+: es → exec (step C ndebug) s₀ pre = .ok s → Sorted s
  /-- A group that has waited for the timeout is requested within as many ticks as there are groups
      enabled, unless it is disabled. -/
  requested : ∀ pre mid s t g, pre ++ mid <+: es → exec (step C ndebug) s₀ pre = .ok s →
    exec (step C ndebug) s mid = .ok t → (s.enabledServerGroupMap g).enabled →
      .disable g ∉ mid →
        (∀ nowMS, .tick nowMS ∈ mid → s.lastUpdate g + updateServerListTimeoutMS ndebug ≤ nowMS) →
          (s.enabledServerGroupList.nodes ()).length ≤ ticks mid → Requested s t g

/-- A group is enabled only if it has no version, and no other was requested yet; and a tick that
    requests a group is not before the last request for another. -/
def Steady (s : SmallServerListDownloader) : DownloaderEvent → Prop
  | .enable g => (s.enabledServerGroupMap g).versionTimestampMS = 0 ∧
    ∀ k ∈ s.enabledServerGroupList.nodes (), s.lastUpdate k = 0
  | .tick nowMS => ∀ g l, s.enabledServerGroupList.nodes () = g :: l →
    s.lastUpdate g ≤ sub64 nowMS (updateServerListTimeoutMS ndebug) →
      ∀ k ∈ l, s.lastUpdate k ≤ nowMS
  | _ => True

/-- A state in which the groups are in order. -/
structure Ordered (s : SmallServerListDownloader) : Prop where
  consistent : Consistent s
  sorted : Sorted s
  unused : ∀ g, (s.enabledServerGroupMap g).enabled = false → s.lastUpdate g = 0

variable {C ndebug} {s t s₀ : SmallServerListDownloader} {es : List DownloaderEvent}
  {e : DownloaderEvent} {g : ℕ}

/-! ## The order of the list -/

theorem Sorted.frame (h : Sorted s)
    (hsub : (t.enabledServerGroupList.nodes ()).Sublist (s.enabledServerGroupList.nodes ()))
    (hlast : ∀ k ∈ t.enabledServerGroupList.nodes (), t.lastUpdate k = s.lastUpdate k) : Sorted t := by
  refine (h.sublist hsub).imp_of_mem fun {i j} hi hj hij => ?_
  rw [hlast i hi, hlast j hj]
  exact hij

/-- A group goes to the tail of the list: it stays in order if none was requested later. -/
theorem sorted_grabTail_iff {l : List ℕ} (h : Sorted s)
    (hl : (s.enabledServerGroupList.nodes ()).filter (· ≠ g) = l)
    (hlist : t.enabledServerGroupList = s.enabledServerGroupList.grabTail () g)
    (hlast : ∀ k ≠ g, t.lastUpdate k = s.lastUpdate k) :
    Sorted t ↔ ∀ k ∈ l, s.lastUpdate k ≤ t.lastUpdate g := by
  have hne : ∀ k ∈ l, k ≠ g := fun k hk => by
    rw [← hl] at hk
    simpa using List.of_mem_filter hk
  rw [Sorted, hlist, Linked.nodes_grabTail_self, hl, List.pairwise_append]
  constructor
  · rintro ⟨-, -, hlt⟩ k hk
    rw [← hlast k (hne k hk)]
    exact hlt k hk g (List.mem_singleton_self g)
  · intro hlt
    refine ⟨?_, List.pairwise_singleton _ _, fun k hk j hj => ?_⟩
    · have hsub := h.sublist (hl ▸ List.filter_sublist)
      refine hsub.imp_of_mem fun {i j} hi hj hij => ?_
      rw [hlast i (hne i hi), hlast j (hne j hj)]
      exact hij
    · rw [List.mem_singleton.1 hj, hlast k (hne k hk)]
      exact hlt k hk

/-- A group that is not in the list is not taken out of it. -/
theorem filter_nodes_of_not_mem (hg : g ∉ s.enabledServerGroupList.nodes ()) :
    (s.enabledServerGroupList.nodes ()).filter (· ≠ g) = s.enabledServerGroupList.nodes () :=
  List.filter_eq_self.2 fun _ hk => decide_eq_true (ne_of_mem_of_not_mem hk hg)

/-- A step from a state in order is steady, if and only if it leads to a state in order and
    enables no group that has a version. -/
theorem Ordered.step_iff (hs : Ordered s) (h : step C ndebug s e = .ok t) :
    Steady ndebug s e ↔
      Sorted t ∧ ∀ g, e = .enable g → (s.enabledServerGroupMap g).versionTimestampMS = 0 := by
  rcases hs.consistent.move h with @⟨g, hpos, hlt, hg⟩ | @⟨g, hg⟩ |
    @⟨nowMS, g, l, hnodes, hdue, last, new⟩ | @⟨nowMS, hdue, last, new⟩ | ⟨d, a⟩ | @⟨d, v, l, ha, a, b, hb⟩
  · have hmem : g ∉ s.enabledServerGroupList.nodes () := by
      rw [(hs.consistent g).linked, hg]
      exact Bool.false_ne_true
    rw [sorted_grabTail_iff hs.sorted (filter_nodes_of_not_mem hmem) rfl
      fun k hk => by simp [lastUpdate, Function.update_of_ne hk]]
    have hzero : s.lastUpdate g = 0 := hs.unused g hg
    simp only [Steady, lastUpdate, Function.update_self, hzero, Nat.le_zero]
    constructor
    · rintro ⟨hversion, hall⟩
      refine ⟨hall, fun k hk => ?_⟩
      cases hk
      exact hversion
    · rintro ⟨hall, hversion⟩
      exact ⟨hversion g rfl, hall⟩
  · refine iff_of_true trivial ⟨hs.sorted.frame List.filter_sublist fun k hk => ?_, fun k hk => ?_⟩
    · have hne : k ≠ g := by simpa using List.of_mem_filter hk
      simp [lastUpdate, Function.update_of_ne hne]
    · cases hk
  · rw [sorted_grabTail_iff hs.sorted (Linked.nodes_unlink_of_cons hnodes) rfl
      fun k hk => by simp [lastUpdate, Function.update_of_ne hk]]
    simp only [Steady, lastUpdate, Function.update_self]
    constructor
    · exact fun hall => ⟨hall g l hnodes hdue, fun k hk => (by cases hk)⟩
    · rintro ⟨hall, -⟩ k m hkm -
      rw [hnodes, List.cons.injEq] at hkm
      exact hkm.2 ▸ hall
  · refine iff_of_true (fun g l hnodes hle => absurd hle (hdue g l hnodes)) ⟨hs.sorted, fun k hk => ?_⟩
    cases hk
  · exact iff_of_true trivial ⟨hs.sorted, fun k hk => (by cases hk)⟩
  · refine iff_of_true trivial ⟨hs.sorted.frame (.refl _) fun k _ => ?_, fun k hk => (by cases hk)⟩
    by_cases hk : k = d.requestId <;> simp [lastUpdate, hk, Function.update_of_ne]

/-- A steady step keeps the groups in order. -/
theorem Ordered.step (hs : Ordered s) (he : Steady ndebug s e) (h : step C ndebug s e = .ok t) :
    Ordered t := by
  refine ⟨hs.consistent.step h, ((hs.step_iff h).1 he).1, fun k hk => ?_⟩
  rcases hs.consistent.move h with @⟨g, hpos, hlt, hg⟩ | @⟨g, hg⟩ |
    @⟨nowMS, g, l, hnodes, hdue, last, new⟩ | @⟨nowMS, hdue, last, new⟩ | ⟨d, a⟩ | @⟨d, v, l, ha, a, b, hb⟩
  · by_cases hkg : k = g
    · simp [hkg] at hk
    · simp only [lastUpdate, Function.update_of_ne hkg] at hk ⊢
      exact hs.unused k hk
  · by_cases hkg : k = g
    · simp [lastUpdate, hkg]
    · simp only [lastUpdate, Function.update_of_ne hkg] at hk ⊢
      exact hs.unused k hk
  · by_cases hkg : k = g
    · have hen := (hs.consistent g).linked.1 (by simp [hnodes])
      simp [hkg, hen] at hk
    · simp only [lastUpdate, Function.update_of_ne hkg] at hk ⊢
      exact hs.unused k hk
  · exact hs.unused k hk
  · exact hs.unused k hk
  · by_cases hkg : k = d.requestId
    · simp [hkg, ha.enabled] at hk
    · simp only [lastUpdate, Function.update_of_ne hkg] at hk ⊢
      exact hs.unused k hk

/-! ## The lists that are held -/

namespace AcceptedSince

variable {v : UInt64} {l : List ServerInfo}

theorem snoc (h : AcceptedSince C ndebug s₀ es g v l) (he : e ≠ .enable g ∧ e ≠ .disable g) :
    AcceptedSince C ndebug s₀ (es ++ [e]) g v l := by
  obtain ⟨pre, d, mid, u, rfl, hu, ha, hd, hmid⟩ := h
  refine ⟨pre, d, mid ++ [e], u, by rw [List.append_assoc, List.cons_append], hu, ha, hd, ?_⟩
  intro f hf
  rcases List.mem_append.1 hf with hf | hf
  · exact hmid f hf
  · exact List.mem_singleton.1 hf ▸ he

theorem of_accepts {d : ServerListDatagram} (hs : exec (SmallServerListDownloader.step C ndebug) s₀ es = .ok s)
    (h : Accepts C s d v l) : AcceptedSince C ndebug s₀ (es ++ [.datagram d]) d.requestId v l :=
  ⟨es, d, [], s, rfl, hs, h, rfl, fun _ he => absurd he List.not_mem_nil⟩

/-- Nothing is accepted since the group is enabled, when it just is. -/
theorem ne_enable (h : AcceptedSince C ndebug s₀ (es ++ [e]) g v l) : e ≠ .enable g := by
  obtain ⟨pre, d, mid, u, heq, -, -, -, hmid⟩ := h
  rcases List.eq_nil_or_concat mid with rfl | ⟨mid, f, rfl⟩
  · obtain ⟨-, hd⟩ := List.append_inj' heq rfl
    rw [List.cons.injEq] at hd
    rw [hd.1]
    exact fun he => (by cases he)
  · rw [List.concat_eq_append, ← List.cons_append, ← List.append_assoc] at heq
    obtain ⟨-, hf⟩ := List.append_inj' heq rfl
    rw [List.cons.injEq] at hf
    exact hf.1 ▸ (hmid f (by simp)).1

end AcceptedSince

/-- Every group that is enabled holds nothing, or the list of a response accepted since. -/
def Holds (C : StreamCodec) (ndebug : Bool) (s₀ : SmallServerListDownloader)
    (es : List DownloaderEvent) (s : SmallServerListDownloader) : Prop :=
  ∀ g, (s.enabledServerGroupMap g).enabled → (s.enabledServerGroupMap g).versionTimestampMS ≠ 0 →
    AcceptedSince C ndebug s₀ es g (s.enabledServerGroupMap g).versionTimestampMS
      (s.enabledServerGroupMap g).held

theorem Holds.step (hh : Holds C ndebug s₀ es s) (hs : Consistent s) (he : Steady ndebug s e)
    (hes : exec (SmallServerListDownloader.step C ndebug) s₀ es = .ok s)
    (h : SmallServerListDownloader.step C ndebug s e = .ok t) :
    Holds C ndebug s₀ (es ++ [e]) t := by
  intro k hk hversion
  rcases hs.move h with @⟨g, hpos, hlt, hg⟩ | @⟨g, hg⟩ | @⟨nowMS, g, l, hnodes, hdue, last, new⟩ |
    @⟨nowMS, hdue, last, new⟩ | ⟨d, a⟩ | @⟨d, v, l, ha, a, b, hb⟩
  · by_cases hkg : k = g
    · subst hkg
      simp only [Function.update_self] at hversion
      exact absurd he.1 hversion
    · simp only [Function.update_of_ne hkg] at hk hversion ⊢
      exact (hh k hk hversion).snoc ⟨by simp [Ne.symm hkg], by simp⟩
  · by_cases hkg : k = g
    · simp [hkg] at hk
    · simp only [Function.update_of_ne hkg] at hk hversion ⊢
      exact (hh k hk hversion).snoc ⟨by simp, by simp [Ne.symm hkg]⟩
  · by_cases hkg : k = g
    · subst hkg
      simp only [Function.update_self] at hk hversion ⊢
      exact (hh k hk hversion).snoc ⟨by simp, by simp⟩
    · simp only [Function.update_of_ne hkg] at hk hversion ⊢
      exact (hh k hk hversion).snoc ⟨by simp, by simp⟩
  · exact (hh k hk hversion).snoc ⟨by simp, by simp⟩
  · exact (hh k hk hversion).snoc ⟨by simp, by simp⟩
  · by_cases hkg : k = d.requestId
    · subst hkg
      simp only [Function.update_self, EnabledServerGroupNode.held, hb]
      exact .of_accepts hes ha
    · simp only [Function.update_of_ne hkg] at hk hversion ⊢
      exact (hh k hk hversion).snoc ⟨by simp, by simp⟩

/-! ## The requests -/

theorem posts_of_step (hs : Consistent s) (h : SmallServerListDownloader.step C ndebug s e = .ok t) :
    s.posts <+: t.posts := by
  rcases hs.move h with _ | _ | _ | _ | _ | _
  · exact List.prefix_rfl
  · exact List.prefix_rfl
  · exact List.prefix_append _ _
  · exact List.prefix_append _ _
  · exact List.prefix_rfl
  · exact List.prefix_rfl

theorem posts_of_exec (hs : Consistent s)
    (h : exec (SmallServerListDownloader.step C ndebug) s es = .ok t) : s.posts <+: t.posts := by
  refine (exec_invariant (I := fun u => Consistent u ∧ s.posts <+: u.posts)
    (fun u e v hu hv => ?_) ⟨hs, List.prefix_rfl⟩ h).2
  exact ⟨hu.1.step hv, hu.2.trans (posts_of_step hu.1 hv)⟩

/-- The number of groups before `g` in the list. -/
def rank (s : SmallServerListDownloader) (g : ℕ) : ℕ :=
  (s.enabledServerGroupList.nodes ()).idxOf g

theorem idxOf_filter_le {l : List ℕ} {k : ℕ} (hk : k ≠ g) :
    (l.filter (· ≠ k)).idxOf g ≤ l.idxOf g := by
  induction l with
  | nil => simp
  | cons j l ih =>
    by_cases hj : j = g
    · simp [hj, hk.symm]
    · rw [List.idxOf_cons_ne _ hj, List.filter_cons]
      split
      · rw [List.idxOf_cons_ne _ hj]
        exact Nat.succ_le_succ ih
      · exact ih.trans (Nat.le_succ _)

/-- Another group that goes to the tail is not put before `g`. -/
theorem idxOf_grabTail_le {L : Linked Unit} {k : ℕ} (hg : g ∈ L.nodes ()) (hk : k ≠ g) :
    ((L.grabTail () k).nodes ()).idxOf g ≤ (L.nodes ()).idxOf g := by
  rw [Linked.nodes_grabTail_self,
    List.idxOf_append_of_mem (List.mem_filter.2 ⟨hg, decide_eq_true hk.symm⟩)]
  exact idxOf_filter_le hk

/-- When the head goes to the tail, `g` comes closer to the head. -/
theorem idxOf_grabTail_head {L : Linked Unit} {k : ℕ} {l : List ℕ} (hnodes : L.nodes () = k :: l)
    (hg : g ∈ l) (hk : k ≠ g) :
    ((L.grabTail () k).nodes ()).idxOf g + 1 = (L.nodes ()).idxOf g := by
  have hrest : (L.nodes ()).filter (· ≠ k) = l := Linked.nodes_unlink_of_cons hnodes
  rw [Linked.nodes_grabTail_self, hrest, List.idxOf_append_of_mem hg, hnodes, List.idxOf_cons_ne _ hk]

/-- A group that is due is requested by the next tick, or comes closer to the head of the list. -/
theorem requested_or_rank (hs : Ordered s) (h : SmallServerListDownloader.step C ndebug s e = .ok t)
    (hg : (s.enabledServerGroupMap g).enabled) (hne : e ≠ .disable g)
    (hlate : ∀ nowMS, e = .tick nowMS → s.lastUpdate g + updateServerListTimeoutMS ndebug ≤ nowMS) :
    Requested s t g ∨ (t.enabledServerGroupMap g).enabled ∧ t.lastUpdate g = s.lastUpdate g ∧
      rank t g + ticks [e] ≤ rank s g := by
  have hmem : g ∈ s.enabledServerGroupList.nodes () := (hs.consistent g).linked.2 hg
  rcases hs.consistent.move h with @⟨k, hpos, hlt, hk⟩ | @⟨k, hk⟩ |
    @⟨nowMS, k, l, hnodes, hdue, last, new⟩ | @⟨nowMS, hdue, last, new⟩ | ⟨d, a⟩ | @⟨d, v, l, ha, a, b, hb⟩
  · have hkg : g ≠ k := by
      rintro rfl
      rw [hk] at hg
      cases hg
    exact .inr ⟨by simpa [Function.update_of_ne hkg] using hg,
      by simp [lastUpdate, Function.update_of_ne hkg], idxOf_grabTail_le hmem hkg.symm⟩
  · have hkg : g ≠ k := fun heq => hne (heq ▸ rfl)
    exact .inr ⟨by simpa [Function.update_of_ne hkg] using hg,
      by simp [lastUpdate, Function.update_of_ne hkg], idxOf_filter_le hkg.symm⟩
  · by_cases hkg : g = k
    · subst hkg
      refine .inl ⟨_, rfl, _, List.mem_append_right _ (List.mem_singleton_self _), ?_⟩
      exact ⟨((hs.consistent g).group hg).1, ((hs.consistent g).group hg).1⟩
    · have hl : g ∈ l := (List.mem_cons.1 (hnodes ▸ hmem)).resolve_left hkg
      exact .inr ⟨by simpa [Function.update_of_ne hkg] using hg,
        by simp [lastUpdate, Function.update_of_ne hkg],
        (idxOf_grabTail_head hnodes hl (Ne.symm hkg)).le⟩
  · -- The head of the list has waited at least as long as `g`.
    rcases hnodes : s.enabledServerGroupList.nodes () with _ | ⟨k, l⟩
    · rw [hnodes] at hmem
      cases hmem
    · have hle : s.lastUpdate k ≤ s.lastUpdate g := by
        have hsorted := hs.sorted
        rw [Sorted, hnodes] at hsorted
        rcases List.mem_cons.1 (hnodes ▸ hmem) with rfl | hl
        · exact le_rfl
        · exact (List.pairwise_cons.1 hsorted).1 g hl
      have hdue' := hlate nowMS rfl
      refine absurd ?_ (hdue k l hnodes)
      rw [sub64_of_le (by omega)]
      exact (show s.lastUpdate k ≤ _ by omega)
  · exact .inr ⟨hg, rfl, le_rfl⟩
  · refine .inr ⟨?_, ?_, le_rfl⟩
    · by_cases hk : g = d.requestId
      · simpa [hk] using ha.enabled
      · simpa [Function.update_of_ne hk] using hg
    · by_cases hk : g = d.requestId <;> simp [lastUpdate, hk, Function.update_of_ne]

/-- So it is requested after as many ticks as there are groups before it, and one more. -/
theorem requested_of_rank (hs : Ordered s)
    (hsteady : Along (SmallServerListDownloader.step C ndebug) (Steady ndebug) s es)
    (h : exec (SmallServerListDownloader.step C ndebug) s es = .ok t)
    (hg : (s.enabledServerGroupMap g).enabled) (hne : .disable g ∉ es)
    (hlate : ∀ nowMS, .tick nowMS ∈ es →
      s.lastUpdate g + updateServerListTimeoutMS ndebug ≤ nowMS)
    (hrank : rank s g < ticks es) : Requested s t g := by
  induction es generalizing s with
  | nil => exact absurd hrank (Nat.not_lt_zero _)
  | cons e es ih =>
    obtain ⟨u, hu, hes⟩ := exec_cons_eq_ok.1 h
    have hordered := hs.step hsteady.1 hu
    obtain ⟨rest, hrest⟩ := posts_of_exec hordered.consistent hes
    obtain ⟨first, hfirst⟩ := posts_of_step hs.consistent hu
    rcases requested_or_rank hs hu hg (fun he => hne (he ▸ List.mem_cons_self))
      (fun nowMS he => hlate nowMS (he ▸ List.mem_cons_self)) with ⟨new, hnew, p, hp, hpg⟩ |
      ⟨hg', hlast, hle⟩
    · refine ⟨new ++ rest, ?_, p, List.mem_append_left _ hp, hpg⟩
      rw [← hrest, hnew, List.append_assoc]
    · have hticks : ticks (e :: es) = ticks [e] + ticks es := by
        rw [ticks, ticks, ticks, ← List.singleton_append, List.countP_append]
      obtain ⟨new, hnew, p, hp, hpg⟩ := ih hordered (hsteady.2 u hu) hes hg'
        (fun he => hne (List.mem_cons_of_mem _ he))
        (fun nowMS he => hlast ▸ hlate nowMS (List.mem_cons_of_mem _ he)) (by omega)
      refine ⟨first ++ new, ?_, p, List.mem_append_right _ hp, hpg⟩
      rw [hnew, ← hfirst, List.append_assoc]

/-! ## Runs -/

theorem ordered_init (master : NetAddress) : Ordered (init master) where
  consistent := consistent_init master
  sorted := List.Pairwise.nil
  unused _ _ := rfl

theorem ordered_of_exec {master : NetAddress}
    (hsteady : Along (SmallServerListDownloader.step C ndebug) (Steady ndebug) (init master) es)
    (h : exec (SmallServerListDownloader.step C ndebug) (init master) es = .ok s) :
    Ordered s ∧ Holds C ndebug (init master) es s := by
  refine (exec_history_along
    (I := fun es s => exec (SmallServerListDownloader.step C ndebug) (init master) es = .ok s ∧
      Ordered s ∧ Holds C ndebug (init master) es s)
    (fun es s e t hI he ht => ?_) ⟨rfl, ordered_init master, fun g hg => (by cases hg)⟩ hsteady h).2
  obtain ⟨hes, hs, hh⟩ := hI
  exact ⟨(exec_snoc e hes).trans ht, hs.step he ht, hh.step hs.consistent he hes ht⟩

theorem NeverFreezes.of_prefix {fs : List DownloaderEvent} (h : NeverFreezes C ndebug s₀ es)
    (hfs : fs <+: es) : NeverFreezes C ndebug s₀ fs where
  holds pre s g hpre := h.holds pre s g (hpre.trans hfs)
  sorted pre s hpre := h.sorted pre s (hpre.trans hfs)
  requested pre mid s t g hpre := h.requested pre mid s t g (hpre.trans hfs)

/-- A run never freezes a group, if and only if groups are enabled for the first time, before any is
    refreshed, and the clock does not go back where it matters. -/
theorem neverFreezes_iff {master : NetAddress}
    (h : exec (SmallServerListDownloader.step C ndebug) (init master) es = .ok s) :
    NeverFreezes C ndebug (init master) es ↔
      Along (SmallServerListDownloader.step C ndebug) (Steady ndebug) (init master) es := by
  constructor
  · intro hnever
    induction es using List.reverseRecOn generalizing s with
    | nil => trivial
    | append_singleton es e ih =>
      obtain ⟨u, hu, hes⟩ := exec_append_eq_ok.1 h
      obtain ⟨v, hv, hes⟩ := exec_cons_eq_ok.1 hes
      cases hes
      have hsteady := ih hu (hnever.of_prefix (List.prefix_append _ _))
      have hordered := (ordered_of_exec hsteady hu).1
      refine hsteady.snoc hu ((hordered.step_iff hv).2 ⟨hnever.sorted _ s List.prefix_rfl h, ?_⟩)
      -- A group with a version cannot hold its list, when it has just been enabled.
      rintro g rfl
      by_contra hversion
      obtain ⟨-, -, -, rfl⟩ := enableServerGroup_eq_ok hv
      have hholds := hnever.holds _ _ g List.prefix_rfl h (by simp) (by simpa using hversion)
      exact hholds.ne_enable rfl
  · intro hsteady
    refine ⟨fun pre s g hpre hs hg hversion => ?_, fun pre s hpre hs => ?_, ?_⟩
    · exact (ordered_of_exec (hsteady.of_prefix hpre) hs).2 g hg hversion
    · exact (ordered_of_exec (hsteady.of_prefix hpre) hs).1.sorted
    · intro pre mid s t g hpre hs ht hg hne hlate hlength
      have hsteady' := hsteady.of_prefix hpre
      have hordered := (ordered_of_exec (hsteady'.of_prefix (List.prefix_append _ _)) hs).1
      refine requested_of_rank hordered (hsteady'.of_append hs) ht hg hne hlate ?_
      exact (List.idxOf_lt_length_iff.2 ((hordered.consistent g).linked.2 hg)).trans_le hlength

/-- A group that is enabled, gets a list, and is disabled and enabled again. -/
def enabledAgain : List DownloaderEvent :=
  [.enable 5, .datagram (emptyResponse 5), .disable 5, .enable 5]

theorem neverFreezes_iff_enabledAgain :
    ∃ s, exec (SmallServerListDownloader.step plainCodec true) (init {}) enabledAgain = .ok s ∧
      (NeverFreezes plainCodec true (init {}) enabledAgain ↔
        Along (SmallServerListDownloader.step plainCodec true) (Steady true) (init {})
          enabledAgain) := by
  obtain ⟨s, hs, -⟩ := exists_ok_of_check
    (x := exec (SmallServerListDownloader.step plainCodec true) (init {}) enabledAgain)
    (p := fun _ => true) (by decide +kernel)
  exact ⟨s, hs, neverFreezes_iff hs⟩

/-- The group has its old version, but no list. -/
theorem neverFreezes_counterexample : ¬NeverFreezes plainCodec true (init {}) enabledAgain := by
  intro h
  obtain ⟨s, hs, hp⟩ := exists_ok_of_check
    (x := exec (SmallServerListDownloader.step plainCodec true) (init {}) enabledAgain)
    (p := fun s => (s.enabledServerGroupMap 5).enabled &&
      decide ((s.enabledServerGroupMap 5).versionTimestampMS ≠ 0)) (by decide +kernel)
  rw [Bool.and_eq_true, decide_eq_true_eq] at hp
  have hholds : AcceptedSince plainCodec true (init {}) (enabledAgain.take 3 ++ [.enable 5]) 5 _ _ :=
    h.holds enabledAgain s 5 List.prefix_rfl hs hp.1 hp.2
  exact hholds.ne_enable rfl

end ProxyPlatform.SmallServerListDownloader
