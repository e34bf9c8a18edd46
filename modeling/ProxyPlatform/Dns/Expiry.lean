import ProxyPlatform.Dns.Run

/-!
# How old the results of the DNS service are

`ProcessTimeoutCacheNodes` is to take the results older than `DNS_CACHE_TIMEOUT_MS` out of
the cache. It looks for them in the list of the queries under way, so that no result is ever
taken out: an entry is served for as long as the service runs, unless a late answer
replaces it. In the first 45 minutes of the clock the pass finds queries under way instead,
and `assert`s of it fail.

* `ServesFresh`: what is served in a run is fresh, older entries are gone, and no `assert` of
  a tick fails;
* `TakesNone`: a tick finds no query under way that its last pass takes for a finished one;
* `TickKeeps`: nor an entry that it has to take out;
* `servesFresh_iff`: the former holds of a run exactly when every tick of it meets the latter.
-/

namespace ProxyPlatform

namespace DnsRun

open DnsLocalService

variable {n nowMS : ℕ} {r t u : DnsRun} {s s' : DnsLocalService}

/-- The time does not go back. -/
def NonDecreasing (r : DnsRun) : DnsEvent → Prop
  | .tick nowMS => r.service.localTicker ≤ nowMS
  | _ => True

instance (r : DnsRun) (e : DnsEvent) : Decidable (NonDecreasing r e) := by
  unfold NonDecreasing
  split <;> infer_instance

/-- The results in the cache are from less than the cache timeout before the last tick. -/
def NoneExpired (s : DnsLocalService) : Prop :=
  ∀ h m, s.cacheMap h = some m → m.queryFinished = true →
    s.localTicker < m.timestampMS + dnsCacheTimeoutMS

/-- What is served on the events `es` from `r` is fresh, older entries are gone, and no `assert` of
    a tick fails. -/
structure ServesFresh (r : DnsRun) (es : List DnsEvent) : Prop where
  served : ∀ t, Visits step r es t → ∀ h i s x,
    t.service.resolveDns h i = .ok (s, some (.ready x)) →
      ∃ m, t.service.cacheMap h = some m ∧ m.queryFinished = true ∧
        t.service.localTicker < m.timestampMS + dnsCacheTimeoutMS
  expired : ∀ t, Visits step r es t → NoneExpired t.service
  asserts : ∀ pre nowMS t u, pre ++ [.tick nowMS] <+: es → exec step r pre = .ok t →
    step t (.tick nowMS) = .ok u → u.service.failedAsserts = t.service.failedAsserts

/-- A tick at `nowMS` finds nothing that `ProcessTimeoutCacheNodes` takes for a finished query: but for
    those whose lookup came back, the queries under way are old enough for the pass before, or
    the clock is not in its first 45 minutes. -/
def TakesNone (s : DnsLocalService) (nowMS : ℕ) : Prop :=
  ∀ h ∈ s.cacheRequestTimeoutList, ¬s.IsLookedUp h → ∀ m ∈ s.cacheMap h,
    nowMS < dnsQueryTimeoutMS ∨ dnsCacheTimeoutMS ≤ nowMS ∨
      m.timestampMS + dnsQueryTimeoutMS ≤ nowMS

instance (s : DnsLocalService) (nowMS : ℕ) : Decidable (TakesNone s nowMS) := by
  unfold TakesNone
  infer_instance

/-- A tick finds nothing that `ProcessTimeoutCacheNodes` has to take out, or takes for that: but
    for the entries whose lookup came back, the results are not old. -/
def TickKeeps (r : DnsRun) : DnsEvent → Prop
  | .tick nowMS =>
    (∀ h ∈ r.service.cacheTimeoutList, ¬r.service.IsLookedUp h → ∀ m ∈ r.service.cacheMap h,
      m.queryFinished = true → nowMS < m.timestampMS + dnsCacheTimeoutMS) ∧
    TakesNone r.service nowMS
  | _ => True

instance (r : DnsRun) (e : DnsEvent) : Decidable (TickKeeps r e) := by
  unfold TickKeeps
  split <;> infer_instance

/-! ## The order of the queries under way -/

/-- No node is from the future, and the queries under way are in the order they began. -/
structure Timed (s : DnsLocalService) : Prop where
  le : ∀ h m, s.cacheMap h = some m → m.timestampMS ≤ s.localTicker
  sorted : s.cacheRequestTimeoutList.Pairwise fun h k => ∀ m m', s.cacheMap h = some m →
    s.cacheMap k = some m' → m.timestampMS ≤ m'.timestampMS

theorem init_timed (nowMS : ℕ) : Timed (.init nowMS) where
  le _ _ hm := by cases hm
  sorted := List.Pairwise.nil

/-- Time goes on as long as the map and the list only lose what they had. -/
theorem Timed.of_le (hs : Timed s) (hticker : s.localTicker ≤ s'.localTicker)
    (hlist : s'.cacheRequestTimeoutList.Sublist s.cacheRequestTimeoutList)
    (hmap : ∀ h m', s'.cacheMap h = some m' → m'.timestampMS = s'.localTicker ∨
      ∃ m, s.cacheMap h = some m ∧ m'.timestampMS = m.timestampMS)
    (hkeep : ∀ h ∈ s'.cacheRequestTimeoutList, ∀ m', s'.cacheMap h = some m' →
      ∃ m, s.cacheMap h = some m ∧ m'.timestampMS = m.timestampMS) : Timed s' where
  le h m' hm' := by
    rcases hmap h m' hm' with hnow | ⟨m, hm, hts⟩
    · exact hnow.le
    · rw [hts]
      exact (hs.le h m hm).trans hticker
  sorted := by
    refine (hs.sorted.sublist hlist).imp_of_mem fun hh hk hle m m' hm hm' => ?_
    obtain ⟨m₁, hm₁, hts⟩ := hkeep _ hh m hm
    obtain ⟨m₂, hm₂, hts'⟩ := hkeep _ hk m' hm'
    rw [hts, hts']
    exact hle m₁ m₂ hm₁ hm₂

theorem Timed.ticks {alive : ℕ → Bool} {a : List DnsAnswer} (hs : Timed s)
    (hnow : s.localTicker ≤ nowMS) (h : Ticks alive s nowMS s' a) : Timed s' := by
  have hticker : s'.localTicker = nowMS := h.localTicker
  refine hs.of_le (hticker ▸ hnow) h.sublist (fun k m' hm' => ?_) fun k hk m' hm' => ?_
  · rcases h.cacheMap k with heq | ⟨-, m, hm, -, hts⟩
    · exact .inr ⟨m', heq ▸ hm', rfl⟩
    · rw [hm, Option.some_inj] at hm'
      exact .inl (by rw [← hm', hts, hticker])
  · rcases h.cacheMap k with heq | ⟨-, m, hm, hfin, -⟩
    · exact ⟨m', heq ▸ hm', rfl⟩
    · exact absurd (h.consistent.unfinished k hk) (IsFinished.not_isUnfinished ⟨m, hm, hfin⟩)

theorem Timed.waits {hostname : Bytes} {i : ℕ} (hs : Timed s) (hc : Consistent s)
    (h : Waits s hostname i s') : Timed s' := by
  rcases h.lookup with ⟨-, -, -, hmap, hl⟩ | ⟨hnone, -, hmap, hl⟩
  · refine hs.of_le h.localTicker.ge (hl ▸ .refl _) (fun k m' hm' => ?_) fun k _ m' hm' => ?_
    · exact .inr ⟨m', hmap ▸ hm', rfl⟩
    · exact ⟨m', hmap ▸ hm', rfl⟩
  · have hother : ∀ k m', k ≠ hostname → s'.cacheMap k = some m' → s.cacheMap k = some m' := by
      intro k m' hk hm'
      rwa [hmap, Function.update_of_ne hk] at hm'
    have hself : ∀ m', s'.cacheMap hostname = some m' → m'.timestampMS = s.localTicker := by
      intro m' hm'
      rw [hmap, Function.update_self, Option.some_inj] at hm'
      rw [← hm']
    have hne : ∀ k ∈ s.cacheRequestTimeoutList, k ≠ hostname := by
      rintro k hk rfl
      obtain ⟨m, hm, -⟩ := hc.unfinished k hk
      rw [hnone] at hm
      cases hm
    refine ⟨fun k m' hm' => ?_, ?_⟩
    · rw [h.localTicker]
      by_cases hk : k = hostname
      · exact (hself m' (hk ▸ hm')).le
      · exact hs.le k m' (hother k m' hk hm')
    · -- The new query is the youngest.
      rw [hl, List.pairwise_append]
      refine ⟨hs.sorted.imp_of_mem fun hh hk hle m m' hm hm' => ?_, List.pairwise_singleton _ _,
        fun k hk k' hk' m m' hm hm' => ?_⟩
      · exact hle m m' (hother _ m (hne _ hh) hm) (hother _ m' (hne _ hk) hm')
      · rw [List.mem_singleton.1 hk'] at hm'
        rw [hself m' hm']
        exact hs.le k m (hother k m (hne k hk) hm)

theorem Timed.serves {hostname : Bytes} (hs : Timed s) (h : Serves s hostname s') : Timed s' := by
  have hold : ∀ k m', s'.cacheMap k = some m' →
      ∃ m, s.cacheMap k = some m ∧ m'.timestampMS = m.timestampMS := by
    intro k m' hm'
    have hk := h.cacheMap k
    rw [hm', Option.map_some] at hk
    obtain ⟨m, hm, hpair⟩ := Option.map_eq_some_iff.1 hk.symm
    exact ⟨m, hm, (congrArg Prod.snd hpair).symm⟩
  exact hs.of_le h.localTicker.ge (h.cacheRequestTimeoutList ▸ .refl _)
    (fun k m' hm' => .inr (hold k m' hm')) fun k _ m' hm' => hold k m' hm'

theorem Timed.sameContents (hs : Timed s) (h : SameContents s s') : Timed s' :=
  hs.of_le h.localTicker.ge (h.cacheRequestTimeoutList ▸ .refl _)
    (fun _ m' hm' => .inr ⟨m', h.cacheMap ▸ hm', rfl⟩) fun _ _ m' hm' => ⟨m', h.cacheMap ▸ hm', rfl⟩

/-- Every step keeps the order. -/
theorem step_timed (hr : Accounted r) (hs : Timed r.service) (e : DnsEvent) (he : NonDecreasing r e)
    (h : step r e = .ok t) : Timed t.service := by
  cases step_move hr h with
  | full | idle | release | pop => exact hs
  | refuse hostname i m s hm hres hsame => exact hs.sameContents hsame
  | wait hostname i m s hm hres hwait => exact hs.waits hr.consistent hwait
  | serve hostname i m s x hm hres hserve => exact hs.serves hserve
  | finish p a4List a6List =>
    rcases finishRequest_eq r.service p a4List a6List with heq | ⟨-, y, -, heq⟩
    · rw [heq]
      exact hs
    · rw [heq]
      exact ⟨hs.le, hs.sorted⟩
  | tick nowMS s answers hok hticks => exact hs.ticks he hticks

/-! ## What the last pass takes -/

/-- What is under way in `s'` stays in the list. -/
def StaysListed (s s' : DnsLocalService) : Prop :=
  ∀ k ∈ s.cacheRequestTimeoutList, s'.IsUnfinished k → k ∈ s'.cacheRequestTimeoutList

/-- A query that is under way after a tick is none that came back. -/
theorem not_isLookedUp_of_ticks {alive : ℕ → Bool} {a : List DnsAnswer}
    (h : Ticks alive s nowMS s' a) {k : Bytes} (hk : s'.IsUnfinished k) : ¬s.IsLookedUp k := by
  intro hback
  obtain ⟨m, hm, -⟩ := h.isUnfinished hk
  obtain ⟨m', hm', hfin, -⟩ := h.finished k hback ⟨m, hm⟩
  exact absurd hk (IsFinished.not_isUnfinished ⟨m', hm', hfin⟩)

/-- Where no `assert` fails, nothing is taken. -/
theorem staysListed_of_passed {alive : ℕ → Bool} {a : List DnsAnswer}
    (h : Ticks alive s nowMS s' a) (hpass : s'.failedAsserts = s.failedAsserts) :
    StaysListed s s' := by
  obtain ⟨u, moved, hends, hu, hpost, -⟩ := h.passes
  have hfailed := hpost.failed
  rw [hpass, hends.failedAsserts] at hfailed
  obtain rfl := List.length_eq_zero_iff.1 (Nat.le_zero.1 (Nat.le_of_add_le_add_left hfailed))
  obtain ⟨l, c, hl, rfl⟩ := hpost.moves
  intro k hk hun
  have hmem := hends.kept k hk hun
  rwa [hl] at hmem

/-- What is old enough for the last pass is so for the one before, but while the clock is in its
    first 45 minutes. -/
theorem queryTimeout_of_cacheTimeout {timestampMS : ℕ}
    (hdue : timestampMS ≤ sub64 nowMS dnsCacheTimeoutMS)
    (hcase : nowMS < dnsQueryTimeoutMS ∨ dnsCacheTimeoutMS ≤ nowMS ∨
      timestampMS + dnsQueryTimeoutMS ≤ nowMS) :
    timestampMS ≤ sub64 nowMS dnsQueryTimeoutMS := by
  have hquery : dnsQueryTimeoutMS = 5000 := rfl
  have hcache : dnsCacheTimeoutMS = 2700000 := rfl
  unfold sub64 at *
  split at hdue <;> split <;> omega

/-- On a tick that finds nothing to take, no `assert` fails. -/
theorem passed_of_takesNone {alive : ℕ → Bool} {a : List DnsAnswer} (h : Ticks alive s nowMS s' a)
    (hnone : TakesNone s nowMS) : s'.failedAsserts = s.failedAsserts := by
  obtain ⟨u, moved, hends, hu, hpost, hhead⟩ := h.passes
  rcases hmoved : moved with _ | ⟨k, l⟩
  · exact (hpost.passed hmoved).trans hends.failedAsserts
  -- The first node taken is too young for the pass before, and old enough for the last one.
  obtain ⟨l', c, hl, rfl⟩ := id hpost.moves
  rw [hmoved, List.cons_append] at hl
  have hmem : k ∈ u.cacheRequestTimeoutList := by rw [hl]; exact List.mem_cons_self
  have hun := hu.unfinished k hmem
  obtain ⟨m, hm, hdue⟩ := hpost.due k (by rw [hmoved]; exact List.mem_cons_self)
  rw [hends.localTicker] at hdue
  rw [hends.cacheMap_eq hun] at hm
  have hcase := hnone k (hends.sublist.subset hmem) (not_isLookedUp_of_ticks h hun) m hm
  exact absurd ⟨m, hm, queryTimeout_of_cacheTimeout hdue hcase⟩ (hhead k _ hl)

/-- What a tick finds that leaves the queries under way in their list. -/
theorem takesNone_of_staysListed {alive : ℕ → Bool} {a : List DnsAnswer} (hs : Timed s)
    (hc : Consistent s) (hnow : s.localTicker ≤ nowMS) (h : Ticks alive s nowMS s' a)
    (hkept : StaysListed s s') : TakesNone s nowMS := by
  have hticker : s'.localTicker = nowMS := h.localTicker
  have hs' := hs.ticks hnow h
  intro k hk hback m hm
  have hm : s.cacheMap k = some m := hm
  have hle := (hs.le k m hm).trans hnow
  rcases h.others k hback with heq | ⟨-, m', hm', hdue⟩
  · -- The query is still under way, behind one that the last pass leaves.
    have hun : s'.IsUnfinished k := by
      rw [IsUnfinished, heq]
      exact hc.unfinished k hk
    have hmem := hkept k hk hun
    rcases hl : s'.cacheRequestTimeoutList with _ | ⟨k₀, l⟩
    · rw [hl] at hmem
      cases hmem
    obtain ⟨m₀, hm₀, -⟩ := h.consistent.unfinished k₀ (by rw [hl]; exact List.mem_cons_self)
    have hle₀ := hticker ▸ hs'.le k₀ m₀ hm₀
    obtain ⟨u, moved, -, -, hpost, -⟩ := h.passes
    have hold : ¬m₀.timestampMS ≤ sub64 nowMS dnsCacheTimeoutMS := by
      have hnot := hpost.notDue k₀ l hl
      obtain ⟨l', c, -, rfl⟩ := hpost.moves
      exact fun hle => hnot ⟨m₀, hm₀, hticker ▸ hle⟩
    rw [le_sub64_iff hle₀ (by decide)] at hold
    exact .inr (.inl (Nat.le_of_not_lt fun hlt => hold (.inl hlt)))
  · have hdue : m'.timestampMS ≤ sub64 nowMS dnsQueryTimeoutMS := hdue
    rw [show s.cacheMap k = some m' from hm', Option.some_inj] at hm
    rw [hm, le_sub64_iff hle (by decide)] at hdue
    rcases hdue with hdue | hdue
    · exact .inl hdue
    · exact .inr (.inr hdue)

/-! ## When the results are fresh -/

/-- After a tick, an entry without a result that came back has the age it had before. -/
theorem noneExpired_of_keeps {alive : ℕ → Bool} {a : List DnsAnswer} (hc : Consistent s)
    (h : Ticks alive s nowMS s' a)
    (hkeep : ∀ k ∈ s.cacheTimeoutList, ¬s.IsLookedUp k → ∀ m ∈ s.cacheMap k,
      m.queryFinished = true → nowMS < m.timestampMS + dnsCacheTimeoutMS) : NoneExpired s' := by
  have hticker : s'.localTicker = nowMS := h.localTicker
  intro k m' hm' hfin
  rw [hticker]
  rcases h.cacheMap k with heq | ⟨-, m, hm, -, hts⟩
  · by_cases hk : s.IsLookedUp k
    · obtain ⟨m, hm, -, hts⟩ := h.finished k hk ⟨m', heq ▸ hm'⟩
      rw [hm, Option.some_inj] at hm'
      rw [← hm', hts]
      exact Nat.lt_add_of_pos_right (by decide)
    · rw [heq] at hm'
      exact hkeep k (hc.mem_of_isFinished ⟨m', hm', hfin⟩) hk m' hm' hfin
  · rw [hm, Option.some_inj] at hm'
    rw [← hm', hts]
    exact Nat.lt_add_of_pos_right (by decide)

/-- What a tick finds that leaves fresh results. -/
theorem fresh_of_noneExpired {alive : ℕ → Bool} {a : List DnsAnswer} (h : Ticks alive s nowMS s' a)
    (hfresh : NoneExpired s') {k : Bytes} (hback : ¬s.IsLookedUp k) {m : DnsLocalCacheNode}
    (hm : s.cacheMap k = some m) (hfin : m.queryFinished = true) :
    nowMS < m.timestampMS + dnsCacheTimeoutMS := by
  have hticker : s'.localTicker = nowMS := h.localTicker
  rcases h.others k hback with heq | ⟨hun, -⟩
  · rw [← hticker]
    exact hfresh k m (heq.trans hm) hfin
  · exact absurd hun (IsFinished.not_isUnfinished ⟨m, hm, hfin⟩)

theorem noneExpired_of_waits {hostname : Bytes} {i : ℕ} (h : Waits s hostname i s')
    (hs : NoneExpired s) : NoneExpired s' := by
  intro k m hm hfin
  rw [h.localTicker]
  rcases h.lookup with ⟨-, -, -, hmap, -⟩ | ⟨-, -, hmap, -⟩
  · exact hs k m (hmap ▸ hm) hfin
  · by_cases hk : k = hostname
    · rw [hk, hmap, Function.update_self, Option.some_inj] at hm
      rw [← hm] at hfin
      cases hfin
    · rw [hmap, Function.update_of_ne hk] at hm
      exact hs k m hm hfin

theorem noneExpired_of_serves {hostname : Bytes} (h : Serves s hostname s') (hs : NoneExpired s) :
    NoneExpired s' := by
  intro k m hm hfin
  have hk := h.cacheMap k
  rw [hm, Option.map_some] at hk
  obtain ⟨m', hm', hpair⟩ := Option.map_eq_some_iff.1 hk.symm
  obtain ⟨hfinished, htime⟩ := Prod.ext_iff.1 hpair
  have htime : m'.timestampMS = m.timestampMS := htime
  rw [h.localTicker, ← htime]
  exact hs k m' hm' (hfinished.trans hfin)

/-- Every step that meets the condition keeps the results fresh. -/
theorem step_noneExpired (hr : Accounted r) (hs : NoneExpired r.service) (e : DnsEvent)
    (he : TickKeeps r e) (h : step r e = .ok t) : NoneExpired t.service := by
  cases step_move hr h with
  | full | idle | release | pop => exact hs
  | refuse hostname i m s hm hres hsame =>
    intro k y hy hfin
    change s.cacheMap k = some y at hy
    change s.localTicker < _
    rw [hsame.localTicker]
    exact hs k y (hsame.cacheMap ▸ hy) hfin
  | wait hostname i m s hm hres hwait => exact noneExpired_of_waits hwait hs
  | serve hostname i m s x hm hres hserve => exact noneExpired_of_serves hserve hs
  | finish p a4List a6List =>
    rcases finishRequest_eq r.service p a4List a6List with heq | ⟨-, y, -, heq⟩ <;>
    · rw [heq]
      exact hs
  | tick nowMS s answers hok hticks => exact noneExpired_of_keeps hr.consistent hticks he.1

/-- What every state of a run has, in which the time does not go back. -/
theorem timed_of_exec {es : List DnsEvent}
    (hmono : Along step NonDecreasing (init n nowMS) es) (h : exec step (init n nowMS) es = .ok t) :
    Accounted t ∧ Timed t.service :=
  exec_invariant_along (I := fun r => Accounted r ∧ Timed r.service)
    (fun _ e _ hr he hstep => ⟨step_accounted hr.1 e hstep, step_timed hr.1 hr.2 e he hstep⟩)
    ⟨init_accounted n nowMS, init_timed nowMS⟩ hmono h

/-- What is served from a cache without old entries is fresh. -/
theorem NoneExpired.served (hs : NoneExpired s) (hc : Consistent s) {h : Bytes} {i : ℕ}
    {x : Option DnsResult} (hres : s.resolveDns h i = .ok (s', some (.ready x))) :
    ∃ m, s.cacheMap h = some m ∧ m.queryFinished = true ∧
      s.localTicker < m.timestampMS + dnsCacheTimeoutMS := by
  rcases resolveDns_spec hc h i with ⟨t, ht, -⟩ | ⟨t, ht, -⟩ | ⟨t, y, -, hserve⟩
  · rw [ht] at hres
    cases hres
  · rw [ht] at hres
    cases hres
  · obtain ⟨m, c, hm, hfin, -⟩ := hserve.node
    exact ⟨m, hm, hfin, hs h m hm hfin⟩

/-- In a run in which the time does not go back, what is served is fresh and no `assert` of a tick
    fails, exactly when no tick finds an old entry, or takes a query under way for one. -/
theorem servesFresh_iff {es : List DnsEvent}
    (hmono : Along step NonDecreasing (init n nowMS) es) :
    ServesFresh (init n nowMS) es ↔ Along step TickKeeps (init n nowMS) es := by
  constructor
  · intro hfresh
    rw [along_iff]
    intro pre e t hpre ht
    obtain ⟨hr, hs⟩ := timed_of_exec (hmono.of_prefix ((List.prefix_append pre [e]).trans hpre)) ht
    cases e with
    | tick T =>
      have hnow : t.service.localTicker ≤ T := along_iff.1 hmono pre _ t hpre ht
      obtain ⟨u, hu⟩ := exists_step hr (.tick T)
      have hexpired := hfresh.expired u ⟨_, hpre, (exec_snoc _ ht).trans hu⟩
      have hpass := hfresh.asserts pre T t u hpre ht hu
      cases step_move hr hu with
      | tick _ s answers hok hticks =>
        refine ⟨fun k _ hback m hm hfin => fresh_of_noneExpired hticks hexpired hback hm hfin, ?_⟩
        exact takesNone_of_staysListed hs hr.consistent hnow hticks
          (staysListed_of_passed hticks hpass)
    | _ => trivial
  · intro hkeep
    have hexpired : ∀ t, Visits step (init n nowMS) es t → NoneExpired t.service := by
      rintro t ⟨pre, hpre, ht⟩
      exact (exec_invariant_along (I := fun r => Accounted r ∧ NoneExpired r.service)
        (fun _ e _ hr he hstep =>
          ⟨step_accounted hr.1 e hstep, step_noneExpired hr.1 hr.2 e he hstep⟩)
        ⟨init_accounted n nowMS, fun _ _ hm => by cases hm⟩ (hkeep.of_prefix hpre) ht).2
    refine ⟨fun t ht k i s x hres => ?_, hexpired, fun pre T t u hpre ht hu => ?_⟩
    · obtain ⟨pre, hpre, hexec⟩ := ht
      exact (hexpired t ⟨pre, hpre, hexec⟩).served (accounted_of_exec hexec).consistent hres
    · cases step_move (accounted_of_exec ht) hu with
      | tick _ s answers hok hticks =>
        exact passed_of_takesNone hticks (along_iff.1 hkeep pre _ t hpre ht).2

/-- A host name is served from the cache until a lookup takes too long for another. -/
def servedInTime : List DnsEvent :=
  [.resolveDns [97], .finishRequest 1 [{ type := .ipv4, bytes := [10, 0, 0, 1] }] [], .tick 3000000,
    .resolveDns [97], .resolveDns [98], .tick 3000001, .tick 5699999, .resolveDns [98]]

theorem servesFresh_servedInTime :
    Along step TickKeeps (init 8 2900000) servedInTime ∧
      ServesFresh (init 8 2900000) servedInTime :=
  have hkeep : Along step TickKeeps (init 8 2900000) servedInTime :=
    along_of_check (by decide +kernel)
  ⟨hkeep, (servesFresh_iff (along_of_check (by decide +kernel))).2 hkeep⟩

/-- A host name that is served 45 minutes after its lookup. -/
def servedLate : List DnsEvent :=
  [.resolveDns [97], .finishRequest 1 [{ type := .ipv4, bytes := [10, 0, 0, 1] }] [], .tick 3000000,
    .tick 5700000, .resolveDns [97]]

/-- The host name is served, by an entry that is as old as the timeout. -/
def isServedLate (t : DnsRun) : Bool :=
  match t.service.resolveDns [97] 2, t.service.cacheMap [97] with
  | .ok (_, some (.ready _)), some m => decide (m.timestampMS + dnsCacheTimeoutMS ≤ t.service.localTicker)
  | _, _ => false

/-- Not every run serves fresh results: an entry is still there after 45 minutes. -/
theorem servesFresh_counterexample :
    Along step NonDecreasing (init 8 2900000) servedLate ∧
      ¬ServesFresh (init 8 2900000) servedLate := by
  refine ⟨along_of_check (by decide +kernel), fun hfresh => ?_⟩
  obtain ⟨t, ht, hserved⟩ := exists_ok_of_check
    (x := exec step (init 8 2900000) (servedLate.take 4))
    (p := isServedLate) (by decide +kernel)
  have hvisit : Visits step (init 8 2900000) servedLate t := ⟨_, List.take_prefix 4 _, ht⟩
  unfold isServedLate at hserved
  split at hserved
  · next s x m hres hm =>
    obtain ⟨m', hm', -, hlt⟩ := hfresh.served t hvisit [97] 2 s x hres
    rw [hm, Option.some_inj] at hm'
    rw [← hm'] at hlt
    exact absurd (of_decide_eq_true hserved) (Nat.not_le.2 hlt)
  · cases hserved

end DnsRun

end ProxyPlatform
