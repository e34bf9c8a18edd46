import ProxyPlatform.Dns.Expiry

/-!
# One lookup for many requests

The first request for a host name starts its lookup, those that come before the answer wait
for the same one, and each is completed once: at the end of the lookup, or when that takes too
long. A node under way has to be in `CacheRequestTimeoutList` for the latter. The last pass of a
tick takes such nodes off the list in the first 45 minutes of the clock, so that nothing but
the end of the lookup completes their requests.

* `Coalesces`: a host name is looked up once, a future is made ready once, whatever waits does
  so at a node under way, and these nodes are those of the list;
* `TakesTurns`: what a step completes;
* `CoalescesAlong`: the law of a run;
* `coalesces_iff`: it holds of a run when no tick of it takes a node under way, and, if the time
  does not go back, only then.
-/

namespace ProxyPlatform

namespace DnsRun

open DnsLocalService

variable {n nowMS : ℕ} {r t u : DnsRun} {s s' : DnsLocalService}

/-! ## The list of the nodes under way -/

/-- Every node under way is in the list. -/
def Listed (s : DnsLocalService) : Prop := ∀ h, s.IsUnfinished h → h ∈ s.cacheRequestTimeoutList

theorem init_listed (nowMS : ℕ) : Listed (.init nowMS) := fun _ ⟨_, hm, _⟩ => by cases hm

/-- A tick takes no node under way. -/
def TickTakesNone (r : DnsRun) : DnsEvent → Prop
  | .tick nowMS => TakesNone r.service nowMS
  | _ => True

instance (r : DnsRun) : ∀ e : DnsEvent, Decidable (TickTakesNone r e)
  | .tick _ => inferInstanceAs (Decidable (TakesNone _ _))
  | .resolveDns _ | .releaseFuture _ | .popReady | .finishRequest .. => .isTrue trivial

/-- Every step that meets the condition keeps the nodes under way in the list. -/
theorem step_listed (hr : Accounted r) (hl : Listed r.service) (e : DnsEvent)
    (he : TickTakesNone r e) (h : step r e = .ok t) : Listed t.service := by
  cases step_move hr h with
  | full | idle | release | pop => exact hl
  | refuse hostname i m s hm hres hsame =>
    intro k hk
    change k ∈ s.cacheRequestTimeoutList
    change s.IsUnfinished k at hk
    rw [IsUnfinished, hsame.cacheMap] at hk
    rw [hsame.cacheRequestTimeoutList]
    exact hl k hk
  | wait hostname i m s hm hres hwait =>
    intro k hk
    change k ∈ s.cacheRequestTimeoutList
    rcases hwait.lookup with ⟨hun, -, -, -, hlist⟩ | ⟨-, -, -, hlist⟩
    · rw [hlist]
      rcases (hwait.isUnfinished k).1 hk with rfl | hk
      · exact hl k hun
      · exact hl k hk
    · rw [hlist, List.mem_append, List.mem_singleton]
      exact ((hwait.isUnfinished k).1 hk).symm.imp_left (hl k)
  | serve hostname i m s x hm hres hserve =>
    intro k hk
    change k ∈ s.cacheRequestTimeoutList
    rw [hserve.cacheRequestTimeoutList]
    exact hl k ((hserve.isUnfinished k).1 hk)
  | finish p a4List a6List =>
    rcases finishRequest_eq r.service p a4List a6List with heq | ⟨-, y, -, heq⟩ <;>
    · rw [heq]
      exact hl
  | tick nowMS s answers hok hticks =>
    have hstays := staysListed_of_passed hticks (passed_of_takesNone hticks he)
    exact fun k hk => hstays k (hl k (hticks.isUnfinished hk)) hk

/-- A node that is older than the query timeout is finished by a tick, when it is in the list. -/
theorem isFinished_of_timedOut {alive : ℕ → Bool} {a : List DnsAnswer} (hs : Timed s)
    (hl : Listed s) (hnow : s.localTicker ≤ nowMS) (h : Ticks alive s nowMS s' a) {k : Bytes}
    {m : DnsLocalCacheNode} (hm : s.cacheMap k = some m) (hun : m.queryFinished = false)
    (hdue : m.timestampMS + dnsQueryTimeoutMS ≤ nowMS) : s'.IsFinished k := by
  obtain ⟨m', hm'⟩ := h.isSome ⟨m, hm⟩
  by_cases hfin : m'.queryFinished = true
  · exact ⟨m', hm', hfin⟩
  rw [Bool.not_eq_true] at hfin
  -- Else it is in the list behind a node that is younger than it.
  obtain ⟨v, moved, hends, hv, hpost, hhead⟩ := h.passes
  obtain ⟨l, c, -, rfl⟩ := hpost.moves
  have hmem : k ∈ v.cacheRequestTimeoutList :=
    hends.kept k (hl k ⟨m, hm, hun⟩) ⟨m', hm', hfin⟩
  rcases hlist : v.cacheRequestTimeoutList with _ | ⟨k₀, l'⟩
  · rw [hlist] at hmem
    cases hmem
  have hun₀ := hv.unfinished k₀ (by rw [hlist]; exact List.mem_cons_self)
  obtain ⟨m₀, hm₀, -⟩ := hends.isUnfinished hun₀
  have hm₀ : s.cacheMap k₀ = some m₀ := hm₀
  have holder : m₀.timestampMS ≤ m.timestampMS := by
    have hsorted := hs.sorted.sublist hends.sublist
    rw [hlist] at hmem hsorted
    rcases List.mem_cons.1 hmem with rfl | hmem
    · rw [hm, Option.some_inj] at hm₀
      rw [hm₀]
    · exact (List.pairwise_cons.1 hsorted).1 k hmem m₀ m hm₀ hm
  refine absurd ⟨m₀, hm₀, ?_⟩ (hhead k₀ l' hlist)
  exact (le_sub64_iff ((hs.le k₀ m₀ hm₀).trans hnow) (by decide)).2
    (.inr ((Nat.add_le_add_right holder _).trans hdue))

/-! ## Every request is completed once -/

/-- The law of coalescing, of a state. -/
structure Coalesces (r : DnsRun) : Prop where
  /-- A host name is looked up at most once, and only with a node. -/
  issued : r.issued.Nodup ∧ ∀ h, h ∈ r.issued ↔ ∃ m, r.service.cacheMap h = some m
  /-- A request accepted waits for its turn, or had it: then its future was made ready, once, or it
      was released. -/
  accepted : ∀ i ∈ r.accepted,
    (∃! q, ∃ x, r.service.dnsSourceRequestPool.get q = some x ∧ x.futureHandle = i) ∧
      r.readied.count i = 0 ∨
    ¬r.IsAwaited i ∧ (r.readied.count i = 1 ∨ r.readied.count i = 0 ∧ r.futures.get i = none)
  refused : ∀ i ∈ r.refused, ¬r.IsAwaited i ∧ i ∉ r.readied
  readied : ∀ i ∈ r.readied, i ∈ r.accepted
  /-- The source requests are those that wait at a node under way. -/
  sources : ∀ q, (∃ x, r.service.dnsSourceRequestPool.get q = some x) ↔
    ∃ h, r.service.IsUnfinished h ∧ q ∈ r.service.pendingSourceRequestList.nodes h
  listed : ∀ h m, r.service.cacheMap h = some m →
    (h ∈ r.service.cacheRequestTimeoutList ↔ m.queryFinished = false)
  /-- The lookup of a node under way is with a query thread, or came back. -/
  lookup : ∀ h, r.service.IsUnfinished h →
    ∃ p ∈ r.service.requestList ++ r.service.requestFinishedList, ∃ x,
      r.service.dnsRequestPool.get p = some x ∧ x.hostname = h

/-- The turns that come in a step from `r` to `t`: the futures are made ready that are live. -/
structure TakesTurns (r : DnsRun) (e : DnsEvent) (t : DnsRun) : Prop where
  turn : ∀ q x, r.service.dnsSourceRequestPool.get q = some x →
    t.service.dnsSourceRequestPool.get q = none →
    (x.futureHandle ∈ t.readied ↔ ∃ f, r.futures.get x.futureHandle = some f)
  live : ∀ i ∈ t.readied, i ∉ r.readied → ∃ f, t.futures.get i = some f ∧ f.isReady = true
  /-- The lookups that came back are dispatched by a tick. -/
  dispatched : ∀ nowMS h, e = .tick nowMS → r.service.IsUnfinished h → r.service.IsLookedUp h →
    t.service.IsFinished h

theorem Accounted.coalesces (hr : Accounted r) (hl : Listed r.service) : Coalesces r where
  issued := ⟨hr.nodup_issued, hr.issued⟩
  accepted i hi := by
    by_cases hawait : r.IsAwaited i
    · refine .inl ⟨?_, List.count_eq_zero.2 (hr.awaited i hawait).2⟩
      obtain ⟨q, x, hx, hxi⟩ := hawait
      refine ⟨q, ⟨x, hx, hxi⟩, fun q' ⟨x', hx', hxi'⟩ => ?_⟩
      exact hr.injective q' q x' x hx' hx (hxi'.trans hxi.symm)
    · refine .inr ⟨hawait, ?_⟩
      by_cases hread : i ∈ r.readied
      · exact .inl (List.count_eq_one_of_mem hr.nodup_readied hread)
      · refine .inr ⟨List.count_eq_zero.2 hread, ?_⟩
        rcases hr.turn i hi with h | h | h
        · exact absurd h hawait
        · exact absurd h hread
        · exact h
  refused i hi := by
    have hacc : i ∉ r.accepted := fun h => (List.nodup_append.1 hr.nodup).2.2 i h i hi rfl
    exact ⟨fun h => hacc (hr.awaited i h).1, fun h => hacc (hr.accepted i h)⟩
  readied := hr.accepted
  sources q := by
    rw [hr.consistent.live]
    exact ⟨fun ⟨h, hq⟩ => ⟨h, hr.consistent.pending h q hq, hq⟩, fun ⟨h, _, hq⟩ => ⟨h, hq⟩⟩
  listed h m hm := by
    refine ⟨fun hmem => ?_, fun hun => hl h ⟨m, hm, hun⟩⟩
    obtain ⟨m', hm', hun⟩ := hr.consistent.unfinished h hmem
    rw [hm, Option.some_inj] at hm'
    rw [hm', hun]
  lookup h hh := by
    obtain ⟨p, x, hx, hxh⟩ := hr.requested.lookup h hh
    exact ⟨p, List.mem_append.2 ((hr.requested.live p).1 ⟨x, hx⟩), x, hx, hxh⟩

/-- A step on which no source request goes and no future becomes ready. -/
theorem TakesTurns.of_keep {e : DnsEvent}
    (hkeep : ∀ q x, r.service.dnsSourceRequestPool.get q = some x →
      t.service.dnsSourceRequestPool.get q = some x)
    (hread : ∀ i ∈ t.readied, i ∉ r.readied → ∃ f, t.futures.get i = some f ∧ f.isReady = true)
    (he : ∀ nowMS, e ≠ .tick nowMS) : TakesTurns r e t where
  turn q x hx hgone := by
    rw [hkeep q x hx] at hgone
    cases hgone
  live := hread
  dispatched nowMS _ htick := absurd htick (he nowMS)

theorem step_takesTurns (hr : Accounted r) (e : DnsEvent) (h : step r e = .ok t) :
    TakesTurns r e t := by
  have ht := step_accounted hr e h
  cases step_move hr h with
  | full | idle | release | pop =>
    exact .of_keep (fun _ _ hx => hx) (fun i hi hi' => absurd hi hi') (fun _ he => by cases he)
  | refuse hostname i m s hm hres hsame =>
    exact .of_keep (fun q x hx => (hsame.sources q).trans hx) (fun i hi hi' => absurd hi hi')
      (fun _ he => by cases he)
  | wait hostname i m s hm hres hwait =>
    obtain ⟨q, hq, hsource, -⟩ := hwait.source
    refine .of_keep (fun q' x hx => ?_) (fun i hi hi' => absurd hi hi') (fun _ he => by cases he)
    refine (hsource q').trans ?_
    rw [if_neg, hx]
    rintro rfl
    rw [hq] at hx
    cases hx
  | serve hostname i m s x hm hres hserve =>
    have hget := (hr.acquire hm).2.get
    refine .of_keep (fun q' y hy => ?_) (fun j hj hj' => ?_) (fun _ he => by cases he)
    · rw [← hserve.dnsSourceRequestPool] at hy
      exact hy
    · rcases List.mem_append.1 hj with hj | hj
      · exact absurd hj hj'
      · rw [List.mem_singleton.1 hj]
        exact ⟨_, (FuturePoolManager.get_setReady hget _ i).trans (if_pos rfl), rfl⟩
  | finish p a4List a6List =>
    refine .of_keep (fun q x hx => ?_) (fun i hi hi' => absurd hi hi') (fun _ he => by cases he)
    rcases finishRequest_eq r.service p a4List a6List with heq | ⟨-, y, -, heq⟩ <;>
    · rw [heq]
      exact hx
  | tick nowMS s answers hok hticks =>
    refine ⟨fun q x hx hgone => ?_, fun i hi hi' => ?_, fun T k htick hun hk => ?_⟩
    · have hnot := (hr.awaited x.futureHandle ⟨q, x, hx, rfl⟩).2
      change x.futureHandle ∈ r.readied ++ answers.map Prod.fst ↔ _
      rw [List.mem_append, or_iff_right hnot, hticks.settles.mem_iff, alive, Option.isSome_iff_exists]
      exact and_iff_left ⟨q, x, hx, hgone, rfl⟩
    · rcases List.mem_append.1 hi with hmem | hmem
      · exact absurd hmem hi'
      · have hlive := (hticks.settles.mem_iff.1 hmem).1
        obtain ⟨f, hf⟩ := Option.isSome_iff_exists.1 hlive
        have hall := FuturePoolManager.get_setReadyAll r.futures answers i
        rw [hf, Option.map_some, Option.map_eq_some_iff] at hall
        obtain ⟨g, hg, -⟩ := hall
        exact ⟨g, hg, (ht.isReady i g hg).2 hi⟩
    · obtain ⟨m, hm, -⟩ := hun
      obtain ⟨m', hm', hfin, -⟩ := hticks.finished k hk ⟨m, hm⟩
      exact ⟨m', hm', hfin⟩

/-! ## Runs -/

/-- The law of coalescing, of the run on the events `es` from `r`. -/
structure CoalescesAlong (r : DnsRun) (es : List DnsEvent) : Prop where
  runs : ∃ t, exec step r es = .ok t
  coalesces : ∀ t, Visits step r es t → Coalesces t
  turns : ∀ pre e t u, pre ++ [e] <+: es → exec step r pre = .ok t → step t e = .ok u →
    TakesTurns t e u
  /-- A request refused leaves the pools, the map and the lists. -/
  refused : ∀ t, Visits step r es t → ∀ hostname i s,
    t.service.resolveDns hostname i = .ok (s, none) → SameContents t.service s
  /-- A lookup that takes too long comes to an end, too, if the time does not go back. -/
  timedOut : Along step NonDecreasing r es → ∀ pre nowMS t u h m, pre ++ [.tick nowMS] <+: es →
    exec step r pre = .ok t → step t (.tick nowMS) = .ok u → t.service.cacheMap h = some m →
    m.queryFinished = false → m.timestampMS + dnsQueryTimeoutMS ≤ nowMS → u.service.IsFinished h

theorem sameContents_of_refused (hs : Consistent s) {hostname : Bytes} {i : ℕ}
    (hres : s.resolveDns hostname i = .ok (s', none)) : SameContents s s' := by
  rcases resolveDns_spec hs hostname i with ⟨t, ht, hsame⟩ | ⟨t, ht, -⟩ | ⟨t, x, ht, -⟩
  · rw [ht] at hres
    cases hres
    exact hsame
  · rw [ht] at hres
    cases hres
  · rw [ht] at hres
    cases hres

/-- In every run none of whose ticks takes a node under way, a host name is looked up once, and every
    request accepted waits at a node under way or was completed, once, when its turn came, unless
    its future had been released; a request refused leaves the service as it was. In a run in which
    the time does not go back, this is so only then. -/
theorem coalesces_iff (n nowMS : ℕ) (es : List DnsEvent) :
    (Along step TickTakesNone (init n nowMS) es → CoalescesAlong (init n nowMS) es) ∧
      (Along step NonDecreasing (init n nowMS) es → CoalescesAlong (init n nowMS) es →
        Along step TickTakesNone (init n nowMS) es) := by
  constructor
  · intro hnone
    have hlisted : ∀ pre t, pre <+: es → exec step (init n nowMS) pre = .ok t →
        Accounted t ∧ Listed t.service := fun pre t hpre ht =>
      exec_invariant_along (I := fun r => Accounted r ∧ Listed r.service)
        (fun _ e _ hr he hstep => ⟨step_accounted hr.1 e hstep, step_listed hr.1 hr.2 e he hstep⟩)
        ⟨init_accounted n nowMS, init_listed nowMS⟩ (hnone.of_prefix hpre) ht
    refine ⟨exists_exec n nowMS es, ?_, ?_, ?_, ?_⟩
    · rintro t ⟨pre, hpre, ht⟩
      obtain ⟨hr, hl⟩ := hlisted pre t hpre ht
      exact hr.coalesces hl
    · exact fun pre e t u _ ht hu => step_takesTurns (accounted_of_exec ht) e hu
    · rintro t ⟨pre, -, ht⟩ hostname i s hres
      exact sameContents_of_refused (accounted_of_exec ht).consistent hres
    · intro hmono pre T t u h m hpre ht hu hm hun hdue
      have hpre' := (List.prefix_append pre _).trans hpre
      obtain ⟨hr, hs⟩ := timed_of_exec (hmono.of_prefix hpre') ht
      cases step_move hr hu with
      | tick _ s answers hok hticks =>
        exact isFinished_of_timedOut hs (hlisted pre t hpre' ht).2
          (along_iff.1 hmono pre _ t hpre ht) hticks hm hun hdue
  · intro hmono hlaw
    rw [along_iff]
    intro pre e t hpre ht
    obtain ⟨hr, hs⟩ := timed_of_exec (hmono.of_prefix ((List.prefix_append pre [e]).trans hpre)) ht
    cases e with
    | tick T =>
      obtain ⟨u, hu⟩ := exists_step hr (.tick T)
      have hcoal := hlaw.coalesces u ⟨_, hpre, (exec_snoc _ ht).trans hu⟩
      cases step_move hr hu with
      | tick _ s answers hok hticks =>
        refine takesNone_of_staysListed hs hr.consistent (along_iff.1 hmono pre _ t hpre ht) hticks ?_
        rintro k - ⟨m, hm, hun⟩
        exact (hcoal.listed k m hm).2 hun
    | _ => trivial

/-- Three requests for a host name and one for another: two wait for the answer, one of them is
    gone when it comes, one is answered from the cache, and the other lookup takes too long. -/
def requestsForTwoHosts : List DnsEvent :=
  [.resolveDns [97], .resolveDns [97], .resolveDns [98], .releaseFuture 2,
    .finishRequest 1 [{ type := .ipv4, bytes := [10, 0, 0, 1] }] [], .tick 2701000,
    .resolveDns [97], .popReady, .tick 2706000, .finishRequest 2 [] [], .tick 2707000]

theorem coalesces_requestsForTwoHosts :
    Along step TickTakesNone (init 8 2700000) requestsForTwoHosts ∧
      CoalescesAlong (init 8 2700000) requestsForTwoHosts ∧
      ∃ t, exec step (init 8 2700000) requestsForTwoHosts = .ok t ∧
        t.accepted = [1, 2, 3, 4] ∧ t.readied = [1, 4, 3] ∧ t.issued = [[97], [98]] := by
  have hnone : Along step TickTakesNone (init 8 2700000) requestsForTwoHosts :=
    along_of_check (by decide +kernel)
  obtain ⟨t, ht, hlogs⟩ := exists_ok_of_check (x := exec step (init 8 2700000) requestsForTwoHosts)
    (p := fun t => decide (t.accepted = [1, 2, 3, 4] ∧ t.readied = [1, 4, 3] ∧
      t.issued = [[97], [98]])) (by decide +kernel)
  exact ⟨hnone, (coalesces_iff 8 2700000 requestsForTwoHosts).1 hnone, t, ht, of_decide_eq_true hlogs⟩

/-- A lookup that takes too long, ten seconds after the start of the clock. -/
def lookupPostponed : List DnsEvent := [.resolveDns [97], .tick 11000, .tick 20000]

/-- The law does not hold in every run: a node under way is not in the list, and is not finished when
    its lookup takes too long. -/
theorem coalesces_counterexample :
    Along step NonDecreasing (init 8 10000) lookupPostponed ∧
      ¬CoalescesAlong (init 8 10000) lookupPostponed := by
  refine ⟨along_of_check (by decide +kernel), fun hlaw => ?_⟩
  obtain ⟨t, ht, hcheck⟩ := exists_ok_of_check (x := exec step (init 8 10000) lookupPostponed)
    (p := fun t => (t.service.cacheMap [97]).any fun m =>
      !m.queryFinished && decide ([97] ∉ t.service.cacheRequestTimeoutList)) (by decide +kernel)
  rw [Option.any_eq_true] at hcheck
  obtain ⟨m, hm, hcheck⟩ := hcheck
  rw [Bool.and_eq_true, Bool.not_eq_true', decide_eq_true_eq] at hcheck
  have hcoal := hlaw.coalesces t ⟨_, List.prefix_refl _, ht⟩
  exact hcheck.2 ((hcoal.listed [97] m hm).2 hcheck.1)

end DnsRun

end ProxyPlatform
