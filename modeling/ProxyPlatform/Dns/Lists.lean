import ProxyPlatform.Base.RoundRobin
import ProxyPlatform.Dns.Basic

/-!
# The lists of the DNS service

A cache node is in one of two lists. Those in `CacheRequestTimeoutList` are under way, as are
those that have source requests, and every source request waits at a node (`Consistent`).

* `Settles`: the source requests that go are those answered, each once and only if its
  future is still live;
* `finishQuery_spec`: the end of a query moves its node, and settles its source requests;
* `Ends`: what the passes of a tick do that end queries, one after the other;
* `Postpones`: what the last pass does, which takes nodes under way off their list: its
  `assert`s fail for each of them;
* `tick_spec`: what a tick does.
-/

namespace ProxyPlatform

namespace DnsLocalService

variable {alive : ℕ → Bool} {s t u : DnsLocalService} {h : Bytes}

/-- The query of the host name `h` is under way. -/
def IsUnfinished (s : DnsLocalService) (h : Bytes) : Prop :=
  ∃ n, s.cacheMap h = some n ∧ n.queryFinished = false

/-- The query of the host name `h` came to an end. -/
def IsFinished (s : DnsLocalService) (h : Bytes) : Prop :=
  ∃ n, s.cacheMap h = some n ∧ n.queryFinished = true

theorem IsFinished.not_isUnfinished (hs : s.IsFinished h) : ¬s.IsUnfinished h := by
  obtain ⟨n, hn, hf⟩ := hs
  rintro ⟨m, hm, hu⟩
  rw [hn, Option.some_inj] at hm
  rw [← hm, hf] at hu
  exact absurd hu (by decide)

/-- The nodes are in the lists, and so are the source requests. -/
structure Consistent (s : DnsLocalService) : Prop where
  unfinished : ∀ h ∈ s.cacheRequestTimeoutList, s.IsUnfinished h
  listed : ∀ h, (∃ n, s.cacheMap h = some n) ↔
    h ∈ s.cacheRequestTimeoutList ∨ h ∈ s.cacheTimeoutList
  nodup : s.cacheRequestTimeoutList.Nodup
  result : ∀ h n, s.cacheMap h = some n → n.result.isSome = n.queryFinished
  live : ∀ q, (∃ r, s.dnsSourceRequestPool.get q = some r) ↔ s.pendingSourceRequestList.IsLinked q
  pending : ∀ h q, q ∈ s.pendingSourceRequestList.nodes h → s.IsUnfinished h

theorem init_consistent (nowMS : ℕ) : Consistent (init nowMS) where
  unfinished _ hh := absurd hh List.not_mem_nil
  listed h := ⟨fun ⟨_, hn⟩ => (by cases hn), fun hh => by rcases hh with hh | hh <;> cases hh⟩
  nodup := List.nodup_nil
  result _ _ hn := by cases hn
  live q := ⟨fun ⟨_, hr⟩ => (by cases hr), fun ⟨_, hq⟩ => absurd hq List.not_mem_nil⟩
  pending _ _ hq := absurd hq List.not_mem_nil

theorem Consistent.asserting (hs : Consistent s) (holds : Bool) : Consistent (s.asserting holds) :=
  ⟨hs.unfinished, hs.listed, hs.nodup, hs.result, hs.live, hs.pending⟩

/-- A finished node is in the list of those. -/
theorem Consistent.mem_of_isFinished (hs : Consistent s) (hh : s.IsFinished h) :
    h ∈ s.cacheTimeoutList := by
  obtain ⟨n, hn, -⟩ := id hh
  rcases (hs.listed h).1 ⟨n, hn⟩ with hmem | hmem
  · exact absurd (hs.unfinished h hmem) hh.not_isUnfinished
  · exact hmem

/-! ## Source requests that go -/

/-- The source requests of `p` that are not in `p'` were answered: the future of each, once, if it
    is live. -/
def Settles (alive : ℕ → Bool) (p p' : Storage DnsLocalSourceRequestNode) (futures : List ℕ) :
    Prop :=
  ∃ l : List (ℕ × DnsLocalSourceRequestNode), (l.map Prod.fst).Nodup ∧
    (∀ x ∈ l, p.get x.1 = some x.2) ∧
    (∀ q, p'.get q = if q ∈ l.map Prod.fst then none else p.get q) ∧
    futures = (l.map fun x => x.2.futureHandle).filter alive

theorem Settles.refl (p : Storage DnsLocalSourceRequestNode) : Settles alive p p [] :=
  ⟨[], List.nodup_nil, fun _ hx => absurd hx List.not_mem_nil, fun _ => by simp, rfl⟩

theorem Settles.trans {p₁ p₂ p₃ : Storage DnsLocalSourceRequestNode} {f f' : List ℕ}
    (h : Settles alive p₁ p₂ f) (h' : Settles alive p₂ p₃ f') : Settles alive p₁ p₃ (f ++ f') := by
  obtain ⟨l, hl, hget, hp, rfl⟩ := h
  obtain ⟨l', hl', hget', hp', rfl⟩ := h'
  have hold : ∀ x ∈ l', x.1 ∉ l.map Prod.fst ∧ p₁.get x.1 = some x.2 := by
    intro x hx
    have hx := hget' x hx
    rw [hp] at hx
    split at hx
    · cases hx
    · next hn => exact ⟨hn, hx⟩
  refine ⟨l ++ l', ?_, ?_, ?_, ?_⟩
  · rw [List.map_append]
    refine List.nodup_append.2 ⟨hl, hl', ?_⟩
    rintro q hq _ hq' rfl
    obtain ⟨x, hx, rfl⟩ := List.mem_map.1 hq'
    exact (hold x hx).1 hq
  · intro x hx
    rcases List.mem_append.1 hx with hx | hx
    · exact hget x hx
    · exact (hold x hx).2
  · intro q
    rw [hp', hp, List.map_append]
    by_cases hq : q ∈ l.map Prod.fst <;> by_cases hq' : q ∈ l'.map Prod.fst <;>
      simp only [hq, hq', List.mem_append, or_true, or_false, if_true, if_false]
  · rw [List.map_append, List.filter_append]

/-- A source request that is left was there. -/
theorem Settles.get {p p' : Storage DnsLocalSourceRequestNode} {f : List ℕ}
    (h : Settles alive p p' f) {q : ℕ} {r : DnsLocalSourceRequestNode} (hq : p'.get q = some r) :
    p.get q = some r := by
  obtain ⟨l, -, -, hp, -⟩ := h
  rw [hp] at hq
  split at hq
  · cases hq
  · exact hq

/-- The futures answered are those, still live, of the source requests that go. -/
theorem Settles.mem_iff {p p' : Storage DnsLocalSourceRequestNode} {f : List ℕ}
    (h : Settles alive p p' f) {i : ℕ} :
    i ∈ f ↔ alive i = true ∧ ∃ q r, p.get q = some r ∧ p'.get q = none ∧ r.futureHandle = i := by
  obtain ⟨l, -, hget, hp, rfl⟩ := h
  rw [List.mem_filter, List.mem_map]
  constructor
  · rintro ⟨⟨x, hx, rfl⟩, ha⟩
    exact ⟨ha, x.1, x.2, hget x hx, by rw [hp, if_pos (List.mem_map_of_mem hx)], rfl⟩
  · rintro ⟨ha, q, r, hq, hq', rfl⟩
    rw [hp] at hq'
    split at hq'
    · next hmem =>
      obtain ⟨x, hx, rfl⟩ := List.mem_map.1 hmem
      rw [hget x hx, Option.some_inj] at hq
      exact ⟨⟨x, hx, by rw [hq]⟩, ha⟩
    · rw [hq] at hq'
      cases hq'

/-- No future is answered twice, if no two source requests are for one. -/
theorem Settles.nodup {p p' : Storage DnsLocalSourceRequestNode} {f : List ℕ}
    (h : Settles alive p p' f)
    (hinj : ∀ q q' r r', p.get q = some r → p.get q' = some r' →
      r.futureHandle = r'.futureHandle → q = q') : f.Nodup := by
  obtain ⟨l, hl, hget, -, rfl⟩ := h
  refine List.Nodup.filter _ (List.Nodup.map_on ?_ hl.of_map)
  intro x hx y hy hxy
  have hfst := hinj _ _ _ _ (hget x hx) (hget y hy) hxy
  have hsnd := hget x hx
  rw [hfst, hget y hy, Option.some_inj] at hsnd
  exact Prod.ext hfst hsnd.symm

/-! ## The end of a query -/

variable (alive) in
/-- The loop over source requests `l` that are live takes them out, and settles them, each with what
    the next call of `pick` returns. -/
theorem foldl_answerSourceRequest
    (pick : DnsLocalCacheResult → Option DnsResult × DnsLocalCacheResult) {l : List ℕ}
    (hl : l.Nodup) (hlive : ∀ q ∈ l, ∃ r, s.dnsSourceRequestPool.get q = some r)
    (c : DnsLocalCacheResult) (a : List DnsAnswer) :
    ∃ a', l.foldl (answerSourceRequest pick alive) (s, c, a) =
      ({ s with
        pendingSourceRequestList := l.foldl Linked.unlink s.pendingSourceRequestList
        dnsSourceRequestPool := l.foldl Storage.release s.dnsSourceRequestPool },
        afterCalls pick a'.length c, a ++ a') ∧
      a'.map Prod.snd = (calls pick a'.length c).map Prod.fst ∧
      Settles alive s.dnsSourceRequestPool (l.foldl Storage.release s.dnsSourceRequestPool)
        (a'.map Prod.fst) := by
  induction l generalizing s c a with
  | nil => exact ⟨[], by simp, rfl, .refl _⟩
  | cons q l ih =>
    obtain ⟨hq, hl⟩ := List.nodup_cons.1 hl
    obtain ⟨r, hr⟩ := hlive q List.mem_cons_self
    let s₁ : DnsLocalService := { s with
      pendingSourceRequestList := s.pendingSourceRequestList.unlink q
      dnsSourceRequestPool := s.dnsSourceRequestPool.release q }
    have hlive₁ : ∀ q' ∈ l, ∃ r', s₁.dnsSourceRequestPool.get q' = some r' := by
      intro q' hq'
      obtain ⟨r', hr'⟩ := hlive q' (List.mem_cons_of_mem _ hq')
      refine ⟨r', ?_⟩
      change (s.dnsSourceRequestPool.release q).get q' = some r'
      rw [Storage.get_release, if_neg (ne_of_mem_of_not_mem hq' hq), hr']
    -- The turn on `q`, with the future that it answers.
    obtain ⟨a₁, hturn, hpick, hsettle⟩ : ∃ a₁,
        answerSourceRequest pick alive (s, c, a) q = (s₁, afterCalls pick a₁.length c, a ++ a₁) ∧
        a₁.map Prod.snd = (calls pick a₁.length c).map Prod.fst ∧
        a₁.map Prod.fst = [r.futureHandle].filter alive := by
      simp only [answerSourceRequest, hr]
      by_cases ha : alive r.futureHandle = true
      · refine ⟨[(r.futureHandle, (pick c).1)], by rw [if_pos ha]; rfl, rfl, ?_⟩
        simp [ha]
      · refine ⟨[], by rw [if_neg ha, List.append_nil]; rfl, rfl, ?_⟩
        simp [ha]
    obtain ⟨a', hrest, hpicks, hsettles⟩ := ih hl hlive₁ (afterCalls pick a₁.length c) (a ++ a₁)
    refine ⟨a₁ ++ a', ?_, ?_, ?_⟩
    · rw [List.foldl_cons, hturn, hrest, List.append_assoc, List.length_append, afterCalls_add]
      rfl
    · rw [List.map_append, List.length_append, calls_add, List.map_append, hpick, hpicks]
    · have hone : Settles alive s.dnsSourceRequestPool s₁.dnsSourceRequestPool (a₁.map Prod.fst) := by
        refine ⟨[(q, r)], List.nodup_singleton q, ?_, fun q' => ?_, hsettle⟩
        · intro x hx
          rw [List.mem_singleton.1 hx]
          exact hr
        · change (s.dnsSourceRequestPool.release q).get q' = _
          rw [Storage.get_release, List.map_cons, List.map_nil]
          exact if_congr List.mem_singleton.symm rfl rfl
      rw [List.map_append]
      exact hone.trans hsettles

/-- What the end of the query of `h` does. -/
structure Finishes (alive : ℕ → Bool) (s : DnsLocalService) (h : Bytes) (t : DnsLocalService)
    (answers : List DnsAnswer) : Prop where
  localTicker : t.localTicker = s.localTicker
  requestList : t.requestList = s.requestList
  requestFinishedList : t.requestFinishedList = s.requestFinishedList
  dnsRequestPool : t.dnsRequestPool = s.dnsRequestPool
  failedAsserts : t.failedAsserts = s.failedAsserts
  cacheMap : ∃ n, n.queryFinished = true ∧ n.timestampMS = s.localTicker ∧ n.result.isSome = true ∧
    t.cacheMap = Function.update s.cacheMap h (some n)
  cacheRequestTimeoutList :
    t.cacheRequestTimeoutList = s.cacheRequestTimeoutList.filter (· ≠ h)
  cacheTimeoutList : t.cacheTimeoutList = s.cacheTimeoutList.filter (· ≠ h) ++ [h]
  pending : ∀ q h', q ∈ t.pendingSourceRequestList.nodes h' ↔
    q ∉ s.pendingSourceRequestList.nodes h ∧ q ∈ s.pendingSourceRequestList.nodes h'
  sources : ∀ q, t.dnsSourceRequestPool.get q =
    if q ∈ s.pendingSourceRequestList.nodes h then none else s.dnsSourceRequestPool.get q
  settles : Settles alive s.dnsSourceRequestPool t.dnsSourceRequestPool (answers.map Prod.fst)

variable (alive) in
theorem finishQuery_spec (hs : Consistent s)
    (pick : DnsLocalCacheResult → Option DnsResult × DnsLocalCacheResult) (h : Bytes)
    (n : DnsLocalCacheNode) (c : DnsLocalCacheResult) :
    Finishes alive s h (finishQuery pick alive s h n c).1 (finishQuery pick alive s h n c).2 := by
  let s₁ : DnsLocalService := { s with
    cacheRequestTimeoutList := s.cacheRequestTimeoutList.filter (· ≠ h)
    cacheTimeoutList := s.cacheTimeoutList.filter (· ≠ h) ++ [h] }
  have hlive : ∀ q ∈ s.pendingSourceRequestList.nodes h,
      ∃ r, s₁.dnsSourceRequestPool.get q = some r := fun q hq => (hs.live q).2 ⟨h, hq⟩
  obtain ⟨a, hfold, -, hsettles⟩ := foldl_answerSourceRequest alive pick
    (s.pendingSourceRequestList.nodup h) hlive c []
  unfold finishQuery
  change Finishes alive s h (_, _).1 (_, _).2
  simp only [s₁] at hfold
  simp only [hfold]
  exact {
    localTicker := rfl
    requestList := rfl
    requestFinishedList := rfl
    dnsRequestPool := rfl
    failedAsserts := rfl
    cacheMap := ⟨_, rfl, rfl, rfl, rfl⟩
    cacheRequestTimeoutList := rfl
    cacheTimeoutList := rfl
    pending := fun q h' => Linked.mem_foldl_unlink
    sources := fun q => Storage.get_foldl_release _ _ q
    settles := hsettles }

variable (alive) in
/-- The answers at the end of a query are calls of `pick`, and the node is left with what they leave
    of the result. -/
theorem finishQuery_calls (hs : Consistent s)
    (pick : DnsLocalCacheResult → Option DnsResult × DnsLocalCacheResult) (h : Bytes)
    (n : DnsLocalCacheNode) (c : DnsLocalCacheResult) :
    ∃ t a m, finishQuery pick alive s h n c = (t, a) ∧ t.cacheMap h = some m ∧
      m.queryFinished = true ∧ m.result = some (afterCalls pick a.length c) ∧
      a.map Prod.snd = (calls pick a.length c).map Prod.fst := by
  let s₁ : DnsLocalService := { s with
    cacheRequestTimeoutList := s.cacheRequestTimeoutList.filter (· ≠ h)
    cacheTimeoutList := s.cacheTimeoutList.filter (· ≠ h) ++ [h] }
  obtain ⟨a, hfold, hcalls, -⟩ := foldl_answerSourceRequest (s := s₁) alive pick
    (s.pendingSourceRequestList.nodup h) (fun q hq => (hs.live q).2 ⟨h, hq⟩) c []
  unfold finishQuery
  simp only [s₁] at hfold
  simp only [hfold]
  exact ⟨_, _, _, rfl, Function.update_self h _ _, rfl, rfl, hcalls⟩

/-- The end of a query keeps the service consistent. -/
theorem Finishes.consistent {a : List DnsAnswer} (hf : Finishes alive s h t a) (hs : Consistent s) :
    Consistent t := by
  obtain ⟨m, hm, -, hres, hmap⟩ := hf.cacheMap
  have hself : t.cacheMap h = some m := by rw [hmap, Function.update_self]
  have hother : ∀ h', h' ≠ h → t.cacheMap h' = s.cacheMap h' := fun h' hne => by
    rw [hmap, Function.update_of_ne hne]
  have hsame : ∀ h', h' ≠ h → (t.IsUnfinished h' ↔ s.IsUnfinished h') := fun h' hne => by
    simp only [IsUnfinished, hother h' hne]
  refine ⟨fun h' hh' => ?_, fun h' => ?_, ?_, fun h' n hn => ?_, fun q => ?_, fun h' q hq => ?_⟩
  · rw [hf.cacheRequestTimeoutList, List.mem_filter, decide_eq_true_eq] at hh'
    exact (hsame h' hh'.2).2 (hs.unfinished h' hh'.1)
  · rw [hf.cacheRequestTimeoutList, hf.cacheTimeoutList, List.mem_append, List.mem_singleton]
    by_cases hne : h' = h
    · exact iff_of_true ⟨m, hne ▸ hself⟩ (.inr (.inr hne))
    · rw [hother h' hne, hs.listed, List.mem_filter, List.mem_filter]
      simp [hne]
  · rw [hf.cacheRequestTimeoutList]
    exact hs.nodup.filter _
  · by_cases hne : h' = h
    · subst hne
      rw [hself, Option.some_inj] at hn
      rw [← hn, hres, hm]
    · rw [hother h' hne] at hn
      exact hs.result h' n hn
  · rw [hf.sources]
    by_cases hq : q ∈ s.pendingSourceRequestList.nodes h
    · rw [if_pos hq]
      exact iff_of_false (fun ⟨_, hr⟩ => (by cases hr)) fun ⟨h', hq'⟩ => ((hf.pending q h').1 hq').1 hq
    · rw [if_neg hq, hs.live]
      simp only [Linked.IsLinked, hf.pending, hq, not_false_eq_true, true_and]
  · obtain ⟨hq, hq'⟩ := (hf.pending q h').1 hq
    have hne : h' ≠ h := by
      rintro rfl
      exact hq hq'
    exact (hsame h' hne).2 (hs.pending h' q hq')

/-! ## The passes of a tick -/

/-- What the passes of a tick do to the service. -/
structure Advance (alive : ℕ → Bool) (s t : DnsLocalService) (answers : List DnsAnswer) :
    Prop where
  localTicker : t.localTicker = s.localTicker
  requestList : t.requestList = s.requestList
  cacheMap : ∀ h, t.cacheMap h = s.cacheMap h ∨ (∃ n, s.cacheMap h = some n) ∧
    ∃ n, t.cacheMap h = some n ∧ n.queryFinished = true ∧ n.timestampMS = s.localTicker
  sublist : t.cacheRequestTimeoutList.Sublist s.cacheRequestTimeoutList
  settles : Settles alive s.dnsSourceRequestPool t.dnsSourceRequestPool (answers.map Prod.fst)

theorem Advance.refl (s : DnsLocalService) : Advance alive s s [] where
  localTicker := rfl
  requestList := rfl
  cacheMap _ := .inl rfl
  sublist := .refl _
  settles := .refl _

theorem Advance.trans {a b : List DnsAnswer} (h : Advance alive s t a) (h' : Advance alive t u b) :
    Advance alive s u (a ++ b) where
  localTicker := h'.localTicker.trans h.localTicker
  requestList := h'.requestList.trans h.requestList
  cacheMap k := by
    rcases h'.cacheMap k with hk' | ⟨⟨m, hm⟩, n, hn, hfin, hts⟩
    · rw [hk']
      exact h.cacheMap k
    · refine .inr ⟨?_, n, hn, hfin, hts.trans h.localTicker⟩
      rcases h.cacheMap k with hk | ⟨hk, -⟩
      · exact ⟨m, hk ▸ hm⟩
      · exact hk
  sublist := h'.sublist.trans h.sublist
  settles := by
    rw [List.map_append]
    exact h.settles.trans h'.settles

/-- A node that is there stays. -/
theorem Advance.isSome {a : List DnsAnswer} (h : Advance alive s t a) {k : Bytes}
    (hk : ∃ n, s.cacheMap k = some n) : ∃ n, t.cacheMap k = some n := by
  rcases h.cacheMap k with hk' | ⟨-, n, hn, -⟩
  · rwa [hk']
  · exact ⟨n, hn⟩

/-- A node that is still under way was not touched. -/
theorem Advance.cacheMap_eq {a : List DnsAnswer} (h : Advance alive s t a) {k : Bytes}
    (hk : t.IsUnfinished k) : t.cacheMap k = s.cacheMap k := by
  rcases h.cacheMap k with heq | ⟨-, n, hn, hfin, -⟩
  · exact heq
  · exact absurd hk (IsFinished.not_isUnfinished ⟨n, hn, hfin⟩)

theorem Advance.isUnfinished {a : List DnsAnswer} (h : Advance alive s t a) {k : Bytes}
    (hk : t.IsUnfinished k) : s.IsUnfinished k := by
  simpa only [IsUnfinished, h.cacheMap_eq hk] using hk

/-- What the passes do that end queries: those that are still under way stay in the list. -/
structure Ends (alive : ℕ → Bool) (s t : DnsLocalService) (answers : List DnsAnswer) :
    Prop extends Advance alive s t answers where
  failedAsserts : t.failedAsserts = s.failedAsserts
  kept : ∀ h ∈ s.cacheRequestTimeoutList, t.IsUnfinished h → h ∈ t.cacheRequestTimeoutList

theorem Ends.refl (s : DnsLocalService) : Ends alive s s [] where
  toAdvance := .refl s
  failedAsserts := rfl
  kept _ hh _ := hh

theorem Ends.trans {a b : List DnsAnswer} (h : Ends alive s t a) (h' : Ends alive t u b) :
    Ends alive s u (a ++ b) where
  toAdvance := h.toAdvance.trans h'.toAdvance
  failedAsserts := h'.failedAsserts.trans h.failedAsserts
  kept k hk hun := h'.kept k (h.kept k hk (h'.isUnfinished hun)) hun

theorem Finishes.ends {a : List DnsAnswer} (hf : Finishes alive s h t a)
    (hh : ∃ n, s.cacheMap h = some n) : Ends alive s t a where
  failedAsserts := hf.failedAsserts
  kept k hk hun := by
    rw [hf.cacheRequestTimeoutList, List.mem_filter]
    refine ⟨hk, decide_eq_true ?_⟩
    rintro rfl
    obtain ⟨n, hfin, -, -, hmap⟩ := hf.cacheMap
    exact IsFinished.not_isUnfinished ⟨n, by rw [hmap, Function.update_self], hfin⟩ hun
  localTicker := hf.localTicker
  requestList := hf.requestList
  cacheMap k := by
    obtain ⟨n, hfin, hts, -, hmap⟩ := hf.cacheMap
    by_cases hk : k = h
    · subst hk
      exact .inr ⟨hh, n, by rw [hmap, Function.update_self], hfin, hts⟩
    · exact .inl (by rw [hmap, Function.update_of_ne hk])
  sublist := by
    rw [hf.cacheRequestTimeoutList]
    exact List.filter_sublist
  settles := hf.settles

/-- What `DispatchResolveResults` does with the requests `l`: each ends the query of its host name,
    and no other. -/
structure Dispatches (alive : ℕ → Bool) (s : DnsLocalService) (l : List ℕ) (t : DnsLocalService)
    (answers : List DnsAnswer) : Prop extends Ends alive s t answers where
  requestFinishedList : t.requestFinishedList = s.requestFinishedList
  dnsRequestPool : t.dnsRequestPool = l.foldl Storage.release s.dnsRequestPool
  finished : ∀ p ∈ l, ∀ r, s.dnsRequestPool.get p = some r → (∃ n, s.cacheMap r.hostname = some n) →
    ∃ n, t.cacheMap r.hostname = some n ∧ n.queryFinished = true ∧ n.timestampMS = s.localTicker
  others : ∀ h, (∀ p ∈ l, ∀ r, s.dnsRequestPool.get p = some r → r.hostname ≠ h) →
    t.cacheMap h = s.cacheMap h

variable (alive) in
/-- A turn of `DispatchResolveResults`, on a request that is live. -/
theorem dispatchResolveResult_spec (hs : Consistent s) {p : ℕ} {request : DnsRequestNode}
    (hp : s.dnsRequestPool.get p = some request) (a : List DnsAnswer) :
    ∃ t b, dispatchResolveResult alive (s, a) p = (t, a ++ b) ∧ Consistent t ∧
      Dispatches alive s [p] t b := by
  let s₁ : DnsLocalService := { s with onGoingDnsRequestCount := s.onGoingDnsRequestCount - 1 }
  have hs₁ : Consistent s₁ := ⟨hs.unfinished, hs.listed, hs.nodup, hs.result, hs.live, hs.pending⟩
  have hrequest : ∀ r, (∃ q ∈ [p], s.dnsRequestPool.get q = some r) → r = request := by
    rintro r ⟨q, hq, hr⟩
    rw [List.mem_singleton.1 hq, hp, Option.some_inj] at hr
    exact hr.symm
  simp only [dispatchResolveResult, hp]
  split
  · next hnone =>
    refine ⟨_, [], rfl, ?_, ⟨⟨⟨rfl, rfl, fun _ => .inl rfl, .refl _, .refl _⟩, rfl, fun _ hh _ => hh⟩,
      rfl, rfl, ?_, fun _ _ => rfl⟩⟩
    · exact ⟨hs.unfinished, hs.listed, hs.nodup, hs.result, hs.live, hs.pending⟩
    · rintro q hq r hr ⟨n, hn⟩
      rw [hrequest r ⟨q, hq, hr⟩, show s.cacheMap request.hostname = none from hnone] at hn
      cases hn
  · next n hn =>
    have hf := finishQuery_spec alive hs₁ pickFinished request.hostname n
      { a4List := request.a4List, a6List := request.a6List }
    have hends := hf.ends ⟨n, hn⟩
    have hc := hf.consistent hs₁
    obtain ⟨m, hfin, hts, -, hmap⟩ := hf.cacheMap
    refine ⟨_, _, rfl, ?_, ⟨?_, hf.requestFinishedList, congrArg (·.release p) hf.dnsRequestPool,
      ?_, ?_⟩⟩
    · exact ⟨hc.unfinished, hc.listed, hc.nodup, hc.result, hc.live, hc.pending⟩
    · exact ⟨⟨hends.localTicker, hends.requestList, hends.cacheMap, hends.sublist, hends.settles⟩,
        hends.failedAsserts, hends.kept⟩
    · rintro q hq r hr -
      rw [hrequest r ⟨q, hq, hr⟩]
      exact ⟨m, by rw [hmap, Function.update_self], hfin, hts⟩
    · intro h hother
      change (finishQuery pickFinished alive s₁ request.hostname n _).1.cacheMap h = s₁.cacheMap h
      rw [hmap, Function.update_of_ne (hother p List.mem_cons_self request hp).symm]

variable (alive) in
theorem foldl_dispatchResolveResult (hs : Consistent s) {l : List ℕ} (hl : l.Nodup)
    (hlive : ∀ p ∈ l, ∃ r, s.dnsRequestPool.get p = some r) (a : List DnsAnswer) :
    ∃ t b, l.foldl (dispatchResolveResult alive) (s, a) = (t, a ++ b) ∧ Consistent t ∧
      Dispatches alive s l t b := by
  induction l generalizing s a with
  | nil =>
    exact ⟨s, [], by simp, hs, ⟨.refl s, rfl, rfl, fun p hp => absurd hp List.not_mem_nil,
      fun _ _ => rfl⟩⟩
  | cons p l ih =>
    obtain ⟨hp, hl⟩ := List.nodup_cons.1 hl
    obtain ⟨r, hr⟩ := hlive p List.mem_cons_self
    obtain ⟨s₁, a₁, hturn, hs₁, hd⟩ := dispatchResolveResult_spec alive hs hr a
    have hget : ∀ q ∈ l, s₁.dnsRequestPool.get q = s.dnsRequestPool.get q := by
      intro q hq
      rw [hd.dnsRequestPool, Storage.get_foldl_release,
        if_neg (by rw [List.mem_singleton]; exact ne_of_mem_of_not_mem hq hp)]
    obtain ⟨t, b, hrest, ht, hd'⟩ := ih hs₁ hl
      (fun q hq => by rw [hget q hq]; exact hlive q (List.mem_cons_of_mem _ hq)) (a ++ a₁)
    refine ⟨t, a₁ ++ b, by rw [List.foldl_cons, hturn, hrest, List.append_assoc], ht,
      ⟨hd.toEnds.trans hd'.toEnds, hd'.requestFinishedList.trans hd.requestFinishedList, ?_, ?_, ?_⟩⟩
    · rw [hd'.dnsRequestPool, hd.dnsRequestPool]
      rfl
    · -- A host name of the first request may be that of a later one, too.
      intro q hq r' hr' hn
      have hlater : (∃ n, s₁.cacheMap r'.hostname = some n ∧ n.queryFinished = true ∧
            n.timestampMS = s.localTicker) → ∃ n, t.cacheMap r'.hostname = some n ∧
          n.queryFinished = true ∧ n.timestampMS = s.localTicker := by
        intro hfirst
        rcases hd'.cacheMap r'.hostname with heq | ⟨-, n, hn, hfin, hts⟩
        · rwa [heq]
        · exact ⟨n, hn, hfin, hts.trans hd.localTicker⟩
      rcases List.mem_cons.1 hq with rfl | hq
      · exact hlater (hd.finished _ List.mem_cons_self r' hr' hn)
      · obtain ⟨n, hn, hfin, hts⟩ := hd'.finished q hq r' (by rw [hget q hq, hr']) (hd.isSome hn)
        exact ⟨n, hn, hfin, hts.trans hd.localTicker⟩
    · intro h hother
      rw [hd'.others h fun q hq r' hr' => hother q (List.mem_cons_of_mem _ hq) r'
        (by rw [← hget q hq, hr'])]
      refine hd.others h fun q hq r' hr' => hother q ?_ r' hr'
      rw [List.mem_singleton.1 hq]
      exact List.mem_cons_self

variable (alive) in
/-- `DispatchResolveResults`. -/
theorem dispatchResolveResults_spec (hs : Consistent s) (hl : s.requestFinishedList.Nodup)
    (hlive : ∀ p ∈ s.requestFinishedList, ∃ r, s.dnsRequestPool.get p = some r) :
    ∃ t b, dispatchResolveResults alive s = (t, b) ∧ Consistent t ∧
      Dispatches alive { s with requestFinishedList := [] } s.requestFinishedList t b := by
  have hs₁ : Consistent { s with requestFinishedList := [] } :=
    ⟨hs.unfinished, hs.listed, hs.nodup, hs.result, hs.live, hs.pending⟩
  exact foldl_dispatchResolveResult alive hs₁ hl hlive []

/-- The query of `h` is as old as the service lets it be. -/
def IsDue (s : DnsLocalService) (timeoutMS : ℕ) (h : Bytes) : Prop :=
  ∃ n, s.cacheMap h = some n ∧ n.timestampMS ≤ sub64 s.localTicker timeoutMS

variable (alive) in
/-- `ProcessRequestTimeoutCacheNodes` ends the queries that are due at the head of the list, and
    no `assert` of it fails. -/
theorem processRequestTimeoutCacheNodes_spec (hs : Consistent s) {l : List Bytes}
    (hl : s.cacheRequestTimeoutList = l) :
    ∃ t a, processRequestTimeoutCacheNodes alive l s = .ok (t, a) ∧ Consistent t ∧
      Ends alive s t a ∧ t.requestFinishedList = s.requestFinishedList ∧
      t.dnsRequestPool = s.dnsRequestPool ∧
      ∃ due, s.cacheRequestTimeoutList = due ++ t.cacheRequestTimeoutList ∧
        (∀ h ∈ due, s.IsDue dnsQueryTimeoutMS h) ∧
        (∀ h, h ∉ due → t.cacheMap h = s.cacheMap h) ∧
        ∀ h l', t.cacheRequestTimeoutList = h :: l' → ¬s.IsDue dnsQueryTimeoutMS h := by
  induction l generalizing s with
  | nil =>
    refine ⟨s, [], rfl, hs, .refl s, rfl, rfl, [], rfl, fun h hh => absurd hh List.not_mem_nil,
      fun _ _ => rfl, fun h l' hl' => ?_⟩
    rw [hl] at hl'
    cases hl'
  | cons h l ih =>
    obtain ⟨n, hn, hun⟩ := hs.unfinished h (by rw [hl]; exact List.mem_cons_self)
    have hres : n.result.isNone = true := by
      rw [← Option.isSome_eq_false_iff, hs.result h n hn, hun]
    simp only [processRequestTimeoutCacheNodes, hn, hun, hres, Bool.not_false, asserting_true]
    by_cases hdue : n.timestampMS ≤ sub64 s.localTicker dnsQueryTimeoutMS
    · have hf := finishQuery_spec alive hs pickTimeout h n {}
      have hs₁ := hf.consistent hs
      have hends := hf.ends ⟨n, hn⟩
      rw [if_pos hdue]
      generalize finishQuery pickTimeout alive s h n {} = x at *
      obtain ⟨s₁, a₁⟩ := x
      have hnodup := hs.nodup
      rw [hl, List.nodup_cons] at hnodup
      have hl₁ : s₁.cacheRequestTimeoutList = l := by
        rw [hf.cacheRequestTimeoutList, hl, List.filter_cons_of_neg (by simp), List.filter_eq_self]
        exact fun k hk => decide_eq_true (ne_of_mem_of_not_mem hk hnodup.1)
      obtain ⟨m, -, -, -, hmap⟩ := hf.cacheMap
      have hother : ∀ k, k ≠ h → s₁.cacheMap k = s.cacheMap k := fun k hk => by
        rw [hmap, Function.update_of_ne hk]
      have hsame : ∀ k ∈ l, (s₁.IsDue dnsQueryTimeoutMS k ↔ s.IsDue dnsQueryTimeoutMS k) := by
        intro k hk
        rw [IsDue, IsDue, hf.localTicker, hother k (ne_of_mem_of_not_mem hk hnodup.1)]
      obtain ⟨t, b, hrest, ht, hends', hfl, hpool, due, hdues, hall, hkeep, hhead⟩ := ih hs₁ hl₁
      rw [hl₁] at hdues
      simp only [hrest]
      refine ⟨t, a₁ ++ b, rfl, ht, hends.trans hends', hfl.trans hf.requestFinishedList,
        hpool.trans hf.dnsRequestPool, h :: due, by rw [hl, hdues]; rfl, ?_, ?_, ?_⟩
      · intro k hk
        rcases List.mem_cons.1 hk with rfl | hk
        · exact ⟨n, hn, hdue⟩
        · exact (hsame k (by rw [hdues]; exact List.mem_append_left _ hk)).1 (hall k hk)
      · intro k hk
        obtain ⟨hkh, hk⟩ := not_or.1 (mt List.mem_cons.2 hk)
        rw [hkeep k hk, hother k hkh]
      · intro k l' hk hkdue
        refine hhead k l' hk ((hsame k ?_).2 hkdue)
        rw [hdues, hk]
        exact List.mem_append_right _ List.mem_cons_self
    · rw [if_neg hdue]
      refine ⟨s, [], rfl, hs, .refl s, rfl, rfl, [], rfl, fun k hk => absurd hk List.not_mem_nil,
        fun _ _ => rfl, ?_⟩
      rintro k l' hk ⟨m, hm, hmdue⟩
      rw [hl, List.cons.injEq] at hk
      rw [← hk.1, hn, Option.some_inj] at hm
      exact hdue (hm ▸ hmdue)

/-- The nodes `moved` go from the head of the one list to the other. -/
def Moves (s t : DnsLocalService) (moved : List Bytes) : Prop :=
  ∃ l k, s.cacheRequestTimeoutList = moved ++ l ∧ t = { s with
    cacheRequestTimeoutList := l
    cacheTimeoutList := s.cacheTimeoutList ++ moved
    failedAsserts := k }

theorem Moves.refl (s : DnsLocalService) : Moves s s [] :=
  ⟨s.cacheRequestTimeoutList, s.failedAsserts, rfl, by rw [List.append_nil]⟩

theorem Moves.trans {a b : List Bytes} (hm : Moves s t a) (hm' : Moves t u b) :
    Moves s u (a ++ b) := by
  obtain ⟨l, k, hl, rfl⟩ := hm
  obtain ⟨l', k', hl', rfl⟩ := hm'
  have hl' : l = b ++ l' := hl'
  exact ⟨l', k', by rw [hl, hl', List.append_assoc], by simp only [List.append_assoc]⟩

/-- The nodes stay under way, and in one of the lists. -/
theorem Moves.consistent {moved : List Bytes} (hm : Moves s t moved) (hs : Consistent s) :
    Consistent t := by
  obtain ⟨l, k, hl, rfl⟩ := hm
  refine ⟨fun h hh => hs.unfinished h (hl ▸ List.mem_append_right _ hh), fun h => ?_, ?_, hs.result,
    hs.live, hs.pending⟩
  · change (∃ n, s.cacheMap h = some n) ↔ h ∈ l ∨ h ∈ s.cacheTimeoutList ++ moved
    rw [hs.listed, hl, List.mem_append, List.mem_append, or_comm (a := h ∈ moved), or_assoc,
      or_comm (a := h ∈ moved)]
  · have hnodup := hs.nodup
    rw [hl] at hnodup
    exact (List.nodup_append.1 hnodup).2.1

/-- What the last pass does: it moves nodes that are under way and due, and `assert`s fail for each
    of them. -/
structure Postpones (s t : DnsLocalService) (moved : List Bytes) : Prop where
  moves : Moves s t moved
  due : ∀ h ∈ moved, s.IsDue dnsCacheTimeoutMS h
  notDue : ∀ h l, t.cacheRequestTimeoutList = h :: l → ¬s.IsDue dnsCacheTimeoutMS h
  failed : s.failedAsserts + moved.length ≤ t.failedAsserts
  passed : moved = [] → t.failedAsserts = s.failedAsserts

/-- `ProcessTimeoutCacheNodes` takes the nodes that are due for finished ones, which they are not: no
    node is in the list it takes them from but those under way. -/
theorem processTimeoutCacheNodes_spec (hs : Consistent s) {l : List Bytes}
    (hl : s.cacheRequestTimeoutList = l) :
    ∃ t moved, processTimeoutCacheNodes l s = .ok t ∧ Postpones s t moved := by
  induction l generalizing s with
  | nil =>
    refine ⟨s, [], rfl, .refl s, fun h hh => absurd hh List.not_mem_nil, fun h l hc => ?_, le_rfl,
      fun _ => rfl⟩
    rw [hl] at hc
    cases hc
  | cons h l ih =>
    obtain ⟨n, hn, hun⟩ := hs.unfinished h (by rw [hl]; exact List.mem_cons_self)
    simp only [processTimeoutCacheNodes, hn, hun, Bool.not_false, asserting_true]
    by_cases hdue : n.timestampMS ≤ sub64 s.localTicker dnsCacheTimeoutMS
    · rw [if_pos hdue]
      -- The turn on `h`, after which `l` is left.
      let s₁ := (s.asserting false).asserting (s.pendingSourceRequestList.nodes h).isEmpty
      have hnodup := hs.nodup
      rw [hl, List.nodup_cons] at hnodup
      have hfilter : s.cacheRequestTimeoutList.filter (· ≠ h) = l := by
        rw [hl, List.filter_cons_of_neg (by simp), List.filter_eq_self]
        exact fun k hk => decide_eq_true (ne_of_mem_of_not_mem hk hnodup.1)
      have hturn : Moves s { s₁ with
          cacheRequestTimeoutList := s.cacheRequestTimeoutList.filter (· ≠ h)
          cacheTimeoutList := s.cacheTimeoutList ++ [h] } [h] :=
        ⟨l, s₁.failedAsserts, hl, by rw [hfilter]; rfl⟩
      obtain ⟨t, moved, hrest, hpost⟩ := ih (hturn.consistent hs) hfilter
      refine ⟨t, h :: moved, hrest, hturn.trans hpost.moves, fun k hk => ?_, hpost.notDue, ?_,
        fun hnil => by cases hnil⟩
      · rcases List.mem_cons.1 hk with rfl | hk
        · exact ⟨n, hn, hdue⟩
        · exact hpost.due k hk
      · have hfirst : s.failedAsserts + 1 ≤ s₁.failedAsserts := Nat.le_add_right _ _
        have hlater : s₁.failedAsserts + moved.length ≤ t.failedAsserts := hpost.failed
        rw [List.length_cons]
        omega
    · rw [if_neg hdue]
      refine ⟨s, [], rfl, .refl s, fun h hh => absurd hh List.not_mem_nil, ?_, le_rfl, fun _ => rfl⟩
      rintro k l' hk ⟨m, hm, hmdue⟩
      rw [hl, List.cons.injEq] at hk
      rw [← hk.1, hn, Option.some_inj] at hm
      exact hdue (hm ▸ hmdue)

/-! ## Lookups -/

/-- Every request in the pool is with the query threads or came back, and every query under way
    has one. -/
structure Requested (s : DnsLocalService) : Prop where
  nodup : (s.requestList ++ s.requestFinishedList).Nodup
  live : ∀ p, (∃ r, s.dnsRequestPool.get p = some r) ↔
    p ∈ s.requestList ∨ p ∈ s.requestFinishedList
  lookup : ∀ h, s.IsUnfinished h → ∃ p r, s.dnsRequestPool.get p = some r ∧ r.hostname = h

theorem init_requested (nowMS : ℕ) : Requested (init nowMS) where
  nodup := List.nodup_nil
  live p := ⟨fun ⟨_, hr⟩ => (by cases hr), fun hp => by rcases hp with hp | hp <;> cases hp⟩
  lookup _ := fun ⟨_, hn, _⟩ => (by cases hn)

/-- A lookup of `h` came back. -/
def IsLookedUp (s : DnsLocalService) (h : Bytes) : Prop :=
  ∃ p ∈ s.requestFinishedList, (s.dnsRequestPool.get p).map DnsRequestNode.hostname = some h

instance (s : DnsLocalService) (h : Bytes) : Decidable (s.IsLookedUp h) := by
  unfold IsLookedUp
  infer_instance

/-- What a tick at `nowMS` does. -/
structure Ticks (alive : ℕ → Bool) (s : DnsLocalService) (nowMS : ℕ) (t : DnsLocalService)
    (answers : List DnsAnswer) : Prop extends Advance alive { s with localTicker := nowMS } t answers where
  consistent : Consistent t
  requestFinishedList : t.requestFinishedList = []
  dnsRequestPool : t.dnsRequestPool = s.requestFinishedList.foldl Storage.release s.dnsRequestPool
  finished : ∀ h, s.IsLookedUp h → (∃ n, s.cacheMap h = some n) →
    ∃ n, t.cacheMap h = some n ∧ n.queryFinished = true ∧ n.timestampMS = nowMS
  others : ∀ h, ¬s.IsLookedUp h → t.cacheMap h = s.cacheMap h ∨
    s.IsUnfinished h ∧ IsDue { s with localTicker := nowMS } dnsQueryTimeoutMS h
  /-- The last pass comes after those that end queries. -/
  passes : ∃ u moved, Ends alive { s with localTicker := nowMS } u answers ∧ Consistent u ∧
    Postpones u t moved ∧ ∀ h l, u.cacheRequestTimeoutList = h :: l →
      ¬IsDue { s with localTicker := nowMS } dnsQueryTimeoutMS h

variable (alive) in
/-- No tick fails. -/
theorem tick_spec (hs : Consistent s) (hr : Requested s) (nowMS : ℕ) :
    ∃ t a, Ticks alive s nowMS t a ∧ tick alive s nowMS = .ok (t, a) := by
  have hs₀ : Consistent { s with localTicker := nowMS } :=
    ⟨hs.unfinished, hs.listed, hs.nodup, hs.result, hs.live, hs.pending⟩
  obtain ⟨d, a, hdispatch, hd, hdis⟩ := dispatchResolveResults_spec alive hs₀
    (List.nodup_append.1 hr.nodup).2.1 fun p hp => (hr.live p).2 (.inr hp)
  obtain ⟨u, b, hpass, hu, hends, hfl, hpool, due, hdue, hall, hkeep, hhead⟩ :=
    processRequestTimeoutCacheNodes_spec alive hd rfl
  obtain ⟨t, moved, hlast, hpost⟩ := processTimeoutCacheNodes_spec hu rfl
  have hends₀ : Ends alive { s with localTicker := nowMS } d a :=
    ⟨⟨hdis.localTicker, hdis.requestList, hdis.cacheMap, hdis.sublist, hdis.settles⟩,
      hdis.failedAsserts, hdis.kept⟩
  have hboth := hends₀.trans hends
  have hother : ∀ h, ¬s.IsLookedUp h → d.cacheMap h = s.cacheMap h := by
    intro h hh
    refine hdis.others h fun p hp r hpr hrh => hh ⟨p, hp, ?_⟩
    rw [show s.dnsRequestPool.get p = some r from hpr, Option.map_some, hrh]
  -- What is found by the last pass is still under way, so that no pass touched it.
  have hfound : ∀ h ∈ u.cacheRequestTimeoutList, u.cacheMap h = s.cacheMap h := fun h hh =>
    hboth.cacheMap_eq (hu.unfinished h hh)
  have ht := hpost.moves.consistent hu
  obtain ⟨l, k, hl, rfl⟩ := id hpost.moves
  refine ⟨_, a ++ b, ⟨?_, ht, hfl.trans hdis.requestFinishedList, hpool.trans hdis.dnsRequestPool,
    ?_, ?_, u, moved, hboth, hu, hpost, ?_⟩, by simp only [tick, hdispatch, hpass, hlast]⟩
  · refine ⟨hboth.localTicker, hboth.requestList, hboth.cacheMap, ?_, hboth.settles⟩
    exact .trans (hl ▸ List.sublist_append_right moved l) hboth.sublist
  · rintro h ⟨p, hp, hph⟩ hn
    obtain ⟨r, hpr, rfl⟩ := Option.map_eq_some_iff.1 hph
    obtain ⟨n, hdn, hfin, hts⟩ := hdis.finished p hp r hpr hn
    rcases hends.cacheMap r.hostname with heq | ⟨-, m, hm, hmfin, hmts⟩
    · exact ⟨n, heq.trans hdn, hfin, hts⟩
    · exact ⟨m, hm, hmfin, hmts.trans hdis.localTicker⟩
  · intro h hh
    by_cases hmem : h ∈ due
    · have hun := hd.unfinished h (by rw [hdue]; exact List.mem_append_left _ hmem)
      obtain ⟨n, hn, hle⟩ := hall h hmem
      rw [hother h hh] at hn
      refine .inr ⟨?_, n, hn, ?_⟩
      · simpa only [IsUnfinished, hother h hh] using hun
      · rwa [hdis.localTicker] at hle
    · exact .inl ((hkeep h hmem).trans (hother h hh))
  · rintro h l' hl' ⟨n, hn, hle⟩
    have hmem : h ∈ u.cacheRequestTimeoutList := by rw [hl']; exact List.mem_cons_self
    have hsame := hends.cacheMap_eq (hu.unfinished h hmem)
    refine hhead h l' hl' ⟨n, ?_, by rwa [hdis.localTicker]⟩
    rw [← hsame, hfound h hmem]
    exact hn

end DnsLocalService

end ProxyPlatform
