import ProxyPlatform.Dns.Lists

/-!
# The calls of the DNS service

A request is refused, which leaves everything as it was (`SameContents`), waits at the node
of its host name (`Waits`), or is answered from the cache (`Serves`): `resolveDns_spec`. These
and the ends of lookups keep the service consistent, as the ticks do.
-/

namespace ProxyPlatform

namespace DnsLocalService

variable {alive : ℕ → Bool} {s t u : DnsLocalService}

/-! ## Calls -/

/-- The pools have the same objects, and the map and the lists are the same. -/
structure SameContents (s t : DnsLocalService) : Prop where
  localTicker : t.localTicker = s.localTicker
  requestList : t.requestList = s.requestList
  requestFinishedList : t.requestFinishedList = s.requestFinishedList
  dnsRequestPool : t.dnsRequestPool = s.dnsRequestPool
  cacheMap : t.cacheMap = s.cacheMap
  pendingSourceRequestList : t.pendingSourceRequestList = s.pendingSourceRequestList
  cacheRequestTimeoutList : t.cacheRequestTimeoutList = s.cacheRequestTimeoutList
  cacheTimeoutList : t.cacheTimeoutList = s.cacheTimeoutList
  sources : ∀ q, t.dnsSourceRequestPool.get q = s.dnsSourceRequestPool.get q
  size : t.dnsSourceRequestPool.size = s.dnsSourceRequestPool.size
  capacity : t.dnsSourceRequestPool.capacity = s.dnsSourceRequestPool.capacity

/-- What a request does that has to wait: it becomes a source request, with a lookup if it is the
    first one for its host name. -/
structure Waits (s : DnsLocalService) (hostname : Bytes) (future : ℕ) (t : DnsLocalService) :
    Prop where
  localTicker : t.localTicker = s.localTicker
  requestFinishedList : t.requestFinishedList = s.requestFinishedList
  cacheTimeoutList : t.cacheTimeoutList = s.cacheTimeoutList
  source : ∃ q, s.dnsSourceRequestPool.get q = none ∧
    (∀ q', t.dnsSourceRequestPool.get q' =
      if q' = q then some ⟨q, future⟩ else s.dnsSourceRequestPool.get q') ∧
    t.pendingSourceRequestList = s.pendingSourceRequestList.grabTail hostname q
  lookup : (s.IsUnfinished hostname ∧ t.requestList = s.requestList ∧
      t.dnsRequestPool = s.dnsRequestPool ∧ t.cacheMap = s.cacheMap ∧
      t.cacheRequestTimeoutList = s.cacheRequestTimeoutList) ∨
    (s.cacheMap hostname = none ∧
      (∃ p, t.requestList = s.requestList ++ [p] ∧ s.dnsRequestPool.get p = none ∧
        ∀ p', t.dnsRequestPool.get p' =
          if p' = p then some ⟨p, hostname, [], []⟩ else s.dnsRequestPool.get p') ∧
      t.cacheMap = Function.update s.cacheMap hostname (some { timestampMS := s.localTicker }) ∧
      t.cacheRequestTimeoutList = s.cacheRequestTimeoutList ++ [hostname])

/-- What a request does that is answered from the cache. -/
structure Serves (s : DnsLocalService) (hostname : Bytes) (t : DnsLocalService) : Prop where
  localTicker : t.localTicker = s.localTicker
  requestList : t.requestList = s.requestList
  requestFinishedList : t.requestFinishedList = s.requestFinishedList
  dnsRequestPool : t.dnsRequestPool = s.dnsRequestPool
  dnsSourceRequestPool : t.dnsSourceRequestPool = s.dnsSourceRequestPool
  pendingSourceRequestList : t.pendingSourceRequestList = s.pendingSourceRequestList
  cacheRequestTimeoutList : t.cacheRequestTimeoutList = s.cacheRequestTimeoutList
  cacheTimeoutList : t.cacheTimeoutList = s.cacheTimeoutList
  node : ∃ n c, s.cacheMap hostname = some n ∧ n.queryFinished = true ∧
    t.cacheMap = Function.update s.cacheMap hostname (some { n with result := some c })

/-- A request is refused, waits or is answered from the cache. -/
theorem resolveDns_spec (hs : Consistent s) (hostname : Bytes) (future : ℕ) :
    (∃ t, resolveDns s hostname future = .ok (t, none) ∧ SameContents s t) ∨
    (∃ t, resolveDns s hostname future = .ok (t, some .pending) ∧ Waits s hostname future t) ∨
    ∃ t r, resolveDns s hostname future = .ok (t, some (.ready (some r))) ∧ Serves s hostname t := by
  rw [resolveDns]
  rcases hmap : s.cacheMap hostname with _ | n
  · dsimp only
    rcases hsource : s.dnsSourceRequestPool.acquire fun q =>
        (⟨q, future⟩ : DnsLocalSourceRequestNode) with _ | ⟨q, sources⟩
    · exact .inl ⟨s, rfl, ⟨rfl, rfl, rfl, rfl, rfl, rfl, rfl, rfl, fun _ => rfl, rfl, rfl⟩⟩
    dsimp only
    rcases hrequest : s.dnsRequestPool.acquire fun p =>
        ({ requestNodeId := p, hostname := hostname } : DnsRequestNode) with _ | ⟨p, requests⟩
    · obtain ⟨hsize, hcap⟩ := Storage.size_release_of_acquire hsource
      refine .inl ⟨_, rfl, ⟨rfl, rfl, rfl, rfl, rfl, rfl, rfl, rfl, fun q' => ?_, hsize, hcap⟩⟩
      rw [Storage.get_release, Storage.get_acquire hsource]
      by_cases hq : q' = q
      · rw [if_pos hq, hq, Storage.get_of_acquire hsource]
      · rw [if_neg hq, if_neg hq]
    · refine .inr (.inl ⟨_, rfl, ⟨rfl, rfl, rfl, ?_, .inr ⟨hmap, ?_, rfl, rfl⟩⟩⟩)
      · exact ⟨q, Storage.get_of_acquire hsource, Storage.get_acquire hsource, rfl⟩
      · exact ⟨p, rfl, Storage.get_of_acquire hrequest, Storage.get_acquire hrequest⟩
  · dsimp only
    by_cases hfin : n.queryFinished = true
    · obtain ⟨c, hc⟩ := Option.isSome_iff_exists.1 ((hs.result hostname n hmap).trans hfin)
      simp only [hfin, Bool.not_true, Bool.false_eq_true, if_false, hc]
      refine .inr (.inr ⟨_, _, rfl, ⟨rfl, rfl, rfl, rfl, rfl, rfl, rfl, rfl, ?_⟩⟩)
      exact ⟨n, (pickDnsResult c).2, hmap, hfin, by rw [← hfin]; rfl⟩
    · rw [Bool.not_eq_true] at hfin
      simp only [hfin, Bool.not_false, if_true]
      rcases hsource : (s.asserting (decide (n.timestampMS ≠ 0))).dnsSourceRequestPool.acquire fun q =>
          (⟨q, future⟩ : DnsLocalSourceRequestNode) with _ | ⟨q, sources⟩
      · exact .inl ⟨_, rfl, ⟨rfl, rfl, rfl, rfl, rfl, rfl, rfl, rfl, fun _ => rfl, rfl, rfl⟩⟩
      · refine .inr (.inl ⟨_, rfl, ⟨rfl, rfl, rfl, ?_, .inl ⟨⟨n, hmap, hfin⟩, rfl, rfl, rfl, rfl⟩⟩⟩)
        exact ⟨q, Storage.get_of_acquire hsource, Storage.get_acquire hsource, rfl⟩

theorem SameContents.consistent (h : SameContents s t) (hs : Consistent s) : Consistent t where
  unfinished k hk := by
    rw [IsUnfinished, h.cacheMap]
    exact hs.unfinished k (h.cacheRequestTimeoutList ▸ hk)
  listed k := by rw [h.cacheRequestTimeoutList, h.cacheTimeoutList, h.cacheMap, hs.listed]
  nodup := h.cacheRequestTimeoutList ▸ hs.nodup
  result := h.cacheMap ▸ hs.result
  live q := by rw [h.sources, hs.live, h.pendingSourceRequestList]
  pending k q := by
    rw [h.pendingSourceRequestList, IsUnfinished, h.cacheMap]
    exact hs.pending k q

theorem SameContents.requested (h : SameContents s t) (hs : Requested s) : Requested t where
  nodup := by rw [h.requestList, h.requestFinishedList]; exact hs.nodup
  live p := by rw [h.requestList, h.requestFinishedList, h.dnsRequestPool, hs.live]
  lookup k := by
    rw [IsUnfinished, h.cacheMap, h.dnsRequestPool]
    exact hs.lookup k

/-- The nodes under way are as before, with that of `hostname`. -/
theorem Waits.isUnfinished {hostname : Bytes} {i : ℕ} (h : Waits s hostname i t) (k : Bytes) :
    t.IsUnfinished k ↔ k = hostname ∨ s.IsUnfinished k := by
  rcases h.lookup with ⟨hun, -, -, hmap, -⟩ | ⟨hnone, -, hmap, -⟩
  · rw [IsUnfinished, hmap]
    refine ⟨.inr, ?_⟩
    rintro (rfl | hk)
    · exact hun
    · exact hk
  · rw [IsUnfinished, hmap]
    by_cases hk : k = hostname
    · subst hk
      exact iff_of_true ⟨_, Function.update_self .., rfl⟩ (.inl rfl)
    · rw [Function.update_of_ne hk, or_iff_right hk, IsUnfinished]

theorem Waits.consistent {hostname : Bytes} {i : ℕ} (h : Waits s hostname i t) (hs : Consistent s) :
    Consistent t := by
  obtain ⟨q, hq, hget, hlist⟩ := h.source
  have hunlinked : ¬s.pendingSourceRequestList.IsLinked q := by
    rw [← hs.live, hq]
    rintro ⟨r, hr⟩
    cases hr
  refine ⟨fun k hk => ?_, fun k => ?_, ?_, fun k n hn => ?_, fun q' => ?_, fun k q' hq' => ?_⟩
  · rw [h.isUnfinished]
    rcases h.lookup with ⟨-, -, -, -, hl⟩ | ⟨-, -, -, hl⟩
    · exact .inr (hs.unfinished k (hl ▸ hk))
    · rw [hl, List.mem_append, List.mem_singleton, or_comm] at hk
      exact hk.imp_right (hs.unfinished k)
  · rw [h.cacheTimeoutList]
    rcases h.lookup with ⟨-, -, -, hmap, hl⟩ | ⟨-, -, hmap, hl⟩
    · rw [hl, hmap, hs.listed]
    · rw [hl, hmap, List.mem_append, List.mem_singleton]
      by_cases hk : k = hostname
      · exact iff_of_true ⟨_, by rw [hk, Function.update_self]⟩ (.inl (.inr hk))
      · rw [Function.update_of_ne hk, hs.listed, or_iff_left hk]
  · rcases h.lookup with ⟨-, -, -, -, hl⟩ | ⟨hnone, -, -, hl⟩
    · exact hl ▸ hs.nodup
    · rw [hl]
      refine List.nodup_append.2 ⟨hs.nodup, List.nodup_singleton _, ?_⟩
      rintro k hk _ hk' rfl
      obtain ⟨n, hn, -⟩ := hs.unfinished k hk
      rw [List.mem_singleton.1 hk', hnone] at hn
      cases hn
  · rcases h.lookup with ⟨-, -, -, hmap, -⟩ | ⟨-, -, hmap, -⟩
    · exact hs.result k n (hmap ▸ hn)
    · rw [hmap] at hn
      by_cases hk : k = hostname
      · rw [hk, Function.update_self, Option.some_inj] at hn
        rw [← hn]
        rfl
      · rw [Function.update_of_ne hk] at hn
        exact hs.result k n hn
  · rw [hget, hlist, Linked.isLinked_grabTail, ← hs.live]
    by_cases hq' : q' = q
    · exact iff_of_true ⟨_, if_pos hq'⟩ (.inl hq')
    · rw [if_neg hq', or_iff_right hq']
  · rw [h.isUnfinished]
    rw [hlist, Linked.mem_grabTail] at hq'
    split at hq'
    · exact .inl hq'
    · exact .inr (hs.pending k q' hq')

theorem Waits.requested {hostname : Bytes} {i : ℕ} (h : Waits s hostname i t) (hs : Requested s) :
    Requested t := by
  rcases h.lookup with ⟨hun, hl, hpool, -, -⟩ | ⟨hnone, ⟨p, hl, hp, hget⟩, -, -⟩
  · refine ⟨?_, fun p => ?_, fun k hk => ?_⟩
    · rw [hl, h.requestFinishedList]
      exact hs.nodup
    · rw [hl, h.requestFinishedList, hpool, hs.live]
    · rw [hpool]
      rcases (h.isUnfinished k).1 hk with rfl | hk
      · exact hs.lookup k hun
      · exact hs.lookup k hk
  · have hnew : ¬(p ∈ s.requestList ∨ p ∈ s.requestFinishedList) := by
      rw [← hs.live, hp]
      rintro ⟨r, hr⟩
      cases hr
    refine ⟨?_, fun p' => ?_, fun k hk => ?_⟩
    · rw [hl, h.requestFinishedList, List.append_assoc]
      refine List.perm_middle.nodup_iff.2 (List.nodup_cons.2 ⟨?_, hs.nodup⟩)
      rwa [List.mem_append]
    · rw [hl, h.requestFinishedList, hget, List.mem_append, List.mem_singleton]
      by_cases hp' : p' = p
      · exact iff_of_true ⟨_, if_pos hp'⟩ (.inl (.inr hp'))
      · rw [if_neg hp', hs.live, or_iff_left hp']
    · rcases (h.isUnfinished k).1 hk with rfl | hk
      · exact ⟨p, _, by rw [hget, if_pos rfl], rfl⟩
      · obtain ⟨p', r, hr, hrk⟩ := hs.lookup k hk
        refine ⟨p', r, ?_, hrk⟩
        rw [hget, if_neg, hr]
        rintro rfl
        rw [hp] at hr
        cases hr

theorem Serves.cacheMap {hostname : Bytes} (h : Serves s hostname t) (k : Bytes) :
    (t.cacheMap k).map (fun n => (n.queryFinished, n.timestampMS)) =
      (s.cacheMap k).map fun n => (n.queryFinished, n.timestampMS) := by
  obtain ⟨n, c, hn, -, hmap⟩ := h.node
  by_cases hk : k = hostname
  · rw [hk, hmap, Function.update_self, hn]
    rfl
  · rw [hmap, Function.update_of_ne hk]

theorem Serves.isUnfinished {hostname : Bytes} (h : Serves s hostname t) (k : Bytes) :
    t.IsUnfinished k ↔ s.IsUnfinished k := by
  have hk := congrArg (Option.map Prod.fst) (h.cacheMap k)
  rw [Option.map_map, Option.map_map] at hk
  have hiff (u : DnsLocalService) : u.IsUnfinished k ↔
      (u.cacheMap k).map (Prod.fst ∘ fun n => (n.queryFinished, n.timestampMS)) = some false := by
    rw [Option.map_eq_some_iff]
    rfl
  rw [hiff, hiff, hk]

theorem Serves.consistent {hostname : Bytes} (h : Serves s hostname t) (hs : Consistent s) :
    Consistent t where
  unfinished k hk := by
    rw [h.isUnfinished]
    exact hs.unfinished k (h.cacheRequestTimeoutList ▸ hk)
  listed k := by
    rw [h.cacheRequestTimeoutList, h.cacheTimeoutList, ← hs.listed]
    obtain ⟨n, c, hn, -, hmap⟩ := h.node
    by_cases hk : k = hostname
    · exact iff_of_true ⟨_, by rw [hmap, hk, Function.update_self]⟩ ⟨n, by rw [hk, hn]⟩
    · rw [hmap, Function.update_of_ne hk]
  nodup := h.cacheRequestTimeoutList ▸ hs.nodup
  result k m hm := by
    obtain ⟨n, c, -, hfin, hmap⟩ := h.node
    rw [hmap] at hm
    by_cases hk : k = hostname
    · rw [hk, Function.update_self, Option.some_inj] at hm
      rw [← hm]
      exact hfin.symm
    · rw [Function.update_of_ne hk] at hm
      exact hs.result k m hm
  live q := by rw [h.dnsSourceRequestPool, hs.live, h.pendingSourceRequestList]
  pending k q hq := by
    rw [h.pendingSourceRequestList] at hq
    exact (h.isUnfinished k).2 (hs.pending k q hq)

theorem Serves.requested {hostname : Bytes} (h : Serves s hostname t) (hs : Requested s) :
    Requested t where
  nodup := by rw [h.requestList, h.requestFinishedList]; exact hs.nodup
  live p := by rw [h.requestList, h.requestFinishedList, h.dnsRequestPool, hs.live]
  lookup k hk := by
    rw [h.dnsRequestPool]
    exact hs.lookup k ((h.isUnfinished k).1 hk)

theorem Ticks.requested {nowMS : ℕ} {a : List DnsAnswer} (h : Ticks alive s nowMS t a)
    (hs : Requested s) : Requested t := by
  obtain ⟨hreq, -, hdisj⟩ := List.nodup_append.1 hs.nodup
  have hget : ∀ p, t.dnsRequestPool.get p =
      if p ∈ s.requestFinishedList then none else s.dnsRequestPool.get p := fun p => by
    rw [h.dnsRequestPool, Storage.get_foldl_release]
  have hlist : t.requestList = s.requestList := h.requestList
  refine ⟨?_, fun p => ?_, fun k hk => ?_⟩
  · rw [hlist, h.requestFinishedList, List.append_nil]
    exact hreq
  · rw [hlist, h.requestFinishedList, hget, or_iff_left List.not_mem_nil]
    by_cases hp : p ∈ s.requestFinishedList
    · rw [if_pos hp]
      exact iff_of_false (fun ⟨_, hr⟩ => (by cases hr)) fun hp' => hdisj p hp' p hp rfl
    · rw [if_neg hp, hs.live, or_iff_left hp]
  · -- A query still under way was so before, and its request did not come back.
    have hold : s.IsUnfinished k := h.isUnfinished hk
    obtain ⟨p, r, hr, hrk⟩ := hs.lookup k hold
    refine ⟨p, r, ?_, hrk⟩
    rw [hget, if_neg, hr]
    intro hp
    obtain ⟨n, hn, -⟩ := hold
    obtain ⟨m, hm, hfin, -⟩ := h.finished k ⟨p, hp, by rw [hr, Option.map_some, hrk]⟩ ⟨n, hn⟩
    exact absurd hk (IsFinished.not_isUnfinished ⟨m, hm, hfin⟩)

/-- The end of a lookup changes the requests only. -/
theorem finishRequest_eq (s : DnsLocalService) (p : ℕ) (a4List a6List : List NetAddress) :
    finishRequest s p a4List a6List = s ∨ p ∈ s.requestList ∧
      ∃ r, s.dnsRequestPool.get p = some r ∧ finishRequest s p a4List a6List = { s with
        requestList := s.requestList.filter (· ≠ p)
        requestFinishedList := s.requestFinishedList ++ [p]
        dnsRequestPool := s.dnsRequestPool.set p { r with
          a4List := r.a4List ++ a4List
          a6List := r.a6List ++ a6List } } := by
  rw [finishRequest]
  rcases hr : s.dnsRequestPool.get p with _ | r
  · exact .inl rfl
  · by_cases hp : p ∈ s.requestList
    · exact .inr ⟨hp, r, rfl, if_pos hp⟩
    · exact .inl (if_neg hp)

theorem finishRequest_consistent (hs : Consistent s) (p : ℕ) (a4List a6List : List NetAddress) :
    Consistent (finishRequest s p a4List a6List) := by
  rcases finishRequest_eq s p a4List a6List with heq | ⟨-, r, -, heq⟩
  · rw [heq]
    exact hs
  · rw [heq]
    exact ⟨hs.unfinished, hs.listed, hs.nodup, hs.result, hs.live, hs.pending⟩

theorem finishRequest_requested (hs : Requested s) (p : ℕ) (a4List a6List : List NetAddress) :
    Requested (finishRequest s p a4List a6List) := by
  rcases finishRequest_eq s p a4List a6List with heq | ⟨hp, r, hr, heq⟩
  · rw [heq]
    exact hs
  obtain ⟨hreq, hfin, hdisj⟩ := List.nodup_append.1 hs.nodup
  have hget := Storage.get_set hr { r with a4List := r.a4List ++ a4List, a6List := r.a6List ++ a6List }
  rw [heq]
  refine ⟨?_, fun p' => ?_, fun k hk => ?_⟩
  · refine List.nodup_append.2 ⟨hreq.filter _, ?_, ?_⟩
    · refine List.nodup_append.2 ⟨hfin, List.nodup_singleton p, ?_⟩
      rintro q hq _ hq' rfl
      exact hdisj p hp q hq (List.mem_singleton.1 hq').symm
    · rintro q hq _ hq' rfl
      rcases List.mem_append.1 hq' with hq' | hq'
      · exact hdisj q (List.mem_of_mem_filter hq) q hq' rfl
      · simp [List.mem_singleton.1 hq'] at hq
  · change (∃ r', (s.dnsRequestPool.set p _).get p' = some r') ↔ _
    rw [hget, List.mem_filter, List.mem_append, List.mem_singleton]
    by_cases hp' : p' = p
    · exact iff_of_true ⟨_, if_pos hp'⟩ (.inr (.inr hp'))
    · rw [if_neg hp', hs.live]
      simp [hp']
  · obtain ⟨p', r', hr', hrk⟩ := hs.lookup k hk
    change ∃ p' r', (s.dnsRequestPool.set p _).get p' = some r' ∧ _
    by_cases hp' : p' = p
    · rw [hp', hr, Option.some_inj] at hr'
      exact ⟨p, _, by rw [hget, if_pos rfl], by rw [← hrk, ← hr']⟩
    · exact ⟨p', r', by rw [hget, if_neg hp', hr'], hrk⟩

end DnsLocalService

end ProxyPlatform
