import ProxyPlatform.Dns.Run

/-!
# The addresses of a host name take turns

A host name may have several addresses of both families. `PickDnsResult` picks one of each, the
one after the last, and the requests that wait for a lookup and those that come later are both
answered by it. The indices stay in the node as long as its result does.

* `picked_calls`: any calls of `PickDnsResult`, one after the other, pick the addresses of each
  family in turn, whatever the indices are at the start, and whatever there is of the other
  family (`PickedInTurn`);
* `pickedSince`: what is picked for a host name in a run, since a lookup stored its result;
* `picked_inTurn`: those are calls of `PickDnsResult` one after the other.
-/

namespace ProxyPlatform

namespace DnsLocalService

variable {alive : ℕ → Bool} {s t : DnsLocalService} {h : Bytes}

/-! ## Picks in a row -/

/-- What is claimed of picks in a row, of addresses with their indices, from `addresses`. -/
structure PickedInTurn (addresses : List NetAddress) (picks : List (NetAddress × ℕ)) : Prop where
  /-- The index is that of an address, which is the one picked. -/
  picked : addresses ≠ [] → ∀ x ∈ picks, addresses[x.2]? = some x.1
  /-- As many picks in a row as there are addresses pick each of their positions once. -/
  inTurn : InTurn (List.range addresses.length) (picks.map Prod.snd)
  unset : addresses = [] → ∀ x ∈ picks, x.1 = {}

/-- The IPv4 addresses of calls of `PickDnsResult`, with their indices. -/
def picks4 (picks : List (DnsResult × DnsLocalCacheResult)) : List (NetAddress × ℕ) :=
  picks.map fun x => (x.1.a4, x.2.lastA4ResultIndex)

/-- The IPv6 addresses of calls of `PickDnsResult`, with their indices. -/
def picks6 (picks : List (DnsResult × DnsLocalCacheResult)) : List (NetAddress × ℕ) :=
  picks.map fun x => (x.1.a6, x.2.lastA6ResultIndex)

/-- The index after `last`, of `n`. -/
def nextIndex (n last : ℕ) : ℕ := if last + 1 ≥ n then 0 else last + 1

/-- The positions of `n` addresses, the next to be picked ahead. -/
def upcoming (n last : ℕ) : List ℕ := (List.range n).rotate (nextIndex n last)

theorem nextIndex_lt {n : ℕ} (hn : 0 < n) (last : ℕ) : nextIndex n last < n := by
  rw [nextIndex]
  split <;> omega

/-- The position picked goes from the head of those to come to the tail. -/
theorem upcoming_nextIndex {n : ℕ} (hn : 0 < n) (last : ℕ) :
    ∃ q, upcoming n last = nextIndex n last :: q ∧
      upcoming n (nextIndex n last) = q ++ [nextIndex n last] := by
  have hi := nextIndex_lt hn last
  rw [upcoming, upcoming]
  generalize nextIndex n last = i at hi
  have hlen : (List.range n).length = n := List.length_range
  have hhead : (List.range n).rotate i =
      i :: ((List.range n).drop (i + 1) ++ (List.range n).take i) := by
    rw [List.rotate_eq_drop_append_take (hi.le.trans_eq hlen.symm),
      List.drop_eq_getElem_cons (hi.trans_eq hlen.symm), List.getElem_range, List.cons_append]
  have hnext : (List.range n).rotate (nextIndex n i) = ((List.range n).rotate i).rotate 1 := by
    rw [List.rotate_rotate, nextIndex]
    split
    · next hlast =>
      rw [le_antisymm hi hlast, List.rotate_zero]
      nth_rewrite 3 [← hlen]
      rw [List.rotate_length]
    · rfl
  exact ⟨_, hhead, by rw [hnext, hhead, List.rotate_cons_succ, List.rotate_zero]⟩

/-- The address picked is the one at the next index, if there is one. -/
theorem pickAddress_of_ne_nil {addresses : List NetAddress} (h : addresses ≠ []) (last : ℕ) :
    pickAddress addresses last =
      (addresses.getD (nextIndex addresses.length last) {}, nextIndex addresses.length last) :=
  if_neg fun hlen => h (List.length_eq_zero_iff.1 hlen)

@[simp] theorem pickAddress_nil (last : ℕ) : pickAddress [] last = ({}, last) := rfl

/-- Picks in a row of a service that picks from `addresses`, by the index it keeps. -/
theorem pickedInTurn_calls {σ α : Type*} {f : σ → α × σ} {addresses : List NetAddress}
    (address : α → NetAddress) (index : σ → ℕ) {I : σ → Prop}
    (hf : ∀ s, I s → I (f s).2 ∧
      (address (f s).1, index (f s).2) = pickAddress addresses (index s)) (k : ℕ) {s : σ}
    (hs : I s) :
    PickedInTurn addresses ((calls f k s).map fun x => (address x.1, index x.2)) := by
  refine ⟨fun hne x hx => ?_, ?_, fun hnil x hx => ?_⟩
  · obtain ⟨y, hy, rfl⟩ := List.mem_map.1 hx
    have hn := List.length_pos_iff.2 hne
    refine forall_mem_calls (P := fun y => addresses[index y.2]? = some (address y.1))
      (fun s hs => ⟨(hf s hs).1, ?_⟩) k hs y hy
    have hpick := (hf s hs).2
    rw [pickAddress_of_ne_nil hne, Prod.mk.injEq] at hpick
    have hlt := nextIndex_lt hn (index s)
    rw [hpick.1, hpick.2, List.getD_eq_getElem?_getD, List.getElem?_eq_getElem hlt, Option.getD_some]
  · rw [List.map_map]
    rcases eq_or_ne addresses [] with rfl | hne
    · exact inTurn_nil _
    · -- The queue is that of the positions to come.
      have hn := List.length_pos_iff.2 hne
      have hturns := map_calls_eq_turns (f := f) (fun s => upcoming addresses.length (index s))
        (g := fun x => index x.2) (I := I) (fun s hs => ⟨(hf s hs).1, ?_⟩) k hs
      · rw [show (Prod.snd ∘ fun x : α × σ => (address x.1, index x.2)) = fun x => index x.2 from rfl,
          hturns]
        exact inTurn_turns (List.rotate_perm _ _) k
      · have hpick := (hf s hs).2
        rw [pickAddress_of_ne_nil hne, Prod.mk.injEq] at hpick
        rw [hpick.2]
        exact upcoming_nextIndex hn (index s)
  · obtain ⟨y, hy, rfl⟩ := List.mem_map.1 hx
    refine forall_mem_calls (P := fun y => address y.1 = {}) (fun s hs => ⟨(hf s hs).1, ?_⟩) k hs y hy
    have hpick := (hf s hs).2
    rw [hnil, pickAddress_nil, Prod.mk.injEq] at hpick
    exact hpick.1

/-- Any calls of `PickDnsResult` one after the other pick the addresses of each family in turn,
    whatever the other family is. -/
theorem picked_calls (c : DnsLocalCacheResult) (k : ℕ) :
    PickedInTurn c.a4List (picks4 (calls pickDnsResult k c)) ∧
      PickedInTurn c.a6List (picks6 (calls pickDnsResult k c)) := by
  constructor
  · exact pickedInTurn_calls DnsResult.a4 DnsLocalCacheResult.lastA4ResultIndex
      (I := fun d => d.a4List = c.a4List) (fun d hd => ⟨hd, by rw [← hd]; rfl⟩) k rfl
  · exact pickedInTurn_calls DnsResult.a6 DnsLocalCacheResult.lastA6ResultIndex
      (I := fun d => d.a6List = c.a6List) (fun d hd => ⟨hd, by rw [← hd]; rfl⟩) k rfl

/-! ## What is picked for one host name -/

/-- The futures of the source requests that wait for `h`. -/
def waitingFor (s : DnsLocalService) (h : Bytes) : List ℕ :=
  (s.pendingSourceRequestList.nodes h).filterMap fun q =>
    (s.dnsSourceRequestPool.get q).map DnsLocalSourceRequestNode.futureHandle

/-- The results among the answers that are left in the futures `fs`. -/
def resultsFor (fs : List ℕ) (answers : List DnsAnswer) : List DnsResult :=
  (answers.filter fun x => x.1 ∈ fs).filterMap Prod.snd

/-- The futures `fs` are those that wait for `h`, among the ones that wait. -/
def Separates (s : DnsLocalService) (h : Bytes) (fs : List ℕ) : Prop :=
  ∀ k q x, q ∈ s.pendingSourceRequestList.nodes k → s.dnsSourceRequestPool.get q = some x →
    (x.futureHandle ∈ fs ↔ k = h)

/-- The node of `h` was left by calls of `PickDnsResult` on a new result, which returned `results`. -/
def IsPicked (s : DnsLocalService) (h : Bytes) (results : List DnsResult) : Prop :=
  ∃ node c, s.cacheMap h = some node ∧ node.queryFinished = true ∧
    c.lastA4ResultIndex = 0 ∧ c.lastA6ResultIndex = 0 ∧
    node.result = some (afterCalls pickDnsResult results.length c) ∧
    results = (calls pickDnsResult results.length c).map Prod.fst

/-- One request at most is in the pool for a host name, and the host name has its node. -/
structure OneRequest (s : DnsLocalService) : Prop where
  node : ∀ p x, s.dnsRequestPool.get p = some x → ∃ n, s.cacheMap x.hostname = some n
  injective : ∀ p p' x x', s.dnsRequestPool.get p = some x → s.dnsRequestPool.get p' = some x' →
    x.hostname = x'.hostname → p = p'

variable {fs : List ℕ} {a b : List DnsAnswer}

theorem resultsFor_append (fs : List ℕ) (a b : List DnsAnswer) :
    resultsFor fs (a ++ b) = resultsFor fs a ++ resultsFor fs b := by
  rw [resultsFor, List.filter_append, List.filterMap_append]
  rfl

theorem resultsFor_of_not_mem (ha : ∀ x ∈ a, x.1 ∉ fs) : resultsFor fs a = [] := by
  rw [resultsFor, List.filter_eq_nil_iff.2 fun x hx => by simpa using ha x hx, List.filterMap_nil]

theorem resultsFor_of_mem (ha : ∀ x ∈ a, x.1 ∈ fs) : resultsFor fs a = (a.map Prod.snd).filterMap id := by
  rw [resultsFor, List.filter_eq_self.2 fun x hx => by simpa using ha x hx, List.filterMap_map]
  rfl

/-- The futures that are answered at the end of a query waited for it. -/
theorem Finishes.waited (hf : Finishes alive s h t a) {x : DnsAnswer} (hx : x ∈ a) :
    ∃ q y, q ∈ s.pendingSourceRequestList.nodes h ∧ s.dnsSourceRequestPool.get q = some y ∧
      y.futureHandle = x.1 := by
  obtain ⟨-, q, y, hq, hgone, hy⟩ := hf.settles.mem_iff.1 (List.mem_map_of_mem hx)
  refine ⟨q, y, ?_, hq, hy⟩
  by_contra hmem
  rw [hf.sources, if_neg hmem, hq] at hgone
  cases hgone

theorem Finishes.separates {k : Bytes} (hf : Finishes alive s k t a) (hs : Separates s h fs) :
    Separates t h fs := by
  intro k' q x hq hx
  obtain ⟨hk, hq⟩ := (hf.pending q k').1 hq
  rw [hf.sources, if_neg hk] at hx
  exact hs k' q x hq hx

variable (alive) in
/-- The end of another query. -/
theorem finishQuery_of_ne (hs : Consistent s) (hsep : Separates s h fs)
    (pick : DnsLocalCacheResult → Option DnsResult × DnsLocalCacheResult) {k : Bytes} (hk : k ≠ h)
    (n : DnsLocalCacheNode) (c : DnsLocalCacheResult) :
    (finishQuery pick alive s k n c).1.cacheMap h = s.cacheMap h ∧
      resultsFor fs (finishQuery pick alive s k n c).2 = [] := by
  have hf := finishQuery_spec alive hs pick k n c
  obtain ⟨m, -, -, -, hmap⟩ := hf.cacheMap
  refine ⟨by rw [hmap, Function.update_of_ne hk.symm], resultsFor_of_not_mem fun x hx hmem => hk ?_⟩
  obtain ⟨q, y, hq, hy, hyx⟩ := hf.waited hx
  exact (hsep k q y hq hy).1 (hyx ▸ hmem)

variable (alive) in
/-- The end of the query, with a new result of a lookup. -/
theorem isPicked_of_pickFinished (hs : Consistent s) (hsep : Separates s h fs)
    (n : DnsLocalCacheNode) (a4List a6List : List NetAddress) :
    IsPicked (finishQuery pickFinished alive s h n { a4List := a4List, a6List := a6List }).1 h
      (resultsFor fs
        (finishQuery pickFinished alive s h n { a4List := a4List, a6List := a6List }).2) := by
  have hf := finishQuery_spec alive hs pickFinished h n { a4List := a4List, a6List := a6List }
  obtain ⟨t, a, m, heq, hm, hfin, hresult, hcalls⟩ := finishQuery_calls alive hs pickFinished h n
    { a4List := a4List, a6List := a6List }
  rw [heq] at hf ⊢
  dsimp only at hf ⊢
  have hmem : ∀ x ∈ a, x.1 ∈ fs := by
    intro x hx
    obtain ⟨q, y, hq, hy, hyx⟩ := hf.waited hx
    exact hyx ▸ (hsep h q y hq hy).2 rfl
  -- Every answer is what `PickDnsResult` returned.
  have hresults : resultsFor fs a = (calls pickDnsResult a.length
      { a4List := a4List, a6List := a6List }).map Prod.fst := by
    rw [resultsFor_of_mem hmem, hcalls, map_fst_calls (g := pickFinished) (f := pickDnsResult) (φ := some)
        fun _ => rfl,
      List.filterMap_map]
    exact congrFun List.filterMap_eq_map' _
  have hlength : (resultsFor fs a).length = a.length := by
    rw [hresults, List.length_map, length_calls]
  exact ⟨m, _, hm, hfin, rfl, rfl, by rw [hlength]; exact hresult, by rw [hlength, hresults]⟩

variable (alive) in
/-- The end of the query when the lookup takes too long. -/
theorem isPicked_of_pickTimeout (hs : Consistent s) (fs : List ℕ) (n : DnsLocalCacheNode) :
    resultsFor fs (finishQuery pickTimeout alive s h n {}).2 = [] ∧
      IsPicked (finishQuery pickTimeout alive s h n {}).1 h [] := by
  obtain ⟨t, a, m, heq, hm, hfin, hresult, hcalls⟩ := finishQuery_calls alive hs pickTimeout h n {}
  rw [heq]
  refine ⟨?_, m, {}, hm, hfin, rfl, rfl, ?_, rfl⟩
  · rw [resultsFor, List.filterMap_eq_nil_iff]
    intro x hx
    have hx := List.mem_map_of_mem (f := Prod.snd) (List.mem_of_mem_filter hx)
    rw [hcalls, List.mem_map] at hx
    obtain ⟨y, hy, hyx⟩ := hx
    rw [← hyx]
    exact forall_mem_calls (I := fun _ => True) (P := fun y => y.1 = none)
      (fun _ _ => ⟨trivial, rfl⟩) _ trivial y hy
  · rw [hresult]
    exact congrArg some (map_afterCalls (g := id) (fun _ => rfl) _ _)

theorem IsPicked.congr {results : List DnsResult} (hs : IsPicked s h results)
    (heq : t.cacheMap h = s.cacheMap h) : IsPicked t h results := by
  simpa only [IsPicked, heq] using hs

theorem IsPicked.isFinished {results : List DnsResult} (hs : IsPicked s h results) :
    s.IsFinished h := by
  obtain ⟨n, -, hn, hfin, -⟩ := hs
  exact ⟨n, hn, hfin⟩

/-! ## A tick -/

variable (alive) in
/-- A turn of `DispatchResolveResults`. -/
theorem dispatchResolveResult_picks (hs : Consistent s) (hsep : Separates s h fs) {p : ℕ}
    {request : DnsRequestNode} (hp : s.dnsRequestPool.get p = some request)
    (hnode : ∃ n, s.cacheMap request.hostname = some n) (a : List DnsAnswer) :
    ∃ t b, dispatchResolveResult alive (s, a) p = (t, a ++ b) ∧ Consistent t ∧
      Dispatches alive s [p] t b ∧ Separates t h fs ∧
      if request.hostname = h then IsPicked t h (resultsFor fs b)
      else t.cacheMap h = s.cacheMap h ∧ resultsFor fs b = [] := by
  let s₁ : DnsLocalService := { s with onGoingDnsRequestCount := s.onGoingDnsRequestCount - 1 }
  have hs₁ : Consistent s₁ := ⟨hs.unfinished, hs.listed, hs.nodup, hs.result, hs.live, hs.pending⟩
  obtain ⟨t, b, hturn, ht, hd⟩ := dispatchResolveResult_spec alive hs hp a
  refine ⟨t, b, hturn, ht, hd, ?_⟩
  obtain ⟨n, hn⟩ := hnode
  have hf := finishQuery_spec alive hs₁ pickFinished request.hostname n
    { a4List := request.a4List, a6List := request.a6List }
  simp only [dispatchResolveResult, hp, hn, Prod.mk.injEq, List.append_cancel_left_eq] at hturn
  obtain ⟨rfl, rfl⟩ := hturn
  refine ⟨hf.separates hsep, ?_⟩
  split
  · next hname =>
    subst hname
    exact isPicked_of_pickFinished alive hs₁ hsep n request.a4List request.a6List
  · next hname => exact finishQuery_of_ne alive hs₁ hsep pickFinished hname n _

variable (alive) in
/-- `DispatchResolveResults` picks for `h` when it has a request for it. -/
theorem foldl_dispatchResolveResult_picks (hs : Consistent s) (hsep : Separates s h fs)
    (ho : OneRequest s) {l : List ℕ} (hl : l.Nodup)
    (hlive : ∀ p ∈ l, ∃ x, s.dnsRequestPool.get p = some x) (a : List DnsAnswer) :
    ∃ t b, l.foldl (dispatchResolveResult alive) (s, a) = (t, a ++ b) ∧ Consistent t ∧
      Separates t h fs ∧
      ((∃ p ∈ l, (s.dnsRequestPool.get p).map DnsRequestNode.hostname = some h) ∧
          IsPicked t h (resultsFor fs b) ∨
        (∀ p ∈ l, (s.dnsRequestPool.get p).map DnsRequestNode.hostname ≠ some h) ∧
          t.cacheMap h = s.cacheMap h ∧ resultsFor fs b = []) := by
  induction l generalizing s a with
  | nil =>
    exact ⟨s, [], by simp, hs, hsep, .inr ⟨fun p hp => absurd hp List.not_mem_nil, rfl, rfl⟩⟩
  | cons p l ih =>
    obtain ⟨hp, hl⟩ := List.nodup_cons.1 hl
    obtain ⟨x, hx⟩ := hlive p List.mem_cons_self
    obtain ⟨s₁, a₁, hturn, hs₁, hd, hsep₁, hpicks⟩ :=
      dispatchResolveResult_picks alive hs hsep hx (ho.node p x hx) a
    have hget : ∀ q, s₁.dnsRequestPool.get q = if q = p then none else s.dnsRequestPool.get q := by
      intro q
      rw [hd.dnsRequestPool, Storage.get_foldl_release]
      exact if_congr List.mem_singleton rfl rfl
    have hgetl : ∀ q ∈ l, s₁.dnsRequestPool.get q = s.dnsRequestPool.get q := fun q hq => by
      rw [hget, if_neg (ne_of_mem_of_not_mem hq hp)]
    have hold : ∀ q y, s₁.dnsRequestPool.get q = some y → s.dnsRequestPool.get q = some y := by
      intro q y hy
      rw [hget] at hy
      split at hy
      · cases hy
      · exact hy
    have ho₁ : OneRequest s₁ :=
      ⟨fun q y hy => hd.isSome (ho.node q y (hold q y hy)), fun q q' y y' hy hy' =>
        ho.injective q q' y y' (hold q y hy) (hold q' y' hy')⟩
    obtain ⟨t, b, hrest, ht, hsep', hpicks'⟩ := ih hs₁ hsep₁ ho₁ hl
      (fun q hq => by rw [hgetl q hq]; exact hlive q (List.mem_cons_of_mem _ hq)) (a ++ a₁)
    refine ⟨t, a₁ ++ b, by rw [List.foldl_cons, hturn, hrest, List.append_assoc], ht, hsep', ?_⟩
    rw [resultsFor_append]
    have hname : (s.dnsRequestPool.get p).map DnsRequestNode.hostname = some x.hostname := by
      rw [hx, Option.map_some]
    by_cases hxh : x.hostname = h
    · -- No other request is for the same host name.
      rw [if_pos hxh] at hpicks
      refine .inl ⟨⟨p, List.mem_cons_self, by rw [hname, hxh]⟩, ?_⟩
      rcases hpicks' with ⟨⟨q, hq, hqh⟩, -⟩ | ⟨-, heq, hnone⟩
      · rw [hgetl q hq] at hqh
        obtain ⟨y, hy, hyh⟩ := Option.map_eq_some_iff.1 hqh
        exact absurd (ho.injective q p y x hy hx (hyh.trans hxh.symm) ▸ hq) hp
      · rw [hnone, List.append_nil]
        exact hpicks.congr heq
    · rw [if_neg hxh] at hpicks
      rw [hpicks.2, List.nil_append]
      rcases hpicks' with ⟨⟨q, hq, hqh⟩, hpicked⟩ | ⟨hother, heq, hnone⟩
      · exact .inl ⟨⟨q, List.mem_cons_of_mem _ hq, by rw [← hgetl q hq, hqh]⟩, hpicked⟩
      · refine .inr ⟨fun q hq => ?_, heq.trans hpicks.1, hnone⟩
        rcases List.mem_cons.1 hq with rfl | hq
        · rw [hname]
          exact fun heq => hxh (Option.some.inj heq)
        · rw [← hgetl q hq]
          exact hother q hq

variable (alive) in
/-- `ProcessRequestTimeoutCacheNodes` picks nothing. -/
theorem processRequestTimeoutCacheNodes_picks (hs : Consistent s) (hsep : Separates s h fs)
    {l : List Bytes} (hl : s.cacheRequestTimeoutList = l)
    (hok : processRequestTimeoutCacheNodes alive l s = .ok (t, a)) :
    resultsFor fs a = [] ∧
      (t.cacheMap h = s.cacheMap h ∨ s.IsUnfinished h ∧ IsPicked t h []) := by
  induction l generalizing s a with
  | nil =>
    cases hok
    exact ⟨rfl, .inl rfl⟩
  | cons k l ih =>
    obtain ⟨n, hn, hun⟩ := hs.unfinished k (by rw [hl]; exact List.mem_cons_self)
    have hres : n.result.isNone = true := by
      rw [← Option.isSome_eq_false_iff, hs.result k n hn, hun]
    simp only [processRequestTimeoutCacheNodes, hn, hun, hres, Bool.not_false, asserting_true] at hok
    split at hok
    · have hf := finishQuery_spec alive hs pickTimeout k n {}
      have hs₁ := hf.consistent hs
      have hsep₁ := hf.separates hsep
      have hnodup := hs.nodup
      rw [hl, List.nodup_cons] at hnodup
      have hl₁ : (finishQuery pickTimeout alive s k n {}).1.cacheRequestTimeoutList = l := by
        rw [hf.cacheRequestTimeoutList, hl, List.filter_cons_of_neg (by simp), List.filter_eq_self]
        exact fun k' hk => decide_eq_true (ne_of_mem_of_not_mem hk hnodup.1)
      have hone : resultsFor fs (finishQuery pickTimeout alive s k n {}).2 = [] ∧
          if k = h then IsPicked (finishQuery pickTimeout alive s k n {}).1 h []
          else (finishQuery pickTimeout alive s k n {}).1.cacheMap h = s.cacheMap h := by
        split
        · next hk =>
          subst hk
          exact isPicked_of_pickTimeout alive hs fs n
        · next hk => exact (finishQuery_of_ne alive hs hsep pickTimeout hk n {}).symm
      generalize finishQuery pickTimeout alive s k n {} = x at *
      obtain ⟨s₁, a₁⟩ := x
      dsimp only at hok
      split at hok
      · cases hok
      next s₂ a₂ hrest =>
      cases hok
      obtain ⟨hnone, hmap⟩ := ih hs₁ hsep₁ hl₁ hrest
      refine ⟨by rw [resultsFor_append, hone.1, hnone]; rfl, ?_⟩
      have hone := hone.2
      split at hone
      · next hk =>
        subst hk
        refine .inr ⟨⟨n, hn, hun⟩, ?_⟩
        rcases hmap with heq | ⟨hun', -⟩
        · exact hone.congr heq
        · exact absurd hun' hone.isFinished.not_isUnfinished
      · rcases hmap with heq | ⟨⟨m, hm, hun'⟩, hpicked⟩
        · exact .inl (heq.trans hone)
        · exact .inr ⟨⟨m, hone ▸ hm, hun'⟩, hpicked⟩
    · cases hok
      exact ⟨rfl, .inl rfl⟩

/-- A tick picks for `h` when a lookup of it is back, from its result, and else nothing. -/
theorem tick_picks (hs : Consistent s) (hr : Requested s) (ho : OneRequest s)
    (hsep : Separates s h fs) {nowMS : ℕ} (hok : tick alive s nowMS = .ok (t, a)) :
    s.IsLookedUp h ∧ IsPicked t h (resultsFor fs a) ∨
      ¬s.IsLookedUp h ∧ resultsFor fs a = [] ∧
        (t.cacheMap h = s.cacheMap h ∨ s.IsUnfinished h ∧ IsPicked t h []) := by
  have hs₀ : Consistent { s with localTicker := nowMS, requestFinishedList := [] } :=
    ⟨hs.unfinished, hs.listed, hs.nodup, hs.result, hs.live, hs.pending⟩
  obtain ⟨d, b, hdispatch, hd, hsepd, hpicks⟩ := foldl_dispatchResolveResult_picks (h := h) alive
    hs₀ hsep ⟨ho.node, ho.injective⟩ (List.nodup_append.1 hr.nodup).2.1
    (fun p hp => (hr.live p).2 (.inr hp)) []
  simp only [tick, dispatchResolveResults, hdispatch, List.nil_append] at hok
  split at hok
  · cases hok
  next t₁ a₁ hpass =>
  obtain ⟨hnone, hmap⟩ := processRequestTimeoutCacheNodes_picks alive hd hsepd rfl hpass
  have ht₁ : Consistent t₁ := by
    obtain ⟨t', a', hpass', ht', -⟩ := processRequestTimeoutCacheNodes_spec alive hd rfl
    rw [hpass] at hpass'
    cases hpass'
    exact ht'
  -- The last pass leaves the nodes as they are.
  obtain ⟨t₂, moved, hlast, hpost⟩ := processTimeoutCacheNodes_spec ht₁ rfl
  rw [hlast] at hok
  cases hok
  obtain ⟨l, c, -, rfl⟩ := hpost.moves
  rw [resultsFor_append, hnone, List.append_nil]
  rcases hpicks with ⟨hlooked, hpicked⟩ | ⟨hother, heq, hnil⟩
  · refine .inl ⟨hlooked, ?_⟩
    rcases hmap with heq | ⟨hun, -⟩
    · exact hpicked.congr heq
    · exact absurd hun hpicked.isFinished.not_isUnfinished
  · have hnot : ¬s.IsLookedUp h := by
      rintro ⟨p, hp, hph⟩
      exact hother p hp hph
    refine .inr ⟨hnot, hnil, ?_⟩
    rcases hmap with heq' | ⟨hun, hpicked⟩
    · exact .inl (heq'.trans heq)
    · exact .inr ⟨by simpa only [IsUnfinished, heq] using hun, hpicked⟩

/-! ## Requests -/

/-- A request that is answered at once is given the next pick, and the node keeps what it leaves. -/
theorem resolveDns_ready {k : Bytes} {i : ℕ} {x : Option DnsResult}
    (hok : resolveDns s k i = .ok (t, some (.ready x))) :
    ∃ n c, s.cacheMap k = some n ∧ n.queryFinished = true ∧ n.result = some c ∧
      x = some (pickDnsResult c).1 ∧
      t.cacheMap = Function.update s.cacheMap k (some { n with result := some (pickDnsResult c).2 }) := by
  rw [resolveDns] at hok
  rcases hn : s.cacheMap k with _ | n
  · simp only [hn] at hok
    split at hok
    · cases hok
    · split at hok <;> cases hok
  · simp only [hn] at hok
    split at hok
    · split at hok <;> cases hok
    next hfin =>
    split at hok
    · cases hok
    next c hc =>
    cases hok
    exact ⟨n, c, rfl, by simpa using hfin, hc, rfl, rfl⟩

/-- The next pick. -/
theorem IsPicked.next {results : List DnsResult} {n : DnsLocalCacheNode} {c : DnsLocalCacheResult}
    (hs : IsPicked s h results) (hn : s.cacheMap h = some n) (hc : n.result = some c)
    (hmap : t.cacheMap h = some { n with result := some (pickDnsResult c).2 }) :
    IsPicked t h (results ++ [(pickDnsResult c).1]) := by
  obtain ⟨m, c₀, hm, hfin, h4, h6, hresult, hresults⟩ := hs
  rw [hn, Option.some_inj] at hm
  subst hm
  rw [hc, Option.some_inj] at hresult
  have hlength : (results ++ [(pickDnsResult c).1]).length = results.length + 1 :=
    List.length_append
  refine ⟨_, c₀, hmap, hfin, h4, h6, ?_, ?_⟩
  · rw [hlength, afterCalls_add, ← hresult]
    rfl
  · rw [hlength, calls_add, List.map_append, ← hresults, ← hresult]
    rfl

theorem init_oneRequest (nowMS : ℕ) : OneRequest (init nowMS) where
  node _ _ hx := by cases hx
  injective _ _ _ _ hx := by cases hx

/-- A request does not come twice when no new one is made and no node goes. -/
theorem OneRequest.of_get (hs : OneRequest s)
    (hget : ∀ p y, t.dnsRequestPool.get p = some y →
      ∃ x, s.dnsRequestPool.get p = some x ∧ y.hostname = x.hostname)
    (hmap : ∀ k, (∃ n, s.cacheMap k = some n) → ∃ n, t.cacheMap k = some n) : OneRequest t where
  node p y hy := by
    obtain ⟨x, hx, hyx⟩ := hget p y hy
    exact hyx ▸ hmap _ (hs.node p x hx)
  injective p p' y y' hy hy' heq := by
    obtain ⟨x, hx, hyx⟩ := hget p y hy
    obtain ⟨x', hx', hyx'⟩ := hget p' y' hy'
    exact hs.injective p p' x x' hx hx' (hyx.symm.trans (heq.trans hyx'))

theorem Waits.oneRequest {k : Bytes} {i : ℕ} (hw : Waits s k i t) (hs : OneRequest s) :
    OneRequest t := by
  rcases hw.lookup with ⟨-, -, hpool, hmap, -⟩ | ⟨hnone, ⟨p, -, hp, hget⟩, hmap, -⟩
  · exact hs.of_get (fun q y hy => ⟨y, hpool ▸ hy, rfl⟩) fun k hk => hmap ▸ hk
  · -- The new request is the first for a host name that had no node.
    have hnew : ∀ q y, s.dnsRequestPool.get q = some y → y.hostname ≠ k := by
      rintro q y hy rfl
      obtain ⟨n, hn⟩ := hs.node q y hy
      rw [hnone] at hn
      cases hn
    refine ⟨fun q y hy => ?_, fun q q' y y' hy hy' heq => ?_⟩
    · rw [hget] at hy
      split at hy
      · cases hy
        exact ⟨_, by rw [hmap]; exact Function.update_self _ _ _⟩
      · obtain ⟨n, hn⟩ := hs.node q y hy
        exact ⟨n, by rw [hmap, Function.update_of_ne (hnew q y hy), hn]⟩
    · rw [hget] at hy hy'
      split at hy <;> split at hy'
      · next hq hq' => rw [hq, hq']
      · cases hy
        exact absurd heq.symm (hnew q' y' hy')
      · cases hy'
        exact absurd heq (hnew q y hy)
      · exact hs.injective q q' y y' hy hy' heq

theorem finishRequest_oneRequest (hs : OneRequest s) (p : ℕ) (a4List a6List : List NetAddress) :
    OneRequest (finishRequest s p a4List a6List) := by
  rcases finishRequest_eq s p a4List a6List with heq | ⟨-, r, hr, heq⟩
  · rw [heq]
    exact hs
  rw [heq]
  refine hs.of_get (fun q y hy => ?_) fun k hk => hk
  change (s.dnsRequestPool.set p _).get q = some y at hy
  rw [Storage.get_set hr] at hy
  split at hy
  · next hq =>
    cases hy
    exact ⟨r, hq ▸ hr, rfl⟩
  · exact ⟨y, hy, rfl⟩

theorem Ticks.oneRequest {nowMS : ℕ} (ht : Ticks alive s nowMS t a) (hs : OneRequest s) :
    OneRequest t := by
  refine hs.of_get (fun q y hy => ⟨y, ?_, rfl⟩) fun k hk => ht.isSome hk
  rw [ht.dnsRequestPool, Storage.get_foldl_release] at hy
  split at hy
  · cases hy
  · exact hy

end DnsLocalService

/-! ## Runs -/

namespace DnsRun

open DnsLocalService

variable {n nowMS : ℕ} {r t : DnsRun} {h : Bytes}

/-- The results that are left in the futures of the requests for `h`, in order. -/
def pickedBy (h : Bytes) (r : DnsRun) : DnsEvent → List DnsResult
  | .resolveDns hostname =>
    if hostname = h then
      match r.futures.acquireFuture () with
      | none => []
      | some (i, _) => match r.service.resolveDns hostname i with
        | .ok (_, some (.ready (some result))) => [result]
        | _ => []
    else []
  | .tick nowMS => match r.service.tick r.alive nowMS with
    | .ok (_, answers) => resultsFor (r.service.waitingFor h) answers
    | .error _ => []
  | _ => []

/-- A tick stores a new result for `h` when a lookup of it is back. -/
def Stores (h : Bytes) (r : DnsRun) : DnsEvent → Prop
  | .tick _ => r.service.IsLookedUp h
  | _ => False

instance (h : Bytes) (r : DnsRun) : ∀ e : DnsEvent, Decidable (Stores h r e)
  | .tick _ => inferInstanceAs (Decidable (r.service.IsLookedUp h))
  | .resolveDns _ | .releaseFuture _ | .popReady | .finishRequest .. => .isFalse id

/-- What is picked for `h` since a lookup stored a result: `picked`, then what is picked on the events
    from `r`, unless they store a new one. -/
def pickedSince (h : Bytes) : List DnsResult → DnsRun → List DnsEvent → List DnsResult
  | picked, _, [] => picked
  | picked, r, e :: es => match step r e with
    | .ok t => pickedSince h ((if Stores h r e then [] else picked) ++ pickedBy h r e) t es
    | .error _ => picked

/-- What was picked for `h`, of a state. -/
def Picked (h : Bytes) (r : DnsRun) (picked : List DnsResult) : Prop :=
  ¬r.service.IsFinished h ∧ picked = [] ∨ IsPicked r.service h picked

theorem Picked.of_unfinished {picked : List DnsResult} (hp : Picked h r picked)
    (hun : ¬r.service.IsFinished h) : picked = [] := by
  rcases hp with ⟨-, hnil⟩ | hpicked
  · exact hnil
  · exact absurd hpicked.isFinished hun

theorem Picked.congr {picked : List DnsResult} (hp : Picked h r picked)
    (heq : t.service.cacheMap h = r.service.cacheMap h) : Picked h t picked := by
  rcases hp with ⟨hun, hnil⟩ | hpicked
  · exact .inl ⟨by simpa only [IsFinished, heq] using hun, hnil⟩
  · exact .inr (hpicked.congr heq)

/-- The futures of the requests for one host name are not those of another. -/
theorem Accounted.separates (hr : Accounted r) (h : Bytes) :
    Separates r.service h (r.service.waitingFor h) := by
  intro k q x hq hx
  rw [waitingFor, List.mem_filterMap]
  constructor
  · rintro ⟨q', hq', hx'⟩
    obtain ⟨x', hx', heq⟩ := Option.map_eq_some_iff.1 hx'
    obtain rfl := hr.injective q' q x' x hx' hx heq
    exact r.service.pendingSourceRequestList.disjoint hq hq'
  · rintro rfl
    exact ⟨q, hq, by rw [hx, Option.map_some]⟩

/-- A request picks for its host name when it is answered at once, and for no other. -/
theorem pickedBy_resolveDns {hostname : Bytes} {i : ℕ} {m : FuturePoolManager Unit DnsResult}
    {s : DnsLocalService} {answer : Option (Completion DnsResult)}
    (hm : r.futures.acquireFuture () = some (i, m))
    (hres : r.service.resolveDns hostname i = .ok (s, answer)) :
    pickedBy h r (.resolveDns hostname) = if hostname = h then
      match answer with
      | some (.ready (some x)) => [x]
      | _ => []
    else [] := by
  rw [pickedBy, hm]
  dsimp only
  rw [hres]
  rcases answer with _ | _ | _ | _ <;> rfl

/-- A request that waits picks nothing; it may be the first for its host name. -/
theorem Picked.wait {hostname : Bytes} {i : ℕ} {s : DnsLocalService} {picked : List DnsResult}
    (hp : Picked h r picked) (hwait : Waits r.service hostname i s)
    (hservice : t.service = s) : Picked h t picked := by
  rcases hwait.lookup with ⟨-, -, -, hmap, -⟩ | ⟨hnone, -, hmap, -⟩
  · exact hp.congr (hservice ▸ congrFun hmap h)
  · rw [← hservice] at hmap
    by_cases hh : h = hostname
    · subst hh
      have hun : ¬r.service.IsFinished h := fun ⟨y, hy, _⟩ => by
        rw [hnone] at hy
        cases hy
      refine .inl ⟨?_, hp.of_unfinished hun⟩
      refine fun hfin => hfin.not_isUnfinished ⟨{ timestampMS := r.service.localTicker }, ?_, rfl⟩
      exact (congrFun hmap h).trans (Function.update_self _ _ _)
    · exact hp.congr ((congrFun hmap h).trans (Function.update_of_ne hh _ _))

/-- A request that is answered from the cache picks the next result of its host name. -/
theorem Picked.serve {hostname : Bytes} {i : ℕ} {s : DnsLocalService} {x : DnsResult}
    {picked : List DnsResult} (hp : Picked h r picked)
    (hres : r.service.resolveDns hostname i = .ok (s, some (.ready (some x))))
    (hservice : t.service = s) : Picked h t (picked ++ if hostname = h then [x] else []) := by
  obtain ⟨y, c, hy, hfin, hc, hx, hmap⟩ := resolveDns_ready hres
  cases hx
  rw [← hservice] at hmap
  by_cases hh : hostname = h
  · subst hh
    rw [if_pos rfl]
    refine .inr (IsPicked.next ?_ hy hc ((congrFun hmap _).trans (Function.update_self _ _ _)))
    rcases hp with ⟨hun, -⟩ | hpicked
    · exact absurd ⟨y, hy, hfin⟩ hun
    · exact hpicked
  · rw [if_neg hh, List.append_nil]
    exact hp.congr ((congrFun hmap h).trans (Function.update_of_ne (Ne.symm hh) _ _))

/-- Every step picks in turn, or stores a new result. -/
theorem step_picked {e : DnsEvent} {picked : List DnsResult} (hr : Accounted r)
    (ho : OneRequest r.service) (hp : Picked h r picked) (hstep : step r e = .ok t) :
    OneRequest t.service ∧
      Picked h t ((if Stores h r e then [] else picked) ++ pickedBy h r e) := by
  cases step_move hr hstep with
  | full hostname hnone =>
    rw [pickedBy, hnone, if_neg (by exact id), ite_self, List.append_nil]
    exact ⟨ho, hp⟩
  | refuse hostname i m s hm hres hsame =>
    rw [pickedBy_resolveDns hm hres, if_neg (by exact id), ite_self, List.append_nil]
    refine ⟨?_, hp.congr (congrFun hsame.cacheMap h)⟩
    refine ho.of_get (fun q y hy => ⟨y, hsame.dnsRequestPool ▸ hy, rfl⟩) fun k hk => ?_
    change ∃ z, s.cacheMap k = some z
    rw [hsame.cacheMap]
    exact hk
  | wait hostname i m s hm hres hwait =>
    rw [pickedBy_resolveDns hm hres, if_neg (by exact id), ite_self, List.append_nil]
    exact ⟨hwait.oneRequest ho, hp.wait hwait rfl⟩
  | serve hostname i m s x hm hres hserve =>
    rw [pickedBy_resolveDns hm hres, if_neg (by exact id)]
    refine ⟨ho.of_get (fun q z hz => ⟨z, hserve.dnsRequestPool ▸ hz, rfl⟩) fun k hk => ?_,
      hp.serve hres rfl⟩
    obtain ⟨y, c, -, -, hmap⟩ := hserve.node
    change ∃ z, s.cacheMap k = some z
    rw [hmap, Function.update_apply]
    split
    · exact ⟨_, rfl⟩
    · exact hk
  | release i =>
    have hkeep : Picked h { r with futures := r.futures.releaseFuture i } picked := hp.congr rfl
    exact ⟨ho, by simpa [Stores, pickedBy] using hkeep⟩
  | idle => exact ⟨ho, by simpa [Stores, pickedBy] using hp⟩
  | pop i m hm =>
    have hkeep : Picked h { r with futures := m } picked := hp.congr rfl
    exact ⟨ho, by simpa [Stores, pickedBy] using hkeep⟩
  | finish p a4List a6List =>
    refine ⟨finishRequest_oneRequest ho p a4List a6List, ?_⟩
    have hmap : (r.service.finishRequest p a4List a6List).cacheMap = r.service.cacheMap := by
      rcases finishRequest_eq r.service p a4List a6List with heq | ⟨-, x, -, heq⟩
      · rw [heq]
      · rw [heq]
    simpa [Stores, pickedBy] using
      hp.congr (t := { r with service := r.service.finishRequest p a4List a6List }) (congrFun hmap h)
  | tick nowMS s answers hok hticks =>
    simp only [pickedBy, hok]
    refine ⟨hticks.oneRequest ho, ?_⟩
    rcases tick_picks hr.consistent hr.requested ho (hr.separates h) hok with
      ⟨hlooked, hpicked⟩ | ⟨hlooked, hnil, hmap⟩
    · rw [if_pos (show Stores h r (.tick nowMS) from hlooked), List.nil_append]
      exact .inr hpicked
    · rw [if_neg (show ¬Stores h r (.tick nowMS) from hlooked), hnil, List.append_nil]
      rcases hmap with heq | ⟨hun, hpicked⟩
      · exact hp.congr heq
      · rw [hp.of_unfinished fun hfin => hfin.not_isUnfinished hun]
        exact .inr hpicked

theorem exec_picked {es : List DnsEvent} {picked : List DnsResult} (hr : Accounted r)
    (ho : OneRequest r.service) (hp : Picked h r picked) (hexec : exec step r es = .ok t) :
    Picked h t (pickedSince h picked r es) := by
  induction es generalizing r picked with
  | nil =>
    cases hexec
    exact hp
  | cons e es ih =>
    obtain ⟨u, hu, hexec⟩ := exec_cons_eq_ok.1 hexec
    obtain ⟨hou, hpu⟩ := step_picked hr ho hp hu
    simp only [pickedSince, hu]
    exact ih (step_accounted hr e hu) hou hpu hexec

/-- In every run, what is picked for a host name, by the requests that waited for its lookup and
    those that came later, is what `PickDnsResult` returns in so many calls on the result as it was
    stored; and these take the addresses of each family in turn. -/
theorem picked_inTurn {es : List DnsEvent} {node : DnsLocalCacheNode}
    (hexec : exec step (init n nowMS) es = .ok r) (hnode : r.service.cacheMap h = some node)
    (hfin : node.queryFinished = true) :
    ∃ (c₀ c : DnsLocalCacheResult) (k : ℕ), node.result = some c ∧
      c.a4List = c₀.a4List ∧ c.a6List = c₀.a6List ∧
      c₀.lastA4ResultIndex = 0 ∧ c₀.lastA6ResultIndex = 0 ∧ c = afterCalls pickDnsResult k c₀ ∧
      pickedSince h [] (init n nowMS) es = (calls pickDnsResult k c₀).map Prod.fst ∧
      PickedInTurn c.a4List (picks4 (calls pickDnsResult k c₀)) ∧
      PickedInTurn c.a6List (picks6 (calls pickDnsResult k c₀)) := by
  have hpicked := exec_picked (h := h) (init_accounted n nowMS) (init_oneRequest nowMS)
    (.inl ⟨fun ⟨_, hm, _⟩ => (by cases hm), rfl⟩) hexec
  obtain ⟨hun, -⟩ | ⟨m, c₀, hm, -, h4, h6, hresult, hresults⟩ := hpicked
  · exact absurd ⟨node, hnode, hfin⟩ hun
  rw [hnode, Option.some_inj] at hm
  subst hm
  have h4List := map_afterCalls (f := pickDnsResult) (g := DnsLocalCacheResult.a4List)
    (fun _ => rfl) (pickedSince h [] (init n nowMS) es).length c₀
  have h6List := map_afterCalls (f := pickDnsResult) (g := DnsLocalCacheResult.a6List)
    (fun _ => rfl) (pickedSince h [] (init n nowMS) es).length c₀
  refine ⟨c₀, _, _, hresult, h4List, h6List, h4, h6, rfl, hresults, ?_⟩
  rw [h4List, h6List]
  exact picked_calls c₀ _

/-- Two requests that wait for a lookup with three addresses, and two that come later. -/
def fourPicks : List DnsEvent :=
  [.resolveDns [97], .resolveDns [97],
    .finishRequest 1 [{ type := .ipv4, bytes := [1] }, { type := .ipv4, bytes := [2] }]
      [{ type := .ipv6, bytes := [3] }],
    .tick 2, .resolveDns [97], .resolveDns [97]]

theorem picked_inTurn_fourPicks :
    ∃ r node c c₀ k, exec step (init 9 1) fourPicks = .ok r ∧
      r.service.cacheMap [97] = some node ∧ node.result = some c ∧
      pickedSince [97] [] (init 9 1) fourPicks = (calls pickDnsResult k c₀).map Prod.fst ∧
      PickedInTurn c.a4List (picks4 (calls pickDnsResult k c₀)) ∧
      PickedInTurn c.a6List (picks6 (calls pickDnsResult k c₀)) := by
  obtain ⟨r, hr, hcheck⟩ := exists_ok_of_check (x := exec step (init 9 1) fourPicks)
    (p := fun r => (r.service.cacheMap [97]).any DnsLocalCacheNode.queryFinished)
    (by decide +kernel)
  rw [Option.any_eq_true] at hcheck
  obtain ⟨node, hnode, hfin⟩ := hcheck
  obtain ⟨c₀, c, k, hc, -, -, -, -, -, hpicks⟩ := picked_inTurn hr hnode hfin
  exact ⟨r, node, c, c₀, k, hr, hnode, hc, hpicks⟩

example : (pickedSince [97] [] (init 9 1) fourPicks).map (fun x => (x.a4.bytes, x.a6.bytes)) =
    [([2], [3]), ([1], [3]), ([2], [3]), ([1], [3])] := by decide +kernel

end DnsRun

end ProxyPlatform
