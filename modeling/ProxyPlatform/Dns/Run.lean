import ProxyPlatform.Dns.Calls

/-!
# Runs of the DNS service

The events of the service are the requests of a user, the lookups that come to an end, in
any order, and the ticks, at any times. The user has a future of its own for each request,
and releases it when it likes. `DnsRun` keeps the lookups issued, the futures of the requests
accepted and refused, and the calls of `SetReady`, in order.

* `Accounted`: the requests are accounted for: what is accepted waits, was made ready, or its
  future is gone;
* `Move`: what each event does;
* `accounted_of_exec`, `exists_exec`: no run fails, and every state of it is accounted for.
-/

namespace ProxyPlatform

/-- An event of the service. -/
inductive DnsEvent
  | resolveDns (hostname : Bytes)
  /-- The user releases the future `i`. -/
  | releaseFuture (i : ℕ)
  /-- The user takes the first of its ready futures. -/
  | popReady
  /-- A query thread ends the lookup of a request. -/
  | finishRequest (requestNodeId : ℕ) (a4List a6List : List NetAddress)
  | tick (nowMS : ℕ)

/-- The service, with its user. -/
structure DnsRun where
  service : DnsLocalService
  futures : FuturePoolManager Unit DnsResult
  /-- The host names of the lookups so far. -/
  issued : List Bytes
  /-- The futures of the requests for which `ResolveDns` returned `true`. -/
  accepted : List ℕ
  /-- The futures of the requests for which it returned `false`. -/
  refused : List ℕ
  /-- The futures `SetReady` was called on. -/
  readied : List ℕ

namespace DnsRun

open DnsLocalService

variable {n nowMS : ℕ} {r t u : DnsRun}

/-- The service at the time `nowMS`, with a user of at most `n` futures. -/
def init (n nowMS : ℕ) : DnsRun where
  service := .init nowMS
  futures := .empty n
  issued := []
  accepted := []
  refused := []
  readied := []

/-- The future `i` is live. -/
def alive (r : DnsRun) (i : ℕ) : Bool := (r.futures.get i).isSome

/-- The host names of the requests that are new in `RequestList`. -/
def issuedBy (s t : DnsLocalService) : List Bytes :=
  (t.requestList.filter (· ∉ s.requestList)).filterMap fun p =>
    (t.dnsRequestPool.get p).map DnsRequestNode.hostname

/-- What `ResolveDns` returned for the future `i`. -/
def resolved (r : DnsRun) (i : ℕ) (futures : FuturePoolManager Unit DnsResult)
    (service : DnsLocalService) (answer : Option (Completion DnsResult)) : DnsRun :=
  let r := { r with
    service := service
    futures := futures
    issued := r.issued ++ issuedBy r.service service }
  match answer with
  | none => { r with refused := r.refused ++ [i] }
  | some .pending => { r with accepted := r.accepted ++ [i] }
  | some (.ready result) => { r with
    futures := futures.setReady i result
    accepted := r.accepted ++ [i]
    readied := r.readied ++ [i] }

/-- A step of the service and its user. -/
def step (r : DnsRun) : DnsEvent → Except Fault DnsRun
  | .resolveDns hostname => match r.futures.acquireFuture () with
    | none => .ok r
    | some (i, futures) => match r.service.resolveDns hostname i with
      | .error x => .error x
      | .ok (service, answer) => .ok (r.resolved i futures service answer)
  | .releaseFuture i => .ok { r with futures := r.futures.releaseFuture i }
  | .popReady => match r.futures.popHead with
    | none => .ok r
    | some (_, futures) => .ok { r with futures := futures }
  | .finishRequest requestNodeId a4List a6List =>
    .ok { r with service := r.service.finishRequest requestNodeId a4List a6List }
  | .tick nowMS => match r.service.tick r.alive nowMS with
    | .error x => .error x
    | .ok (service, answers) => .ok { r with
      service := service
      futures := r.futures.setReadyAll answers
      readied := r.readied ++ answers.map Prod.fst }

/-! ## What holds in every state -/

/-- A source request waits with the future `i`. -/
def IsAwaited (r : DnsRun) (i : ℕ) : Prop :=
  ∃ q x, r.service.dnsSourceRequestPool.get q = some x ∧ x.futureHandle = i

/-- The requests are accounted for. -/
structure Accounted (r : DnsRun) : Prop where
  consistent : Consistent r.service
  requested : Requested r.service
  injective : ∀ q q' x x', r.service.dnsSourceRequestPool.get q = some x →
    r.service.dnsSourceRequestPool.get q' = some x' → x.futureHandle = x'.futureHandle → q = q'
  awaited : ∀ i, r.IsAwaited i → i ∈ r.accepted ∧ i ∉ r.readied
  turn : ∀ i ∈ r.accepted, r.IsAwaited i ∨ i ∈ r.readied ∨ r.futures.get i = none
  accepted : ∀ i ∈ r.readied, i ∈ r.accepted
  nodup_readied : r.readied.Nodup
  nodup : (r.accepted ++ r.refused).Nodup
  bound : ∀ i ∈ r.accepted ++ r.refused, i ≤ r.futures.futurePool.lastId
  isReady : ∀ i f, r.futures.get i = some f → (f.isReady = true ↔ i ∈ r.readied)
  nodup_issued : r.issued.Nodup
  issued : ∀ h, h ∈ r.issued ↔ ∃ m, r.service.cacheMap h = some m

theorem init_accounted (n nowMS : ℕ) : Accounted (init n nowMS) where
  consistent := init_consistent nowMS
  requested := init_requested nowMS
  injective _ _ _ _ hx := by cases hx
  awaited _ := fun ⟨_, _, hx, _⟩ => (by cases hx)
  turn _ hi := by cases hi
  accepted _ hi := by cases hi
  nodup_readied := List.nodup_nil
  nodup := List.nodup_nil
  bound _ hi := by cases hi
  isReady _ _ hf := by cases hf
  nodup_issued := List.nodup_nil
  issued _ := ⟨fun hh => absurd hh List.not_mem_nil, fun ⟨_, hm⟩ => (by cases hm)⟩

/-- What is accounted for stays so when only the futures change: none is new, and which are ready
    stays. -/
theorem Accounted.of_futures (hr : Accounted r) {m : FuturePoolManager Unit DnsResult}
    (hget : ∀ i f, m.get i = some f → ∃ g, r.futures.get i = some g ∧ g.isReady = f.isReady)
    (hlast : m.futurePool.lastId = r.futures.futurePool.lastId) :
    Accounted { r with futures := m } where
  consistent := hr.consistent
  requested := hr.requested
  injective := hr.injective
  awaited := hr.awaited
  turn i hi := by
    rcases hr.turn i hi with h | h | h
    · exact .inl h
    · exact .inr (.inl h)
    · refine .inr (.inr ?_)
      rcases hm : m.get i with _ | f
      · rfl
      · obtain ⟨g, hg, -⟩ := hget i f hm
        rw [h] at hg
        cases hg
  accepted := hr.accepted
  nodup_readied := hr.nodup_readied
  nodup := hr.nodup
  bound i hi := hlast ▸ hr.bound i hi
  isReady i f hf := by
    obtain ⟨g, hg, hgf⟩ := hget i f hf
    rw [← hgf]
    exact hr.isReady i g hg
  nodup_issued := hr.nodup_issued
  issued := hr.issued

/-- What is accounted for stays so when a lookup ends. -/
theorem Accounted.finishRequest (hr : Accounted r) (p : ℕ) (a4List a6List : List NetAddress) :
    Accounted { r with service := r.service.finishRequest p a4List a6List } := by
  have hc := finishRequest_consistent hr.consistent p a4List a6List
  have hq := finishRequest_requested hr.requested p a4List a6List
  rcases finishRequest_eq r.service p a4List a6List with heq | ⟨-, x, -, heq⟩
  · rw [heq]
    exact hr
  · rw [heq] at hc hq ⊢
    exact ⟨hc, hq, hr.injective, hr.awaited, hr.turn, hr.accepted, hr.nodup_readied, hr.nodup,
      hr.bound, hr.isReady, hr.nodup_issued, hr.issued⟩

/-- What is accounted for stays so over a tick. -/
theorem Accounted.ticks (hr : Accounted r) {s : DnsLocalService} {answers : List DnsAnswer}
    (h : Ticks r.alive r.service nowMS s answers) :
    Accounted { r with
      service := s
      futures := r.futures.setReadyAll answers
      readied := r.readied ++ answers.map Prod.fst } := by
  have hold : ∀ q x, s.dnsSourceRequestPool.get q = some x →
      r.service.dnsSourceRequestPool.get q = some x := fun q x hx => h.settles.get hx
  have hlive : ∀ i, (r.futures.setReadyAll answers).get i = none ↔ r.futures.get i = none := by
    intro i
    have hi := congrArg Option.isNone (FuturePoolManager.get_setReadyAll r.futures answers i)
    rw [Option.isNone_map, Option.isNone_map] at hi
    rw [← Option.isNone_iff_eq_none, hi, Option.isNone_iff_eq_none]
  -- The futures made ready were awaited.
  have hanswer : ∀ i ∈ answers.map Prod.fst, r.IsAwaited i := by
    intro i hi
    obtain ⟨-, q, x, hx, -, hxi⟩ := h.settles.mem_iff.1 hi
    exact ⟨q, x, hx, hxi⟩
  refine ⟨h.consistent, h.requested hr.requested,
    fun q q' x x' hx hx' => hr.injective q q' x x' (hold q x hx) (hold q' x' hx'), ?_, ?_, ?_, ?_,
    hr.nodup, ?_, ?_, hr.nodup_issued, ?_⟩
  · rintro i ⟨q, x, hx, rfl⟩
    obtain ⟨hacc, hnot⟩ := hr.awaited _ ⟨q, x, hold q x hx, rfl⟩
    refine ⟨hacc, fun hmem => ?_⟩
    rcases List.mem_append.1 hmem with hmem | hmem
    · exact hnot hmem
    · obtain ⟨-, q', x', hx', hgone, hxx⟩ := h.settles.mem_iff.1 hmem
      obtain rfl := hr.injective q' q x' x hx' (hold q x hx) hxx
      rw [hgone] at hx
      cases hx
  · intro i hi
    rcases hr.turn i hi with ⟨q, x, hx, rfl⟩ | hmem | hnone
    · rcases hq : s.dnsSourceRequestPool.get q with _ | x'
      · by_cases ha : r.alive x.futureHandle = true
        · exact .inr (.inl (List.mem_append_right _ (h.settles.mem_iff.2 ⟨ha, q, x, hx, hq, rfl⟩)))
        · refine .inr (.inr ((hlive _).2 ?_))
          rwa [alive, Bool.not_eq_true, Option.isSome_eq_false_iff, Option.isNone_iff_eq_none] at ha
      · have hxx := hold q x' hq
        rw [hx, Option.some_inj] at hxx
        exact .inl ⟨q, x', hq, by rw [hxx]⟩
    · exact .inr (.inl (List.mem_append_left _ hmem))
    · exact .inr (.inr ((hlive i).2 hnone))
  · intro i hi
    rcases List.mem_append.1 hi with hi | hi
    · exact hr.accepted i hi
    · exact (hr.awaited i (hanswer i hi)).1
  · refine List.nodup_append.2 ⟨hr.nodup_readied, h.settles.nodup hr.injective, ?_⟩
    rintro i hi _ hi' rfl
    exact (hr.awaited i (hanswer i hi')).2 hi
  · intro i hi
    rw [FuturePoolManager.lastId_setReadyAll]
    exact hr.bound i hi
  · intro i f hf
    have hi := FuturePoolManager.get_setReadyAll r.futures answers i
    rcases hg : r.futures.get i with _ | g
    · rw [(hlive i).2 hg] at hf
      cases hf
    · rw [hf, hg, Option.map_some, Option.map_some, Option.some_inj] at hi
      rw [hi, Bool.or_eq_true, decide_eq_true_eq, hr.isReady i g hg, List.mem_append]
  · intro k
    rw [hr.issued]
    refine ⟨fun hk => h.isSome hk, fun ⟨m, hm⟩ => ?_⟩
    rcases h.cacheMap k with heq | ⟨hk, -⟩
    · exact ⟨m, heq ▸ hm⟩
    · exact hk

/-- A lookup is issued for a request that makes a node. -/
theorem issuedBy_of_waits {s : DnsLocalService} {hostname : Bytes} {i : ℕ}
    (hs : Requested r.service) (h : Waits r.service hostname i s) :
    issuedBy r.service s = if r.service.cacheMap hostname = none then [hostname] else [] := by
  have hold (l : List ℕ) : (l.filter (· ∉ l)) = [] := List.filter_eq_nil_iff.2 (by simp)
  rcases h.lookup with ⟨⟨m, hm, -⟩, hl, -, -, -⟩ | ⟨hnone, ⟨p, hl, hp, hget⟩, -, -⟩
  · rw [issuedBy, hl, hold, hm]
    rfl
  · have hnew : p ∉ r.service.requestList := by
      intro hmem
      obtain ⟨x, hx⟩ := (hs.live p).2 (.inl hmem)
      rw [hp] at hx
      cases hx
    have hpget : s.dnsRequestPool.get p = some ⟨p, hostname, [], []⟩ := by rw [hget, if_pos rfl]
    rw [issuedBy, hl, List.filter_append, hold, if_pos hnone]
    simp [hnew, hpget]

theorem issuedBy_of_eq {s : DnsLocalService} (h : s.requestList = r.service.requestList) :
    issuedBy r.service s = [] := by
  rw [issuedBy, h, List.filter_eq_nil_iff.2 (by simp), List.filterMap_nil]

/-- The future `i` is new: it is live, and no request was made with it yet. -/
structure IsFresh (r : DnsRun) (i : ℕ) : Prop where
  accepted : i ∉ r.accepted
  refused : i ∉ r.refused
  bound : i ≤ r.futures.futurePool.lastId
  get : r.futures.get i = some { context := () }

theorem IsFresh.not_readied {i : ℕ} (h : r.IsFresh i) (hr : Accounted r) : i ∉ r.readied :=
  fun hi => h.accepted (hr.accepted i hi)

theorem IsFresh.not_isAwaited {i : ℕ} (h : r.IsFresh i) (hr : Accounted r) : ¬r.IsAwaited i :=
  fun hi => h.accepted (hr.awaited i hi).1

theorem IsFresh.nodup {i : ℕ} (h : r.IsFresh i) (hr : Accounted r) :
    (i :: (r.accepted ++ r.refused)).Nodup := by
  refine List.nodup_cons.2 ⟨?_, hr.nodup⟩
  rw [List.mem_append, not_or]
  exact ⟨h.accepted, h.refused⟩

/-- A future that is acquired is new, and what is accounted for stays so. -/
theorem Accounted.acquire (hr : Accounted r) {i : ℕ} {m : FuturePoolManager Unit DnsResult}
    (h : r.futures.acquireFuture () = some (i, m)) :
    Accounted { r with futures := m } ∧ IsFresh { r with futures := m } i := by
  obtain ⟨hnone, -, -, hget⟩ := FuturePoolManager.acquireFuture_eq_some h
  obtain ⟨hi, hlast⟩ := FuturePoolManager.lastId_of_acquireFuture h
  have hnew : i ∉ r.accepted ++ r.refused := fun hmem => by
    have := hr.bound i hmem
    omega
  rw [List.mem_append, not_or] at hnew
  refine ⟨⟨hr.consistent, hr.requested, hr.injective, hr.awaited, fun j hj => ?_, hr.accepted,
    hr.nodup_readied, hr.nodup, fun j hj => ?_, fun j f hf => ?_, hr.nodup_issued, hr.issued⟩,
    hnew.1, hnew.2, hlast.ge, (hget i).trans (if_pos rfl)⟩
  · rcases hr.turn j hj with h | h | h
    · exact .inl h
    · exact .inr (.inl h)
    · exact .inr (.inr ((hget j).trans (by rw [if_neg (ne_of_mem_of_not_mem hj hnew.1), h])))
  · have := hr.bound j hj
    change j ≤ m.futurePool.lastId
    omega
  · change m.get j = some f at hf
    rw [hget] at hf
    split at hf
    · next hji =>
      rw [Option.some_inj] at hf
      rw [← hf, hji]
      exact iff_of_false (by decide) fun hmem => hnew.1 (hr.accepted i hmem)
    · exact hr.isReady j f hf

/-- A request refused: only its future is new. -/
theorem Accounted.refuse (hr : Accounted r) {i : ℕ} (hi : r.IsFresh i) {s : DnsLocalService}
    (h : SameContents r.service s) : Accounted (r.resolved i r.futures s none) := by
  rw [resolved, issuedBy_of_eq h.requestList, List.append_nil]
  have hsource : ∀ q x, s.dnsSourceRequestPool.get q = some x ↔
      r.service.dnsSourceRequestPool.get q = some x := fun q x => by rw [h.sources]
  refine ⟨h.consistent hr.consistent, h.requested hr.requested, ?_, ?_, ?_, hr.accepted,
    hr.nodup_readied, ?_, ?_, hr.isReady, hr.nodup_issued, ?_⟩
  · exact fun q q' x x' hx hx' => hr.injective q q' x x' ((hsource q x).1 hx) ((hsource q' x').1 hx')
  · exact fun j ⟨q, x, hx, hxj⟩ => hr.awaited j ⟨q, x, (hsource q x).1 hx, hxj⟩
  · intro j hj
    rcases hr.turn j hj with ⟨q, x, hx, hxj⟩ | hj
    · exact .inl ⟨q, x, (hsource q x).2 hx, hxj⟩
    · exact .inr hj
  · rw [← List.append_assoc]
    exact (List.perm_append_singleton i _).nodup_iff.2 (hi.nodup hr)
  · intro j hj
    rw [← List.append_assoc, List.mem_append, List.mem_singleton] at hj
    rcases hj with hj | rfl
    · exact hr.bound j hj
    · exact hi.bound
  · intro k
    change k ∈ r.issued ↔ ∃ m, s.cacheMap k = some m
    rw [h.cacheMap]
    exact hr.issued k

/-- The futures of the requests, with one more that is accepted. -/
theorem perm_accept (r : DnsRun) (i : ℕ) :
    (r.accepted ++ [i] ++ r.refused).Perm (i :: (r.accepted ++ r.refused)) := by
  rw [List.append_assoc]
  exact List.perm_middle

theorem Accounted.nodup_accept (hr : Accounted r) {i : ℕ} (hi : r.IsFresh i) :
    (r.accepted ++ [i] ++ r.refused).Nodup :=
  (perm_accept r i).nodup_iff.2 (hi.nodup hr)

theorem Accounted.bound_accept (hr : Accounted r) {i : ℕ} (hi : r.IsFresh i) :
    ∀ j ∈ r.accepted ++ [i] ++ r.refused, j ≤ r.futures.futurePool.lastId := by
  intro j hj
  rcases List.mem_cons.1 ((perm_accept r i).mem_iff.1 hj) with rfl | hj
  · exact hi.bound
  · exact hr.bound j hj

/-- A request that waits: there is one more source request, for its future. -/
theorem Accounted.wait (hr : Accounted r) {i : ℕ} (hi : r.IsFresh i) {s : DnsLocalService}
    {hostname : Bytes} (h : Waits r.service hostname i s) :
    Accounted (r.resolved i r.futures s (some .pending)) := by
  obtain ⟨q, hq, hsource, -⟩ := h.source
  have hcases : ∀ q' x, s.dnsSourceRequestPool.get q' = some x → q' = q ∧ x.futureHandle = i ∨
      r.service.dnsSourceRequestPool.get q' = some x ∧ x.futureHandle ≠ i := by
    intro q' x hx
    rw [hsource] at hx
    split at hx
    · next hq' =>
      rw [Option.some_inj] at hx
      exact .inl ⟨hq', by rw [← hx]⟩
    · exact .inr ⟨hx, fun hxi => hi.not_isAwaited hr ⟨q', x, hx, hxi⟩⟩
  have hkeep : ∀ q' x, r.service.dnsSourceRequestPool.get q' = some x →
      s.dnsSourceRequestPool.get q' = some x := by
    intro q' x hx
    rw [hsource, if_neg, hx]
    rintro rfl
    rw [hq] at hx
    cases hx
  refine ⟨h.consistent hr.consistent, h.requested hr.requested, ?_, ?_, ?_, ?_,
    hr.nodup_readied, hr.nodup_accept hi, hr.bound_accept hi, hr.isReady, ?_, ?_⟩
  · intro q₁ q₂ x₁ x₂ h₁ h₂ hx
    rcases hcases q₁ x₁ h₁ with ⟨rfl, hx₁⟩ | ⟨h₁, hx₁⟩ <;>
      rcases hcases q₂ x₂ h₂ with ⟨rfl, hx₂⟩ | ⟨h₂, hx₂⟩
    · rfl
    · exact absurd (hx.symm.trans hx₁) hx₂
    · exact absurd (hx.trans hx₂) hx₁
    · exact hr.injective q₁ q₂ x₁ x₂ h₁ h₂ hx
  · rintro j ⟨q', x, hx, rfl⟩
    rcases hcases q' x hx with ⟨-, hxi⟩ | ⟨hx, -⟩
    · rw [hxi]
      exact ⟨List.mem_append_right _ List.mem_cons_self, hi.not_readied hr⟩
    · obtain ⟨hj, hj'⟩ := hr.awaited _ ⟨q', x, hx, rfl⟩
      exact ⟨List.mem_append_left _ hj, hj'⟩
  · intro j hj
    rcases List.mem_append.1 hj with hj | hj
    · rcases hr.turn j hj with ⟨q', x, hx, hxj⟩ | hj
      · exact .inl ⟨q', x, hkeep q' x hx, hxj⟩
      · exact .inr hj
    · rw [List.mem_singleton.1 hj]
      exact .inl ⟨q, ⟨q, i⟩, (hsource q).trans (if_pos rfl), rfl⟩
  · exact fun j hj => List.mem_append_left _ (hr.accepted j hj)
  · change (r.issued ++ issuedBy r.service s).Nodup
    rw [issuedBy_of_waits hr.requested h]
    split
    · next hnone =>
      refine (List.perm_append_singleton _ _).nodup_iff.2 (List.nodup_cons.2 ⟨?_, hr.nodup_issued⟩)
      rw [hr.issued, hnone]
      rintro ⟨_, hm⟩
      cases hm
    · rw [List.append_nil]
      exact hr.nodup_issued
  · intro k
    change k ∈ r.issued ++ issuedBy r.service s ↔ ∃ m, s.cacheMap k = some m
    rw [issuedBy_of_waits hr.requested h]
    rcases h.lookup with ⟨⟨y, hy, -⟩, -, -, hmap, -⟩ | ⟨hnone, -, hmap, -⟩
    · rw [hy, if_neg (by simp), List.append_nil, hmap, hr.issued]
    · rw [if_pos hnone, hmap, List.mem_append, List.mem_singleton, hr.issued]
      by_cases hk : k = hostname
      · exact iff_of_true (.inr hk) ⟨_, by rw [hk, Function.update_self]⟩
      · rw [Function.update_of_ne hk, or_iff_left hk]

/-- A request answered from the cache: its future is made ready at once. -/
theorem Accounted.serve (hr : Accounted r) {i : ℕ} (hi : r.IsFresh i) {s : DnsLocalService}
    {hostname : Bytes} (h : Serves r.service hostname s) (result : Option DnsResult) :
    Accounted (r.resolved i r.futures s (some (.ready result))) := by
  rw [resolved, issuedBy_of_eq h.requestList, List.append_nil]
  refine ⟨h.consistent hr.consistent, h.requested hr.requested, ?_, ?_, ?_, ?_, ?_,
    hr.nodup_accept hi, ?_, ?_, hr.nodup_issued, ?_⟩
  · intro q q' x x' hx hx'
    rw [h.dnsSourceRequestPool] at hx hx'
    exact hr.injective q q' x x' hx hx'
  · rintro j ⟨q, x, hx, rfl⟩
    rw [h.dnsSourceRequestPool] at hx
    obtain ⟨hj, hj'⟩ := hr.awaited _ ⟨q, x, hx, rfl⟩
    refine ⟨List.mem_append_left _ hj, fun hmem => ?_⟩
    rcases List.mem_append.1 hmem with hmem | hmem
    · exact hj' hmem
    · exact hi.not_isAwaited hr ⟨q, x, hx, List.mem_singleton.1 hmem⟩
  · intro j hj
    rcases List.mem_append.1 hj with hj | hj
    · rcases hr.turn j hj with ⟨q, x, hx, hxj⟩ | hj' | hj'
      · exact .inl ⟨q, x, by rw [h.dnsSourceRequestPool]; exact hx, hxj⟩
      · exact .inr (.inl (List.mem_append_left _ hj'))
      · refine .inr (.inr ?_)
        change (r.futures.setReady i _).get j = none
        rw [FuturePoolManager.get_setReady hi.get, if_neg (ne_of_mem_of_not_mem hj hi.accepted), hj']
    · exact .inr (.inl (List.mem_append_right _ hj))
  · intro j hj
    rcases List.mem_append.1 hj with hj | hj
    · exact List.mem_append_left _ (hr.accepted j hj)
    · exact List.mem_append_right _ hj
  · exact (List.perm_append_singleton _ _).nodup_iff.2
      (List.nodup_cons.2 ⟨hi.not_readied hr, hr.nodup_readied⟩)
  · intro j hj
    change j ≤ (r.futures.setReady i _).futurePool.lastId
    rw [FuturePoolManager.lastId_setReady]
    exact hr.bound_accept hi j hj
  · intro j f hf
    change (r.futures.setReady i _).get j = some f at hf
    change f.isReady = true ↔ j ∈ r.readied ++ [i]
    rw [FuturePoolManager.get_setReady hi.get] at hf
    rw [List.mem_append, List.mem_singleton]
    split at hf
    · next hj =>
      rw [Option.some_inj] at hf
      exact iff_of_true (by rw [← hf]) (.inr hj)
    · next hj =>
      rw [or_iff_left hj]
      exact hr.isReady j f hf
  · intro k
    change k ∈ r.issued ↔ ∃ m, s.cacheMap k = some m
    obtain ⟨y, c, hy, -, hmap⟩ := h.node
    rw [hr.issued, hmap]
    by_cases hk : k = hostname
    · exact iff_of_true ⟨y, by rw [hk, hy]⟩ ⟨_, by rw [hk, Function.update_self]⟩
    · rw [Function.update_of_ne hk]

/-! ## What a step does -/

/-- What an event does. A request is refused for want of a future or of a node, waits, or is answered
    from the cache. -/
inductive Move (r : DnsRun) : DnsEvent → DnsRun → Prop
  | full (hostname : Bytes) (hnone : r.futures.acquireFuture () = none) :
    Move r (.resolveDns hostname) r
  | refuse (hostname : Bytes) (i : ℕ) (m : FuturePoolManager Unit DnsResult) (s : DnsLocalService)
    (hm : r.futures.acquireFuture () = some (i, m))
    (hres : r.service.resolveDns hostname i = .ok (s, none)) (h : SameContents r.service s) :
    Move r (.resolveDns hostname) (r.resolved i m s none)
  | wait (hostname : Bytes) (i : ℕ) (m : FuturePoolManager Unit DnsResult) (s : DnsLocalService)
    (hm : r.futures.acquireFuture () = some (i, m))
    (hres : r.service.resolveDns hostname i = .ok (s, some .pending))
    (h : Waits r.service hostname i s) :
    Move r (.resolveDns hostname) (r.resolved i m s (some .pending))
  | serve (hostname : Bytes) (i : ℕ) (m : FuturePoolManager Unit DnsResult) (s : DnsLocalService)
    (x : DnsResult) (hm : r.futures.acquireFuture () = some (i, m))
    (hres : r.service.resolveDns hostname i = .ok (s, some (.ready (some x))))
    (h : Serves r.service hostname s) :
    Move r (.resolveDns hostname) (r.resolved i m s (some (.ready (some x))))
  | release (i : ℕ) :
    Move r (.releaseFuture i) { r with futures := r.futures.releaseFuture i }
  | idle (hnone : r.futures.popHead = none) : Move r .popReady r
  | pop (i : ℕ) (m : FuturePoolManager Unit DnsResult) (hm : r.futures.popHead = some (i, m)) :
    Move r .popReady { r with futures := m }
  | finish (p : ℕ) (a4List a6List : List NetAddress) :
    Move r (.finishRequest p a4List a6List)
      { r with service := r.service.finishRequest p a4List a6List }
  | tick (nowMS : ℕ) (s : DnsLocalService) (answers : List DnsAnswer)
    (hok : r.service.tick r.alive nowMS = .ok (s, answers))
    (h : Ticks r.alive r.service nowMS s answers) :
    Move r (.tick nowMS) { r with
      service := s
      futures := r.futures.setReadyAll answers
      readied := r.readied ++ answers.map Prod.fst }

theorem step_move (hr : Accounted r) {e : DnsEvent} (h : step r e = .ok t) : Move r e t := by
  cases e with
  | resolveDns hostname =>
    rcases hfuture : r.futures.acquireFuture () with _ | ⟨i, m⟩
    · simp only [step, hfuture] at h
      cases h
      exact .full hostname hfuture
    simp only [step, hfuture] at h
    rcases resolveDns_spec hr.consistent hostname i with ⟨s, hres, hsame⟩ | ⟨s, hres, hwait⟩ |
      ⟨s, x, hres, hserve⟩
    · rw [hres] at h
      cases h
      exact .refuse hostname i m s hfuture hres hsame
    · rw [hres] at h
      cases h
      exact .wait hostname i m s hfuture hres hwait
    · rw [hres] at h
      cases h
      exact .serve hostname i m s x hfuture hres hserve
  | releaseFuture i =>
    cases h
    exact .release i
  | popReady =>
    rcases hpop : r.futures.popHead with _ | ⟨i, m⟩
    · simp only [step, hpop] at h
      cases h
      exact .idle hpop
    · simp only [step, hpop] at h
      cases h
      exact .pop i m hpop
  | finishRequest p a4List a6List =>
    cases h
    exact .finish p a4List a6List
  | tick nowMS =>
    obtain ⟨s, answers, hticks, hok⟩ := tick_spec r.alive hr.consistent hr.requested nowMS
    simp only [step, hok] at h
    cases h
    exact .tick nowMS s answers hok hticks

/-- No step fails. -/
theorem exists_step (hr : Accounted r) (e : DnsEvent) : ∃ t, step r e = .ok t := by
  cases e with
  | resolveDns hostname =>
    rcases hfuture : r.futures.acquireFuture () with _ | ⟨i, m⟩
    · exact ⟨r, by simp only [step, hfuture]⟩
    rcases resolveDns_spec hr.consistent hostname i with ⟨s, hres, -⟩ | ⟨s, hres, -⟩ |
      ⟨s, x, hres, -⟩ <;>
    · exact ⟨_, by simp only [step, hfuture, hres]; rfl⟩
  | popReady =>
    rcases hpop : r.futures.popHead with _ | ⟨i, m⟩
    · exact ⟨r, by simp only [step, hpop]⟩
    · exact ⟨_, by simp only [step, hpop]; rfl⟩
  | tick nowMS =>
    obtain ⟨s, answers, -, hok⟩ := tick_spec r.alive hr.consistent hr.requested nowMS
    exact ⟨_, by simp only [step, hok]; rfl⟩
  | releaseFuture i => exact ⟨_, rfl⟩
  | finishRequest p a4List a6List => exact ⟨_, rfl⟩

/-- Every step keeps the requests accounted for. -/
theorem step_accounted (hr : Accounted r) (e : DnsEvent) (h : step r e = .ok t) : Accounted t := by
  cases step_move hr h with
  | full | idle => exact hr
  | refuse hostname i m s hm hres hsame =>
    obtain ⟨hm, hi⟩ := hr.acquire hm
    exact hm.refuse hi hsame
  | wait hostname i m s hm hres hwait =>
    obtain ⟨hm, hi⟩ := hr.acquire hm
    exact hm.wait hi hwait
  | serve hostname i m s x hm hres hserve =>
    obtain ⟨hm, hi⟩ := hr.acquire hm
    exact hm.serve hi hserve (some x)
  | release i =>
    refine hr.of_futures (fun j f hf => ?_) rfl
    rw [FuturePoolManager.get_releaseFuture] at hf
    split at hf
    · cases hf
    · exact ⟨f, hf, rfl⟩
  | pop i m hm =>
    obtain ⟨hget, hlast⟩ := FuturePoolManager.get_of_popHead hm
    exact hr.of_futures (fun j f hf => ⟨f, (hget j).symm.trans hf, rfl⟩) hlast
  | finish p a4List a6List => exact hr.finishRequest p a4List a6List
  | tick nowMS s answers hok hticks => exact hr.ticks hticks

/-- The requests are accounted for in every state. -/
theorem accounted_of_exec {es : List DnsEvent} (h : exec step (init n nowMS) es = .ok t) :
    Accounted t :=
  exec_invariant (fun _ e _ hr hstep => step_accounted hr e hstep) (init_accounted n nowMS) h

/-- No run fails. -/
theorem exists_exec (n nowMS : ℕ) (es : List DnsEvent) : ∃ t, exec step (init n nowMS) es = .ok t := by
  cases hx : exec step (init n nowMS) es with
  | ok t => exact ⟨t, rfl⟩
  | error x =>
    -- It would be a step from an accounted state that fails.
    obtain ⟨pre, e, t, -, ht, hfail⟩ := exec_eq_error hx
    obtain ⟨u, hu⟩ := exists_step (accounted_of_exec ht) e
    rw [hu] at hfail
    cases hfail

end DnsRun

end ProxyPlatform
