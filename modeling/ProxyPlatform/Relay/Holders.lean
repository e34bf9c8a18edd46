import ProxyPlatform.Relay.Step

/-!
# Who owes the proxy an answer

The relay owes an answer for each future of the proxy that it keeps the handle of: in a DNS
lookup at first, if the target is a host name, then in the connection. Whoever *holds* the
future hands it over, or completes it and forgets it.

* `Holds`: a lookup (`.inl`) or an unmarked connection (`.inr`) has the handle of a future;
* `Handover`: a future that is held is held on, by one holder, or completed, once, if it is
  live;
* `RelayTurn.handover`, `processDnsResults_handover`: the turns of the relay that take no
  new future on are handovers.
-/

namespace ProxyPlatform

namespace RelayLocalBindingService

variable {R : RelayPlatform} {alive : ℕ → Bool} {s t u : RelayLocalBindingService}
  {l : RelayLabel} {o : List ProxyEvent} {i k d : ℕ} {x y : ℕ ⊕ ℕ}

/-- A lookup or a connection holds the future `i`. -/
def Holds (s : RelayLocalBindingService) : ℕ ⊕ ℕ → ℕ → Prop
  | .inl d, i => ∃ f, s.dnsFutureManager.get d = some f ∧ f.context.createConnectionFutureHandle = i
  | .inr k, i => ∃ c, s.localConnectionPool.get k = some c ∧ c.deleteMark = false ∧
    c.createConnectionFutureHandle = some i

/-- The future `i` is held. -/
def IsHeld (s : RelayLocalBindingService) (i : ℕ) : Prop := ∃ x, s.Holds x i

/-- No future is held by two. -/
def HeldOnce (s : RelayLocalBindingService) : Prop :=
  ∀ x y i, s.Holds x i → s.Holds y i → x = y

/-- The futures of the proxy that are completed, with their results. -/
def answersOf (o : List ProxyEvent) : List (ℕ × Option ℕ) :=
  o.filterMap fun
    | .setReady .acquireDeviceConnection f result => some (f, result)
    | _ => none

theorem answersOf_append (o o' : List ProxyEvent) :
    answersOf (o ++ o') = answersOf o ++ answersOf o' :=
  List.filterMap_append

theorem answersOf_complete (f : ℕ) (result : Option ℕ) :
    answersOf (complete alive (some f) result) = if alive f then [(f, result)] else [] := by
  rw [complete]
  by_cases h : alive f = true
  · rw [if_pos h, if_pos h]
    rfl
  · rw [if_neg h, if_neg h]
    rfl

/-- What becomes of the futures that are held. -/
structure Handover (alive : ℕ → Bool) (s t : RelayLocalBindingService)
    (answers : List (ℕ × Option ℕ)) : Prop where
  once : HeldOnce t
  held : ∀ i, IsHeld t i → IsHeld s i
  answered : ∀ i ∈ answers.map Prod.fst, alive i = true ∧ IsHeld s i ∧ ¬IsHeld t i
  nodup : (answers.map Prod.fst).Nodup
  lost : ∀ i, IsHeld s i → IsHeld t i ∨ i ∈ answers.map Prod.fst ∨ alive i = false

/-- The futures stay where they are. -/
theorem Handover.of_same (hs : HeldOnce s) (h : ∀ x i, t.Holds x i ↔ s.Holds x i) :
    Handover alive s t [] where
  once x y i hx hy := hs x y i ((h x i).1 hx) ((h y i).1 hy)
  held i := fun ⟨x, hx⟩ => ⟨x, (h x i).1 hx⟩
  answered _ hi := absurd hi List.not_mem_nil
  nodup := List.nodup_nil
  lost i := fun ⟨x, hx⟩ => .inl ⟨x, (h x i).2 hx⟩

theorem Handover.trans {a b : List (ℕ × Option ℕ)} (h : Handover alive s t a)
    (h' : Handover alive t u b) : Handover alive s u (a ++ b) where
  once := h'.once
  held i hi := h.held i (h'.held i hi)
  answered i hi := by
    rw [List.map_append, List.mem_append] at hi
    rcases hi with hi | hi
    · obtain ⟨ha, hs, ht⟩ := h.answered i hi
      exact ⟨ha, hs, fun hu => ht (h'.held i hu)⟩
    · obtain ⟨ha, ht, hu⟩ := h'.answered i hi
      exact ⟨ha, h.held i ht, hu⟩
  nodup := by
    rw [List.map_append]
    refine List.nodup_append.2 ⟨h.nodup, h'.nodup, ?_⟩
    rintro i hi _ hi' rfl
    exact (h.answered i hi).2.2 (h'.answered i hi').2.1
  lost i hi := by
    rw [List.map_append, List.mem_append]
    rcases h.lost i hi with ht | ha | hdead
    · rcases h'.lost i ht with hu | hb | hdead
      · exact .inl hu
      · exact .inr (.inl (.inr hb))
      · exact .inr (.inr hdead)
    · exact .inr (.inl (.inl ha))
    · exact .inr (.inr hdead)

/-- A holder forgets its future, completed if it is live. -/
theorem Handover.of_drop (answers : List (ℕ × Option ℕ)) (hs : HeldOnce s)
    (h : ∀ y i, t.Holds y i ↔ y ≠ x ∧ s.Holds y i) (hnodup : (answers.map Prod.fst).Nodup)
    (hanswer : ∀ i ∈ answers.map Prod.fst, alive i = true ∧ s.Holds x i)
    (hlost : ∀ i, s.Holds x i → i ∈ answers.map Prod.fst ∨ alive i = false) :
    Handover alive s t answers where
  once y z i hy hz := hs y z i ((h y i).1 hy).2 ((h z i).1 hz).2
  held i := fun ⟨y, hy⟩ => ⟨y, ((h y i).1 hy).2⟩
  answered i hi := by
    obtain ⟨ha, hx⟩ := hanswer i hi
    refine ⟨ha, ⟨x, hx⟩, fun ⟨y, hy⟩ => ?_⟩
    obtain ⟨hne, hy⟩ := (h y i).1 hy
    exact hne (hs y x i hy hx)
  nodup := hnodup
  lost i := fun ⟨y, hy⟩ => by
    by_cases hyx : y = x
    · exact .inr (hlost i (hyx ▸ hy))
    · exact .inl ⟨y, (h y i).2 ⟨hyx, hy⟩⟩

/-- A holder of `f` that forgets it, once it is completed. -/
theorem Handover.of_complete {f : ℕ} (hs : HeldOnce s)
    (h : ∀ y i, t.Holds y i ↔ y ≠ x ∧ s.Holds y i) (hf : ∀ i, s.Holds x i ↔ i = f)
    (result : Option ℕ) : Handover alive s t (answersOf (complete alive (some f) result)) := by
  rw [answersOf_complete]
  by_cases ha : alive f = true
  · rw [if_pos ha]
    refine .of_drop [(f, result)] hs h (List.nodup_singleton f) (fun i hi => ?_) fun i hi => ?_
    · rw [List.mem_singleton.1 hi]
      exact ⟨ha, (hf f).2 rfl⟩
    · exact .inl (List.mem_singleton.2 ((hf i).1 hi))
  · rw [if_neg ha]
    refine .of_drop [] hs h List.nodup_nil (fun i hi => absurd hi List.not_mem_nil) fun i hi => ?_
    rw [(hf i).1 hi]
    exact .inr (eq_false_of_ne_true ha)

/-- A holder passes its future on to a new one. -/
theorem Handover.of_pass {f : ℕ} (hs : HeldOnce s) (hx : s.Holds x f) (hy : ∀ i, ¬s.Holds y i)
    (h : ∀ z i, t.Holds z i ↔ z = y ∧ i = f ∨ z ≠ x ∧ s.Holds z i)
    (honly : ∀ i, s.Holds x i → i = f) : Handover alive s t [] where
  once z z' i hz hz' := by
    rcases (h z i).1 hz with ⟨rfl, rfl⟩ | ⟨hne, hz⟩ <;> rcases (h z' i).1 hz' with ⟨hzy, hif⟩ | ⟨hne', hz'⟩
    · exact hzy.symm
    · exact absurd (hs z' x i hz' hx) hne'
    · exact absurd (hs z x i hz (hif ▸ hx)) hne
    · exact hs z z' i hz hz'
  held i := fun ⟨z, hz⟩ => by
    rcases (h z i).1 hz with ⟨-, rfl⟩ | ⟨-, hz⟩
    · exact ⟨x, hx⟩
    · exact ⟨z, hz⟩
  answered i hi := absurd hi List.not_mem_nil
  nodup := List.nodup_nil
  lost i := fun ⟨z, hz⟩ => by
    by_cases hzx : z = x
    · exact .inl ⟨y, (h y i).2 (.inl ⟨rfl, honly i (hzx ▸ hz)⟩)⟩
    · exact .inl ⟨z, (h z i).2 (.inr ⟨hzx, hz⟩)⟩

/-! ## Turns -/

/-- Only the handles matter. -/
theorem holds_congr
    (hdns : ∀ d, (t.dnsFutureManager.get d).map (fun f => f.context.createConnectionFutureHandle) =
      (s.dnsFutureManager.get d).map fun f => f.context.createConnectionFutureHandle)
    (hpool : ∀ k, (t.localConnectionPool.get k).map
        (fun c => (c.deleteMark, c.createConnectionFutureHandle)) =
      (s.localConnectionPool.get k).map fun c => (c.deleteMark, c.createConnectionFutureHandle))
    (x : ℕ ⊕ ℕ) (i : ℕ) : t.Holds x i ↔ s.Holds x i := by
  rcases x with d | k
  · have hiff (s : RelayLocalBindingService) : s.Holds (.inl d) i ↔
        (s.dnsFutureManager.get d).map (fun f => f.context.createConnectionFutureHandle) = some i := by
      rw [Option.map_eq_some_iff]
      rfl
    rw [hiff, hiff, hdns]
  · have hiff (s : RelayLocalBindingService) : s.Holds (.inr k) i ↔
        (s.localConnectionPool.get k).map (fun c => (c.deleteMark, c.createConnectionFutureHandle)) =
          some (false, some i) := by
      rw [Option.map_eq_some_iff]
      simp only [Prod.mk.injEq]
      rfl
    rw [hiff, hiff, hpool]

/-- A lookup is refused. -/
theorem holds_refuse {request : RelayDnsRequest} {m}
    (hm : s.dnsFutureManager.acquireFuture request = some (d, m)) (attempts : ℕ) (x : ℕ ⊕ ℕ) (i : ℕ) :
    { s with dnsFutureManager := m.releaseFuture d, attempts := attempts }.Holds x i ↔
      s.Holds x i := by
  obtain ⟨hnone, -, -, hget⟩ := FuturePoolManager.acquireFuture_eq_some hm
  refine holds_congr (s := s) (fun e => ?_) (fun k => ?_) x i
  swap
  · rfl
  change ((m.releaseFuture d).get e).map _ = _
  rw [FuturePoolManager.get_releaseFuture, hget]
  by_cases he : e = d
  · rw [if_pos he, he, hnone]
  · rw [if_neg he, if_neg he]

/-- A connection is written back without a future. -/
theorem holds_store_none {c d : RelayLocalDeviceConnection} (lists : Linked RelayConnectionList)
    (hc : s.localConnectionPool.get k = some c) (hid : d.connectionId = k)
    (hnone : d.createConnectionFutureHandle = none) (x : ℕ ⊕ ℕ) (i : ℕ) :
    ({ s with connectionLists := lists }.store d).Holds x i ↔ x ≠ .inr k ∧ s.Holds x i := by
  have hget := get_store (s := { s with connectionLists := lists }) hc hid
  rcases x with j | j
  · exact (and_iff_right (by simp)).symm
  · rw [Holds, Holds, hget]
    by_cases hj : j = k
    · rw [if_pos hj]
      refine iff_of_false ?_ fun h => h.1 (by rw [hj])
      rintro ⟨e, he, -, hh⟩
      rw [Option.some_inj] at he
      rw [← he, hnone] at hh
      cases hh
    · rw [if_neg hj]
      exact (and_iff_right fun h => hj (Sum.inr.inj h)).symm

/-- What a connection that is live holds. -/
theorem holds_inr {c : RelayLocalDeviceConnection} (hs : Tidy s)
    (hc : s.localConnectionPool.get k = some c) (i : ℕ) :
    s.Holds (.inr k) i ↔ c.createConnectionFutureHandle = some i := by
  constructor
  · rintro ⟨e, he, -, hh⟩
    rw [hc, Option.some_inj] at he
    rw [he, hh]
  · intro hh
    refine ⟨c, hc, ?_, hh⟩
    by_contra hmark
    rw [hs.handle hc (eq_true_of_ne_false hmark)] at hh
    cases hh

/-- The labels of the turns that create nothing and start no lookup, and destroy no connection that
    has a future. -/
structure KeepsFutures (s : RelayLocalBindingService) (l : RelayLabel) : Prop where
  lookup : l ≠ .lookup
  resolve : l ≠ .resolve
  create : ∀ k, l ≠ .create k
  destroy : ∀ k c, l = .destroy k → s.localConnectionPool.get k = some c →
    c.createConnectionFutureHandle = none

theorem RelayTurn.handover (h : RelayTurn alive s l o t) (hs : Tidy s) (hu : HeldOnce s)
    (hl : KeepsFutures s l) : Handover alive s t (answersOf o) := by
  cases h with
  | quiet nowMS attempts posts p q hp hq =>
    exact .of_same hu (holds_congr (fun _ => rfl) fun k => by rw [hp.2 k])
  | lookup => exact absurd rfl hl.lookup
  | refuse attempts request i m hacquire => exact .of_same hu (holds_refuse hacquire attempts)
  | answer i dnsFuture result hi =>
    refine .of_same hu (holds_congr (fun d => ?_) fun _ => rfl)
    change ((s.dnsFutureManager.setReady i result).get d).map _ = _
    rw [FuturePoolManager.get_setReady hi]
    by_cases hd : d = i
    · rw [if_pos hd, hd, hi]
      rfl
    · rw [if_neg hd]
  | fail => exact absurd rfl hl.resolve
  | resolve attempts x k => exact absurd rfl (hl.create _)
  | create => exact absurd rfl (hl.create _)
  | orphan k c hc hconnected hdead =>
    have hid := hs.connectionId hc
    refine .of_drop [] hu (holds_store_none s.connectionLists hc (by exact hid) (by rfl))
      List.nodup_nil (fun i hi => absurd hi List.not_mem_nil) fun i hi => ?_
    exact .inr (hdead i ((holds_inr hs hc i).1 hi))
  | connected k c f hc hconnected hmark hf halive =>
    have hid := hs.connectionId hc
    refine .of_drop [(f, some k)] hu (holds_store_none _ hc (by exact hid) (by rfl))
      (List.nodup_singleton f) (fun i hi => ?_) fun i hi => ?_
    · rw [List.mem_singleton.1 hi]
      exact ⟨halive, (holds_inr hs hc f).2 hf⟩
    · rw [holds_inr hs hc, hf, Option.some_inj] at hi
      exact .inl (List.mem_singleton.2 hi.symm)
  | data k c data hc hconnected hmark =>
    have hid := hs.connectionId hc
    refine .of_same hu (holds_congr (fun _ => rfl) fun j => ?_)
    rw [get_store (s := { s with connectionLists := s.connectionLists.grabTail .idleTimeout k })
      (d := { c with timestampMS := s.localTicker }) hc hid]
    by_cases hj : j = k
    · rw [if_pos hj, hj, hc]
      rfl
    · rw [if_neg hj]
  | closed => exact .of_same hu fun _ _ => .rfl
  | mark l k c o hc hmark hcases =>
    have hid := hs.connectionId hc
    have hcomplete : Handover alive s ({ s with
          connectionLists := s.connectionLists.grabTail .kill k }.store { c with
            deleteMark := true, createConnectionFutureHandle := none })
        (answersOf (complete alive c.createConnectionFutureHandle none)) := by
      have hdrop := holds_store_none (s := s) (d := { c with
        deleteMark := true, createConnectionFutureHandle := none })
        (s.connectionLists.grabTail .kill k) hc hid rfl
      rcases hf : c.createConnectionFutureHandle with _ | f
      · refine .of_drop [] hu hdrop List.nodup_nil (fun i hi => absurd hi List.not_mem_nil)
          fun i hi => ?_
        rw [holds_inr hs hc, hf] at hi
        cases hi
      · refine .of_complete hu hdrop (fun i => ?_) none
        rw [holds_inr hs hc, hf, Option.some_inj, eq_comm]
    rcases hcases with ⟨-, rfl⟩ | ⟨rfl, rfl⟩ | ⟨-, -, -, rfl⟩
    · exact hcomplete
    · rw [hl.destroy k c rfl hc] at hcomplete
      exact hcomplete
    · exact hcomplete
  | clean k c hc hk =>
    refine .of_same hu fun x i => ?_
    rcases x with d | j
    · exact .rfl
    · change (∃ e, (s.localConnectionPool.release k).get j = some e ∧ _) ↔ _
      rw [Storage.get_release]
      by_cases hj : j = k
      · rw [if_pos hj]
        refine iff_of_false (fun ⟨_, he, _⟩ => (by cases he)) ?_
        rintro ⟨e, he, hmark, -⟩
        rw [hj, hc, Option.some_inj] at he
        rw [← he, (hs.filed.marked hc).1 hk] at hmark
        cases hmark
      · rw [if_neg hj]
        rfl
  | _ => exact .of_same hu fun _ _ => .rfl

/-! ## Connections that the proxy knows -/

/-- A connection that the proxy was told of: it has no future to complete any more. -/
def Established (k : ℕ) (s : RelayLocalBindingService) : Prop :=
  k ≤ s.localConnectionPool.lastId ∧
    ∀ c, s.localConnectionPool.get k = some c → c.createConnectionFutureHandle = none

theorem RelayTurn.established (h : RelayTurn alive s l o t) (hs : Tidy s) (hk : Established k s) :
    Established k t := by
  refine ⟨hk.1.trans h.lastId.1, fun d hd => ?_⟩
  cases h.moved hs k with
  | gone h => rw [h] at hd; cases hd
  | created c i f hl hj => exact absurd hk.1 (Nat.not_le.2 hj)
  | kept hget => exact hk.2 d (hget ▸ hd)
  | orphaned c hl hc hconnected hdead hd' => rw [hd'] at hd; cases hd; rfl
  | connected c f hl ho hc hconnected hmark hf halive hd' => rw [hd'] at hd; cases hd; rfl
  | data c hl hc hconnected hmark hd' => rw [hd'] at hd; cases hd; exact hk.2 c hc
  | marked c hl hc hmark hd' => rw [hd'] at hd; cases hd; rfl

/-- An unmarked connection has no future to complete exactly if it is connected. -/
def Reported (s : RelayLocalBindingService) : Prop :=
  ∀ k c, s.localConnectionPool.get k = some c → c.deleteMark = false →
    (c.isConnected = true ↔ c.createConnectionFutureHandle = none)

theorem reported_init (devices : List RelayLocalDevice) : Reported (init devices) :=
  fun _ _ h => by cases h

theorem RelayTurn.reported (h : RelayTurn alive s l o t) (hs : Tidy s) (hr : Reported s) :
    Reported t := by
  intro k d hd hmark
  cases h.moved hs k with
  | gone h => rw [h] at hd; cases hd
  | created c i f hl hj hc hnew =>
    rw [hc] at hd
    cases hd
    rw [hnew.isConnected, hnew.createConnectionFutureHandle]
    simp
  | kept hget => exact hr k d (hget ▸ hd) hmark
  | orphaned c hl hc hconnected hdead hd' => rw [hd'] at hd; cases hd; simp
  | connected c f hl ho hc hconnected hmark hf halive hd' => rw [hd'] at hd; cases hd; simp
  | data c hl hc hconnected hcmark hd' => rw [hd'] at hd; cases hd; exact hr k c hc hmark
  | marked c hl hc hcmark hd' => rw [hd'] at hd; cases hd; cases hmark

theorem answersOf_complete_none (handle : Option ℕ) :
    (i, some k) ∉ answersOf (complete alive handle none) := by
  rcases handle with _ | f
  · exact List.not_mem_nil
  · rw [answersOf_complete]
    split
    · intro h
      cases List.mem_singleton.1 h
    · exact List.not_mem_nil

/-- The proxy is told of a connection when it is connected. -/
theorem RelayTurn.received (h : RelayTurn alive s l o t) (hs : Tidy s)
    (ha : (i, some k) ∈ answersOf o) : Established k t := by
  cases h with
  | fail => exact absurd ha (answersOf_complete_none _)
  | connected k' c f hc hconnected hmark hf halive =>
    cases List.mem_singleton.1 ha
    have hid := hs.connectionId hc
    have hget := get_store (s := { s with
      connectionLists := s.connectionLists.grabTail .idleTimeout k }) (d := { c with
      isConnected := true, createConnectionFutureHandle := none, timestampMS := s.localTicker })
      hc hid
    refine ⟨?_, fun d hd => ?_⟩
    · rw [store, Storage.lastId_set]
      exact Storage.le_lastId_of_get hc
    · rw [hget, if_pos rfl] at hd
      cases hd
      rfl
  | mark l k' c o hc hmark hcases =>
    rcases hcases with ⟨-, rfl⟩ | ⟨-, rfl⟩ | ⟨-, -, -, rfl⟩
    · exact absurd ha (answersOf_complete_none _)
    · cases ha
    · exact absurd ha (answersOf_complete_none _)
  | _ => cases ha

/-! ## Sequences of turns -/

namespace RelayTurns

variable {L : RelayLabel → Prop}

theorem established (h : RelayTurns alive L s o t) (hs : Tidy s) (hk : Established k s) :
    Established k t :=
  (h.keeps (fun _ _ _ _ _ hs hk ht => ht.established hs hk) hs hk).2

theorem received (h : RelayTurns alive L s o t) (hs : Tidy s) (ha : (i, some k) ∈ answersOf o) :
    Established k t := by
  induction h with
  | refl => cases ha
  | tail h hl ht ih =>
    rw [answersOf_append, List.mem_append] at ha
    rcases ha with ha | ha
    · exact ht.established (h.tidy hs) (ih ha)
    · exact ht.received (h.tidy hs) ha

/-- Turns that take no new future on, and destroy connections only that the proxy was told of. -/
theorem handover (h : RelayTurns alive L s o t) (hs : Tidy s) (hu : HeldOnce s)
    (hL : ∀ l, L l → l ≠ .lookup ∧ l ≠ .resolve ∧ ∀ k, l ≠ .create k)
    (hdestroy : ∀ k, L (.destroy k) → Established k s) : Handover alive s t (answersOf o) := by
  induction h with
  | refl => exact .of_same hu fun _ _ => .rfl
  | tail h hl ht ih =>
    rw [answersOf_append]
    refine ih.trans (ht.handover (h.tidy hs) ih.once ?_)
    obtain ⟨hlookup, hresolve, hcreate⟩ := hL _ hl
    refine ⟨hlookup, hresolve, hcreate, ?_⟩
    rintro k c rfl hc
    exact (h.established hs (hdestroy k hl)).2 c hc

end RelayTurns

/-! ## Ticks -/

/-- The lookups `is` are released. -/
structure Releases (s : RelayLocalBindingService) (is : List ℕ) (t : RelayLocalBindingService) :
    Prop where
  get : ∀ d, t.dnsFutureManager.get d = if d ∈ is then none else s.dnsFutureManager.get d
  list : ∀ d, d ∈ t.dnsFutureManager.futureList ↔ d ∉ is ∧ d ∈ s.dnsFutureManager.futureList
  lastId : t.dnsFutureManager.futurePool.lastId = s.dnsFutureManager.futurePool.lastId

theorem Releases.of_eq (h : t.dnsFutureManager = s.dnsFutureManager) : Releases s [] t where
  get d := by rw [h, if_neg List.not_mem_nil]
  list d := by rw [h, and_iff_right List.not_mem_nil]
  lastId := by rw [h]

theorem Releases.of_release (h : t.dnsFutureManager = s.dnsFutureManager.releaseFuture d) :
    Releases s [d] t where
  get e := by
    rw [h, FuturePoolManager.get_releaseFuture]
    exact if_congr List.mem_singleton.symm rfl rfl
  list e := by rw [h, FuturePoolManager.mem_futureList_releaseFuture, List.mem_singleton]
  lastId := by rw [h]; rfl

theorem Releases.trans {is js : List ℕ} (h : Releases s is t) (h' : Releases t js u) :
    Releases s (is ++ js) u where
  get d := by
    rw [h'.get, h.get]
    by_cases hi : d ∈ is <;> by_cases hj : d ∈ js <;> simp [hi, hj]
  list d := by rw [h'.list, h.list, List.mem_append, not_or]; tauto
  lastId := h'.lastId.trans h.lastId

/-- What holds after some part of a tick. -/
structure Progress (alive : ℕ → Bool) (s : RelayLocalBindingService) (o : List ProxyEvent)
    (is : List ℕ) (t : RelayLocalBindingService) : Prop where
  tidy : Tidy t
  handover : Handover alive s t (answersOf o)
  established : ∀ k, Established k s → Established k t
  received : ∀ i k, (i, some k) ∈ answersOf o → Established k t
  releases : Releases s is t

theorem Progress.trans {o' : List ProxyEvent} {is js : List ℕ} (h : Progress alive s o is t)
    (h' : Progress alive t o' js u) : Progress alive s (o ++ o') (is ++ js) u where
  tidy := h'.tidy
  handover := by
    rw [answersOf_append]
    exact h.handover.trans h'.handover
  established k hk := h'.established k (h.established k hk)
  received i k ha := by
    rw [answersOf_append, List.mem_append] at ha
    rcases ha with ha | ha
    · exact h'.established k (h.received i k ha)
    · exact h'.received i k ha
  releases := h.releases.trans h'.releases

/-- A turn of the passes leaves the lookups. -/
theorem RelayTurn.dnsFutureManager (h : RelayTurn alive s l o t) (hl : IsPass l) :
    t.dnsFutureManager = s.dnsFutureManager := by
  obtain ⟨k, hl⟩ := hl
  cases h with
  | mark | clean | markUdp | cleanUdp => rfl
  | _ => simp at hl

theorem RelayTurns.progress_of_pass (h : RelayTurns alive IsPass s o t) (hs : Tidy s)
    (hu : HeldOnce s) : Progress alive s o [] t where
  tidy := h.tidy hs
  handover := by
    refine h.handover hs hu ?_ ?_
    · rintro l ⟨k, rfl | rfl | rfl | rfl⟩ <;> simp
    · rintro k ⟨j, hj⟩
      simp at hj
  established k hk := h.established hs hk
  received i k ha := h.received hs ha
  releases := .of_eq (h.invariant (I := fun u => u.dnsFutureManager = s.dnsFutureManager)
    (fun _ _ _ _ hl hI ht => (ht.dnsFutureManager hl).trans hI) rfl)

variable (R alive)

theorem processDnsResult_progress (hs : Tidy s) (hu : HeldOnce s) (d : ℕ) :
    ∃ o t, (∀ o₀, processDnsResult R alive (s, o₀) d = (t, o₀ ++ o)) ∧ Progress alive s o [d] t := by
  rcases hd : s.dnsFutureManager.get d with _ | dnsFuture
  · refine ⟨[], s, fun o₀ => by simp [processDnsResult, hd], hs, .of_same hu fun _ _ => .rfl,
      fun k hk => hk, fun i k ha => (by cases ha), fun e => ?_, fun e => ?_, rfl⟩
    · by_cases he : e = d
      · rw [if_pos (List.mem_singleton.2 he), he, hd]
      · rw [if_neg (mt List.mem_singleton.1 he)]
    · refine (and_iff_right_of_imp fun he => ?_).symm
      obtain ⟨f, hf, -⟩ := s.dnsFutureManager.ready_live e he
      rw [List.mem_singleton]
      rintro rfl
      rw [show s.dnsFutureManager.futurePool.get e = none from hd] at hf
      cases hf
  have hinl : ∀ i, s.Holds (.inl d) i ↔ i = dnsFuture.context.createConnectionFutureHandle := by
    intro i
    constructor
    · rintro ⟨f, hf, hi⟩
      rw [hd, Option.some_inj] at hf
      rw [← hi, hf]
    · rintro rfl
      exact ⟨dnsFuture, hd, rfl⟩
  -- The lookups that are held on.
  have hothers (e i : ℕ) {v : RelayLocalBindingService}
      (hv : v.dnsFutureManager = s.dnsFutureManager.releaseFuture d) :
      v.Holds (.inl e) i ↔ (.inl e : ℕ ⊕ ℕ) ≠ .inl d ∧ s.Holds (.inl e) i := by
    rw [Holds, Holds, hv, FuturePoolManager.get_releaseFuture]
    by_cases he : e = d
    · rw [if_pos he, he]
      refine iff_of_false ?_ fun h => h.1 rfl
      rintro ⟨_, hf, -⟩
      cases hf
    · rw [if_neg he]
      exact (and_iff_right fun h => he (Sum.inl.inj h)).symm
  rcases processDnsResult_cases R alive hd with ⟨attempts, p, hp, h⟩ |
    ⟨attempts, y, k, p, halive, hp, hnew, h⟩
  · have hturn : RelayTurn alive s .resolve _ _ := .fail d dnsFuture attempts p hd hp
    refine ⟨_, _, h, hturn.tidy hs, .of_complete (x := .inl d) hu (fun z i => ?_) hinl none,
      fun j hj => hturn.established hs hj, fun i j ha => hturn.received hs ha, .of_release rfl⟩
    rcases z with e | j
    · exact hothers e i rfl
    · rw [and_iff_right (by simp)]
      change (∃ c, p.get j = some c ∧ _) ↔ _
      rw [hp.2]
      rfl
  · have hturn : RelayTurn alive s (.create k) [] _ :=
      .resolve d dnsFuture attempts y k p hd halive hp hnew
    have hnone : s.localConnectionPool.get k = none := Storage.get_of_acquire hp
    refine ⟨[], _, fun o₀ => by rw [h, List.append_nil], hturn.tidy hs,
      .of_pass (x := .inl d) (y := .inr k) hu ((hinl _).2 rfl) ?_ (fun z i => ?_) fun i hi => (hinl i).1 hi,
      fun j hj => hturn.established hs hj, fun i j ha => hturn.received hs ha, .of_release rfl⟩
    · rintro i ⟨c, hc, -⟩
      rw [hnone] at hc
      cases hc
    rcases z with e | j
    · rw [hothers e i rfl, or_iff_right (by simp)]
    · change (∃ c, p.get j = some c ∧ _) ↔ _
      rw [Storage.get_acquire hp]
      by_cases hj : j = k
      · rw [if_pos hj, hj]
        constructor
        · rintro ⟨c, hc, -, hi⟩
          rw [Option.some_inj] at hc
          rw [← hc, hnew.createConnectionFutureHandle, Option.some_inj] at hi
          exact .inl ⟨rfl, hi.symm⟩
        · rintro (⟨-, rfl⟩ | ⟨-, c, hc, -⟩)
          · exact ⟨y k, rfl, hnew.deleteMark, hnew.createConnectionFutureHandle⟩
          · rw [hnone] at hc
            cases hc
      · rw [if_neg hj]
        constructor
        · exact fun hi => .inr ⟨by simp, hi⟩
        · rintro (⟨hz, -⟩ | ⟨-, hi⟩)
          · exact absurd (Sum.inr.inj hz) hj
          · exact hi

/-- The loop over the lookups that are answered. -/
theorem foldl_processDnsResult_progress (hs : Tidy s) (hu : HeldOnce s) (is : List ℕ)
    (o₀ : List ProxyEvent) : ∃ o t, is.foldl (processDnsResult R alive) (s, o₀) = (t, o₀ ++ o) ∧
      Progress alive s o is t := by
  induction is generalizing s o₀ with
  | nil =>
    exact ⟨[], s, by rw [List.append_nil]; rfl, hs, .of_same hu fun _ _ => .rfl, fun _ hk => hk,
      fun _ _ ha => (by cases ha), .of_eq rfl⟩
  | cons d is ih =>
    obtain ⟨o, t, ht, hone⟩ := processDnsResult_progress R alive hs hu d
    obtain ⟨o', u, hu', hrest⟩ := ih hone.tidy hone.handover.once (o₀ ++ o)
    exact ⟨o ++ o', u, by rw [List.foldl_cons, ht, hu', List.append_assoc], hone.trans hrest⟩

/-- A tick hands the futures over, and releases the lookups that are answered. -/
theorem tick_progress (hs : Tidy s) (hu : HeldOnce s) (nowMS : ℕ) :
    Progress alive s (tick R alive s nowMS).2 s.dnsFutureManager.futureList
      (tick R alive s nowMS).1 := by
  have hclock : Progress alive s [] [] { s with localTicker := nowMS } :=
    ⟨hs.congr (fun _ => rfl) (fun _ => rfl) rfl rfl, .of_same hu fun _ _ => .rfl, fun _ hk => hk,
      fun _ _ ha => (by cases ha), .of_eq rfl⟩
  obtain ⟨o, t, ht, hdns⟩ := foldl_processDnsResult_progress R alive hclock.tidy hclock.handover.once
    s.dnsFutureManager.futureList []
  have h₁ := hclock.trans hdns
  have h₂ := h₁.trans ((passes_turns alive h₁.tidy).progress_of_pass h₁.tidy h₁.handover.once)
  rw [tick, processDnsResults, ht]
  simpa only [List.append_nil, List.nil_append] using h₂

variable {R alive}

/-- Whatever the event, if it takes no future on, and destroys a connection only that the proxy was
    told of. -/
theorem step_progress (hs : Tidy s) (hu : HeldOnce s) {e : RelayEvent} {is : List ℕ}
    (hallows : ∀ l, e.Allows l → l ≠ .lookup ∧ l ≠ .resolve ∧ ∀ k, l ≠ .create k)
    (hdestroy : ∀ k, e.Allows (.destroy k) → Established k s)
    (hreleases : Releases s is (step R alive s e).1) :
    Progress alive s (step R alive s e).2 is (step R alive s e).1 := by
  have hturns := step_turns R alive hs e
  exact ⟨hturns.tidy hs, hturns.handover hs hu hallows hdestroy, fun k hk => hturns.established hs hk,
    fun i k ha => hturns.received hs ha, hreleases⟩

/-! ## Calls -/

/-- All futures stay where they are. -/
structure Alike (s t : RelayLocalBindingService) : Prop where
  tidy : Tidy t
  holds : ∀ x i, t.Holds x i ↔ s.Holds x i
  established : ∀ k, Established k s → Established k t

/-- The future `i` has a holder, one that is new. -/
structure TakesOn (s : RelayLocalBindingService) (i : ℕ) (t : RelayLocalBindingService) : Prop where
  tidy : Tidy t
  holder : ∃ x, (∀ j, ¬s.Holds x j) ∧ ∀ y j, t.Holds y j ↔ y = x ∧ j = i ∨ s.Holds y j
  established : ∀ k, Established k s → Established k t

theorem Alike.refl (hs : Tidy s) : Alike s s := ⟨hs, fun _ _ => .rfl, fun _ hk => hk⟩

theorem Alike.trans (h : Alike s t) (h' : Alike t u) : Alike s u :=
  ⟨h'.tidy, fun x i => (h'.holds x i).trans (h.holds x i), fun k hk => h'.established k (h.established k hk)⟩

theorem TakesOn.trans (h : TakesOn s i t) (h' : Alike t u) : TakesOn s i u := by
  obtain ⟨x, hx, hholds⟩ := h.holder
  exact ⟨h'.tidy, ⟨x, hx, fun y j => (h'.holds y j).trans (hholds y j)⟩,
    fun k hk => h'.established k (h.established k hk)⟩

theorem Alike.of_turn (hs : Tidy s) (ht : RelayTurn alive s l o t)
    (hholds : ∀ x i, t.Holds x i ↔ s.Holds x i) : Alike s t :=
  ⟨ht.tidy hs, hholds, fun _ hk => ht.established hs hk⟩

/-- The lookups change, but not what they are for. -/
theorem Alike.of_lookups (hs : Tidy s) {m : FuturePoolManager RelayDnsRequest DnsResult}
    (hm : ∀ d, (m.get d).map Future.context = (s.dnsFutureManager.get d).map Future.context) :
    Alike s { s with dnsFutureManager := m } where
  tidy := hs.congr (fun _ => rfl) (fun _ => rfl) rfl rfl
  holds := holds_congr (fun d => by
    have hd := congrArg (Option.map RelayDnsRequest.createConnectionFutureHandle) (hm d)
    rwa [Option.map_map, Option.map_map] at hd) fun _ => rfl
  established _ hk := hk

variable (R)

/-- Creating a connection fails at once, or takes the future on. -/
theorem createConnectionToAddress_alike (hs : Tidy s) (deviceId proxySideConnectionId f : ℕ)
    (a : NetAddress) :
    ∃ t, t.dnsFutureManager = s.dnsFutureManager ∧
      (Alike s t ∧ createConnectionToAddress R s deviceId proxySideConnectionId a f =
          (t, .ready none) ∨
        TakesOn s f t ∧ createConnectionToAddress R s deviceId proxySideConnectionId a f =
          (t, .pending)) := by
  rcases createConnectionToAddress_cases (R := R) s deviceId proxySideConnectionId f a with
    ⟨attempts, p, hp, h⟩ | ⟨attempts, y, k, p, hp, hnew, h⟩
  · refine ⟨_, ?_, .inl ⟨?_, h⟩⟩
    · rfl
    have hturn : RelayTurn (fun _ => true) s .quiet [] _ :=
      .quiet s.localTicker attempts s.posts p _ hp (.refl _)
    exact .of_turn hs hturn (holds_congr (fun _ => rfl) fun k => by rw [hp.2 k])
  · have hturn : RelayTurn (fun _ => true) s (.create k) [] _ :=
      .create attempts y k p proxySideConnectionId f hp hnew
    have hnone : s.localConnectionPool.get k = none := Storage.get_of_acquire hp
    have hx : ∀ j, ¬s.Holds (.inr k) j := by
      rintro j ⟨c, hc, -⟩
      rw [hnone] at hc
      cases hc
    refine ⟨_, ?_, .inr ⟨⟨?_, ⟨.inr k, hx, fun z j => ?_⟩, fun j hj => ?_⟩, h⟩⟩
    · rfl
    · exact hturn.tidy hs
    swap
    · exact hturn.established hs hj
    rcases z with d | j'
    · exact (or_iff_right (by simp)).symm
    · change (∃ c, p.get j' = some c ∧ _) ↔ _
      rw [Storage.get_acquire hp]
      by_cases hj : j' = k
      · rw [if_pos hj, hj, or_iff_left (hx j), and_iff_right rfl]
        constructor
        · rintro ⟨c, hc, -, hi⟩
          rw [Option.some_inj] at hc
          rw [← hc, hnew.createConnectionFutureHandle, Option.some_inj] at hi
          exact hi.symm
        · rintro rfl
          exact ⟨y k, rfl, hnew.deleteMark, hnew.createConnectionFutureHandle⟩
      · rw [if_neg hj, or_iff_right fun h => hj (Sum.inr.inj h.1)]
        rfl

/-- A lookup that is new takes the future on. -/
theorem takesOn_lookup (hs : Tidy s) {request : RelayDnsRequest} {m}
    (hm : s.dnsFutureManager.acquireFuture request = some (d, m)) (attempts : ℕ) :
    TakesOn s request.createConnectionFutureHandle
      { s with dnsFutureManager := m, attempts := attempts } := by
  obtain ⟨hnone, -, -, hget⟩ := FuturePoolManager.acquireFuture_eq_some hm
  have hturn : RelayTurn (fun _ => true) s .lookup [] _ := .lookup attempts request d m hm
  have hx : ∀ j, ¬s.Holds (.inl d) j := by
    rintro j ⟨f, hf, -⟩
    rw [hnone] at hf
    cases hf
  refine ⟨hturn.tidy hs, ⟨.inl d, hx, fun z j => ?_⟩, fun k hk => hturn.established hs hk⟩
  rcases z with e | k
  · change (∃ f, m.get e = some f ∧ _) ↔ _
    rw [hget]
    by_cases he : e = d
    · rw [if_pos he, he, or_iff_left (hx j), and_iff_right rfl]
      constructor
      · rintro ⟨f, hf, hj⟩
        rw [Option.some_inj] at hf
        rw [← hj, ← hf]
      · rintro rfl
        exact ⟨_, rfl, rfl⟩
    · rw [if_neg he, or_iff_right fun h => he (Sum.inl.inj h.1)]
      rfl
  · exact (or_iff_right (by simp)).symm

/-- A lookup that is refused leaves the futures. -/
theorem alike_refuse (hs : Tidy s) {request : RelayDnsRequest} {m}
    (hm : s.dnsFutureManager.acquireFuture request = some (d, m)) (attempts : ℕ) :
    Alike s { s with dnsFutureManager := m.releaseFuture d, attempts := attempts } := by
  have hturn : RelayTurn (fun _ => true) s .quiet [] _ := .refuse attempts request d m hm
  exact .of_turn hs hturn (holds_refuse hm attempts)

theorem createUdpChannel_alike (hs : Tidy s) (deviceId proxySideUdpChannelId : ℕ) :
    Alike s (createUdpChannel R s deviceId proxySideUdpChannelId).1 ∧
      (createUdpChannel R s deviceId proxySideUdpChannelId).1.dnsFutureManager =
        s.dnsFutureManager := by
  have hpools : ∀ t : RelayLocalBindingService, t.dnsFutureManager = s.dnsFutureManager →
      t.localConnectionPool = s.localConnectionPool → Tidy t → Alike s t := fun t hdns hpool ht =>
    ⟨ht, holds_congr (fun _ => by rw [hdns]) fun _ => by rw [hpool], fun k hk => by
      rwa [Established, hpool]⟩
  have hsame : (createUdpChannel R s deviceId proxySideUdpChannelId).1.dnsFutureManager =
      s.dnsFutureManager ∧ (createUdpChannel R s deviceId proxySideUdpChannelId).1.localConnectionPool =
        s.localConnectionPool := by
    unfold createUdpChannel
    dsimp only
    split
    · exact ⟨rfl, rfl⟩
    split
    · exact ⟨rfl, rfl⟩
    split <;> exact ⟨rfl, rfl⟩
  have hturns : RelayTurns (fun _ => true) _ s [] _ :=
    createUdpChannel_turns (R := R) deviceId proxySideUdpChannelId
  exact ⟨hpools _ hsame.1 hsame.2 (hturns.tidy hs), hsame.1⟩

end RelayLocalBindingService

end ProxyPlatform
