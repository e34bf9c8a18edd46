import ProxyPlatform.Base.Storage

/-!
# Futures

A service that cannot answer at once is given a *future*: the asker acquires it from its
`FuturePoolManager`, and whoever completes it links it in the list of ready futures, from
which the asker takes it later. Other services know it by its id (a `xFutureHandle`),
which is no longer found once the future was released.

The node of a future unlinks itself when the future is released, so that the ready list
has live futures only (`FuturePoolManager.ready_live`).
-/

namespace ProxyPlatform

/-- A future, with what it was acquired for. -/
structure Future (χ ρ : Type*) where
  context : χ
  isReady : Bool := false
  result : Option ρ := none

/-- What a service leaves in a future: nothing yet, or a result or its absence. -/
inductive Completion (ρ : Type*)
  | pending
  | ready (result : Option ρ)

/-- `xFuturePoolManager`. -/
structure FuturePoolManager (χ ρ : Type*) where
  futurePool : Storage (Future χ ρ)
  /-- The ready futures, in the order they became ready. -/
  futureList : List ℕ
  futureInUse : ℕ
  nodup : futureList.Nodup
  ready_live : ∀ i, i ∈ futureList → ∃ f, futurePool.get i = some f ∧ f.isReady = true

namespace FuturePoolManager

variable {χ ρ : Type*}

def empty (poolSize : ℕ) : FuturePoolManager χ ρ where
  futurePool := .empty poolSize
  futureList := []
  futureInUse := 0
  nodup := List.nodup_nil
  ready_live _ h := absurd h List.not_mem_nil

/-- `GetFuture`. -/
def get (m : FuturePoolManager χ ρ) (i : ℕ) : Option (Future χ ρ) := m.futurePool.get i

/-- `AcquireFuture`, for `x`. -/
def acquireFuture (m : FuturePoolManager χ ρ) (x : χ) : Option (ℕ × FuturePoolManager χ ρ) :=
  match h : m.futurePool.acquire fun _ => ({ context := x } : Future χ ρ) with
  | none => none
  | some (i, p) => some (i, { m with
    futurePool := p
    futureInUse := m.futureInUse + 1
    ready_live := fun j hj => by
      obtain ⟨f, hf, hr⟩ := m.ready_live j hj
      refine ⟨f, ?_, hr⟩
      have hji : j ≠ i := by
        rintro rfl
        rw [Storage.get_of_acquire h] at hf
        cases hf
      rw [Storage.get_acquire h, if_neg hji, hf] })

/-- Leaving the result `r` in the future `i` and `SetReady`, if it is still live. -/
def setReady (m : FuturePoolManager χ ρ) (i : ℕ) (r : Option ρ) : FuturePoolManager χ ρ :=
  match h : m.futurePool.get i with
  | none => m
  | some f => { m with
    futurePool := m.futurePool.set i { f with isReady := true, result := r }
    futureList := m.futureList.filter (· ≠ i) ++ [i]
    nodup := by
      refine List.nodup_append.2 ⟨m.nodup.filter _, List.nodup_singleton i, ?_⟩
      rintro j hj _ hi rfl
      rw [List.mem_singleton.1 hi] at hj
      simp at hj
    ready_live := fun j hj => by
      rw [Storage.get_set h]
      split
      · exact ⟨_, rfl, rfl⟩
      · next hne =>
        refine m.ready_live j ?_
        rcases List.mem_append.1 hj with hj | hj
        · exact List.mem_of_mem_filter hj
        · exact absurd (List.mem_singleton.1 hj) hne }

/-- `SetReady` unless the result is still to come. -/
def complete (m : FuturePoolManager χ ρ) (i : ℕ) : Completion ρ → FuturePoolManager χ ρ
  | .pending => m
  | .ready r => m.setReady i r

/-- `SetReady` of some futures, each with its result, in order. -/
def setReadyAll (m : FuturePoolManager χ ρ) (l : List (ℕ × Option ρ)) : FuturePoolManager χ ρ :=
  l.foldl (fun m x => m.setReady x.1 x.2) m

/-- The first ready future, taken out of the list. -/
def popHead (m : FuturePoolManager χ ρ) : Option (ℕ × FuturePoolManager χ ρ) :=
  match m.futureList with
  | [] => none
  | i :: _ => some (i, { m with
    futureList := m.futureList.filter (· ≠ i)
    nodup := m.nodup.filter _
    ready_live := fun j hj => m.ready_live j (List.mem_of_mem_filter hj) })

/-- `ReleaseFuture`. -/
def releaseFuture (m : FuturePoolManager χ ρ) (i : ℕ) : FuturePoolManager χ ρ where
  futurePool := m.futurePool.release i
  futureList := m.futureList.filter (· ≠ i)
  futureInUse := m.futureInUse - 1
  nodup := m.nodup.filter _
  ready_live j hj := by
    obtain ⟨f, hf, hr⟩ := m.ready_live j (List.mem_of_mem_filter hj)
    have hji : j ≠ i := by simpa using List.of_mem_filter hj
    exact ⟨f, by rw [Storage.get_release, if_neg hji, hf], hr⟩

/-! ## Lookups -/

theorem pos_of_get {m : FuturePoolManager χ ρ} {i : ℕ} {f : Future χ ρ} (h : m.get i = some f) :
    0 < i :=
  Storage.pos_of_get h

/-- A future acquired is new. -/
theorem acquireFuture_eq_some {m m' : FuturePoolManager χ ρ} {x : χ} {i : ℕ}
    (h : m.acquireFuture x = some (i, m')) :
    m.get i = none ∧ i ∉ m.futureList ∧ m'.futureList = m.futureList ∧
      ∀ j, m'.get j = if j = i then some { context := x } else m.get j := by
  unfold acquireFuture at h
  split at h
  · cases h
  · next i' p hp =>
    cases h
    have hnone : m.futurePool.get i = none := Storage.get_of_acquire hp
    refine ⟨hnone, fun hi => ?_, rfl, Storage.get_acquire hp⟩
    obtain ⟨f, hf, -⟩ := m.ready_live i hi
    rw [hnone] at hf
    cases hf

/-- The ids of futures count up. -/
theorem lastId_of_acquireFuture {m m' : FuturePoolManager χ ρ} {x : χ} {i : ℕ}
    (h : m.acquireFuture x = some (i, m')) :
    i = m.futurePool.lastId + 1 ∧ m'.futurePool.lastId = i := by
  unfold acquireFuture at h
  split at h
  · cases h
  · next i' p hp =>
    cases h
    exact ⟨(Storage.acquire_eq_some hp).1, (Storage.acquire_eq_some hp).2.1⟩

@[simp] theorem lastId_setReady (m : FuturePoolManager χ ρ) (i : ℕ) (r : Option ρ) :
    (m.setReady i r).futurePool.lastId = m.futurePool.lastId := by
  unfold setReady
  split
  · rfl
  · exact Storage.lastId_set _ _ _

@[simp] theorem lastId_setReadyAll (m : FuturePoolManager χ ρ) (l : List (ℕ × Option ρ)) :
    (m.setReadyAll l).futurePool.lastId = m.futurePool.lastId := by
  induction l generalizing m with
  | nil => rfl
  | cons x l ih => exact (ih _).trans (lastId_setReady _ _ _)

theorem setReady_of_none {m : FuturePoolManager χ ρ} {i : ℕ} (h : m.get i = none) (r : Option ρ) :
    m.setReady i r = m := by
  unfold setReady
  split
  · rfl
  · next f hf =>
    rw [show m.futurePool.get i = none from h] at hf
    cases hf

theorem get_setReady {m : FuturePoolManager χ ρ} {i : ℕ} {f : Future χ ρ} (h : m.get i = some f)
    (r : Option ρ) (j : ℕ) : (m.setReady i r).get j =
      if j = i then some { f with isReady := true, result := r } else m.get j := by
  unfold setReady
  split
  · next hnone =>
    rw [show m.futurePool.get i = some f from h] at hnone
    cases hnone
  · next g hg =>
    obtain rfl := Option.some.inj ((show m.futurePool.get i = some f from h).symm.trans hg)
    exact Storage.get_set hg _ j

theorem mem_futureList_setReady {m : FuturePoolManager χ ρ} {i : ℕ} {f : Future χ ρ}
    (h : m.get i = some f) (r : Option ρ) (j : ℕ) :
    j ∈ (m.setReady i r).futureList ↔ j = i ∨ j ∈ m.futureList := by
  unfold setReady
  split
  · next hnone =>
    rw [show m.futurePool.get i = some f from h] at hnone
    cases hnone
  · by_cases hj : j = i <;> simp [hj]

/-- No future is added or released, whichever become ready. -/
theorem get_setReadyAll (m : FuturePoolManager χ ρ) (l : List (ℕ × Option ρ)) (j : ℕ) :
    ((m.setReadyAll l).get j).map Future.isReady =
      (m.get j).map fun f => f.isReady || decide (j ∈ l.map Prod.fst) := by
  induction l generalizing m with
  | nil => simp [setReadyAll]
  | cons x l ih =>
    refine (ih (m.setReady x.1 x.2)).trans ?_
    have hother (hne : j ≠ x.1) : j ∈ (x :: l).map Prod.fst ↔ j ∈ l.map Prod.fst := by
      rw [List.map_cons, List.mem_cons, or_iff_right hne]
    rcases hx : m.get x.1 with _ | f
    · rw [setReady_of_none hx]
      rcases hj : m.get j with _ | g
      · rfl
      · have hne : j ≠ x.1 := by
          rintro rfl
          rw [hx] at hj
          cases hj
        rw [decide_eq_decide.2 (hother hne)]
    · rw [get_setReady hx]
      by_cases hj : j = x.1
      · have hmem : j ∈ (x :: l).map Prod.fst := hj ▸ List.mem_cons_self
        rw [if_pos hj, decide_eq_true hmem, hj, hx]
        simp
      · rw [if_neg hj, decide_eq_decide.2 (hother hj)]

/-- What the futures are for stays. -/
theorem context_setReadyAll (m : FuturePoolManager χ ρ) (l : List (ℕ × Option ρ)) (j : ℕ) :
    ((m.setReadyAll l).get j).map Future.context = (m.get j).map Future.context := by
  induction l generalizing m with
  | nil => rfl
  | cons x l ih =>
    refine (ih (m.setReady x.1 x.2)).trans ?_
    rcases hx : m.get x.1 with _ | f
    · rw [setReady_of_none hx]
    · rw [get_setReady hx]
      by_cases hj : j = x.1
      · rw [if_pos hj, hj, hx]
        rfl
      · rw [if_neg hj]

/-- The futures that are live are linked. -/
theorem mem_futureList_setReadyAll {m : FuturePoolManager χ ρ} {l : List (ℕ × Option ρ)} {j : ℕ} :
    j ∈ (m.setReadyAll l).futureList ↔
      j ∈ m.futureList ∨ j ∈ l.map Prod.fst ∧ (m.get j).isSome = true := by
  induction l generalizing m with
  | nil => simp [setReadyAll]
  | cons x l ih =>
    have hlive : ((m.setReady x.1 x.2).get j).isSome = (m.get j).isSome := by
      have hj := congrArg Option.isSome (get_setReadyAll m [x] j)
      rwa [Option.isSome_map, Option.isSome_map] at hj
    refine (ih (m := m.setReady x.1 x.2)).trans ?_
    rw [hlive, List.map_cons, List.mem_cons]
    rcases hx : m.get x.1 with _ | f
    · rw [setReady_of_none hx]
      constructor
      · rintro (hj | ⟨hj, hsome⟩)
        · exact .inl hj
        · exact .inr ⟨.inr hj, hsome⟩
      · rintro (hj | ⟨rfl | hj, hsome⟩)
        · exact .inl hj
        · rw [hx] at hsome
          cases hsome
        · exact .inr ⟨hj, hsome⟩
    · rw [mem_futureList_setReady hx]
      constructor
      · rintro ((rfl | hj) | ⟨hj, hsome⟩)
        · exact .inr ⟨.inl rfl, by rw [hx]; rfl⟩
        · exact .inl hj
        · exact .inr ⟨.inr hj, hsome⟩
      · rintro (hj | ⟨rfl | hj, hsome⟩)
        · exact .inl (.inr hj)
        · exact .inl (.inl rfl)
        · exact .inr ⟨hj, hsome⟩

/-- Taking a future out of the list changes none. -/
theorem get_of_popHead {m m' : FuturePoolManager χ ρ} {i : ℕ} (h : m.popHead = some (i, m')) :
    (∀ j, m'.get j = m.get j) ∧ m'.futurePool.lastId = m.futurePool.lastId := by
  unfold popHead at h
  split at h
  · cases h
  · cases h
    exact ⟨fun _ => rfl, rfl⟩

@[simp] theorem get_releaseFuture (m : FuturePoolManager χ ρ) (i j : ℕ) :
    (m.releaseFuture i).get j = if j = i then none else m.get j :=
  Storage.get_release _ _ _

@[simp] theorem mem_futureList_releaseFuture {m : FuturePoolManager χ ρ} {i j : ℕ} :
    j ∈ (m.releaseFuture i).futureList ↔ j ≠ i ∧ j ∈ m.futureList := by
  simp [releaseFuture, and_comm]

/-! ## Results -/

/-- The results that are left in the futures satisfy `R`. -/
def Results (R : ρ → Prop) (m : FuturePoolManager χ ρ) : Prop :=
  ∀ i f, m.get i = some f → ∀ r, f.result = some r → R r

namespace Results

variable {R : ρ → Prop} {m : FuturePoolManager χ ρ} {i : ℕ}

theorem empty (R : ρ → Prop) (poolSize : ℕ) :
    (FuturePoolManager.empty poolSize : FuturePoolManager χ ρ).Results R := by
  intro i f hf
  cases hf

/-- Futures that are there in both managers. -/
theorem of_get {m' : FuturePoolManager χ ρ} (h : m.Results R)
    (hget : ∀ j f, m'.get j = some f → m.get j = some f) : m'.Results R :=
  fun j f hf => h j f (hget j f hf)

/-- A future acquired has no result. -/
theorem acquire {m' : FuturePoolManager χ ρ} {x : χ} (h : m.Results R)
    (hacquire : m.acquireFuture x = some (i, m')) : m'.Results R := by
  intro j f hf r hr
  rw [(acquireFuture_eq_some hacquire).2.2.2] at hf
  split at hf
  · cases hf
    cases hr
  · exact h j f hf r hr

theorem setReady {result : Option ρ} (h : m.Results R) (hresult : ∀ r, result = some r → R r) :
    (m.setReady i result).Results R := by
  intro j f hf r hr
  rcases hi : m.get i with _ | g
  · rw [setReady_of_none hi] at hf
    exact h j f hf r hr
  · rw [get_setReady hi] at hf
    split at hf
    · cases hf
      exact hresult r hr
    · exact h j f hf r hr

theorem complete {y : Completion ρ} (h : m.Results R) (hy : ∀ r, y = .ready (some r) → R r) :
    (m.complete i y).Results R := by
  cases y with
  | pending => exact h
  | ready result => exact h.setReady fun r hr => hy r (by rw [hr])

theorem release (h : m.Results R) : (m.releaseFuture i).Results R :=
  h.of_get fun j f hf => by
    rw [get_releaseFuture] at hf
    split at hf
    · cases hf
    · exact hf

theorem popHead {m' : FuturePoolManager χ ρ} (h : m.Results R) (hpop : m.popHead = some (i, m')) :
    m'.Results R :=
  h.of_get fun j f hf => by rwa [(get_of_popHead hpop).1] at hf

end Results

/-- The ready futures are all in the list. -/
def Queued (m : FuturePoolManager χ ρ) : Prop :=
  ∀ i f, m.get i = some f → f.isReady = true → i ∈ m.futureList

namespace Queued

variable {m : FuturePoolManager χ ρ} {i : ℕ}

theorem empty (poolSize : ℕ) : (FuturePoolManager.empty poolSize : FuturePoolManager χ ρ).Queued :=
  fun _ _ hf => by cases hf

/-- A future acquired is not ready. -/
theorem acquire {m' : FuturePoolManager χ ρ} {x : χ} (h : m.Queued)
    (hacquire : m.acquireFuture x = some (i, m')) : m'.Queued := by
  obtain ⟨-, -, hlist, hget⟩ := acquireFuture_eq_some hacquire
  intro j f hf hready
  rw [hlist]
  rw [hget] at hf
  split at hf
  · cases hf
    cases hready
  · exact h j f hf hready

theorem setReady (h : m.Queued) (result : Option ρ) : (m.setReady i result).Queued := by
  intro j f hf hready
  rcases hi : m.get i with _ | g
  · rw [setReady_of_none hi] at hf ⊢
    exact h j f hf hready
  · rw [get_setReady hi] at hf
    rw [mem_futureList_setReady hi]
    split at hf
    · next hji => exact .inl hji
    · exact .inr (h j f hf hready)

theorem complete {y : Completion ρ} (h : m.Queued) : (m.complete i y).Queued := by
  cases y with
  | pending => exact h
  | ready result => exact h.setReady result

theorem release (h : m.Queued) : (m.releaseFuture i).Queued := by
  intro j f hf hready
  rw [get_releaseFuture] at hf
  split at hf
  · cases hf
  · next hji => exact mem_futureList_releaseFuture.2 ⟨hji, h j f hf hready⟩

/-- The first future, taken out of the list and released. -/
theorem popHead {m' : FuturePoolManager χ ρ} (h : m.Queued) (hpop : m.popHead = some (i, m')) :
    (m'.releaseFuture i).Queued := by
  have hlist : m'.futureList = m.futureList.filter (· ≠ i) := by
    unfold FuturePoolManager.popHead at hpop
    split at hpop
    · cases hpop
    · cases hpop
      rfl
  intro j f hf hready
  rw [get_releaseFuture, (get_of_popHead hpop).1] at hf
  split at hf
  · cases hf
  · next hji =>
    rw [mem_futureList_releaseFuture, hlist, List.mem_filter]
    exact ⟨hji, h j f hf hready, by simpa using hji⟩

end Queued

end FuturePoolManager

end ProxyPlatform
