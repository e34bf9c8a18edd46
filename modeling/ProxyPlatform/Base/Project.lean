import ProxyPlatform.Base.Run

/-!
# Runs of a part

A machine may have another as a part: each of its steps is none or some of those of the part
(`events`), which sees the state of the part only (`part`). Then a run of the machine is a run of
the part (`exec_project`), and what holds of the steps of the part along the one holds along the
other (`Along.project`).
-/

namespace ProxyPlatform

variable {S E T G ε : Type*} {step : S → E → Except ε S} {partStep : T → G → Except ε T}

/-- What follows from what holds of every step of a run holds of every step, too. -/
theorem Along.mono {C D : S → E → Prop} {s : S} {es : List E} (h : Along step C s es)
    (hCD : ∀ s e, C s e → D s e) : Along step D s es :=
  h.of_invariant (I := fun _ => True) (fun s e _ => hCD s e) (fun _ _ _ _ _ _ => trivial) trivial

/-- What holds along a run, and along one from where it ends, holds along both. -/
theorem Along.append {C : S → E → Prop} {s t : S} {es fs : List E} (h : Along step C s es)
    (hes : exec step s es = .ok t) (hfs : Along step C t fs) : Along step C s (es ++ fs) := by
  induction es generalizing s with
  | nil =>
    cases hes
    exact hfs
  | cons e es ih =>
    refine ⟨h.1, fun u hu => ?_⟩
    obtain ⟨u', hu', hrest⟩ := exec_cons_eq_ok.1 hes
    obtain rfl : u' = u := Except.ok.inj (hu'.symm.trans hu)
    exact ih (h.2 u' hu) hrest

variable {part : S → T} {events : S → E → List G}

/-- A run is a run of the part. -/
theorem exec_project
    (hstep : ∀ s e t, step s e = .ok t → exec partStep (part s) (events s e) = .ok (part t))
    {s t : S} {es : List E} (h : exec step s es = .ok t) :
    exec partStep (part s) (collectAlong step events s es) = .ok (part t) := by
  induction es generalizing s with
  | nil =>
    cases h
    rfl
  | cons e es ih =>
    obtain ⟨u, hu, hes⟩ := exec_cons_eq_ok.1 h
    rw [collectAlong, hu, exec_append _ (hstep s e u hu)]
    exact ih hes

/-- What holds of the steps of the part holds along its run. -/
theorem Along.project
    (hstep : ∀ s e t, step s e = .ok t → exec partStep (part s) (events s e) = .ok (part t))
    {C : S → E → Prop} {D : T → G → Prop}
    (hC : ∀ s e, C s e → Along partStep D (part s) (events s e)) {s t : S} {es : List E}
    (h : exec step s es = .ok t) (hs : Along step C s es) :
    Along partStep D (part s) (collectAlong step events s es) := by
  induction es generalizing s with
  | nil => trivial
  | cons e es ih =>
    obtain ⟨u, hu, hes⟩ := exec_cons_eq_ok.1 h
    rw [collectAlong, hu]
    exact (hC s e hs.1).append (hstep s e u hu) (ih hes (hs.2 u hu))

end ProxyPlatform
