import Mathlib.Data.List.Basic
import Mathlib.Data.List.Induction

/-!
# Runs of a failing machine

A machine is a step function `S → E → Except ε S`: in a state, an event either
leads to the next state or ends the execution with a failure (an assertion, an
access out of range, a call that never returns). `exec` feeds it a list of
events; the runs are the lists on which it does not fail.

* `exec_invariant`: what every step preserves holds at the end of every run;
* `Along C`: every step of a run is taken under the condition `C` on the state
  and the event; `exec_invariant_along` is the corresponding rule;
* `Visits`: the states a list of events goes through;
* `Occurs C`: a step of a run is taken under `C`.

`Fault` lists the failures of the C++ code: what the language leaves undefined, what
ends the process, and what never returns. The plain `assert`s are compiled out of a
release build: most are no failures, and where one matters it is a statement about
states. Those of the server lists and of the target reporter are (`assertion`), as in a
debug build.
-/

namespace ProxyPlatform

/-- The ways a call ends without a next state. -/
inductive Fault
  /-- A null pointer is followed. -/
  | nullPointer
  /-- A pointer or id of a released object is followed. -/
  | danglingPointer
  /-- A string is indexed beyond its end. -/
  | indexOutOfRange
  /-- A function reads beyond the end of the buffer it was given. -/
  | readOutOfRange
  /-- An unsigned counter at zero is decremented. -/
  | underflow
  /-- `X_RUNTIME_ASSERT` ends the process. -/
  | runtimeAssert
  /-- A loop never ends. -/
  | noReturn
  /-- An `assert` fails. -/
  | assertion
  deriving DecidableEq

variable {S E ε : Type*} (step : S → E → Except ε S)

/-- The state in which the events `es` leave the machine, or the failure they run into. -/
def exec : S → List E → Except ε S
  | s, [] => .ok s
  | s, e :: es => match step s e with
    | .ok t => exec t es
    | .error x => .error x

/-- Every step taken on the events `es` from `s` meets `C`. -/
def Along (C : S → E → Prop) : S → List E → Prop
  | _, [] => True
  | s, e :: es => C s e ∧ ∀ t, step s e = .ok t → Along C t es

/-- The events `es` lead from `s` through the state `t`. -/
def Visits (s : S) (es : List E) (t : S) : Prop := ∃ pre, pre <+: es ∧ exec step s pre = .ok t

/-- A step taken on the events `es` from `s` meets `C`. -/
def Occurs (C : S → E → Prop) (s : S) (es : List E) : Prop :=
  ∃ pre e t, pre ++ [e] <+: es ∧ exec step s pre = .ok t ∧ C t e

/-- A sequence of two calls succeeds when both do. -/
theorem bind_eq_ok.{u} {α β : Type u} {x : Except ε α} {f : α → Except ε β} {b : β} :
    x >>= f = .ok b ↔ ∃ a, x = .ok a ∧ f a = .ok b := by
  cases x with
  | ok a => exact ⟨fun h => ⟨a, rfl, h⟩, fun ⟨_, ha, h⟩ => Except.ok.inj ha ▸ h⟩
  | error y => exact ⟨fun h => (by cases h), fun ⟨_, ha, _⟩ => (by cases ha)⟩

/-- A result that is made from that of a call which succeeds. -/
theorem map_eq_ok {α β : Type*} {x : Except ε α} {f : α → β} {b : β} (h : x.map f = .ok b) :
    ∃ a, x = .ok a ∧ f a = b := by
  cases x with
  | error y => cases h
  | ok a => exact ⟨a, rfl, Except.ok.inj h⟩

/-- A call that succeeds hands its result to the next. -/
theorem ok_bind.{u} {α β : Type u} (a : α) (f : α → Except ε β) : Except.ok a >>= f = f a := rfl

variable {step}

@[simp] theorem exec_nil (s : S) : exec step s [] = .ok s := rfl

theorem exec_cons_of_ok {s t : S} {e : E} (es : List E) (h : step s e = .ok t) :
    exec step s (e :: es) = exec step t es := by
  simp only [exec, h]

theorem exec_cons_of_error {s : S} {e : E} {x : ε} (es : List E) (h : step s e = .error x) :
    exec step s (e :: es) = .error x := by
  simp only [exec, h]

/-- A run on `e :: es` is a step and a run on `es`. -/
theorem exec_cons_eq_ok {s u : S} {e : E} {es : List E} :
    exec step s (e :: es) = .ok u ↔ ∃ t, step s e = .ok t ∧ exec step t es = .ok u := by
  cases h : step s e with
  | ok t => simp [exec_cons_of_ok es h]
  | error x => simp [exec_cons_of_error es h]

theorem exec_append {s t : S} {es : List E} (fs : List E) (h : exec step s es = .ok t) :
    exec step s (es ++ fs) = exec step t fs := by
  induction es generalizing s with
  | nil => cases h; rfl
  | cons e es ih =>
    obtain ⟨u, hu, hes⟩ := exec_cons_eq_ok.1 h
    rw [List.cons_append, exec_cons_of_ok _ hu, ih hes]

theorem exec_snoc {s t : S} {es : List E} (e : E) (h : exec step s es = .ok t) :
    exec step s (es ++ [e]) = step t e := by
  rw [exec_append [e] h]
  cases ht : step t e with
  | ok u => rw [exec_cons_of_ok [] ht, exec_nil]
  | error x => exact exec_cons_of_error [] ht

/-- A run on `es ++ fs` is a run on `es` and one on `fs`. -/
theorem exec_append_eq_ok {s u : S} {es fs : List E} :
    exec step s (es ++ fs) = .ok u ↔ ∃ t, exec step s es = .ok t ∧ exec step t fs = .ok u := by
  induction es generalizing s with
  | nil => simp
  | cons e es ih => simp only [List.cons_append, exec_cons_eq_ok, ih]; grind

/-- A check that passes on the outcome of a run shows that the run does not fail. -/
theorem exists_ok_of_check {x : Except ε S} {p : S → Bool}
    (h : (match x with | .ok s => p s | .error _ => false) = true) :
    ∃ s, x = .ok s ∧ p s = true := by
  cases x with
  | ok s => exact ⟨s, rfl, h⟩
  | error y => cases h

/-- A failure is that of a step taken at the end of a run. -/
theorem exec_eq_error {s : S} {es : List E} {x : ε} (h : exec step s es = .error x) :
    ∃ pre e t, pre ++ [e] <+: es ∧ exec step s pre = .ok t ∧ step t e = .error x := by
  induction es generalizing s with
  | nil => cases h
  | cons e es ih =>
    cases hs : step s e with
    | ok t =>
      rw [exec_cons_of_ok es hs] at h
      obtain ⟨pre, f, u, hpre, hu, hf⟩ := ih h
      refine ⟨e :: pre, f, u, ?_, exec_cons_eq_ok.2 ⟨t, hs, hu⟩, hf⟩
      rwa [List.cons_append, List.cons_prefix_cons, and_iff_right rfl]
    | error y =>
      rw [exec_cons_of_error es hs] at h
      cases h
      exact ⟨[], e, s, List.prefix_append [e] es, rfl, hs⟩

/-- What every step preserves, every run preserves. -/
theorem exec_invariant {I : S → Prop} (hI : ∀ s e t, I s → step s e = .ok t → I t)
    {s t : S} {es : List E} (hs : I s) (h : exec step s es = .ok t) : I t := by
  induction es generalizing s with
  | nil => cases h; exact hs
  | cons e es ih =>
    obtain ⟨u, hu, hes⟩ := exec_cons_eq_ok.1 h
    exact ih (hI s e u hs hu) hes

/-- What every step taken under `C` preserves, every run taken under `C` preserves. -/
theorem exec_invariant_along {C : S → E → Prop} {I : S → Prop}
    (hI : ∀ s e t, I s → C s e → step s e = .ok t → I t)
    {s t : S} {es : List E} (hs : I s) (hC : Along step C s es) (h : exec step s es = .ok t) :
    I t := by
  induction es generalizing s with
  | nil => cases h; exact hs
  | cons e es ih =>
    obtain ⟨u, hu, hes⟩ := exec_cons_eq_ok.1 h
    exact ih (hI s e u hs hC.1 hu) (hC.2 u hu) hes

/-- What holds of the events so far and of the state they lead to, when every step keeps it. -/
theorem exec_history {I : List E → S → Prop}
    (hI : ∀ pre s e t, I pre s → step s e = .ok t → I (pre ++ [e]) t)
    {s t : S} {es : List E} (hs : I [] s) (h : exec step s es = .ok t) : I es t := by
  induction es using List.reverseRecOn generalizing t with
  | nil => cases h; exact hs
  | append_singleton es e ih =>
    obtain ⟨u, hu, hes⟩ := exec_append_eq_ok.1 h
    obtain ⟨v, hv, hes⟩ := exec_cons_eq_ok.1 hes
    cases hes
    exact hI es u e t (ih hu) hv

theorem Along.of_prefix {C : S → E → Prop} {s : S} {pre es : List E} (hp : pre <+: es)
    (h : Along step C s es) : Along step C s pre := by
  induction pre generalizing s es with
  | nil => trivial
  | cons e pre ih =>
    obtain ⟨es, rfl⟩ := hp
    exact ⟨h.1, fun t ht => ih (List.prefix_append pre es) (h.2 t ht)⟩

/-- What is left of a run is taken under `C`, too. -/
theorem Along.of_append {C : S → E → Prop} {s t : S} {pre es : List E}
    (h : Along step C s (pre ++ es)) (ht : exec step s pre = .ok t) : Along step C t es := by
  induction pre generalizing s with
  | nil => cases ht; exact h
  | cons e pre ih =>
    obtain ⟨u, hu, hpre⟩ := exec_cons_eq_ok.1 ht
    exact ih (h.2 u hu) hpre

/-- One more step is taken under `C`. -/
theorem Along.snoc {C : S → E → Prop} {s t : S} {es : List E} {e : E} (h : Along step C s es)
    (ht : exec step s es = .ok t) (he : C t e) : Along step C s (es ++ [e]) := by
  induction es generalizing s with
  | nil =>
    cases ht
    exact ⟨he, fun _ _ => trivial⟩
  | cons f es ih =>
    obtain ⟨u, hu, hes⟩ := exec_cons_eq_ok.1 ht
    refine ⟨h.1, fun v hv => ?_⟩
    rw [hu] at hv
    cases hv
    exact ih (h.2 u hu) hes

/-- Every step of a run meets `C` when each step taken from a state the run visits does. -/
theorem along_iff {C : S → E → Prop} {s : S} {es : List E} :
    Along step C s es ↔
      ∀ pre e t, pre ++ [e] <+: es → exec step s pre = .ok t → C t e := by
  induction es generalizing s with
  | nil => simp [Along]
  | cons e es ih =>
    constructor
    · rintro ⟨he, hes⟩ pre f t hpre ht
      cases pre with
      | nil =>
        cases ht
        obtain rfl : f = e := by simpa using hpre
        exact he
      | cons g pre =>
        rw [List.cons_append, List.cons_prefix_cons] at hpre
        obtain ⟨rfl, hpre⟩ := hpre
        obtain ⟨u, hu, hpt⟩ := exec_cons_eq_ok.1 ht
        exact ih.1 (hes u hu) pre f t hpre hpt
    · intro h
      refine ⟨h [] e s (by simp) rfl, fun u hu => ih.2 fun pre f t hpre ht => ?_⟩
      exact h (e :: pre) f t (by simpa using hpre) (exec_cons_eq_ok.2 ⟨u, hu, ht⟩)

theorem not_occurs_nil (C : S → E → Prop) (s : S) : ¬Occurs step C s [] := by
  rintro ⟨pre, e, _, hpre, -⟩
  exact List.append_ne_nil_of_right_ne_nil pre (List.cons_ne_nil e []) (List.prefix_nil.1 hpre)

/-- With one more step, what occurs occurred before or in this step. -/
theorem occurs_snoc {C : S → E → Prop} {s t : S} {es : List E} {e : E} (ht : exec step s es = .ok t) :
    Occurs step C s (es ++ [e]) ↔ Occurs step C s es ∨ C t e := by
  constructor
  · rintro ⟨pre, f, u, hpre, hu, hf⟩
    rcases List.prefix_concat_iff.1 hpre with heq | hpre
    · obtain ⟨rfl, hfe⟩ := List.append_inj' heq rfl
      cases hfe
      rw [ht] at hu
      cases hu
      exact .inr hf
    · exact .inl ⟨pre, f, u, hpre, hu, hf⟩
  · rintro (⟨pre, f, u, hpre, hu, hf⟩ | he)
    · exact ⟨pre, f, u, hpre.trans (List.prefix_append _ _), hu, hf⟩
    · exact ⟨es, e, t, List.prefix_rfl, ht, he⟩

/-- Conditions that agree in the states that every step preserves. -/
theorem along_congr {C D : S → E → Prop} {I : S → Prop} (hCD : ∀ s e, I s → (C s e ↔ D s e))
    (hI : ∀ s e t, I s → step s e = .ok t → I t) {s : S} {es : List E} (hs : I s) :
    Along step C s es ↔ Along step D s es := by
  induction es generalizing s with
  | nil => exact Iff.rfl
  | cons e es ih =>
    exact and_congr (hCD s e hs) (forall₂_congr fun t ht => ih (hI s e t hs ht))

/-- Conditions that agree in the states that the steps taken under `A` preserve. -/
theorem Along.congr {A C D : S → E → Prop} {I : S → Prop}
    (hCD : ∀ s e, I s → A s e → (C s e ↔ D s e))
    (hI : ∀ s e t, I s → A s e → step s e = .ok t → I t) {s : S} {es : List E} (hs : I s)
    (hA : Along step A s es) : Along step C s es ↔ Along step D s es := by
  induction es generalizing s with
  | nil => exact Iff.rfl
  | cons e es ih =>
    exact and_congr (hCD s e hs hA.1)
      (forall₂_congr fun t ht => ih (hI s e t hs hA.1 ht) (hA.2 t ht))

/-- What holds of every step that is taken under `A` from a state that such steps preserve. -/
theorem Along.of_invariant {A C : S → E → Prop} {I : S → Prop} (hC : ∀ s e, I s → A s e → C s e)
    (hI : ∀ s e t, I s → A s e → step s e = .ok t → I t) {s : S} {es : List E} (hs : I s)
    (hA : Along step A s es) : Along step C s es :=
  (hA.congr (fun s e hs he => iff_of_true (hC s e hs he) he) hI hs).2 hA

/-- A run fails on no step, when no step taken under `A` does. -/
theorem exists_exec_along {A : S → E → Prop} {I : S → Prop}
    (hI : ∀ s e, I s → A s e → ∃ t, step s e = .ok t ∧ I t) {s : S} {es : List E} (hs : I s)
    (hA : Along step A s es) : ∃ t, exec step s es = .ok t ∧ I t := by
  induction es generalizing s with
  | nil => exact ⟨s, rfl, hs⟩
  | cons e es ih =>
    obtain ⟨t, ht, hIt⟩ := hI s e hs hA.1
    obtain ⟨u, hu, hIu⟩ := ih hIt (hA.2 t ht)
    exact ⟨u, exec_cons_eq_ok.2 ⟨t, ht, hu⟩, hIu⟩

/-- Two conditions on every step are one. -/
theorem Along.and {C D : S → E → Prop} {s : S} {es : List E} (h : Along step C s es)
    (h' : Along step D s es) : Along step (fun s e => C s e ∧ D s e) s es := by
  induction es generalizing s with
  | nil => trivial
  | cons e es ih => exact ⟨⟨h.1, h'.1⟩, fun t ht => ih (h.2 t ht) (h'.2 t ht)⟩

/-- What holds of the events so far and of the state they lead to, when every step taken under `C`
    keeps it. -/
theorem exec_history_along {C : S → E → Prop} {I : List E → S → Prop}
    (hI : ∀ pre s e t, I pre s → C s e → step s e = .ok t → I (pre ++ [e]) t)
    {s t : S} {es : List E} (hs : I [] s) (hC : Along step C s es) (h : exec step s es = .ok t) :
    I es t := by
  induction es using List.reverseRecOn generalizing t with
  | nil => cases h; exact hs
  | append_singleton es e ih =>
    obtain ⟨u, hu, hes⟩ := exec_append_eq_ok.1 h
    obtain ⟨v, hv, hes⟩ := exec_cons_eq_ok.1 hes
    cases hes
    exact hI es u e t (ih (hC.of_prefix (List.prefix_append _ _)) hu) (hC.of_append hu).1 hv

/-- How often the steps taken on the events `es` from `s` meet `p`. -/
def countAlong (step : S → E → Except ε S) (p : S → E → Bool) : S → List E → ℕ
  | _, [] => 0
  | s, e :: es => (p s e).toNat + match step s e with
    | .ok t => countAlong step p t es
    | .error _ => 0

theorem countAlong_append {p : S → E → Bool} {s t : S} {es : List E} (fs : List E)
    (h : exec step s es = .ok t) :
    countAlong step p s (es ++ fs) = countAlong step p s es + countAlong step p t fs := by
  induction es generalizing s with
  | nil => cases h; simp [countAlong]
  | cons e es ih =>
    obtain ⟨u, hu, hes⟩ := exec_cons_eq_ok.1 h
    simp only [List.cons_append, countAlong, hu]
    rw [ih hes, Nat.add_assoc]

theorem countAlong_snoc {p : S → E → Bool} {s t : S} {es : List E} (e : E)
    (h : exec step s es = .ok t) :
    countAlong step p s (es ++ [e]) = countAlong step p s es + (p t e).toNat := by
  rw [countAlong_append [e] h, countAlong]
  split <;> simp [countAlong]

/-- What the steps taken on the events `es` from `s` yield by `f`, in order. -/
def collectAlong {β : Type*} (step : S → E → Except ε S) (f : S → E → List β) : S → List E → List β
  | _, [] => []
  | s, e :: es => f s e ++ match step s e with
    | .ok t => collectAlong step f t es
    | .error _ => []

theorem collectAlong_snoc {β : Type*} {f : S → E → List β} {s t : S} {es : List E} (e : E)
    (h : exec step s es = .ok t) :
    collectAlong step f s (es ++ [e]) = collectAlong step f s es ++ f t e := by
  induction es generalizing s with
  | nil =>
    cases h
    cases ht : step t e <;> simp [collectAlong, ht]
  | cons d es ih =>
    obtain ⟨u, hu, hes⟩ := exec_cons_eq_ok.1 h
    simp only [List.cons_append, collectAlong, hu]
    rw [ih hes, List.append_assoc]

/-- `Along`, computed. -/
def checkAlong (step : S → E → Except ε S) (C : S → E → Prop) [∀ s e, Decidable (C s e)] :
    S → List E → Bool
  | _, [] => true
  | s, e :: es => decide (C s e) && match step s e with
    | .ok t => checkAlong step C t es
    | .error _ => true

theorem along_of_check {C : S → E → Prop} [∀ s e, Decidable (C s e)] {s : S} {es : List E}
    (h : checkAlong step C s es = true) : Along step C s es := by
  induction es generalizing s with
  | nil => trivial
  | cons e es ih =>
    rw [checkAlong, Bool.and_eq_true, decide_eq_true_eq] at h
    refine ⟨h.1, fun t ht => ih ?_⟩
    have hrest := h.2
    rw [ht] at hrest
    exact hrest

end ProxyPlatform
