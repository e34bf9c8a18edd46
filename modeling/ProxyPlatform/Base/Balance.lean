import ProxyPlatform.Base.Run
import Mathlib.Algebra.BigOperators.Group.Finset.Basic
import Mathlib.Algebra.Order.Group.Multiset

/-!
# Balances along runs

A machine has some items in stock; a step takes some in and gives some out. What is left and what
went out is compared with what was there and what came in, with all copies counted:

* it is the same if no step loses an item or makes a copy of one (`Balance.eq`);
* it is no more if steps may lose items, but make no copies (`Balance.le`).

Both are balances: what holds of every step holds of a run (`exec_balance`). The stock may be
spread over places, of which a step changes one (`sum_update`).
-/

namespace ProxyPlatform

variable {S E ε α β σ : Type*}

/-- A way to compare two collections, to which the same may be added. -/
structure Balance (r : Multiset α → Multiset α → Prop) : Prop where
  refl : ∀ a, r a a
  trans : ∀ a b c, r a b → r b c → r a c
  add : ∀ a b c, r a b → r (a + c) (b + c)

theorem Balance.eq : Balance (@Eq (Multiset α)) where
  refl _ := rfl
  trans _ _ _ := Eq.trans
  add _ _ c h := congrArg (· + c) h

theorem Balance.le : Balance (fun a b : Multiset α => a ≤ b) where
  refl _ := le_rfl
  trans _ _ _ := le_trans
  add _ _ _ h := add_le_add_left h _

theorem Balance.add_add {r : Multiset α → Multiset α → Prop} (hr : Balance r)
    {a b c d : Multiset α} (hab : r a b) (hcd : r c d) : r (a + c) (b + d) := by
  refine hr.trans _ _ _ (hr.add a b c hab) ?_
  rw [add_comm b c, add_comm b d]
  exact hr.add c d b hcd

/-- What holds of every step that is taken under `C` holds of every run that is. -/
theorem exec_balance {r : Multiset α → Multiset α → Prop} (hr : Balance r)
    {step : S → E → Except ε S} {stock : S → Multiset α} {out inn : S → E → List α} {I : S → Prop}
    {C : S → E → Prop} (hstep : ∀ s e t, I s → C s e → step s e = .ok t →
      I t ∧ r (↑(out s e) + stock t) (stock s + ↑(inn s e))) {s t : S} {es : List E} (hs : I s)
    (hC : Along step C s es) (h : exec step s es = .ok t) :
    r (↑(collectAlong step out s es) + stock t) (stock s + ↑(collectAlong step inn s es)) := by
  induction es generalizing s with
  | nil =>
    cases h
    simpa [collectAlong] using hr.refl (stock t)
  | cons e es ih =>
    obtain ⟨u, hu, hes⟩ := exec_cons_eq_ok.1 h
    obtain ⟨hIu, hone⟩ := hstep s e u hs hC.1 hu
    have hrest := ih hIu (hC.2 u hu) hes
    simp only [collectAlong, hu, ← Multiset.coe_add]
    rw [add_assoc, ← add_assoc (stock s)]
    refine hr.trans _ _ _ (hr.add_add (hr.refl _) hrest) ?_
    rw [← add_assoc]
    exact hr.add _ _ _ hone

/-- A sum over places of which one has changed. -/
theorem sum_update [Fintype σ] [DecidableEq σ] [AddCommMonoid β] (f : σ → S) (g : S → β) (s : σ)
    (x : S) : ∑ i, g (Function.update f s x i) + g (f s) = ∑ i, g (f i) + g x := by
  rw [← Finset.add_sum_erase _ _ (Finset.mem_univ s), Function.update_self,
    ← Finset.add_sum_erase Finset.univ (fun i => g (f i)) (Finset.mem_univ s)]
  have hrest : ∑ i ∈ Finset.univ.erase s, g (Function.update f s x i) =
      ∑ i ∈ Finset.univ.erase s, g (f i) :=
    Finset.sum_congr rfl fun i hi => by rw [Function.update_of_ne (Finset.ne_of_mem_erase hi)]
  rw [hrest, add_comm (g x), add_right_comm, add_comm _ (g (f s)), add_assoc (g (f s))]

end ProxyPlatform
