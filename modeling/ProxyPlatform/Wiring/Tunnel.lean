import ProxyPlatform.Future
import Mathlib.Logic.Function.Basic
import Mathlib.Logic.Relation

/-!
# Tunnels

A tunnel has two halves: a client of the proxy, and a connection of the relay. Each half knows the
other by its id, and the ids travel through a future of the proxy. Here the halves are tables, and
the steps are what may happen to both:

* a client is accepted, asks for a connection, takes up the answer, is marked, and is dropped;
* the relay looks a host up, opens a connection, answers the future once the connection is there,
  closes it, and cleans it up.

Nothing of the proxy or of the relay is named: other tables with these steps have the same
invariants.

* `Mirrored`: what the halves know of each other agrees. A future that is still to be answered is
  held once, and its client waits for it; an open connection is known to its client, or is in a
  future that its client is to take up; what a client knows leads back to it;
* `Mirrored.step`: every step keeps this;
* `TunnelStep.answers`, `TunnelStep.learns`, `TunnelStep.opens`: where an answer, an id and an open
  connection come from.
-/

namespace ProxyPlatform

/-- How far the relay is with a connection. -/
inductive LinkPhase
  /-- It is to complete the future. -/
  | opening (future : ℕ)
  | opened
  | closing

/-- The future that is still to be completed. -/
def LinkPhase.future : LinkPhase → Option ℕ
  | opening f => some f
  | opened | closing => none

/-- An answer stands once it is given. -/
def Completion.settle {ρ : Type*} : Completion ρ → Option ρ → Completion ρ
  | .pending, result => .ready result
  | .ready result, _ => .ready result

/-! ## The two halves -/

/-- The half of the proxy. -/
structure Routes where
  /-- The live clients: whether they are marked, and the relay connection they know, or 0. -/
  client : ℕ → Option (Bool × ℕ)
  /-- The live futures: the client that waits, and the answer. -/
  future : ℕ → Option (ℕ × Completion ℕ)
  lastClient : ℕ
  lastFuture : ℕ
  client_le : ∀ i v, client i = some v → i ≤ lastClient
  future_le : ∀ f v, future f = some v → f ≤ lastFuture
  waiter : ∀ f i z, future f = some (i, z) → ∃ b, client i = some (b, 0)
  once : ∀ f g i z z', future f = some (i, z) → future g = some (i, z') → f = g

/-- The half of the relay. -/
structure Links where
  /-- The live connections: the client they are for, and how far they are. -/
  link : ℕ → Option (ℕ × LinkPhase)
  /-- The lookups: the client and the future they are for. -/
  lookup : ℕ → Option (ℕ × ℕ)
  lastId : ℕ
  link_le : ∀ k v, link k = some v → 0 < k ∧ k ≤ lastId

namespace Routes

variable (x : Routes)

/-- The clients when `i` is marked. -/
def marked (i : ℕ) : ℕ → Option (Bool × ℕ) := fun j =>
  if j = i then (x.client j).map fun v => (true, v.2) else x.client j

/-- The futures when `f`, if any, is answered. -/
def settled (f result : Option ℕ) : ℕ → Option (ℕ × Completion ℕ) := fun g =>
  if f = some g then (x.future g).map fun v => (v.1, v.2.settle result) else x.future g

/-- The futures without those of `i`. -/
def left (i : ℕ) : ℕ → Option (ℕ × Completion ℕ) := fun f => (x.future f).filter fun v => v.1 ≠ i

/-- The half of the proxy has the clients and the futures given. -/
structure Becomes (client : ℕ → Option (Bool × ℕ)) (future : ℕ → Option (ℕ × Completion ℕ))
    (y : Routes) : Prop where
  client : y.client = client
  future : y.future = future
  lastClient : x.lastClient ≤ y.lastClient
  lastFuture : x.lastFuture ≤ y.lastFuture

/-- The client `i`, if it is live, waits for `f`, which is not answered. -/
structure Awaited (i f : ℕ) : Prop where
  client_le : i ≤ x.lastClient
  future_le : f ≤ x.lastFuture
  pending : ∀ v, x.future f = some v → v = (i, .pending)
  waits : ∀ v, x.client i = some v → x.future f = some (i, .pending)

/-- The client `i`, if it is live, knows the relay connection `k`, or is to learn of it. -/
structure Joined (i k : ℕ) : Prop where
  client_le : i ≤ x.lastClient
  knows : ∀ b n, x.client i = some (b, n) → n = k ∨ ∃ f, x.future f = some (i, .ready (some k))

end Routes

namespace Links

variable (r : Links)

/-- The connections when `k` is closed. -/
def closed (k : ℕ) : ℕ → Option (ℕ × LinkPhase) := fun j =>
  if j = k then (r.link j).map fun v => (v.1, .closing) else r.link j

structure Becomes (link : ℕ → Option (ℕ × LinkPhase)) (lookup : ℕ → Option (ℕ × ℕ)) (t : Links) :
    Prop where
  link : t.link = link
  lookup : t.lookup = lookup
  lastId : r.lastId ≤ t.lastId

/-- The client and the future that a lookup or a connection is for. -/
def held : ℕ ⊕ ℕ → Option (ℕ × ℕ)
  | .inl d => r.lookup d
  | .inr k => (r.link k).bind fun v => v.2.future.map fun f => (v.1, f)

/-- The connection `k` was created, and has no future to complete. -/
structure Met (k : ℕ) : Prop where
  le : k ≤ r.lastId
  future : ∀ v, r.link k = some v → v.2.future = none

/-- The connection `k` was connected, and is for the client `i`, if it is live. -/
structure Leads (k i : ℕ) : Prop extends r.Met k where
  pos : 0 < k
  client : ∀ v, r.link k = some v → v.1 = i

end Links

/-! ## Steps -/

/-- The steps that a run has a say in, with the client or the connection they concern. -/
inductive TunnelLabel
  | quiet
  | peerClose (i : ℕ)
  | take (i : ℕ)
  | drop (i : ℕ)
  | connect (k : ℕ)
  | idle (k : ℕ)

/-- A step of the two halves. -/
inductive TunnelStep (x : Routes) (r : Links) : TunnelLabel → Routes → Links → Prop
  | quiet {y t} (hx : x.Becomes x.client x.future y) (hr : r.Becomes r.link r.lookup t) :
      TunnelStep x r .quiet y t
  | accept {y t} (i) (hi : x.lastClient < i)
      (hx : x.Becomes (Function.update x.client i (some (false, 0))) x.future y)
      (hlast : i ≤ y.lastClient)
      (hr : r.Becomes r.link r.lookup t) : TunnelStep x r .quiet y t
  | peerClose {y t} (i n) (hi : x.client i = some (false, n)) (hx : x.Becomes (x.marked i) x.future y)
      (hr : r.Becomes (r.closed n) r.lookup t) : TunnelStep x r (.peerClose i) y t
  | refuse {y t} (i f b) (hi : x.client i = some (b, 0)) (hf : x.lastFuture < f)
      (hx : x.Becomes x.client (Function.update x.future f (some (i, .ready none))) y)
      (hr : r.Becomes r.link r.lookup t) : TunnelStep x r .quiet y t
  | look {y t} (i f d b) (hi : x.client i = some (b, 0)) (hf : x.lastFuture < f)
      (hd : r.lookup d = none)
      (hx : x.Becomes x.client (Function.update x.future f (some (i, .pending))) y)
      (hr : r.Becomes r.link (Function.update r.lookup d (some (i, f))) t) : TunnelStep x r .quiet y t
  | open {y t} (i f k b) (hi : x.client i = some (b, 0)) (hf : x.lastFuture < f)
      (hk : r.lastId < k)
      (hx : x.Becomes x.client (Function.update x.future f (some (i, .pending))) y)
      (hr : r.Becomes (Function.update r.link k (some (i, .opening f))) r.lookup t) :
      TunnelStep x r .quiet y t
  | take {y t} (i f b result) (hi : x.client i = some (b, 0))
      (hf : x.future f = some (i, .ready result))
      (hx : x.Becomes (Function.update x.client i (some (b, result.getD 0)))
        (Function.update x.future f none) y)
      (hr : r.Becomes r.link r.lookup t) : TunnelStep x r (.take i) y t
  | drop {y t} (i) (hx : x.Becomes (Function.update x.client i none) (x.left i) y)
      (hr : r.Becomes r.link r.lookup t) : TunnelStep x r (.drop i) y t
  | resolve {y t} (d k i f) (hd : r.lookup d = some (i, f)) (hk : r.lastId < k)
      (hx : x.Becomes x.client x.future y)
      (hr : r.Becomes (Function.update r.link k (some (i, .opening f)))
        (Function.update r.lookup d none) t) : TunnelStep x r .quiet y t
  | fail {y t} (d i f) (hd : r.lookup d = some (i, f))
      (hx : x.Becomes x.client (x.settled (some f) none) y)
      (hr : r.Becomes r.link (Function.update r.lookup d none) t) : TunnelStep x r .quiet y t
  | connect {y t} (k i f) (hk : r.link k = some (i, .opening f))
      (hx : x.Becomes x.client (x.settled (some f) (some k)) y)
      (hr : r.Becomes (Function.update r.link k (some (i, .opened))) r.lookup t) :
      TunnelStep x r (.connect k) y t
  | close {y t} (k i p) (hk : r.link k = some (i, p))
      (hx : x.Becomes (x.marked i) (x.settled p.future none) y)
      (hr : r.Becomes (r.closed k) r.lookup t) : TunnelStep x r .quiet y t
  | idle {y t} (k i p) (hk : r.link k = some (i, p))
      (hx : x.Becomes x.client (x.settled p.future none) y)
      (hr : r.Becomes (r.closed k) r.lookup t) : TunnelStep x r (.idle k) y t
  | clean {y t} (k i) (hk : r.link k = some (i, .closing)) (hx : x.Becomes x.client x.future y)
      (hr : r.Becomes (Function.update r.link k none) r.lookup t) : TunnelStep x r .quiet y t

/-- Sequences of steps with labels in `L`. -/
def TunnelSteps (L : TunnelLabel → Prop) : Routes × Links → Routes × Links → Prop :=
  Relation.ReflTransGen fun a b => ∃ l, L l ∧ TunnelStep a.1 a.2 l b.1 b.2

namespace TunnelSteps

variable {L M : TunnelLabel → Prop} {a b c : Routes × Links}

theorem refl (a : Routes × Links) : TunnelSteps L a a := Relation.ReflTransGen.refl

theorem single {l : TunnelLabel} (hl : L l) (h : TunnelStep a.1 a.2 l b.1 b.2) : TunnelSteps L a b :=
  Relation.ReflTransGen.single ⟨l, hl, h⟩

theorem trans (h : TunnelSteps L a b) (h' : TunnelSteps L b c) : TunnelSteps L a c :=
  Relation.ReflTransGen.trans h h'

theorem mono (hLM : ∀ l, L l → M l) (h : TunnelSteps L a b) : TunnelSteps M a b :=
  Relation.ReflTransGen.mono (fun _ _ ⟨l, hl, h⟩ => ⟨l, hLM l hl, h⟩) a b h

/-- What every step preserves, every sequence of steps preserves. -/
theorem invariant {I : Routes × Links → Prop}
    (hI : ∀ a l b, L l → I a → TunnelStep a.1 a.2 l b.1 b.2 → I b) (h : TunnelSteps L a b) (ha : I a) :
    I b := by
  induction h with
  | refl => exact ha
  | tail _ hstep ih =>
    obtain ⟨l, hl, hstep⟩ := hstep
    exact hI _ l _ hl ih hstep

end TunnelSteps

/-- No future is held by two. -/
def Single (held : ℕ ⊕ ℕ → Option (ℕ × ℕ)) : Prop :=
  ∀ z z' i j f, held z = some (i, f) → held z' = some (j, f) → z = z'

/-- What the halves know of each other. -/
structure Mirrored (x : Routes) (r : Links) : Prop where
  awaited : ∀ z i f, r.held z = some (i, f) → x.Awaited i f
  once : Single r.held
  opened : ∀ k i, r.link k = some (i, .opened) → x.Joined i k
  answered : ∀ f i k, x.future f = some (i, .ready (some k)) → r.Leads k i
  known : ∀ i b k, x.client i = some (b, k) → k ≠ 0 → r.Leads k i

variable {x y : Routes} {r t : Links} {l : TunnelLabel} {i f k : ℕ}

/-! ## What is held -/

namespace Links

theorem held_inr {v : ℕ × ℕ} :
    r.held (.inr k) = some v ↔ r.link k = some (v.1, .opening v.2) := by
  obtain ⟨i, f⟩ := v
  simp only [held]
  rcases r.link k with _ | ⟨j, p⟩
  · simp
  · cases p <;> simp [LinkPhase.future]

/-- A connection that is not closed is as it was. -/
theorem closed_eq_some {n j : ℕ} {p : LinkPhase} (hp : p ≠ .closing) :
    r.closed n j = some (i, p) ↔ j ≠ n ∧ r.link j = some (i, p) := by
  unfold closed
  by_cases hj : j = n
  · rw [if_pos hj, Option.map_eq_some_iff]
    refine iff_of_false ?_ fun h => h.1 hj
    rintro ⟨v, -, hv⟩
    exact hp (congrArg Prod.snd hv).symm
  · rw [if_neg hj, and_iff_right hj]

theorem Becomes.refl (r : Links) : r.Becomes r.link r.lookup r := ⟨rfl, rfl, le_rfl⟩

theorem closed_eq_update {p : LinkPhase} (h : r.link k = some (i, p)) :
    r.closed k = Function.update r.link k (some (i, .closing)) := by
  funext j
  rw [closed, Function.update_apply]
  split
  · next hj =>
    rw [hj, h]
    rfl
  · rfl

/-- No connection has the id 0. -/
theorem closed_zero : r.closed 0 = r.link := by
  funext j
  unfold closed
  split
  · rcases hj : r.link j with _ | v
    · rfl
    · exact absurd (r.link_le j v hj).1 (by omega)
  · rfl

variable {link : ℕ → Option (ℕ × LinkPhase)} {lookup : ℕ → Option (ℕ × ℕ)} {z : ℕ ⊕ ℕ} {v : ℕ × ℕ}
  {n d : ℕ}

theorem held_of_same (hr : r.Becomes r.link r.lookup t) : t.held = r.held := by
  funext z
  cases z with
  | inl d => exact congrFun hr.lookup d
  | inr k => simp only [held, hr.link]

theorem held_of_closed (hr : r.Becomes (r.closed n) r.lookup t) :
    t.held = Function.update r.held (.inr n) none := by
  funext z
  cases z with
  | inl d => exact congrFun hr.lookup d
  | inr k =>
    by_cases hk : k = n
    · subst hk
      rw [Function.update_self]
      refine Option.eq_none_iff_forall_ne_some.2 fun v hv => ?_
      rw [held_inr, hr.link, closed_eq_some (by simp)] at hv
      exact hv.1 rfl
    · rw [Function.update_of_ne (by simpa using hk)]
      simp only [held, hr.link, closed, if_neg hk]

theorem held_of_link {w : Option (ℕ × LinkPhase)} (hr : r.Becomes (Function.update r.link n w) lookup t)
    (hlookup : lookup = r.lookup) : t.held =
      Function.update r.held (.inr n) (w.bind fun v => v.2.future.map fun f => (v.1, f)) := by
  funext z
  cases z with
  | inl d => exact congrFun (hr.lookup.trans hlookup) d
  | inr k =>
    by_cases hk : k = n
    · subst hk
      rw [Function.update_self, held, hr.link, Function.update_self]
    · rw [Function.update_of_ne (by simpa using hk), held, hr.link, Function.update_of_ne hk, held]

theorem held_of_lookup {w : Option (ℕ × ℕ)} (hr : r.Becomes r.link (Function.update r.lookup d w) t) :
    t.held = Function.update r.held (.inl d) w := by
  funext z
  cases z with
  | inl e =>
    by_cases he : e = d
    · subst he
      rw [Function.update_self, held, hr.lookup, Function.update_self]
    · rw [Function.update_of_ne (by simpa using he), held, hr.lookup, Function.update_of_ne he, held]
  | inr k => simp [held, hr.link]

theorem held_of_resolve {w : Option (ℕ × LinkPhase)} {w' : Option (ℕ × ℕ)}
    (hr : r.Becomes (Function.update r.link n w) (Function.update r.lookup d w') t) : t.held =
      Function.update (Function.update r.held (.inl d) w') (.inr n)
        (w.bind fun v => v.2.future.map fun f => (v.1, f)) := by
  funext z
  cases z with
  | inl e =>
    by_cases he : e = d
    · subst he
      simp [held, hr.lookup]
    · simp [held, hr.lookup, he]
  | inr k =>
    by_cases hk : k = n
    · subst hk
      simp [held, hr.link]
    · simp [held, hr.link, hk]

end Links

/-! ## Steps, half by half -/

theorem Routes.Awaited.congr {c : ℕ → Option (Bool × ℕ)} {g : ℕ → Option (ℕ × Completion ℕ)}
    (h : x.Awaited i f) (hx : x.Becomes c g y) (hf : g f = x.future f)
    (hi : c i ≠ none → x.client i ≠ none) : y.Awaited i f where
  client_le := h.client_le.trans hx.lastClient
  future_le := h.future_le.trans hx.lastFuture
  pending v hv := by
    rw [hx.future, hf] at hv
    exact h.pending v hv
  waits v hv := by
    rw [hx.client] at hv
    obtain ⟨w, hw⟩ := Option.ne_none_iff_exists'.1 (hi (by rw [hv]; simp))
    rw [hx.future, hf]
    exact h.waits w hw

/-- A client that has just asked. -/
theorem Routes.awaited_new {b : Bool} (hi : x.client i = some (b, 0))
    (hx : x.Becomes x.client (Function.update x.future f (some (i, .pending))) y) : y.Awaited i f := by
  have hget : y.future f = some (i, .pending) := by rw [hx.future, Function.update_self]
  refine ⟨(x.client_le i _ hi).trans hx.lastClient, y.future_le f _ hget, fun v hv => ?_, fun _ _ => hget⟩
  rw [hget] at hv
  exact (Option.some.inj hv).symm

theorem Routes.settled_of_ne {g : ℕ} {result : Option ℕ} {h : Option ℕ} (hne : h ≠ some g) :
    x.settled h result g = x.future g := if_neg hne

theorem Routes.settled_congr (h : y.future = x.future) (o result : Option ℕ) :
    y.settled o result = x.settled o result := by
  funext g
  simp only [settled, h]

theorem Routes.marked_eq_update {b : Bool} {n : ℕ} (h : x.client i = some (b, n)) :
    x.marked i = Function.update x.client i (some (true, n)) := by
  funext j
  rw [marked, Function.update_apply]
  split
  · next hj =>
    rw [hj, h]
    rfl
  · rfl

theorem Routes.marked_ne_none {j : ℕ} (h : x.marked i j ≠ none) : x.client j ≠ none := by
  unfold marked at h
  split at h
  · simpa using h
  · exact h

theorem Mirrored.awaited_step (h : Mirrored x r) (hs : TunnelStep x r l y t) {z : ℕ ⊕ ℕ}
    (hz : t.held z = some (i, f)) : y.Awaited i f := by
  cases hs with
  | quiet hx hr =>
    rw [Links.held_of_same hr] at hz
    exact (h.awaited z i f hz).congr hx rfl id
  | accept j hj hx hlast hr =>
    rw [Links.held_of_same hr] at hz
    have ha := h.awaited z i f hz
    have hne : i ≠ j := fun hij => absurd ha.client_le (by omega)
    exact ha.congr hx rfl (by rw [Function.update_of_ne hne]; exact id)
  | peerClose j n hj hx hr =>
    rw [Links.held_of_closed hr, Function.update_apply] at hz
    split at hz
    · cases hz
    · exact (h.awaited z i f hz).congr hx rfl x.marked_ne_none
  | refuse j g b hj hg hx hr =>
    rw [Links.held_of_same hr] at hz
    have ha := h.awaited z i f hz
    exact ha.congr hx (Function.update_of_ne (by have := ha.future_le; omega) _ _) id
  | look j g d b hj hg hd hx hr =>
    rw [Links.held_of_lookup hr, Function.update_apply] at hz
    split at hz
    · cases hz
      exact Routes.awaited_new hj hx
    · have ha := h.awaited z i f hz
      exact ha.congr hx (Function.update_of_ne (by have := ha.future_le; omega) _ _) id
  | «open» j g k b hj hg hk hx hr =>
    rw [Links.held_of_link hr rfl, Function.update_apply] at hz
    split at hz
    · cases hz
      exact Routes.awaited_new hj hx
    · have ha := h.awaited z i f hz
      exact ha.congr hx (Function.update_of_ne (by have := ha.future_le; omega) _ _) id
  | take j g b result hj hg hx hr =>
    rw [Links.held_of_same hr] at hz
    have ha := h.awaited z i f hz
    have hne : f ≠ g := by
      rintro rfl
      cases ha.pending _ hg
    refine ha.congr hx (Function.update_of_ne hne _ _) fun hi => ?_
    rw [Function.update_apply] at hi
    split at hi
    · next hij => rw [hij, hj]; simp
    · exact hi
  | drop j hx hr =>
    rw [Links.held_of_same hr] at hz
    have ha := h.awaited z i f hz
    refine ⟨ha.client_le.trans hx.lastClient, ha.future_le.trans hx.lastFuture, fun v hv => ?_, fun v hv => ?_⟩
    · rw [hx.future, Routes.left, Option.filter_eq_some_iff] at hv
      exact ha.pending v hv.1
    · rw [hx.client, Function.update_apply] at hv
      split at hv
      · cases hv
      · next hij =>
        rw [hx.future, Routes.left, ha.waits v hv, Option.filter_some, if_pos (by simpa using hij)]
  | resolve d k j g hd hk hx hr =>
    rw [Links.held_of_resolve hr, Function.update_apply, Function.update_apply] at hz
    split at hz
    · cases hz
      exact (h.awaited (.inl d) _ _ hd).congr hx rfl id
    · split at hz
      · cases hz
      · exact (h.awaited z i f hz).congr hx rfl id
  | fail d j g hd hx hr =>
    rw [Links.held_of_lookup hr, Function.update_apply] at hz
    split at hz
    · cases hz
    · next hne =>
      have hgf : some g ≠ some f := by
        rintro hgf
        cases hgf
        exact hne (h.once _ _ _ _ _ hz hd)
      exact (h.awaited z i f hz).congr hx (x.settled_of_ne hgf) id
  | connect k j g hk hx hr =>
    rw [Links.held_of_link hr rfl, Function.update_apply] at hz
    split at hz
    · cases hz
    · next hne =>
      have hgf : some g ≠ some f := by
        rintro hgf
        cases hgf
        exact hne (h.once _ _ _ _ _ hz (Links.held_inr.2 hk))
      exact (h.awaited z i f hz).congr hx (x.settled_of_ne hgf) id
  | close k j p hk hx hr =>
    rw [Links.held_of_closed hr, Function.update_apply] at hz
    split at hz
    · cases hz
    · next hne =>
      have hgf : p.future ≠ some f := by
        intro hp
        have hheld : r.held (.inr k) = some (j, f) := by simp [Links.held, hk, hp]
        exact hne (h.once _ _ _ _ _ hz hheld)
      exact (h.awaited z i f hz).congr hx (x.settled_of_ne hgf) x.marked_ne_none
  | idle k j p hk hx hr =>
    rw [Links.held_of_closed hr, Function.update_apply] at hz
    split at hz
    · cases hz
    · next hne =>
      have hgf : p.future ≠ some f := by
        intro hp
        have hheld : r.held (.inr k) = some (j, f) := by simp [Links.held, hk, hp]
        exact hne (h.once _ _ _ _ _ hz hheld)
      exact (h.awaited z i f hz).congr hx (x.settled_of_ne hgf) id
  | clean k j hk hx hr =>
    rw [Links.held_of_link hr rfl, Function.update_apply] at hz
    split at hz
    · cases hz
    · exact (h.awaited z i f hz).congr hx rfl id

/-- A future that changes hands, or that is given up, is held once. -/
theorem Single.erase {held : ℕ ⊕ ℕ → Option (ℕ × ℕ)} (h : Single held) (w : ℕ ⊕ ℕ) :
    Single (Function.update held w none) := by
  intro z z' i j f hz hz'
  rw [Function.update_apply] at hz hz'
  split at hz
  · cases hz
  · split at hz'
    · cases hz'
    · exact h z z' i j f hz hz'

theorem Single.insert {held : ℕ ⊕ ℕ → Option (ℕ × ℕ)} {w : ℕ ⊕ ℕ} (h : Single held)
    (hfree : ∀ z j, z ≠ w → held z ≠ some (j, f)) : Single (Function.update held w (some (i, f))) := by
  intro z z' j m g hz hz'
  rw [Function.update_apply] at hz hz'
  split at hz
  · next hw =>
    cases hz
    split at hz'
    · next hw' => rw [hw, hw']
    · next hw' => exact absurd hz' (hfree z' m hw')
  · next hw =>
    split at hz'
    · cases hz'
      exact absurd hz (hfree z j hw)
    · exact h z z' j m g hz hz'

theorem Mirrored.once_step (h : Mirrored x r) (hs : TunnelStep x r l y t) : Single t.held := by
  -- A future that is new is held by nobody.
  have hnew {w : ℕ ⊕ ℕ} {m g : ℕ} (hg : x.lastFuture < g) : r.held w ≠ some (m, g) := fun hw =>
    absurd (h.awaited w m g hw).future_le (Nat.not_le.2 hg)
  cases hs with
  | quiet hx hr | accept _ _ hx _ hr | refuse _ _ _ _ _ hx hr | take _ _ _ _ _ _ hx hr | drop _ hx hr =>
    rw [Links.held_of_same hr]
    exact h.once
  | peerClose j n hj hx hr | close k j p hk hx hr | idle k j p hk hx hr =>
    rw [Links.held_of_closed hr]
    exact h.once.erase _
  | look j g d b hj hg hd hx hr =>
    rw [Links.held_of_lookup hr]
    exact h.once.insert fun _ _ _ => hnew hg
  | «open» j g k b hj hg hk hx hr =>
    rw [Links.held_of_link hr rfl]
    exact h.once.insert fun _ _ _ => hnew hg
  | resolve d k j g hd hk hx hr =>
    rw [Links.held_of_resolve hr]
    refine (h.once.erase (.inl d)).insert fun z m _ hz => ?_
    rw [Function.update_apply] at hz
    split at hz
    · cases hz
    · next hne => exact hne (h.once _ _ _ _ _ hz hd)
  | fail d j g hd hx hr =>
    rw [Links.held_of_lookup hr]
    exact h.once.erase _
  | connect k j g hk hx hr =>
    rw [Links.held_of_link hr rfl]
    exact h.once.erase _
  | clean k j hk hx hr =>
    rw [Links.held_of_link hr rfl]
    exact h.once.erase _

/-! ### Joined -/

theorem Routes.Joined.congr {c : ℕ → Option (Bool × ℕ)} {g : ℕ → Option (ℕ × Completion ℕ)}
    (h : x.Joined i k) (hx : x.Becomes c g y)
    (hi : ∀ b n, c i = some (b, n) → ∃ b', x.client i = some (b', n))
    (hf : ∀ f, x.future f = some (i, .ready (some k)) → g f = some (i, .ready (some k))) :
    y.Joined i k where
  client_le := h.client_le.trans hx.lastClient
  knows b n hn := by
    rw [hx.client] at hn
    obtain ⟨b', hn⟩ := hi b n hn
    rcases h.knows b' n hn with heq | ⟨f, hfut⟩
    · exact .inl heq
    · exact .inr ⟨f, by rw [hx.future, hf f hfut]⟩

theorem Routes.marked_eq_some {j n : ℕ} {b : Bool} (h : x.marked i j = some (b, n)) :
    ∃ b', x.client j = some (b', n) := by
  unfold marked at h
  split at h
  · obtain ⟨⟨b', m⟩, hv, heq⟩ := Option.map_eq_some_iff.1 h
    cases heq
    exact ⟨b', hv⟩
  · exact ⟨b, h⟩

/-- An answer that is given stands. -/
theorem Routes.settled_ready {o : Option ℕ} {result : Option ℕ} {j : ℕ} {a : Option ℕ}
    (h : x.future f = some (j, .ready a)) : x.settled o result f = some (j, .ready a) := by
  unfold settled
  split
  · rw [h]
    rfl
  · exact h

theorem Mirrored.opened_step (h : Mirrored x r) (hs : TunnelStep x r l y t)
    (hk : t.link k = some (i, .opened)) : y.Joined i k := by
  have hsame : ∀ b n, x.client i = some (b, n) → ∃ b', x.client i = some (b', n) := fun b _ hi => ⟨b, hi⟩
  cases hs with
  | quiet hx hr =>
    rw [hr.link] at hk
    exact (h.opened k i hk).congr hx hsame fun _ => id
  | accept j hj hx hlast hr =>
    rw [hr.link] at hk
    have ho := h.opened k i hk
    have hne : i ≠ j := fun hij => absurd ho.client_le (by omega)
    exact ho.congr hx (by rwa [Function.update_of_ne hne]) fun _ => id
  | peerClose j n hj hx hr =>
    rw [hr.link, Links.closed_eq_some (by simp)] at hk
    exact (h.opened k i hk.2).congr hx (fun _ _ => x.marked_eq_some) fun _ => id
  | refuse j g b hj hg hx hr | look j g d b hj hg hd hx hr =>
    rw [hr.link] at hk
    refine (h.opened k i hk).congr hx hsame fun f hf => ?_
    have := x.future_le f _ hf
    rwa [Function.update_of_ne (by omega)]
  | «open» j g k' b hj hg hk' hx hr =>
    rw [hr.link, Function.update_apply] at hk
    split at hk
    · cases hk
    · refine (h.opened k i hk).congr hx hsame fun f hf => ?_
      have := x.future_le f _ hf
      rwa [Function.update_of_ne (by omega)]
  | take j g b result hj hg hx hr =>
    rw [hr.link] at hk
    have ho := h.opened k i hk
    by_cases hij : i = j
    · -- The client learns what its future was answered with.
      subst hij
      refine ⟨ho.client_le.trans hx.lastClient, fun b' n hn => .inl ?_⟩
      rw [hx.client, Function.update_self] at hn
      cases hn
      rcases ho.knows b 0 hj with heq | ⟨f, hf⟩
      · have := r.link_le k _ hk
        omega
      · obtain rfl := x.once f g i _ _ hf hg
        rw [hf] at hg
        cases hg
        rfl
    · refine ho.congr hx (by rwa [Function.update_of_ne hij]) fun f hf => ?_
      rw [Function.update_of_ne, hf]
      rintro rfl
      rw [hf] at hg
      cases hg
      exact hij rfl
  | drop j hx hr =>
    rw [hr.link] at hk
    have ho := h.opened k i hk
    by_cases hij : i = j
    · subst hij
      refine ⟨ho.client_le.trans hx.lastClient, fun b' n hn => ?_⟩
      rw [hx.client, Function.update_self] at hn
      cases hn
    · refine ho.congr hx (by rwa [Function.update_of_ne hij]) fun f hf => ?_
      rw [Routes.left, hf, Option.filter_some, if_pos (by simpa using hij)]
  | resolve d k' j g hd hk' hx hr =>
    rw [hr.link, Function.update_apply] at hk
    split at hk
    · cases hk
    · exact (h.opened k i hk).congr hx hsame fun _ => id
  | fail d j g hd hx hr =>
    rw [hr.link] at hk
    exact (h.opened k i hk).congr hx hsame fun _ => x.settled_ready
  | connect k' j g hk' hx hr =>
    rw [hr.link, Function.update_apply] at hk
    split at hk
    · -- The future of the client is answered with the connection, if the client is live.
      next hkk =>
      cases hk
      have ha := h.awaited (.inr k') _ _ (Links.held_inr.2 hk')
      refine ⟨ha.client_le.trans hx.lastClient, fun b n hn => .inr ⟨g, ?_⟩⟩
      rw [hx.client] at hn
      rw [hx.future, Routes.settled, if_pos rfl, ha.waits _ hn, hkk]
      rfl
    · exact (h.opened k i hk).congr hx hsame fun _ => x.settled_ready
  | close k' j p hk' hx hr =>
    rw [hr.link, Links.closed_eq_some (by simp)] at hk
    exact (h.opened k i hk.2).congr hx (fun _ _ => x.marked_eq_some) fun _ => x.settled_ready
  | idle k' j p hk' hx hr =>
    rw [hr.link, Links.closed_eq_some (by simp)] at hk
    exact (h.opened k i hk.2).congr hx hsame fun _ => x.settled_ready
  | clean k' j hk' hx hr =>
    rw [hr.link, Function.update_apply] at hk
    split at hk
    · cases hk
    · exact (h.opened k i hk).congr hx hsame fun _ => id

/-! ### What a connection is for -/

theorem Links.Met.congr {link : ℕ → Option (ℕ × LinkPhase)} {lookup : ℕ → Option (ℕ × ℕ)}
    (h : r.Met k) (hr : r.Becomes link lookup t)
    (hk : ∀ v, link k = some v → v.2.future = none ∨ r.link k = some v) : t.Met k where
  le := h.le.trans hr.lastId
  future v hv := by
    rw [hr.link] at hv
    exact (hk v hv).elim id (h.future v)

theorem Links.closed_eq {n : ℕ} {v : ℕ × LinkPhase} (h : r.closed n k = some v) :
    (∃ w, r.link k = some w ∧ v.1 = w.1) ∧ (v.2.future = none ∨ r.link k = some v) := by
  unfold closed at h
  split at h
  · obtain ⟨w, hw, rfl⟩ := Option.map_eq_some_iff.1 h
    exact ⟨⟨w, hw, rfl⟩, .inl rfl⟩
  · exact ⟨⟨v, h, rfl⟩, .inr h⟩

/-- A connection that was connected has no future to complete from then on. -/
theorem TunnelStep.met (hs : TunnelStep x r l y t) (h : r.Met k) : t.Met k := by
  have hle := h.le
  cases hs with
  | quiet hx hr | accept _ _ hx _ hr | refuse _ _ _ _ _ hx hr | look _ _ _ _ _ _ _ hx hr
  | take _ _ _ _ _ _ hx hr | drop _ hx hr | fail _ _ _ _ hx hr => exact h.congr hr fun _ => .inr
  | peerClose j n hj hx hr | close n j p hn hx hr | idle n j p hn hx hr =>
    exact h.congr hr fun _ hv => (Links.closed_eq hv).2
  | «open» j g n b hj hg hn hx hr | resolve d n j g hd hn hx hr =>
    refine h.congr hr fun v hv => .inr ?_
    rwa [Function.update_of_ne (by omega)] at hv
  | connect n j g hn hx hr =>
    refine h.congr hr fun v hv => ?_
    rw [Function.update_apply] at hv
    split at hv
    · cases hv
      exact .inl rfl
    · exact .inr hv
  | clean n j hn hx hr =>
    refine h.congr hr fun v hv => ?_
    rw [Function.update_apply] at hv
    split at hv
    · cases hv
    · exact .inr hv

/-- A connection that is not new is for the same client as before. -/
theorem TunnelStep.link_client {v : ℕ × LinkPhase} (hs : TunnelStep x r l y t) (hk : k ≤ r.lastId)
    (hv : t.link k = some v) : ∃ w, r.link k = some w ∧ v.1 = w.1 := by
  cases hs with
  | quiet hx hr | accept _ _ hx _ hr | refuse _ _ _ _ _ hx hr | look _ _ _ _ _ _ _ hx hr
  | take _ _ _ _ _ _ hx hr | drop _ hx hr | fail _ _ _ _ hx hr =>
    rw [hr.link] at hv
    exact ⟨v, hv, rfl⟩
  | peerClose j n hj hx hr | close n j p hn hx hr | idle n j p hn hx hr =>
    rw [hr.link] at hv
    exact (Links.closed_eq hv).1
  | «open» j g n b hj hg hn hx hr | resolve d n j g hd hn hx hr =>
    rw [hr.link, Function.update_of_ne (by omega)] at hv
    exact ⟨v, hv, rfl⟩
  | connect n j g hn hx hr =>
    rw [hr.link, Function.update_apply] at hv
    split at hv
    · next hkn =>
      cases hv
      rw [hkn]
      exact ⟨_, hn, rfl⟩
    · exact ⟨v, hv, rfl⟩
  | clean n j hn hx hr =>
    rw [hr.link, Function.update_apply] at hv
    split at hv
    · cases hv
    · exact ⟨v, hv, rfl⟩

/-- A connection stays with its client. -/
theorem TunnelStep.leads (hs : TunnelStep x r l y t) (h : r.Leads k i) : t.Leads k i where
  toMet := hs.met h.toMet
  pos := h.pos
  client v hv := by
    obtain ⟨w, hw, heq⟩ := hs.link_client h.le hv
    exact heq.trans (h.client w hw)

theorem Links.leads_of_opened (hk : r.link k = some (i, .opened)) : r.Leads k i := by
  refine ⟨⟨(r.link_le k _ hk).2, fun v hv => ?_⟩, (r.link_le k _ hk).1, fun v hv => ?_⟩
  all_goals
    rw [hk] at hv
    cases hv
    rfl

/-- A connection that is open was open before, or connects now. -/
theorem TunnelStep.opens (hs : TunnelStep x r l y t) (hk : t.link k = some (i, .opened)) :
    r.link k = some (i, .opened) ∨ l = .connect k ∧ ∃ f, r.link k = some (i, .opening f) := by
  cases hs with
  | quiet hx hr | accept _ _ hx _ hr | refuse _ _ _ _ _ hx hr | look _ _ _ _ _ _ _ hx hr
  | take _ _ _ _ _ _ hx hr | drop _ hx hr | fail _ _ _ _ hx hr =>
    rw [hr.link] at hk
    exact .inl hk
  | peerClose j n hj hx hr | close n j p hn hx hr | idle n j p hn hx hr =>
    rw [hr.link, Links.closed_eq_some (by simp)] at hk
    exact .inl hk.2
  | «open» j g n b hj hg hn hx hr | resolve d n j g hd hn hx hr =>
    rw [hr.link, Function.update_apply] at hk
    split at hk
    · cases hk
    · exact .inl hk
  | connect n j g hn hx hr =>
    rw [hr.link, Function.update_apply] at hk
    split at hk
    · next hkn =>
      cases hk
      rw [hkn]
      exact .inr ⟨rfl, g, hn⟩
    · exact .inl hk
  | clean n j hn hx hr =>
    rw [hr.link, Function.update_apply] at hk
    split at hk
    · cases hk
    · exact .inl hk

/-- An answer was given before, or is given now. -/
theorem Routes.settled_eq_some {o result : Option ℕ} {a : Option ℕ}
    (h : x.settled o result f = some (i, .ready a)) :
    x.future f = some (i, .ready a) ∨ o = some f ∧ x.future f = some (i, .pending) ∧ a = result := by
  unfold settled at h
  split at h
  · next ho =>
    obtain ⟨⟨j, z⟩, hv, heq⟩ := Option.map_eq_some_iff.1 h
    cases z with
    | pending => 
      cases heq
      exact .inr ⟨ho, hv, rfl⟩
    | ready a' =>
      cases heq
      exact .inl hv
  · exact .inl h

/-- A future is answered with a connection when the latter is connected. -/
theorem TunnelStep.answers (hs : TunnelStep x r l y t)
    (hf : y.future f = some (i, .ready (some k))) :
    x.future f = some (i, .ready (some k)) ∨
      l = .connect k ∧ x.future f = some (i, .pending) ∧
        ∃ j, r.link k = some (j, .opening f) ∧ t.link k = some (j, .opened) := by
  cases hs with
  | quiet hx hr | accept _ _ hx _ hr | peerClose _ _ _ hx hr | resolve _ _ _ _ _ _ hx hr
  | clean _ _ _ hx hr =>
    rw [hx.future] at hf
    exact .inl hf
  | refuse j g b hj hg hx hr | look j g d b hj hg hd hx hr | «open» j g n b hj hg hn hx hr
  | take j g b result hj hg hx hr =>
    rw [hx.future, Function.update_apply] at hf
    split at hf
    · cases hf
    · exact .inl hf
  | drop j hx hr =>
    rw [hx.future, Routes.left, Option.filter_eq_some_iff] at hf
    exact .inl hf.1
  | fail d j g hd hx hr =>
    rw [hx.future] at hf
    rcases x.settled_eq_some hf with hf | ⟨-, -, hf⟩
    · exact .inl hf
    · cases hf
  | connect n j g hn hx hr =>
    rw [hx.future] at hf
    rcases x.settled_eq_some hf with hf | ⟨hg, hpending, hk⟩
    · exact .inl hf
    · cases hg
      cases hk
      refine .inr ⟨rfl, hpending, j, hn, ?_⟩
      rw [hr.link, Function.update_self]
  | close n j p hn hx hr | idle n j p hn hx hr =>
    rw [hx.future] at hf
    rcases x.settled_eq_some hf with hf | ⟨-, -, hf⟩
    · exact .inl hf
    · cases hf

/-- A client learns of a connection when it takes up a result. -/
theorem TunnelStep.learns {b : Bool} (hs : TunnelStep x r l y t) (hi : y.client i = some (b, k))
    (hk : k ≠ 0) : (∃ b, x.client i = some (b, k)) ∨
      l = .take i ∧ ∃ f, x.future f = some (i, .ready (some k)) := by
  cases hs with
  | quiet hx hr | refuse _ _ _ _ _ hx hr | look _ _ _ _ _ _ _ hx hr | «open» _ _ _ _ _ _ _ hx hr
  | resolve _ _ _ _ _ _ hx hr | fail _ _ _ _ hx hr | connect _ _ _ _ hx hr | idle _ _ _ _ hx hr
  | clean _ _ _ hx hr =>
    rw [hx.client] at hi
    exact .inl ⟨b, hi⟩
  | accept j hj hx hlast hr =>
    rw [hx.client, Function.update_apply] at hi
    split at hi
    · cases hi
      exact absurd rfl hk
    · exact .inl ⟨b, hi⟩
  | peerClose j n hj hx hr | close n j p hn hx hr =>
    rw [hx.client] at hi
    exact .inl (x.marked_eq_some hi)
  | take j g b' result hj hg hx hr =>
    rw [hx.client, Function.update_apply] at hi
    split at hi
    · next hij =>
      cases hi
      cases result with
      | none => exact absurd rfl hk
      | some n => exact .inr ⟨by rw [hij], g, hij ▸ hg⟩
    · exact .inl ⟨b, hi⟩
  | drop j hx hr =>
    rw [hx.client, Function.update_apply] at hi
    split at hi
    · cases hi
    · exact .inl ⟨b, hi⟩

/-- An answer stands until it is taken up, or its client is gone. -/
theorem TunnelStep.keeps {a : Option ℕ} (hs : TunnelStep x r l y t)
    (hl : ∀ i, l ≠ .take i ∧ l ≠ .drop i) (hf : x.future f = some (i, .ready a)) :
    y.future f = some (i, .ready a) := by
  have hle := x.future_le f _ hf
  cases hs with
  | quiet hx hr | accept _ _ hx _ hr | peerClose _ _ _ hx hr | resolve _ _ _ _ _ _ hx hr
  | clean _ _ _ hx hr =>
    rw [hx.future]
    exact hf
  | refuse j g b hj hg hx hr | look j g d b hj hg hd hx hr | «open» j g n b hj hg hn hx hr =>
    rw [hx.future, Function.update_of_ne (by omega)]
    exact hf
  | take j => exact absurd rfl (hl j).1
  | drop j => exact absurd rfl (hl j).2
  | fail d j g hd hx hr | connect n j g hn hx hr | close n j p hn hx hr | idle n j p hn hx hr =>
    rw [hx.future]
    exact x.settled_ready hf

theorem Mirrored.answered_step (h : Mirrored x r) (hs : TunnelStep x r l y t)
    (hf : y.future f = some (i, .ready (some k))) : t.Leads k i := by
  rcases hs.answers hf with hf | ⟨-, hpending, j, hk, hk'⟩
  · exact hs.leads (h.answered f i k hf)
  · cases (h.awaited (.inr k) j f (Links.held_inr.2 hk)).pending _ hpending
    exact Links.leads_of_opened hk'

theorem Mirrored.known_step {b : Bool} (h : Mirrored x r) (hs : TunnelStep x r l y t)
    (hi : y.client i = some (b, k)) (hk : k ≠ 0) : t.Leads k i := by
  refine hs.leads ?_
  rcases hs.learns hi hk with ⟨b, hi⟩ | ⟨-, f, hf⟩
  · exact h.known i b k hi hk
  · exact h.answered f i k hf

/-- A step keeps the halves mirrored. -/
theorem Mirrored.step (h : Mirrored x r) (hs : TunnelStep x r l y t) : Mirrored y t where
  awaited _ _ _ := h.awaited_step hs
  once := h.once_step hs
  opened _ _ := h.opened_step hs
  answered _ _ _ := h.answered_step hs
  known _ _ _ := h.known_step hs

end ProxyPlatform
