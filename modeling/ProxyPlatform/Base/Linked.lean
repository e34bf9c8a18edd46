import Mathlib.Data.List.Basic
import Mathlib.Data.List.Nodup
import Mathlib.Tactic.Tauto

/-!
# Intrusive lists

A family of intrusive lists, indexed by `ι`, through nodes named by their ids. A
node carries one pair of links, so that it is in at most one list of the family, at
one place (`Linked.nodup`, `Linked.disjoint`): linking it somewhere unlinks it from
where it was.

`expire` is the loop of a timeout pass: as long as the head of a list meets a
condition, move it to the tail of another list.
-/

namespace ProxyPlatform

theorem takeWhile_congr {α : Type*} {l : List α} {p q : α → Bool} (h : ∀ i ∈ l, p i = q i) :
    l.takeWhile p = l.takeWhile q := by
  induction l with
  | nil => rfl
  | cons i l ih =>
    obtain ⟨hi, hl⟩ := List.forall_mem_cons.1 h
    rw [List.takeWhile_cons, List.takeWhile_cons, hi, ih hl]

/-- Lists of nodes, each node in at most one of them. -/
structure Linked (ι : Type*) where
  nodes : ι → List ℕ
  nodup : ∀ ℓ, (nodes ℓ).Nodup
  disjoint : ∀ ⦃ℓ m n⦄, n ∈ nodes ℓ → n ∈ nodes m → ℓ = m

namespace Linked

variable {ι : Type*}

/-- No node is linked. -/
def empty : Linked ι where
  nodes _ := []
  nodup _ := List.nodup_nil
  disjoint _ _ _ h := absurd h List.not_mem_nil

/-- The node `n` is in some list. -/
def IsLinked (L : Linked ι) (n : ℕ) : Prop := ∃ ℓ, n ∈ L.nodes ℓ

/-- A linked node is in exactly one list. -/
theorem IsLinked.existsUnique {L : Linked ι} {n : ℕ} (h : L.IsLinked n) :
    ∃! ℓ, n ∈ L.nodes ℓ :=
  let ⟨ℓ, hℓ⟩ := h
  ⟨ℓ, hℓ, fun _ hm => L.disjoint hm hℓ⟩

/-- Taking the node `n` out of its list. -/
def unlink (L : Linked ι) (n : ℕ) : Linked ι where
  nodes ℓ := (L.nodes ℓ).filter (· ≠ n)
  nodup ℓ := (L.nodup ℓ).filter _
  disjoint _ _ _ h h' := L.disjoint (List.mem_of_mem_filter h) (List.mem_of_mem_filter h')

@[simp] theorem mem_unlink {L : Linked ι} {n k : ℕ} {ℓ : ι} :
    k ∈ (L.unlink n).nodes ℓ ↔ k ≠ n ∧ k ∈ L.nodes ℓ := by
  simp [unlink, and_comm]

theorem unlink_unlink (L : Linked ι) (n : ℕ) : (L.unlink n).unlink n = L.unlink n := by
  simp [unlink, List.filter_filter]

/-- What is left when the nodes `l` are taken out of their lists. -/
theorem mem_foldl_unlink {L : Linked ι} {l : List ℕ} {k : ℕ} {ℓ : ι} :
    k ∈ (l.foldl unlink L).nodes ℓ ↔ k ∉ l ∧ k ∈ L.nodes ℓ := by
  induction l generalizing L with
  | nil => simp
  | cons n l ih =>
    rw [List.foldl_cons, ih, mem_unlink, List.mem_cons, not_or]
    tauto

theorem sublist_foldl_unlink (L : Linked ι) (l : List ℕ) (ℓ : ι) :
    ((l.foldl unlink L).nodes ℓ).Sublist (L.nodes ℓ) := by
  induction l generalizing L with
  | nil => exact .refl _
  | cons n l ih => exact (ih (L.unlink n)).trans List.filter_sublist

/-- The head of the list `ℓ`, taken out of it. -/
def popHead (L : Linked ι) (ℓ : ι) : Option (ℕ × Linked ι) :=
  match L.nodes ℓ with
  | [] => none
  | n :: _ => some (n, L.unlink n)

theorem popHead_eq_none {L : Linked ι} {ℓ : ι} : L.popHead ℓ = none ↔ L.nodes ℓ = [] := by
  unfold popHead; split <;> simp_all

theorem popHead_of_cons {L : Linked ι} {ℓ : ι} {n : ℕ} {l : List ℕ} (h : L.nodes ℓ = n :: l) :
    L.popHead ℓ = some (n, L.unlink n) := by
  simp only [popHead, h]

/-- Popping the head of a list takes it out of all of them, and leaves the rest. -/
theorem mem_of_popHead {L M : Linked ι} {ℓ m : ι} {n k : ℕ} (h : L.popHead ℓ = some (n, M)) :
    k ∈ M.nodes m ↔ k ≠ n ∧ k ∈ L.nodes m := by
  unfold popHead at h
  split at h
  · cases h
  · cases h
    exact mem_unlink

/-- What is left of a list whose head is popped. -/
theorem nodes_unlink_of_cons {L : Linked ι} {ℓ : ι} {n : ℕ} {l : List ℕ}
    (h : L.nodes ℓ = n :: l) : (L.unlink n).nodes ℓ = l := by
  have hn := L.nodup ℓ
  rw [h, List.nodup_cons] at hn
  change (L.nodes ℓ).filter (· ≠ n) = l
  rw [h, List.filter_cons_of_neg (by simp), List.filter_eq_self]
  intro k hk
  exact decide_eq_true (ne_of_mem_of_not_mem hk hn.1)

/-- A node is not on both sides of the point where a pass stops. -/
theorem not_mem_takeWhile {L : Linked ι} {p : ℕ → Bool} {ℓ : ι} {k : ℕ}
    (h : k ∈ (L.nodes ℓ).dropWhile p) : k ∉ (L.nodes ℓ).takeWhile p := by
  intro ht
  have hn := L.nodup ℓ
  rw [← List.takeWhile_append_dropWhile (p := p) (l := L.nodes ℓ), List.nodup_append] at hn
  exact hn.2.2 k ht k h rfl

section

variable [DecidableEq ι]

/-- Moving the node `n`, linked or not, to the tail of the list `ℓ`. -/
def grabTail (L : Linked ι) (ℓ : ι) (n : ℕ) : Linked ι where
  nodes m := if m = ℓ then (L.unlink n).nodes ℓ ++ [n] else (L.unlink n).nodes m
  nodup m := by
    split
    · refine List.nodup_append.2 ⟨(L.unlink n).nodup ℓ, List.nodup_singleton n, ?_⟩
      rintro k hk _ hn rfl
      exact (mem_unlink.1 hk).1 (List.mem_singleton.1 hn)
    · exact (L.unlink n).nodup m
  disjoint m m' k h h' := by
    split at h <;> split at h'
    · next hm hm' => rw [hm, hm']
    · rcases List.mem_append.1 h with h | h
      · exact absurd ((L.unlink n).disjoint h h').symm ‹_›
      · exact absurd (List.mem_singleton.1 h) (mem_unlink.1 h').1
    · rcases List.mem_append.1 h' with h' | h'
      · exact absurd ((L.unlink n).disjoint h h') ‹_›
      · exact absurd (List.mem_singleton.1 h') (mem_unlink.1 h).1
    · exact (L.unlink n).disjoint h h'

theorem nodes_grabTail_self (L : Linked ι) (ℓ : ι) (n : ℕ) :
    (L.grabTail ℓ n).nodes ℓ = (L.nodes ℓ).filter (· ≠ n) ++ [n] := if_pos rfl

theorem nodes_grabTail_of_ne {L : Linked ι} {ℓ m : ι} (hm : m ≠ ℓ) (n : ℕ) :
    (L.grabTail ℓ n).nodes m = (L.nodes m).filter (· ≠ n) := if_neg hm

/-- A node of a list that is moved within it leaves the other lists as they are. -/
theorem nodes_grabTail_of_mem {L : Linked ι} {ℓ m : ι} {n : ℕ} (hn : n ∈ L.nodes ℓ) (hm : m ≠ ℓ) :
    (L.grabTail ℓ n).nodes m = L.nodes m := by
  rw [nodes_grabTail_of_ne hm, List.filter_eq_self]
  exact fun k hk => decide_eq_true fun hkn => hm (L.disjoint (hkn ▸ hk) hn)

/-- The head of a list goes to its tail. -/
theorem nodes_grabTail_of_cons {L : Linked ι} {ℓ : ι} {n : ℕ} {l : List ℕ}
    (h : L.nodes ℓ = n :: l) : (L.grabTail ℓ n).nodes ℓ = l ++ [n] := by
  rw [nodes_grabTail_self]
  exact congrArg (· ++ [n]) (nodes_unlink_of_cons h)

theorem mem_grabTail {L : Linked ι} {n k : ℕ} {ℓ m : ι} :
    k ∈ (L.grabTail ℓ n).nodes m ↔ if k = n then m = ℓ else k ∈ L.nodes m := by
  simp only [grabTail]
  by_cases hk : k = n <;> by_cases hm : m = ℓ <;> simp [hk, hm]

/-- The nodes that are not moved stay where they are. -/
theorem mem_grabTail_of_ne {L : Linked ι} {n k : ℕ} {ℓ m : ι} (h : k ≠ n) :
    k ∈ (L.grabTail ℓ n).nodes m ↔ k ∈ L.nodes m := by
  rw [mem_grabTail, if_neg h]

/-- The node that is moved is in the list it is moved to, and in no other. -/
theorem mem_grabTail_self {L : Linked ι} {n k : ℕ} {ℓ m : ι} (h : k = n) :
    k ∈ (L.grabTail ℓ n).nodes m ↔ m = ℓ := by
  rw [mem_grabTail, if_pos h]

/-- Moving a node links it, and unlinks none. -/
theorem isLinked_grabTail {L : Linked ι} {n k : ℕ} {ℓ : ι} :
    (L.grabTail ℓ n).IsLinked k ↔ k = n ∨ L.IsLinked k := by
  by_cases hk : k = n
  · exact iff_of_true ⟨ℓ, by rw [mem_grabTail, if_pos hk]⟩ (.inl hk)
  · simp only [IsLinked, mem_grabTail, hk, if_false, false_or]

/-- A node that is moved need not be taken out before. -/
theorem grabTail_unlink (L : Linked ι) (ℓ : ι) (n : ℕ) : (L.unlink n).grabTail ℓ n = L.grabTail ℓ n := by
  simp [grabTail, unlink, List.filter_filter]

/-- Moving the heads of the list `ℓ`, as long as they meet `p`, to the tail of the
    (other) list `m`. -/
def expire (L : Linked ι) (p : ℕ → Bool) (ℓ m : ι) (h : ℓ ≠ m) : Linked ι where
  nodes q :=
    if q = ℓ then (L.nodes ℓ).dropWhile p
    else if q = m then L.nodes m ++ (L.nodes ℓ).takeWhile p
    else L.nodes q
  nodup q := by
    split_ifs
    · exact (L.nodup ℓ).sublist (List.dropWhile_sublist p)
    · refine List.nodup_append.2
        ⟨L.nodup m, (L.nodup ℓ).sublist (List.takeWhile_sublist p), ?_⟩
      rintro k hk _ hk' rfl
      exact h (L.disjoint ((List.takeWhile_sublist p).subset hk') hk)
    · exact L.nodup q
  disjoint q q' k hq hq' := by
    have hdt : k ∈ (L.nodes ℓ).dropWhile p → k ∉ (L.nodes ℓ).takeWhile p := not_mem_takeWhile
    have hd : k ∈ (L.nodes ℓ).dropWhile p → k ∈ L.nodes ℓ := fun h' =>
      (List.dropWhile_sublist p).subset h'
    have ht : k ∈ (L.nodes ℓ).takeWhile p → k ∈ L.nodes ℓ := fun h' =>
      (List.takeWhile_sublist p).subset h'
    have hdis := fun a b => @L.disjoint a b k
    split_ifs at hq hq' <;> grind

theorem mem_expire {L : Linked ι} {p : ℕ → Bool} {ℓ m q : ι} {h : ℓ ≠ m} {k : ℕ} :
    k ∈ (L.expire p ℓ m h).nodes q ↔
      if k ∈ (L.nodes ℓ).takeWhile p then q = m else k ∈ L.nodes q := by
  have hsplit : k ∈ L.nodes ℓ ↔
      k ∈ (L.nodes ℓ).takeWhile p ∨ k ∈ (L.nodes ℓ).dropWhile p := by
    rw [← List.mem_append, List.takeWhile_append_dropWhile]
  have hdt : k ∈ (L.nodes ℓ).dropWhile p → k ∉ (L.nodes ℓ).takeWhile p := not_mem_takeWhile
  have hdis := fun a b => @L.disjoint a b k
  simp only [expire]
  split_ifs <;> grind

/-- A pass links and unlinks none. -/
theorem isLinked_expire {L : Linked ι} {p : ℕ → Bool} {ℓ m : ι} {h : ℓ ≠ m} {k : ℕ} :
    (L.expire p ℓ m h).IsLinked k ↔ L.IsLinked k := by
  constructor
  · rintro ⟨q, hq⟩
    rw [mem_expire] at hq
    split at hq
    · next hk => exact ⟨ℓ, (List.takeWhile_sublist p).subset hk⟩
    · exact ⟨q, hq⟩
  · rintro ⟨q, hq⟩
    by_cases hk : k ∈ (L.nodes ℓ).takeWhile p
    · exact ⟨m, by rw [mem_expire, if_pos hk]⟩
    · exact ⟨q, by rw [mem_expire, if_neg hk]; exact hq⟩

end

end Linked

end ProxyPlatform
