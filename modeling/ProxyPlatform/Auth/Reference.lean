import ProxyPlatform.Auth.Basic

/-!
# References to the audit nodes

The reference count of an audit node is the number of places that refer to it: the
records of the current map (`heldIds`) and the results handed out and not released
yet. `Counts p refs` states it for a pool and a list of references, in any order;
`SameUsage p q` says that two pools differ in the counts only, so that what is
summed over the nodes is the same.

* `dropReference_ok`, `dropReferences_ok`: references that are counted are dropped
  without following a released node and without a counter below zero;
* `heldIds_insert`: replacing a record of the map replaces its node.
-/

namespace ProxyPlatform

/-- The nodes of a pool are counted by the references `refs`, all of them to live nodes. -/
structure Counts (p : Storage AuthLocalUsageAuditNode) (refs : List ℕ) : Prop where
  count : ∀ ⦃i n⦄, p.get i = some n → n.localAuthId = i ∧ n.referenceCount = refs.count i
  live : ∀ i ∈ refs, ∃ n, p.get i = some n

namespace Counts

variable {p : Storage AuthLocalUsageAuditNode} {refs refs' : List ℕ}

theorem perm (h : Counts p refs) (hp : refs.Perm refs') : Counts p refs' where
  count i n hn := by rw [← hp.count_eq]; exact h.count hn
  live i hi := h.live i (hp.mem_iff.2 hi)

/-- A new node, with one reference to it. -/
theorem acquire {q : Storage AuthLocalUsageAuditNode} {x : ℕ → AuthLocalUsageAuditNode} {i : ℕ}
    (h : Counts p refs) (hx : (x i).localAuthId = i ∧ (x i).referenceCount = 1)
    (hq : p.acquire x = some (i, q)) : Counts q (i :: refs) where
  count j n hn := by
    rw [Storage.get_acquire hq] at hn
    split at hn
    · next hj =>
      -- No reference is left to the id of a new node.
      subst hj
      cases hn
      have hj : j ∉ refs := fun hj => by
        obtain ⟨m, hm⟩ := h.live j hj
        rw [Storage.get_of_acquire hq] at hm
        cases hm
      rw [List.count_cons_self, List.count_eq_zero_of_not_mem hj]
      exact hx
    · next hj =>
      rw [List.count_cons_of_ne (Ne.symm hj)]
      exact h.count hn
  live j hj := by
    rw [Storage.get_acquire hq]
    split
    · exact ⟨_, rfl⟩
    · next hne => exact h.live j ((List.mem_cons.1 hj).resolve_left hne)

/-- Overwriting a node, with the count of its new references. -/
theorem set {i : ℕ} {n m : AuthLocalUsageAuditNode} (h : Counts p refs) (hi : p.get i = some n)
    (hm : m.localAuthId = i ∧ m.referenceCount = refs'.count i)
    (hother : ∀ j, j ≠ i → refs'.count j = refs.count j) : Counts (p.set i m) refs' where
  count j k hk := by
    rw [Storage.get_set hi] at hk
    split at hk
    · next hj => subst hj; cases hk; exact hm
    · next hj => rw [hother j hj]; exact h.count hk
  live j hj := by
    rw [Storage.get_set hi]
    split
    · exact ⟨m, rfl⟩
    · next hne =>
      refine h.live j (List.count_pos_iff.1 ?_)
      rw [← hother j hne]
      exact List.count_pos_iff.2 hj

/-- One more reference to a live node. -/
theorem addReference {i : ℕ} {n : AuthLocalUsageAuditNode} (h : Counts p refs)
    (hi : p.get i = some n) :
    Counts (p.set i { n with referenceCount := n.referenceCount + 1 }) (i :: refs) := by
  obtain ⟨hid, hcount⟩ := h.count hi
  refine h.set hi ⟨hid, ?_⟩ fun j hj => List.count_cons_of_ne (Ne.symm hj)
  rw [List.count_cons_self, ← hcount]

/-- Releasing a node nothing refers to. -/
theorem release {i : ℕ} (h : Counts p refs) (hi : i ∉ refs) : Counts (p.release i) refs where
  count j n hn := by
    rw [Storage.get_release] at hn
    split at hn
    · cases hn
    · exact h.count hn
  live j hj := by
    rw [Storage.get_release, if_neg (ne_of_mem_of_not_mem hj hi)]
    exact h.live j hj

end Counts

/-- Two pools that differ in the reference counts of their nodes only. -/
def SameUsage (p q : Storage AuthLocalUsageAuditNode) : Prop :=
  ∀ i, (q.get i).map (fun n => { n with referenceCount := 0 }) =
    (p.get i).map fun n => { n with referenceCount := 0 }

namespace SameUsage

variable {p q r : Storage AuthLocalUsageAuditNode}

theorem refl (p : Storage AuthLocalUsageAuditNode) : SameUsage p p := fun _ => rfl

theorem trans (h : SameUsage p q) (h' : SameUsage q r) : SameUsage p r :=
  fun i => (h' i).trans (h i)

theorem set {i : ℕ} {n m : AuthLocalUsageAuditNode} (hi : p.get i = some n)
    (hm : { m with referenceCount := 0 } = { n with referenceCount := 0 }) :
    SameUsage p (p.set i m) := by
  intro j
  rw [Storage.get_set hi]
  split
  · next hj => subst hj; rw [hi, Option.map_some, Option.map_some, hm]
  · rfl

/-- Sums that do not look at the reference counts agree. -/
theorem sum {M : Type*} [AddCommMonoid M] (h : SameUsage p q)
    {f : ℕ → AuthLocalUsageAuditNode → M}
    (hf : ∀ i n, f i { n with referenceCount := 0 } = f i n) : q.sum f = p.sum f := by
  refine Storage.sum_congr fun i => ?_
  have hi := congrArg (Option.map (f i)) (h i)
  simpa only [Option.map_map, Function.comp_def, hf] using hi

theorem size (h : SameUsage p q) : q.size = p.size := by
  rw [Storage.size_eq_sum, Storage.size_eq_sum]
  exact h.sum fun _ _ => rfl

/-- A node of the second pool is one of the first, up to the count. -/
theorem get (h : SameUsage p q) {i : ℕ} {m : AuthLocalUsageAuditNode} (hm : q.get i = some m) :
    ∃ n, p.get i = some n ∧ { m with referenceCount := 0 } = { n with referenceCount := 0 } := by
  have hi := h i
  rw [hm, Option.map_some] at hi
  obtain ⟨n, hn, hmn⟩ := Option.map_eq_some_iff.1 hi.symm
  exact ⟨n, hn, hmn.symm⟩

theorem symm (h : SameUsage p q) : SameUsage q p := fun i => (h i).symm

theorem live_iff (h : SameUsage p q) (i : ℕ) :
    (∃ m, q.get i = some m) ↔ ∃ n, p.get i = some n := by
  constructor
  · rintro ⟨m, hm⟩
    obtain ⟨n, hn, -⟩ := h.get hm
    exact ⟨n, hn⟩
  · rintro ⟨n, hn⟩
    obtain ⟨m, hm, -⟩ := h.symm.get hn
    exact ⟨m, hm⟩

end SameUsage

namespace AuthLocalService

variable {p : Storage AuthLocalUsageAuditNode} {refs : List ℕ}

/-! ## Dropping references -/

/-- A reference that is counted is dropped. -/
theorem dropReference_ok {i : ℕ} (h : Counts p (i :: refs)) :
    ∃ q, dropReference p i = .ok q ∧ Counts q refs ∧ SameUsage p q := by
  obtain ⟨n, hn⟩ := h.live i List.mem_cons_self
  obtain ⟨hid, hcount⟩ := h.count hn
  rw [List.count_cons_self] at hcount
  have hpos : n.referenceCount ≠ 0 := by omega
  refine ⟨p.set i { n with referenceCount := n.referenceCount - 1 }, ?_, ?_, ?_⟩
  · simp only [dropReference, hn, hpos, if_false]
  · refine h.set hn ⟨hid, ?_⟩ fun j hj => ?_
    · change n.referenceCount - 1 = refs.count i
      omega
    · exact (List.count_cons_of_ne (Ne.symm hj)).symm
  · exact .set hn rfl

/-- References that are counted are dropped, one after the other. -/
theorem dropReferences_ok {is : List ℕ} (h : Counts p (is ++ refs)) :
    ∃ q, dropReferences p is = .ok q ∧ Counts q refs ∧ SameUsage p q := by
  induction is generalizing p with
  | nil => exact ⟨p, rfl, h, .refl p⟩
  | cons i is ih =>
    obtain ⟨q, hq, hcount, hsame⟩ := dropReference_ok h
    obtain ⟨r, hr, hcount', hsame'⟩ := ih hcount
    refine ⟨r, ?_, hcount', hsame.trans hsame'⟩
    simp only [dropReferences, hq, hr]

/-! ## The nodes of the records -/

theorem mem_heldIds {m : AuthLocalMap} {i : ℕ} :
    i ∈ heldIds m ↔ i ≠ 0 ∧ ∃ e ∈ m.entries, e.2.localAuthId = i := by
  simp [heldIds, and_comm]

/-- A map just loaded refers to no node. -/
theorem heldIds_records (m : LoadedAuthMap) : heldIds m.records = [] := by
  refine List.eq_nil_iff_forall_not_mem.2 fun i hi => ?_
  obtain ⟨h0, e, he, rfl⟩ := mem_heldIds.1 hi
  exact h0 (m.fresh e he).1

/-- Replacing the record under a key replaces its node. -/
theorem heldIds_insert {m : AuthLocalMap} {key : Bytes} {old : AuthLocalRecord}
    (h : m.lookup key = some old) (new : AuthLocalRecord) :
    ((if old.localAuthId = 0 then [] else [old.localAuthId]) ++ heldIds (m.insert key new)).Perm
      ((if new.localAuthId = 0 then [] else [new.localAuthId]) ++ heldIds m) := by
  -- Both lists are the two nodes in front of those of the other keys.
  have hm : (heldIds m).Perm
      ((if old.localAuthId = 0 then [] else [old.localAuthId]) ++ heldIds (m.erase key)) := by
    have hp := ((perm_cons_erase h).map fun e => e.2.localAuthId).filter (· ≠ 0)
    refine hp.symm.trans ?_
    by_cases h0 : old.localAuthId = 0 <;> simp [h0, heldIds]
  have hins : heldIds (m.insert key new) =
      (if new.localAuthId = 0 then [] else [new.localAuthId]) ++ heldIds (m.erase key) := by
    have he : (m.insert key new).entries = ⟨key, new⟩ :: (m.erase key).entries :=
      AList.entries_insert ..
    unfold heldIds
    rw [he]
    by_cases h0 : new.localAuthId = 0 <;> simp [h0]
  rw [hins]
  refine List.Perm.trans ?_ (hm.symm.append_left _)
  rw [← List.append_assoc, ← List.append_assoc]
  exact List.perm_append_comm.append_right _

/-- Replacing a record by one with the same node keeps the nodes. -/
theorem heldIds_insert_same {m : AuthLocalMap} {key : Bytes} {old new : AuthLocalRecord}
    (h : m.lookup key = some old) (hid : new.localAuthId = old.localAuthId) :
    (heldIds (m.insert key new)).Perm (heldIds m) := by
  have hp := heldIds_insert h new
  rw [hid] at hp
  exact (List.perm_append_left_iff _).1 hp

/-- Replacing a record without a node by one with a node adds this node. -/
theorem heldIds_insert_new {m : AuthLocalMap} {key : Bytes} {old new : AuthLocalRecord}
    (h : m.lookup key = some old) (hold : old.localAuthId = 0) (hnew : new.localAuthId ≠ 0) :
    (heldIds (m.insert key new)).Perm (new.localAuthId :: heldIds m) := by
  have hp := heldIds_insert h new
  rwa [if_pos hold, if_neg hnew] at hp

end AuthLocalService

end ProxyPlatform
