import ProxyPlatform.Auth.Reference
import Mathlib.Algebra.BigOperators.Group.List.Basic
import Mathlib.Tactic.Abel

/-!
# The operations of the authentication service

`Consistent s out` is the invariant of the service, for the results `out` handed out
and not released: the nodes are counted, the timeout list has the live nodes, and a
node that is not dirty holds no usage. `collected` is the usage the service has seen
for an account: what it reported and what its nodes still hold.

Each operation has one lemma: from a consistent state it does not fault, but for a
pool that is full (`acquireAuthInfo_spec`) or a clock below the idle period
(`tick_spec`), it leaves a consistent state, and it collects what was released to it
and nothing else.
-/

namespace ProxyPlatform

@[simp] theorem counter_empty (c : UsageCounter) : ({} : LocalUsage).counter c = 0 := by
  cases c <;> rfl

namespace AuthLocalService

/-! ## Usage collected -/

/-- The usage in a call to the audit service, for an account and a counter. -/
def callUsage (globalAuthId : ℕ) (c : UsageCounter) : AuditCall → UInt64
  | .reportUsage u => if u.authId = globalAuthId then u.counter c else 0
  | .reportBlockAccount _ => 0

/-- The usage reported for an account. -/
def reported (calls : List AuditCall) (globalAuthId : ℕ) (c : UsageCounter) : UInt64 :=
  (calls.map (callUsage globalAuthId c)).sum

/-- The usage the live nodes of an account hold. -/
def held (p : Storage AuthLocalUsageAuditNode) (globalAuthId : ℕ) (c : UsageCounter) : UInt64 :=
  p.sum fun _ n => if n.globalAuthId = globalAuthId then n.audit.counter c else 0

/-- The usage the service has seen for an account. -/
def collected (s : AuthLocalService) (globalAuthId : ℕ) (c : UsageCounter) : UInt64 :=
  reported s.calls globalAuthId c + held s.localAuditNodePool globalAuthId c

theorem reported_append (calls calls' : List AuditCall) (g : ℕ) (c : UsageCounter) :
    reported (calls ++ calls') g c = reported calls g c + reported calls' g c := by
  simp [reported]

theorem held_of_sameUsage {p q : Storage AuthLocalUsageAuditNode} (h : SameUsage p q) (g : ℕ)
    (c : UsageCounter) : held q g c = held p g c :=
  h.sum fun _ _ => rfl

/-- What is held when the usage of a node is overwritten. -/
theorem held_set {p : Storage AuthLocalUsageAuditNode} {i : ℕ} {n m : AuthLocalUsageAuditNode}
    (hn : p.get i = some n) (hg : m.globalAuthId = n.globalAuthId) (g : ℕ) (c : UsageCounter) :
    held (p.set i m) g c + (if n.globalAuthId = g then n.audit.counter c else 0) =
      held p g c + if n.globalAuthId = g then m.audit.counter c else 0 := by
  simp only [held]
  rw [Storage.sum_set hn, ← Storage.sum_release hn, hg]
  abel

/-- What is held when a node is released. -/
theorem held_release {p : Storage AuthLocalUsageAuditNode} {i : ℕ} {n : AuthLocalUsageAuditNode}
    (hn : p.get i = some n) (g : ℕ) (c : UsageCounter) :
    (if n.globalAuthId = g then n.audit.counter c else 0) + held (p.release i) g c = held p g c :=
  Storage.sum_release hn fun _ n => if n.globalAuthId = g then n.audit.counter c else 0

/-! ## The invariant -/

/-- The invariant of the service, for the results `out` handed out and not released. -/
structure Consistent (s : AuthLocalService) (out : List ℕ) : Prop where
  counts : Counts s.localAuditNodePool (heldIds s.authLocalMap ++ out)
  /-- No two records share a node. -/
  nodup : (heldIds s.authLocalMap).Nodup
  /-- The timeout list has the live nodes. -/
  listed : ∀ i, i ∈ s.localAuditTimeoutList.nodes () ↔ ∃ n, s.localAuditNodePool.get i = some n
  unReleased : s.audit.unReleasedAuthInfoCount = s.localAuditNodePool.size
  /-- A node that is not dirty holds no usage. -/
  clean : ∀ i n, s.localAuditNodePool.get i = some n → n.audit.dirty = false → n.audit = {}

variable {T : AuthTimeouts} {s : AuthLocalService} {out : List ℕ}

theorem init_consistent : Consistent init [] where
  counts := ⟨fun i n h => (by cases h), fun i h => (by cases h)⟩
  nodup := List.nodup_nil
  listed i := ⟨fun h => (by cases h), fun ⟨n, h⟩ => (by cases h)⟩
  unReleased := rfl
  clean _ _ h := by cases h

/-- Only the counts of the nodes change: the rest of the invariant stays. -/
theorem Consistent.of_sameUsage {t : AuthLocalService} {out' : List ℕ} (h : Consistent s out)
    (hpool : SameUsage s.localAuditNodePool t.localAuditNodePool)
    (hlist : t.localAuditTimeoutList = s.localAuditTimeoutList)
    (hun : t.audit.unReleasedAuthInfoCount = s.audit.unReleasedAuthInfoCount)
    (hnodup : (heldIds t.authLocalMap).Nodup)
    (hcounts : Counts t.localAuditNodePool (heldIds t.authLocalMap ++ out')) :
    Consistent t out' where
  counts := hcounts
  nodup := hnodup
  listed i := by rw [hlist, h.listed, hpool.live_iff]
  unReleased := by rw [hun, h.unReleased, hpool.size]
  clean i m hm hd := by
    obtain ⟨n, hn, hmn⟩ := hpool.get hm
    have haudit : m.audit = n.audit := (AuthLocalUsageAuditNode.mk.inj hmn).2.2.2.2
    rw [haudit] at hd ⊢
    exact h.clean i n hn hd

/-! ## Usage kept and reported -/

/-- No usage is added or lost from `s` to `t`: each node keeps what it holds, or has it
    reported. -/
structure Flushes (s t : AuthLocalService) : Prop where
  collected : ∀ g c, collected t g c = collected s g c
  calls : ∃ new, t.calls = s.calls ++ new ∧ ∀ i n, s.localAuditNodePool.get i = some n →
    (∃ m, t.localAuditNodePool.get i = some m ∧ m.globalAuthId = n.globalAuthId ∧
      m.audit = n.audit) ∨
    n.audit = {} ∨
    ∃ u, .reportUsage u ∈ new ∧ u.authId = n.globalAuthId ∧ ∀ c, u.counter c = n.audit.counter c

namespace Flushes

variable {t u : AuthLocalService}

theorem refl (s : AuthLocalService) : Flushes s s where
  collected _ _ := rfl
  calls := ⟨[], (List.append_nil _).symm, fun _ n hn => .inl ⟨n, hn, rfl, rfl⟩⟩

/-- Every node keeps what it holds, and no usage is reported. -/
theorem of_sameUsage (h : SameUsage s.localAuditNodePool t.localAuditNodePool)
    {new : List AuditCall} (hcalls : t.calls = s.calls ++ new)
    (hnew : ∀ g c, reported new g c = 0) : Flushes s t where
  collected g c := by
    rw [AuthLocalService.collected, AuthLocalService.collected, hcalls, reported_append, hnew,
      add_zero, held_of_sameUsage h]
  calls := by
    refine ⟨new, hcalls, fun i n hn => .inl ?_⟩
    obtain ⟨m, hm, hmn⟩ := h.symm.get hn
    obtain ⟨-, hg, -, -, ha⟩ := AuthLocalUsageAuditNode.mk.inj hmn
    exact ⟨m, hm, hg.symm, ha.symm⟩

theorem trans (h : Flushes s t) (h' : Flushes t u) : Flushes s u where
  collected g c := (h'.collected g c).trans (h.collected g c)
  calls := by
    obtain ⟨new, hnew, hs⟩ := h.calls
    obtain ⟨new', hnew', ht⟩ := h'.calls
    refine ⟨new ++ new', by rw [hnew', hnew, List.append_assoc], fun i n hn => ?_⟩
    rcases hs i n hn with ⟨m, hm, hg, ha⟩ | he | ⟨v, hv, hvn⟩
    · rcases ht i m hm with ⟨k, hk, hkg, hka⟩ | he | ⟨v, hv, hvg, hvc⟩
      · exact .inl ⟨k, hk, hkg.trans hg, hka.trans ha⟩
      · exact .inr (.inl (ha ▸ he))
      · exact .inr (.inr ⟨v, List.mem_append_right _ hv, hvg.trans hg, fun c => ha ▸ hvc c⟩)
    · exact .inr (.inl he)
    · exact .inr (.inr ⟨v, List.mem_append_left _ hv, hvn⟩)

end Flushes

/-! ## Requests -/

/-- Swapping in a new map drops the references of the old one. -/
theorem swapAuthLocalMap_spec (h : Consistent s out) :
    ∃ t, swapAuthLocalMap s = .ok t ∧ Consistent t out ∧ Flushes s t := by
  cases hmap : s.loadedAuthMap with
  | none =>
    simp only [swapAuthLocalMap, hmap]
    exact ⟨s, rfl, h, .refl s⟩
  | some newMap =>
    obtain ⟨q, hq, hcounts, hsame⟩ := dropReferences_ok h.counts
    simp only [swapAuthLocalMap, hmap, hq]
    refine ⟨_, rfl, ?_, .of_sameUsage hsame (List.append_nil _).symm fun _ _ => rfl⟩
    refine h.of_sameUsage hsame rfl rfl ?_ ?_ <;> rw [heldIds_records newMap]
    · exact List.nodup_nil
    · exact hcounts

/-- The record under a key gets a node, unless the pool is full. -/
theorem checkAndSetLocalAuthId_spec {key : Bytes} {old : AuthLocalRecord} (h : Consistent s out)
    (hold : s.authLocalMap.lookup key = some old) :
    checkAndSetLocalAuthId s key old = .error .runtimeAssert ∨
    ∃ t new node, checkAndSetLocalAuthId s key old = .ok (t, new, node) ∧ Consistent t out ∧
      t.authLocalMap.lookup key = some new ∧
      t.localAuditNodePool.get new.localAuthId = some node ∧ Flushes s t := by
  by_cases hid : old.localAuthId = 0
  · -- A new node, unless the pool is full.
    cases hacq : s.localAuditNodePool.acquire fun i =>
        ({ localAuthId := i, globalAuthId := old.globalAuthId, referenceCount := 1
           lastReportTimestampMS := s.localTicker } : AuthLocalUsageAuditNode) with
    | none =>
      left
      simp only [checkAndSetLocalAuthId, hid, ne_eq, not_true, if_false, hacq]
    | some r =>
      obtain ⟨i, q⟩ := r
      have hi : i ≠ 0 := (Storage.pos_of_acquire hacq).ne'
      have hheld := heldIds_insert_new hold hid
        (show ({ old with localAuthId := i } : AuthLocalRecord).localAuthId ≠ 0 from hi)
      have hcounts := h.counts.acquire ⟨rfl, rfl⟩ hacq
      right
      simp only [checkAndSetLocalAuthId, hid, ne_eq, not_true, if_false, hacq]
      refine ⟨_, _, _, rfl, ?_, AList.lookup_insert _, ?_,
        ⟨fun g c => ?_, [], (List.append_nil _).symm, fun j n hn => .inl ⟨n, ?_, rfl, rfl⟩⟩⟩
      · refine ⟨hcounts.perm (hheld.symm.append_right out), ?_, fun j => ?_, ?_, fun j n hn hd => ?_⟩
        · refine hheld.nodup_iff.2 (List.nodup_cons.2 ⟨fun hmem => ?_, h.nodup⟩)
          obtain ⟨n, hn⟩ := h.counts.live i (List.mem_append_left out hmem)
          rw [Storage.get_of_acquire hacq] at hn
          cases hn
        · rw [Linked.mem_grabTail, Storage.get_acquire hacq]
          by_cases hj : j = i
          · rw [if_pos hj, if_pos hj]
            exact ⟨fun _ => ⟨_, rfl⟩, fun _ => rfl⟩
          · rw [if_neg hj, if_neg hj, h.listed]
        · rw [Storage.size_eq_sum, Storage.sum_acquire hacq, ← Storage.size_eq_sum, ← h.unReleased]
          exact Nat.add_comm _ _
        · rw [Storage.get_acquire hacq] at hn
          split at hn
          · cases hn
            rfl
          · exact h.clean j n hn hd
      · rw [Storage.get_acquire hacq, if_pos rfl]
      · simp [collected, held, Storage.sum_acquire hacq]
      · have hj : j ≠ i := by
          rintro rfl
          rw [Storage.get_of_acquire hacq] at hn
          cases hn
        rw [Storage.get_acquire hacq, if_neg hj, hn]
  · -- The node of a record is live.
    have hmem : old.localAuthId ∈ heldIds s.authLocalMap :=
      mem_heldIds.2 ⟨hid, _, AList.mem_lookup_iff.1 hold, rfl⟩
    obtain ⟨node, hnode⟩ := h.counts.live _ (List.mem_append_left out hmem)
    right
    refine ⟨s, old, node, ?_, h, hold, hnode, .refl s⟩
    simp only [checkAndSetLocalAuthId, ne_eq, hid, not_false_eq_true, if_true, hnode]

/-- Rewriting a record without touching its node. -/
theorem Consistent.insert {key : Bytes} {old new : AuthLocalRecord} (h : Consistent s out)
    (hold : s.authLocalMap.lookup key = some old) (hid : new.localAuthId = old.localAuthId)
    {l : List AuditCall} :
    Consistent { s with authLocalMap := s.authLocalMap.insert key new, calls := l } out := by
  have hheld := heldIds_insert_same hold hid
  refine h.of_sameUsage (.refl _) rfl rfl (hheld.nodup_iff.2 h.nodup) ?_
  exact h.counts.perm (hheld.symm.append_right out)

/-- A request is granted with one more reference to the node, or refused. -/
theorem checkLimits_spec {key : Bytes} {old : AuthLocalRecord} {node : AuthLocalUsageAuditNode}
    (h : Consistent s out) (hold : s.authLocalMap.lookup key = some old)
    (hnode : s.localAuditNodePool.get old.localAuthId = some node) :
    ∃ t res, checkLimits T s key old node = (t, res) ∧
      Consistent t ((res.map AuthResult.localAuthId).toList ++ out) ∧ Flushes s t := by
  have hblock (b : AuditBlockAccount) (g c) : reported [.reportBlockAccount b] g c = 0 := by
    simp [reported, callUsage]
  simp only [checkLimits]
  split_ifs with hb hw hc
  · exact ⟨s, none, rfl, h, .refl s⟩
  · exact ⟨_, none, rfl, h.insert hold (by rfl), .of_sameUsage (.refl _) rfl (hblock _)⟩
  · exact ⟨_, none, rfl, h.insert hold (by rfl), .of_sameUsage (.refl _) rfl (hblock _)⟩
  · -- The request is granted.
    refine ⟨_, some _, rfl, ?_,
      .of_sameUsage (.set hnode rfl) (List.append_nil _).symm fun _ _ => rfl⟩
    have hins := h.insert (l := s.calls) hold
      (show ({ old with blockStartTimestampMS := 0 } : AuthLocalRecord).localAuthId =
        old.localAuthId from rfl)
    refine hins.of_sameUsage (.set hnode rfl) rfl rfl hins.nodup ?_
    exact (hins.counts.addReference hnode).perm List.perm_middle.symm

/-- A request ends the process when the pool is full. Otherwise the result, if any, is
    out, and no usage is added or lost. -/
theorem acquireAuthInfo_spec (T : AuthTimeouts) (key : Bytes) (h : Consistent s out) :
    acquireAuthInfo T s key = .error .runtimeAssert ∨
    ∃ t res, acquireAuthInfo T s key = .ok (t, res) ∧
      Consistent t ((res.map AuthResult.localAuthId).toList ++ out) ∧ Flushes s t := by
  obtain ⟨s₁, hs₁, h₁, hf₁⟩ := swapAuthLocalMap_spec h
  cases hrec : s₁.authLocalMap.lookup key with
  | none =>
    right
    refine ⟨s₁, none, ?_, h₁, hf₁⟩
    simp only [acquireAuthInfo, hs₁, hrec]
  | some old =>
    rcases checkAndSetLocalAuthId_spec h₁ hrec with hfull |
      ⟨s₂, new, node, hs₂, h₂, hnew, hnode, hf₂⟩
    · left
      simp only [acquireAuthInfo, hs₁, hrec, hfull]
    · obtain ⟨t, res, ht, h₃, hf₃⟩ := checkLimits_spec (T := T) h₂ hnew hnode
      right
      refine ⟨t, res, ?_, h₃, (hf₁.trans hf₂).trans hf₃⟩
      simp only [acquireAuthInfo, hs₁, hrec, hs₂, ht]

/-! ## Releases -/

theorem counter_addUsage (u usage : LocalUsage) (c : UsageCounter) :
    (addUsage u usage).counter c = u.counter c + usage.counter c := by
  cases c <;> rfl

/-- A result that is out is released to a live node, which collects the usage. -/
theorem releaseAuthInfo_spec {i : ℕ} (h : Consistent s (i :: out)) (usage : LocalUsage) :
    ∃ t n, s.localAuditNodePool.get i = some n ∧ releaseAuthInfo s i usage = .ok t ∧
      Consistent t out ∧
      (∀ g c, collected t g c =
        collected s g c + if n.globalAuthId = g then usage.counter c else 0) ∧
      t.calls = s.calls ∧
      ∀ j m, s.localAuditNodePool.get j = some m → ∃ k, t.localAuditNodePool.get j = some k := by
  have hcounts := h.counts.perm List.perm_middle
  obtain ⟨n, hn⟩ := hcounts.live i List.mem_cons_self
  -- The node with the usage added is counted as before, so that one reference is dropped.
  have hadd : Counts (s.localAuditNodePool.set i { n with audit := addUsage n.audit usage })
      (i :: (heldIds s.authLocalMap ++ out)) :=
    hcounts.set hn ⟨(hcounts.count hn).1, (hcounts.count hn).2⟩ fun _ _ => rfl
  obtain ⟨q, hq, hcountq, hsame⟩ := dropReference_ok hadd
  have hlive (j) : (∃ m, s.localAuditNodePool.get j = some m) ↔ ∃ k, q.get j = some k := by
    rw [hsame.live_iff, Storage.get_set hn]
    split
    · next hj => subst hj; simp [hn]
    · rfl
  simp only [releaseAuthInfo, hn, hq]
  refine ⟨_, n, rfl, rfl, ?_, fun g c => ?_, rfl, fun j m hm => (hlive j).1 ⟨m, hm⟩⟩
  · refine ⟨hcountq, h.nodup, fun j => (h.listed j).trans (hlive j), ?_, fun j m hm hd => ?_⟩
    · change s.audit.unReleasedAuthInfoCount = q.size
      rw [hsame.size, h.unReleased, Storage.size_eq_sum, Storage.size_eq_sum, Storage.sum_set hn,
        ← Storage.sum_release hn]
    · obtain ⟨k, hk, hmk⟩ := hsame.get hm
      have haudit : m.audit = k.audit := (AuthLocalUsageAuditNode.mk.inj hmk).2.2.2.2
      rw [haudit] at hd ⊢
      rw [Storage.get_set hn] at hk
      split at hk
      · cases hk
        cases hd
      · exact h.clean j k hk hd
  · have hset := held_set (m := { n with audit := addUsage n.audit usage }) hn rfl g c
    simp only [collected, held_of_sameUsage hsame]
    rw [add_assoc]
    congr 1
    split at hset
    · next hg =>
      rw [if_pos hg]
      rw [counter_addUsage] at hset
      exact add_right_cancel (hset.trans (by abel))
    · next hg =>
      rw [if_neg hg, add_zero]
      rwa [add_zero, add_zero] at hset

/-! ## The timeout pass -/

theorem counter_usageInfo (s : AuthLocalService) (n : AuthLocalUsageAuditNode) (c : UsageCounter) :
    (s.usageInfo n).counter c = n.audit.counter c := by
  cases c <;> rfl

/-- The usage a node holds is what is reported of it; it is nothing when the node is
    not dirty. -/
theorem exists_report {i : ℕ} {n : AuthLocalUsageAuditNode} (h : Consistent s out)
    (hn : s.localAuditNodePool.get i = some n) :
    ∃ new, (if n.audit.dirty then s.calls ++ [.reportUsage (s.usageInfo n)] else s.calls) =
        s.calls ++ new ∧
      (∀ g c, reported new g c = if n.globalAuthId = g then n.audit.counter c else 0) ∧
      (n.audit = {} ∨ ∃ u, AuditCall.reportUsage u ∈ new ∧ u.authId = n.globalAuthId ∧
        ∀ c, u.counter c = n.audit.counter c) := by
  cases hd : n.audit.dirty with
  | true =>
    refine ⟨[.reportUsage (s.usageInfo n)], rfl, fun g c => ?_,
      .inr ⟨_, List.mem_singleton.2 rfl, rfl, counter_usageInfo s n⟩⟩
    rw [reported, List.map_singleton, List.sum_singleton, callUsage, counter_usageInfo]
    rfl
  | false =>
    have haudit := h.clean i n hn hd
    refine ⟨[], (List.append_nil _).symm, fun g c => ?_, .inl haudit⟩
    rw [haudit, counter_empty, ite_self]
    rfl

/-- Freeing a node nothing refers to keeps the invariant. -/
theorem Consistent.free {i : ℕ} {n : AuthLocalUsageAuditNode} (h : Consistent s out)
    (hn : s.localAuditNodePool.get i = some n) (href : n.referenceCount = 0)
    (calls : List AuditCall) :
    Consistent { s with
      localAuditNodePool := s.localAuditNodePool.release i
      localAuditTimeoutList := s.localAuditTimeoutList.unlink i
      audit := { s.audit with unReleasedAuthInfoCount := s.audit.unReleasedAuthInfoCount - 1 }
      calls := calls } out where
  counts := by
    refine h.counts.release fun hi => ?_
    rw [(h.counts.count hn).2] at href
    exact (List.count_pos_iff.2 hi).ne' href
  nodup := h.nodup
  listed j := by
    rw [Linked.mem_unlink, Storage.get_release, h.listed]
    by_cases hj : j = i <;> simp [hj]
  unReleased := by
    have hsize := Storage.sum_release hn fun _ _ => 1
    rw [← Storage.size_eq_sum, ← Storage.size_eq_sum, ← h.unReleased] at hsize
    exact Nat.sub_eq_of_eq_add (by rw [← hsize, Nat.add_comm])
  clean j m hm hd := by
    rw [Storage.get_release] at hm
    split at hm
    · cases hm
    · exact h.clean j m hm hd

/-- Linking a node again, with nothing left to report, keeps the invariant. -/
theorem Consistent.relink {i : ℕ} {n : AuthLocalUsageAuditNode} (h : Consistent s out)
    (hn : s.localAuditNodePool.get i = some n) (calls : List AuditCall) :
    Consistent { s with
      localAuditNodePool := s.localAuditNodePool.set i
        { n with audit := {}, lastReportTimestampMS := s.localTicker }
      localAuditTimeoutList := s.localAuditTimeoutList.grabTail () i
      calls := calls } out where
  counts := h.counts.set hn ⟨(h.counts.count hn).1, (h.counts.count hn).2⟩ fun _ _ => rfl
  nodup := h.nodup
  listed j := by
    rw [Linked.mem_grabTail, Storage.get_set hn]
    split
    · simp
    · exact h.listed j
  unReleased := by
    rw [h.unReleased, Storage.size_eq_sum, Storage.size_eq_sum, Storage.sum_set hn,
      ← Storage.sum_release hn]
  clean j m hm hd := by
    rw [Storage.get_set hn] at hm
    split at hm
    · cases hm
      rfl
    · exact h.clean j m hm hd

/-- A live node is reported, and linked again at the end of the list, or freed when
    nothing refers to it. -/
theorem reportNode_spec {i : ℕ} {n : AuthLocalUsageAuditNode} (h : Consistent s out)
    (hn : s.localAuditNodePool.get i = some n) :
    ∃ t, reportNode s i = .ok t ∧ Consistent t out ∧ Flushes s t ∧
      t.localTicker = s.localTicker ∧
      (∀ j, j ≠ i → t.localAuditNodePool.get j = s.localAuditNodePool.get j) ∧
      (∀ m, t.localAuditNodePool.get i = some m → m.lastReportTimestampMS = s.localTicker) ∧
      ∃ l, t.localAuditTimeoutList.nodes () =
        (s.localAuditTimeoutList.nodes ()).filter (· ≠ i) ++ l ∧ ∀ j ∈ l, j = i := by
  obtain ⟨new, hcalls, hreported, hflush⟩ := exists_report h hn
  by_cases href : n.referenceCount = 0
  · simp only [reportNode, hn, hcalls, href, ne_eq, not_true, if_false]
    refine ⟨_, rfl, h.free hn href _, ⟨fun g c => ?_, new, rfl, fun j m hm => ?_⟩, rfl,
      fun j hj => ?_, fun m hm => ?_, [], (List.append_nil _).symm, fun j hj => (by cases hj)⟩
    · simp only [collected, reported_append, hreported]
      rw [add_assoc, held_release hn]
    · by_cases hj : j = i
      · rw [hj, hn] at hm
        cases hm
        exact .inr hflush
      · exact .inl ⟨m, by rw [Storage.get_release, if_neg hj, hm], rfl, rfl⟩
    · rw [Storage.get_release, if_neg hj]
    · rw [Storage.get_release, if_pos rfl] at hm
      cases hm
  · have haudit : (if n.audit.dirty then {} else n.audit) = ({} : LocalUsage) := by
      split
      · rfl
      · next hd => exact h.clean i n hn (Bool.eq_false_iff.2 hd)
    simp only [reportNode, hn, hcalls, haudit, ne_eq, href, not_false_eq_true, if_true]
    refine ⟨_, rfl, h.relink hn _, ⟨fun g c => ?_, new, rfl, fun j m hm => ?_⟩, rfl,
      fun j hj => Storage.get_set_of_ne _ hj, fun m hm => ?_, [i], ?_,
      fun j hj => List.mem_singleton.1 hj⟩
    · have hset := held_set (m := { n with audit := {}, lastReportTimestampMS := s.localTicker })
        hn rfl g c
      simp only [counter_empty, ite_self, add_zero] at hset
      simp only [collected, reported_append, hreported]
      rw [add_assoc, add_comm (ite _ _ _), hset]
    · by_cases hj : j = i
      · rw [hj, hn] at hm
        cases hm
        exact .inr hflush
      · exact .inl ⟨m, by rw [Storage.get_set_of_ne _ hj, hm], rfl, rfl⟩
    · rw [Storage.get_set_self hn] at hm
      cases hm
      rfl
    · simp [Linked.grabTail, Linked.unlink]

/-- A node that is due is the live head of the timeout list. -/
theorem dueNode_eq_some {i : ℕ} (h : Consistent s out) (hi : dueNode T s = some i) :
    ∃ n l, s.localAuditTimeoutList.nodes () = i :: l ∧ s.localAuditNodePool.get i = some n ∧
      n.lastReportTimestampMS ≤ sub64 s.localTicker T.localAuditNodeIdleTimeoutMS := by
  unfold dueNode at hi
  split at hi
  · cases hi
  · next j l hl =>
    obtain ⟨n, hn⟩ := (h.listed j).1 (by rw [hl]; exact List.mem_cons_self)
    rw [hn] at hi
    simp only at hi
    split at hi
    · next hdue =>
      cases hi
      exact ⟨n, l, hl, hn, hdue⟩
    · cases hi

/-- A pass that returns leaves a consistent state, and reports what its nodes lose. -/
theorem checkAndReportLocalAudit_spec (T : AuthTimeouts) (fuel : ℕ) (h : Consistent s out) :
    checkAndReportLocalAudit T fuel s = .error .noReturn ∨
    ∃ t, checkAndReportLocalAudit T fuel s = .ok t ∧ Consistent t out ∧ Flushes s t := by
  induction fuel generalizing s with
  | zero =>
    cases hdue : dueNode T s with
    | none => exact .inr ⟨s, by simp only [checkAndReportLocalAudit, hdue], h, .refl s⟩
    | some i => exact .inl (by simp only [checkAndReportLocalAudit, hdue])
  | succ fuel ih =>
    cases hdue : dueNode T s with
    | none => exact .inr ⟨s, by simp only [checkAndReportLocalAudit, hdue], h, .refl s⟩
    | some i =>
      obtain ⟨n, l, -, hn, -⟩ := dueNode_eq_some h hdue
      obtain ⟨u, hu, hcons, hflush, -⟩ := reportNode_spec h hn
      simp only [checkAndReportLocalAudit, hdue, hu]
      rcases ih hcons with hno | ⟨t, ht, htc, htf⟩
      · exact .inl hno
      · exact .inr ⟨t, ht, htc, hflush.trans htf⟩

theorem tick_spec (T : AuthTimeouts) (nowMS : ℕ) (h : Consistent s out) :
    tick T s nowMS = .error .noReturn ∨
    ∃ t, tick T s nowMS = .ok t ∧ Consistent t out ∧ Flushes s t := by
  have hs : Consistent { s with localTicker := nowMS } out :=
    ⟨h.counts, h.nodup, h.listed, h.unReleased, h.clean⟩
  rcases checkAndReportLocalAudit_spec T _ hs with hno | ⟨t, ht, hcons, hflush⟩
  · exact .inl hno
  · exact .inr ⟨t, ht, hcons, ⟨hflush.collected, hflush.calls⟩⟩

/-- A pass takes every node at most once, when the idle period does not reach back beyond
    the epoch of the clock: those linked again, `done`, are not due. -/
theorem checkAndReportLocalAudit_returns {fuel : ℕ} {todo done : List ℕ} (h : Consistent s out)
    (hpos : 0 < T.localAuditNodeIdleTimeoutMS)
    (hnow : T.localAuditNodeIdleTimeoutMS ≤ s.localTicker)
    (hl : s.localAuditTimeoutList.nodes () = todo ++ done) (hfuel : todo.length ≤ fuel)
    (hdone : ∀ i ∈ done, ∀ n, s.localAuditNodePool.get i = some n →
      n.lastReportTimestampMS = s.localTicker) :
    ∃ t, checkAndReportLocalAudit T fuel s = .ok t := by
  induction fuel generalizing s todo done with
  | zero =>
    obtain rfl := List.eq_nil_of_length_eq_zero (Nat.le_zero.1 hfuel)
    cases hdue : dueNode T s with
    | none => exact ⟨s, by simp only [checkAndReportLocalAudit, hdue]⟩
    | some i =>
      obtain ⟨n, l, hil, hn, hle⟩ := dueNode_eq_some h hdue
      rw [hl, List.nil_append] at hil
      rw [hdone i (by rw [hil]; exact List.mem_cons_self) n hn, sub64_of_le hnow] at hle
      omega
  | succ fuel ih =>
    cases hdue : dueNode T s with
    | none => exact ⟨s, by simp only [checkAndReportLocalAudit, hdue]⟩
    | some i =>
      obtain ⟨n, l, hil, hn, hle⟩ := dueNode_eq_some h hdue
      obtain ⟨u, hu, hcons, -, htick, hget, hlast, l', hl', hmem⟩ := reportNode_spec h hn
      have hnodup := s.localAuditTimeoutList.nodup ()
      simp only [checkAndReportLocalAudit, hdue, hu]
      rw [hl] at hil hl' hnodup
      cases todo with
      | nil =>
        rw [List.nil_append] at hil
        rw [hdone i (by rw [hil]; exact List.mem_cons_self) n hn, sub64_of_le hnow] at hle
        omega
      | cons j todo =>
        obtain ⟨rfl, rfl⟩ := List.cons.inj hil
        rw [List.cons_append, List.nodup_cons] at hnodup
        have hfilter : (todo ++ done).filter (· ≠ j) = todo ++ done :=
          List.filter_eq_self.2 fun k hk =>
            decide_eq_true (ne_of_mem_of_not_mem hk hnodup.1)
        rw [List.cons_append, List.filter_cons_of_neg (by simp), hfilter, List.append_assoc] at hl'
        refine ih hcons (htick ▸ hnow) hl' (Nat.le_of_succ_le_succ hfuel) fun k hk m hm => ?_
        rw [htick]
        rcases List.mem_append.1 hk with hk | hk
        · have hkj : k ≠ j := ne_of_mem_of_not_mem (List.mem_append_right _ hk) hnodup.1
          exact hdone k hk m (hget k hkj ▸ hm)
        · exact hlast m (hmem k hk ▸ hm)

/-- The timeout pass returns, when the idle period does not reach back beyond the epoch of
    the clock. -/
theorem tick_returns {nowMS : ℕ} (h : Consistent s out)
    (hpos : 0 < T.localAuditNodeIdleTimeoutMS) (hnow : T.localAuditNodeIdleTimeoutMS ≤ nowMS) :
    ∃ t, tick T s nowMS = .ok t := by
  have hs : Consistent { s with localTicker := nowMS } out :=
    ⟨h.counts, h.nodup, h.listed, h.unReleased, h.clean⟩
  exact checkAndReportLocalAudit_returns hs hpos hnow (List.append_nil _).symm le_rfl
    fun i hi => absurd hi List.not_mem_nil

end AuthLocalService

end ProxyPlatform
