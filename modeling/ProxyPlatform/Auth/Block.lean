import ProxyPlatform.Auth.Request

/-!
# Blocked accounts

An account that exceeds a limit is blocked: the block is in the record of the account, with
the time it began, and is reported with the period it is to last. As the record is replaced
when a map is swapped in, a map that is loaded lifts all blocks.

* `BlocksLast`: from a block to the end of its period, a request for the account is neither
  granted nor reported again;
* `blocksLast_of_along`: this holds in a run in which no map lists a blocked account.

A time of zero is no block (`AuthLocalRecord.InForce`).
-/

namespace ProxyPlatform.AuthRun

open AuthLocalService

variable {T : AuthTimeouts} {r t : AuthRun} {key : Bytes}

/-- A request for `key` is neither granted nor reported. -/
def Refuses (T : AuthTimeouts) (key : Bytes) (s : AuthLocalService) : Prop :=
  ∀ t res, acquireAuthInfo T s key = .ok (t, res) → res = none ∧ t.calls = s.calls

/-- A request for `key` leads from `r` to `t`, and blocks the account. -/
def Blocks (T : AuthTimeouts) (key : Bytes) (r t : AuthRun) : Prop :=
  step T r (.acquireAuthInfo key) = .ok t ∧
    ∃ b, t.service.calls = r.service.calls ++ [.reportBlockAccount b]

/-- From a block to the end of its period, as long as the account is listed by the maps that are
    loaded, every request for it is refused, and not reported again. -/
def BlocksLast (T : AuthTimeouts) (es : List AuthEvent) : Prop :=
  ∀ pre key mid r t u, pre ++ .acquireAuthInfo key :: mid <+: es → exec (step T) init pre = .ok r →
    Blocks T key r t → exec (step T) t mid = .ok u →
    (∀ newMap, .publish newMap ∈ mid → key ∈ newMap.records) →
    u.service.localTicker < r.service.localTicker + T.accountBlockTimeoutMS →
    Refuses T key u.service

/-- The clock does not go back. -/
def Clocked (r : AuthRun) : AuthEvent → Prop
  | .tick nowMS => r.service.localTicker ≤ nowMS
  | _ => True

/-- No map lists an account that is blocked, and at the time zero no account exceeds a limit. -/
def BlockKept (T : AuthTimeouts) (r : AuthRun) : AuthEvent → Prop
  | .publish newMap => ∀ e ∈ r.service.authLocalMap.entries,
    (newMap.records.lookup e.1).isSome = true → ¬e.2.InForce T r.service.localTicker
  | .acquireAuthInfo key => r.service.localTicker ≠ 0 ∨ r.service.loadedAuthMap.isSome = true ∨
    ∀ e ∈ r.service.authLocalMap.entries, e.1 = key →
      ¬e.2.ExceedsBandwidth (r.service.usageOf e.2) ∧
        ¬e.2.ExceedsConnections (r.service.usageOf e.2)
  | _ => True

instance (T : AuthTimeouts) (record : AuthLocalRecord) (nowMS : ℕ) :
    Decidable (record.InForce T nowMS) :=
  inferInstanceAs (Decidable (_ ∧ _))

instance (record : AuthLocalRecord) (u : LocalUsage) : Decidable (record.ExceedsBandwidth u) :=
  inferInstanceAs (Decidable (_ ∧ _))

instance (record : AuthLocalRecord) (u : LocalUsage) : Decidable (record.ExceedsConnections u) :=
  inferInstanceAs (Decidable (_ ∧ _))

instance (r : AuthRun) : (e : AuthEvent) → Decidable (Clocked r e)
  | .tick nowMS => inferInstanceAs (Decidable (r.service.localTicker ≤ nowMS))
  | .acquireAuthInfo _ | .releaseAuthInfo .. | .publish _ => .isTrue trivial

instance (T : AuthTimeouts) (r : AuthRun) : (e : AuthEvent) → Decidable (BlockKept T r e)
  | .publish newMap => inferInstanceAs (Decidable (∀ e ∈ r.service.authLocalMap.entries,
    (newMap.records.lookup e.1).isSome = true → ¬e.2.InForce T r.service.localTicker))
  | .acquireAuthInfo key => inferInstanceAs (Decidable (r.service.localTicker ≠ 0 ∨
    r.service.loadedAuthMap.isSome = true ∨ ∀ e ∈ r.service.authLocalMap.entries, e.1 = key →
      ¬e.2.ExceedsBandwidth (r.service.usageOf e.2) ∧
        ¬e.2.ExceedsConnections (r.service.usageOf e.2)))
  | .releaseAuthInfo .. | .tick _ => .isTrue trivial

/-! ## A block -/

theorem not_exceeds_empty (record : AuthLocalRecord) :
    ¬record.ExceedsBandwidth {} ∧ ¬record.ExceedsConnections {} := by
  refine ⟨fun h => ?_, fun h => ?_⟩
  · exact absurd h.2 (by simp [totalConsumed])
  · exact absurd h.2 (by simp)

/-- The account is blocked since `since`, and no map waits to be swapped in. -/
structure Blocked (key : Bytes) (since : ℕ) (s : AuthLocalService) : Prop where
  loadedAuthMap : s.loadedAuthMap = none
  record : ∃ record, s.authLocalMap.lookup key = some record ∧ record.blockStartTimestampMS = since

/-- A request that is reported leaves the account blocked. -/
theorem Blocks.blocked (h : Blocks T key r t) (hkept : BlockKept T r (.acquireAuthInfo key)) :
    r.service.localTicker ≠ 0 ∧ t.service.localTicker = r.service.localTicker ∧
      Blocked key r.service.localTicker t.service := by
  obtain ⟨hstep, b, hb⟩ := h
  simp only [step] at hstep
  split at hstep
  · cases hstep
  next s res hacquire =>
  cases hstep
  dsimp only at hb ⊢
  obtain ⟨s₁, hswap, hacquire'⟩ := acquireAuthInfo_eq_ok hacquire
  obtain ⟨hmap, hticker, hcalls, hsource⟩ := swapAuthLocalMap_leaves hswap
  have hnew : s.calls ≠ s₁.calls := by
    rw [hb, hcalls]
    simp
  cases hold : s₁.authLocalMap.lookup key with
  | none =>
    rw [acquireAuthInfo_unlisted hmap hold] at hacquire'
    cases hacquire'
    exact absurd rfl hnew
  | some old =>
    obtain ⟨hleaves, hdecision⟩ := acquireAuthInfo_decides hmap hold hacquire'
    cases hdecision with
    | blocked _ _ hcalls' => exact absurd hcalls' hnew
    | granted _ _ _ _ hcalls' => exact absurd hcalls' hnew
    | exceeded hforce hex _ _ _ i _ hlookup =>
      refine ⟨fun hzero => ?_, hleaves.localTicker.trans hticker,
        hleaves.loadedAuthMap.trans hmap, _, hlookup, hticker⟩
      -- Neither a record that was just loaded nor one at the time zero is blocked.
      have hfresh (h0 : old.localAuthId = 0) : False := by
        rw [usageOf, h0, Storage.get_zero] at hex
        exact hex.elim (not_exceeds_empty old).1 (not_exceeds_empty old).2
      rcases hsource with rfl | ⟨-, hsource⟩
      · rcases hkept with h | h | h
        · exact h hzero
        · rw [hmap] at h
          cases h
        · obtain ⟨hbandwidth, hconnections⟩ := h _ (AList.mem_lookup_iff.1 hold) rfl
          exact hex.elim hbandwidth hconnections
      · exact hfresh (hsource key old hold)

/-- A request for a blocked account is refused. -/
theorem Blocked.refuses {since : ℕ} {s : AuthLocalService} (h : Blocked key since s)
    (hsince : since ≠ 0) (hnow : s.localTicker < since + T.accountBlockTimeoutMS) :
    Refuses T key s := by
  intro t res ht
  obtain ⟨record, hrecord, rfl⟩ := h.record
  obtain ⟨-, hdecision⟩ := acquireAuthInfo_decides h.loadedAuthMap hrecord ht
  cases hdecision with
  | blocked _ hres hcalls => exact ⟨hres, hcalls⟩
  | exceeded hforce => exact absurd ⟨hsince, hnow⟩ hforce
  | granted hforce => exact absurd ⟨hsince, hnow⟩ hforce

/-- Only the records, the map that waits and the clock matter. -/
theorem Blocked.congr {since : ℕ} {s s' : AuthLocalService} (h : Blocked key since s)
    (hmap : s'.loadedAuthMap = s.loadedAuthMap)
    (hrecords : s'.authLocalMap = s.authLocalMap) : Blocked key since s' :=
  ⟨hmap.trans h.loadedAuthMap, hrecords ▸ h.record⟩

/-! ## Runs -/

/-- The account is blocked since `since`, unless the period is over. -/
def BlockedUntil (T : AuthTimeouts) (key : Bytes) (since : ℕ) (r : AuthRun) : Prop :=
  since + T.accountBlockTimeoutMS ≤ r.service.localTicker ∨ Blocked key since r.service

/-- A step keeps the block, unless it lists the account again. -/
theorem step_blockedUntil {since : ℕ} {e : AuthEvent} (hsince : since ≠ 0)
    (hlisted : ∀ newMap, e = .publish newMap → key ∈ newMap.records) (hclock : Clocked r e)
    (hkept : BlockKept T r e) (h : BlockedUntil T key since r) (ht : step T r e = .ok t) :
    BlockedUntil T key since t := by
  cases e with
  | acquireAuthInfo k =>
    simp only [step] at ht
    split at ht
    · cases ht
    next s res hacquire =>
    cases ht
    rcases h with hover | hblocked
    · -- The clock is left as it is, whether a map is swapped in or not.
      obtain ⟨s₁, hswap, hacquire'⟩ := acquireAuthInfo_eq_ok hacquire
      obtain ⟨hmap, hticker, -⟩ := swapAuthLocalMap_leaves hswap
      exact .inl (hover.trans ((acquireAuthInfo_leaves hmap hacquire').localTicker.trans hticker).ge)
    · have hleaves := acquireAuthInfo_leaves hblocked.loadedAuthMap hacquire
      by_cases hnow : r.service.localTicker < since + T.accountBlockTimeoutMS
      · refine .inr ⟨hleaves.loadedAuthMap.trans hblocked.loadedAuthMap, ?_⟩
        obtain ⟨record, hrecord, hstart⟩ := hblocked.record
        by_cases hk : k = key
        · subst hk
          have hforce : record.InForce T r.service.localTicker := by
            rw [AuthLocalRecord.InForce, hstart]
            exact ⟨hsince, hnow⟩
          obtain ⟨-, hdecision⟩ := acquireAuthInfo_decides hblocked.loadedAuthMap hrecord hacquire
          cases hdecision with
          | blocked _ _ _ i _ hnew => exact ⟨_, hnew, hstart⟩
          | exceeded hno => exact absurd hforce hno
          | granted hno => exact absurd hforce hno
        · exact ⟨record, (hleaves.lookup key (Ne.symm hk)).trans hrecord, hstart⟩
      · exact .inl ((Nat.not_lt.1 hnow).trans hleaves.localTicker.ge)
  | releaseAuthInfo i usage =>
    simp only [step] at ht
    split at ht
    · split at ht
      · cases ht
      next s hrelease =>
      cases ht
      obtain ⟨hticker, hmap, hrecords, -⟩ := releaseAuthInfo_leaves hrelease
      exact h.imp (fun h => h.trans hticker.ge) fun h => h.congr hmap hrecords
    · cases ht
      exact h
  | publish newMap =>
    cases ht
    rcases h with hover | hblocked
    · exact .inl hover
    · obtain ⟨record, hrecord, hstart⟩ := hblocked.record
      have hno := hkept _ (AList.mem_lookup_iff.1 hrecord) (AList.lookup_isSome.2 (hlisted newMap rfl))
      rw [AuthLocalRecord.InForce, hstart, not_and, Nat.not_lt] at hno
      exact .inl (hno hsince)
  | tick nowMS =>
    simp only [step] at ht
    split at ht
    · cases ht
    next s htick =>
    cases ht
    obtain ⟨hticker, hmap, hrecords⟩ := tick_leaves htick
    refine h.imp (fun h => ?_) fun h => h.congr hmap hrecords
    exact (h.trans hclock).trans hticker.ge

/-- In a run in which no map lists a blocked account, every block lasts its period. -/
theorem blocksLast_of_along (T : AuthTimeouts) (es : List AuthEvent)
    (hclock : Along (step T) Clocked init es) (hkept : Along (step T) (BlockKept T) init es) :
    BlocksLast T es := by
  intro pre key mid r t u hpre hr hblocks hu hlisted hnow
  rw [← List.singleton_append, ← List.append_assoc] at hpre
  have hpre' : pre ++ [.acquireAuthInfo key] <+: es := (List.prefix_append _ mid).trans hpre
  obtain ⟨hzero, hticker, hblocked⟩ := hblocks.blocked (along_iff.1 hkept pre _ r hpre' hr)
  have ht := (exec_snoc (.acquireAuthInfo key) hr).trans hblocks.1
  -- Every step after the block keeps it.
  have hC : Along (step T) (fun r e => Clocked r e ∧ BlockKept T r e ∧
      ∀ newMap, e = .publish newMap → key ∈ newMap.records) t mid := by
    refine along_iff.2 fun p e s hp hs => ?_
    have hall : pre ++ [.acquireAuthInfo key] ++ p ++ [e] <+: es := by
      rw [List.append_assoc _ p]
      exact ((List.prefix_append_right_inj _).2 hp).trans hpre
    have hexec : exec (step T) init (pre ++ [.acquireAuthInfo key] ++ p) = .ok s :=
      (exec_append p ht).trans hs
    refine ⟨along_iff.1 hclock _ e s hall hexec, along_iff.1 hkept _ e s hall hexec, ?_⟩
    rintro newMap rfl
    exact hlisted newMap (hp.subset (by simp))
  have hend : BlockedUntil T key r.service.localTicker u :=
    exec_invariant_along (fun s e s' hs hC hs' => step_blockedUntil hzero hC.2.2 hC.1 hC.2.1 hs hs')
      (.inr hblocked) hC hu
  rcases hend with hover | hblocked
  · exact absurd hover (Nat.not_le.2 hnow)
  · exact hblocked.refuses hzero hnow

/-- A map with an account that may have 900 connections. -/
def limitedMap : LoadedAuthMap where
  records := AList.singleton [97, 0, 98] { globalAuthId := 7, connectionLimit := 900 }
  fresh := by
    intro e he
    obtain rfl := List.mem_singleton.1 he
    exact ⟨rfl, rfl⟩

/-- Connections of the account, each of which ends before the next. -/
def connections (n : ℕ) : List AuthEvent :=
  (List.replicate n [.acquireAuthInfo [97, 0, 98],
    .releaseAuthInfo 1 { totalTcpConnections := 1 }]).flatten

/-- The account has had 901 connections. -/
def limitedEvents : List AuthEvent :=
  .publish limitedMap :: .tick 1000000 :: connections 901

theorem blocksLast_of_along_sample :
    BlocksLast .release (limitedEvents ++ [.acquireAuthInfo [97, 0, 98], .tick 1100000,
      .acquireAuthInfo [97, 0, 98]]) := by
  have hsteps : Along (step .release) (fun r e => Clocked r e ∧ BlockKept .release r e) init
      (limitedEvents ++ [.acquireAuthInfo [97, 0, 98], .tick 1100000,
        .acquireAuthInfo [97, 0, 98]]) := along_of_check (by decide +kernel)
  have hboth (C : AuthRun → AuthEvent → Prop)
      (hC : ∀ r e, Clocked r e ∧ BlockKept .release r e → C r e) :=
    Along.of_invariant (I := fun _ => True) (fun r e _ => hC r e) (fun _ _ _ _ _ _ => trivial)
      trivial hsteps
  exact blocksLast_of_along _ _ (hboth _ fun _ _ h => h.1) (hboth _ fun _ _ h => h.2)

/-- The map is loaded again while the account is blocked. -/
theorem blocksLast_counterexample :
    ¬BlocksLast .release (limitedEvents ++ .acquireAuthInfo [97, 0, 98] ::
      [.tick 1100000, .publish limitedMap]) := by
  intro h
  obtain ⟨r, hr, hrp⟩ := exists_ok_of_check (x := exec (step .release) init limitedEvents)
    (p := fun r => r.service.calls = [] ∧ r.service.localTicker = 1000000 ∧
      ((step .release r (.acquireAuthInfo [97, 0, 98])).toOption.any fun t =>
        t.service.calls =
          [.reportBlockAccount ⟨7, 1000000, 900000, .connectionLimit, 900, 901⟩] ∧
        ((exec (step .release) t [.tick 1100000, .publish limitedMap]).toOption.any fun u =>
          u.service.localTicker = 1100000 ∧
          ((acquireAuthInfo .release u.service [97, 0, 98]).toOption.any fun x => x.2.isSome))))
    (by decide +kernel)
  obtain ⟨hcalls, hticker, htp⟩ := of_decide_eq_true hrp
  rcases ht : step .release r (.acquireAuthInfo [97, 0, 98]) with x | t
  · rw [ht] at htp
    cases htp
  rw [ht] at htp
  obtain ⟨hreport, hup⟩ := of_decide_eq_true htp
  rcases hu : exec (step .release) t [.tick 1100000, .publish limitedMap] with x | u
  · rw [hu] at hup
    cases hup
  rw [hu] at hup
  obtain ⟨hnow, hgranted⟩ := of_decide_eq_true hup
  have hblocks : Blocks .release [97, 0, 98] r t := by
    refine ⟨ht, ⟨7, 1000000, 900000, .connectionLimit, 900, 901⟩, ?_⟩
    rw [hcalls, List.nil_append]
    exact hreport
  have hrefuses := h limitedEvents [97, 0, 98] _ r t u (List.prefix_refl _) hr hblocks hu
    (fun newMap hmem => ?_) (by rw [hnow, hticker]; decide)
  · rcases hres : acquireAuthInfo .release u.service [97, 0, 98] with x | x
    · rw [hres] at hgranted
      cases hgranted
    · rw [hres] at hgranted
      change x.2.isSome = true at hgranted
      rw [(hrefuses x.1 x.2 hres).1] at hgranted
      cases hgranted
  · obtain rfl : newMap = limitedMap := by simpa using hmem
    exact AList.lookup_isSome.1 rfl

end ProxyPlatform.AuthRun
