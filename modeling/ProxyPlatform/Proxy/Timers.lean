import ProxyPlatform.Base.Stamped
import ProxyPlatform.Proxy.Lists

/-!
# The timer lists of the clients

A live connection is linked in exactly one of the timeout lists. All of them but the kill
list are ordered by the timestamps of their connections: a connection gets a timestamp when
it is linked at the tail of one, and only then.

* `OrderedIn`, `Turn.orderedIn`: the order of a list, and that the turns keep it;
* `AllLinked`, `Turn.allLinked`: what is live is linked, and the other way round;
* `FreshIn`: nothing in a list is due, which its pass brings about;
* `timersHold_of_exec`: so it is in every run in which ticks do not go back.
-/

namespace ProxyPlatform.ProxyAccessService

variable {σ : Type*} {S : Services σ} {P : Platform}

/-- The timestamp of the connection `k`, if it is live. -/
def stampOf (s : ProxyAccessService σ) (k : ℕ) : Option ℕ :=
  (s.clientConnectionPool.get k).map ClientConnection.timestampMS

/-- The list `l` is ordered by the timestamps of its connections. -/
def OrderedIn (l : ClientList) (s : ProxyAccessService σ) : Prop :=
  Stamped s.stampOf s.localTicker (s.timeoutLists.nodes l)

/-- The live connections are those that are linked. -/
def AllLinked (s : ProxyAccessService σ) : Prop :=
  ∀ k, s.timeoutLists.IsLinked k ↔ ∃ c, s.clientConnectionPool.get k = some c

/-- Nothing in the list `l` is due at the time `nowMS`. -/
def FreshIn (l : ClientList) (timeoutMS nowMS : ℕ) (s : ProxyAccessService σ) : Prop :=
  ∀ k ∈ s.timeoutLists.nodes l, ∀ c, s.clientConnectionPool.get k = some c →
    sub64 nowMS timeoutMS < c.timestampMS

/-- Every live connection is linked, and the lists but the kill list are ordered. -/
structure Timed (s : ProxyAccessService σ) : Prop where
  linked : AllLinked s
  ordered : ∀ l, l ≠ .kill → OrderedIn l s

/-- The time after which what is in the list `l` is killed. -/
def timeoutOf : ClientList → ℕ
  | .initTimeout => paClientAuthTimeoutMS
  | .idleTimeout => clientConnectionIdleTimeoutMS
  | .gracefulKill => paGracefulKillTimeoutMS
  | .kill => 0

/-- Ticks do not go back, and start late enough for no subtraction to wrap. -/
def TicksOnward (s : ProxyAccessService σ) : ProxyEvent → Prop
  | .tick nowMS => s.localTicker ≤ nowMS ∧ clientConnectionIdleTimeoutMS ≤ nowMS
  | _ => True

instance (s : ProxyAccessService σ) : ∀ e : ProxyEvent, Decidable (TicksOnward s e)
  | .tick _ => inferInstanceAs (Decidable (_ ∧ _))
  | .onNewConnection .. | .onPeerClose _ | .onFlush _ | .onData .. | .onUdpData ..
  | .postData .. | .postUdpData .. | .closeConnection _ | .setReady .. => .isTrue trivial

section

variable {s t u s' : ProxyAccessService σ} {c c' : ClientConnection} {k : ℕ} {l m : ClientList}
  {x : TurnLabel}

/-! ## Order -/

theorem stampOf_of_get (hc : s.clientConnectionPool.get k = some c) :
    s.stampOf k = some c.timestampMS := by
  rw [stampOf, hc]
  rfl

theorem OrderedIn.live (ho : OrderedIn l s) (hk : k ∈ s.timeoutLists.nodes l) :
    ∃ c, s.clientConnectionPool.get k = some c ∧ c.timestampMS ≤ s.localTicker := by
  obtain ⟨x, hx, hle⟩ := ho.bound k hk
  obtain ⟨c, hc, rfl⟩ := Option.map_eq_some_iff.1 hx
  exact ⟨c, hc, hle⟩

/-- Writing back a connection keeps the order, if it keeps its timestamp, goes to another list, or
    is linked at the tail with the present time. -/
theorem OrderedIn.store (ho : OrderedIn l s)
    (hpool : s'.clientConnectionPool = s.clientConnectionPool)
    (hc : s.clientConnectionPool.get k = some c) (hid : c'.connectionId = k)
    (htick : s'.localTicker = s.localTicker)
    (hlists : s'.timeoutLists = s.timeoutLists ∧ c'.timestampMS = c.timestampMS ∨
      ∃ m, s'.timeoutLists = s.timeoutLists.grabTail m k ∧
        (l = m → c'.timestampMS = s.localTicker)) :
    OrderedIn l (s'.store c') := by
  have hget := get_store_of_pool hpool hc hid
  have hstamp (j : ℕ) (hj : j ≠ k) : (s'.store c').stampOf j = s.stampOf j := by
    rw [stampOf, stampOf, hget, if_neg hj]
  have hnow : s.localTicker ≤ (s'.store c').localTicker := htick.ge
  rcases hlists with ⟨hl, htime⟩ | ⟨m, hl, htime⟩
  · refine ho.of_sublist (by rw [show (s'.store c').timeoutLists = _ from hl]) (fun j _ => ?_) hnow
    by_cases hj : j = k
    · rw [hj, stampOf, stampOf, hget, if_pos rfl, hc, Option.map_some, Option.map_some, htime]
    · exact hstamp j hj
  · have hlists : (s'.store c').timeoutLists = s.timeoutLists.grabTail m k := hl
    by_cases hlm : l = m
    · have hout : Stamped (s'.store c').stampOf (s'.store c').localTicker
          ((s.timeoutLists.nodes l).filter (· ≠ k)) :=
        Stamped.of_sublist ho List.filter_sublist (fun j hj => hstamp j (by
          simpa using List.of_mem_filter hj)) hnow
      subst hlm
      rw [OrderedIn, hlists, Linked.nodes_grabTail_self]
      refine hout.append ?_
      rw [stampOf, hget, if_pos rfl, Option.map_some, htime rfl]
      exact congrArg some htick.symm
    · refine ho.of_sublist ?_ (fun j hj => ?_) hnow
      · rw [hlists, Linked.nodes_grabTail_of_ne hlm]
        exact List.filter_sublist
      rw [hlists, Linked.mem_grabTail] at hj
      split at hj
      · exact absurd hj hlm
      · next hjk => exact hstamp j hjk

/-- Only the turn of the clock changes the time. -/
theorem Turn.localTicker (h : Turn S s x t) (hx : x ≠ .clock) : t.localTicker = s.localTicker := by
  cases h with
  | clock => exact absurd rfl hx
  | accept | refuse | forwardUdp | expire => rfl
  | call k c s' c' hc heffect hstage => exact heffect.localTicker
  | result κ f m future c s' c' hpop hf hc hcf heffect hcf' hstage => exact heffect.localTicker
  | touch k c s' c' l hc hframe => exact hframe.localTicker
  | peerClose k c s' c' hc hmark h =>
    obtain ⟨u, l, heq, -⟩ := onPeerClose_eq_ok hmark h
    cases heq
    rfl
  | flush k c hc =>
    rcases onFlush_eq s c with ⟨-, heq⟩ | ⟨-, heq⟩
    all_goals rw [heq]; rfl
  | close k c hc =>
    rcases closeConnection_eq s c with ⟨-, heq⟩ | ⟨-, -, heq⟩ | ⟨-, -, heq⟩
    all_goals rw [heq]; rfl
  | ready κ f r =>
    unfold setReady
    split
    · rfl
    · split <;> rfl
  | destroy k lists c t hpop hc hready h => exact (destroyConnection_eq_ok h).2.2.2.2.1

/-- The completion of a future leaves the connections and the lists. -/
theorem setReady_leaves (s : ProxyAccessService σ) (κ : FutureKind) (f : ℕ) (r : Option κ.Result) :
    (s.setReady κ f r).clientConnectionPool = s.clientConnectionPool ∧
      (s.setReady κ f r).timeoutLists = s.timeoutLists ∧
      (s.setReady κ f r).localTicker = s.localTicker := by
  unfold setReady
  split
  · exact ⟨rfl, rfl, rfl⟩
  · split <;> exact ⟨rfl, rfl, rfl⟩

/-- A turn writes back at most one connection, at its own place or at the tail of a list, unless it
    accepts, expires or destroys one. -/
inductive Writes (s t : ProxyAccessService σ) : Prop
  | same (hget : ∀ k, t.clientConnectionPool.get k = s.clientConnectionPool.get k)
      (hlists : t.timeoutLists = s.timeoutLists) (hclock : s.localTicker ≤ t.localTicker)
  | accept (k : ℕ) (d : ClientConnection) (hfree : s.clientConnectionPool.get k = none)
      (hget : ∀ j, t.clientConnectionPool.get j =
        if j = k then some d else s.clientConnectionPool.get j)
      (hlists : t.timeoutLists = s.timeoutLists.grabTail .initTimeout k)
      (htime : d.timestampMS = s.localTicker) (hclock : t.localTicker = s.localTicker)
  | store (k : ℕ) (c : ClientConnection) (s' : ProxyAccessService σ) (c' : ClientConnection)
      (ht : t = s'.store c')
      (hpool : s'.clientConnectionPool = s.clientConnectionPool)
      (hc : s.clientConnectionPool.get k = some c) (hid : c'.connectionId = k)
      (hclock : s'.localTicker = s.localTicker)
      (hlists : s'.timeoutLists = s.timeoutLists ∧ c'.timestampMS = c.timestampMS ∨
        ∃ m, s'.timeoutLists = s.timeoutLists.grabTail m k ∧
          (m ≠ .kill → c'.timestampMS = s.localTicker))
  | expire (l : ClientList) (h : l ≠ .kill) (timeoutMS : ℕ)
      (ht : t = deferKillTimeoutConnection s l h timeoutMS)
  | destroy (k : ℕ) (hget : ∀ j, t.clientConnectionPool.get j =
        if j = k then none else s.clientConnectionPool.get j)
      (hlists : ∀ l, t.timeoutLists.nodes l = (s.timeoutLists.nodes l).filter (· ≠ k))
      (hclock : t.localTicker = s.localTicker)

/-- The frame of a call says where the connection is linked. -/
theorem Frame.writes (h : Frame s c s' c') (hc : s.clientConnectionPool.get k = some c)
    (hid : c.connectionId = k) (ht : t = s'.store c') : Writes s t := by
  refine .store k c s' c' ht h.clientConnectionPool hc (h.connectionId.trans hid) h.localTicker ?_
  rcases h.timeoutLists with h | ⟨-, hl, htime⟩
  · exact .inl h
  · exact .inr ⟨.idleTimeout, by rw [← hid]; exact hl, fun _ => htime⟩

theorem Turn.writes (h : Turn S s x t) (hs : Sound s) (hclock : s.localTicker ≤ t.localTicker) :
    Writes s t := by
  cases h with
  | clock | forwardUdp => exact .same (fun _ => rfl) rfl hclock
  | accept remoteAddress localAddress k p hacquire =>
    exact .accept k _ (Storage.get_of_acquire hacquire) (Storage.get_acquire hacquire) rfl rfl rfl
  | refuse y k p hacquire =>
    refine .same (fun j => ?_) rfl le_rfl
    change (p.release k).get j = _
    rw [Storage.get_release, Storage.get_acquire hacquire]
    split
    · next hj => rw [hj, Storage.get_of_acquire hacquire]
    · rfl
  | call k c s' c' hc heffect hstage => exact heffect.toFrame.writes hc (hs.connectionId k c hc) rfl
  | result κ f m future c s' c' hpop hf hc hcf heffect hcf' hstage =>
    have hframe : Frame s c (s'.setFutureManager κ ((s'.futureManager κ).releaseFuture f))
        (c'.setFuture κ none) :=
      ⟨heffect.clientConnectionPool, heffect.localTicker, heffect.destroyed, heffect.connectionId,
        heffect.remoteAddress, heffect.deleteMark, heffect.hasPendingWrites, heffect.type,
        heffect.timeoutLists⟩
    exact hframe.writes hc (hs.connectionId _ c hc) rfl
  | touch k c s' c' l hc hframe => exact hframe.writes hc (hs.connectionId k c hc) rfl
  | peerClose k c s' c' hc hmark h =>
    obtain ⟨u, l, heq, -⟩ := onPeerClose_eq_ok hmark h
    cases heq
    have hid := hs.connectionId k c hc
    exact .store k c _ _ rfl rfl hc hid rfl (.inr ⟨.kill, by rw [← hid]; rfl, fun h => absurd rfl h⟩)
  | flush k c hc =>
    have hid := hs.connectionId k c hc
    rcases onFlush_eq s c with ⟨-, heq⟩ | ⟨-, heq⟩
    · rw [heq]
      exact .store k c _ _ rfl rfl hc hid rfl (.inr ⟨.kill, by rw [← hid]; rfl, fun h => absurd rfl h⟩)
    · rw [heq]
      exact .store k c _ _ rfl rfl hc hid rfl (.inl ⟨rfl, rfl⟩)
  | close k c hc =>
    have hid := hs.connectionId k c hc
    rcases closeConnection_eq s c with ⟨-, heq⟩ | ⟨-, -, heq⟩ | ⟨-, -, heq⟩
    · rw [heq]
      exact .store k c _ _ rfl rfl hc hid rfl (.inl ⟨rfl, rfl⟩)
    · rw [heq]
      exact .store k c _ _ rfl rfl hc hid rfl (.inr ⟨.gracefulKill, by rw [← hid]; rfl, fun _ => rfl⟩)
    · rw [heq]
      exact .store k c _ _ rfl rfl hc hid rfl (.inl ⟨rfl, rfl⟩)
  | ready κ f r =>
    obtain ⟨hpool, hlists, htick⟩ := setReady_leaves s κ f r
    exact .same (fun k => by rw [hpool]) hlists htick.ge
  | expire l h timeoutMS => exact .expire l h timeoutMS rfl
  | destroy k lists c t hpop hc hready h =>
    have hid := hs.connectionId k c hc
    obtain ⟨hpool, -, -, hlists, htick, -⟩ := destroyConnection_eq_ok h
    refine .destroy k (fun j => ?_) (fun l => ?_) htick
    · rw [hpool, Storage.get_release, hid]
    · rw [hlists, hid]
      unfold Linked.popHead at hpop
      split at hpop
      · cases hpop
      · cases hpop
        simp only [Linked.unlink, List.filter_filter, Bool.and_self]

/-- So it keeps a list in order. -/
theorem Writes.orderedIn (h : Writes s t) (ho : OrderedIn l s) (hl : l ≠ .kill) : OrderedIn l t := by
  cases h with
  | same hget hlists hclock =>
    exact ho.of_sublist (by rw [hlists]) (fun k _ => by rw [stampOf, stampOf, hget]) hclock
  | accept k d hfree hget hlists htime hclock =>
    have hnot : k ∉ s.timeoutLists.nodes l := fun hk => by
      obtain ⟨c, hc, -⟩ := ho.live hk
      rw [hfree] at hc
      cases hc
    have hstamp (j : ℕ) (hj : j ∈ s.timeoutLists.nodes l) : t.stampOf j = s.stampOf j := by
      rw [stampOf, stampOf, hget, if_neg (ne_of_mem_of_not_mem hj hnot)]
    have hout : Stamped t.stampOf t.localTicker (s.timeoutLists.nodes l) :=
      Stamped.of_sublist ho (.refl _) hstamp hclock.ge
    have hfilter : (s.timeoutLists.nodes l).filter (· ≠ k) = s.timeoutLists.nodes l :=
      List.filter_eq_self.2 fun j hj => decide_eq_true (ne_of_mem_of_not_mem hj hnot)
    rw [OrderedIn, hlists]
    by_cases hinit : l = .initTimeout
    · subst hinit
      rw [Linked.nodes_grabTail_self, hfilter]
      refine hout.append ?_
      rw [stampOf, hget, if_pos rfl, Option.map_some, htime, hclock]
    · rw [Linked.nodes_grabTail_of_ne hinit, hfilter]
      exact hout
  | store k c s' c' ht hpool hc hid hclock hlists =>
    rw [ht]
    refine ho.store hpool hc hid hclock (hlists.imp_right ?_)
    rintro ⟨m, hm, htime⟩
    exact ⟨m, hm, fun hlm => htime (hlm ▸ hl)⟩
  | expire m h timeoutMS ht =>
    rw [ht]
    refine ho.of_sublist ?_ (fun _ _ => rfl) le_rfl
    simp only [deferKillTimeoutConnection, Linked.expire, if_neg hl]
    split
    · next hlm => rw [hlm]; exact List.dropWhile_sublist _
    · exact List.Sublist.refl _
  | destroy k hget hlists hclock =>
    refine ho.of_sublist (by rw [hlists]; exact List.filter_sublist) (fun j hj => ?_) hclock.ge
    rw [hlists] at hj
    have hjk : j ≠ k := by simpa using List.of_mem_filter hj
    rw [stampOf, stampOf, hget, if_neg hjk]

/-! ## Links -/

/-- A turn links what becomes live, and unlinks what it destroys. -/
theorem Writes.allLinked (h : Writes s t) (ha : AllLinked s) : AllLinked t := by
  intro j
  cases h with
  | same hget hlists hclock => rw [hlists, hget, ha]
  | accept k d hfree hget hlists htime hclock =>
    rw [hlists, hget, Linked.isLinked_grabTail, ha]
    by_cases hj : j = k
    · exact iff_of_true (.inl hj) ⟨d, if_pos hj⟩
    · rw [if_neg hj, or_iff_right hj]
  | store k c s' c' ht hpool hc hid hclock hlists =>
    have hlinked : t.timeoutLists.IsLinked j ↔ s.timeoutLists.IsLinked j := by
      rw [ht]
      change s'.timeoutLists.IsLinked j ↔ _
      rcases hlists with ⟨hl, -⟩ | ⟨m, hl, -⟩
      · rw [hl]
      · rw [hl, Linked.isLinked_grabTail, or_iff_right_of_imp]
        rintro rfl
        exact (ha j).2 ⟨c, hc⟩
    rw [hlinked, ha, ht, get_store_of_pool hpool hc hid]
    by_cases hj : j = k
    · rw [if_pos hj, hj, hc]
      exact iff_of_true ⟨c, rfl⟩ ⟨c', rfl⟩
    · rw [if_neg hj]
  | expire m h timeoutMS ht =>
    rw [ht]
    change (s.timeoutLists.expire _ m .kill h).IsLinked j ↔ ∃ c, s.clientConnectionPool.get j = some c
    rw [Linked.isLinked_expire, ha]
  | destroy k hget hlists hclock =>
    simp only [Linked.IsLinked, hlists, List.mem_filter, hget, decide_eq_true_eq, exists_and_right]
    by_cases hj : j = k
    · rw [if_pos hj]
      refine iff_of_false (fun h => h.2 hj) ?_
      rintro ⟨_, hc⟩
      cases hc
    · rw [if_neg hj, and_iff_left hj]
      exact ha j

/-! ## Passes -/

/-- The pass over a list leaves nothing that is due. -/
theorem freshIn_deferKill (ho : OrderedIn l s) (hl : l ≠ .kill) (timeoutMS : ℕ) :
    FreshIn l timeoutMS s.localTicker (deferKillTimeoutConnection s l hl timeoutMS) := by
  intro k hk c hc
  rw [show (deferKillTimeoutConnection s l hl timeoutMS).timeoutLists.nodes l = _ from if_pos rfl] at hk
  refine ho.lt_of_mem_dropWhile (fun j x hx => ?_) hk (stampOf_of_get (by exact hc))
  obtain ⟨d, hd, rfl⟩ := Option.map_eq_some_iff.1 hx
  rw [hd, decide_eq_true_eq]

/-- The pass over another list makes nothing due. -/
theorem FreshIn.deferKill {timeoutMS nowMS : ℕ} (hf : FreshIn l timeoutMS nowMS s) (hl : l ≠ .kill)
    (h : m ≠ .kill) (otherMS : ℕ) :
    FreshIn l timeoutMS nowMS (deferKillTimeoutConnection s m h otherMS) := by
  intro k hk c hc
  simp only [deferKillTimeoutConnection, Linked.mem_expire] at hk
  split at hk
  · exact absurd hk hl
  · exact hf k hk c hc

/-- The destruction of a connection makes nothing due. -/
theorem Turn.freshIn {timeoutMS nowMS : ℕ} (h : Turn S s (.destroy k) t) (hs : Sound s)
    (hf : FreshIn l timeoutMS nowMS s) : FreshIn l timeoutMS nowMS t := by
  cases h with
  | destroy k lists c t hpop hc hready h =>
    have hid := hs.connectionId k c hc
    obtain ⟨hpool, -, -, hlists, -⟩ := destroyConnection_eq_ok h
    intro j hj d hd
    rw [hlists, hid, Linked.mem_unlink] at hj
    rw [hpool, Storage.get_release, hid, if_neg hj.1] at hd
    exact hf j ((Linked.mem_of_popHead hpop).1 hj.2).2 d hd

/-- The pass over the init list also counts what it finds. -/
theorem deferKillInit_writes {I : ProxyAccessService σ → Prop} (hI : ∀ ⦃u v⦄, Writes u v → I u → I v)
    (hi : I s) : I (deferKillInitTimeoutConnection s) := by
  have hpass : Writes s
      (deferKillTimeoutConnection s .initTimeout (by decide) paClientAuthTimeoutMS) :=
    .expire .initTimeout (by decide) paClientAuthTimeoutMS rfl
  have hcount : Writes (deferKillTimeoutConnection s .initTimeout (by decide) paClientAuthTimeoutMS)
      (deferKillInitTimeoutConnection s) := .same (fun _ => rfl) rfl le_rfl
  exact hI hcount (hI hpass hi)

/-- The passes of a tick leave nothing in a list that is due. -/
theorem deferKillTimeouts_freshIn (ho : OrderedIn l s) (hl : l ≠ .kill) :
    FreshIn l (timeoutOf l) s.localTicker (deferKillTimeouts s) := by
  have ho₁ : OrderedIn l (deferKillInitTimeoutConnection s) :=
    deferKillInit_writes (fun _ _ h ho => h.orderedIn ho hl) ho
  have ho₂ : OrderedIn l (deferKillIdleTimeoutConnection (deferKillInitTimeoutConnection s)) :=
    Writes.orderedIn (.expire .idleTimeout (by decide) clientConnectionIdleTimeoutMS rfl) ho₁ hl
  cases l with
  | kill => exact absurd rfl hl
  | initTimeout =>
    have hf : FreshIn .initTimeout paClientAuthTimeoutMS s.localTicker
        (deferKillInitTimeoutConnection s) :=
      freshIn_deferKill ho hl paClientAuthTimeoutMS
    exact (hf.deferKill hl (m := .idleTimeout) (by decide) _).deferKill hl (by decide) _
  | idleTimeout =>
    have hf := freshIn_deferKill ho₁ hl clientConnectionIdleTimeoutMS
    exact hf.deferKill hl (by decide) _
  | gracefulKill => exact freshIn_deferKill ho₂ hl paGracefulKillTimeoutMS

/-! ## Runs -/

section

variable {I : ProxyAccessService σ → Prop} (hI : ∀ ⦃u v⦄, Writes u v → I u → I v)
include hI

/-- Turns without one of the clock keep the time, and what the writes keep. -/
theorem Turns.writes {L : TurnLabel → Prop} (h : Turns S L s t) (hL : ∀ x, L x → x ≠ .clock)
    (hs : Sound s) (hi : I s) : I t ∧ t.localTicker = s.localTicker := by
  refine h.invariant (I := fun t => I t ∧ t.localTicker = s.localTicker)
    (fun u x v hx hu hi hturn => ?_) hs ⟨hi, rfl⟩
  have htick := hturn.localTicker (hL x hx)
  exact ⟨hI (hturn.writes hu htick.ge) hi.1, htick.trans hi.2⟩

/-- A tick keeps what the writes keep. It also leaves nothing in an ordered list that is due. -/
theorem tick_writes {nowMS : ℕ} (hs : Sound s) (hi : I s) (hforward : s.localTicker ≤ nowMS)
    (h : tick S P s nowMS = .ok t) :
    I t ∧ ∀ l, l ≠ .kill → (∀ u, I u → OrderedIn l u) → FreshIn l (timeoutOf l) nowMS t := by
  obtain ⟨s₁, h₁, h₂⟩ := bind_eq_ok.1 h
  have hs₀ : Sound { s with localTicker := nowMS } := hs.congr (fun _ => rfl) rfl fun _ => rfl
  have hclock : Writes s { s with localTicker := nowMS } := .same (fun _ => rfl) rfl hforward
  obtain ⟨hresults, hready⟩ := processResults_turns hs₀ h₁
  obtain ⟨hi₁, htick⟩ :=
    hresults.writes hI (by rintro x ⟨κ, rfl⟩; simp) hs₀ (hI hclock hi)
  have hexpire (u : ProxyAccessService σ) (l h timeoutMS) (hi : I u) :
      I (deferKillTimeoutConnection u l h timeoutMS) := hI (.expire l h timeoutMS rfl) hi
  have hi₂ : I (deferKillTimeouts s₁) :=
    hexpire _ _ _ _ (hexpire _ _ _ _ (deferKillInit_writes hI hi₁))
  have hs₂ := (deferKillTimeouts_turns (S := S) s₁).sound (hresults.sound hs₀)
  obtain ⟨hkills, -⟩ := executeKillConnections_turns _ hs₂ (by exact hready) h₂
  refine ⟨(hkills.writes hI (by rintro x ⟨k, rfl⟩; simp) hs₂ hi₂).1, fun l hl ho => ?_⟩
  have hf := deferKillTimeouts_freshIn (ho _ hi₁) hl
  rw [show s₁.localTicker = nowMS from htick] at hf
  refine hkills.invariant (fun u x v hx hu hf hturn => ?_) hs₂ hf
  obtain ⟨k, rfl⟩ := hx
  exact hturn.freshIn hu hf

/-- A step keeps what the writes keep, if the clock does not go back. -/
theorem step_writes {e : ProxyEvent} (hs : Sound s) (hi : I s)
    (hforward : ∀ nowMS, e = .tick nowMS → s.localTicker ≤ nowMS) (h : step S P s e = .ok t) :
    I t := by
  have hturns := step_turns hs h
  cases e with
  | tick nowMS => exact (tick_writes hI hs hi (hforward nowMS rfl) h).1
  | onPeerClose k =>
    exact (hturns.writes hI (fun l hl => by rcases hl with rfl | rfl <;> simp) hs hi).1
  | onUdpData i data a =>
    exact (hturns.writes hI (fun l hl => by rcases hl with rfl | ⟨_, rfl⟩ <;> simp) hs hi).1
  | postUdpData i a data =>
    exact (hturns.writes hI (fun l hl => by obtain ⟨_, rfl⟩ := hl; simp) hs hi).1
  | _ => exact (hturns.writes hI (fun l hl => by rw [show l = _ from hl]; simp) hs hi).1

end

theorem timed_init (services : σ) : Timed (init services) where
  linked _ := iff_of_false (fun ⟨_, h⟩ => by cases h) fun ⟨_, h⟩ => by cases h
  ordered _ _ := .nil

theorem Writes.timed ⦃s t : ProxyAccessService σ⦄ (h : Writes s t) (ht : Timed s) : Timed t :=
  ⟨h.allLinked ht.linked, fun _ hl => h.orderedIn (ht.ordered _ hl) hl⟩

/-- Between operations a live connection is in exactly one list, and all lists but the kill list
    are sorted. A tick leaves the kill list empty, and nothing in the others that is due. -/
theorem timersHold_of_exec {services : σ} {es : List ProxyEvent}
    (hes : Along (step S P) TicksOnward (init services) es)
    (h : exec (step S P) (init services) es = .ok s) :
    (∀ k c, s.clientConnectionPool.get k = some c → ∃! l, k ∈ s.timeoutLists.nodes l) ∧
      (∀ l, l ≠ .kill → (s.timeoutLists.nodes l).Pairwise fun i j => ∀ c d,
        s.clientConnectionPool.get i = some c → s.clientConnectionPool.get j = some d →
          c.timestampMS ≤ d.timestampMS) ∧
      ∀ nowMS t, TicksOnward s (.tick nowMS) → step S P s (.tick nowMS) = .ok t →
        t.timeoutLists.nodes .kill = [] ∧
          ∀ l, l ≠ .kill → ∀ k ∈ t.timeoutLists.nodes l, ∃ c,
            t.clientConnectionPool.get k = some c ∧ nowMS - timeoutOf l < c.timestampMS := by
  obtain ⟨hs, ht⟩ : Sound s ∧ Timed s := by
    refine exec_invariant_along (I := fun s => Sound s ∧ Timed s) (fun s e t hs he h => ?_)
      ⟨sound_init services, timed_init services⟩ hes h
    refine ⟨step_sound s e t hs.1 h, step_writes Writes.timed hs.1 hs.2 ?_ h⟩
    rintro nowMS rfl
    exact he.1
  refine ⟨fun k c hc => ((ht.linked k).2 ⟨c, hc⟩).existsUnique, fun l hl => ?_, ?_⟩
  · refine (ht.ordered l hl).sorted.imp fun {i j} hij c d hc hd => ?_
    exact hij _ _ (stampOf_of_get hc) (stampOf_of_get hd)
  · intro nowMS t ⟨hforward, hlate⟩ hstep
    obtain ⟨ht', hf⟩ := tick_writes Writes.timed hs ht hforward hstep
    refine ⟨(tick_turns hs hstep).2.1, fun l hl k hk => ?_⟩
    obtain ⟨c, hc, -⟩ := (ht'.ordered l hl).live hk
    refine ⟨c, hc, ?_⟩
    have hle : timeoutOf l ≤ nowMS := le_trans (by cases l <;> decide) hlate
    rw [← sub64_of_le hle]
    exact hf l hl (fun _ hu => hu.ordered l hl) k hk c hc

/-- Two clients, the first of which is due at the next tick. -/
def twoClients : List ProxyEvent :=
  [.tick 200000, .onNewConnection localAddress localAddress true, .tick 203000,
    .onNewConnection localAddress localAddress true]

theorem timersHold_twoClients : ∃ s t,
    exec (step grantingServices localPlatform) (init ()) twoClients = .ok s ∧
      step grantingServices localPlatform s (.tick 205000) = .ok t ∧
      s.timeoutLists.nodes .initTimeout = [1, 2] ∧ (∃! l, 1 ∈ s.timeoutLists.nodes l) ∧
      t.timeoutLists.nodes .initTimeout = [2] ∧
      ∃ c, t.clientConnectionPool.get 2 = some c ∧ 200000 < c.timestampMS := by
  obtain ⟨t, ht, hp⟩ := exists_ok_of_check
    (x := exec (step grantingServices localPlatform) (init ()) (twoClients ++ [.tick 205000]))
    (p := fun t => t.timeoutLists.nodes .initTimeout = [2]) (by decide +kernel)
  obtain ⟨s, hs, hq⟩ := exists_ok_of_check
    (x := exec (step grantingServices localPlatform) (init ()) twoClients)
    (p := fun s => s.timeoutLists.nodes .initTimeout = [1, 2] ∧
      (s.clientConnectionPool.get 1).isSome ∧ s.localTicker = 203000) (by decide +kernel)
  obtain ⟨hlist, hget, hticker⟩ := of_decide_eq_true hq
  have hlist' := of_decide_eq_true hp
  obtain ⟨c, hc⟩ := Option.isSome_iff_exists.1 hget
  have hstep : step grantingServices localPlatform s (.tick 205000) = .ok t := by
    rwa [exec_snoc _ hs] at ht
  obtain ⟨hone, -, hfresh⟩ := timersHold_of_exec (along_of_check (by decide +kernel)) hs
  have htick : TicksOnward s (.tick 205000) := ⟨by rw [hticker]; decide, by decide⟩
  obtain ⟨d, hd, hlt⟩ := (hfresh 205000 t htick hstep).2 .initTimeout (by decide) 2
    (by rw [hlist']; exact List.mem_singleton_self 2)
  exact ⟨s, t, hs, hstep, hlist, hone 1 c hc, hlist', d, hd, hlt⟩

end

end ProxyPlatform.ProxyAccessService
