import ProxyPlatform.Relay.Turn
import Mathlib.Data.List.TakeWhile

/-!
# Steps of the relay

* `step_turns`: a step from a tidy state is a sequence of turns, with labels that its
  event allows;
* `tidy_of_exec`: every state of a run of the relay is tidy.

In a run, an event comes with the futures of the proxy that are live (`RelayInput`).
-/

namespace ProxyPlatform

/-- The turns that an event is made of. -/
def RelayEvent.Allows : RelayEvent → RelayLabel → Prop
  | .createConnection .., l => l = .quiet ∨ l = .lookup ∨ ∃ k, l = .create k
  | .createUdpChannel .., l => l = .quiet ∨ ∃ u, l = .createUdp u
  | .destroyConnection k, l => l = .quiet ∨ l = .destroy k
  | .destroyUdpChannel u, l => l = .destroyUdp u
  | .keepUdpChannelAlive u, l => l = .keepUdp u
  | .postData .., l | .postUdpData .., l => l = .quiet
  | .onConnected k, l => l = .connected k
  | .onPeerClose k, l => l = .close k
  | .onData k _, l => l = .data k
  | .onUdpData u .., l => l = .dataUdp u
  | .dnsResult .., l => l = .answer
  | .tick _, l => l = .quiet ∨ l = .resolve ∨ (∃ k, l = .create k ∨ l = .idle k ∨ l = .clean k) ∨
    ∃ u, l = .idleUdp u ∨ l = .cleanUdp u

namespace RelayLocalBindingService

variable {R : RelayPlatform} {alive : ℕ → Bool} {s t : RelayLocalBindingService}
  {c : RelayLocalDeviceConnection} {k u : ℕ} {L : RelayLabel → Prop}

/-! ## Calls -/

/-- Writing back a connection as it is leaves the entries. -/
theorem SameEntries.set (hc : s.localConnectionPool.get k = some c) :
    SameEntries (s.localConnectionPool.set k c) s.localConnectionPool := by
  refine ⟨(Storage.lastId_set _ _ _).ge, fun j => ?_⟩
  rw [Storage.get_set hc]
  split
  · next hj => rw [hj, hc]
  · rfl

theorem SameEntries.refl {α : Type*} (p : Storage α) : SameEntries p p := ⟨le_rfl, fun _ => rfl⟩

/-- Acquiring an entry and releasing it leaves the entries. -/
theorem SameEntries.acquire {α : Type*} {p q : Storage α} {y : ℕ → α}
    (h : p.acquire y = some (k, q)) : SameEntries (q.release k) p := by
  refine ⟨?_, fun j => ?_⟩
  · obtain ⟨hk, hlast, -⟩ := Storage.acquire_eq_some h
    change p.lastId ≤ q.lastId
    omega
  · rw [Storage.get_release, Storage.get_acquire h]
    split
    · next hj => rw [hj, Storage.get_of_acquire h]
    · rfl

/-- A turn in which nothing of the relay changes that matters. -/
theorem quiet_turn (nowMS attempts : ℕ) (posts : List RelayPost) :
    RelayTurn alive s .quiet [] { s with
      localTicker := nowMS, attempts := attempts, posts := posts } :=
  .quiet nowMS attempts posts _ _ (.refl _) (.refl _)

/-- Creating a connection fails, or adds a new one. -/
theorem createConnectionFrom_cases (s : RelayLocalBindingService) (i f : ℕ) (a b : NetAddress) :
    (∃ attempts p, SameEntries p s.localConnectionPool ∧ createConnectionFrom R s i a b f =
      ({ s with localConnectionPool := p, attempts := attempts }, .ready none)) ∨
    ∃ attempts y k p, s.localConnectionPool.acquire y = some (k, p) ∧ (y k).IsNew k i f ∧
      createConnectionFrom R s i a b f =
        ({ s with localConnectionPool := p, attempts := attempts }, .pending) := by
  unfold createConnectionFrom
  dsimp only
  split
  · exact .inl ⟨s.attempts, s.localConnectionPool, .refl _, rfl⟩
  · next k p hp =>
    split
    · exact .inr ⟨_, _, k, p, hp, ⟨rfl, rfl, rfl, rfl, rfl⟩, rfl⟩
    · exact .inl ⟨_, _, .acquire hp, rfl⟩

theorem createConnectionToAddress_cases (s : RelayLocalBindingService) (d i f : ℕ) (b : NetAddress) :
    (∃ attempts p, SameEntries p s.localConnectionPool ∧ createConnectionToAddress R s d i b f =
      ({ s with localConnectionPool := p, attempts := attempts }, .ready none)) ∨
    ∃ attempts y k p, s.localConnectionPool.acquire y = some (k, p) ∧ (y k).IsNew k i f ∧
      createConnectionToAddress R s d i b f =
        ({ s with localConnectionPool := p, attempts := attempts }, .pending) := by
  unfold createConnectionToAddress
  split
  · exact .inl ⟨s.attempts, s.localConnectionPool, .refl _, rfl⟩
  · exact createConnectionFrom_cases s i f _ b

theorem createConnection_turns (d i f : ℕ) (target : Target) :
    RelayTurns alive (RelayEvent.createConnection d i target f).Allows s []
      (createConnection R s d i target f).1 := by
  cases target with
  | address b =>
    rcases createConnectionToAddress_cases (R := R) s d i f b with
      ⟨attempts, p, hp, h⟩ | ⟨attempts, y, k, p, hp, hnew, h⟩
    · rw [createConnection, h]
      exact .single (.inl rfl) (.quiet _ _ _ _ _ hp (.refl _))
    · rw [createConnection, h]
      exact .single (.inr (.inr ⟨k, rfl⟩)) (.create attempts y k p i f hp hnew)
  | hostname name port =>
    simp only [createConnection, createConnectionToHostname]
    split
    · exact .refl
    · next j m hm =>
      split
      · exact .single (.inr (.inl rfl)) (.lookup _ _ j m hm)
      · exact .single (.inl rfl) (.refuse _ _ j m hm)

theorem createUdpChannel_turns (d i : ℕ) :
    RelayTurns alive (RelayEvent.createUdpChannel d i).Allows s [] (createUdpChannel R s d i).1 := by
  unfold createUdpChannel
  dsimp only
  split
  · exact .refl
  split
  · exact .refl
  next u p hp =>
  split
  · exact .single (.inr ⟨u, rfl⟩) (.createUdp _ _ u p hp rfl rfl)
  · exact .single (.inl rfl) (.quiet _ _ _ _ _ (.refl _) (.acquire hp))

theorem destroyConnection_turns (hs : Tidy s) (k : ℕ) :
    RelayTurns alive (RelayEvent.destroyConnection k).Allows s [] (destroyConnection s k) := by
  unfold destroyConnection
  split
  · exact .refl
  next c hc =>
  obtain rfl := hs.connectionId hc
  by_cases hmark : c.deleteMark = true
  · have hsame : { c with createConnectionFutureHandle := none } = c := by
      rw [← hs.handle hc hmark]
    dsimp only
    rw [hsame, deferDestroyConnection, if_pos hmark]
    exact .single (.inl rfl) (.quiet _ _ _ _ _ (.set hc) (.refl _))
  · dsimp only
    rw [deferDestroyConnection, if_neg (by exact hmark)]
    have hturn : RelayTurn alive s (.destroy c.connectionId) [] _ :=
      .mark _ _ c _ hc (eq_false_of_ne_true hmark) (.inr (.inl ⟨rfl, rfl⟩))
    refine .single (.inr rfl) ?_
    simpa only [store, Storage.set_set] using hturn

theorem deferDestroyUdpChannel_turn {l : RelayLabel} {x : RelayLocalDeviceUdpChannel} (hs : Tidy s)
    (hx : s.localUdpChannelPool.get u = some x)
    (hl : l = .destroyUdp u ∨ l = .idleUdp u ∧ u ∈ s.udpChannelLists.nodes .idleTimeout ∧
      s.isUdpIdle u = true) : RelayTurn alive s l [] (deferDestroyUdpChannel s x) := by
  have hturn : RelayTurn alive s l [] _ := .markUdp l u x hx hl
  rwa [← hs.udpChannelId hx] at hturn

theorem onConnected_turn (hs : Tidy s) (hc : s.localConnectionPool.get k = some c)
    (hconnected : c.isConnected = false) :
    RelayTurn alive s (.connected k) (onConnected alive s c).2 (onConnected alive s c).1 := by
  unfold onConnected
  dsimp only
  split
  · next hf => exact .orphan k c hc hconnected fun f h => by rw [hf] at h; cases h
  next f hf =>
  split
  · next halive =>
    have hmark : c.deleteMark = false := by
      by_contra hmark
      rw [hs.handle hc (eq_true_of_ne_false hmark)] at hf
      cases hf
    have hturn : RelayTurn alive s (.connected k) _ _ := .connected k c f hc hconnected hmark hf halive
    simpa only [keepAlive, hmark, Bool.false_eq_true, if_false, Option.getD_some, store,
      Storage.set_set, hs.connectionId hc] using hturn
  · next halive =>
    refine .orphan k c hc hconnected fun g hg => ?_
    rw [hf] at hg
    cases hg
    exact eq_false_of_ne_true halive

theorem onPeerClose_turn (hs : Tidy s) (hc : s.localConnectionPool.get k = some c) :
    RelayTurn alive s (.close k) (onPeerClose alive s c).2 (onPeerClose alive s c).1 := by
  obtain rfl := hs.connectionId hc
  unfold onPeerClose deferDestroyConnection
  by_cases hmark : c.deleteMark = true
  · rw [if_pos hmark]
    exact .closed _ c hc hmark
  · rw [if_neg hmark]
    exact .mark _ _ c _ hc (eq_false_of_ne_true hmark) (.inl ⟨rfl, rfl⟩)

theorem onData_turns (hs : Tidy s) (hc : s.localConnectionPool.get k = some c)
    (hconnected : c.isConnected = true) (data : Bytes) :
    RelayTurns alive (RelayEvent.onData k data).Allows s (onData s c data).2 (onData s c data).1 := by
  obtain rfl := hs.connectionId hc
  unfold onData keepAlive
  by_cases hmark : c.deleteMark = true
  · rw [if_pos hmark]
    exact .refl
  · rw [if_neg hmark]
    exact .single rfl (.data _ c data hc hconnected (eq_false_of_ne_true hmark))

/-! ## Ticks -/

theorem RelayTurns.tidy {o : List ProxyEvent} (h : RelayTurns alive L s o t) (hs : Tidy s) : Tidy t :=
  h.invariant (fun _ _ _ _ _ hs ht => ht.tidy hs) hs

/-- What the turns keep of a tidy relay, a sequence of turns keeps. -/
theorem RelayTurns.keeps {o : List ProxyEvent} {I : RelayLocalBindingService → Prop}
    (hI : ∀ s l o t, L l → Tidy s → I s → RelayTurn alive s l o t → I t) (h : RelayTurns alive L s o t)
    (hs : Tidy s) (hi : I s) : Tidy t ∧ I t :=
  h.invariant (I := fun t => Tidy t ∧ I t)
    (fun _ _ _ _ hl hI' ht => ⟨ht.tidy hI'.1, hI _ _ _ _ hl hI'.1 hI'.2 ht⟩) ⟨hs, hi⟩

theorem RelayTurns.dying {o : List ProxyEvent} (h : RelayTurns alive L s o t) (hs : Tidy s)
    (hk : Dying k s) : Dying k t :=
  (h.keeps (fun _ _ _ _ _ hs hk ht => ht.dying hs hk) hs hk).2

theorem RelayTurns.udpDying {o : List ProxyEvent} (h : RelayTurns alive L s o t) (hs : Tidy s)
    (hu : UdpDying u s) : UdpDying u t :=
  (h.keeps (fun _ _ _ _ _ hs hu ht => ht.udpDying hs hu) hs hu).2

/-- What each turn of a loop does to the state and to the proxy, the loop does. -/
theorem foldl_does {f : RelayLocalBindingService × List ProxyEvent → ℕ →
      RelayLocalBindingService × List ProxyEvent}
    {D : RelayLocalBindingService → List ProxyEvent → RelayLocalBindingService → Prop}
    {I : List ℕ → RelayLocalBindingService → Prop} (hrefl : ∀ s, D s [] s)
    (htrans : ∀ {s o t o' u}, D s o t → D t o' u → D s (o ++ o') u)
    (hf : ∀ i is s, I (i :: is) s → ∃ o t, (∀ o₀, f (s, o₀) i = (t, o₀ ++ o)) ∧ D s o t ∧ I is t)
    (is : List ℕ) (hI : I is s) (o₀ : List ProxyEvent) :
    ∃ o t, is.foldl f (s, o₀) = (t, o₀ ++ o) ∧ D s o t ∧ I [] t := by
  induction is generalizing s o₀ with
  | nil => exact ⟨[], s, by rw [List.append_nil]; rfl, hrefl s, hI⟩
  | cons i is ih =>
    obtain ⟨o, t, ht, hone, hI⟩ := hf i is s hI
    obtain ⟨o', u, hu, hrest, hI'⟩ := ih hI (o₀ ++ o)
    exact ⟨o ++ o', u, by rw [List.foldl_cons, ht, hu, List.append_assoc], htrans hone hrest, hI'⟩

variable (alive) in
/-- A loop whose turns are turns of the relay. -/
theorem foldl_turns {f : RelayLocalBindingService × List ProxyEvent → ℕ →
      RelayLocalBindingService × List ProxyEvent}
    {I : List ℕ → RelayLocalBindingService → Prop}
    (hf : ∀ i is s, I (i :: is) s → ∃ o t, (∀ o₀, f (s, o₀) i = (t, o₀ ++ o)) ∧
      RelayTurns alive L s o t ∧ I is t)
    (is : List ℕ) (hI : I is s) (o₀ : List ProxyEvent) :
    ∃ o t, is.foldl f (s, o₀) = (t, o₀ ++ o) ∧ RelayTurns alive L s o t ∧ I [] t :=
  foldl_does (D := RelayTurns alive L) (fun _ => .refl) .trans hf is hI o₀

variable (alive) in
/-- A loop that does nothing to the proxy, and whose turns are turns of the relay. -/
theorem foldl_turns_quiet {f : RelayLocalBindingService → ℕ → RelayLocalBindingService}
    {I : List ℕ → RelayLocalBindingService → Prop}
    (hf : ∀ i is s, I (i :: is) s → RelayTurns alive L s [] (f s i) ∧ I is (f s i))
    (is : List ℕ) (hI : I is s) : RelayTurns alive L s [] (is.foldl f s) ∧ I [] (is.foldl f s) := by
  induction is generalizing s with
  | nil => exact ⟨.refl, hI⟩
  | cons i is ih =>
    obtain ⟨hturns, hI⟩ := hf i is s hI
    obtain ⟨hturns', hI'⟩ := ih hI
    exact ⟨hturns.trans hturns', hI'⟩

section

variable (R alive) (nowMS : ℕ)

/-- The labels of the turns of the first part of a tick. -/
def IsDns (l : RelayLabel) : Prop := l = .resolve ∨ ∃ k, l = .create k

/-- The end of a lookup: the future of the proxy is completed, unless it is gone, or handed over to
    a new connection. -/
theorem processDnsResult_cases {dnsFuture : Future RelayDnsRequest DnsResult} {i : ℕ}
    (hi : s.dnsFutureManager.get i = some dnsFuture) :
    (∃ attempts p, SameEntries p s.localConnectionPool ∧
      ∀ o₀, processDnsResult R alive (s, o₀) i = ({ s with
          attempts := attempts, localConnectionPool := p
          dnsFutureManager := s.dnsFutureManager.releaseFuture i },
        o₀ ++ complete alive (some dnsFuture.context.createConnectionFutureHandle) none)) ∨
    ∃ attempts y k p, alive dnsFuture.context.createConnectionFutureHandle = true ∧
      s.localConnectionPool.acquire y = some (k, p) ∧
      (y k).IsNew k dnsFuture.context.proxySideConnectionId
        dnsFuture.context.createConnectionFutureHandle ∧
      ∀ o₀, processDnsResult R alive (s, o₀) i = ({ s with
        attempts := attempts, localConnectionPool := p
        dnsFutureManager := s.dnsFutureManager.releaseFuture i }, o₀) := by
  cases halive : alive dnsFuture.context.createConnectionFutureHandle with
  | false =>
    refine .inl ⟨s.attempts, _, .refl _, fun o₀ => ?_⟩
    simp [processDnsResult, hi, halive, complete]
  | true =>
    have hnone : createConnectionWithDnsResult R s dnsFuture = (s, .ready none) ∨
        ∃ a, createConnectionWithDnsResult R s dnsFuture =
          createConnectionToAddress R s dnsFuture.context.relaySideDeviceId
            dnsFuture.context.proxySideConnectionId a
            dnsFuture.context.createConnectionFutureHandle := by
      unfold createConnectionWithDnsResult
      split
      · exact .inl rfl
      split
      · exact .inl rfl
      next _ result _ _ device _ =>
      generalize (if device.bindAddress.is4 then result.a4 else result.a6) = a
      dsimp only
      split
      · exact .inl rfl
      · exact .inr ⟨_, rfl⟩
    have hcases := createConnectionToAddress_cases (R := R) s dnsFuture.context.relaySideDeviceId
      dnsFuture.context.proxySideConnectionId dnsFuture.context.createConnectionFutureHandle
    rcases hnone with h | ⟨a, h⟩
    · refine .inl ⟨s.attempts, _, .refl _, fun o₀ => ?_⟩
      simp [processDnsResult, hi, halive, h]
    rcases hcases a with ⟨attempts, p, hp, h'⟩ | ⟨attempts, y, k, p, hp, hnew, h'⟩
    · refine .inl ⟨attempts, p, hp, fun o₀ => ?_⟩
      simp [processDnsResult, hi, halive, h, h']
    · refine .inr ⟨attempts, y, k, p, rfl, hp, hnew, fun o₀ => ?_⟩
      simp [processDnsResult, hi, halive, h, h']

theorem processDnsResult_turns (s : RelayLocalBindingService) (i : ℕ) :
    ∃ o t, (∀ o₀, processDnsResult R alive (s, o₀) i = (t, o₀ ++ o)) ∧ RelayTurns alive IsDns s o t := by
  cases hi : s.dnsFutureManager.get i with
  | none => exact ⟨[], s, fun o₀ => by simp [processDnsResult, hi], .refl⟩
  | some dnsFuture =>
    rcases processDnsResult_cases R alive hi with ⟨attempts, p, hp, h⟩ |
      ⟨attempts, y, k, p, halive, hp, hnew, h⟩
    · exact ⟨_, _, h, .single (.inl rfl) (.fail i dnsFuture attempts p hi hp)⟩
    · refine ⟨[], _, fun o₀ => by rw [h, List.append_nil], ?_⟩
      exact .single (.inr ⟨k, rfl⟩) (.resolve i dnsFuture attempts y k p hi halive hp hnew)

theorem processDnsResults_turns (s : RelayLocalBindingService) :
    RelayTurns alive IsDns s (processDnsResults R alive s).2 (processDnsResults R alive s).1 := by
  obtain ⟨o, t, ht, hdns, -⟩ := foldl_turns alive (L := IsDns)
    (f := processDnsResult R alive) (I := fun _ _ => True)
    (fun i _ s _ => by
      obtain ⟨o, t, h, hturns⟩ := processDnsResult_turns R alive s i
      exact ⟨o, t, h, hturns, trivial⟩)
    s.dnsFutureManager.futureList trivial (s := s) []
  rw [processDnsResults, ht]
  exact hdns

/-- The labels of the turns of the other parts. -/
def IsPass (l : RelayLabel) : Prop :=
  ∃ k, l = .idle k ∨ l = .clean k ∨ l = .idleUdp k ∨ l = .cleanUdp k

theorem IsPass.allowed {l : RelayLabel} (h : IsPass l) : (RelayEvent.tick nowMS).Allows l := by
  obtain ⟨k, h | h | h | h⟩ := h
  · exact .inr (.inr (.inl ⟨k, .inr (.inl h)⟩))
  · exact .inr (.inr (.inl ⟨k, .inr (.inr h)⟩))
  · exact .inr (.inr (.inr ⟨k, .inl h⟩))
  · exact .inr (.inr (.inr ⟨k, .inr h⟩))

/-- The labels of the turns of the parts that leave the unmarked connections alone. -/
def IsCleanup (l : RelayLabel) : Prop :=
  ∃ k, l = .clean k ∨ l = .idleUdp k ∨ l = .cleanUdp k

theorem IsCleanup.isPass {l : RelayLabel} (h : IsCleanup l) : IsPass l := by
  obtain ⟨k, h⟩ := h
  exact ⟨k, .inr h⟩

/-- The connections `is` are in the idle list, and their time is up. -/
structure IdleLeft (is : List ℕ) (s : RelayLocalBindingService) : Prop where
  tidy : Tidy s
  nodup : is.Nodup
  idle : ∀ i ∈ is, i ∈ s.connectionLists.nodes .idleTimeout ∧ s.isIdle i = true

theorem deferDestroyIdleConnection_turns (k : ℕ) (is : List ℕ) (s : RelayLocalBindingService)
    (h : IdleLeft (k :: is) s) :
    ∃ o t, (∀ o₀, deferDestroyIdleConnection alive (s, o₀) k = (t, o₀ ++ o)) ∧
      RelayTurns alive (fun l => l = .idle k) s o t ∧ IdleLeft is t ∧ Dying k t := by
  obtain ⟨hk, hup⟩ := h.idle k List.mem_cons_self
  obtain ⟨c, hc⟩ := h.tidy.filed.live ⟨_, hk⟩
  have hid := h.tidy.connectionId hc
  have hmark : c.deleteMark = false := h.tidy.filed.not_marked hc hk (by simp)
  have hturn : RelayTurn alive s (.idle k) _ _ :=
    .mark _ k c _ hc hmark (.inr (.inr ⟨rfl, hk, hup, rfl⟩))
  have hget := get_store (s := { s with connectionLists := s.connectionLists.grabTail .kill k })
    (d := { c with deleteMark := true, createConnectionFutureHandle := none }) hc hid
  refine ⟨_, _, fun o₀ => ?_, .single rfl hturn,
    ⟨hturn.tidy h.tidy, (List.nodup_cons.1 h.nodup).2, fun i hi => ?_⟩,
    (Storage.le_lastId_of_get hc).trans hturn.lastId.1, fun d hd => ?_⟩
  · simp [deferDestroyIdleConnection, hc, deferDestroyConnection, hmark, hid,
      Linked.grabTail_unlink]
  · obtain ⟨hi₁, hi₂⟩ := h.idle i (List.mem_cons_of_mem _ hi)
    have hik : i ≠ k := by rintro rfl; exact (List.nodup_cons.1 h.nodup).1 hi
    refine ⟨Linked.mem_grabTail.2 (by rwa [if_neg hik]), ?_⟩
    unfold isIdle at hi₂ ⊢
    rw [hget, if_neg hik]
    exact hi₂
  · rw [hget, if_pos rfl] at hd
    cases hd
    rfl

/-- This part of a tick is about the connections whose time is up, and marks all of them. -/
theorem deferDestroyIdleConnections_turns (hs : Tidy s) :
    RelayTurns alive (fun l => ∃ k ∈ (s.connectionLists.nodes .idleTimeout).takeWhile s.isIdle, l = .idle k)
        s (deferDestroyIdleConnections alive s).2 (deferDestroyIdleConnections alive s).1 ∧
      ∀ k ∈ (s.connectionLists.nodes .idleTimeout).takeWhile s.isIdle,
        Dying k (deferDestroyIdleConnections alive s).1 := by
  have hleft : IdleLeft ((s.connectionLists.nodes .idleTimeout).takeWhile s.isIdle) s :=
    ⟨hs, (s.connectionLists.nodup _).sublist (List.takeWhile_sublist _),
      fun i hi => ⟨(List.takeWhile_sublist _).subset hi, List.mem_takeWhile_imp hi⟩⟩
  obtain ⟨o, t, h, hturns, -, -, hdying⟩ := foldl_turns alive
    (L := fun l => ∃ k ∈ (s.connectionLists.nodes .idleTimeout).takeWhile s.isIdle, l = .idle k)
    (I := fun is t => IdleLeft is t ∧
      (∀ k ∈ is, k ∈ (s.connectionLists.nodes .idleTimeout).takeWhile s.isIdle) ∧
      ∀ k ∈ (s.connectionLists.nodes .idleTimeout).takeWhile s.isIdle, k ∈ is ∨ Dying k t)
    (fun k is u hI => by
      obtain ⟨hleft, hdue, hrest⟩ := hI
      obtain ⟨o, t, h, hturns, hleft', hk⟩ :=
        deferDestroyIdleConnection_turns alive k is u hleft
      refine ⟨o, t, h, hturns.mono fun l hl => ⟨k, hdue k List.mem_cons_self, hl⟩, hleft',
        fun j hj => hdue j (List.mem_cons_of_mem _ hj), fun j hj => ?_⟩
      rcases hrest j hj with hj | hj
      · rcases List.mem_cons.1 hj with rfl | hj
        · exact .inr hk
        · exact .inl hj
      · exact .inr (hturns.dying hleft.tidy hj))
    _ ⟨hleft, fun k hk => hk, fun k hk => .inl hk⟩ []
  rw [deferDestroyIdleConnections, h]
  refine ⟨hturns, fun k hk => ?_⟩
  rcases hdying k hk with hk | hk
  · cases hk
  · exact hk

/-- The UDP channels `is` are in the idle list, and their time is up. -/
structure UdpIdleLeft (is : List ℕ) (s : RelayLocalBindingService) : Prop where
  tidy : Tidy s
  nodup : is.Nodup
  idle : ∀ i ∈ is, i ∈ s.udpChannelLists.nodes .idleTimeout ∧ s.isUdpIdle i = true

theorem deferDestroyIdleUdpChannel_turns (u : ℕ) (is : List ℕ) (s : RelayLocalBindingService)
    (h : UdpIdleLeft (u :: is) s) :
    RelayTurns alive IsCleanup s [] (deferDestroyIdleUdpChannel s u) ∧
      UdpIdleLeft is (deferDestroyIdleUdpChannel s u) ∧
      UdpDying u (deferDestroyIdleUdpChannel s u) := by
  obtain ⟨hu, hup⟩ := h.idle u List.mem_cons_self
  obtain ⟨x, hx⟩ := h.tidy.udpFiled.live ⟨_, hu⟩
  have hid := h.tidy.udpChannelId hx
  have hturn : RelayTurn alive s (.idleUdp u) [] _ := .markUdp _ u x hx (.inr ⟨rfl, hu, hup⟩)
  have hget := get_storeUdp (s := { s with udpChannelLists := s.udpChannelLists.grabTail .kill u })
    (y := { x with deleteMark := true }) hx hid
  have heq : deferDestroyIdleUdpChannel s u = ({ s with
      udpChannelLists := s.udpChannelLists.grabTail .kill u }.storeUdp { x with deleteMark := true }) := by
    simp [deferDestroyIdleUdpChannel, hx, deferDestroyUdpChannel, hid, Linked.grabTail_unlink]
  rw [heq]
  refine ⟨.single ⟨u, .inr (.inl rfl)⟩ hturn, ⟨hturn.tidy h.tidy,
    (List.nodup_cons.1 h.nodup).2, fun i hi => ?_⟩,
    (Storage.le_lastId_of_get hx).trans hturn.lastId.2, fun y hy => ?_⟩
  · obtain ⟨hi₁, hi₂⟩ := h.idle i (List.mem_cons_of_mem _ hi)
    have hiu : i ≠ u := by rintro rfl; exact (List.nodup_cons.1 h.nodup).1 hi
    refine ⟨Linked.mem_grabTail.2 (by rwa [if_neg hiu]), ?_⟩
    unfold isUdpIdle at hi₂ ⊢
    rw [hget, if_neg hiu]
    exact hi₂
  · rw [hget, if_pos rfl] at hy
    cases hy
    rfl

/-- After this part of a tick, the UDP channels whose time is up are marked. -/
theorem deferDestroyIdleUdpChannels_turns (hs : Tidy s) :
    RelayTurns alive IsCleanup s [] (deferDestroyIdleUdpChannels s) ∧
      ∀ u ∈ (s.udpChannelLists.nodes .idleTimeout).takeWhile s.isUdpIdle,
        UdpDying u (deferDestroyIdleUdpChannels s) := by
  have hleft : UdpIdleLeft ((s.udpChannelLists.nodes .idleTimeout).takeWhile s.isUdpIdle) s :=
    ⟨hs, (s.udpChannelLists.nodup _).sublist (List.takeWhile_sublist _),
      fun i hi => ⟨(List.takeWhile_sublist _).subset hi, List.mem_takeWhile_imp hi⟩⟩
  obtain ⟨hturns, -, hdying⟩ := foldl_turns_quiet alive
    (L := IsCleanup)
    (I := fun is t => UdpIdleLeft is t ∧
      ∀ u ∈ (s.udpChannelLists.nodes .idleTimeout).takeWhile s.isUdpIdle, u ∈ is ∨ UdpDying u t)
    (fun u is t hI => by
      obtain ⟨hturns, hleft, hu⟩ :=
        deferDestroyIdleUdpChannel_turns alive u is t hI.1
      refine ⟨hturns, hleft, fun j hj => ?_⟩
      rcases hI.2 j hj with hj | hj
      · rcases List.mem_cons.1 hj with rfl | hj
        · exact .inr hu
        · exact .inl hj
      · exact .inr (hturns.udpDying hI.1.tidy hj))
    _ ⟨hleft, fun u hu => .inl hu⟩
  refine ⟨hturns, fun u hu => ?_⟩
  rcases hdying u hu with hu | hu
  · cases hu
  · exact hu

/-- The connections `is` are those of the kill list. -/
structure KillLeft (is : List ℕ) (s : RelayLocalBindingService) : Prop where
  tidy : Tidy s
  nodup : is.Nodup
  kill : ∀ i, i ∈ s.connectionLists.nodes .kill ↔ i ∈ is

theorem cleanConnection_turns (k : ℕ) (is : List ℕ) (s : RelayLocalBindingService)
    (h : KillLeft (k :: is) s) :
    RelayTurns alive IsCleanup s [] (s.cleanConnection k) ∧
      KillLeft is (s.cleanConnection k) := by
  have hk := (h.kill k).2 List.mem_cons_self
  obtain ⟨c, hc⟩ := h.tidy.filed.live ⟨_, hk⟩
  have hturn : RelayTurn alive s (.clean k) [] _ := .clean k c hc hk
  obtain ⟨hnk, hnodup⟩ := List.nodup_cons.1 h.nodup
  refine ⟨.single ⟨k, .inl rfl⟩ hturn, hturn.tidy h.tidy, hnodup,
    fun i => ?_⟩
  change i ∈ (s.connectionLists.unlink k).nodes .kill ↔ i ∈ is
  rw [Linked.mem_unlink, h.kill, List.mem_cons]
  constructor
  · rintro ⟨hik, hi | hi⟩
    · exact absurd hi hik
    · exact hi
  · intro hi
    exact ⟨by rintro rfl; exact hnk hi, .inr hi⟩

/-- After this part of a tick, no connection is left to be destroyed. -/
theorem cleanDyingConnections_turns (hs : Tidy s) :
    RelayTurns alive IsCleanup s [] (cleanDyingConnections s) ∧
      (cleanDyingConnections s).connectionLists.nodes .kill = [] := by
  have hleft : KillLeft (s.connectionLists.nodes .kill) s :=
    ⟨hs, s.connectionLists.nodup _, fun _ => .rfl⟩
  obtain ⟨hturns, hkill⟩ := foldl_turns_quiet alive (cleanConnection_turns alive) _ hleft
  exact ⟨hturns, List.eq_nil_iff_forall_not_mem.2 fun i hi => by cases (hkill.kill i).1 hi⟩

/-- The UDP channels `is` are those of the kill list. -/
structure UdpKillLeft (is : List ℕ) (s : RelayLocalBindingService) : Prop where
  tidy : Tidy s
  nodup : is.Nodup
  kill : ∀ i, i ∈ s.udpChannelLists.nodes .kill ↔ i ∈ is

theorem cleanUdpChannel_turns (u : ℕ) (is : List ℕ) (s : RelayLocalBindingService)
    (h : UdpKillLeft (u :: is) s) :
    RelayTurns alive IsCleanup s [] (s.cleanUdpChannel u) ∧
      UdpKillLeft is (s.cleanUdpChannel u) := by
  have hu := (h.kill u).2 List.mem_cons_self
  obtain ⟨x, hx⟩ := h.tidy.udpFiled.live ⟨_, hu⟩
  have hturn : RelayTurn alive s (.cleanUdp u) [] _ := .cleanUdp u x hx hu
  obtain ⟨hnu, hnodup⟩ := List.nodup_cons.1 h.nodup
  refine ⟨.single ⟨u, .inr (.inr rfl)⟩ hturn, hturn.tidy h.tidy, hnodup, fun i => ?_⟩
  change i ∈ (s.udpChannelLists.unlink u).nodes .kill ↔ i ∈ is
  rw [Linked.mem_unlink, h.kill, List.mem_cons]
  constructor
  · rintro ⟨hiu, hi | hi⟩
    · exact absurd hi hiu
    · exact hi
  · intro hi
    exact ⟨by rintro rfl; exact hnu hi, .inr hi⟩

theorem cleanDyingUdpChannels_turns (hs : Tidy s) :
    RelayTurns alive IsCleanup s [] (cleanDyingUdpChannels s) ∧
      (cleanDyingUdpChannels s).udpChannelLists.nodes .kill = [] := by
  have hleft : UdpKillLeft (s.udpChannelLists.nodes .kill) s :=
    ⟨hs, s.udpChannelLists.nodup _, fun _ => .rfl⟩
  obtain ⟨hturns, hkill⟩ := foldl_turns_quiet alive (cleanUdpChannel_turns alive) _ hleft
  exact ⟨hturns, List.eq_nil_iff_forall_not_mem.2 fun i hi => by cases (hkill.kill i).1 hi⟩

/-- The passes of a tick after the idle connections are marked. -/
theorem cleanup_turns (hs : Tidy s) :
    RelayTurns alive IsCleanup s []
      (cleanDyingUdpChannels (cleanDyingConnections (deferDestroyIdleUdpChannels s))) := by
  have h₁ := (deferDestroyIdleUdpChannels_turns alive hs).1
  have h₂ := h₁.trans (cleanDyingConnections_turns alive (h₁.tidy hs)).1
  have h₃ := h₂.trans (cleanDyingUdpChannels_turns alive (h₂.tidy hs)).1
  simpa only [List.append_nil] using h₃

/-- The passes of a tick, after the lookups. -/
theorem passes_turns (hs : Tidy s) :
    RelayTurns alive IsPass s (deferDestroyIdleConnections alive s).2
      (cleanDyingUdpChannels (cleanDyingConnections
        (deferDestroyIdleUdpChannels (deferDestroyIdleConnections alive s).1))) := by
  have h₁ : RelayTurns alive IsPass s _ _ := (deferDestroyIdleConnections_turns alive hs).1.mono
    fun l ⟨k, _, hl⟩ => ⟨k, .inl hl⟩
  have h₂ := h₁.trans ((cleanup_turns alive (h₁.tidy hs)).mono fun _ => IsCleanup.isPass)
  simpa only [List.append_nil] using h₂

/-- The phases of a tick. -/
theorem tick_eq (s : RelayLocalBindingService) :
    ∃ o t, RelayTurns alive IsDns { s with localTicker := nowMS } o t ∧
      tick R alive s nowMS = (cleanDyingUdpChannels (cleanDyingConnections
          (deferDestroyIdleUdpChannels (deferDestroyIdleConnections alive t).1)),
        o ++ (deferDestroyIdleConnections alive t).2) :=
  ⟨_, _, processDnsResults_turns R alive _, rfl⟩

theorem tick_turns (hs : Tidy s) :
    RelayTurns alive (RelayEvent.tick nowMS).Allows s (tick R alive s nowMS).2
      (tick R alive s nowMS).1 := by
  have hclock : RelayTurns alive (RelayEvent.tick nowMS).Allows s [] { s with localTicker := nowMS } :=
    .single (.inl rfl) (.quiet nowMS s.attempts s.posts _ _ (.refl _) (.refl _))
  obtain ⟨o, t, hdns, htick⟩ := tick_eq R alive nowMS s
  have h₁ := hclock.trans (hdns.mono (M := (RelayEvent.tick nowMS).Allows) fun l hl => by
    rcases hl with rfl | ⟨k, rfl⟩
    · exact .inr (.inl rfl)
    · exact .inr (.inr (.inl ⟨k, .inl rfl⟩)))
  have h₂ := h₁.trans ((passes_turns alive (h₁.tidy hs)).mono fun _ => IsPass.allowed nowMS)
  rw [htick]
  simpa only [List.nil_append] using h₂

end

/-! ## Steps -/

variable (R alive) in
/-- A step from a tidy state is a sequence of turns. -/
theorem step_turns (hs : Tidy s) (e : RelayEvent) :
    RelayTurns alive e.Allows s (step R alive s e).2 (step R alive s e).1 := by
  cases e with
  | createConnection d i target f => exact createConnection_turns d i f target
  | createUdpChannel d i => exact createUdpChannel_turns d i
  | destroyConnection k => exact destroyConnection_turns hs k
  | destroyUdpChannel u =>
    simp only [step, destroyUdpChannel]
    split
    · exact .refl
    · next x hx => exact .single rfl (deferDestroyUdpChannel_turn hs hx (.inl rfl))
  | keepUdpChannelAlive u =>
    simp only [step, keepUdpChannelAlive]
    split
    · exact .refl
    next x hx =>
    unfold keepUdpAlive
    split
    · exact .refl
    · next hmark =>
      have hturn : RelayTurn alive s (.keepUdp u) [] _ := .keepUdp u x hx (eq_false_of_ne_true hmark)
      exact .single rfl (by rwa [← hs.udpChannelId hx] at hturn ⊢)
  | postData k data =>
    simp only [step, postData]
    split
    · exact .single rfl (quiet_turn _ _ _)
    · split
      · exact .single rfl (quiet_turn _ _ _)
      · exact .single rfl (quiet_turn _ _ _)
  | postUdpData u a data =>
    simp only [step, postUdpData]
    split
    · exact .single rfl (quiet_turn _ _ _)
    · split
      · exact .single rfl (quiet_turn _ _ _)
      · exact .single rfl (quiet_turn _ _ _)
  | onConnected k =>
    simp only [step, onConnection]
    split
    · exact .refl
    next c hc =>
    split
    · exact .refl
    · next h => exact .single rfl (onConnected_turn hs hc (eq_false_of_ne_true h))
  | onPeerClose k =>
    simp only [step, onConnection]
    split
    · exact .refl
    · next c hc => exact .single rfl (onPeerClose_turn hs hc)
  | onData k data =>
    simp only [step, onConnection]
    split
    · exact .refl
    next c hc =>
    split
    · next h => exact onData_turns hs hc h data
    · exact .refl
  | onUdpData u data a =>
    simp only [step]
    split
    · exact .refl
    · next x hx => exact .single rfl (.dataUdp u x data a hx)
  | dnsResult i result =>
    simp only [step]
    split
    · exact .refl
    next dnsFuture hi =>
    split
    · exact .refl
    · exact .single rfl (.answer i dnsFuture result hi)
  | tick nowMS => exact tick_turns R alive nowMS hs

theorem tidy_init (devices : List RelayLocalDevice) : Tidy (init devices) where
  connectionId _ _ h := by cases h
  filed := .empty _
  handle _ _ h := by cases h
  udpChannelId _ _ h := by cases h
  udpFiled := .empty _

/-- An event, with the futures of the proxy that are live then. -/
structure RelayInput where
  alive : ℕ → Bool
  event : RelayEvent

/-- A step of a run of the relay. -/
def next (R : RelayPlatform) (s : RelayLocalBindingService) (x : RelayInput) :
    Except Fault RelayLocalBindingService :=
  .ok (step R x.alive s x.event).1

theorem tidy_of_exec {devices : List RelayLocalDevice} {es : List RelayInput}
    (h : exec (next R) (init devices) es = .ok s) : Tidy s := by
  refine exec_invariant (I := Tidy) (fun s e t hs ht => ?_) (tidy_init devices) h
  cases ht
  exact (step_turns R e.alive hs e.event).tidy hs

end RelayLocalBindingService

end ProxyPlatform
