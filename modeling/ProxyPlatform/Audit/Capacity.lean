import ProxyPlatform.Audit.Servers

/-!
# Room for the connections to the audit collectors

`TcpReporter` is made for as many servers as a list may have, and `AddServer` returns 0 when
that many are registered; then `OnServerListUpdated` ends the process. While the lists are
merged servers of both are registered, so that a server is added before others are removed
whenever its id is less.

* `Fits`: what the two lists have to be like; `fits_iff_of_ordered`: in other words, if they are
  ordered by their ids;
* `Round.fits_iff`: no round changes whether what is left of the lists fits;
* `accommodates_iff`: the merge is through, with no more servers registered at any time than the
  pool has room for, exactly when the lists fit.
-/

namespace ProxyPlatform

/-! ## The pool -/

namespace TcpClientPool

/-- The pool is made for `capacity` servers: `AddServer` fails when there are so many, and else gives
    an id that is not in use. -/
structure Limited (capacity : ℕ) (acquireId : TcpClientPool → ℕ) : Prop where
  full : ∀ pool, acquireId pool = 0 ↔ capacity ≤ pool.servers.length
  fresh : ∀ pool, acquireId pool ≠ 0 → ∀ address, (acquireId pool, address) ∉ pool.servers

/-- The servers registered after a call, of those registered before. -/
def registeredAfter (servers : List (ℕ × NetAddress)) :
    TcpClientPoolCall → List (ℕ × NetAddress)
  | .addServer address id => if id = 0 then servers else (id, address) :: servers
  | .removeServer id => servers.filter fun server => server.1 ≠ id

/-- The servers registered after the calls. -/
def registeredBy (calls : List TcpClientPoolCall) : List (ℕ × NetAddress) :=
  calls.foldl registeredAfter []

/-- The servers are those of the calls, each with an id of its own, and never too many. -/
structure Sound (capacity : ℕ) (pool : TcpClientPool) : Prop where
  nodup : (pool.servers.map Prod.fst).Nodup
  servers : pool.servers = registeredBy pool.calls
  bounded : ∀ pre, pre <+: pool.calls → (registeredBy pre).length ≤ capacity

variable {capacity : ℕ} {acquireId : TcpClientPool → ℕ} {pool : TcpClientPool}

theorem sound_empty (capacity : ℕ) : Sound capacity {} where
  nodup := List.nodup_nil
  servers := rfl
  bounded pre hpre := by
    rw [List.prefix_nil.1 hpre]
    exact Nat.zero_le _

theorem Sound.length_le (h : Sound capacity pool) : pool.servers.length ≤ capacity := by
  rw [h.servers]
  exact h.bounded _ List.prefix_rfl

/-- One more call, after which there are not too many. -/
theorem Sound.call {t : TcpClientPool} (h : Sound capacity pool) (call : TcpClientPoolCall)
    (hcalls : t.calls = pool.calls ++ [call]) (hservers : t.servers = registeredAfter pool.servers call)
    (hnodup : (t.servers.map Prod.fst).Nodup) (hle : t.servers.length ≤ capacity) :
    Sound capacity t := by
  have ht : t.servers = registeredBy t.calls := by
    rw [hservers, h.servers, hcalls, registeredBy, registeredBy, List.foldl_append]
    rfl
  refine ⟨hnodup, ht, fun pre hpre => ?_⟩
  rw [hcalls, List.prefix_concat_iff] at hpre
  rcases hpre with rfl | hpre
  · rw [← List.concat_eq_append, List.concat_eq_append, ← hcalls, ← ht]
    exact hle
  · exact h.bounded pre hpre

theorem Sound.addServer (h : Sound capacity pool) (hpool : Limited capacity acquireId)
    (address : NetAddress) : Sound capacity (pool.addServer acquireId address).2 := by
  refine h.call (.addServer address (acquireId pool)) rfl rfl ?_ ?_
  · by_cases hid : acquireId pool = 0
    · simpa only [TcpClientPool.addServer, if_pos hid] using h.nodup
    · simp only [TcpClientPool.addServer, if_neg hid, List.map_cons, List.nodup_cons]
      refine ⟨fun hmem => ?_, h.nodup⟩
      obtain ⟨⟨id, address'⟩, hx, hxid⟩ := List.mem_map.1 hmem
      exact hpool.fresh pool hid address' (hxid ▸ hx)
  · by_cases hid : acquireId pool = 0
    · simpa only [TcpClientPool.addServer, if_pos hid] using h.length_le
    · simp only [TcpClientPool.addServer, if_neg hid, List.length_cons]
      exact Nat.not_le.1 ((hpool.full pool).not.1 hid)

theorem Sound.removeServer (h : Sound capacity pool) (id : ℕ) :
    Sound capacity (pool.removeServer id) := by
  refine h.call (.removeServer id) rfl rfl ?_ ?_
  · exact h.nodup.sublist (List.filter_sublist.map _)
  · exact (List.length_filter_le _ _).trans h.length_le

/-- A server that is removed leaves one less. -/
theorem length_removeServer {address : NetAddress} {id : ℕ}
    (hnodup : (pool.servers.map Prod.fst).Nodup) (h : (id, address) ∈ pool.servers) :
    (pool.removeServer id).servers.length + 1 = pool.servers.length := by
  rw [removeServer]
  dsimp only
  generalize pool.servers = servers at *
  induction servers with
  | nil => cases h
  | cons server servers ih =>
    rw [List.map_cons, List.nodup_cons] at hnodup
    rcases List.mem_cons.1 h with rfl | h
    · -- No other server has its id.
      rw [List.filter_cons_of_neg (by simp), List.filter_eq_self.2, List.length_cons]
      intro x hx
      exact decide_eq_true fun hid => hnodup.1 (List.mem_map.2 ⟨x, hx, hid⟩)
    · have hne : server.1 ≠ id := fun hid => hnodup.1 (hid ▸ List.mem_map_of_mem (f := Prod.fst) h)
      rw [List.filter_cons_of_pos (by simpa using hne), List.length_cons, ih hnodup.2 h,
        List.length_cons]

end TcpClientPool

/-! ## The lists -/

/-- There is room for `capacity` servers when the lists `old` and `new` are merged, where the ones
    passed of the new list are already registered: for each server of the new list that the merge
    does not find in the old one, there is room beside those of the old list that are not passed. -/
def Fits (capacity : ℕ) : List ServerInfo → List ServerInfo → ℕ → Prop
  | _, [], _ => True
  | old, server :: new, passed =>
    match old.dropWhile fun o => o.serverId < server.serverId with
    | [] => passed < capacity ∧ Fits capacity [] new (passed + 1)
    | o :: rest =>
      if o.serverId = server.serverId then Fits capacity rest new (passed + 1)
      else (o :: rest).length + passed < capacity ∧ Fits capacity (o :: rest) new (passed + 1)

section

variable {capacity passed : ℕ} {o server : ServerInfo} {old new : List ServerInfo}

theorem fits_cons_of_lt (h : o.serverId < server.serverId) :
    Fits capacity (o :: old) (server :: new) passed ↔ Fits capacity old (server :: new) passed := by
  rw [Fits, Fits, List.dropWhile_cons_of_pos (by simpa using h)]

theorem fits_cons_of_eq (h : o.serverId = server.serverId) :
    Fits capacity (o :: old) (server :: new) passed ↔ Fits capacity old new (passed + 1) := by
  rw [Fits, List.dropWhile_cons_of_neg (by simp [h])]
  simp only [h, if_true]

theorem fits_cons_of_gt (h : server.serverId < o.serverId) :
    Fits capacity (o :: old) (server :: new) passed ↔
      (o :: old).length + passed < capacity ∧ Fits capacity (o :: old) new (passed + 1) := by
  rw [Fits, List.dropWhile_cons_of_neg (by simpa using h.le)]
  simp only [h.ne', if_false]

theorem fits_nil_cons :
    Fits capacity [] (server :: new) passed ↔
      passed < capacity ∧ Fits capacity [] new (passed + 1) := by
  rw [Fits, List.dropWhile_nil]

variable (capacity passed) in
/-- There is room for a server of the new list, at the position `j`, beside the servers of the old list
    with greater ids; or it is in the old list, too. -/
def HasRoom (old : List ServerInfo) (j : ℕ) (server : ServerInfo) : Prop :=
  (∀ o ∈ old, o.serverId ≠ server.serverId) →
    old.countP (fun o => server.serverId < o.serverId) + (passed + j) < capacity

/-- A server with a lesser id is not in the way. -/
theorem hasRoom_cons_of_lt {j : ℕ} (h : o.serverId < server.serverId) :
    HasRoom capacity passed (o :: old) j server ↔ HasRoom capacity passed old j server := by
  rw [HasRoom, HasRoom, List.forall_mem_cons, and_iff_right h.ne,
    List.countP_cons_of_neg (by simpa using h.le)]

/-- Lists that are ordered by their ids fit when there is room for each server of the new one. -/
theorem fits_iff_of_ordered (hold : old.Pairwise fun o o' => o.serverId < o'.serverId)
    (hnew : new.Pairwise fun b b' => b.serverId < b'.serverId) :
    Fits capacity old new passed ↔
      ∀ j server, new[j]? = some server → HasRoom capacity passed old j server := by
  induction new generalizing old passed with
  | nil => simp [Fits]
  | cons b new ih =>
    obtain ⟨hb, hnew⟩ := List.pairwise_cons.1 hnew
    have hsplit : ∀ P : ℕ → ServerInfo → Prop, (∀ j server, (b :: new)[j]? = some server → P j server) ↔
        P 0 b ∧ ∀ j server, new[j]? = some server → P (j + 1) server := by
      refine fun P => ⟨fun h => ⟨h 0 b rfl, fun j server hj => h (j + 1) server hj⟩, ?_⟩
      rintro ⟨hzero, hsucc⟩ (_ | j) server hj
      · exact Option.some.inj hj ▸ hzero
      · exact hsucc j server hj
    have hnext : ∀ l : List ServerInfo, (∀ j server, new[j]? = some server →
        HasRoom capacity passed l (j + 1) server) ↔
        ∀ j server, new[j]? = some server → HasRoom capacity (passed + 1) l j server := by
      refine fun l => forall₃_congr fun j server _ => ?_
      rw [HasRoom, HasRoom, Nat.add_right_comm, Nat.add_assoc]
    induction old with
    | nil =>
      rw [fits_nil_cons, ih List.Pairwise.nil hnew, hsplit, hnext]
      exact and_congr_left fun _ => by simp [HasRoom]
    | cons o old ihold =>
      obtain ⟨ho, hold⟩ := List.pairwise_cons.1 hold
      rcases lt_trichotomy o.serverId b.serverId with hless | heq | hgreater
      · -- The server of the old list is less than all that are left of the new one.
        refine (fits_cons_of_lt hless).trans ((ihold hold).trans ?_)
        rw [hsplit, hsplit, hasRoom_cons_of_lt hless]
        refine and_congr_right fun _ => forall₃_congr fun j server hj => ?_
        exact (hasRoom_cons_of_lt (hless.trans (hb server (List.mem_of_getElem? hj)))).symm
      · have hfound : HasRoom capacity passed (o :: old) 0 b := fun hnone =>
          absurd heq (hnone o List.mem_cons_self)
        rw [fits_cons_of_eq heq, ih hold hnew, hsplit, ← hnext, and_iff_right hfound]
        refine forall₃_congr fun j server hj => ?_
        exact (hasRoom_cons_of_lt (heq.trans_lt (hb server (List.mem_of_getElem? hj)))).symm
      · have hall : ∀ o' ∈ o :: old, b.serverId < o'.serverId := by
          intro o' ho'
          rcases List.mem_cons.1 ho' with rfl | ho'
          · exact hgreater
          · exact hgreater.trans (ho o' ho')
        have hcount : (o :: old).countP (fun o => b.serverId < o.serverId) = (o :: old).length :=
          List.countP_eq_length.2 fun o' ho' => decide_eq_true (hall o' ho')
        rw [fits_cons_of_gt hgreater, ih (List.pairwise_cons.2 ⟨ho, hold⟩) hnew, hsplit, ← hnext,
          HasRoom, hcount, Nat.add_zero]
        exact and_congr_left fun _ => (imp_iff_right fun o' ho' => (hall o' ho').ne').symm

end

/-- The servers of a list from the `i`-th on. -/
def serversFrom (list : ℕ → ServerInfo) (i size : ℕ) : List ServerInfo :=
  (List.range' i (size - i)).map list

theorem serversFrom_self (list : ℕ → ServerInfo) (i : ℕ) : serversFrom list i i = [] := by
  rw [serversFrom, Nat.sub_self]
  rfl

theorem serversFrom_of_lt {list : ℕ → ServerInfo} {i size : ℕ} (h : i < size) :
    serversFrom list i size = list i :: serversFrom list (i + 1) size := by
  rw [serversFrom, serversFrom, show size - i = size - (i + 1) + 1 by omega, List.range'_succ,
    List.map_cons]

theorem length_serversFrom (list : ℕ → ServerInfo) (i size : ℕ) :
    (serversFrom list i size).length = size - i := by
  rw [serversFrom, List.length_map, List.length_range']

/-! ## The rounds -/

namespace MergeState

open TcpClientPool

variable {capacity : ℕ} {acquireId : TcpClientPool → ℕ} {s : AuditConnections}
  {newList : ℕ → ServerInfo} {newSize : ℕ} {m t : MergeState}

variable (capacity s m) in
/-- The servers registered are counted by the cursors. -/
structure Counted : Prop where
  sound : Sound capacity m.tcpReporter
  length : m.tcpReporter.servers.length = s.size - m.oldIndex + m.newIndex

variable (capacity s newList newSize m) in
/-- What is left of the lists fits. -/
def FitsOn : Prop :=
  Fits capacity (serversFrom s.container m.oldIndex s.size) (serversFrom newList m.newIndex newSize)
    m.newIndex

theorem Counted.removed (h : Counted capacity s m) (hm : Merging s newList newSize m)
    (hlt : m.oldIndex < s.size) : Counted capacity s (m.removed s) := by
  refine ⟨h.sound.removeServer _, ?_⟩
  have hmem := (hm.registers.registered (s.connectionIdList m.oldIndex) _).2
    (.inl ⟨m.oldIndex, le_rfl, hlt, rfl, rfl⟩)
  have hone := length_removeServer h.sound.nodup hmem
  have hlength := h.length
  simp only [MergeState.removed]
  omega

theorem Counted.added (h : Counted capacity s m) (hpool : Limited capacity acquireId)
    (hid : acquireId m.tcpReporter ≠ 0) : Counted capacity s (m.added acquireId newList) := by
  refine ⟨h.sound.addServer hpool _, ?_⟩
  simp only [MergeState.added, TcpClientPool.addServer, if_neg hid, List.length_cons, h.length]
  omega

/-- A round keeps the count. -/
theorem Round.counted (hround : Round acquireId s newList newSize m t) (h : Counted capacity s m)
    (hm : Merging s newList newSize m) (hpool : Limited capacity acquireId) :
    Counted capacity s t := by
  cases hround with
  | removed hgone => exact h.removed hm hgone.1
  | added hisNew hid => exact h.added hpool hid
  | kept hlt hlt' heq =>
    refine ⟨h.sound, ?_⟩
    simp only [MergeState.kept, h.length]
    omega
  | moved hmoved hid => exact (h.removed hm hmoved.1).added hpool hid

variable (acquireId) in
/-- Where a server is added, what is left of the lists fits when there is room for it, and what is
    left then fits. -/
theorem fitsOn_of_isNew (h : IsNew s newList newSize m) :
    FitsOn capacity s newList newSize m ↔ s.size - m.oldIndex + m.newIndex < capacity ∧
      FitsOn capacity s newList newSize (m.added acquireId newList) := by
  obtain ⟨hlt', hend | ⟨hlt, hless⟩⟩ := h
  · rw [FitsOn, FitsOn, serversFrom_of_lt hlt', hend]
    simp only [MergeState.added, hend, serversFrom_self, fits_nil_cons, Nat.sub_self, Nat.zero_add]
  · have hlength := length_serversFrom s.container m.oldIndex s.size
    rw [FitsOn, FitsOn, serversFrom_of_lt hlt'] at *
    rw [serversFrom_of_lt hlt] at hlength
    rw [serversFrom_of_lt hlt, fits_cons_of_gt hless, hlength, ← serversFrom_of_lt hlt]
    rfl

/-- No round changes whether what is left of the lists fits. -/
theorem Round.fits_iff (hround : Round acquireId s newList newSize m t) (h : Counted capacity s m)
    (hpool : Limited capacity acquireId) :
    FitsOn capacity s newList newSize m ↔ FitsOn capacity s newList newSize t := by
  cases hround with
  | removed hgone =>
    obtain ⟨hlt, hend | ⟨hlt', hless⟩⟩ := hgone
    · simp only [FitsOn, MergeState.removed, hend, serversFrom_self, Fits]
    · rw [FitsOn, serversFrom_of_lt hlt, serversFrom_of_lt hlt', fits_cons_of_lt hless,
        ← serversFrom_of_lt hlt']
      rfl
  | added hisNew hid =>
    rw [fitsOn_of_isNew acquireId hisNew]
    refine and_iff_right ?_
    rw [← h.length]
    exact Nat.not_le.1 ((hpool.full _).not.1 hid)
  | kept hlt hlt' heq =>
    rw [FitsOn, serversFrom_of_lt hlt, serversFrom_of_lt hlt',
      fits_cons_of_eq (congrArg ServerInfo.serverId heq)]
    rfl
  | moved hmoved hid =>
    obtain ⟨hlt, hlt', hsame, -⟩ := hmoved
    rw [FitsOn, serversFrom_of_lt hlt, serversFrom_of_lt hlt', fits_cons_of_eq hsame]
    rfl

/-- Where the pool does not take a server, the lists do not fit. -/
theorem IsStuck.not_fits (hstuck : IsStuck acquireId s newList newSize m)
    (h : Counted capacity s m) (hm : Merging s newList newSize m)
    (hpool : Limited capacity acquireId) : ¬FitsOn capacity s newList newSize m := by
  rcases hstuck with ⟨hisNew, hid⟩ | ⟨hmoved, hid⟩
  · rw [fitsOn_of_isNew acquireId hisNew, ← h.length]
    exact fun hfits => Nat.not_lt.2 ((hpool.full _).1 hid) hfits.1
  · -- There is room again for the server that changed its address.
    have hremoved := h.removed hm hmoved.1
    have hfull := (hpool.full _).1 hid
    have hlength := h.sound.length_le
    rw [h.length] at hlength
    rw [hremoved.length] at hfull
    have hlt := hmoved.1
    simp only [MergeState.removed] at hfull
    omega

theorem Rounds.counted (hrounds : Rounds acquireId s newList newSize m t)
    (h : Counted capacity s m) (hm : Merging s newList newSize m) (hs : Distinct s)
    (hpool : Limited capacity acquireId) :
    Counted capacity s t ∧ (FitsOn capacity s newList newSize m ↔ FitsOn capacity s newList newSize t) := by
  induction hrounds with
  | refl => exact ⟨h, Iff.rfl⟩
  | tail hrounds hround ih =>
    have hmid := hm.rounds hs hpool.fresh hrounds
    exact ⟨hround.counted ih.1 hmid hpool, ih.2.trans (hround.fits_iff ih.1 hpool)⟩

end MergeState

/-! ## Runs -/

namespace AuditConnections

open MergeState TcpClientPool

variable {capacity : ℕ} {acquireId : TcpClientPool → ℕ} {s t : AuditConnections}
  {call : ServerListCall}

variable (acquireId s call) in
/-- The call is through, and at no time were more servers registered than there is room for. -/
def Accommodates (capacity : ℕ) : Prop :=
  ∃ t, onServerListUpdated acquireId s call = .ok t ∧
    ∀ pre, pre <+: t.tcpReporter.calls → (registeredBy pre).length ≤ capacity

variable (capacity s) in
/-- The connections are those of the list, and as many. -/
structure Held : Prop where
  mirrors : Mirrors s
  sound : Sound capacity s.tcpReporter
  length : s.tcpReporter.servers.length = s.size

theorem held_init (capacity : ℕ) : Held capacity {} where
  mirrors := mirrors_init
  sound := sound_empty capacity
  length := rfl

theorem Held.counted (h : Held capacity s) : Counted capacity s { tcpReporter := s.tcpReporter } where
  sound := h.sound
  length := by simp [h.length]

/-- A call is through when the lists fit, and else it ends the process. -/
theorem Held.update (h : Held capacity s) (hpool : Limited capacity acquireId)
    (hgroup : call.serverGroup = .auditCollector)
    (hsize : call.serverListSize ≤ maxSmallServerListSize) :
    (∃ t, onServerListUpdated acquireId s call = .ok t ∧ Held capacity t ∧
        Fits capacity (serversFrom s.container 0 s.size)
          (serversFrom call.serverList 0 call.serverListSize) 0) ∨
      onServerListUpdated acquireId s call = .error .runtimeAssert ∧
        ¬Fits capacity (serversFrom s.container 0 s.size)
          (serversFrom call.serverList 0 call.serverListSize) 0 := by
  have hmerging := h.mirrors.merging call.serverList call.serverListSize
  rcases h.mirrors.merges_or_stuck hpool.fresh hgroup hsize with
    ⟨t, m, ht, hmerges, hrounds, hold, hnew, hreporter⟩ | ⟨hfail, m, hrounds, hstuck⟩
  · obtain ⟨hcounted, hfits⟩ := hrounds.counted h.counted hmerging h.mirrors.distinct hpool
    refine .inl ⟨t, ht, ⟨hmerges.mirrors, hreporter ▸ hcounted.sound, ?_⟩, hfits.2 ?_⟩
    · rw [hreporter, hcounted.length, hmerges.size, hold, hnew, Nat.sub_self, Nat.zero_add]
    · -- Nothing is left of the lists at the end.
      rw [FitsOn, hnew, serversFrom_self]
      simp only [Fits]
  · obtain ⟨hcounted, hfits⟩ := hrounds.counted h.counted hmerging h.mirrors.distinct hpool
    refine .inr ⟨hfail, fun hall => ?_⟩
    exact hstuck.not_fits hcounted (hmerging.rounds h.mirrors.distinct hpool.fresh hrounds) hpool
      (hfits.1 hall)

theorem held_of_exec {calls : List ServerListCall} (hpool : Limited capacity acquireId)
    (hsize : ∀ call ∈ calls, call.serverListSize ≤ maxSmallServerListSize)
    (hrun : exec (onServerListUpdated acquireId) {} calls = .ok s) : Held capacity s := by
  induction calls using List.reverseRecOn generalizing s with
  | nil =>
    cases hrun
    exact held_init capacity
  | append_singleton calls call ih =>
    obtain ⟨u, hu, hcall⟩ := exec_append_eq_ok.1 hrun
    obtain ⟨v, hv, hnil⟩ := exec_cons_eq_ok.1 hcall
    cases hnil
    have hheld := ih (fun c hc => hsize c (List.mem_append_left _ hc)) hu
    rcases hgroup : call.serverGroup
    · rw [onServerListUpdated, hgroup] at hv
      cases hv
      exact hheld
    · rcases hheld.update hpool hgroup (hsize call (by simp)) with ⟨t, ht, hheld', -⟩ | ⟨hfail, -⟩
      · rw [ht] at hv
        cases hv
        exact hheld'
      · rw [hfail] at hv
        cases hv

/-- With a pool made for as many servers as a list may have, a call for the audit collectors is
    through if and only if the list and the new one fit. -/
theorem accommodates_iff {calls : List ServerListCall}
    (hpool : Limited maxSmallServerListSize acquireId)
    (hsizes : ∀ c ∈ calls, c.serverListSize ≤ maxSmallServerListSize)
    (hrun : exec (onServerListUpdated acquireId) {} calls = .ok s)
    (hgroup : call.serverGroup = .auditCollector)
    (hsize : call.serverListSize ≤ maxSmallServerListSize) :
    (Accommodates acquireId s call maxSmallServerListSize ↔
        Fits maxSmallServerListSize (serversFrom s.container 0 s.size)
          (serversFrom call.serverList 0 call.serverListSize) 0) ∧
      (¬Accommodates acquireId s call maxSmallServerListSize →
        onServerListUpdated acquireId s call = .error .runtimeAssert) := by
  rcases (held_of_exec hpool hsizes hrun).update hpool hgroup hsize with
    ⟨t, ht, hheld, hfits⟩ | ⟨hfail, hfits⟩
  · have hall : Accommodates acquireId s call maxSmallServerListSize := ⟨t, ht, hheld.sound.bounded⟩
    exact ⟨iff_of_true hall hfits, fun hnot => absurd hall hnot⟩
  · have hnone : ¬Accommodates acquireId s call maxSmallServerListSize := by
      rintro ⟨t, ht, -⟩
      rw [hfail] at ht
      cases ht
    exact ⟨iff_of_false hnone hfits, fun _ => hfail⟩

/-- A pool of limited size, with ids that are greater than all that are in use. -/
def limitedId (capacity : ℕ) (pool : TcpClientPool) : ℕ :=
  if capacity ≤ pool.servers.length then 0 else nextId pool

theorem limited_limitedId (capacity : ℕ) : Limited capacity (limitedId capacity) where
  full pool := by
    rw [limitedId]
    split
    · next hfull => exact iff_of_true rfl hfull
    · next hroom => exact iff_of_false (Nat.succ_ne_zero _) hroom
  fresh pool hid address := by
    rw [limitedId] at hid ⊢
    split at hid
    · exact absurd rfl hid
    · next hroom =>
      rw [if_neg hroom]
      exact (fresh_nextId pool).2 address

theorem accommodates_iff_twoLists :
    ∃ s, exec (onServerListUpdated (limitedId maxSmallServerListSize)) {} (twoLists.take 1) = .ok s ∧
      Accommodates (limitedId maxSmallServerListSize) s
        ⟨.auditCollector, fun i => ⟨i + 2, {}⟩, 2⟩ maxSmallServerListSize := by
  obtain ⟨s, hs, hcheck⟩ := exists_ok_of_check
    (x := exec (onServerListUpdated (limitedId maxSmallServerListSize)) {} (twoLists.take 1))
    (p := fun s => decide (serversFrom s.container 0 s.size = [⟨1, {}⟩, ⟨2, {}⟩])) (by decide +kernel)
  refine ⟨s, hs, (accommodates_iff (limited_limitedId _) (by decide) hs rfl (by decide)).1.2 ?_⟩
  rw [of_decide_eq_true hcheck]
  change Fits _ [⟨1, {}⟩, ⟨2, {}⟩] [⟨2, {}⟩, ⟨3, {}⟩] 0
  rw [fits_cons_of_lt (by decide), fits_cons_of_eq rfl, fits_nil_cons]
  exact ⟨by decide, trivial⟩

/-- As many servers as a list may have, and then one with a lesser id. -/
def fullList : ServerListCall := ⟨.auditCollector, fun i => ⟨i + 2, {}⟩, maxSmallServerListSize⟩

/-- The server is added while all the others are still registered. -/
theorem accommodates_counterexample :
    ∃ s, exec (onServerListUpdated (limitedId maxSmallServerListSize)) {} [fullList] = .ok s ∧
      onServerListUpdated (limitedId maxSmallServerListSize) s
        ⟨.auditCollector, fun _ => ⟨1, {}⟩, 1⟩ = .error .runtimeAssert ∧
      ¬Accommodates (limitedId maxSmallServerListSize) s
        ⟨.auditCollector, fun _ => ⟨1, {}⟩, 1⟩ maxSmallServerListSize := by
  obtain ⟨s, hs, hcheck⟩ := exists_ok_of_check
    (x := exec (onServerListUpdated (limitedId maxSmallServerListSize)) {} [fullList])
    (p := fun s => match onServerListUpdated (limitedId maxSmallServerListSize) s
        ⟨.auditCollector, fun _ => ⟨1, {}⟩, 1⟩ with
      | .ok _ => false
      | .error x => decide (x = .runtimeAssert)) (by decide +kernel)
  split at hcheck
  · cases hcheck
  next x hfail =>
  rw [of_decide_eq_true hcheck] at hfail
  refine ⟨s, hs, hfail, ?_⟩
  rintro ⟨t, ht, -⟩
  rw [hfail] at ht
  cases ht

end AuditConnections

end ProxyPlatform
