import ProxyPlatform.Base.Stamped
import ProxyPlatform.DeviceEntry.Offer

/-!
# The observer and the relay table agree

The observer and the relay table both keep a slot for each relay, and only the callbacks
connect them. A relay is dropped in one way (`kill`), whether it is lost, silent or
replaced, and it appears in one (`announce`); so `Agreed` is an invariant:

* the calls made for a slot are alternately those of a relay that appears and of the same
  relay that is dropped (`Alternates`);
* a slot is in the timeout list while it holds a relay, and the list is ordered by the time
  of the last heartbeats, hence none that is silent is left after a tick
  (`lt_of_removeTimeoutLoop`);
* the relay table knows the relays the observer knows, and no others.
-/

namespace ProxyPlatform

/-- The calls made for a slot, and the id of the relay that has appeared and is not dropped. -/
inductive Alternates : List RelayCall → Option ℕ → Prop
  | nil : Alternates [] none
  | updated {l : List RelayCall} (relayInfo : LocalRelayInfo) (h : Alternates l none) :
    Alternates (l ++ [.updated relayInfo]) (some relayInfo.serverId)
  | dropped {l : List RelayCall} (relayInfo : LocalRelayInfo)
    (h : Alternates l (some relayInfo.serverId)) : Alternates (l ++ [.dropped relayInfo]) none

/-- The id of what is in a slot, if there is a relay in it. -/
def LocalRelayInfo.id? (relayInfo : LocalRelayInfo) : Option ℕ :=
  if relayInfo.serverId = 0 then none else some relayInfo.serverId

namespace DeviceEntry

variable (extractIndex : ℕ → ℕ) (hexToStr : Bytes → Bytes)

/-- The calls made for the slot `i`. -/
def callsAt (i : ℕ) (calls : List RelayCall) : List RelayCall :=
  calls.filter fun call => extractIndex call.relayInfo.serverId = i

/-- The time of the last heartbeats of the relays. -/
def stamp (o : RelayInfoObserver) (i : ℕ) : Option ℕ :=
  some (o.relayServerList i).lastKeepAliveTimestampMS

/-- What is claimed of every state. -/
structure Agrees (s : DeviceEntry) : Prop where
  alternates : ∀ i, ∃ announced, Alternates (callsAt extractIndex i s.2.calls) announced
  linked : ∀ i, i ∈ s.1.relayInfoTimeoutList.nodes () ↔ (s.1.relayServerList i).serverId ≠ 0
  sorted : (s.1.relayInfoTimeoutList.nodes ()).Pairwise fun i j =>
    (s.1.relayServerList i).lastKeepAliveTimestampMS ≤
      (s.1.relayServerList j).lastKeepAliveTimestampMS
  same : ∀ i, (s.2.localRelayInfoManager.fullRelayInfoList i).serverId =
    (s.1.relayServerList i).serverId

/-- Ticks do not go back. -/
def TicksOnward (s : DeviceEntry) : DeviceEntryEvent → Prop
  | .tick nowMS _ => s.1.localTicker ≤ nowMS
  | _ => True

/-- What holds of the slot `i`. -/
structure SlotAgreed (s : DeviceEntry) (i : ℕ) : Prop where
  linked : i ∈ s.1.relayInfoTimeoutList.nodes () ↔ (s.1.relayServerList i).serverId ≠ 0
  slot : (s.1.relayServerList i).serverId ≠ 0 →
    extractIndex (s.1.relayServerList i).serverId = i ∧ i < maxRelayServerListSize
  alternates : Alternates (callsAt extractIndex i s.2.calls)
    (s.1.relayServerList i).toLocalRelayInfo.id?
  same : (s.2.localRelayInfoManager.fullRelayInfoList i).serverId =
    (s.1.relayServerList i).serverId

/-- The invariant, at the time `now`. -/
structure Agreed (now : ℕ) (s : DeviceEntry) : Prop where
  localTicker : s.1.localTicker = now
  slots : ∀ i, SlotAgreed extractIndex s i
  stamped : Stamped (stamp s.1) now (s.1.relayInfoTimeoutList.nodes ())
  ready : s.2.localRelayInfoManager.regionService ≠ none

variable {extractIndex hexToStr} {now nowMS index i : ℕ} {s t : DeviceEntry}

/-! ## One relay appears, is heard or is dropped -/

theorem callsAt_snoc (call : RelayCall) (calls : List RelayCall) :
    callsAt extractIndex i (calls ++ [call]) =
      callsAt extractIndex i calls ++
        if extractIndex call.relayInfo.serverId = i then [call] else [] := by
  rw [callsAt, List.filter_append, List.filter_singleton]
  by_cases h : extractIndex call.relayInfo.serverId = i <;> simp [callsAt, h]

theorem stamp_of_ne {o o' : RelayInfoObserver} {x : InternalLocalRelayInfo}
    (h : o'.relayServerList = Function.update o.relayServerList index x) {j : ℕ} (hj : j ≠ index) :
    stamp o' j = stamp o j := by
  rw [stamp, stamp, h, Function.update_of_ne hj]

/-- What is done for one slot leaves the others as they are. -/
theorem SlotAgreed.frame (h : SlotAgreed extractIndex s i)
    (hserver : t.1.relayServerList i = s.1.relayServerList i)
    (hlist : i ∈ t.1.relayInfoTimeoutList.nodes () ↔ i ∈ s.1.relayInfoTimeoutList.nodes ())
    (hcalls : callsAt extractIndex i t.2.calls = callsAt extractIndex i s.2.calls)
    (hfull : t.2.localRelayInfoManager.fullRelayInfoList i =
      s.2.localRelayInfoManager.fullRelayInfoList i) : SlotAgreed extractIndex t i where
  linked := by rw [hlist, hserver]; exact h.linked
  slot := by rw [hserver]; exact h.slot
  alternates := by rw [hcalls, hserver]; exact h.alternates
  same := by rw [hfull, hserver]; exact h.same

/-- A slot that gets the present time goes to the tail. -/
theorem stamped_grabTail {o o' : RelayInfoObserver} {x : InternalLocalRelayInfo}
    (h : Stamped (stamp o) now (o.relayInfoTimeoutList.nodes ()))
    (hserver : o'.relayServerList = Function.update o.relayServerList index x)
    (hlist : o'.relayInfoTimeoutList = o.relayInfoTimeoutList.grabTail () index)
    (hx : x.lastKeepAliveTimestampMS = now) :
    Stamped (stamp o') now (o'.relayInfoTimeoutList.nodes ()) := by
  rw [hlist, Linked.nodes_grabTail_self]
  refine Stamped.append (h.of_sublist List.filter_sublist (fun j hj => ?_) le_rfl) ?_
  · exact stamp_of_ne hserver (by simpa using List.of_mem_filter hj)
  · rw [stamp, hserver, Function.update_self, hx]

theorem id?_of_ne {relayInfo : LocalRelayInfo} (h : relayInfo.serverId ≠ 0) :
    relayInfo.id? = some relayInfo.serverId := if_neg h

namespace Agreed

theorem keepAlive (h : Agreed extractIndex now s) (hs : (s.1.relayServerList index).serverId ≠ 0) :
    Agreed extractIndex now (s.1.keepAlive index, s.2) := by
  refine ⟨h.localTicker, fun i => ?_, stamped_grabTail h.stamped rfl rfl h.localTicker, h.ready⟩
  by_cases hi : i = index
  · subst hi
    have hserver : ((s.1.keepAlive i).relayServerList i).toLocalRelayInfo =
        (s.1.relayServerList i).toLocalRelayInfo := by
      simp [RelayInfoObserver.keepAlive]
    have hi := h.slots i
    refine ⟨?_, ?_, ?_, ?_⟩
    · exact iff_of_true (Linked.mem_grabTail.2 (by rw [if_pos rfl])) (hserver ▸ hs)
    · rw [hserver]
      exact hi.slot
    · rw [hserver]
      exact hi.alternates
    · rw [hserver]
      exact hi.same
  · refine (h.slots i).frame (Function.update_of_ne hi _ _) ?_ rfl rfl
    exact Linked.mem_grabTail.trans (by rw [if_neg hi])

theorem kill (h : Agreed extractIndex now s) (hs : (s.1.relayServerList index).serverId ≠ 0) :
    Agreed extractIndex now (RelayInfoObserver.kill (relayCallbacks extractIndex) s index) := by
  have hindex := h.slots index
  obtain ⟨hslot, hlt⟩ := hindex.slot hs
  have hfull : (s.2.localRelayInfoManager.removeRelayServerInfo extractIndex
      (s.1.relayServerList index).serverId).fullRelayInfoList =
        Function.update s.2.localRelayInfoManager.fullRelayInfoList index {} := by
    rw [LocalRelayInfoManager.fullRelayInfoList_removeRelayServerInfo, hslot,
      if_pos ⟨hlt, hindex.same⟩]
  refine ⟨h.localTicker, fun i => ?_, ?_, ?_⟩
  · by_cases hi : i = index
    · subst hi
      refine ⟨?_, ?_, ?_, ?_⟩
      · simp [RelayInfoObserver.kill]
      · simp [RelayInfoObserver.kill]
      · have halt := hindex.alternates
        rw [id?_of_ne hs] at halt
        simpa [RelayInfoObserver.kill, relayCallbacks, callsAt_snoc, RelayCall.relayInfo, hslot,
          LocalRelayInfo.id?] using halt.dropped
      · refine (congrArg _ (congrFun hfull i)).trans ?_
        simp [RelayInfoObserver.kill]
    · refine (h.slots i).frame (Function.update_of_ne hi _ _) ?_ ?_ ?_
      · exact Linked.mem_unlink.trans (and_iff_right hi)
      · refine (callsAt_snoc _ _).trans ?_
        rw [if_neg (fun heq => hi (heq.symm.trans hslot)), List.append_nil]
      · exact (congrFun hfull i).trans (Function.update_of_ne hi _ _)
  · refine h.stamped.of_sublist List.filter_sublist (fun j hj => ?_) le_rfl
    exact stamp_of_ne rfl (by simpa using List.of_mem_filter hj)
  · exact (LocalRelayInfoManager.regionService_removeRelayServerInfo _).trans_ne h.ready

/-- A relay appears in a slot that is free. -/
theorem announce {b : PPRelayInfoBroadcast} (h : Agreed extractIndex now s)
    (hs : (s.1.relayServerList (extractIndex b.serverId)).serverId = 0) (hb : b.serverId ≠ 0)
    (hlt : extractIndex b.serverId < maxRelayServerListSize) :
    Agreed extractIndex now
      (RelayInfoObserver.announce (relayCallbacks extractIndex) s (extractIndex b.serverId) b) := by
  refine ⟨h.localTicker, fun i => ?_, stamped_grabTail h.stamped rfl rfl h.localTicker, ?_⟩
  · by_cases hi : i = extractIndex b.serverId
    · subst hi
      have hindex := h.slots (extractIndex b.serverId)
      refine ⟨?_, ?_, ?_, ?_⟩
      · refine iff_of_true (Linked.mem_grabTail.2 (by rw [if_pos rfl])) ?_
        simpa [RelayInfoObserver.announce] using hb
      · simpa [RelayInfoObserver.announce] using fun _ => hlt
      · have halt := hindex.alternates
        rw [LocalRelayInfo.id?, if_pos hs] at halt
        simpa [RelayInfoObserver.announce, relayCallbacks, callsAt_snoc, RelayCall.relayInfo,
          LocalRelayInfo.id?, hb] using halt.updated _
      · refine (congrArg _ (congrFun
          (LocalRelayInfoManager.fullRelayInfoList_updateRelayServerInfo hlt) _)).trans ?_
        simp [RelayInfoObserver.announce]
    · refine (h.slots i).frame (Function.update_of_ne hi _ _) ?_ ?_ ?_
      · exact Linked.mem_grabTail.trans (by rw [if_neg hi])
      · refine (callsAt_snoc _ _).trans ?_
        rw [if_neg fun heq => hi heq.symm, List.append_nil]
      · refine (congrFun
          (LocalRelayInfoManager.fullRelayInfoList_updateRelayServerInfo hlt) i).trans ?_
        exact Function.update_of_ne hi _ _
  · exact (LocalRelayInfoManager.regionService_updateRelayServerInfo _).trans_ne h.ready

theorem onPacket (h : Agreed extractIndex now s) (p : RelayPacket) :
    Agreed extractIndex now
      (RelayInfoObserver.onPacket extractIndex (relayCallbacks extractIndex) s p).1 := by
  rcases p with (_ | b) | (_ | serverId) | _
  · exact h
  · simp only [RelayInfoObserver.onPacket]
    split_ifs with hb hlt hchange hs
    · exact h
    · exact h
    · -- The slot is freed first.
      refine (h.kill hs).announce ?_ hb (Nat.not_le.1 hlt)
      simp [RelayInfoObserver.kill]
    · exact h.announce (not_not.1 hs) hb (Nat.not_le.1 hlt)
    · have hid : (s.1.relayServerList (extractIndex b.serverId)).serverId = b.serverId :=
        not_not.1 fun hne => hchange (.inl hne)
      exact h.keepAlive (hid.trans_ne hb)
  · exact h
  · simp only [RelayInfoObserver.onPacket]
    split_ifs with hb hlt hid
    · exact h
    · exact h
    · exact h.kill (hid.trans_ne hb)
    · exact h
  · exact h

/-- The loop drops the relays that are silent, at the head of the list, and leaves none. -/
theorem removeTimeoutLoop (h : Agreed extractIndex now s) (killTimepoint : ℕ) {n : ℕ}
    (hn : (s.1.relayInfoTimeoutList.nodes ()).length ≤ n) :
    Agreed extractIndex now (RelayInfoObserver.removeTimeoutLoop (relayCallbacks extractIndex)
        killTimepoint n s) ∧
      ∀ i ∈ (RelayInfoObserver.removeTimeoutLoop (relayCallbacks extractIndex)
          killTimepoint n s).1.relayInfoTimeoutList.nodes (),
        killTimepoint < ((RelayInfoObserver.removeTimeoutLoop (relayCallbacks extractIndex)
          killTimepoint n s).1.relayServerList i).lastKeepAliveTimestampMS := by
  induction n generalizing s with
  | zero =>
    rw [Nat.le_zero, List.length_eq_zero_iff] at hn
    exact ⟨h, fun i hi => absurd (hn ▸ hi) List.not_mem_nil⟩
  | succ n ih =>
    rw [RelayInfoObserver.removeTimeoutLoop]
    rcases hnodes : s.1.relayInfoTimeoutList.nodes () with _ | ⟨index, l⟩
    · exact ⟨h, fun i hi => absurd (hnodes ▸ hi) List.not_mem_nil⟩
    · dsimp only
      split
      · have hs := (h.slots index).linked.1 (by simp [hnodes])
        refine ih (h.kill hs) ?_
        have hrest : ((s.1.relayInfoTimeoutList.unlink index).nodes ()) = l :=
          Linked.nodes_unlink_of_cons hnodes
        rw [hnodes, List.length_cons] at hn
        exact (congrArg List.length hrest).trans_le (Nat.le_of_succ_le_succ hn)
      · next hdue =>
        refine ⟨h, fun i hi => ?_⟩
        have hstamped := h.stamped
        rw [hnodes] at hi hstamped
        rcases List.mem_cons.1 hi with rfl | hi
        · exact Nat.not_le.1 hdue
        · exact (Nat.not_le.1 hdue).trans_le (hstamped.le_of_mem rfl hi rfl)

theorem tick (h : Agreed extractIndex now s) (hnow : now ≤ nowMS) (packets : List RelayPacket)
    (ht : RelayInfoObserver.tick extractIndex (relayCallbacks extractIndex) s nowMS packets = t) :
    Agreed extractIndex nowMS t ∧ ∀ i, (t.1.relayServerList i).serverId ≠ 0 →
      nowMS < (t.1.relayServerList i).lastKeepAliveTimestampMS + relayHeartbeatTimeoutMS := by
  subst ht
  rw [RelayInfoObserver.tick]
  have hlater : Agreed extractIndex nowMS ({ s.1 with localTicker := nowMS }, s.2) :=
    ⟨rfl, fun i => (h.slots i).frame rfl Iff.rfl rfl rfl, h.stamped.mono hnow, h.ready⟩
  have hpackets : Agreed extractIndex nowMS (packets.foldl (fun s p =>
      (RelayInfoObserver.onPacket extractIndex (relayCallbacks extractIndex) s p).1)
        ({ s.1 with localTicker := nowMS }, s.2)) := by
    generalize ({ s.1 with localTicker := nowMS }, s.2) = u at hlater
    induction packets generalizing u with
    | nil => exact hlater
    | cons p packets ih => exact ih _ (hlater.onPacket p)
  generalize packets.foldl _ _ = u at hpackets
  rw [RelayInfoObserver.removeTimeoutRelayInfo, hpackets.localTicker]
  obtain ⟨hloop, hleft⟩ :=
    hpackets.removeTimeoutLoop (sub64 nowMS relayHeartbeatTimeoutMS) le_rfl
  refine ⟨hloop, fun i hi => ?_⟩
  have hmem := (hloop.slots i).linked.2 hi
  obtain ⟨x, hx, hle⟩ := hloop.stamped.bound i hmem
  cases hx
  have hlt := hleft i hmem
  rw [← Nat.not_le, le_sub64_iff hle (by decide)] at hlt
  exact Nat.not_le.1 fun hle => hlt (.inr hle)

/-- A challenge of a device only moves a relay in its list. -/
theorem onDeviceChallenge (h : Agreed extractIndex now s) (hexToStr : Bytes → Bytes)
    (req : Option PPDeviceChallenge) :
    ∃ resp m, DeviceEntry.onDeviceChallenge hexToStr s.2.localRelayInfoManager req = .ok (resp, m) ∧
      Agreed extractIndex now (s.1, { s.2 with localRelayInfoManager := m }) := by
  rcases req with _ | req
  · exact ⟨_, _, rfl, h⟩
  · simp only [DeviceEntry.onDeviceChallenge]
    generalize (if req.addressKey4 ≠ [] then decryptAddressKey hexToStr req.addressKey4
      else if req.addressKey6 ≠ [] then decryptAddressKey hexToStr req.addressKey6 else {}) = D
    split
    · obtain ⟨relayAddress, m, hget⟩ :=
        LocalRelayInfoManager.exists_getRelayServerByDeviceIp (D := D) h.ready
      obtain ⟨hfull, hregion⟩ := LocalRelayInfoManager.frame_getRelayServerByDeviceIp hget
      rw [hget]
      have ht : Agreed extractIndex now (s.1, { s.2 with localRelayInfoManager := m }) :=
        ⟨h.localTicker, fun i => (h.slots i).frame rfl Iff.rfl rfl (congrFun hfull i), h.stamped,
          hregion.trans_ne h.ready⟩
      dsimp only
      split
      · exact ⟨_, _, rfl, ht⟩
      · exact ⟨_, _, rfl, ht⟩
    · exact ⟨_, _, rfl, h⟩

/-- A step never fails, and keeps the invariant. -/
theorem step {e : DeviceEntryEvent} (h : Agreed extractIndex s.1.localTicker s)
    (hexToStr : Bytes → Bytes) (he : TicksOnward s e) :
    ∃ t, DeviceEntry.step extractIndex hexToStr s e = .ok t ∧
      Agreed extractIndex t.1.localTicker t := by
  rcases e with p | ⟨nowMS, packets⟩ | req
  · have ht := h.onPacket p
    exact ⟨_, rfl, ht.localTicker.symm ▸ ht⟩
  · have ht := (h.tick he packets rfl).1
    exact ⟨_, rfl, ht.localTicker.symm ▸ ht⟩
  · obtain ⟨resp, m, hreq, ht⟩ := h.onDeviceChallenge hexToStr req
    refine ⟨(s.1, { s.2 with localRelayInfoManager := m }), ?_, ht⟩
    simp only [DeviceEntry.step, hreq]

theorem init (nowMS : ℕ) (getRegion : NetAddress → Option ℕ) :
    Agreed extractIndex nowMS (DeviceEntry.init nowMS getRegion) where
  localTicker := rfl
  slots _ := ⟨by simp [DeviceEntry.init, Linked.empty], fun h => absurd rfl h, .nil, rfl⟩
  stamped := .nil
  ready := by simp [DeviceEntry.init]

theorem agrees (h : Agreed extractIndex now s) : Agrees extractIndex s where
  alternates i := ⟨_, (h.slots i).alternates⟩
  linked i := (h.slots i).linked
  sorted := h.stamped.sorted.imp fun hij => hij _ _ rfl rfl
  same i := (h.slots i).same

end Agreed

/-! ## Runs -/

theorem agreed_of_exec {nowMS : ℕ} {getRegion : NetAddress → Option ℕ}
    {es : List DeviceEntryEvent}
    (hes : Along (step extractIndex hexToStr) TicksOnward (init nowMS getRegion) es)
    (h : exec (step extractIndex hexToStr) (init nowMS getRegion) es = .ok s) :
    Agreed extractIndex s.1.localTicker s := by
  refine exec_invariant_along (I := fun s => Agreed extractIndex s.1.localTicker s)
    (fun s e t hs he ht => ?_) (.init nowMS getRegion) hes h
  obtain ⟨u, hu, hagreed⟩ := hs.step hexToStr he
  rw [ht] at hu
  exact Except.ok.inj hu ▸ hagreed

/-- When ticks do not go back, nothing fails, and after every event the observer and the relay table
    agree; no relay is left by a tick that has been silent for the timeout. -/
theorem agrees_of_along (extractIndex : ℕ → ℕ) (hexToStr : Bytes → Bytes) (nowMS : ℕ)
    (getRegion : NetAddress → Option ℕ) (es : List DeviceEntryEvent)
    (hes : Along (step extractIndex hexToStr) TicksOnward (init nowMS getRegion) es) :
    ∃ s, exec (step extractIndex hexToStr) (init nowMS getRegion) es = .ok s ∧
      Agrees extractIndex s ∧
      ∀ pre nowMS packets, es = pre ++ [.tick nowMS packets] →
        ∀ i, (s.1.relayServerList i).serverId ≠ 0 →
          nowMS < (s.1.relayServerList i).lastKeepAliveTimestampMS + relayHeartbeatTimeoutMS := by
  rcases hs : exec (step extractIndex hexToStr) (init nowMS getRegion) es with x | s
  · obtain ⟨pre, e, t, hpre, ht, he⟩ := exec_eq_error hs
    have hagreed := agreed_of_exec (hes.of_prefix ((List.prefix_append _ _).trans hpre)) ht
    obtain ⟨u, hu, -⟩ := hagreed.step hexToStr (along_iff.1 hes pre e t hpre ht)
    rw [hu] at he
    cases he
  · refine ⟨s, rfl, (agreed_of_exec hes hs).agrees, ?_⟩
    rintro pre nowMS packets rfl
    obtain ⟨t, ht, he⟩ := exec_append_eq_ok.1 hs
    have hagreed := agreed_of_exec (hes.of_prefix (List.prefix_append _ _)) ht
    obtain ⟨u, hu, hus⟩ := exec_cons_eq_ok.1 he
    cases hus
    cases hu
    exact (hagreed.tick (hes.of_append ht).1 packets rfl).2

instance (s : DeviceEntry) (e : DeviceEntryEvent) : Decidable (TicksOnward s e) := by
  rcases e with p | ⟨nowMS, packets⟩ | req
  · exact instDecidableTrue
  · exact Nat.decLe _ _
  · exact instDecidableTrue

/-- A relay that is heard of, changes its address, and falls silent. -/
def silentRelay : List DeviceEntryEvent :=
  [.packet (.heartbeatBroadcast (some ⟨1, { type := .ipv4 }, {}⟩)), .tick 400000 [],
    .packet (.heartbeatBroadcast (some ⟨1, { type := .ipv6 }, {}⟩)), .tick 900000 []]

theorem agrees_of_along_silentRelay :
    Along (step id id) TicksOnward (init 0 fun _ => some 7) silentRelay ∧
      ∃ s, exec (step id id) (init 0 fun _ => some 7) silentRelay = .ok s ∧ Agrees id s := by
  have hes : Along (step id id) TicksOnward (init 0 fun _ => some 7) silentRelay :=
    along_of_check (by decide +kernel)
  obtain ⟨s, hs, hagrees, -⟩ := agrees_of_along id id 0 (fun _ => some 7) silentRelay hes
  exact ⟨hes, s, hs, hagrees⟩

end DeviceEntry

end ProxyPlatform
