import ProxyPlatform.Relay.Lists

/-!
# The capabilities of the devices

A device is configured for TCP, for UDP, or for both. The flags are read with the
configuration and kept with the device; no request looks at them. Requests come to a device
by three routes: a connection by address, a connection by host name, whose device is that of
the DNS lookup, and a UDP channel.

* `served` logs the requests that a step answers, each with its device, the entry of the
  pool it created and its answer: those by host name where their lookup is processed;
* `Enforces`: every live entry was created on a device that has the capability, and the
  requests on the other devices were answered with nothing;
* `Abstains`: no request on a device without the capability finds room and a socket.

The entries of the pools do not name their device, but their ids are never used twice, so
that the log does.

* `enforces_iff`: the flags are enforced in every state of a run if and only if its steps
  abstain.
-/

namespace ProxyPlatform

/-- What a device can be configured for. -/
inductive RelayCapability
  | tcp
  | udp
  deriving DecidableEq

/-- The flag of a capability. -/
def RelayLocalDevice.enables (device : RelayLocalDevice) : RelayCapability → Bool
  | .tcp => device.enableTcp
  | .udp => device.enableUdp

/-- A request that was answered. -/
structure ServedRequest where
  capability : RelayCapability
  deviceId : ℕ
  /-- The entry of the pool created for it. -/
  entry : Option ℕ
  answer : Completion ℕ

namespace RelayLocalBindingService

variable (R : RelayPlatform) (alive : ℕ → Bool)

/-- The entry of a pool that a call created. -/
def newEntry {α : Type*} (p q : Storage α) : Option ℕ :=
  if p.lastId < q.lastId ∧ (q.get q.lastId).isSome then some q.lastId else none

/-- The device has the capability. -/
def enables (s : RelayLocalBindingService) (capability : RelayCapability) (deviceId : ℕ) : Bool :=
  match s.getDevice deviceId with
  | none => false
  | some device => device.enables capability

/-! ## The requests answered -/

/-- The answer to a request for a connection, given in the state `s`. -/
def servedConnection (s : RelayLocalBindingService) (deviceId : ℕ)
    (x : RelayLocalBindingService × Completion ℕ) : ServedRequest where
  capability := .tcp
  deviceId := deviceId
  entry := newEntry s.localConnectionPool x.1.localConnectionPool
  answer := x.2

/-- The answer given in a turn of `ProcessDnsResults`. -/
def servedDnsResult (x : RelayLocalBindingService × List ProxyEvent) (i : ℕ) :
    List ServedRequest :=
  match x.1.dnsFutureManager.get i with
  | none => []
  | some dnsFuture =>
    if alive dnsFuture.context.createConnectionFutureHandle then
      [servedConnection x.1 dnsFuture.context.relaySideDeviceId
        (createConnectionWithDnsResult R x.1 dnsFuture)]
    else []

/-- The answers given by `ProcessDnsResults`, turn by turn. -/
def servedDnsResults : RelayLocalBindingService × List ProxyEvent → List ℕ → List ServedRequest
  | _, [] => []
  | x, i :: is =>
    servedDnsResult R alive x i ++ servedDnsResults (processDnsResult R alive x i) is

/-- The requests that a step answers. -/
def served (s : RelayLocalBindingService) (x : RelayInput) : List ServedRequest :=
  match x.event with
  | .createConnection deviceId i (.address a) future =>
    [servedConnection s deviceId (createConnectionToAddress R s deviceId i a future)]
  | .createConnection deviceId i (.hostname _ port) future =>
    let y := createConnectionToHostname R s deviceId i port future
    match y.2 with
    | .pending => []
    | .ready _ => [servedConnection s deviceId y]
  | .createUdpChannel deviceId i =>
    let y := createUdpChannel R s deviceId i
    [{ capability := .udp
       deviceId := deviceId
       entry := newEntry s.localUdpChannelPool y.1.localUdpChannelPool
       answer := .ready y.2 }]
  | .tick nowMS =>
    servedDnsResults R x.alive ({ s with localTicker := nowMS }, []) s.dnsFutureManager.futureList
  | _ => []

/-- The flags of the devices were enforced so far. -/
structure Enforces (s : RelayLocalBindingService) (log : List ServedRequest) : Prop where
  connection : ∀ k, (s.localConnectionPool.get k).isSome →
    ∃ r ∈ log, r.capability = .tcp ∧ r.entry = some k ∧ s.enables .tcp r.deviceId
  udpChannel : ∀ u, (s.localUdpChannelPool.get u).isSome →
    ∃ r ∈ log, r.capability = .udp ∧ r.entry = some u ∧ s.enables .udp r.deviceId
  refused : ∀ r ∈ log, ¬s.enables r.capability r.deviceId → r.answer = .ready none

/-! ## The requests that open a socket -/

/-- A connection can be opened: the device exists, and there is room and a socket. -/
def CanOpen (s : RelayLocalBindingService) (deviceId : ℕ) : Prop :=
  (s.getDevice deviceId).isSome ∧ s.localConnectionPool.size < s.localConnectionPool.capacity ∧
    R.initConnection s.attempts

/-- A UDP channel can be opened. -/
def CanOpenUdp (s : RelayLocalBindingService) (deviceId : ℕ) : Prop :=
  (s.getDevice deviceId).isSome ∧ s.localUdpChannelPool.size < s.localUdpChannelPool.capacity ∧
    R.initUdpChannel s.attempts

/-- A lookup found an address of the family of the device. -/
def HasTarget (s : RelayLocalBindingService) (dnsFuture : Future RelayDnsRequest DnsResult) : Prop :=
  ∃ result ∈ dnsFuture.result,
    ∃ device ∈ s.getDevice dnsFuture.context.relaySideDeviceId,
      (if device.bindAddress.is4 then result.a4 else result.a6).isSet

/-- A turn of `ProcessDnsResults` opens no connection on a device without TCP. -/
def AbstainsDnsResult (s : RelayLocalBindingService) (i : ℕ) : Prop :=
  ∀ dnsFuture ∈ s.dnsFutureManager.get i, alive dnsFuture.context.createConnectionFutureHandle →
    s.HasTarget dnsFuture → CanOpen R s dnsFuture.context.relaySideDeviceId →
      s.enables .tcp dnsFuture.context.relaySideDeviceId

/-- No turn of `ProcessDnsResults` opens a connection on a device without TCP. -/
def AbstainsDnsResults : RelayLocalBindingService × List ProxyEvent → List ℕ → Prop
  | _, [] => True
  | x, i :: is =>
    AbstainsDnsResult R alive x.1 i ∧ AbstainsDnsResults (processDnsResult R alive x i) is

/-- A step opens nothing on a device without the capability. -/
def Abstains (s : RelayLocalBindingService) (x : RelayInput) : Prop :=
  match x.event with
  | .createConnection deviceId _ (.address _) _ =>
    CanOpen R s deviceId → s.enables .tcp deviceId
  | .createUdpChannel deviceId _ => CanOpenUdp R s deviceId → s.enables .udp deviceId
  | .tick nowMS =>
    AbstainsDnsResults R x.alive ({ s with localTicker := nowMS }, [])
      s.dnsFutureManager.futureList
  | _ => True

variable {R alive} {s t : RelayLocalBindingService} {k u : ℕ}

theorem newEntry_of_acquire {α : Type*} {p q : Storage α} {y : ℕ → α}
    (h : p.acquire y = some (k, q)) : newEntry p q = some k := by
  obtain ⟨hk, hlast, -⟩ := Storage.acquire_eq_some h
  have hget := Storage.get_of_acquire h
  have hlive : (q.get q.lastId).isSome := by
    rw [hlast, Storage.get_acquire h, if_pos rfl]
    rfl
  rw [newEntry, if_pos ⟨by omega, hlive⟩, hlast]

theorem newEntry_of_sameEntries {α : Type*} {p q : Storage α} (h : SameEntries q p) :
    newEntry p q = none := by
  refine if_neg fun ⟨hlast, hlive⟩ => ?_
  rw [h.2, Storage.get_of_lt hlast] at hlive
  cases hlive

/-- A connection is asked for by address: it is opened if it can be. -/
theorem createConnectionToAddress_served (s : RelayLocalBindingService) (d i f : ℕ)
    (a : NetAddress) :
    (CanOpen R s d ∧ (createConnectionToAddress R s d i a f).2 = .pending ∧
      ∃ y k, s.localConnectionPool.acquire y =
        some (k, (createConnectionToAddress R s d i a f).1.localConnectionPool)) ∨
    ¬CanOpen R s d ∧ (createConnectionToAddress R s d i a f).2 = .ready none ∧
      SameEntries (createConnectionToAddress R s d i a f).1.localConnectionPool
        s.localConnectionPool := by
  unfold createConnectionToAddress
  split
  · next hdevice => exact .inr ⟨fun h => by simp [CanOpen, hdevice] at h, rfl, .refl _⟩
  next device hdevice =>
  unfold createConnectionFrom
  dsimp only
  split
  · next hfull =>
    rw [Storage.acquire_eq_none] at hfull
    exact .inr ⟨fun h => absurd h.2.1 (by omega), rfl, .refl _⟩
  next k p hp =>
  split
  · next hinit =>
    have hroom := (Storage.acquire_eq_some hp).2.2
    exact .inl ⟨⟨by rw [hdevice]; rfl, hroom, hinit⟩, rfl, _, k, hp⟩
  · next hinit => exact .inr ⟨fun h => hinit h.2.2, rfl, .acquire hp⟩

/-- The end of a lookup: a connection is opened if it can be. -/
theorem createConnectionWithDnsResult_served (s : RelayLocalBindingService)
    (dnsFuture : Future RelayDnsRequest DnsResult) :
    ((s.HasTarget dnsFuture ∧ CanOpen R s dnsFuture.context.relaySideDeviceId) ∧
      (createConnectionWithDnsResult R s dnsFuture).2 = .pending ∧
      ∃ y k, s.localConnectionPool.acquire y =
        some (k, (createConnectionWithDnsResult R s dnsFuture).1.localConnectionPool)) ∨
    ¬(s.HasTarget dnsFuture ∧ CanOpen R s dnsFuture.context.relaySideDeviceId) ∧
      (createConnectionWithDnsResult R s dnsFuture).2 = .ready none ∧
      SameEntries (createConnectionWithDnsResult R s dnsFuture).1.localConnectionPool
        s.localConnectionPool := by
  unfold createConnectionWithDnsResult
  split
  · next hresult =>
    refine .inr ⟨fun ⟨⟨result, h, _⟩, _⟩ => ?_, rfl, .refl _⟩
    simp [hresult] at h
  next result hresult =>
  split
  · next hdevice =>
    refine .inr ⟨fun ⟨⟨_, _, device, h, _⟩, _⟩ => ?_, rfl, .refl _⟩
    simp [hdevice] at h
  next device hdevice =>
  dsimp only
  generalize htarget : (if device.bindAddress.is4 then result.a4 else result.a6) = target
  by_cases hset : target.isSet
  · simp only [hset, Bool.not_true, Bool.false_eq_true, if_false]
    have hhas : s.HasTarget dnsFuture :=
      ⟨result, hresult, device, hdevice, by rw [htarget]; exact hset⟩
    rcases createConnectionToAddress_served (R := R) s dnsFuture.context.relaySideDeviceId
      dnsFuture.context.proxySideConnectionId dnsFuture.context.createConnectionFutureHandle
      { target with port := dnsFuture.context.targetPort } with ⟨hopen, h⟩ | ⟨hopen, h⟩
    · exact .inl ⟨⟨hhas, hopen⟩, h⟩
    · exact .inr ⟨fun h => hopen h.2, h⟩
  · simp only [hset, Bool.not_false, if_true]
    refine .inr ⟨fun ⟨⟨result', h, device', h', hset'⟩, _⟩ => ?_, trivial, .refl _⟩
    obtain rfl : result = result' := by simpa [hresult] using h
    obtain rfl : device = device' := by simpa [hdevice] using h'
    rw [htarget] at hset'
    exact hset hset'

/-- A connection is asked for by host name: none is opened yet. -/
theorem createConnectionToHostname_served (s : RelayLocalBindingService) (d i port f : ℕ) :
    (createConnectionToHostname R s d i port f).1.localConnectionPool = s.localConnectionPool ∧
      ((createConnectionToHostname R s d i port f).2 = .pending ∨
        (createConnectionToHostname R s d i port f).2 = .ready none) := by
  unfold createConnectionToHostname
  dsimp only
  split
  · exact ⟨rfl, .inr rfl⟩
  split
  · exact ⟨rfl, .inl rfl⟩
  · exact ⟨rfl, .inr rfl⟩

/-- A UDP channel is opened if it can be. -/
theorem createUdpChannel_served (s : RelayLocalBindingService) (d i : ℕ) :
    (CanOpenUdp R s d ∧ ∃ y u, (createUdpChannel R s d i).2 = some u ∧
      s.localUdpChannelPool.acquire y =
        some (u, (createUdpChannel R s d i).1.localUdpChannelPool)) ∨
    ¬CanOpenUdp R s d ∧ (createUdpChannel R s d i).2 = none ∧
      SameEntries (createUdpChannel R s d i).1.localUdpChannelPool s.localUdpChannelPool := by
  unfold createUdpChannel
  split
  · next hdevice => exact .inr ⟨fun h => by simp [CanOpenUdp, hdevice] at h, rfl, .refl _⟩
  next device hdevice =>
  dsimp only
  split
  · next hfull =>
    rw [Storage.acquire_eq_none] at hfull
    exact .inr ⟨fun h => absurd h.2.1 (by omega), rfl, .refl _⟩
  next u p hp =>
  split
  · next hinit =>
    have hroom := (Storage.acquire_eq_some hp).2.2
    exact .inl ⟨⟨by rw [hdevice]; rfl, hroom, hinit⟩, _, u, rfl, hp⟩
  · next hinit => exact .inr ⟨fun h => hinit h.2.2, rfl, .acquire hp⟩

/-! ## What a step answers -/

/-- A request is answered with nothing, or its entry is created and it is not. -/
theorem servedConnection_cases {d : ℕ} {x : RelayLocalBindingService × Completion ℕ} {p : Prop}
    (h : (p ∧ x.2 = .pending ∧
        ∃ y k, s.localConnectionPool.acquire y = some (k, x.1.localConnectionPool)) ∨
      ¬p ∧ x.2 = .ready none ∧ SameEntries x.1.localConnectionPool s.localConnectionPool) :
    (p ∧ (servedConnection s d x).answer = .pending) ∨
      ¬p ∧ (servedConnection s d x).answer = .ready none ∧ (servedConnection s d x).entry = none := by
  rcases h with ⟨hp, hx, -⟩ | ⟨hp, hx, hsame⟩
  · exact .inl ⟨hp, hx⟩
  · exact .inr ⟨hp, hx, newEntry_of_sameEntries hsame⟩

/-- The connections that are live after a request were, or were created for it. -/
theorem servedConnection_live {d : ℕ} {x : RelayLocalBindingService × Completion ℕ} {p : Prop}
    (h : (p ∧ x.2 = .pending ∧
        ∃ y k, s.localConnectionPool.acquire y = some (k, x.1.localConnectionPool)) ∨
      ¬p ∧ x.2 = .ready none ∧ SameEntries x.1.localConnectionPool s.localConnectionPool)
    (hk : (x.1.localConnectionPool.get k).isSome) :
    (s.localConnectionPool.get k).isSome ∨ (servedConnection s d x).entry = some k := by
  rcases h with ⟨-, -, y, j, hacquire⟩ | ⟨-, -, hsame⟩
  · rw [Storage.get_acquire hacquire] at hk
    split at hk
    · next hj => exact .inr (by rw [servedConnection, newEntry_of_acquire hacquire, hj])
    · exact .inl hk
  · exact .inl (by rwa [← hsame.2])

/-- The devices stay as they are. -/
theorem RelayTurn.localDeviceList {l : RelayLabel} {o : List ProxyEvent}
    (h : RelayTurn alive s l o t) : t.localDeviceList = s.localDeviceList := by
  cases h <;> rfl

theorem RelayTurns.localDeviceList {L : RelayLabel → Prop} {o : List ProxyEvent}
    (h : RelayTurns alive L s o t) : t.localDeviceList = s.localDeviceList :=
  h.invariant (I := fun u => u.localDeviceList = s.localDeviceList)
    (fun _ _ _ _ _ hs ht => ht.localDeviceList.trans hs) rfl

theorem enables_congr (h : t.localDeviceList = s.localDeviceList) : t.enables = s.enables := by
  funext capability d
  simp only [enables, getDevice, h]

theorem exists_of_enables {capability : RelayCapability} {d : ℕ} (h : s.enables capability d) :
    ∃ device ∈ s.localDeviceList, device.enables capability := by
  unfold enables getDevice at h
  split at h
  · cases h
  next device hdevice =>
  split at hdevice
  · cases hdevice
  · exact ⟨device, List.mem_of_getElem? hdevice, h⟩

theorem localDeviceList_processDnsResult (x : RelayLocalBindingService × List ProxyEvent) (i : ℕ) :
    (processDnsResult R alive x i).1.localDeviceList = x.1.localDeviceList := by
  obtain ⟨o, t, h, hturns⟩ := processDnsResult_turns R alive x.1 i
  rw [show x = (x.1, x.2) from rfl, h]
  exact hturns.localDeviceList

/-- In a state that abstains, and in no other, the turn refuses the devices without TCP. -/
theorem servedDnsResult_refused (x : RelayLocalBindingService × List ProxyEvent) (i : ℕ) :
    (∀ r ∈ servedDnsResult R alive x i, ¬x.1.enables r.capability r.deviceId →
      r.answer = .ready none) ↔ AbstainsDnsResult R alive x.1 i := by
  unfold servedDnsResult AbstainsDnsResult
  cases hi : x.1.dnsFutureManager.get i with
  | none => simp
  | some dnsFuture =>
    simp only [Option.mem_def, Option.some.injEq, forall_eq']
    split
    · next halive =>
      simp only [List.forall_mem_singleton, halive, true_implies]
      change (¬x.1.enables .tcp dnsFuture.context.relaySideDeviceId → _) ↔ _
      rcases servedConnection_cases (d := dnsFuture.context.relaySideDeviceId)
        (createConnectionWithDnsResult_served (R := R) x.1 dnsFuture) with
        ⟨⟨htarget, hopen⟩, h⟩ | ⟨hopen, h, -⟩
      · simp [h, htarget, hopen]
      · simp only [h, implies_true, true_iff]
        exact fun htarget h => absurd ⟨htarget, h⟩ hopen
    · next halive => simp [halive]

theorem servedDnsResults_refused (is : List ℕ) (x : RelayLocalBindingService × List ProxyEvent) :
    (∀ r ∈ servedDnsResults R alive x is, ¬x.1.enables r.capability r.deviceId →
      r.answer = .ready none) ↔ AbstainsDnsResults R alive x is := by
  induction is generalizing x with
  | nil => simp [servedDnsResults, AbstainsDnsResults]
  | cons i is ih =>
    have henables : (processDnsResult R alive x i).1.enables = x.1.enables :=
      enables_congr (localDeviceList_processDnsResult x i)
    rw [servedDnsResults, AbstainsDnsResults, ← ih, henables, ← servedDnsResult_refused]
    simp only [List.mem_append, or_imp, forall_and]

/-- In a state that abstains, and in no other, the step refuses the devices without the
    capability. -/
theorem served_refused (s : RelayLocalBindingService) (x : RelayInput) :
    (∀ r ∈ served R s x, ¬s.enables r.capability r.deviceId → r.answer = .ready none) ↔
      Abstains R s x := by
  rcases x with ⟨alive, ⟨d, i, a | ⟨name, port⟩, f⟩ | ⟨d, i⟩ | _ | _ | _ | _ | _ | _ | _ | _ | _ |
    _ | nowMS⟩
  all_goals try exact ⟨fun _ => trivial, fun _ r hr => absurd hr List.not_mem_nil⟩
  · simp only [served, Abstains, List.forall_mem_singleton]
    change (¬s.enables .tcp d → _) ↔ _
    rcases servedConnection_cases (d := d) (createConnectionToAddress_served (R := R) s d i f a) with
      ⟨hopen, h⟩ | ⟨hopen, h, -⟩
    · simp [h, hopen]
    · simp [h, hopen]
  · refine ⟨fun _ => trivial, fun _ r hr _ => ?_⟩
    rcases (createConnectionToHostname_served (R := R) s d i port f).2 with h | h
    · simp [served, h] at hr
    · obtain rfl : r = _ := by simpa [served, h] using hr
      exact h
  · simp only [served, Abstains, List.forall_mem_singleton]
    rcases createUdpChannel_served (R := R) s d i with ⟨hopen, y, u, h, -⟩ | ⟨hopen, h, -⟩
    · simp [h, hopen]
    · simp [h, hopen]
  · exact servedDnsResults_refused _ _

/-- An entry was created for a request that was not answered with nothing. -/
theorem servedDnsResult_entry {x : RelayLocalBindingService × List ProxyEvent} {i : ℕ}
    {r : ServedRequest} (hr : r ∈ servedDnsResult R alive x i) :
    r.capability = .tcp ∧ (r.answer = .ready none → r.entry = none) := by
  unfold servedDnsResult at hr
  split at hr
  · cases hr
  next dnsFuture hi =>
  split at hr
  · obtain rfl := List.mem_singleton.1 hr
    refine ⟨rfl, fun hanswer => ?_⟩
    rcases servedConnection_cases (d := dnsFuture.context.relaySideDeviceId)
      (createConnectionWithDnsResult_served (R := R) x.1 dnsFuture) with ⟨-, h⟩ | ⟨-, -, h⟩
    · rw [h] at hanswer
      cases hanswer
    · exact h
  · cases hr

theorem servedDnsResults_entry {is : List ℕ} {x : RelayLocalBindingService × List ProxyEvent}
    {r : ServedRequest} (hr : r ∈ servedDnsResults R alive x is) :
    r.capability = .tcp ∧ (r.answer = .ready none → r.entry = none) := by
  induction is generalizing x with
  | nil => cases hr
  | cons i is ih =>
    rcases List.mem_append.1 hr with hr | hr
    · exact servedDnsResult_entry hr
    · exact ih hr

/-- The connections that are live after the lookups were, or were created by one. -/
theorem servedDnsResults_live (is : List ℕ) (x : RelayLocalBindingService × List ProxyEvent)
    (hk : ((is.foldl (processDnsResult R alive) x).1.localConnectionPool.get k).isSome) :
    (x.1.localConnectionPool.get k).isSome ∨
      ∃ r ∈ servedDnsResults R alive x is, r.capability = .tcp ∧ r.entry = some k := by
  induction is generalizing x with
  | nil => exact .inl hk
  | cons i is ih =>
    rcases ih (processDnsResult R alive x i) hk with hk | ⟨r, hr, h⟩
    · unfold processDnsResult at hk
      cases hi : x.1.dnsFutureManager.get i with
      | none => exact .inl (by simpa only [hi] using hk)
      | some dnsFuture =>
        by_cases halive : alive dnsFuture.context.createConnectionFutureHandle
        · have hlive : ((createConnectionWithDnsResult R x.1 dnsFuture).1.localConnectionPool.get
              k).isSome := by
            simp only [hi, halive, if_true] at hk
            split at hk <;> simp only [*]
          rcases servedConnection_live (d := dnsFuture.context.relaySideDeviceId)
            (createConnectionWithDnsResult_served (R := R) x.1 dnsFuture) hlive with h | h
          · exact .inl h
          · refine .inr ⟨_, List.mem_append_left _ ?_, rfl, h⟩
            rw [servedDnsResult, hi]
            dsimp only
            rw [if_pos halive]
            exact List.mem_singleton_self _
        · simp only [hi, halive, Bool.false_eq_true, if_false] at hk
          exact .inl hk
    · exact .inr ⟨r, List.mem_append_right _ hr, h⟩

/-- Turns that create nothing leave nothing new. -/
theorem RelayTurns.live {L : RelayLabel → Prop} {o : List ProxyEvent} (hL : ∀ k, ¬L (.create k))
    (h : RelayTurns alive L s o t) (hs : Tidy s) (hk : (t.localConnectionPool.get k).isSome) :
    (s.localConnectionPool.get k).isSome := by
  refine (h.invariant (I := fun u => Tidy u ∧ ((u.localConnectionPool.get k).isSome →
    (s.localConnectionPool.get k).isSome)) (fun u l o v hl hu hv => ?_) ⟨hs, id⟩).2 hk
  refine ⟨hv.tidy hu.1, fun hk => hu.2 ?_⟩
  cases hv.moved hu.1 k with
  | gone h => simp [h] at hk
  | created c i f hcreate => exact absurd (hcreate ▸ hl) (hL k)
  | kept hget => rwa [← hget]
  | orphaned c _ hc => simp [hc]
  | connected c f _ _ hc => simp [hc]
  | data c _ hc => simp [hc]
  | marked c _ hc => simp [hc]

theorem RelayTurns.udpLive {L : RelayLabel → Prop} {o : List ProxyEvent}
    (hL : ∀ u, ¬L (.createUdp u)) (h : RelayTurns alive L s o t) (hs : Tidy s)
    (hu : (t.localUdpChannelPool.get u).isSome) : (s.localUdpChannelPool.get u).isSome := by
  refine (h.invariant (I := fun v => Tidy v ∧ ((v.localUdpChannelPool.get u).isSome →
    (s.localUdpChannelPool.get u).isSome)) (fun v l o w hl hv hw => ?_) ⟨hs, id⟩).2 hu
  refine ⟨hw.tidy hv.1, fun hu => hv.2 ?_⟩
  cases hw.udpMoved hv.1 u with
  | gone h => simp [h] at hu
  | created x hcreate => exact absurd (hcreate ▸ hl) (hL u)
  | kept hget => rwa [← hget]
  | touched x _ hx => simp [hx]
  | marked x _ hx => simp [hx]

theorem live_tick {nowMS : ℕ} (hs : Tidy s)
    (hk : ((tick R alive s nowMS).1.localConnectionPool.get k).isSome) :
    (s.localConnectionPool.get k).isSome ∨
      ∃ r ∈ served R s ⟨alive, .tick nowMS⟩, r.capability = .tcp ∧ r.entry = some k := by
  have hs' : Tidy { s with localTicker := nowMS } :=
    hs.congr (fun _ => rfl) (fun _ => rfl) rfl rfl
  have hdns := (processDnsResults_turns R alive { s with localTicker := nowMS }).tidy hs'
  have hk := (passes_turns alive hdns).live (by simp [IsPass]) hdns hk
  exact servedDnsResults_live _ _ hk

/-- The connections that are live after a step were, or were created by it. -/
theorem live_step (hs : Tidy s) (x : RelayInput)
    (hk : ((step R x.alive s x.event).1.localConnectionPool.get k).isSome) :
    (s.localConnectionPool.get k).isSome ∨
      ∃ r ∈ served R s x, r.capability = .tcp ∧ r.entry = some k := by
  have hquiet : (∀ k, ¬x.event.Allows (.create k)) → (s.localConnectionPool.get k).isSome :=
    fun hL => (step_turns R x.alive hs x.event).live hL hs hk
  rcases x with ⟨alive, ⟨d, i, a | ⟨name, port⟩, f⟩ | ⟨d, i⟩ | _ | _ | _ | _ | _ | _ | _ | _ | _ |
    _ | nowMS⟩
  all_goals try (refine .inl (hquiet ?_); simp [RelayEvent.Allows]; done)
  · rcases servedConnection_live (d := d)
      (createConnectionToAddress_served (R := R) s d i f a) hk with h | h
    · exact .inl h
    · exact .inr ⟨_, List.mem_singleton_self _, rfl, h⟩
  · refine .inl ?_
    rwa [← (createConnectionToHostname_served (R := R) s d i port f).1]
  · exact live_tick hs hk

/-- The UDP channels that are live after a step were, or were created by it. -/
theorem udpLive_step (hs : Tidy s) (x : RelayInput)
    (hu : ((step R x.alive s x.event).1.localUdpChannelPool.get u).isSome) :
    (s.localUdpChannelPool.get u).isSome ∨
      ∃ r ∈ served R s x, r.capability = .udp ∧ r.entry = some u := by
  have hquiet : (∀ u, ¬x.event.Allows (.createUdp u)) → (s.localUdpChannelPool.get u).isSome :=
    fun hL => (step_turns R x.alive hs x.event).udpLive hL hs hu
  rcases x with ⟨alive, _ | ⟨d, i⟩ | _ | _ | _ | _ | _ | _ | _ | _ | _ | _ | _⟩
  all_goals try (refine .inl (hquiet ?_); simp [RelayEvent.Allows]; done)
  refine or_iff_not_imp_left.2 fun hnone => ⟨_, List.mem_singleton_self _, rfl, ?_⟩
  rcases createUdpChannel_served (R := R) s d i with ⟨-, y, j, -, hacquire⟩ | ⟨-, -, hsame⟩
  · have hget := Storage.get_acquire hacquire u
    split at hget
    · next hj =>
      dsimp only
      rw [newEntry_of_acquire hacquire, hj]
    · exact absurd (by rwa [← hget]) hnone
  · exact absurd (by rwa [← hsame.2]) hnone

/-- An entry was created for a request that was not answered with nothing. -/
theorem served_entry {x : RelayInput} {r : ServedRequest} (hr : r ∈ served R s x)
    (hanswer : r.answer = .ready none) : r.entry = none := by
  rcases x with ⟨alive, ⟨d, i, a | ⟨name, port⟩, f⟩ | ⟨d, i⟩ | _ | _ | _ | _ | _ | _ | _ | _ | _ |
    _ | nowMS⟩
  all_goals try exact absurd hr List.not_mem_nil
  · obtain rfl := List.mem_singleton.1 hr
    rcases servedConnection_cases (d := d) (createConnectionToAddress_served (R := R) s d i f a) with
      ⟨-, h⟩ | ⟨-, -, h⟩
    · rw [h] at hanswer
      cases hanswer
    · exact h
  · obtain ⟨hpool, h | h⟩ := createConnectionToHostname_served (R := R) s d i port f
    · simp [served, h] at hr
    · obtain rfl : r = _ := by simpa [served, h] using hr
      exact newEntry_of_sameEntries (by rw [hpool]; exact .refl _)
  · obtain rfl := List.mem_singleton.1 hr
    rcases createUdpChannel_served (R := R) s d i with ⟨-, y, u, h, -⟩ | ⟨-, -, h⟩
    · simp [h] at hanswer
    · exact newEntry_of_sameEntries h
  · exact (servedDnsResults_entry hr).2 hanswer

/-! ## Runs -/

theorem localDeviceList_next (hs : Tidy s) {x : RelayInput} (h : next R s x = .ok t) :
    t.localDeviceList = s.localDeviceList := by
  obtain rfl := Except.ok.inj h
  exact (step_turns R x.alive hs x.event).localDeviceList

theorem Enforces.next {log : List ServedRequest} {x : RelayInput} (hs : Tidy s)
    (henforces : s.Enforces log) (habstains : Abstains R s x) (h : next R s x = .ok t) :
    t.Enforces (log ++ served R s x) := by
  have henables := enables_congr (localDeviceList_next hs h)
  obtain rfl := Except.ok.inj h
  have hserved := (served_refused s x).2 habstains
  -- what the step created, it created on a device that has the capability
  have hnew : ∀ r ∈ served R s x, ∀ j, r.entry = some j → s.enables r.capability r.deviceId := by
    intro r hr j hj
    by_contra hno
    rw [served_entry hr (hserved r hr hno)] at hj
    cases hj
  refine ⟨fun k hk => ?_, fun u hu => ?_, fun r hr => ?_⟩
  · rw [henables]
    rcases live_step hs x hk with hk | ⟨r, hr, hcap, hentry⟩
    · obtain ⟨r, hr, h⟩ := henforces.connection k hk
      exact ⟨r, List.mem_append_left _ hr, h⟩
    · exact ⟨r, List.mem_append_right _ hr, hcap, hentry, hcap ▸ hnew r hr k hentry⟩
  · rw [henables]
    rcases udpLive_step hs x hu with hu | ⟨r, hr, hcap, hentry⟩
    · obtain ⟨r, hr, h⟩ := henforces.udpChannel u hu
      exact ⟨r, List.mem_append_left _ hr, h⟩
    · exact ⟨r, List.mem_append_right _ hr, hcap, hentry, hcap ▸ hnew r hr u hentry⟩
  · rw [henables]
    rcases List.mem_append.1 hr with hr | hr
    · exact henforces.refused r hr
    · exact hserved r hr

variable (R) in
/-- The flags of the devices are enforced all along a run if and only if no request on a device
    without the capability finds room and a socket. -/
theorem enforces_iff (devices : List RelayLocalDevice) (es : List RelayInput) :
    (∀ pre, pre <+: es → ∀ s, exec (next R) (init devices) pre = .ok s →
      s.Enforces (collectAlong (next R) (served R) (init devices) pre)) ↔
    Along (next R) (Abstains R) (init devices) es := by
  constructor
  · intro h
    refine along_iff.2 fun pre x s hpre hs => ?_
    have hnext : exec (next R) (init devices) (pre ++ [x]) = next R s x := exec_snoc x hs
    have henforces := h (pre ++ [x]) hpre _ hnext
    rw [collectAlong_snoc x hs] at henforces
    rw [← served_refused, ← enables_congr (localDeviceList_next (tidy_of_exec hs) rfl)]
    exact fun r hr => henforces.refused r (List.mem_append_right _ hr)
  · intro h pre hpre s hs
    refine (exec_history_along (C := Abstains R) (I := fun pre s =>
      exec (next R) (init devices) pre = .ok s ∧
        s.Enforces (collectAlong (next R) (served R) (init devices) pre))
      (fun pre s x t hI hx ht => ?_) ⟨rfl, ?_⟩ (h.of_prefix hpre) hs).2
    · refine ⟨(exec_snoc x hI.1).trans ht, ?_⟩
      rw [collectAlong_snoc x hI.1]
      exact hI.2.next (tidy_of_exec hI.1) hx ht
    · exact ⟨fun k hk => by simp [init] at hk, fun u hu => by simp [init] at hu,
        fun r hr => absurd hr List.not_mem_nil⟩

/-- A configuration with a device for UDP. -/
def udpOption : RelayLocalBindingOption where
  bindAddress := loopbackAddress.ip
  exportAddress := loopbackAddress.ip
  enableUdp := true

/-- A connection is opened on a device that is configured for UDP only. -/
theorem enforces_counterexample :
    ¬∀ optionList devices, createLocalDeviceList optionList = .ok devices →
      ∀ s es, exec (next openPlatform) (init devices) es = .ok s →
        s.Enforces (collectAlong (next openPlatform) (served openPlatform) (init devices) es) := by
  intro h
  let device : RelayLocalDevice := { loopbackDevice with enableTcp := false }
  have hinit : createLocalDeviceList [udpOption] = .ok [device] :=
    if_pos ⟨by decide, List.nodup_singleton _⟩
  obtain ⟨s, hs, hlive⟩ := exists_ok_of_check
    (x := exec (next openPlatform) (init [device]) (openedEvents.take 1))
    (p := fun s => (s.localConnectionPool.get 1).isSome ∧ s.localDeviceList.all (!·.enableTcp))
    (by decide +kernel)
  obtain ⟨hlive, hflags⟩ := of_decide_eq_true hlive
  obtain ⟨r, -, -, -, henables⟩ := (h _ _ hinit s _ hs).connection 1 hlive
  obtain ⟨device, hdevice, htcp⟩ := exists_of_enables henables
  have hflag := List.all_eq_true.1 hflags device hdevice
  rw [show device.enableTcp = true from htcp] at hflag
  cases hflag

end RelayLocalBindingService

end ProxyPlatform
