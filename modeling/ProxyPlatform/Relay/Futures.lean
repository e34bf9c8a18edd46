import ProxyPlatform.Dns.Calls
import ProxyPlatform.Relay.Holders

/-!
# The relay answers once

The relay with its DNS service, and with callers that pass a future of their own to each
call, and release it when they like (`RelayDnsRun`). A future of a caller is completed by
the call, or held by the relay (`RelayLocalBindingService.Holds`): in a lookup, then in a
connection. The future of a lookup is in turn referenced by a source request of the DNS
service, until it is linked in the ready list, from which a tick of the relay takes it.

* `LookupsKept`: a lookup waits in the DNS service or is answered, and is released once;
* `Owed`: a future of a caller is held, was completed, or is gone;
* `answersOnce_of_exec`: so it is in every run of callers that destroy only connections
  they were told of (`RelayDnsRun.Permits`).

The futures of all callers are in one pool: what the relay knows of a future is its handle.
-/

namespace ProxyPlatform

/-- What a caller of the relay finds in its future. -/
inductive RelayResult
  | device (d : DeviceReference)
  | connection (k : ℕ)
  | udpChannel (u : ℕ)

/-- The id of a connection in a result. -/
def RelayResult.connectionId? : RelayResult → Option ℕ
  | .connection k => some k
  | _ => none

/-- An event of the relay, with its DNS service and its callers. -/
inductive RelayDnsEvent
  | acquireDevice (request : DeviceRequest)
  | createConnection (deviceId proxySideConnectionId : ℕ) (target : Target)
  | createUdpChannel (deviceId proxySideUdpChannelId : ℕ)
  /-- A caller releases its future `i`. -/
  | releaseFuture (i : ℕ)
  /-- A caller takes the first of the ready futures. -/
  | popReady
  /-- Any other event of the relay. -/
  | relay (event : RelayEvent)
  /-- A query thread ends the lookup of a request. -/
  | finishRequest (requestNodeId : ℕ) (a4List a6List : List NetAddress)
  | dnsTick (nowMS : ℕ)

/-- The relay with its DNS service and its callers. -/
structure RelayDnsRun where
  relay : RelayLocalBindingService
  dns : DnsLocalService
  futures : FuturePoolManager Unit RelayResult
  /-- The futures passed to the calls. -/
  passed : List ℕ
  /-- The futures `SetReady` was called on. -/
  readied : List ℕ
  /-- The ids of connections in the results so far. -/
  received : List ℕ
  /-- The futures of lookups that `ReleaseFuture` was called on. -/
  dnsReleased : List ℕ

namespace RelayDnsRun

open RelayLocalBindingService DnsLocalService

/-- The relay and the DNS service at the time `nowMS`, with callers of at most `n` futures. -/
def init (devices : List RelayLocalDevice) (n nowMS : ℕ) : RelayDnsRun where
  relay := .init devices
  dns := .init nowMS
  futures := .empty n
  passed := []
  readied := []
  received := []
  dnsReleased := []

/-- The future `i` of a caller is live. -/
def alive (r : RelayDnsRun) (i : ℕ) : Bool := (r.futures.get i).isSome

/-- The lookup `d` is live. -/
def isLookup (r : RelayDnsRun) (d : ℕ) : Bool := (r.relay.dnsFutureManager.get d).isSome

/-- `SetReady` of some futures of the callers, each with its result, in order. -/
def completeAll (r : RelayDnsRun) (answers : List (ℕ × Option RelayResult)) : RelayDnsRun :=
  { r with
    futures := r.futures.setReadyAll answers
    readied := r.readied ++ answers.map Prod.fst
    received := r.received ++ answers.filterMap fun x => x.2.bind RelayResult.connectionId? }

/-- A call with the future `i` returned. -/
def returned (r : RelayDnsRun) (i : ℕ) : Completion ℕ → RelayDnsRun
  | .pending => r
  | .ready k => r.completeAll [(i, k.map .connection)]

/-- A lookup for the future `i`. -/
def lookupFor (deviceId proxySideConnectionId targetPort i : ℕ) : RelayDnsRequest where
  relaySideDeviceId := deviceId
  proxySideConnectionId := proxySideConnectionId
  createConnectionFutureHandle := i
  targetPort := targetPort

/-- `CreateConnection` to a host name, with the future `i`. -/
def createConnectionToHostname (R : RelayPlatform) (r : RelayDnsRun)
    (deviceId proxySideConnectionId : ℕ) (hostname : Bytes) (targetPort i : ℕ) :
    Except Fault RelayDnsRun :=
  let create (R : RelayPlatform) :=
    r.relay.createConnectionToHostname R deviceId proxySideConnectionId targetPort i
  match r.relay.dnsFutureManager.acquireFuture
      (lookupFor deviceId proxySideConnectionId targetPort i) with
  | none =>
    let (relay, completion) := create R
    .ok ({ r with relay := relay }.returned i completion)
  | some (d, _) => match r.dns.resolveDns hostname d with
    | .error x => .error x
    | .ok (dns, answer) =>
      let (relay, completion) := create { R with resolveDns := fun _ => answer.isSome }
      match answer with
      | none => .ok ({ r with
          relay := relay, dns := dns, dnsReleased := r.dnsReleased ++ [d] }.returned i completion)
      | some answer => .ok ({ r with
          relay := { relay with dnsFutureManager := relay.dnsFutureManager.complete d answer }
          dns := dns }.returned i completion)

/-- `CreateConnection`, with the future `i`. -/
def createConnection (R : RelayPlatform) (r : RelayDnsRun) (deviceId proxySideConnectionId : ℕ)
    (i : ℕ) : Target → Except Fault RelayDnsRun
  | .address a =>
    let (relay, completion) :=
      r.relay.createConnectionToAddress R deviceId proxySideConnectionId a i
    .ok ({ r with relay := relay }.returned i completion)
  | .hostname name port =>
    r.createConnectionToHostname R deviceId proxySideConnectionId name port i

/-- A caller acquires a future, and passes it to the call `run`. -/
def call (r : RelayDnsRun) (run : RelayDnsRun → ℕ → Except Fault RelayDnsRun) :
    Except Fault RelayDnsRun :=
  match r.futures.acquireFuture () with
  | none => .ok r
  | some (i, futures) => run { r with futures := futures, passed := r.passed ++ [i] } i

/-- The lookups that an event of the relay releases. -/
def releasedBy (s : RelayLocalBindingService) : RelayEvent → List ℕ
  | .tick _ => s.dnsFutureManager.futureList
  | _ => []

/-- The answers among what the relay does, as the callers find them. -/
def resultsOf (o : List ProxyEvent) : List (ℕ × Option RelayResult) :=
  (answersOf o).map fun x => (x.1, x.2.map .connection)

/-- A step of the relay, its DNS service and its callers. -/
def step (R : RelayPlatform) (r : RelayDnsRun) : RelayDnsEvent → Except Fault RelayDnsRun
  | .acquireDevice request => r.call fun r i =>
    .ok (r.completeAll [(i, (r.relay.acquireDevice request).map .device)])
  | .createConnection deviceId proxySideConnectionId target => r.call fun r i =>
    r.createConnection R deviceId proxySideConnectionId i target
  | .createUdpChannel deviceId proxySideUdpChannelId => r.call fun r i =>
    let (relay, channel) := r.relay.createUdpChannel R deviceId proxySideUdpChannelId
    .ok ({ r with relay := relay }.completeAll [(i, channel.map .udpChannel)])
  | .releaseFuture i => .ok { r with futures := r.futures.releaseFuture i }
  | .popReady => match r.futures.popHead with
    | none => .ok r
    | some (_, futures) => .ok { r with futures := futures }
  | .relay e =>
    let (relay, o) := r.relay.step R r.alive e
    .ok ({ r with
      relay := relay
      dnsReleased := r.dnsReleased ++ releasedBy r.relay e }.completeAll (resultsOf o))
  | .finishRequest requestNodeId a4List a6List =>
    .ok { r with dns := r.dns.finishRequest requestNodeId a4List a6List }
  | .dnsTick nowMS => match r.dns.tick r.isLookup nowMS with
    | .error x => .error x
    | .ok (dns, answers) => .ok { r with
      dns := dns
      relay := { r.relay with dnsFutureManager := r.relay.dnsFutureManager.setReadyAll answers } }

/-- The calls that take a future are made with one, the lookups are answered by the DNS service, and
    a connection is destroyed only when its id was received. -/
def Permits (r : RelayDnsRun) : RelayDnsEvent → Prop
  | .relay (.createConnection ..) | .relay (.createUdpChannel ..) | .relay (.dnsResult ..) => False
  | .relay (.destroyConnection k) => k ∈ r.received
  | _ => True

instance (r : RelayDnsRun) (e : RelayDnsEvent) : Decidable (r.Permits e) := by
  unfold Permits
  split <;> infer_instance

variable {R : RelayPlatform} {r t : RelayDnsRun} {i : ℕ}

/-! ## Lookups -/

/-- A source request waits with the lookup `d`. -/
def IsAwaited (dns : DnsLocalService) (d : ℕ) : Prop :=
  ∃ q x, dns.dnsSourceRequestPool.get q = some x ∧ x.futureHandle = d

/-- The lookups wait at the DNS service or are answered, and were released if they are gone. -/
structure LookupsKept (m : FuturePoolManager RelayDnsRequest DnsResult) (dns : DnsLocalService)
    (released : List ℕ) : Prop where
  consistent : Consistent dns
  requested : Requested dns
  injective : ∀ q q' x x', dns.dnsSourceRequestPool.get q = some x →
    dns.dnsSourceRequestPool.get q' = some x' → x.futureHandle = x'.futureHandle → q = q'
  awaited : ∀ d, IsAwaited dns d ↔ ∃ f, m.get d = some f ∧ f.isReady = false
  listed : ∀ d f, m.get d = some f → f.isReady = true → d ∈ m.futureList
  nodup : released.Nodup
  released : ∀ d, d ∈ released ↔ 0 < d ∧ d ≤ m.futurePool.lastId ∧ m.get d = none

section

variable {m m' : FuturePoolManager RelayDnsRequest DnsResult} {dns dns' : DnsLocalService}
  {released : List ℕ} {request : RelayDnsRequest} {d : ℕ}

/-- A lookup that is new is live, and nothing waits with it. -/
theorem LookupsKept.fresh (h : LookupsKept m dns released)
    (hm : m.acquireFuture request = some (d, m')) :
    (∀ e, m'.get e = if e = d then some { context := request } else m.get e) ∧
      m.get d = none ∧ ¬IsAwaited dns d ∧ d ∉ released ∧ m'.futureList = m.futureList ∧
      m.futurePool.lastId < d ∧ m'.futurePool.lastId = d := by
  obtain ⟨hnone, -, hlist, hget⟩ := FuturePoolManager.acquireFuture_eq_some hm
  obtain ⟨hd, hlast⟩ := FuturePoolManager.lastId_of_acquireFuture hm
  refine ⟨hget, hnone, fun hawait => ?_, fun hmem => ?_, hlist, by omega, hlast⟩
  · obtain ⟨f, hf, -⟩ := (h.awaited d).1 hawait
    rw [hnone] at hf
    cases hf
  · have := ((h.released d).1 hmem).2.1
    omega

/-- What was released, when the ids went on from `m` to the new one. -/
theorem LookupsKept.released_acquire (h : LookupsKept m dns released)
    (hm : m.acquireFuture request = some (d, m')) {n : FuturePoolManager RelayDnsRequest DnsResult}
    (hlast : n.futurePool.lastId = d) (hget : ∀ e, e ≠ d → n.get e = m.get e) (e : ℕ) (he : e ≠ d) :
    e ∈ released ↔ 0 < e ∧ e ≤ n.futurePool.lastId ∧ n.get e = none := by
  obtain ⟨hd, -⟩ := FuturePoolManager.lastId_of_acquireFuture hm
  rw [h.released, hget e he, hlast]
  constructor
  · rintro ⟨hpos, hle, hnone⟩
    exact ⟨hpos, by omega, hnone⟩
  · rintro ⟨hpos, hle, hnone⟩
    exact ⟨hpos, by omega, hnone⟩

/-- A lookup is refused. -/
theorem LookupsKept.refuse (h : LookupsKept m dns released)
    (hm : m.acquireFuture request = some (d, m')) (hd : SameContents dns dns') :
    LookupsKept (m'.releaseFuture d) dns' (released ++ [d]) := by
  obtain ⟨hget, hnone, hawait, hnew, hlist, hlt, hlast⟩ := h.fresh hm
  have hsame : ∀ e, (m'.releaseFuture d).get e = m.get e := by
    intro e
    rw [FuturePoolManager.get_releaseFuture, hget]
    by_cases he : e = d
    · rw [if_pos he, he, hnone]
    · rw [if_neg he, if_neg he]
  have hlast' : (m'.releaseFuture d).futurePool.lastId = d := hlast
  refine ⟨hd.consistent h.consistent, hd.requested h.requested, ?_, fun e => ?_, fun e f hf hr => ?_,
    ?_, fun e => ?_⟩
  · intro q q' x x' hx hx'
    rw [hd.sources] at hx hx'
    exact h.injective q q' x x' hx hx'
  · rw [hsame, ← h.awaited]
    simp only [IsAwaited, hd.sources]
  · rw [hsame] at hf
    rw [FuturePoolManager.mem_futureList_releaseFuture, hlist]
    refine ⟨?_, h.listed e f hf hr⟩
    rintro rfl
    rw [hnone] at hf
    cases hf
  · exact (List.perm_append_singleton d _).nodup_iff.2 (List.nodup_cons.2 ⟨hnew, h.nodup⟩)
  · rw [List.mem_append, List.mem_singleton]
    by_cases he : e = d
    · rw [he, hsame, hlast', hnone]
      exact iff_of_true (.inr rfl) ⟨by omega, le_rfl, rfl⟩
    · rw [or_iff_left he]
      exact h.released_acquire hm hlast' (fun e _ => hsame e) e he

/-- A lookup waits. -/
theorem LookupsKept.wait {hostname : Bytes} (h : LookupsKept m dns released)
    (hm : m.acquireFuture request = some (d, m')) (hd : Waits dns hostname d dns') :
    LookupsKept m' dns' released := by
  obtain ⟨hget, hnone, hawait, hnew, hlist, hlt, hlast⟩ := h.fresh hm
  obtain ⟨q, hq, hsource, -⟩ := hd.source
  have hcases : ∀ q' x, dns'.dnsSourceRequestPool.get q' = some x ↔
      q' = q ∧ x = ⟨q, d⟩ ∨ dns.dnsSourceRequestPool.get q' = some x := by
    intro q' x
    rw [hsource]
    by_cases hq' : q' = q
    · rw [if_pos hq', Option.some_inj, hq', hq]
      simp [eq_comm]
    · rw [if_neg hq']
      simp [hq']
  have hold : ∀ q' x, dns.dnsSourceRequestPool.get q' = some x → x.futureHandle ≠ d :=
    fun q' x hx hxd => hawait ⟨q', x, hx, hxd⟩
  refine ⟨hd.consistent h.consistent, hd.requested h.requested, ?_, fun e => ?_, fun e f hf hr => ?_,
    h.nodup, fun e => ?_⟩
  · intro q₁ q₂ x₁ x₂ h₁ h₂ hx
    rcases (hcases q₁ x₁).1 h₁ with ⟨rfl, rfl⟩ | h₁ <;>
      rcases (hcases q₂ x₂).1 h₂ with ⟨rfl, rfl⟩ | h₂
    · rfl
    · exact absurd hx.symm (hold q₂ x₂ h₂)
    · exact absurd hx (hold q₁ x₁ h₁)
    · exact h.injective q₁ q₂ x₁ x₂ h₁ h₂ hx
  · by_cases he : e = d
    · rw [hget, if_pos he, he]
      exact iff_of_true ⟨q, ⟨q, d⟩, (hcases _ _).2 (.inl ⟨rfl, rfl⟩), rfl⟩ ⟨_, rfl, rfl⟩
    · rw [hget, if_neg he, ← h.awaited]
      constructor
      · rintro ⟨q', x, hx, rfl⟩
        rcases (hcases q' x).1 hx with ⟨-, rfl⟩ | hx
        · exact absurd rfl he
        · exact ⟨q', x, hx, rfl⟩
      · rintro ⟨q', x, hx, hxe⟩
        exact ⟨q', x, (hcases q' x).2 (.inr hx), hxe⟩
  · rw [hget] at hf
    rw [hlist]
    split at hf
    · cases hf
      cases hr
    · exact h.listed e f hf hr
  · by_cases he : e = d
    · rw [he, hget, if_pos rfl]
      exact iff_of_false hnew fun hnone => by cases hnone.2.2
    · exact h.released_acquire hm hlast (fun e he => by rw [hget, if_neg he]) e he

/-- A lookup is answered from the cache. -/
theorem LookupsKept.serve {hostname : Bytes} (h : LookupsKept m dns released)
    (hm : m.acquireFuture request = some (d, m')) (hd : Serves dns hostname dns')
    (result : Option DnsResult) : LookupsKept (m'.setReady d result) dns' released := by
  obtain ⟨hget, hnone, hawait, hnew, hlist, hlt, hlast⟩ := h.fresh hm
  have hd₀ : m'.get d = some { context := request } := by rw [hget, if_pos rfl]
  have hgets := FuturePoolManager.get_setReady hd₀ result
  have hlast' : (m'.setReady d result).futurePool.lastId = d := by
    rw [FuturePoolManager.lastId_setReady, hlast]
  refine ⟨hd.consistent h.consistent, hd.requested h.requested, ?_, fun e => ?_, fun e f hf hr => ?_,
    h.nodup, fun e => ?_⟩
  · intro q q' x x' hx hx'
    rw [hd.dnsSourceRequestPool] at hx hx'
    exact h.injective q q' x x' hx hx'
  · have hsame : IsAwaited dns' e ↔ IsAwaited dns e := by
      simp only [IsAwaited, hd.dnsSourceRequestPool]
    rw [hsame, hgets]
    by_cases he : e = d
    · rw [if_pos he, he]
      exact iff_of_false hawait fun ⟨f, hf, hr⟩ => by cases hf; cases hr
    · rw [if_neg he, hget, if_neg he, h.awaited]
  · rw [FuturePoolManager.mem_futureList_setReady hd₀, hlist]
    rw [hgets] at hf
    split at hf
    · next he => exact .inl he
    · next he =>
      rw [hget, if_neg he] at hf
      exact .inr (h.listed e f hf hr)
  · by_cases he : e = d
    · rw [he, hgets, if_pos rfl]
      exact iff_of_false hnew fun hnone => by cases hnone.2.2
    · exact h.released_acquire hm hlast' (fun e he => by rw [hgets, if_neg he, hget, if_neg he]) e he

/-- The lookups that are answered are released. -/
theorem LookupsKept.release {s s' : RelayLocalBindingService}
    (h : LookupsKept s.dnsFutureManager dns released)
    (hs : Releases s s.dnsFutureManager.futureList s') :
    LookupsKept s'.dnsFutureManager dns (released ++ s.dnsFutureManager.futureList) := by
  have hready : ∀ d ∈ s.dnsFutureManager.futureList,
      ∃ f, s.dnsFutureManager.get d = some f ∧ f.isReady = true := s.dnsFutureManager.ready_live
  refine ⟨h.consistent, h.requested, h.injective, fun d => ?_, fun d f hf hr => ?_, ?_, fun d => ?_⟩
  · rw [h.awaited, hs.get]
    by_cases hd : d ∈ s.dnsFutureManager.futureList
    · obtain ⟨g, hg, hr⟩ := hready d hd
      rw [if_pos hd, hg]
      refine iff_of_false (fun ⟨f, hf, hun⟩ => ?_) fun ⟨_, hf, _⟩ => by cases hf
      cases hf
      rw [hr] at hun
      cases hun
    · rw [if_neg hd]
  · rw [hs.get] at hf
    split at hf
    · cases hf
    · next hd => exact absurd (h.listed d f hf hr) hd
  · refine List.nodup_append.2 ⟨h.nodup, s.dnsFutureManager.nodup, ?_⟩
    rintro d hd _ hd' rfl
    obtain ⟨f, hf, -⟩ := hready d hd'
    rw [((h.released d).1 hd).2.2] at hf
    cases hf
  · rw [List.mem_append, h.released, hs.get, hs.lastId]
    by_cases hd : d ∈ s.dnsFutureManager.futureList
    · obtain ⟨f, hf, -⟩ := hready d hd
      rw [if_pos hd]
      exact iff_of_true (.inr hd) ⟨FuturePoolManager.pos_of_get hf, Storage.le_lastId_of_get hf, rfl⟩
    · rw [if_neg hd, or_iff_left hd]

/-- A lookup of the DNS service ends. -/
theorem LookupsKept.finishRequest (h : LookupsKept m dns released) (p : ℕ)
    (a4List a6List : List NetAddress) :
    LookupsKept m (dns.finishRequest p a4List a6List) released := by
  have hc := finishRequest_consistent h.consistent p a4List a6List
  have hr := finishRequest_requested h.requested p a4List a6List
  rcases finishRequest_eq dns p a4List a6List with heq | ⟨-, x, -, heq⟩
  · rw [heq]
    exact h
  · rw [heq] at hc hr ⊢
    exact ⟨hc, hr, h.injective, h.awaited, h.listed, h.nodup, h.released⟩

/-- The DNS service ticks: what waits no more is answered. -/
theorem LookupsKept.ticks (h : LookupsKept m dns released) {nowMS : ℕ} {answers : List DnsAnswer}
    (hd : Ticks (fun d => (m.get d).isSome) dns nowMS dns' answers) :
    LookupsKept (m.setReadyAll answers) dns' released := by
  have hget := FuturePoolManager.get_setReadyAll m answers
  have hmem : ∀ d, d ∈ answers.map Prod.fst ↔ IsAwaited dns d ∧ ¬IsAwaited dns' d := by
    intro d
    rw [hd.settles.mem_iff]
    constructor
    · rintro ⟨-, q, x, hx, hgone, rfl⟩
      refine ⟨⟨q, x, hx, rfl⟩, ?_⟩
      rintro ⟨q', x', hx', hxx⟩
      obtain rfl := h.injective q' q x' x (hd.settles.get hx') hx hxx
      rw [hgone] at hx'
      cases hx'
    · rintro ⟨⟨q, x, hx, rfl⟩, hnot⟩
      obtain ⟨f, hf, -⟩ := (h.awaited _).1 ⟨q, x, hx, rfl⟩
      refine ⟨by rw [hf]; rfl, q, x, hx, ?_, rfl⟩
      rcases hq : dns'.dnsSourceRequestPool.get q with _ | x'
      · rfl
      · have hxx := hd.settles.get hq
        rw [show dns.dnsSourceRequestPool.get q = some x from hx, Option.some_inj] at hxx
        exact absurd ⟨q, x', hq, by rw [hxx]⟩ hnot
  have hold : ∀ d, IsAwaited dns' d → IsAwaited dns d :=
    fun d ⟨q, x, hx, hxd⟩ => ⟨q, x, hd.settles.get hx, hxd⟩
  have hlive : ∀ d g, (m.setReadyAll answers).get d = some g → ∃ f, m.get d = some f ∧
      g.isReady = (f.isReady || decide (d ∈ answers.map Prod.fst)) := by
    intro d g hg
    have hd' := hget d
    rw [hg, Option.map_some] at hd'
    obtain ⟨f, hf, hgf⟩ := Option.map_eq_some_iff.1 hd'.symm
    exact ⟨f, hf, hgf.symm⟩
  refine ⟨hd.consistent, hd.requested h.requested, fun q q' x x' hx hx' =>
    h.injective q q' x x' (hd.settles.get hx) (hd.settles.get hx'), fun d => ?_, fun d g hg hr => ?_,
    h.nodup, fun d => ?_⟩
  · constructor
    · intro hawait
      obtain ⟨f, hf, hun⟩ := (h.awaited d).1 (hold d hawait)
      have hnot : d ∉ answers.map Prod.fst := fun hans => ((hmem d).1 hans).2 hawait
      have hd' := hget d
      rw [hf, Option.map_some, hun, decide_eq_false hnot, Option.map_eq_some_iff] at hd'
      exact hd'
    · rintro ⟨g, hg, hun⟩
      obtain ⟨f, hf, hgf⟩ := hlive d g hg
      rw [hgf, Bool.or_eq_false_iff, decide_eq_false_iff_not, hmem, not_and, not_not] at hun
      exact hun.2 ((h.awaited d).2 ⟨f, hf, hun.1⟩)
  · obtain ⟨f, hf, hgf⟩ := hlive d g hg
    rw [FuturePoolManager.mem_futureList_setReadyAll]
    rw [hgf, Bool.or_eq_true, decide_eq_true_eq] at hr
    rcases hr with hr | hr
    · exact .inl (h.listed d f hf hr)
    · exact .inr ⟨hr, by rw [hf]; rfl⟩
  · rw [h.released, FuturePoolManager.lastId_setReadyAll, ← Option.isNone_iff_eq_none,
      ← Option.isNone_iff_eq_none, ← Option.isNone_map (f := Future.isReady),
      ← Option.isNone_map (f := Future.isReady) (x := (m.setReadyAll answers).get d), hget,
      Option.isNone_map, Option.isNone_map]

end

/-! ## Futures of the callers -/

/-- A future of a caller is held, was completed, or is gone. -/
structure Owed (r : RelayDnsRun) : Prop where
  tidy : Tidy r.relay
  once : HeldOnce r.relay
  held : ∀ i, IsHeld r.relay i → i ∈ r.passed ∧ i ∉ r.readied
  turn : ∀ i ∈ r.passed, IsHeld r.relay i ∨ i ∈ r.readied ∨ r.futures.get i = none
  passed : ∀ i ∈ r.readied, i ∈ r.passed
  nodup : r.readied.Nodup
  bound : ∀ i ∈ r.passed, i ≤ r.futures.futurePool.lastId
  isReady : ∀ i f, r.futures.get i = some f → (f.isReady = true ↔ i ∈ r.readied)
  received : ∀ k ∈ r.received, Established k r.relay

theorem init_owed (devices : List RelayLocalDevice) (n nowMS : ℕ) : Owed (init devices n nowMS) where
  tidy := tidy_init devices
  once x y i hx := by
    rcases x with d | k
    · obtain ⟨f, hf, -⟩ := hx
      cases hf
    · obtain ⟨c, hc, -⟩ := hx
      cases hc
  held i := by
    rintro ⟨d | k, f, hf, -⟩ <;> cases hf
  turn _ hi := by cases hi
  passed _ hi := by cases hi
  nodup := List.nodup_nil
  bound _ hi := by cases hi
  isReady _ _ hf := by cases hf
  received _ hk := by cases hk

variable {m : FuturePoolManager Unit RelayResult} {s : RelayLocalBindingService}

/-- Futures are released, or taken out of the list. -/
theorem Owed.of_futures (hr : Owed r)
    (hget : ∀ i f, m.get i = some f → ∃ g, r.futures.get i = some g ∧ g.isReady = f.isReady)
    (hlast : m.futurePool.lastId = r.futures.futurePool.lastId) :
    Owed { r with futures := m } where
  tidy := hr.tidy
  once := hr.once
  held := hr.held
  turn i hi := by
    refine (hr.turn i hi).imp_right (Or.imp_right fun h => ?_)
    rcases hm : m.get i with _ | f
    · rfl
    · obtain ⟨g, hg, -⟩ := hget i f hm
      rw [h] at hg
      cases hg
  passed := hr.passed
  nodup := hr.nodup
  bound i hi := hlast ▸ hr.bound i hi
  isReady i f hf := by
    obtain ⟨g, hg, hgf⟩ := hget i f hf
    rw [← hgf]
    exact hr.isReady i g hg
  received := hr.received

/-- Nothing becomes of the futures. -/
theorem Owed.alike (hr : Owed r) (h : Alike r.relay s) (dns : DnsLocalService) (released : List ℕ) :
    Owed { r with relay := s, dns := dns, dnsReleased := released } where
  tidy := h.tidy
  once x y i hx hy := hr.once x y i ((h.holds x i).1 hx) ((h.holds y i).1 hy)
  held i := fun ⟨x, hx⟩ => hr.held i ⟨x, (h.holds x i).1 hx⟩
  turn i hi := by
    refine (hr.turn i hi).imp_left ?_
    rintro ⟨x, hx⟩
    exact ⟨x, (h.holds x i).2 hx⟩
  passed := hr.passed
  nodup := hr.nodup
  bound := hr.bound
  isReady := hr.isReady
  received k hk := h.established k (hr.received k hk)

/-- The future `i` is new: it is live, and was not passed to a call yet. -/
structure IsFresh (r : RelayDnsRun) (i : ℕ) : Prop where
  passed : i ∉ r.passed
  bound : i ≤ r.futures.futurePool.lastId
  get : r.futures.get i = some { context := () }

/-- A future that is acquired is new. -/
theorem Owed.acquire (hr : Owed r) (h : r.futures.acquireFuture () = some (i, m)) :
    Owed { r with futures := m } ∧ IsFresh { r with futures := m } i := by
  obtain ⟨hnone, -, -, hget⟩ := FuturePoolManager.acquireFuture_eq_some h
  obtain ⟨hi, hlast⟩ := FuturePoolManager.lastId_of_acquireFuture h
  have hnew : i ∉ r.passed := fun hmem => by
    have := hr.bound i hmem
    omega
  refine ⟨⟨hr.tidy, hr.once, hr.held, fun j hj => ?_, hr.passed, hr.nodup, fun j hj => ?_,
    fun j f hf => ?_, hr.received⟩, hnew, hlast.ge, (hget i).trans (if_pos rfl)⟩
  · refine (hr.turn j hj).imp_right (Or.imp_right fun h => ?_)
    exact (hget j).trans (by rw [if_neg (ne_of_mem_of_not_mem hj hnew), h])
  · have := hr.bound j hj
    change j ≤ m.futurePool.lastId
    omega
  · change m.get j = some f at hf
    rw [hget] at hf
    split at hf
    · next hji =>
      rw [Option.some_inj] at hf
      rw [← hf, hji]
      exact iff_of_false (by decide) fun hmem => hnew (hr.passed i hmem)
    · exact hr.isReady j f hf

/-- A call takes the future on. -/
theorem Owed.take (hr : Owed r) (hi : r.IsFresh i) (h : TakesOn r.relay i s) (dns : DnsLocalService) :
    Owed { r with relay := s, dns := dns, passed := r.passed ++ [i] } := by
  obtain ⟨x, hx, hholds⟩ := h.holder
  have hfree : ∀ y, ¬r.relay.Holds y i := fun y hy => hi.passed (hr.held i ⟨y, hy⟩).1
  refine ⟨h.tidy, fun y z j hy hz => ?_, fun j hj => ?_, fun j hj => ?_,
    fun j hj => List.mem_append_left _ (hr.passed j hj), hr.nodup, fun j hj => ?_, hr.isReady,
    fun k hk => h.established k (hr.received k hk)⟩
  · rcases (hholds y j).1 hy with ⟨rfl, rfl⟩ | hy <;> rcases (hholds z j).1 hz with ⟨rfl, hj⟩ | hz
    · rfl
    · exact absurd hz (hfree z)
    · exact absurd (hj ▸ hy) (hfree y)
    · exact hr.once y z j hy hz
  · obtain ⟨y, hy⟩ := hj
    rcases (hholds y j).1 hy with ⟨-, rfl⟩ | hy
    · exact ⟨List.mem_append_right _ (List.mem_singleton_self _),
        fun hmem => hi.passed (hr.passed _ hmem)⟩
    · obtain ⟨hmem, hnot⟩ := hr.held j ⟨y, hy⟩
      exact ⟨List.mem_append_left _ hmem, hnot⟩
  · rcases List.mem_append.1 hj with hj | hj
    · refine (hr.turn j hj).imp_left ?_
      rintro ⟨y, hy⟩
      exact ⟨y, (hholds y j).2 (.inr hy)⟩
    · exact .inl ⟨x, (hholds x j).2 (.inl ⟨rfl, List.mem_singleton.1 hj⟩)⟩
  · rcases List.mem_append.1 hj with hj | hj
    · exact hr.bound j hj
    · exact List.mem_singleton.1 hj ▸ hi.bound

/-- A call completes the future at once. -/
theorem Owed.answer (hr : Owed r) (hi : r.IsFresh i) (h : Alike r.relay s) (dns : DnsLocalService)
    (released : List ℕ) {result : Option RelayResult}
    (hid : result.bind RelayResult.connectionId? = none) :
    Owed (completeAll { r with
      relay := s, dns := dns, dnsReleased := released, passed := r.passed ++ [i] } [(i, result)]) := by
  have hnew : i ∉ r.readied := fun hmem => hi.passed (hr.passed i hmem)
  have hget := FuturePoolManager.get_setReady hi.get result
  refine ⟨h.tidy, fun y z j hy hz => hr.once y z j ((h.holds y j).1 hy) ((h.holds z j).1 hz),
    fun j hj => ?_, fun j hj => ?_, fun j hj => ?_, ?_, fun j hj => ?_, fun j f hf => ?_, fun k hk => ?_⟩
  · obtain ⟨y, hy⟩ := hj
    obtain ⟨hmem, hnot⟩ := hr.held j ⟨y, (h.holds y j).1 hy⟩
    refine ⟨List.mem_append_left _ hmem, fun hj => ?_⟩
    rcases List.mem_append.1 hj with hj | hj
    · exact hnot hj
    · rw [List.mem_singleton.1 hj] at hmem
      exact hi.passed hmem
  · rcases List.mem_append.1 hj with hj' | hj'
    · rcases hr.turn j hj' with ⟨y, hy⟩ | hmem | hnone
      · exact .inl ⟨y, (h.holds y j).2 hy⟩
      · exact .inr (.inl (List.mem_append_left _ hmem))
      · refine .inr (.inr ((hget j).trans ?_))
        rw [if_neg (ne_of_mem_of_not_mem hj' hi.passed), hnone]
    · exact .inr (.inl (List.mem_append_right _ hj'))
  · rcases List.mem_append.1 hj with hj | hj
    · exact List.mem_append_left _ (hr.passed j hj)
    · exact List.mem_append_right _ hj
  · exact (List.perm_append_singleton i _).nodup_iff.2 (List.nodup_cons.2 ⟨hnew, hr.nodup⟩)
  · change j ≤ (r.futures.setReady i result).futurePool.lastId
    rw [FuturePoolManager.lastId_setReady]
    rcases List.mem_append.1 hj with hj | hj
    · exact hr.bound j hj
    · exact List.mem_singleton.1 hj ▸ hi.bound
  · change (r.futures.setReady i result).get j = some f at hf
    change f.isReady = true ↔ j ∈ r.readied ++ [i]
    rw [hget] at hf
    rw [List.mem_append, List.mem_singleton]
    split at hf
    · next hj =>
      rw [Option.some_inj] at hf
      exact iff_of_true (by rw [← hf]) (.inr hj)
    · next hj =>
      rw [or_iff_left hj]
      exact hr.isReady j f hf
  · have hnone : [(i, result)].filterMap (fun x => x.2.bind RelayResult.connectionId?) = [] :=
      List.filterMap_cons_none (by exact hid)
    change k ∈ r.received ++ _ at hk
    rw [hnone, List.append_nil] at hk
    exact h.established k (hr.received k hk)

/-- The relay hands futures over, and completes some. -/
theorem Owed.progress {o : List ProxyEvent} {is : List ℕ} (hr : Owed r)
    (h : Progress r.alive r.relay o is s) (released : List ℕ) :
    Owed (completeAll { r with relay := s, dnsReleased := released } (resultsOf o)) := by
  have hfst : (resultsOf o).map Prod.fst = (answersOf o).map Prod.fst := by
    rw [resultsOf, List.map_map]
    rfl
  have hget := FuturePoolManager.get_setReadyAll r.futures (resultsOf o)
  rw [hfst] at hget
  refine ⟨h.tidy, h.handover.once, fun j hj => ?_, fun j hj => ?_, fun j hj => ?_, ?_, fun j hj => ?_,
    fun j f hf => ?_, fun k hk => ?_⟩
  · change j ∈ r.passed ∧ j ∉ r.readied ++ (resultsOf o).map Prod.fst
    obtain ⟨hmem, hnot⟩ := hr.held j (h.handover.held j hj)
    rw [hfst, List.mem_append, not_or]
    exact ⟨hmem, hnot, fun hans => (h.handover.answered j hans).2.2 hj⟩
  · change IsHeld s j ∨ j ∈ r.readied ++ (resultsOf o).map Prod.fst ∨
      (r.futures.setReadyAll (resultsOf o)).get j = none
    have hnone : r.futures.get j = none → (r.futures.setReadyAll (resultsOf o)).get j = none := by
      intro hj
      have hj' := hget j
      rw [hj, Option.map_none, Option.map_eq_none_iff] at hj'
      exact hj'
    rw [hfst, List.mem_append]
    rcases hr.turn j hj with hheld | hmem | hgone
    · rcases h.handover.lost j hheld with ht | hans | hdead
      · exact .inl ht
      · exact .inr (.inl (.inr hans))
      · refine .inr (.inr (hnone ?_))
        rwa [alive, Option.isSome_eq_false_iff, Option.isNone_iff_eq_none] at hdead
    · exact .inr (.inl (.inl hmem))
    · exact .inr (.inr (hnone hgone))
  · change j ∈ r.readied ++ (resultsOf o).map Prod.fst at hj
    rw [hfst, List.mem_append] at hj
    rcases hj with hj | hj
    · exact hr.passed j hj
    · exact (hr.held j (h.handover.answered j hj).2.1).1
  · change (r.readied ++ (resultsOf o).map Prod.fst).Nodup
    rw [hfst]
    refine List.nodup_append.2 ⟨hr.nodup, h.handover.nodup, ?_⟩
    rintro j hj _ hj' rfl
    exact (hr.held j (h.handover.answered j hj').2.1).2 hj
  · change j ≤ (r.futures.setReadyAll (resultsOf o)).futurePool.lastId
    rw [FuturePoolManager.lastId_setReadyAll]
    exact hr.bound j hj
  · change (r.futures.setReadyAll (resultsOf o)).get j = some f at hf
    change f.isReady = true ↔ j ∈ r.readied ++ (resultsOf o).map Prod.fst
    have hj := hget j
    rw [hf, Option.map_some, eq_comm, Option.map_eq_some_iff] at hj
    obtain ⟨g, hg, hgf⟩ := hj
    rw [← hgf, Bool.or_eq_true, decide_eq_true_eq, hr.isReady j g hg, hfst, List.mem_append]
  · change k ∈ r.received ++ (resultsOf o).filterMap _ at hk
    rcases List.mem_append.1 hk with hk | hk
    · exact h.established k (hr.received k hk)
    · obtain ⟨x, hx, hxk⟩ := List.mem_filterMap.1 hk
      obtain ⟨⟨j, result⟩, hmem, rfl⟩ := List.mem_map.1 hx
      rcases result with _ | k'
      · cases hxk
      · cases hxk
        exact h.received j k hmem

/-! ## Steps -/

/-- The futures of the callers and those of the lookups are accounted for. -/
structure Kept (r : RelayDnsRun) : Prop extends Owed r where
  lookups : LookupsKept r.relay.dnsFutureManager r.dns r.dnsReleased

theorem init_kept (devices : List RelayLocalDevice) (n nowMS : ℕ) : Kept (init devices n nowMS) where
  toOwed := init_owed devices n nowMS
  lookups := by
    refine ⟨init_consistent nowMS, init_requested nowMS, fun _ _ _ _ hx => (by cases hx),
      fun d => ⟨fun ⟨_, _, hx, _⟩ => (by cases hx), fun ⟨_, hf, _⟩ => (by cases hf)⟩,
      fun _ _ hf => (by cases hf), List.nodup_nil, fun d => ⟨fun hd => (by cases hd), ?_⟩⟩
    rintro ⟨hpos, hle, -⟩
    exact absurd hpos (Nat.not_lt.2 hle)

/-- A call is made with a future that is new. -/
theorem Kept.call {run : RelayDnsRun → ℕ → Except Fault RelayDnsRun}
    (hrun : ∀ r i, Kept r → IsFresh r i → run { r with passed := r.passed ++ [i] } i = .ok t → Kept t)
    (hr : Kept r) (h : r.call run = .ok t) : Kept t := by
  unfold RelayDnsRun.call at h
  rcases hm : r.futures.acquireFuture () with _ | ⟨i, m⟩
  · rw [hm] at h
    cases h
    exact hr
  · rw [hm] at h
    obtain ⟨howed, hfresh⟩ := hr.toOwed.acquire hm
    exact hrun { r with futures := m } i ⟨howed, hr.lookups⟩ hfresh h

theorem createConnectionToHostname_kept {deviceId proxySideConnectionId targetPort : ℕ}
    {hostname : Bytes} (hr : Kept r) (hi : r.IsFresh i)
    (h : createConnectionToHostname R { r with passed := r.passed ++ [i] } deviceId
      proxySideConnectionId hostname targetPort i = .ok t) : Kept t := by
  have hlookups := hr.lookups
  unfold createConnectionToHostname at h
  dsimp only at h
  have hcreate (R : RelayPlatform) : r.relay.createConnectionToHostname R deviceId
      proxySideConnectionId targetPort i =
      match r.relay.dnsFutureManager.acquireFuture
          (lookupFor deviceId proxySideConnectionId targetPort i) with
      | none => (r.relay, .ready none)
      | some (d, m) => if R.resolveDns r.relay.attempts then
          ({ r.relay with dnsFutureManager := m, attempts := r.relay.attempts + 1 }, .pending)
        else ({ r.relay with
          dnsFutureManager := m.releaseFuture d, attempts := r.relay.attempts + 1 }, .ready none) := rfl
  rcases hm : r.relay.dnsFutureManager.acquireFuture
      (lookupFor deviceId proxySideConnectionId targetPort i) with _ | ⟨d, m⟩
  · simp only [hcreate, hm] at h
    cases h
    exact ⟨hr.answer hi (.refl hr.tidy) r.dns r.dnsReleased rfl, hlookups⟩
  simp only [hcreate, hm] at h
  rcases resolveDns_spec hlookups.consistent hostname d with ⟨dns, hres, hsame⟩ |
    ⟨dns, hres, hwait⟩ | ⟨dns, x, hres, hserve⟩
  · simp only [hres, Option.isSome_none, Bool.false_eq_true, if_false] at h
    cases h
    exact ⟨hr.answer hi (alike_refuse hr.tidy hm _) dns _ rfl, hlookups.refuse hm hsame⟩
  · simp only [hres, Option.isSome_some, if_true] at h
    cases h
    exact ⟨hr.take hi (takesOn_lookup hr.tidy hm _) dns, hlookups.wait hm hwait⟩
  · simp only [hres, Option.isSome_some, if_true] at h
    cases h
    have htake := takesOn_lookup hr.tidy hm (r.relay.attempts + 1)
    refine ⟨hr.take hi (htake.trans (.of_lookups htake.tidy ?_)) dns,
      hlookups.serve hm hserve (some x)⟩
    exact FuturePoolManager.context_setReadyAll m [(d, some x)]

/-- The event takes no future on. -/
theorem allows_of_permits {e : RelayEvent} (hp : r.Permits (.relay e)) (he : ∀ nowMS, e ≠ .tick nowMS)
    {l : RelayLabel} (hl : e.Allows l) : l ≠ .lookup ∧ l ≠ .resolve ∧ ∀ k, l ≠ .create k := by
  cases e with
  | createConnection => exact absurd hp id
  | createUdpChannel => exact absurd hp id
  | dnsResult => exact absurd hp id
  | destroyConnection k =>
    rcases hl with rfl | rfl <;> simp
  | tick nowMS => exact absurd rfl (he nowMS)
  | _ =>
    subst hl
    simp

/-- The event leaves the lookups. -/
theorem dnsFutureManager_of_permits (alive : ℕ → Bool) {e : RelayEvent}
    (hp : r.Permits (.relay e)) (he : ∀ nowMS, e ≠ .tick nowMS) (s : RelayLocalBindingService) :
    (s.step R alive e).1.dnsFutureManager = s.dnsFutureManager := by
  cases e with
  | createConnection => exact absurd hp id
  | createUdpChannel => exact absurd hp id
  | dnsResult => exact absurd hp id
  | tick nowMS => exact absurd rfl (he nowMS)
  | destroyConnection k =>
    simp only [RelayLocalBindingService.step, destroyConnection]
    split
    · rfl
    · simp only [deferDestroyConnection]
      split <;> rfl
  | destroyUdpChannel u =>
    simp only [RelayLocalBindingService.step, destroyUdpChannel]
    split <;> rfl
  | keepUdpChannelAlive u =>
    simp only [RelayLocalBindingService.step, keepUdpChannelAlive, keepUdpAlive]
    split
    · rfl
    · split <;> rfl
  | postData k data =>
    simp only [RelayLocalBindingService.step, postData]
    split
    · rfl
    · split <;> rfl
  | postUdpData u a data =>
    simp only [RelayLocalBindingService.step, postUdpData]
    split
    · rfl
    · split <;> rfl
  | onConnected k =>
    simp only [RelayLocalBindingService.step, onConnection, onConnected, keepAlive]
    split
    · rfl
    next c hc =>
    by_cases hconnected : c.isConnected = true
    · rw [if_pos hconnected]
    rw [if_neg hconnected]
    rcases c.createConnectionFutureHandle with _ | f
    · rfl
    dsimp only
    by_cases hf : alive f = true
    · rw [if_pos hf]
      by_cases hmark : c.deleteMark = true
      · rw [if_pos hmark]
        rfl
      · rw [if_neg hmark]
        rfl
    · rw [if_neg hf]
      rfl
  | onPeerClose k =>
    simp only [RelayLocalBindingService.step, onConnection, onPeerClose, deferDestroyConnection]
    split
    · rfl
    · split <;> rfl
  | onData k data =>
    simp only [RelayLocalBindingService.step, onConnection, onData, keepAlive]
    split
    · rfl
    next c hc =>
    by_cases hconnected : c.isConnected = true
    · rw [if_pos hconnected]
      by_cases hmark : c.deleteMark = true
      · rw [if_pos hmark]
      · rw [if_neg hmark]
        rfl
    · rw [if_neg hconnected]
  | onUdpData u data a =>
    simp only [RelayLocalBindingService.step, onUdpData]
    split <;> rfl

variable (R) in
/-- An event of the relay that is permitted. -/
theorem progress_of_permits (hr : Owed r) {e : RelayEvent} (hp : r.Permits (.relay e)) :
    Progress r.alive r.relay (r.relay.step R r.alive e).2 (releasedBy r.relay e)
      (r.relay.step R r.alive e).1 := by
  by_cases he : ∀ nowMS, e ≠ .tick nowMS
  · have hnone : releasedBy r.relay e = [] := by
      cases e with
      | tick nowMS => exact absurd rfl (he nowMS)
      | _ => rfl
    rw [hnone]
    refine step_progress hr.tidy hr.once (fun l => allows_of_permits hp he) (fun k hk => ?_)
      (.of_eq (dnsFutureManager_of_permits _ hp he _))
    cases e with
    | destroyConnection k' =>
      rcases hk with hk | hk
      · cases hk
      · cases hk
        exact hr.received k hp
    | createConnection => exact absurd hp id
    | createUdpChannel => exact absurd hp id
    | tick nowMS => exact absurd rfl (he nowMS)
    | _ => cases hk
  · simp only [ne_eq, not_forall, not_not] at he
    obtain ⟨nowMS, rfl⟩ := he
    exact tick_progress R r.alive hr.tidy hr.once nowMS

theorem step_kept (hr : Kept r) {e : RelayDnsEvent} (hp : r.Permits e) (h : step R r e = .ok t) :
    Kept t := by
  cases e with
  | acquireDevice request =>
    simp only [step] at h
    refine hr.call (fun r i hr hi h => ?_) h
    cases h
    refine ⟨hr.answer hi (.refl hr.tidy) r.dns r.dnsReleased ?_, hr.lookups⟩
    rcases acquireDevice r.relay request <;> rfl
  | createConnection deviceId proxySideConnectionId target =>
    simp only [step] at h
    refine hr.call (fun r i hr hi h => ?_) h
    cases target with
    | address a =>
      obtain ⟨s, hdns, ⟨hs, hcreate⟩ | ⟨hs, hcreate⟩⟩ := createConnectionToAddress_alike R hr.tidy
        deviceId proxySideConnectionId i a
      · simp only [createConnection, hcreate] at h
        cases h
        exact ⟨hr.answer hi hs r.dns r.dnsReleased rfl, hdns ▸ hr.lookups⟩
      · simp only [createConnection, hcreate] at h
        cases h
        exact ⟨hr.take hi hs r.dns, hdns ▸ hr.lookups⟩
    | hostname name port => exact createConnectionToHostname_kept hr hi h
  | createUdpChannel deviceId proxySideUdpChannelId =>
    simp only [step] at h
    refine hr.call (fun r i hr hi h => ?_) h
    cases h
    obtain ⟨hs, hdns⟩ := createUdpChannel_alike R hr.tidy deviceId proxySideUdpChannelId
    refine ⟨hr.answer hi hs r.dns r.dnsReleased ?_, hdns ▸ hr.lookups⟩
    rcases (createUdpChannel R r.relay deviceId proxySideUdpChannelId).2 <;> rfl
  | releaseFuture i =>
    cases h
    refine ⟨hr.of_futures (fun j f hf => ?_) rfl, hr.lookups⟩
    rw [FuturePoolManager.get_releaseFuture] at hf
    split at hf
    · cases hf
    · exact ⟨f, hf, rfl⟩
  | popReady =>
    simp only [step] at h
    rcases hm : r.futures.popHead with _ | ⟨i, m⟩
    · rw [hm] at h
      cases h
      exact hr
    · rw [hm] at h
      cases h
      obtain ⟨hget, hlast⟩ := FuturePoolManager.get_of_popHead hm
      exact ⟨hr.of_futures (fun j f hf => ⟨f, (hget j).symm.trans hf, rfl⟩) hlast, hr.lookups⟩
  | relay e =>
    cases h
    have hprogress := progress_of_permits R hr.toOwed hp
    refine ⟨hr.toOwed.progress hprogress _, ?_⟩
    cases e with
    | tick nowMS => exact hr.lookups.release hprogress.releases
    | createConnection => exact absurd hp id
    | createUdpChannel => exact absurd hp id
    | dnsResult => exact absurd hp id
    | _ =>
      have heq := dnsFutureManager_of_permits (R := R) r.alive hp (fun _ => by simp) r.relay
      change LookupsKept _ r.dns (r.dnsReleased ++ [])
      rw [List.append_nil]
      exact heq ▸ hr.lookups
  | finishRequest p a4List a6List =>
    cases h
    exact ⟨hr.alike (.refl hr.tidy) _ _, hr.lookups.finishRequest p a4List a6List⟩
  | dnsTick nowMS =>
    simp only [step] at h
    obtain ⟨dns, a, hticks, hok⟩ :=
      tick_spec r.isLookup hr.lookups.consistent hr.lookups.requested nowMS
    rw [hok] at h
    cases h
    exact ⟨hr.alike (.of_lookups hr.tidy (FuturePoolManager.context_setReadyAll _ a)) _ _,
      hr.lookups.ticks hticks⟩

/-- A call does not fail when what is called does not. -/
theorem exists_call {run : RelayDnsRun → ℕ → Except Fault RelayDnsRun}
    (hrun : ∀ m i, ∃ t, run { r with futures := m, passed := r.passed ++ [i] } i = .ok t) :
    ∃ t, r.call run = .ok t := by
  unfold RelayDnsRun.call
  rcases r.futures.acquireFuture () with _ | ⟨i, m⟩
  · exact ⟨r, rfl⟩
  · exact hrun m i

theorem exists_createConnectionToHostname {deviceId proxySideConnectionId targetPort : ℕ}
    {hostname : Bytes} (hdns : Consistent r.dns) :
    ∃ t, createConnectionToHostname R r deviceId proxySideConnectionId hostname targetPort i =
      .ok t := by
  unfold createConnectionToHostname
  dsimp only
  rcases r.relay.dnsFutureManager.acquireFuture
      (lookupFor deviceId proxySideConnectionId targetPort i) with _ | ⟨d, m⟩
  · exact ⟨_, rfl⟩
  · rcases resolveDns_spec hdns hostname d with ⟨dns, hres, -⟩ | ⟨dns, hres, -⟩ |
      ⟨dns, x, hres, -⟩ <;>
    · simp only [hres]
      exact ⟨_, rfl⟩

/-- No step fails. -/
theorem exists_step (hr : Kept r) (e : RelayDnsEvent) : ∃ t, step R r e = .ok t := by
  cases e with
  | acquireDevice request =>
    simp only [step]
    exact exists_call fun m i => ⟨_, rfl⟩
  | createConnection deviceId proxySideConnectionId target =>
    simp only [step]
    refine exists_call fun m i => ?_
    cases target with
    | address a => exact ⟨_, rfl⟩
    | hostname name port => exact exists_createConnectionToHostname hr.lookups.consistent
  | createUdpChannel deviceId proxySideUdpChannelId =>
    simp only [step]
    exact exists_call fun m i => ⟨_, rfl⟩
  | popReady =>
    simp only [step]
    rcases r.futures.popHead with _ | ⟨i, m⟩ <;> exact ⟨_, rfl⟩
  | dnsTick nowMS =>
    obtain ⟨dns, a, -, hok⟩ := tick_spec r.isLookup hr.lookups.consistent hr.lookups.requested nowMS
    exact ⟨_, by simp only [step, hok]; rfl⟩
  | releaseFuture i => exact ⟨_, rfl⟩
  | relay e => exact ⟨_, rfl⟩
  | finishRequest p a4List a6List => exact ⟨_, rfl⟩

/-! ## Every future is completed once -/

/-- The law of answering, of a state. -/
structure AnswersOnce (r : RelayDnsRun) : Prop where
  /-- `SetReady` is called on a future at most once, and leaves it ready. -/
  readied : r.readied.Nodup ∧ ∀ i ∈ r.readied, i ∈ r.passed
  isReady : ∀ i f, r.futures.get i = some f → (f.isReady = true ↔ i ∈ r.readied)
  /-- A future that is live and not ready has one holder: a live lookup, or a live connection
      without a mark. -/
  holder : ∀ i ∈ r.passed, ∀ f, r.futures.get i = some f → f.isReady = false →
    ∃! x, r.relay.Holds x i
  /-- A lookup that is live waits with one source request, or is linked in the ready list. -/
  lookup : ∀ d f, r.relay.dnsFutureManager.get d = some f →
    (∃! q, ∃ x, r.dns.dnsSourceRequestPool.get q = some x ∧ x.futureHandle = d) ∧
      d ∉ r.relay.dnsFutureManager.futureList ∨
    ¬IsAwaited r.dns d ∧ d ∈ r.relay.dnsFutureManager.futureList
  /-- A lookup was released when it is gone, once. -/
  released : r.dnsReleased.Nodup ∧ ∀ d, d ∈ r.dnsReleased ↔
    0 < d ∧ d ≤ r.relay.dnsFutureManager.futurePool.lastId ∧ r.relay.dnsFutureManager.get d = none

theorem Kept.answersOnce (hr : Kept r) : AnswersOnce r where
  readied := ⟨hr.nodup, hr.passed⟩
  isReady := hr.isReady
  holder i hi f hf hun := by
    rcases hr.turn i hi with ⟨x, hx⟩ | hmem | hnone
    · exact ⟨x, hx, fun y hy => hr.once y x i hy hx⟩
    · rw [← hr.isReady i f hf, hun] at hmem
      cases hmem
    · rw [hf] at hnone
      cases hnone
  lookup d f hf := by
    by_cases hready : f.isReady = true
    · refine .inr ⟨fun hawait => ?_, hr.lookups.listed d f hf hready⟩
      obtain ⟨g, hg, hun⟩ := (hr.lookups.awaited d).1 hawait
      rw [hf, Option.some_inj] at hg
      rw [← hg, hready] at hun
      cases hun
    · obtain ⟨q, x, hx, hxd⟩ := (hr.lookups.awaited d).2 ⟨f, hf, eq_false_of_ne_true hready⟩
      refine .inl ⟨⟨q, ⟨x, hx, hxd⟩, fun q' ⟨x', hx', hxd'⟩ => ?_⟩, fun hmem => ?_⟩
      · exact hr.lookups.injective q' q x' x hx' hx (hxd'.trans hxd.symm)
      · obtain ⟨g, hg, hg'⟩ := r.relay.dnsFutureManager.ready_live d hmem
        rw [show r.relay.dnsFutureManager.futurePool.get d = some f from hf, Option.some_inj] at hg
        exact hready (hg ▸ hg')
  released := ⟨hr.lookups.nodup, hr.lookups.released⟩

/-- In every run, each future passed to the relay is completed at most once, and has one holder until
    then, unless it is gone; each lookup waits or is answered, and is released once. No run fails. -/
theorem answersOnce_of_exec {devices : List RelayLocalDevice} {n nowMS : ℕ}
    {es : List RelayDnsEvent} (hp : Along (step R) Permits (init devices n nowMS) es) :
    ∃ t, exec (step R) (init devices n nowMS) es = .ok t ∧ AnswersOnce t := by
  have hstep : ∀ r e, Kept r → Permits r e → ∃ t, step R r e = .ok t ∧ Kept t := by
    intro r e hr he
    obtain ⟨t, ht⟩ := exists_step hr e
    exact ⟨t, ht, step_kept hr he ht⟩
  obtain ⟨t, ht, hkept⟩ := exists_exec_along hstep (init_kept devices n nowMS) hp
  exact ⟨t, ht, hkept.answersOnce⟩

/-- A device, two lookups of a host name of which one is given up, a connection by address that the
    peer closes, a lookup answered from the cache, and a connection that is destroyed when it is
    known. -/
def fiveCalls : List RelayDnsEvent :=
  [.acquireDevice { exportAddress := { type := .ipv4 }, strategy := dssStaticExportAddress },
    .createConnection (makeLocalDeviceId 0) 1 (.hostname [97] 80),
    .createConnection (makeLocalDeviceId 0) 2 (.hostname [97] 80), .releaseFuture 3,
    .createConnection (makeLocalDeviceId 0) 3 (.address { type := .ipv4, port := 80 }),
    .relay (.onPeerClose 1),
    .finishRequest 1 [{ type := .ipv4, bytes := [10, 0, 0, 1] }] [], .dnsTick 3000100,
    .createConnection (makeLocalDeviceId 0) 4 (.hostname [97] 80), .relay (.tick 3000200),
    .relay (.onConnected 2), .popReady, .relay (.destroyConnection 2), .relay (.tick 3000300)]

theorem answersOnce_fiveCalls :
    ∃ t, exec (step ⟨fun _ => true, fun _ => true, fun _ => true⟩)
        (init [⟨makeLocalDeviceId 0, { type := .ipv4 }, { type := .ipv4 }, true, true⟩] 8 3000000)
        fiveCalls = .ok t ∧
      t.passed = [1, 2, 3, 4, 5] ∧ t.readied = [1, 4, 2] ∧ t.received = [2] ∧
      t.dnsReleased = [1, 2, 3] ∧ AnswersOnce t := by
  have hp : Along (step ⟨fun _ => true, fun _ => true, fun _ => true⟩) Permits
      (init [⟨makeLocalDeviceId 0, { type := .ipv4 }, { type := .ipv4 }, true, true⟩] 8 3000000)
      fiveCalls := along_of_check (by decide +kernel)
  obtain ⟨t, ht, hlogs⟩ := exists_ok_of_check
    (x := exec (step ⟨fun _ => true, fun _ => true, fun _ => true⟩)
      (init [⟨makeLocalDeviceId 0, { type := .ipv4 }, { type := .ipv4 }, true, true⟩] 8 3000000)
      fiveCalls)
    (p := fun t => decide (t.passed = [1, 2, 3, 4, 5] ∧ t.readied = [1, 4, 2] ∧ t.received = [2] ∧
      t.dnsReleased = [1, 2, 3])) (by decide +kernel)
  obtain ⟨hpassed, hread, hreceived, hreleased⟩ := of_decide_eq_true hlogs
  obtain ⟨u, hu, hlaw⟩ := answersOnce_of_exec hp
  rw [ht, Except.ok.injEq] at hu
  exact ⟨t, ht, hpassed, hread, hreceived, hreleased, hu ▸ hlaw⟩

end RelayDnsRun

end ProxyPlatform
