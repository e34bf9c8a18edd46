import ProxyPlatform.Base.Filed
import ProxyPlatform.Base.Run
import ProxyPlatform.Relay.Basic

/-!
# The turns of the relay

A step of the relay is a sequence of *turns* (`RelayTurn`): a connection created,
connected, kept alive, marked or destroyed, a DNS lookup started, answered or taken up,
and the same for the UDP channels. A turn comes with what it does to the proxy.

* `Tidy`: the kill lists hold the marked connections and UDP channels, the idle lists
  only unmarked ones, and all that is linked is live;
* `RelayTurn.tidy`: the turns keep this;
* `RelayTurn.moved`, `RelayTurn.udpMoved`: what a turn does to one entry.
-/

namespace ProxyPlatform

/-- What a turn is about, with the connection or the UDP channel that it concerns. -/
inductive RelayLabel
  | quiet
  | lookup
  | answer
  | resolve
  | create (k : ℕ)
  | connected (k : ℕ)
  | data (k : ℕ)
  | close (k : ℕ)
  | destroy (k : ℕ)
  | idle (k : ℕ)
  | clean (k : ℕ)
  | createUdp (u : ℕ)
  | dataUdp (u : ℕ)
  | keepUdp (u : ℕ)
  | destroyUdp (u : ℕ)
  | idleUdp (u : ℕ)
  | cleanUdp (u : ℕ)

/-- A connection as it is created. -/
structure RelayLocalDeviceConnection.IsNew (c : RelayLocalDeviceConnection)
    (k proxySideConnectionId future : ℕ) : Prop where
  connectionId : c.connectionId = k
  proxySideConnectionId : c.proxySideConnectionId = proxySideConnectionId
  createConnectionFutureHandle : c.createConnectionFutureHandle = some future
  deleteMark : c.deleteMark = false
  isConnected : c.isConnected = false

namespace RelayLocalBindingService

/-- The same entries, though ids may have been used up. -/
def SameEntries {α : Type*} (p q : Storage α) : Prop :=
  q.lastId ≤ p.lastId ∧ ∀ j, p.get j = q.get j

/-! ## Turns -/

/-- A turn of the relay, with its label and with what it does to the proxy. -/
inductive RelayTurn (alive : ℕ → Bool) (s : RelayLocalBindingService) :
    RelayLabel → List ProxyEvent → RelayLocalBindingService → Prop
  /-- The clock goes on, data is posted, or a socket cannot be opened. -/
  | quiet (nowMS attempts posts p q) (hp : SameEntries p s.localConnectionPool)
      (hq : SameEntries q s.localUdpChannelPool) :
      RelayTurn alive s .quiet [] { s with
        localTicker := nowMS, attempts := attempts, posts := posts
        localConnectionPool := p, localUdpChannelPool := q }
  | lookup (attempts request i m)
      (hacquire : s.dnsFutureManager.acquireFuture request = some (i, m)) :
      RelayTurn alive s .lookup [] { s with attempts := attempts, dnsFutureManager := m }
  /-- A lookup is refused. -/
  | refuse (attempts request i m)
      (hacquire : s.dnsFutureManager.acquireFuture request = some (i, m)) :
      RelayTurn alive s .quiet [] { s with
        attempts := attempts, dnsFutureManager := m.releaseFuture i }
  | answer (i dnsFuture result) (hi : s.dnsFutureManager.get i = some dnsFuture) :
      RelayTurn alive s .answer [] { s with
        dnsFutureManager := s.dnsFutureManager.setReady i result }
  /-- A lookup ends without a connection, and the future of the proxy is completed, unless it is
      gone. -/
  | fail (i dnsFuture attempts p) (hi : s.dnsFutureManager.get i = some dnsFuture)
      (hp : SameEntries p s.localConnectionPool) :
      RelayTurn alive s .resolve
        (complete alive (some dnsFuture.context.createConnectionFutureHandle) none)
        { s with
          attempts := attempts, localConnectionPool := p
          dnsFutureManager := s.dnsFutureManager.releaseFuture i }
  /-- A lookup ends with a connection. -/
  | resolve (i dnsFuture attempts x k p) (hi : s.dnsFutureManager.get i = some dnsFuture)
      (halive : alive dnsFuture.context.createConnectionFutureHandle = true)
      (hacquire : s.localConnectionPool.acquire x = some (k, p))
      (hnew : (x k).IsNew k dnsFuture.context.proxySideConnectionId
        dnsFuture.context.createConnectionFutureHandle) :
      RelayTurn alive s (.create k) [] { s with
        attempts := attempts, localConnectionPool := p
        dnsFutureManager := s.dnsFutureManager.releaseFuture i }
  | create (attempts x k p proxySideConnectionId future)
      (hacquire : s.localConnectionPool.acquire x = some (k, p))
      (hnew : (x k).IsNew k proxySideConnectionId future) :
      RelayTurn alive s (.create k) [] { s with attempts := attempts, localConnectionPool := p }
  /-- A connection is connected, and the future of the proxy is gone. -/
  | orphan (k c) (hc : s.localConnectionPool.get k = some c) (hconnected : c.isConnected = false)
      (hdead : ∀ f, c.createConnectionFutureHandle = some f → alive f = false) :
      RelayTurn alive s (.connected k) [] (s.store { c with
        isConnected := true, createConnectionFutureHandle := none })
  /-- A connection is connected, and its id is in the future of the proxy. -/
  | connected (k c f) (hc : s.localConnectionPool.get k = some c)
      (hconnected : c.isConnected = false) (hmark : c.deleteMark = false)
      (hf : c.createConnectionFutureHandle = some f) (halive : alive f = true) :
      RelayTurn alive s (.connected k) [.setReady .acquireDeviceConnection f (some k)]
        ({ s with connectionLists := s.connectionLists.grabTail .idleTimeout k }.store { c with
          isConnected := true, createConnectionFutureHandle := none, timestampMS := s.localTicker })
  | data (k c data) (hc : s.localConnectionPool.get k = some c) (hconnected : c.isConnected = true)
      (hmark : c.deleteMark = false) :
      RelayTurn alive s (.data k) [.postData c.proxySideConnectionId data]
        ({ s with connectionLists := s.connectionLists.grabTail .idleTimeout k }.store { c with
          timestampMS := s.localTicker })
  /-- The peer closes a marked connection. -/
  | closed (k c) (hc : s.localConnectionPool.get k = some c) (hmark : c.deleteMark = true) :
      RelayTurn alive s (.close k) [.closeConnection c.proxySideConnectionId] s
  /-- A connection is marked. -/
  | mark (l k c o) (hc : s.localConnectionPool.get k = some c) (hmark : c.deleteMark = false)
      (hl : l = .close k ∧ o = .closeConnection c.proxySideConnectionId ::
          complete alive c.createConnectionFutureHandle none ∨
        l = .destroy k ∧ o = [] ∨
        l = .idle k ∧ k ∈ s.connectionLists.nodes .idleTimeout ∧ s.isIdle k = true ∧
          o = complete alive c.createConnectionFutureHandle none) :
      RelayTurn alive s l o
        ({ s with connectionLists := s.connectionLists.grabTail .kill k }.store { c with
          deleteMark := true, createConnectionFutureHandle := none })
  | clean (k c) (hc : s.localConnectionPool.get k = some c)
      (hk : k ∈ s.connectionLists.nodes .kill) : RelayTurn alive s (.clean k) [] (s.cleanConnection k)
  | createUdp (attempts x u p) (hacquire : s.localUdpChannelPool.acquire x = some (u, p))
      (hid : (x u).udpChannelId = u) (hmark : (x u).deleteMark = false) :
      RelayTurn alive s (.createUdp u) [] { s with attempts := attempts, localUdpChannelPool := p }
  | dataUdp (u x data a) (hx : s.localUdpChannelPool.get u = some x) :
      RelayTurn alive s (.dataUdp u) [.postUdpData x.proxySideUdpChannelId a data] s
  | keepUdp (u x) (hx : s.localUdpChannelPool.get u = some x) (hmark : x.deleteMark = false) :
      RelayTurn alive s (.keepUdp u) []
        ({ s with udpChannelLists := s.udpChannelLists.grabTail .idleTimeout u }.storeUdp { x with
          timestampMS := s.localTicker })
  | markUdp (l u x) (hx : s.localUdpChannelPool.get u = some x)
      (hl : l = .destroyUdp u ∨ l = .idleUdp u ∧ u ∈ s.udpChannelLists.nodes .idleTimeout ∧
        s.isUdpIdle u = true) :
      RelayTurn alive s l []
        ({ s with udpChannelLists := s.udpChannelLists.grabTail .kill u }.storeUdp { x with
          deleteMark := true })
  | cleanUdp (u x) (hx : s.localUdpChannelPool.get u = some x)
      (hu : u ∈ s.udpChannelLists.nodes .kill) :
      RelayTurn alive s (.cleanUdp u) [] (s.cleanUdpChannel u)

/-- Sequences of turns with labels in `L`, with what they do to the proxy. -/
inductive RelayTurns (alive : ℕ → Bool) (L : RelayLabel → Prop) (s : RelayLocalBindingService) :
    List ProxyEvent → RelayLocalBindingService → Prop
  | refl : RelayTurns alive L s [] s
  | tail {o l o' t u} (h : RelayTurns alive L s o t) (hl : L l) (ht : RelayTurn alive t l o' u) :
      RelayTurns alive L s (o ++ o') u

namespace RelayTurns

variable {alive : ℕ → Bool} {L : RelayLabel → Prop} {s t u : RelayLocalBindingService}
  {l : RelayLabel} {o o' : List ProxyEvent}

theorem single (hl : L l) (h : RelayTurn alive s l o t) : RelayTurns alive L s o t := by
  have htail := RelayTurns.refl.tail hl h
  rwa [List.nil_append] at htail

theorem trans (h : RelayTurns alive L s o t) (h' : RelayTurns alive L t o' u) :
    RelayTurns alive L s (o ++ o') u := by
  induction h' with
  | refl => rwa [List.append_nil]
  | tail _ hl ht ih =>
    rw [← List.append_assoc]
    exact ih.tail hl ht

/-- What a sequence of turns does to the proxy is done in one of them. -/
theorem exists_turn {e : ProxyEvent} (h : RelayTurns alive L s o t) (he : e ∈ o) :
    ∃ l u v o', L l ∧ RelayTurn alive u l o' v ∧ e ∈ o' := by
  induction h with
  | refl => cases he
  | tail h hl ht ih =>
    rcases List.mem_append.1 he with he | he
    · exact ih he
    · exact ⟨_, _, _, _, hl, ht, he⟩

/-- What every turn preserves, every sequence of turns preserves. -/
theorem invariant {I : RelayLocalBindingService → Prop}
    (hI : ∀ s l o t, L l → I s → RelayTurn alive s l o t → I t) (h : RelayTurns alive L s o t)
    (hs : I s) : I t := by
  induction h with
  | refl => exact hs
  | tail _ hl ht ih => exact hI _ _ _ _ hl ih ht

theorem mono {M : RelayLabel → Prop} (hLM : ∀ l, L l → M l) (h : RelayTurns alive L s o t) :
    RelayTurns alive M s o t := by
  induction h with
  | refl => exact .refl
  | tail _ hl ht ih => exact ih.tail (hLM _ hl) ht

end RelayTurns

/-! ## Tidiness -/

/-- The kill lists hold the marked connections and UDP channels, which have no future to
    complete, and all that is linked is live. -/
structure Tidy (s : RelayLocalBindingService) : Prop where
  connectionId : ∀ ⦃k c⦄, s.localConnectionPool.get k = some c → c.connectionId = k
  filed : Filed RelayLocalDeviceConnection.deleteMark .kill s.localConnectionPool s.connectionLists
  handle : ∀ ⦃k c⦄, s.localConnectionPool.get k = some c → c.deleteMark = true →
    c.createConnectionFutureHandle = none
  udpChannelId : ∀ ⦃u x⦄, s.localUdpChannelPool.get u = some x → x.udpChannelId = u
  udpFiled : Filed RelayLocalDeviceUdpChannel.deleteMark .kill s.localUdpChannelPool
    s.udpChannelLists

section

variable {alive : ℕ → Bool} {s t : RelayLocalBindingService} {c c' : RelayLocalDeviceConnection}
  {x x' : RelayLocalDeviceUdpChannel} {k u : ℕ} {l : RelayLabel} {o : List ProxyEvent}

theorem get_store {d : RelayLocalDeviceConnection} (hc : s.localConnectionPool.get k = some c)
    (hid : d.connectionId = k) (j : ℕ) :
    (s.store d).localConnectionPool.get j =
      if j = k then some d else s.localConnectionPool.get j := by
  subst hid
  exact Storage.get_set hc d j

theorem get_storeUdp {y : RelayLocalDeviceUdpChannel} (hx : s.localUdpChannelPool.get u = some x)
    (hid : y.udpChannelId = u) (j : ℕ) :
    (s.storeUdp y).localUdpChannelPool.get j =
      if j = u then some y else s.localUdpChannelPool.get j := by
  subst hid
  exact Storage.get_set hx y j

/-- Only the entries and the lists matter. -/
theorem Tidy.congr (hs : Tidy s)
    (hp : ∀ j, t.localConnectionPool.get j = s.localConnectionPool.get j)
    (hq : ∀ j, t.localUdpChannelPool.get j = s.localUdpChannelPool.get j)
    (hlists : t.connectionLists = s.connectionLists)
    (hudp : t.udpChannelLists = s.udpChannelLists) : Tidy t where
  connectionId k c hc := hs.connectionId (by rwa [← hp])
  filed := hlists ▸ hs.filed.congr hp
  handle k c hc := hs.handle (by rwa [← hp])
  udpChannelId u x hx := hs.udpChannelId (by rwa [← hq])
  udpFiled := hudp ▸ hs.udpFiled.congr hq

/-- A connection is created: it is not linked. -/
theorem Tidy.create {y : ℕ → RelayLocalDeviceConnection} {i future : ℕ} (hs : Tidy s)
    (hacquire : s.localConnectionPool.acquire y = some (k, t.localConnectionPool))
    (hnew : (y k).IsNew k i future) (hlists : t.connectionLists = s.connectionLists)
    (hudp : (t.localUdpChannelPool, t.udpChannelLists) =
      (s.localUdpChannelPool, s.udpChannelLists)) : Tidy t := by
  have hget := Storage.get_acquire hacquire
  rw [Prod.mk.injEq] at hudp
  refine ⟨fun j d hd => ?_, hlists ▸ hs.filed.acquire hacquire hnew.deleteMark, fun j d hd hmark => ?_,
    hudp.1 ▸ hs.udpChannelId, by rw [hudp.1, hudp.2]; exact hs.udpFiled⟩
  all_goals
    rw [hget] at hd
    split at hd
  · next hj => cases hd; rw [hj, hnew.connectionId]
  · exact hs.connectionId hd
  · cases hd; rw [hnew.deleteMark] at hmark; cases hmark
  · exact hs.handle hd hmark

/-- A connection changes, and goes to the list that it belongs to. -/
theorem Tidy.store {lists : Linked RelayConnectionList} (hs : Tidy s)
    (hc : s.localConnectionPool.get k = some c) (hid : c'.connectionId = c.connectionId)
    (hfiled : Filed RelayLocalDeviceConnection.deleteMark .kill (s.localConnectionPool.set k c') lists)
    (hhandle : c'.deleteMark = true → c'.createConnectionFutureHandle = none) :
    Tidy ({ s with connectionLists := lists }.store c') := by
  have hk : c'.connectionId = k := hid.trans (hs.connectionId hc)
  have hget := get_store (s := { s with connectionLists := lists }) hc hk
  refine ⟨fun j d hd => ?_, by subst hk; exact hfiled, fun j d hd hmark => ?_, hs.udpChannelId, hs.udpFiled⟩
  all_goals
    rw [hget] at hd
    split at hd
  · next hj => cases hd; rw [hj, hk]
  · exact hs.connectionId hd
  · cases hd; exact hhandle hmark
  · exact hs.handle hd hmark

/-- A UDP channel changes, and goes to the list that it belongs to. -/
theorem Tidy.storeUdp {lists : Linked RelayUdpChannelList} (hs : Tidy s)
    (hx : s.localUdpChannelPool.get u = some x) (hid : x'.udpChannelId = x.udpChannelId)
    (hfiled : Filed RelayLocalDeviceUdpChannel.deleteMark .kill (s.localUdpChannelPool.set u x')
      lists) : Tidy ({ s with udpChannelLists := lists }.storeUdp x') := by
  have hu : x'.udpChannelId = u := hid.trans (hs.udpChannelId hx)
  have hget := get_storeUdp (s := { s with udpChannelLists := lists }) hx hu
  refine ⟨hs.connectionId, hs.filed, hs.handle, fun j d hd => ?_, by subst hu; exact hfiled⟩
  rw [hget] at hd
  split at hd
  · next hj => cases hd; rw [hj, hu]
  · exact hs.udpChannelId hd

/-- A turn keeps the relay tidy. -/
theorem RelayTurn.tidy (h : RelayTurn alive s l o t) (hs : Tidy s) : Tidy t := by
  cases h with
  | quiet nowMS attempts posts p q hp hq => exact hs.congr hp.2 hq.2 rfl rfl
  | lookup | refuse | answer => exact hs.congr (fun _ => rfl) (fun _ => rfl) rfl rfl
  | fail i dnsFuture attempts p hi hp => exact hs.congr hp.2 (fun _ => rfl) rfl rfl
  | resolve i dnsFuture attempts x k p hi halive hacquire hnew =>
    exact hs.create (by exact hacquire) hnew rfl rfl
  | create attempts x k p i future hacquire hnew => exact hs.create (by exact hacquire) hnew rfl rfl
  | orphan k c hc hconnected hdead =>
    exact hs.store hc rfl (hs.filed.set hc rfl) fun _ => rfl
  | connected k c f hc hconnected hmark hf halive =>
    exact hs.store hc rfl (hs.filed.move hc (by simp [hmark])) fun _ => rfl
  | data k c data hc hconnected hmark =>
    refine hs.store hc rfl (hs.filed.move hc (by simp [hmark])) fun h => ?_
    rw [show c.deleteMark = true from h] at hmark
    cases hmark
  | closed => exact hs
  | mark l k c o hc hmark hl => exact hs.store hc rfl (hs.filed.move hc (by simp)) fun _ => rfl
  | clean k c hc hk =>
    refine ⟨fun j d hd => ?_, hs.filed.release, fun j d hd => ?_, hs.udpChannelId, hs.udpFiled⟩
    all_goals
      change (s.localConnectionPool.release k).get j = some d at hd
      rw [Storage.get_release] at hd
      split at hd
      · cases hd
    · exact hs.connectionId hd
    · exact hs.handle hd
  | createUdp attempts x u p hacquire hid hmark =>
    refine ⟨hs.connectionId, hs.filed, hs.handle, fun j d hd => ?_, hs.udpFiled.acquire hacquire hmark⟩
    change p.get j = some d at hd
    rw [Storage.get_acquire hacquire] at hd
    split at hd
    · next hj => cases hd; rw [hj, hid]
    · exact hs.udpChannelId hd
  | dataUdp => exact hs
  | keepUdp u x hx hmark =>
    exact hs.storeUdp hx rfl (hs.udpFiled.move hx (by simp [hmark]))
  | markUdp l u x hx hl => exact hs.storeUdp hx rfl (hs.udpFiled.move hx (by simp))
  | cleanUdp u x hx hu =>
    refine ⟨hs.connectionId, hs.filed, hs.handle, fun j d hd => ?_, hs.udpFiled.release⟩
    change (s.localUdpChannelPool.release u).get j = some d at hd
    rw [Storage.get_release] at hd
    split at hd
    · cases hd
    · exact hs.udpChannelId hd

end

/-! ## What a turn does to an entry -/

/-- What a turn does to the connection `j` and to its place in the lists. -/
inductive ConnectionMove (alive : ℕ → Bool) (s : RelayLocalBindingService) (l : RelayLabel)
    (o : List ProxyEvent) (t : RelayLocalBindingService) (j : ℕ) : Prop
  | gone (h : t.localConnectionPool.get j = none)
      (hkill : s.localConnectionPool.get j = none ∨
        l = .clean j ∧ j ∈ s.connectionLists.nodes .kill)
  | created (c i f) (hl : l = .create j) (hj : s.localConnectionPool.lastId < j)
      (hc : t.localConnectionPool.get j = some c) (hnew : c.IsNew j i f)
      (hlists : ¬t.connectionLists.IsLinked j)
  | kept (hget : t.localConnectionPool.get j = s.localConnectionPool.get j)
      (hlists : ∀ m, j ∈ t.connectionLists.nodes m ↔ j ∈ s.connectionLists.nodes m)
  | orphaned (c) (hl : l = .connected j) (hc : s.localConnectionPool.get j = some c)
      (hconnected : c.isConnected = false)
      (hdead : ∀ f, c.createConnectionFutureHandle = some f → alive f = false)
      (hd : t.localConnectionPool.get j = some { c with
        isConnected := true, createConnectionFutureHandle := none })
      (hlists : ∀ m, j ∈ t.connectionLists.nodes m ↔ j ∈ s.connectionLists.nodes m)
  | connected (c f) (hl : l = .connected j)
      (ho : o = [.setReady .acquireDeviceConnection f (some j)])
      (hc : s.localConnectionPool.get j = some c) (hconnected : c.isConnected = false)
      (hmark : c.deleteMark = false)
      (hf : c.createConnectionFutureHandle = some f) (halive : alive f = true)
      (hd : t.localConnectionPool.get j = some { c with
        isConnected := true, createConnectionFutureHandle := none, timestampMS := s.localTicker })
      (hlists : ∀ m, j ∈ t.connectionLists.nodes m ↔ m = .idleTimeout)
  | data (c) (hl : l = .data j) (hc : s.localConnectionPool.get j = some c)
      (hconnected : c.isConnected = true) (hmark : c.deleteMark = false)
      (hd : t.localConnectionPool.get j = some { c with timestampMS := s.localTicker })
      (hlists : ∀ m, j ∈ t.connectionLists.nodes m ↔ m = .idleTimeout)
  | marked (c) (hl : l = .close j ∨ l = .destroy j ∨
        l = .idle j ∧ j ∈ s.connectionLists.nodes .idleTimeout)
      (hc : s.localConnectionPool.get j = some c) (hmark : c.deleteMark = false)
      (hd : t.localConnectionPool.get j = some { c with
        deleteMark := true, createConnectionFutureHandle := none })
      (hlists : ∀ m, j ∈ t.connectionLists.nodes m ↔ m = .kill)

/-- What a turn does to the UDP channel `j` and to its place in the lists. -/
inductive UdpChannelMove (s : RelayLocalBindingService) (l : RelayLabel)
    (t : RelayLocalBindingService) (j : ℕ) : Prop
  | gone (h : t.localUdpChannelPool.get j = none)
      (hkill : s.localUdpChannelPool.get j = none ∨
        l = .cleanUdp j ∧ j ∈ s.udpChannelLists.nodes .kill)
  | created (x) (hl : l = .createUdp j) (hj : s.localUdpChannelPool.lastId < j)
      (hx : t.localUdpChannelPool.get j = some x) (hmark : x.deleteMark = false)
      (hlists : ¬t.udpChannelLists.IsLinked j)
  | kept (hget : t.localUdpChannelPool.get j = s.localUdpChannelPool.get j)
      (hlists : ∀ m, j ∈ t.udpChannelLists.nodes m ↔ j ∈ s.udpChannelLists.nodes m)
  | touched (x) (hl : l = .keepUdp j) (hx : s.localUdpChannelPool.get j = some x)
      (hmark : x.deleteMark = false)
      (hy : t.localUdpChannelPool.get j = some { x with timestampMS := s.localTicker })
      (hlists : ∀ m, j ∈ t.udpChannelLists.nodes m ↔ m = .idleTimeout)
  | marked (x) (hl : l = .destroyUdp j ∨ l = .idleUdp j ∧ j ∈ s.udpChannelLists.nodes .idleTimeout)
      (hx : s.localUdpChannelPool.get j = some x)
      (hy : t.localUdpChannelPool.get j = some { x with deleteMark := true })
      (hlists : ∀ m, j ∈ t.udpChannelLists.nodes m ↔ m = .kill)

section

variable {alive : ℕ → Bool} {s t : RelayLocalBindingService} {c c' : RelayLocalDeviceConnection}
  {x x' : RelayLocalDeviceUdpChannel} {k u j : ℕ} {l : RelayLabel} {o : List ProxyEvent}

/-- An acquired connection is created, all others are kept. -/
theorem ConnectionMove.acquire {y : ℕ → RelayLocalDeviceConnection} {i f : ℕ} (hs : Tidy s)
    (hacquire : s.localConnectionPool.acquire y = some (k, t.localConnectionPool))
    (hnew : (y k).IsNew k i f) (hlists : t.connectionLists = s.connectionLists) :
    ConnectionMove alive s (.create k) o t j := by
  have hget := Storage.get_acquire hacquire j
  split at hget
  · next hj =>
    subst hj
    obtain ⟨hk, -, -⟩ := Storage.acquire_eq_some hacquire
    refine .created _ i f rfl (by omega) hget hnew ?_
    rw [hlists]
    exact hs.filed.not_linked (Storage.get_of_acquire hacquire)
  · exact .kept hget fun m => by rw [hlists]

/-- A connection that is written back moves, all others are kept. -/
theorem ConnectionMove.store {L : Linked RelayConnectionList} (hs : Tidy s)
    (hc : s.localConnectionPool.get k = some c) (hid : c'.connectionId = c.connectionId)
    (hL : ∀ m, j ≠ k → (j ∈ L.nodes m ↔ j ∈ s.connectionLists.nodes m))
    (hmove : j = k → ({ s with connectionLists := L }.store c').localConnectionPool.get j = some c' →
      ConnectionMove alive s l o ({ s with connectionLists := L }.store c') j) :
    ConnectionMove alive s l o ({ s with connectionLists := L }.store c') j := by
  have hget := get_store (s := { s with connectionLists := L }) hc (hid.trans (hs.connectionId hc)) j
  split at hget
  · next hj => exact hmove hj hget
  · next hj => exact .kept hget fun m => hL m hj

theorem RelayTurn.moved (h : RelayTurn alive s l o t) (hs : Tidy s) (j : ℕ) :
    ConnectionMove alive s l o t j := by
  cases h with
  | quiet nowMS attempts posts p q hp hq => exact .kept (hp.2 j) fun _ => .rfl
  | fail i dnsFuture attempts p hi hp => exact .kept (hp.2 j) fun _ => .rfl
  | resolve i dnsFuture attempts x k p hi halive hacquire hnew =>
    exact .acquire hs (by exact hacquire) hnew rfl
  | create attempts x k p i future hacquire hnew => exact .acquire hs (by exact hacquire) hnew rfl
  | orphan k c hc hconnected hdead =>
    exact .store hs hc rfl (fun _ _ => .rfl) fun hj hd => by
      subst hj
      exact .orphaned c rfl hc hconnected hdead hd fun _ => .rfl
  | connected k c f hc hconnected hmark hf halive =>
    exact .store hs hc rfl (fun _ => Linked.mem_grabTail_of_ne) fun hj hd => by
      subst hj
      exact .connected c f rfl rfl hc hconnected hmark hf halive hd fun _ => Linked.mem_grabTail_self rfl
  | data k c data hc hconnected hmark =>
    exact .store hs hc rfl (fun _ => Linked.mem_grabTail_of_ne) fun hj hd => by
      subst hj
      exact .data c rfl hc hconnected hmark hd fun _ => Linked.mem_grabTail_self rfl
  | mark l k c o hc hmark hl =>
    exact .store hs hc rfl (fun _ => Linked.mem_grabTail_of_ne) fun hj hd => by
      subst hj
      refine .marked c ?_ hc hmark hd fun _ => Linked.mem_grabTail_self rfl
      rcases hl with ⟨hl, -⟩ | ⟨hl, -⟩ | ⟨hl, hidle, -⟩
      · exact .inl hl
      · exact .inr (.inl hl)
      · exact .inr (.inr ⟨hl, hidle⟩)
  | clean k c hc hk =>
    have hget := Storage.get_release s.localConnectionPool k j
    split at hget
    · next hj => subst hj; exact .gone hget (.inr ⟨rfl, hk⟩)
    · next hj => exact .kept hget fun m => by simp [cleanConnection, hj]
  | _ => exact .kept rfl fun _ => .rfl

/-- A UDP channel that is written back moves, all others are kept. -/
theorem UdpChannelMove.store {L : Linked RelayUdpChannelList} (hs : Tidy s)
    (hx : s.localUdpChannelPool.get u = some x) (hid : x'.udpChannelId = x.udpChannelId)
    (hL : ∀ m, j ≠ u → (j ∈ L.nodes m ↔ j ∈ s.udpChannelLists.nodes m))
    (hmove : j = u → ({ s with udpChannelLists := L }.storeUdp x').localUdpChannelPool.get j =
      some x' → UdpChannelMove s l ({ s with udpChannelLists := L }.storeUdp x') j) :
    UdpChannelMove s l ({ s with udpChannelLists := L }.storeUdp x') j := by
  have hget := get_storeUdp (s := { s with udpChannelLists := L }) hx
    (hid.trans (hs.udpChannelId hx)) j
  split at hget
  · next hj => exact hmove hj hget
  · next hj => exact .kept hget fun m => hL m hj

theorem RelayTurn.udpMoved (h : RelayTurn alive s l o t) (hs : Tidy s) (j : ℕ) :
    UdpChannelMove s l t j := by
  cases h with
  | quiet nowMS attempts posts p q hp hq => exact .kept (hq.2 j) fun _ => .rfl
  | createUdp attempts x u p hacquire hid hmark =>
    have hget := Storage.get_acquire hacquire j
    split at hget
    · next hj =>
      subst hj
      obtain ⟨hu, -, -⟩ := Storage.acquire_eq_some hacquire
      exact .created _ rfl (by omega) hget hmark
        (hs.udpFiled.not_linked (Storage.get_of_acquire hacquire))
    · exact .kept hget fun _ => .rfl
  | keepUdp u x hx hmark =>
    exact .store hs hx rfl (fun _ => Linked.mem_grabTail_of_ne) fun hj hy => by
      subst hj
      exact .touched x rfl hx hmark hy fun _ => Linked.mem_grabTail_self rfl
  | markUdp l u x hx hl =>
    exact .store hs hx rfl (fun _ => Linked.mem_grabTail_of_ne) fun hj hy => by
      subst hj
      refine .marked x ?_ hx hy fun _ => Linked.mem_grabTail_self rfl
      rcases hl with hl | ⟨hl, hidle, -⟩
      · exact .inl hl
      · exact .inr ⟨hl, hidle⟩
  | cleanUdp u x hx hu =>
    have hget := Storage.get_release s.localUdpChannelPool u j
    split at hget
    · next hj => subst hj; exact .gone hget (.inr ⟨rfl, hu⟩)
    · next hj => exact .kept hget fun m => by simp [cleanUdpChannel, hj]
  | _ => exact .kept rfl fun _ => .rfl

/-- A connection that was handed out, and is marked or gone. -/
def Dying (k : ℕ) (s : RelayLocalBindingService) : Prop :=
  k ≤ s.localConnectionPool.lastId ∧
    ∀ c, s.localConnectionPool.get k = some c → c.deleteMark = true

/-- A UDP channel that was handed out, and is marked or gone. -/
def UdpDying (u : ℕ) (s : RelayLocalBindingService) : Prop :=
  u ≤ s.localUdpChannelPool.lastId ∧
    ∀ x, s.localUdpChannelPool.get u = some x → x.deleteMark = true

/-- No id is used again. -/
theorem RelayTurn.lastId (h : RelayTurn alive s l o t) :
    s.localConnectionPool.lastId ≤ t.localConnectionPool.lastId ∧
      s.localUdpChannelPool.lastId ≤ t.localUdpChannelPool.lastId := by
  cases h with
  | quiet nowMS attempts posts p q hp hq => exact ⟨hp.1, hq.1⟩
  | fail i dnsFuture attempts p hi hp => exact ⟨hp.1, le_rfl⟩
  | resolve i dnsFuture attempts x k p hi halive hacquire hnew =>
    obtain ⟨hk, hlast, -⟩ := Storage.acquire_eq_some hacquire
    exact ⟨by change _ ≤ p.lastId; omega, le_rfl⟩
  | create attempts x k p i future hacquire hnew =>
    obtain ⟨hk, hlast, -⟩ := Storage.acquire_eq_some hacquire
    exact ⟨by change _ ≤ p.lastId; omega, le_rfl⟩
  | createUdp attempts x u p hacquire hid hmark =>
    obtain ⟨hu, hlast, -⟩ := Storage.acquire_eq_some hacquire
    exact ⟨le_rfl, by change _ ≤ p.lastId; omega⟩
  | _ => simp [store, storeUdp, cleanConnection, cleanUdpChannel]

/-- No turn takes back a mark. -/
theorem RelayTurn.dying (h : RelayTurn alive s l o t) (hs : Tidy s) (hk : Dying k s) : Dying k t := by
  refine ⟨hk.1.trans h.lastId.1, fun d hd => ?_⟩
  cases h.moved hs k with
  | gone h => rw [h] at hd; cases hd
  | created c i f hl hj => exact absurd hk.1 (Nat.not_le.2 hj)
  | kept hget => exact hk.2 d (hget ▸ hd)
  | orphaned c hl hc hconnected hdead hd' => rw [hd'] at hd; cases hd; exact hk.2 c hc
  | connected c f hl ho hc hconnected hmark => rw [hk.2 c hc] at hmark; cases hmark
  | data c hl hc hconnected hmark => rw [hk.2 c hc] at hmark; cases hmark
  | marked c hl hc hmark hd' => rw [hd'] at hd; cases hd; rfl

theorem RelayTurn.udpDying (h : RelayTurn alive s l o t) (hs : Tidy s) (hu : UdpDying u s) :
    UdpDying u t := by
  refine ⟨hu.1.trans h.lastId.2, fun y hy => ?_⟩
  cases h.udpMoved hs u with
  | gone h => rw [h] at hy; cases hy
  | created x hl hj => exact absurd hu.1 (Nat.not_le.2 hj)
  | kept hget => exact hu.2 y (hget ▸ hy)
  | touched x hl hx hmark => rw [hu.2 x hx] at hmark; cases hmark
  | marked x hl hx hy' => rw [hy'] at hy; cases hy; rfl

/-- An id that is not live any more is not live again. -/
theorem RelayTurn.gone (h : RelayTurn alive s l o t)
    (hk : k ≤ s.localConnectionPool.lastId) (hs : Tidy s)
    (hnone : s.localConnectionPool.get k = none) : t.localConnectionPool.get k = none := by
  cases h.moved hs k with
  | gone h => exact h
  | created c i f hl hj => exact absurd hk (Nat.not_le.2 hj)
  | kept hget => exact hget.trans hnone
  | orphaned c hl hc => rw [hnone] at hc; cases hc
  | connected c f hl ho hc => rw [hnone] at hc; cases hc
  | data c hl hc => rw [hnone] at hc; cases hc
  | marked c hl hc => rw [hnone] at hc; cases hc

theorem RelayTurn.udpGone (h : RelayTurn alive s l o t)
    (hu : u ≤ s.localUdpChannelPool.lastId) (hs : Tidy s)
    (hnone : s.localUdpChannelPool.get u = none) : t.localUdpChannelPool.get u = none := by
  cases h.udpMoved hs u with
  | gone h => exact h
  | created x hl hj => exact absurd hu (Nat.not_le.2 hj)
  | kept hget => exact hget.trans hnone
  | touched x hl hx => rw [hnone] at hx; cases hx
  | marked x hl hx => rw [hnone] at hx; cases hx

end

end RelayLocalBindingService

end ProxyPlatform
