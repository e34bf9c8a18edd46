import ProxyPlatform.Proxy.Segmentation
import ProxyPlatform.Proxy.Upload
import Mathlib.Data.List.GetD

/-!
# The SOCKS5 negotiation

A SOCKS5 client sends a greeting with the methods it offers, then its user and its password if it
is asked for them, and then its request. Each is a message whose length is known from its first
bytes, and may arrive in pieces.

* `s5Request`, `s5Greeting`, `s5AuthInfo`: the messages;
* `readS5Target_request`, `readS5Target_of_begins`: a request is read back, and what it begins with
  is not taken for one;
* `readsS5Request_iff`: which requests are read as they should be;
* `onS5AuthInfo_of_begins`, `onS5AuthInfo_whole`: the user and the password are waited for, and
  then looked up;
* `negotiates_iff`: the greetings with which a negotiation does not depend on the cut.

`onS5Target` has a lower and an upper bound for the size of its data that the shortest and the
longest names do not keep; and a greeting is not waited for.
-/

namespace ProxyPlatform.ProxyAccessService

open Handshake

variable {σ : Type*} {S : Services σ} {P : Platform} {s : ProxyAccessService σ}
  {c : ClientConnection} {data x : Bytes} {t : Target}

/-! ## Requests -/

/-- The request for a connection to the target, with the bytes given for the version and the
    reserved one. -/
def s5Request (version reserved : UInt8) : Target → Bytes
  | .address a =>
    [version, 1, reserved, if a.type = .ipv4 then 1 else 4] ++ a.bytes ++ portBytes a.port
  | .hostname name port => [version, 1, reserved, 3, name.length.toUInt8] ++ name ++ portBytes port

/-- A target that can be asked for. -/
def IsS5Target : Target → Prop
  | .address a => (a.type = .ipv4 ∧ a.bytes.length = 4 ∨ a.type = .ipv6 ∧ a.bytes.length = 16) ∧
    a.port < 65536
  | .hostname name port => (1 ≤ name.length ∧ name.length ≤ 255) ∧ port < 65536

/-- The request for the target is read as it should be: what it begins with is waited for, the
    whole is consumed, and a connection to the target requested; and with another version, or
    without the reserved byte, it is refused. -/
def ReadsS5Request (S : Services σ) (P : Platform) (s : ProxyAccessService σ)
    (c : ClientConnection) (t : Target) : Prop :=
  (∀ data, data <+: s5Request 5 0 t → data ≠ s5Request 5 0 t →
    onS5Target S P s c data = .ok (s, c, some 0)) ∧
  (∃ s' f, requestDeviceConnection S P s { c with dataProcessor := .killConnectionOnData } t =
      (s', some f) ∧
    onS5Target S P s c (s5Request 5 0 t) =
      .ok (s', { { c with dataProcessor := .killConnectionOnData }.setFuture
        .acquireDeviceConnection (some f) with type := .s5Tcp }, some (s5Request 5 0 t).length)) ∧
  ∀ version reserved, version ≠ 5 ∨ reserved ≠ 0 →
    ∃ s' c', onS5Target S P s c (s5Request version reserved t) = .ok (s', c', none)

/-- There is a future, and the request is neither too short nor too long. -/
def S5RequestFits (s : ProxyAccessService σ) (t : Target) : Prop :=
  HasRoom s .acquireDeviceConnection ∧ 10 ≤ (s5Request 5 0 t).length ∧
    (s5Request 5 0 t).length < 6 + 256

theorem getD_of_begins {y : Bytes} (h : x <+: y) {i : ℕ} (hi : i < x.length) :
    x.getD i 0 = y.getD i 0 := by
  obtain ⟨r, rfl⟩ := h
  rw [List.getD_append _ _ _ _ hi]

theorem length_lt_of_begins {y : Bytes} (h : x <+: y) (hne : x ≠ y) : x.length < y.length :=
  lt_of_le_of_ne h.length_le fun hlength => hne (h.eq_of_length hlength)

theorem toNat_toUInt8 (n : ℕ) : n.toUInt8.toNat = n % 256 := by
  simp

/-- The port behind a text is read back. -/
theorem port_portBytes {port : ℕ} (h : port < 65536) (x : Bytes) :
    256 * ((x ++ portBytes port).getD x.length 0).toNat +
      ((x ++ portBytes port).getD (x.length + 1) 0).toNat = port := by
  rw [List.getD_append_right _ _ _ _ le_rfl,
    List.getD_append_right _ _ _ _ (Nat.le_add_right x.length 1), Nat.sub_self,
    Nat.add_sub_cancel_left]
  change 256 * (port / 256).toUInt8.toNat + port.toUInt8.toNat = port
  rw [toNat_toUInt8, toNat_toUInt8]
  omega

theorem length_portBytes (port : ℕ) : (portBytes port).length = 2 := rfl

/-- The length of a request. -/
theorem length_s5Request (version reserved : UInt8) (t : Target) :
    (s5Request version reserved t).length = match t with
      | .address a => 6 + a.bytes.length
      | .hostname name _ => 7 + name.length := by
  cases t <;> simp [s5Request, length_portBytes] <;> omega

/-- A request is read back. -/
theorem readS5Target_request (ht : IsS5Target t) (version reserved : UInt8) :
    readS5Target (s5Request version reserved t) =
      some (some t, (s5Request version reserved t).length) := by
  have hlength := length_s5Request version reserved t
  rcases t with ⟨type, bytes, port⟩ | ⟨name, port⟩
  · obtain ⟨⟨htype, hbytes⟩ | ⟨htype, hbytes⟩, hport⟩ := ht <;> dsimp only at htype hbytes hport hlength
    · subst htype
      have hread := port_portBytes hport ([version, 1, reserved, 1] ++ bytes)
      rw [List.length_append, hbytes] at hread
      have htake : ((s5Request version reserved (.address ⟨.ipv4, bytes, port⟩)).drop 4).take 4 =
          bytes := List.take_left' hbytes
      rw [readS5Target, hlength, hbytes, htake]
      refine (if_pos rfl).trans ?_
      simp only [Option.some.injEq, Prod.mk.injEq, Target.address.injEq, NetAddress.mk.injEq]
      exact ⟨⟨trivial, trivial, hread⟩, trivial⟩
    · subst htype
      have hread := port_portBytes hport ([version, 1, reserved, 4] ++ bytes)
      rw [List.length_append, hbytes] at hread
      have htake : ((s5Request version reserved (.address ⟨.ipv6, bytes, port⟩)).drop 4).take 16 =
          bytes := List.take_left' hbytes
      rw [readS5Target, hlength, hbytes, htake]
      refine (if_neg (show ¬(4 : UInt8) = 1 by decide)).trans ((if_pos rfl).trans ?_)
      rw [if_neg (by omega)]
      simp only [Option.some.injEq, Prod.mk.injEq, Target.address.injEq, NetAddress.mk.injEq]
      exact ⟨⟨trivial, trivial, hread⟩, trivial⟩
  · obtain ⟨⟨-, hle⟩, hport⟩ := ht
    dsimp only at hlength
    have hread := port_portBytes hport ([version, 1, reserved, 3, name.length.toUInt8] ++ name)
    rw [List.length_append] at hread
    have hn : ((s5Request version reserved (.hostname name port)).getD 4 0).toNat = name.length := by
      refine (toNat_toUInt8 name.length).trans ?_
      omega
    have htake : ((s5Request version reserved (.hostname name port)).drop 5).take name.length =
        name := List.take_left
    rw [readS5Target, hn, hlength]
    refine (if_neg (show ¬(3 : UInt8) = 1 by decide)).trans
      ((if_neg (show ¬(3 : UInt8) = 4 by decide)).trans ((if_pos rfl).trans ?_))
    dsimp only
    rw [if_neg (by omega), htake]
    simp only [Option.some.injEq, Prod.mk.injEq, Target.hostname.injEq]
    exact ⟨⟨trivial, hread⟩, by omega⟩

/-- What a request begins with is not taken for one. -/
theorem readS5Target_of_begins (ht : IsS5Target t) (hdata : data <+: s5Request 5 0 t)
    (hne : data ≠ s5Request 5 0 t) (hten : 10 ≤ data.length) : readS5Target data = none := by
  have hlt := length_lt_of_begins hdata hne
  have hget : ∀ i < 10, data.getD i 0 = (s5Request 5 0 t).getD i 0 := fun i hi =>
    getD_of_begins hdata (by omega)
  rw [length_s5Request] at hlt
  rcases t with ⟨type, bytes, port⟩ | ⟨name, port⟩
  · obtain ⟨⟨htype, hbytes⟩ | ⟨htype, hbytes⟩, hport⟩ := ht <;> dsimp only at htype hbytes hport hlt
    · omega
    · subst htype
      rw [readS5Target, hget 3 (by decide)]
      refine (if_neg (show ¬(4 : UInt8) = 1 by decide)).trans ((if_pos rfl).trans ?_)
      exact if_pos (by omega)
  · obtain ⟨⟨-, hle⟩, hport⟩ := ht
    dsimp only at hlt
    have hn : ((s5Request 5 0 (.hostname name port)).getD 4 0).toNat = name.length := by
      refine (toNat_toUInt8 name.length).trans ?_
      omega
    rw [readS5Target, hget 3 (by decide), hget 4 (by decide), hn]
    refine (if_neg (show ¬(3 : UInt8) = 1 by decide)).trans
      ((if_neg (show ¬(3 : UInt8) = 4 by decide)).trans ((if_pos rfl).trans ?_))
    exact if_pos (by omega)

/-- What a request begins with is waited for. -/
theorem onS5Target_of_begins (ht : IsS5Target t) (hdata : data <+: s5Request 5 0 t)
    (hne : data ≠ s5Request 5 0 t) : onS5Target S P s c data = .ok (s, c, some 0) := by
  rw [onS5Target]
  dsimp only
  by_cases hten : data.length < 10
  · rw [if_pos hten]
  have hlt := length_lt_of_begins hdata hne
  have hlong : ¬6 + 256 ≤ data.length := by
    rw [length_s5Request] at hlt
    rcases t with a | ⟨name, port⟩ <;> dsimp only at hlt
    · rcases ht.1 with ⟨-, hbytes⟩ | ⟨-, hbytes⟩ <;> omega
    · have hle := ht.1.2
      omega
  have hversion : data.getD 0 0 = 5 := by
    rw [getD_of_begins hdata (by omega)]
    cases t <;> rfl
  have hreserved : data.getD 2 0 = 0 := by
    rw [getD_of_begins hdata (by omega)]
    cases t <;> rfl
  rw [if_neg hten, if_neg hlong, hversion, hreserved, if_neg (by decide),
    readS5Target_of_begins ht hdata hne (by omega)]

/-- A request that is as long as it may be is passed on. -/
theorem onS5Target_request (ht : IsS5Target t) (hten : 10 ≤ (s5Request 5 0 t).length)
    (hlt : (s5Request 5 0 t).length < 6 + 256) {s' : ProxyAccessService σ} {f : ℕ}
    (h : requestDeviceConnection S P s { c with dataProcessor := .killConnectionOnData } t =
      (s', some f)) :
    onS5Target S P s c (s5Request 5 0 t) =
      .ok (s', { { c with dataProcessor := .killConnectionOnData }.setFuture
        .acquireDeviceConnection (some f) with type := .s5Tcp },
        some (s5Request 5 0 t).length) := by
  have hget : (s5Request 5 0 t).getD 0 0 = 5 ∧ (s5Request 5 0 t).getD 1 0 = 1 ∧
      (s5Request 5 0 t).getD 2 0 = 0 := by
    cases t <;> exact ⟨rfl, rfl, rfl⟩
  rw [onS5Target]
  dsimp only
  rw [if_neg (by omega), if_neg (by omega), hget.1, hget.2.2, if_neg (by decide),
    readS5Target_request ht]
  dsimp only
  rw [hget.2.1, if_pos rfl, h]

/-- A request is read as it should be if and only if there is a future for it, and it has ten
    bytes at least and 261 at most. -/
theorem readsS5Request_iff (ht : IsS5Target t) :
    ReadsS5Request S P s c t ↔ S5RequestFits s t := by
  constructor
  · rintro ⟨-, ⟨s', f, hrequest, hwhole⟩, -⟩
    refine ⟨(requestDeviceConnection_isSome hrequest).1 rfl, ?_, ?_⟩
    · by_contra hshort
      rw [onS5Target] at hwhole
      dsimp only at hwhole
      rw [if_pos (by omega)] at hwhole
      have hsize := congrArg (fun x => x.2.2) (Except.ok.inj hwhole)
      have hzero := Option.some.inj hsize
      rw [length_s5Request] at hzero
      cases t <;> dsimp only at hzero <;> omega
    · by_contra hlong
      rw [onS5Target] at hwhole
      dsimp only at hwhole
      rw [if_neg (by omega), if_pos (by omega)] at hwhole
      have hsize := congrArg (fun x => x.2.2) (Except.ok.inj hwhole)
      cases hsize
  · rintro ⟨hroom, hten, hlt⟩
    refine ⟨fun data hdata hne => onS5Target_of_begins ht hdata hne, ?_, ?_⟩
    · rcases hrequest : requestDeviceConnection S P s
        { c with dataProcessor := .killConnectionOnData } t with ⟨s', f | f⟩
      · exact absurd ((requestDeviceConnection_isSome hrequest).2 hroom) Bool.false_ne_true
      · exact ⟨s', f, rfl, onS5Target_request ht hten hlt hrequest⟩
    · intro version reserved hwrong
      have hget : (s5Request version reserved t).getD 0 0 = version ∧
          (s5Request version reserved t).getD 2 0 = reserved := by
        cases t <;> exact ⟨rfl, rfl⟩
      have hlength : (s5Request version reserved t).length = (s5Request 5 0 t).length := by
        rw [length_s5Request, length_s5Request]
      refine ⟨{ s with audit := { s.audit with invalidS5Target := s.audit.invalidS5Target + 1 } }, c,
        ?_⟩
      rw [onS5Target]
      dsimp only
      rw [if_neg (by omega), if_neg (by omega), hget.1, hget.2, if_pos hwrong]

/-- A client that is asked for its request. -/
def requestingConnection : ClientConnection :=
  { newConnection (init ()) localAddress localAddress 1 with dataProcessor := .onS5Target }

theorem readsS5Request_hostname :
    ReadsS5Request grantingServices credentialPlatform (init ()) requestingConnection
      (.hostname (ascii "abc") 80) :=
  (readsS5Request_iff (t := .hostname (ascii "abc") 80)
    ⟨⟨by decide +kernel, by decide +kernel⟩, by decide⟩).2
    ⟨by decide +kernel, by decide +kernel, by decide +kernel⟩

/-- A request for a host with a name of one byte is waited for when it is there. -/
theorem readsS5Request_counterexample :
    ¬ReadsS5Request grantingServices credentialPlatform (init ()) requestingConnection
      (.hostname (ascii "a") 80) := by
  rintro ⟨-, ⟨s', f, -, hwhole⟩, -⟩
  obtain ⟨⟨s'', c', n⟩, hx, hp⟩ := exists_ok_of_check
    (x := onS5Target grantingServices credentialPlatform (init ()) requestingConnection
      (s5Request 5 0 (.hostname (ascii "a") 80)))
    (p := fun x => x.2.2 = some 0) (by decide +kernel)
  rw [hx] at hwhole
  have hsize : n = some (s5Request 5 0 (.hostname (ascii "a") 80)).length :=
    congrArg (fun x => x.2.2) (Except.ok.inj hwhole)
  rw [show n = some 0 from of_decide_eq_true hp] at hsize
  exact absurd hsize (by decide +kernel)

/-! ## The greeting and the authentication -/

/-- The greeting of a client that offers these methods. -/
def s5Greeting (methods : Bytes) : Bytes := 5 :: methods.length.toUInt8 :: methods

/-- The user and the password. -/
def s5AuthInfo (user pass : Bytes) : Bytes :=
  1 :: user.length.toUInt8 :: (user ++ pass.length.toUInt8 :: pass)

/-- The buffer behind a call of `OnS5AuthInfo`, which writes the separator of the key over the
    length of the password. -/
def s5AuthBuffer (data : Bytes) : Bytes :=
  let nameLen := (data.getD 1 0).toNat
  let passLen := (data.getD (2 + nameLen) 0).toNat
  if data.length < 3 then data
  else if data.getD 0 0 ≠ 1 then data
  else if data.length < 3 + nameLen then data
  else if data.length < 3 + nameLen + passLen then data
  else data.set (2 + nameLen) 0

/-- The request for authentication, with what the client is answered when there is no future. -/
def requestKey (S : Services σ) (P : Platform) (s : ProxyAccessService σ) (c : ClientConnection)
    (key refusal : Bytes) : Except Fault (ProxyAccessService σ × ClientConnection) :=
  match requestAuthentication S s c key with
  | .error x => .error x
  | .ok (s, none) =>
    let s := { s with audit := { s.audit with
      requestAuthenticationOOM := s.audit.requestAuthenticationOOM + 1 } }
    .ok (post P s (c.setFuture .auth none) .reply refusal)
  | .ok (s, some f) => .ok (s, c.setFuture .auth (some f))

/-- The data is used up. -/
def consumedAll (size : ℕ) (x : ProxyAccessService σ × ClientConnection) :
    ProxyAccessService σ × ClientConnection × Option ℕ := (x.1, x.2, some size)

/-- The handshake is over, and nothing is left. -/
def ended (x : ProxyAccessService σ × ClientConnection) : Handshake σ :=
  { service := x.1, connection := x.2 }

/-- The segments are not empty, and are the message. -/
structure IsCutOf (message : Bytes) (segments : List Bytes) : Prop where
  flatten : segments.flatten = message
  nonempty : ∀ x ∈ segments, x ≠ []

/-- The negotiation in these segments: the user and the password are asked for and looked up if the
    client offers that, its address if it offers no authentication, and it is refused if it offers
    neither; and the buffer is not touched before the message is there. -/
def Negotiates (S : Services σ) (P : Platform) (s : ProxyAccessService σ) (c : ClientConnection)
    (methods user pass : Bytes) (greeting info : List Bytes) : Prop :=
  let greeted := exec (feed S P) { service := s, connection := c } greeting
  let asked := post P s { c with type := .s5Challenge } .reply [5, 2]
  (2 ∈ methods → (greeted.bind fun t => exec (feed S P) t info) =
    (requestKey S P asked.1 { asked.2 with dataProcessor := .killConnectionOnData }
      (combineAccountPass user pass) [1, 1]).map ended) ∧
  (2 ∉ methods → 0 ∈ methods → greeted = (requestKey S P s
    { c with type := .s5Challenge, noAuth := true, dataProcessor := .killConnectionOnData }
      (combineAccountPass [] (P.ipToString c.remoteAddress)) [5, 255]).map ended) ∧
  (2 ∉ methods → 0 ∉ methods → ∃ t, greeted = .ok t ∧
    t.service.calls = s.calls ++ [.post c.connectionId .reply [5, 255]]) ∧
  ∀ data, data <+: s5AuthInfo user pass → data ≠ s5AuthInfo user pass → s5AuthBuffer data = data

variable {methods user pass key refusal : Bytes} {h : Handshake σ}

theorem length_s5Greeting (methods : Bytes) : (s5Greeting methods).length = 2 + methods.length := by
  simp [s5Greeting]
  omega

theorem length_s5AuthInfo (user pass : Bytes) :
    (s5AuthInfo user pass).length = 3 + user.length + pass.length := by
  simp [s5AuthInfo]
  omega

/-- A call that requests authentication ends the handshake. -/
theorem feed_requestKey {size : ℕ} {c' : ClientConnection} (hinvalid : h.invalid = false)
    (hsize : (h.buffer ++ x).length = size)
    (hdata : processData S P h.service h.connection (h.buffer ++ x) =
      (requestKey S P h.service c' key refusal).map (consumedAll size)) :
    feed S P h x = (requestKey S P h.service c' key refusal).map ended := by
  have hdrop : (h.buffer ++ x).drop size = [] := by rw [← hsize, List.drop_length]
  rcases hkey : requestKey S P h.service c' key refusal with e | y <;> rw [hkey] at hdata
  · exact feed_of_error hinvalid hdata
  · rw [feed_of_processed hinvalid hdata (.inr hdrop), hdrop, hinvalid]
    rfl

/-! ### The greeting -/

/-- A greeting that is not complete is refused. -/
theorem onGuessProxyType_of_begins (hle : methods.length ≤ 255) (hdata : data <+: s5Greeting methods)
    (hne : data ≠ s5Greeting methods) : onGuessProxyType S P s c data = .ok (s, c, none) := by
  have hlt := length_lt_of_begins hdata hne
  rw [length_s5Greeting] at hlt
  rw [onGuessProxyType]
  by_cases hshort : data.length < 3
  · rw [if_pos hshort]
  have hfirst : data.getD 0 0 = 5 := getD_of_begins hdata (by omega)
  have hmethods : (data.getD 1 0).toNat = methods.length := by
    rw [getD_of_begins hdata (by omega)]
    refine (toNat_toUInt8 methods.length).trans ?_
    omega
  rw [if_neg hshort, if_pos hfirst, onS5Challenge]
  dsimp only
  rw [hmethods, if_neg (by omega), if_pos hlt]

/-- What the greeting comes to. -/
theorem onGuessProxyType_greeting (hpos : 1 ≤ methods.length) (hle : methods.length ≤ 255) :
    onGuessProxyType S P s c (s5Greeting methods) =
      if 2 ∉ methods then (requestKey S P s
        { c with type := .s5Challenge, noAuth := true, dataProcessor := .killConnectionOnData }
          (combineAccountPass [] (P.ipToString c.remoteAddress)) [5, 255]).map
          (consumedAll (2 + methods.length))
      else .ok ((post P s { c with type := .s5Challenge } .reply [5, 2]).1,
        { (post P s { c with type := .s5Challenge } .reply [5, 2]).2 with
          dataProcessor := .onS5AuthInfo }, some (2 + methods.length)) := by
  have hlength := length_s5Greeting methods
  have hmethods : ((s5Greeting methods).getD 1 0).toNat = methods.length := by
    refine (toNat_toUInt8 methods.length).trans ?_
    omega
  have htake : ((s5Greeting methods).drop 2).take methods.length = methods := List.take_length
  have hfirst : (s5Greeting methods).getD 0 0 = 5 := rfl
  rw [onGuessProxyType, if_neg (by omega), if_pos hfirst, onS5Challenge]
  dsimp only
  rw [hmethods, if_neg (by omega), if_neg (by omega), htake]
  by_cases htwo : 2 ∉ methods
  · rw [if_pos htwo, if_pos htwo, requestKey, combineAccountPass_nil]
    rcases requestAuthentication S s
      { c with type := .s5Challenge, noAuth := true, dataProcessor := .killConnectionOnData }
      (0 :: P.ipToString c.remoteAddress) with e | ⟨t, f | f⟩ <;> rfl
  · rw [if_neg htwo, if_neg htwo]

/-! ### The user and the password -/

section

variable (hu : 1 ≤ user.length ∧ user.length ≤ 255) (hp : 1 ≤ pass.length ∧ pass.length ≤ 255)

include hu hp in
/-- The lengths in what a message begins with. -/
theorem s5AuthInfo_lengths (hdata : data <+: s5AuthInfo user pass) (hthree : 3 ≤ data.length) :
    data.getD 0 0 = 1 ∧ (data.getD 1 0).toNat = user.length ∧
      (3 + user.length ≤ data.length → (data.getD (2 + user.length) 0).toNat = pass.length) := by
  refine ⟨getD_of_begins hdata (by omega), ?_, fun hlong => ?_⟩
  · rw [getD_of_begins hdata (by omega)]
    refine (toNat_toUInt8 user.length).trans ?_
    omega
  · rw [getD_of_begins hdata (by omega)]
    have hget : (s5AuthInfo user pass).getD (2 + user.length) 0 = pass.length.toUInt8 := by
      change ([1, user.length.toUInt8] ++ (user ++ pass.length.toUInt8 :: pass)).getD _ 0 = _
      have hlength : 2 + user.length = ([1, user.length.toUInt8] ++ user).length := by
        rw [List.length_append]
        rfl
      rw [← List.append_assoc, hlength, List.getD_append_right _ _ _ _ le_rfl, Nat.sub_self]
      rfl
    rw [hget]
    refine (toNat_toUInt8 pass.length).trans ?_
    omega

include hu hp in
/-- What a message begins with is waited for. -/
theorem onS5AuthInfo_of_begins (hdata : data <+: s5AuthInfo user pass)
    (hne : data ≠ s5AuthInfo user pass) : onS5AuthInfo S P s c data = .ok (s, c, some 0) := by
  have hlt := length_lt_of_begins hdata hne
  rw [length_s5AuthInfo] at hlt
  rw [onS5AuthInfo]
  dsimp only
  by_cases hshort : data.length < 3
  · rw [if_pos hshort]
  obtain ⟨hversion, hname, hpass⟩ := s5AuthInfo_lengths hu hp hdata (by omega)
  rw [if_neg hshort, hversion, if_neg (by decide), hname]
  by_cases hlong : data.length < 3 + user.length
  · rw [if_pos hlong]
  · rw [if_neg hlong, hpass (by omega), if_pos hlt]

include hu hp in
/-- The buffer is not touched before the message is there. -/
theorem s5AuthBuffer_of_begins (hdata : data <+: s5AuthInfo user pass)
    (hne : data ≠ s5AuthInfo user pass) : s5AuthBuffer data = data := by
  have hlt := length_lt_of_begins hdata hne
  rw [length_s5AuthInfo] at hlt
  rw [s5AuthBuffer]
  by_cases hshort : data.length < 3
  · rw [if_pos hshort]
  obtain ⟨hversion, hname, hpass⟩ := s5AuthInfo_lengths hu hp hdata (by omega)
  rw [if_neg hshort, hversion, if_neg (by decide), hname]
  by_cases hlong : data.length < 3 + user.length
  · rw [if_pos hlong]
  · rw [if_neg hlong, hpass (by omega), if_pos hlt]

include hu hp in
/-- The key is looked up when the message is there. -/
theorem onS5AuthInfo_whole : onS5AuthInfo S P s c (s5AuthInfo user pass) =
    (requestKey S P s { c with dataProcessor := .killConnectionOnData }
      (combineAccountPass user pass) [1, 1]).map (consumedAll (3 + user.length + pass.length)) := by
  have hlength := length_s5AuthInfo user pass
  obtain ⟨hversion, hname, hpass⟩ := s5AuthInfo_lengths hu hp (List.prefix_refl _) (by omega)
  have hkey : ((s5AuthInfo user pass).drop 2).take user.length ++
      0 :: ((s5AuthInfo user pass).drop (3 + user.length)).take pass.length =
        combineAccountPass user pass := by
    have hdrop : (s5AuthInfo user pass).drop (3 + user.length) = pass := by
      change ([1, user.length.toUInt8] ++ (user ++ pass.length.toUInt8 :: pass)).drop _ = _
      rw [← List.append_assoc, List.append_cons]
      exact List.drop_left' (by simp; omega)
    rw [hdrop, List.take_length]
    exact congrArg (· ++ 0 :: pass) List.take_left
  rw [onS5AuthInfo]
  dsimp only
  rw [if_neg (by omega), hversion, if_neg (by decide), hname, if_neg (by omega), hpass (by omega),
    if_neg (by omega), if_neg (by omega), hkey, requestKey]
  rcases requestAuthentication S s { c with dataProcessor := .killConnectionOnData }
    (combineAccountPass user pass) with e | ⟨t, f | f⟩ <;> rfl

include hu hp in
/-- The key is what the buffer then holds. -/
theorem s5AuthBuffer_whole : ((s5AuthBuffer (s5AuthInfo user pass)).drop 2).take
    (user.length + 1 + pass.length) = combineAccountPass user pass := by
  have hlength := length_s5AuthInfo user pass
  obtain ⟨hversion, hname, hpass⟩ := s5AuthInfo_lengths hu hp (List.prefix_refl _) (by omega)
  have hset : (s5AuthInfo user pass).set (2 + user.length) 0 =
      [1, user.length.toUInt8] ++ combineAccountPass user pass := by
    change ([1, user.length.toUInt8] ++ (user ++ pass.length.toUInt8 :: pass)).set _ 0 = _
    have hend : 2 + user.length = ([1, user.length.toUInt8] ++ user).length := by
      rw [List.length_append]
      rfl
    rw [← List.append_assoc, hend, List.set_append_right _ _ le_rfl, Nat.sub_self,
      List.append_assoc]
    rfl
  have hkey : (combineAccountPass user pass).length = user.length + 1 + pass.length := by
    simp [combineAccountPass]
    omega
  rw [s5AuthBuffer, if_neg (by omega), hversion, if_neg (by decide), hname, if_neg (by omega),
    hpass (by omega), if_neg (by omega), hset, ← hkey]
  exact List.take_length

include hu hp in
/-- The user and the password come to the same in every cut. -/
theorem exec_s5AuthInfo {segments : List Bytes} (hproc : h.connection.dataProcessor = .onS5AuthInfo)
    (hinvalid : h.invalid = false) (hnonempty : ∀ x ∈ segments, x ≠ [])
    (hcut : h.buffer ++ segments.flatten = s5AuthInfo user pass)
    (hne : h.buffer ≠ s5AuthInfo user pass) :
    exec (feed S P) h segments = (requestKey S P h.service
      { h.connection with dataProcessor := .killConnectionOnData } (combineAccountPass user pass)
      [1, 1]).map ended := by
  induction segments generalizing h with
  | nil => exact absurd (by simpa using hcut) hne
  | cons x segments ih =>
    obtain ⟨-, hnonempty⟩ := List.forall_mem_cons.1 hnonempty
    rw [List.flatten_cons, ← List.append_assoc] at hcut
    have hdata : processData S P h.service h.connection (h.buffer ++ x) =
        onS5AuthInfo S P h.service h.connection (h.buffer ++ x) := by
      rw [processData, hproc]
    by_cases hwhole : h.buffer ++ x = s5AuthInfo user pass
    · -- Nothing comes behind the message.
      obtain rfl : segments = [] := by
        rw [hwhole] at hcut
        have hflatten := List.append_right_eq_self.1 hcut
        rcases segments with _ | ⟨y, segments⟩
        · rfl
        · rw [List.flatten_cons, List.append_eq_nil_iff] at hflatten
          exact absurd hflatten.1 (hnonempty y List.mem_cons_self)
      have hfeed := feed_requestKey hinvalid (hwhole ▸ length_s5AuthInfo user pass)
        (hdata.trans (hwhole ▸ onS5AuthInfo_whole hu hp))
      rcases hkey : requestKey S P h.service
        { h.connection with dataProcessor := .killConnectionOnData } (combineAccountPass user pass)
        [1, 1] with e | y <;> rw [hkey] at hfeed
      · exact exec_cons_of_error _ hfeed
      · exact exec_cons_of_ok _ hfeed
    · -- The piece is kept with what there was.
      have hwait := onS5AuthInfo_of_begins (S := S) (P := P) (s := h.service) (c := h.connection) hu
        hp ⟨_, hcut⟩ hwhole
      have hfeed := feed_of_processed hinvalid (hdata.trans hwait) (.inl rfl)
      rw [exec_cons_of_ok _ hfeed]
      exact ih hproc hinvalid hnonempty hcut hwhole

end

/-! ### The negotiation -/

/-- In a piece, the greeting is refused. -/
theorem exec_s5Greeting_begins {segments : List Bytes} (hproc : c.dataProcessor = .onGuessProxyType)
    (hle : methods.length ≤ 255) (hx : x <+: s5Greeting methods) (hne : x ≠ s5Greeting methods) :
    exec (feed S P) { service := s, connection := c } (x :: segments) =
      .ok { service := s, connection := c, buffer := x, invalid := true } := by
  have hdata : processData S P s c ([] ++ x) = .ok (s, c, none) := by
    rw [processData, hproc]
    exact onGuessProxyType_of_begins hle hx hne
  rw [exec_cons_of_ok _ (feed_of_invalid (h := { service := s, connection := c }) rfl hdata)]
  exact exec_feed_of_invalid rfl _

/-- A client that is refused is not one whose authentication is requested. -/
theorem ne_map_ended {z : Except Fault (ProxyAccessService σ × ClientConnection)}
    (hinvalid : h.invalid = true) : .ok h ≠ z.map ended := by
  intro heq
  rcases z with e | z
  · cases heq
  · rw [Except.ok.inj heq] at hinvalid
    cases hinvalid

/-- The greeting in one piece, of a client that offers the user and the password. -/
theorem exec_s5Greeting_password (hproc : c.dataProcessor = .onGuessProxyType)
    (hm : 1 ≤ methods.length ∧ methods.length ≤ 255) (htwo : 2 ∈ methods) :
    exec (feed S P) { service := s, connection := c } [s5Greeting methods] = .ok
      { service := (post P s { c with type := .s5Challenge } .reply [5, 2]).1
        connection := { (post P s { c with type := .s5Challenge } .reply [5, 2]).2 with
          dataProcessor := .onS5AuthInfo } } := by
  have hdata : processData S P s c ([] ++ s5Greeting methods) =
      onGuessProxyType S P s c (s5Greeting methods) := by
    rw [processData, hproc]
    rfl
  rw [onGuessProxyType_greeting hm.1 hm.2, if_neg (not_not.2 htwo)] at hdata
  have hdrop : ([] ++ s5Greeting methods).drop (2 + methods.length) = [] :=
    List.drop_eq_nil_of_le (le_of_eq (length_s5Greeting methods))
  have hfeed := feed_of_processed (h := { service := s, connection := c }) rfl hdata (.inr hdrop)
  rw [exec_cons_of_ok _ hfeed, exec_nil, hdrop]

/-- The greeting in one piece, of a client that does not offer them: its address is looked up. -/
theorem exec_s5Greeting_address (hproc : c.dataProcessor = .onGuessProxyType)
    (hm : 1 ≤ methods.length ∧ methods.length ≤ 255) (htwo : 2 ∉ methods) :
    exec (feed S P) { service := s, connection := c } [s5Greeting methods] = (requestKey S P s
      { c with type := .s5Challenge, noAuth := true, dataProcessor := .killConnectionOnData }
      (combineAccountPass [] (P.ipToString c.remoteAddress)) [5, 255]).map ended := by
  have hdata : processData S P s c ([] ++ s5Greeting methods) =
      onGuessProxyType S P s c (s5Greeting methods) := by
    rw [processData, hproc]
    rfl
  rw [onGuessProxyType_greeting hm.1 hm.2, if_pos htwo] at hdata
  have hfeed := feed_requestKey (h := { service := s, connection := c }) rfl
    (length_s5Greeting methods) hdata
  rcases hkey : requestKey S P s
    { c with type := .s5Challenge, noAuth := true, dataProcessor := .killConnectionOnData }
    (combineAccountPass [] (P.ipToString c.remoteAddress)) [5, 255] with e | y
  · rw [hkey] at hfeed
    exact exec_cons_of_error _ hfeed
  · rw [hkey] at hfeed
    exact exec_cons_of_ok _ hfeed

/-- A lookup is answered with a refusal if and only if there is no future for it. -/
theorem requestKey_refused_iff : (∃ t, (requestKey S P s c key refusal).map ended = .ok t ∧
    t.service.calls = s.calls ++ [.post c.connectionId .reply refusal]) ↔ ¬HasRoom s .auth := by
  constructor
  · rintro ⟨t, ht, hcalls⟩ hroom
    rw [requestKey] at ht
    rcases hrequest : requestAuthentication S s c key with e | ⟨u, f | f⟩
    · rw [hrequest] at ht
      cases ht
    · exact absurd ((requestAuthentication_isSome hrequest).2 hroom) Bool.false_ne_true
    · rw [hrequest] at ht
      obtain ⟨hf, -⟩ | ⟨f, m, u, r, -, -, -, rfl⟩ := requestAuthentication_eq_ok hrequest
      · cases hf
      · -- The lookup is the last call, and not the refusal.
        cases ht
        have hlast := List.append_cancel_left hcalls
        cases hlast
  · intro hroom
    rw [requestKey, requestAuthentication, acquireFuture_eq_none.2 hroom]
    exact ⟨_, rfl, rfl⟩

/-- A greeting in pieces is refused at the first of them, whatever is offered. -/
theorem not_negotiates_pieces {segments info : List Bytes} (hproc : c.dataProcessor = .onGuessProxyType)
    (hle : methods.length ≤ 255) (hx : x <+: s5Greeting methods) (hne : x ≠ s5Greeting methods) :
    ¬Negotiates S P s c methods user pass (x :: segments) info := by
  rw [Negotiates, exec_s5Greeting_begins hproc hle hx hne]
  rintro ⟨hpassword, hnone, hrefused, -⟩
  by_cases htwo : 2 ∈ methods
  · exact ne_map_ended rfl ((exec_feed_of_invalid rfl info).symm.trans (hpassword htwo))
  by_cases hzero : 0 ∈ methods
  · exact ne_map_ended rfl (hnone htwo hzero)
  · obtain ⟨t, ht, hcalls⟩ := hrefused htwo hzero
    cases ht
    exact List.cons_ne_nil _ _ (List.append_right_eq_self.1 hcalls.symm)

/-- The negotiation is what it should be if and only if the greeting arrives in one piece, and
    offers the user and the password, or no authentication, or there is no future. -/
theorem negotiates_iff {greeting info : List Bytes} (hproc : c.dataProcessor = .onGuessProxyType)
    (hm : 1 ≤ methods.length ∧ methods.length ≤ 255) (hu : 1 ≤ user.length ∧ user.length ≤ 255)
    (hp : 1 ≤ pass.length ∧ pass.length ≤ 255) (hgreeting : IsCutOf (s5Greeting methods) greeting)
    (hinfo : IsCutOf (s5AuthInfo user pass) info) :
    Negotiates S P s c methods user pass greeting info ↔
      greeting.length = 1 ∧ (2 ∈ methods ∨ 0 ∈ methods ∨ ¬HasRoom s .auth) := by
  have hbuffer : ∀ data, data <+: s5AuthInfo user pass → data ≠ s5AuthInfo user pass →
      s5AuthBuffer data = data := fun _ => s5AuthBuffer_of_begins hu hp
  obtain ⟨x, segments, rfl⟩ : ∃ x segments, greeting = x :: segments := by
    refine List.exists_cons_of_ne_nil ?_
    rintro rfl
    cases hgreeting.flatten
  have hflatten := hgreeting.flatten
  rw [List.flatten_cons] at hflatten
  rcases segments with _ | ⟨y, segments⟩
  · have hx : x = s5Greeting methods := by simpa using hflatten
    subst hx
    by_cases htwo : 2 ∈ methods
    · refine iff_of_true ⟨fun _ => ?_, fun h => absurd htwo h, fun h => absurd htwo h, hbuffer⟩
        ⟨rfl, .inl htwo⟩
      rw [exec_s5Greeting_password hproc hm htwo]
      exact exec_s5AuthInfo hu hp rfl rfl hinfo.nonempty hinfo.flatten fun h => by cases h
    have hgreeted := exec_s5Greeting_address (S := S) (P := P) (s := s) hproc hm htwo
    by_cases hzero : 0 ∈ methods
    · exact iff_of_true ⟨fun h => absurd h htwo, fun _ _ => hgreeted, fun _ h => absurd hzero h,
        hbuffer⟩ ⟨rfl, .inr (.inl hzero)⟩
    rw [Negotiates, hgreeted]
    constructor
    · rintro ⟨-, -, hrefused, -⟩
      exact ⟨rfl, .inr (.inr (requestKey_refused_iff.1 (hrefused htwo hzero)))⟩
    · rintro ⟨-, h | h | hroom⟩
      · exact absurd h htwo
      · exact absurd h hzero
      · exact ⟨fun h => absurd h htwo, fun _ h => absurd h hzero,
          fun _ _ => requestKey_refused_iff.2 hroom, hbuffer⟩
  · have hrest : (y :: segments).flatten ≠ [] := fun hnil => by
      rw [List.flatten_cons, List.append_eq_nil_iff] at hnil
      exact hgreeting.nonempty y (List.mem_cons_of_mem _ List.mem_cons_self) hnil.1
    have hne : x ≠ s5Greeting methods := by
      rintro rfl
      exact hrest (List.append_right_eq_self.1 hflatten)
    exact iff_of_false (not_negotiates_pieces hproc hm.2 ⟨_, hflatten⟩ hne) fun h => by simp at h

/-- A client that has connected. -/
def greetingConnection : ClientConnection := newConnection (init ()) localAddress localAddress 1

theorem negotiates_pieces :
    Negotiates grantingServices credentialPlatform (init ()) greetingConnection [0, 2] (ascii "u")
      (ascii "p") [[5, 2, 0, 2]] [[1, 1], ascii "u", [1], ascii "p"] :=
  (negotiates_iff rfl ⟨by decide, by decide⟩ ⟨by decide +kernel, by decide +kernel⟩
    ⟨by decide +kernel, by decide +kernel⟩ ⟨by decide, by decide⟩
    ⟨by decide +kernel, by decide +kernel⟩).2 ⟨rfl, .inl (by decide)⟩

/-- A greeting in two pieces is refused. -/
theorem negotiates_counterexample :
    IsCutOf (s5Greeting [0]) [[5, 1], [0]] ∧
      ¬Negotiates grantingServices credentialPlatform (init ()) greetingConnection [0] (ascii "u")
        (ascii "p") [[5, 1], [0]] [s5AuthInfo (ascii "u") (ascii "p")] := by
  refine ⟨⟨by decide, by decide⟩, ?_⟩
  rintro ⟨-, hnone, -⟩
  obtain ⟨h, hx, hp⟩ := exists_ok_of_check
    (x := exec (feed grantingServices credentialPlatform)
      { service := init (), connection := greetingConnection } [[5, 1], [0]])
    (p := fun h => h.invalid = true) (by decide +kernel)
  exact ne_map_ended (of_decide_eq_true hp) (hx.symm.trans (hnone (by decide) (by decide)))

end ProxyPlatform.ProxyAccessService
