import ProxyPlatform.Proxy.Credential
import ProxyPlatform.Proxy.Segments

/-!
# Cutting the HTTP handshake into segments

A handshake should not depend on how the transport cuts the data of the client. The
processors of the header keep what they know of it in three places: the key in a variable
of the call, the line that is not complete in `tempHeaderLine`, or in the buffer of the
transport, and where they are in the size they return. Only the last two survive a call.

* `onHttpChallenge_connect`, `onHttpChallenge_normal`: the request line is read from its own
  bytes;
* `IsFresh.outcomeOf_cut`: a cut of the request is a cut of its header;
* `AtRaw.map_exec`, `AtNormal.map_exec`: the headers that come to the same in every cut;
* `AtRaw.not_independent`: a key that is found in one call is not there in the next;
* `AtRaw.not_independent_refused`: a refusal for which nothing is consumed is repeated with the
  next segment;
* `AtNormal.map_exec_bytes`: no line end is found in single bytes;
* `segmentationIndependent_iff`: the handshakes that do not depend on the cut.
-/

namespace ProxyPlatform

open ProxyAccessService

/-- A cut of the data `b`, whose first segment is long enough to tell the protocol. -/
structure IsCut (b : Bytes) (segments : List Bytes) : Prop where
  flatten : segments.flatten = b
  nonempty : ∀ x ∈ segments, x ≠ []
  first : ∀ x, segments.head? = some x → 3 ≤ x.length

/-- A request line: a method, a target and a version. -/
structure IsRequestLine (line : Bytes) : Prop where
  isLine : findCrlf line = none
  parts : ∃ method target version,
    line = method ++ 32 :: (target ++ 32 :: (ascii "HTTP/" ++ version)) ∧
      method ≠ [] ∧ target ≠ [] ∧ (∀ b ∈ method, 33 ≤ b ∧ b ≤ 126) ∧ ∀ b ∈ target, b ≠ 32

theorem IsRequestLine.ne_nil {line : Bytes} (h : IsRequestLine line) : line ≠ [] := by
  obtain ⟨method, target, version, hparts, -⟩ := h.parts
  rw [hparts]
  simp

namespace Handshake

variable {σ : Type*} (S : Services σ) (P : Platform) (s : ProxyAccessService σ)
  (c : ClientConnection)

/-- A connection that has received nothing. -/
structure IsFresh : Prop where
  dataProcessor : c.dataProcessor = .onGuessProxyType
  http : c.http = {}

/-- What the handshake of the connection `c` comes to. -/
def outcomeOf (segments : List Bytes) : Except Fault Outcome :=
  (exec (feed S P) { service := s, connection := c } segments).map outcome

/-- The data `b` comes to the same in every cut. -/
def SegmentationIndependent (b : Bytes) : Prop :=
  ∀ segments segments', IsCut b segments → IsCut b segments' →
    outcomeOf S P s c segments = outcomeOf S P s c segments'

/-- A line of the header that is dropped. -/
def IsProxyConnection (line : Bytes) : Prop :=
  18 < line.length ∧ strncasecmp (ascii "Proxy-Connection: ") line
  deriving Decidable

/-- A `CONNECT` request has no host, or its header is answered once; any other request has no lines
    but `Proxy-Connection` ones. -/
def CutsAlike (line rest : Bytes) : Prop :=
  if strncasecmp (ascii "CONNECT ") line then
    (line.drop 8).head? = some 58 ∨ AnsweredOnce P rest
  else ∀ l ∈ (splitLines rest).1, IsProxyConnection l

variable {S P s c} {line rest r : Bytes}

/-! ## The request line -/

theorem endsNumber_slash : EndsNumber 47 := by
  decide

/-- The host and the port of a target up to a slash, whatever follows. -/
theorem readAuthority_slash {n : ℕ} {y : Bytes} (h : n = 0 ∨ y[n - 1]? = some 47) (host : Bytes) :
    ∃ target, ∀ r, readAuthority 47 n host (y ++ r) = .ok target := by
  induction n generalizing y host with
  | zero => exact ⟨none, fun r => by cases y ++ r <;> rfl⟩
  | succ n ih =>
    have hy : y[n]? = some 47 := h.resolve_left (Nat.succ_ne_zero n)
    rcases y with _ | ⟨b, bs⟩
    · cases hy
    · simp only [List.cons_append, readAuthority]
      have hnext : b ≠ 47 → ∃ m, n = m + 1 ∧ bs[m]? = some 47 := by
        intro hb
        cases n with
        | zero => exact absurd (Option.some.inj hy) hb
        | succ m => exact ⟨m, rfl, hy⟩
      by_cases hcolon : b = 58
      · obtain ⟨m, rfl, hm⟩ := hnext (by rw [hcolon]; decide)
        obtain ⟨i, hi⟩ := atoi16_of_mem endsNumber_slash (List.mem_of_getElem? hm)
        exact ⟨some (host, i), fun r => by rw [if_pos hcolon, hi]; rfl⟩
      · by_cases hslash : b = 47
        · exact ⟨some (host, 80), fun r => by rw [if_neg hcolon, if_pos hslash]⟩
        · obtain ⟨m, rfl, hm⟩ := hnext hslash
          obtain ⟨target, htarget⟩ := ih (.inr hm) (host ++ [b])
          exact ⟨target, fun r => by rw [if_neg hcolon, if_neg hslash, htarget]⟩

/-- The host and the port of the target of a `CONNECT` request. -/
theorem readAuthority_space {n : ℕ} {target v : Bytes} (hn : target.length < n) (hv : 47 ∈ v)
    (htarget : 32 ∉ target) (host : Bytes) :
    ∃ port, ∀ r, readAuthority 32 n host (target ++ 32 :: v ++ r) =
      .ok (some (host ++ target.takeWhile (· ≠ 58), port)) := by
  induction target generalizing n host with
  | nil =>
    obtain ⟨n, rfl⟩ := Nat.exists_eq_add_of_lt hn
    refine ⟨80, fun r => ?_⟩
    simp [readAuthority]
  | cons b target ih =>
    obtain ⟨m, rfl⟩ : ∃ m, n = m + 1 := ⟨n - 1, by simp at hn; omega⟩
    simp only [List.cons_append, readAuthority]
    by_cases hcolon : b = 58
    · obtain ⟨i, hi⟩ := atoi16_of_mem (l := target ++ 32 :: v) endsNumber_slash
        (List.mem_append_right _ (List.mem_cons_of_mem _ hv))
      refine ⟨i, fun r => ?_⟩
      rw [if_pos hcolon, hi, List.takeWhile_cons_of_neg (by simpa using hcolon), List.append_nil]
      rfl
    · have hspace : b ≠ 32 := fun h => htarget (h ▸ List.mem_cons_self)
      obtain ⟨port, hport⟩ := ih (n := m) (by simp at hn; omega)
        (fun h => htarget (List.mem_cons_of_mem _ h)) (host ++ [b])
      refine ⟨port, fun r => ?_⟩
      rw [if_neg hcolon, if_neg hspace, hport, List.takeWhile_cons_of_pos (by simpa using hcolon),
        List.append_assoc, List.singleton_append]

theorem tolower_ne_space {b : UInt8} (hb : 33 ≤ b) : tolower b ≠ 32 := by
  rw [tolower]
  split
  · next h =>
    intro heq
    have h1 := h.1
    have h2 := h.2
    simp only [UInt8.le_iff_toNat_le, ← UInt8.toNat_inj, UInt8.toNat_add, UInt8.reduceToNat] at *
    omega
  · rintro rfl
    revert hb
    decide

theorem connect_space : ∀ i < 7, ((ascii "CONNECT ").map tolower)[i]? ≠ some 32 := by
  with_unfolding_all decide

theorem length_connect : (ascii "CONNECT ").length = 8 := by
  with_unfolding_all decide

/-- The method of a `CONNECT` request has seven letters. -/
theorem length_method {method w : Bytes} (hmethod : ∀ b ∈ method, 33 ≤ b)
    (h : strncasecmp (ascii "CONNECT ") (method ++ 32 :: w)) : method.length = 7 := by
  rw [strncasecmp, decide_eq_true_eq, length_connect] at h
  have hget : ∀ i < 8,
      (method ++ 32 :: w)[i]?.map tolower = ((ascii "CONNECT ").map tolower)[i]? := by
    intro i hi
    rw [← h, List.getElem?_map, List.getElem?_take_of_lt hi]
  rcases lt_trichotomy method.length 7 with hlt | heq | hgt
  · have hspace := hget method.length (by omega)
    rw [List.getElem?_append_right le_rfl, Nat.sub_self] at hspace
    exact absurd hspace.symm (connect_space _ hlt)
  · exact heq
  · have hletter := hget 7 (by omega)
    rw [List.getElem?_append_left hgt, List.getElem?_eq_getElem hgt] at hletter
    have hend : ((ascii "CONNECT ").map tolower)[7]? = some 32 := by with_unfolding_all decide
    rw [hend] at hletter
    exact absurd (Option.some.inj hletter) (tolower_ne_space (hmethod _ (List.getElem_mem hgt)))

/-- The request line of a `CONNECT` request, whatever follows. -/
theorem onHttpChallenge_connect (hline : IsRequestLine line)
    (hconnect : strncasecmp (ascii "CONNECT ") line) :
    ∃ host port, (host = [] ↔ (line.drop 8).head? = some 58) ∧
      ∀ (s : ProxyAccessService σ) (c : ClientConnection) r,
        onHttpChallenge s c (line ++ 13 :: 10 :: r) = if host = [] then .ok (s, c, none)
        else .ok (s, { c with
          http := { c.http with targetHost := host, targetPort := port }
          type := .httpRaw
          dataProcessor := .onHttpRawHeaderProcessor }, some (line.length + 2)) := by
  obtain ⟨method, target, version, hparts, -, htarget, hmethod, hspace⟩ := hline.parts
  have hlength := length_method (fun b hb => (hmethod b hb).1) (hparts ▸ hconnect)
  have hdrop : line.drop 8 = target ++ 32 :: (ascii "HTTP/" ++ version) := by
    rw [hparts, List.drop_append, hlength, List.drop_eq_nil_of_le (by omega)]
    rfl
  have hlong : line.length - 8 = target.length + (6 + version.length) := by
    rw [← List.length_drop, hdrop, List.length_append, List.length_cons, List.length_append,
      show (ascii "HTTP/").length = 5 by with_unfolding_all decide]
    omega
  have hslash : (47 : UInt8) ∈ ascii "HTTP/" ++ version :=
    List.mem_append_left _ (by with_unfolding_all decide)
  obtain ⟨port, hport⟩ := readAuthority_space (n := line.length - 8) (by omega) hslash
    (fun h => hspace 32 h rfl) []
  refine ⟨target.takeWhile (· ≠ 58), port, ?_, fun s c r => ?_⟩
  · obtain ⟨b, bs, rfl⟩ := List.exists_cons_of_ne_nil htarget
    rw [hdrop, List.cons_append, List.head?_cons, List.takeWhile_cons]
    by_cases hb : b = 58 <;> simp [hb]
  · have hne : line.length ≠ 0 := by
      rw [hparts, List.length_append, List.length_cons]
      omega
    have hauthority := hport (13 :: 10 :: r)
    rw [← hdrop] at hauthority
    rw [onHttpChallenge, findCrlf_line hline.isLine]
    dsimp only
    rw [if_neg hne, strncasecmp_append (by rw [length_connect]; omega), if_pos hconnect,
      List.drop_append_of_le_length (by omega), hauthority]
    rfl

/-- The start of a URL is found in the request line. -/
theorem skipScheme_append {n : ℕ} (h : n + 8 ≤ line.length) (r : Bytes) :
    skipScheme (line ++ r) n = skipScheme line n := by
  have hlength : 8 ≤ (line.drop n).length := by
    rw [List.length_drop]
    omega
  rw [skipScheme, skipScheme, List.drop_append_of_le_length (by omega),
    strncasecmp_append (le_trans (by with_unfolding_all decide) hlength),
    strncasecmp_append (le_trans (by with_unfolding_all decide) hlength)]

/-- A target that begins like a scheme has more than one byte. -/
theorem two_le_length_of_scheme {p target w : Bytes} (htarget : target ≠ []) (hp : 2 ≤ p.length)
    (hsecond : (p.map tolower)[1]? ≠ some 32) (h : strncasecmp p (target ++ 32 :: w)) :
    2 ≤ target.length := by
  have hpos := List.length_pos_iff.2 htarget
  by_contra hlt
  have hone : target.length = 1 := by omega
  rw [strncasecmp, decide_eq_true_eq] at h
  refine hsecond ?_
  rw [← h, List.getElem?_map, List.getElem?_take_of_lt (by omega), ← hone,
    List.getElem?_append_right le_rfl, Nat.sub_self]
  rfl

/-- Behind the scheme, there is a slash in the request line. -/
theorem exists_skipScheme {method target version : Bytes} (htarget : target ≠ [])
    (hparts : line = method ++ 32 :: (target ++ 32 :: (ascii "HTTP/" ++ version))) :
    ∃ urlStart urlStartIndex, urlStart ≤ urlStartIndex + 1 ∧ urlStart ≤ (line ++ [13, 10]).length ∧
      47 ∈ line.drop urlStartIndex ∧ ∀ r, skipScheme (line ++ [13, 10] ++ r) (method.length + 1) =
        (urlStart, urlStartIndex) := by
  have hpos := List.length_pos_iff.2 htarget
  have hfive : (ascii "HTTP/").length = 5 := by with_unfolding_all decide
  have hlength : line.length = method.length + 1 + (target.length + (6 + version.length)) := by
    rw [hparts]
    simp only [List.length_append, List.length_cons, hfive]
    omega
  have hlong : method.length + 1 + 8 ≤ (line ++ [13, 10]).length := by
    rw [List.length_append, hlength, List.length_cons, List.length_singleton]
    omega
  have hdrop : ∀ x, (line ++ x).drop (method.length + 1) =
      target ++ 32 :: (ascii "HTTP/" ++ version ++ x) := by
    intro x
    rw [hparts, List.append_assoc, List.drop_append, List.drop_eq_nil_of_le (by omega)]
    simp
  have hslash : ∀ i ≤ target.length + 5, 47 ∈ line.drop (method.length + 1 + i) := by
    intro i hi
    have hline := hdrop []
    rw [List.append_nil, List.append_nil] at hline
    rw [← List.drop_drop, hline]
    refine List.mem_of_getElem? (i := target.length + 5 - i) ?_
    rw [List.getElem?_drop, Nat.add_sub_cancel' hi, List.getElem?_append_right (by omega),
      Nat.add_sub_cancel_left, List.getElem?_cons_succ,
      List.getElem?_append_left (by rw [hfive]; omega)]
    with_unfolding_all decide
  have hbounds : ∃ i ≤ target.length + 5, ∃ urlStart,
      urlStart ≤ method.length + 1 + i + 1 ∧ urlStart ≤ method.length + 1 + 8 ∧
        skipScheme (line ++ [13, 10]) (method.length + 1) = (urlStart, method.length + 1 + i) := by
    rw [skipScheme, hdrop]
    split
    · next h =>
      have htwo := two_le_length_of_scheme htarget (by with_unfolding_all decide)
        (by with_unfolding_all decide) h
      exact ⟨7, by omega, _, by omega, by omega, rfl⟩
    · split
      · next h =>
        have htwo := two_le_length_of_scheme htarget (by with_unfolding_all decide)
          (by with_unfolding_all decide) h
        exact ⟨7, by omega, _, by omega, by omega, rfl⟩
      · exact ⟨0, by omega, _, by omega, by omega, rfl⟩
  obtain ⟨i, hi, urlStart, hstart, hend, hskip⟩ := hbounds
  refine ⟨urlStart, _, hstart, by omega, hslash i hi, fun r => ?_⟩
  rw [skipScheme_append hlong, hskip]

/-- The request line of another request is read, whatever follows. -/
theorem onHttpChallenge_normal (hline : IsRequestLine line)
    (hconnect : strncasecmp (ascii "CONNECT ") line = false) (c : ClientConnection) :
    ∃ c' : ClientConnection, c'.dataProcessor = .onHttpNormalHeaderProcessor ∧
      c'.http.tempHeaderLine = c.http.tempHeaderLine ∧
      ∀ (s : ProxyAccessService σ) r, onHttpChallenge s c (line ++ 13 :: 10 :: r) =
        .ok (s, c', some (line.length + 2)) := by
  obtain ⟨method, target, version, hparts, hne, htarget, hmethod, hspace⟩ := hline.parts
  obtain ⟨urlStart, urlStartIndex, hstart, hend, hslash, hskip⟩ := exists_skipScheme htarget hparts
  obtain ⟨j, hj⟩ := Option.ne_none_iff_exists'.1 fun h => find_eq_none.1 h hslash
  have hlength : 9 ≤ line.length := by
    have hm := List.length_pos_iff.2 hne
    have ht := List.length_pos_iff.2 htarget
    rw [hparts]
    simp only [List.length_append, List.length_cons,
      show (ascii "HTTP/").length = 5 by with_unfolding_all decide]
    omega
  have hmethodEnd : find 32 line = some method.length := by
    rw [hparts]
    exact find_append_cons (fun h => absurd (hmethod 32 h).1 (by decide)) _
  have htargetEnd : find 32 (line.drop (method.length + 1)) = some target.length := by
    rw [hparts, List.drop_append, List.drop_eq_nil_of_le (by omega), List.nil_append,
      Nat.add_sub_cancel_left]
    exact find_append_cons (fun h => hspace 32 h rfl) _
  -- The slash at which the path begins ends the host and the port.
  have hpath : urlStartIndex + j + 1 - urlStart = 0 ∨
      ((line ++ [13, 10]).drop urlStart)[urlStartIndex + j + 1 - urlStart - 1]? = some 47 := by
    refine or_iff_not_imp_left.2 fun h0 => ?_
    obtain ⟨hlt, hget⟩ := find_eq_some hj
    rw [List.length_drop] at hlt
    rw [List.getElem?_drop] at hget ⊢
    rw [show urlStart + (urlStartIndex + j + 1 - urlStart - 1) = urlStartIndex + j by omega,
      List.getElem?_append_left (by omega), hget]
  obtain ⟨authority, hauthority⟩ := readAuthority_slash hpath []
  refine ⟨{ c with
    http := { c.http with
      targetHost := (authority.map Prod.fst).getD []
      targetPort := (authority.map Prod.snd).getD 0
      content := c.http.content ++ line.take (method.length + 1) ++
        (line ++ [13, 10]).drop (urlStartIndex + j) }
    type := .httpNormal
    dataProcessor := .onHttpNormalHeaderProcessor }, rfl, rfl, fun s r => ?_⟩
  have happend : line ++ 13 :: 10 :: r = line ++ [13, 10] ++ r := by simp
  have htake : (line ++ [13, 10] ++ r).take line.length = line := by simp
  have htake' : (line ++ [13, 10] ++ r).take (line.length + 2) = line ++ [13, 10] :=
    List.take_left' (by simp)
  rw [onHttpChallenge, findCrlf_line hline.isLine]
  dsimp only
  rw [if_neg (by omega), strncasecmp_append (by rw [length_connect]; omega), hconnect,
    if_neg Bool.false_ne_true, happend, onHttpNormalChallenge]
  dsimp only
  rw [htake, hmethodEnd]
  dsimp only
  rw [htargetEnd]
  dsimp only
  rw [hskip]
  dsimp only
  rw [hj]
  dsimp only
  rw [List.drop_append_of_le_length hend, hauthority, htake']

/-! ## Cuts of the request line -/

/-- The first data of a request is no SOCKS5 greeting and no TLS one. -/
theorem IsFresh.processData (hc : IsFresh c) (hline : IsRequestLine line) {y : Bytes}
    (hy : 3 ≤ y.length) (hhead : y.head? = line.head?) :
    processData S P s c y = onHttpChallenge s c y := by
  obtain ⟨method, target, version, hparts, hne, -, hmethod, -⟩ := hline.parts
  obtain ⟨b, method, rfl⟩ := List.exists_cons_of_ne_nil hne
  rw [hparts] at hhead
  obtain ⟨y, rfl⟩ := List.head?_eq_some_iff.1 hhead
  have hb := (hmethod b List.mem_cons_self).1
  rw [ProxyAccessService.processData, hc.dataProcessor]
  dsimp only
  rw [onGuessProxyType, if_neg (not_lt.2 hy), List.getD_cons_zero, if_neg, if_neg]
  · rintro rfl
    revert hb
    decide
  · rintro rfl
    revert hb
    decide

theorem IsFresh.processData_wait (hc : IsFresh c) (hline : IsRequestLine line) {y : Bytes}
    (hy : 3 ≤ y.length) (hbegins : y <+: line ++ [13]) :
    ProxyAccessService.processData S P s c y = .ok (s, c, some 0) := by
  have hhead : y.head? = line.head? := by
    obtain ⟨method, target, version, hparts, hne, -⟩ := hline.parts
    obtain ⟨b, method, rfl⟩ := List.exists_cons_of_ne_nil hne
    obtain ⟨x, hx⟩ := hbegins
    cases y with
    | nil => simp at hy
    | cons d y =>
      rw [hparts] at hx ⊢
      exact congrArg some (List.cons.inj hx).1
  rw [hc.processData hline hy hhead, onHttpChallenge,
    findCrlf_of_begins hbegins (findCrlf_append_cr hline.isLine)]

theorem IsFresh.processData_line (hc : IsFresh c) (hline : IsRequestLine line) :
    ProxyAccessService.processData S P s c (line ++ 13 :: 10 :: r) =
      onHttpChallenge s c (line ++ 13 :: 10 :: r) := by
  have hpos := List.length_pos_iff.2 hline.ne_nil
  refine hc.processData hline ?_ ?_
  · rw [List.length_append, List.length_cons, List.length_cons]
    omega
  · obtain ⟨b, line, rfl⟩ := List.exists_cons_of_ne_nil hline.ne_nil
    rfl

/-- Until the request line is complete, the data is kept. -/
theorem IsFresh.exec_wait (hc : IsFresh c) (hline : IsRequestLine line) {b : Bytes}
    {segments : List Bytes} (hb : b <+: line ++ [13])
    (hflatten : b ++ segments.flatten = line ++ 13 :: 10 :: rest)
    (hfirst : ∀ x, segments.head? = some x → 3 ≤ (b ++ x).length) :
    ∃ b' x r segments', b' ++ x = line ++ 13 :: 10 :: r ∧ r ++ segments'.flatten = rest ∧
      segments' ⊆ segments ∧
      exec (feed S P) { service := s, connection := c, buffer := b } segments =
        exec (feed S P) { service := s, connection := c, buffer := b' } (x :: segments') := by
  induction segments generalizing b with
  | nil =>
    exfalso
    have hlength := hb.length_le
    rw [List.flatten_nil, List.append_nil] at hflatten
    rw [hflatten] at hlength
    simp at hlength
  | cons x segments ih =>
    have h3 := hfirst x rfl
    rw [List.flatten_cons, ← List.append_assoc] at hflatten
    by_cases hx : b ++ x <+: line ++ [13]
    · have hfeed : feed S P { service := s, connection := c, buffer := b } x =
          .ok { service := s, connection := c, buffer := b ++ x } := by
        exact feed_of_processed (h := { service := s, connection := c, buffer := b }) rfl
          (hc.processData_wait hline h3 hx) (.inl rfl)
      obtain ⟨b', x', r, segments', hline', hrest, hsub, hexec⟩ := ih hx hflatten fun y _ => by
        rw [List.length_append]
        omega
      exact ⟨b', x', r, segments', hline', hrest, List.subset_cons_of_subset _ hsub,
        (exec_cons_of_ok _ hfeed).trans hexec⟩
    · have hline' : line ++ [13, 10] <+: b ++ x := by
        rcases List.prefix_or_prefix_of_prefix (⟨rest, by simp⟩ : line ++ [13, 10] <+: _)
          ⟨segments.flatten, hflatten⟩ with h | h
        · exact h
        · rw [show line ++ [13, 10] = line ++ [13] ++ [10] by simp, List.prefix_concat_iff] at h
          rcases h with h | h
          · exact ⟨[], by simp [h]⟩
          · exact absurd h hx
      obtain ⟨r, hr⟩ := hline'
      rw [← hr, List.append_assoc, List.append_assoc] at hflatten
      exact ⟨b, x, r, segments, by simp [← hr], by simpa using hflatten, List.subset_cons_self _ _,
        rfl⟩

/-- The segment that completes the request line: its rest is presented to the next processor. -/
theorem exec_line {c' : ClientConnection} {b : Bytes} (segments : List Bytes)
    (hx : b ++ x = line ++ 13 :: 10 :: r)
    (hdata : processData S P s c (line ++ 13 :: 10 :: r) = .ok (s, c', some (line.length + 2))) :
    exec (feed S P) { service := s, connection := c, buffer := b } (x :: segments) =
      exec (feed S P) { service := s, connection := c' }
        (if r = [] then segments else r :: segments) := by
  have hdrop : (b ++ x).drop (line.length + 2) = r := by
    rw [hx, List.drop_append]
    simp
  rw [← hx] at hdata
  by_cases hr : r = []
  · have hfeed := feed_of_processed (h := { service := s, connection := c, buffer := b }) rfl hdata
      (.inr (hdrop.trans hr))
    rw [exec_cons_of_ok _ hfeed, if_pos hr]
    dsimp only
    rw [hdrop, hr]
  · have hfeed := feed_of_rest (h := { service := s, connection := c, buffer := b }) rfl hdata
      (Nat.succ_ne_zero _) (by rwa [hdrop])
    rw [if_neg hr, exec, exec, hfeed]
    dsimp only
    rw [hdrop]

/-- A cut of a request is a cut of its header. -/
theorem IsFresh.outcomeOf_cut (hc : IsFresh c) (hline : IsRequestLine line) {c' : ClientConnection}
    (hdata : ∀ r, onHttpChallenge s c (line ++ 13 :: 10 :: r) = .ok (s, c', some (line.length + 2)))
    {segments : List Bytes} (hcut : IsCut (line ++ 13 :: 10 :: rest) segments) :
    ∃ segments', segments'.flatten = rest ∧ (∀ x ∈ segments', x ≠ []) ∧ outcomeOf S P s c segments =
      (exec (feed S P) { service := s, connection := c' } segments').map outcome := by
  obtain ⟨b, x, r, segments', hx, hrest, hsub, hexec⟩ := hc.exec_wait (S := S) (P := P) (s := s)
    hline List.nil_prefix hcut.flatten hcut.first
  have hnonempty : ∀ y ∈ segments', y ≠ [] := fun y hy => hcut.nonempty y (hsub hy)
  refine ⟨if r = [] then segments' else r :: segments', ?_, ?_, ?_⟩
  · split
    · next hr => rw [← hrest, hr, List.nil_append]
    · exact hrest
  · split
    · exact hnonempty
    · next hr => exact List.forall_mem_cons.2 ⟨hr, hnonempty⟩
  · rw [outcomeOf, hexec, exec_line segments' hx ((hc.processData_line hline).trans (hdata r))]

/-- A request without a host is invalid in every cut. -/
theorem IsFresh.outcomeOf_noHost (hc : IsFresh c) (hline : IsRequestLine line)
    (hdata : ∀ r, onHttpChallenge s c (line ++ 13 :: 10 :: r) = .ok (s, c, none))
    {segments : List Bytes} (hcut : IsCut (line ++ 13 :: 10 :: rest) segments) :
    outcomeOf S P s c segments =
      .ok { outcome { service := s, connection := c } with invalid := true } := by
  obtain ⟨b, x, r, segments', hx, -, -, hexec⟩ := hc.exec_wait (S := S) (P := P) (s := s) hline
    List.nil_prefix hcut.flatten hcut.first
  have hinvalid := feed_of_invalid (S := S) (P := P) (x := x)
    (h := { service := s, connection := c, buffer := b }) rfl
    (by rw [hx]; exact (hc.processData_line hline).trans (hdata r))
  rw [outcomeOf, hexec, exec_cons_of_ok _ hinvalid, exec_feed_of_invalid rfl]
  simp [Except.map, outcome, hc.dataProcessor]

/-! ## The header of a CONNECT request -/

/-- A header that ends has lines, and then an empty one. -/
theorem exists_ends (h : scanHeader P (splitLines rest).1 = .ok .ends) :
    ∃ pre tail, rest = pre ++ 13 :: 10 :: tail ∧ (splitLines pre).2 = [] ∧
      scanHeader P (splitLines pre).1 = .ok .more ∧
      ∀ k, lastKey P k (splitLines pre).1 = lastKey P k (splitLines rest).1 := by
  induction rest using lines_induction with
  | rest s hs =>
    rw [splitLines_rest hs] at h
    cases h
  | line l r hl ih =>
    rw [splitLines_line hl, scanHeader] at h
    rw [splitLines_line hl]
    split at h
    · next hnil =>
      subst hnil
      exact ⟨[], r, rfl, rfl, rfl, fun k => by rw [lastKey, if_pos rfl]; rfl⟩
    · next hnil =>
      have hmore : (∀ ls, scanHeader P (l :: ls) = scanHeader P ls) →
          scanHeader P (splitLines r).1 = .ok .ends → ∃ pre tail,
            l ++ 13 :: 10 :: r = pre ++ 13 :: 10 :: tail ∧ (splitLines pre).2 = [] ∧
            scanHeader P (splitLines pre).1 = .ok .more ∧
            ∀ k, lastKey P k (splitLines pre).1 = lastKey P k (l :: (splitLines r).1) := by
        intro hskip hends
        obtain ⟨pre, tail, hr, hsnd, hscan, hkey⟩ := ih hends
        refine ⟨l ++ 13 :: 10 :: pre, tail, by simp [hr], ?_, ?_, fun k => ?_⟩
        · rwa [splitLines_line hl]
        · rw [splitLines_line hl, hskip, hscan]
        · rw [splitLines_line hl, lastKey, lastKey, if_neg hnil, if_neg hnil]
          split <;> exact hkey _
      rcases hc : readCredential P l with x | (_ | _ | _ | k) <;> rw [hc] at h
      · cases h
      · exact hmore (fun ls => by rw [scanHeader, if_neg hnil, hc]) h
      · cases h
      · cases h
      · exact hmore (fun ls => by rw [scanHeader, if_neg hnil, hc]) h

/-- A header that is refused has a credential without an account for its last line, up to there. -/
theorem exists_notFound (h : scanHeader P (splitLines rest).1 = .ok .notFound) :
    ∃ pre tail, rest = pre ++ tail ∧ scanHeader P (splitLines pre).1 = .ok .notFound ∧
      DecidedLast P pre := by
  induction rest using lines_induction with
  | rest s hs =>
    rw [splitLines_rest hs] at h
    cases h
  | line l r hl ih =>
    rw [splitLines_line hl, scanHeader] at h
    split at h
    · cases h
    · next hnil =>
      have hmore : (∀ ls, scanHeader P (l :: ls) = scanHeader P ls) →
          scanHeader P (splitLines r).1 = .ok .notFound → ∃ pre tail,
            l ++ 13 :: 10 :: r = pre ++ tail ∧ scanHeader P (splitLines pre).1 = .ok .notFound ∧
            DecidedLast P pre := by
        intro hskip hrefused
        obtain ⟨pre, tail, hr, hscan, hdrop, hrest⟩ := ih hrefused
        have hne : (splitLines pre).1 ≠ [] := by
          intro hempty
          rw [hempty] at hscan
          cases hscan
        refine ⟨l ++ 13 :: 10 :: pre, tail, by simp [hr], ?_, ?_, ?_⟩
        · rw [splitLines_line hl, hskip, hscan]
        · rw [splitLines_line hl, List.dropLast_cons_of_ne_nil hne, hskip, hdrop]
        · rwa [splitLines_line hl]
      rcases hc : readCredential P l with x | (_ | _ | _ | k) <;> rw [hc] at h
      · cases h
      · exact hmore (fun ls => by rw [scanHeader, if_neg hnil, hc]) h
      · cases h
      · have hline : splitLines (l ++ [13, 10]) = ([l], []) := splitLines_line hl []
        refine ⟨l ++ [13, 10], r, by simp, ?_, ?_, ?_⟩ <;> rw [hline]
        · rw [scanHeader, if_neg hnil, hc]
        · rfl
      · exact hmore (fun ls => by rw [scanHeader, if_neg hnil, hc]) h

theorem http500_ne_http407 : http500 ≠ http407 := by
  with_unfolding_all decide

/-- What a data processor calls stays called. -/
theorem present_calls {h t : Handshake σ} {n : ℕ} (ht : present S P n h = .ok t) :
    ∃ l, t.service.calls = h.service.calls ++ l := by
  induction n generalizing h with
  | zero => cases ht
  | succ n ih =>
    rw [present] at ht
    rcases hdata : ProxyAccessService.processData S P h.service h.connection h.buffer with
      f | ⟨s, c, _ | k⟩ <;> rw [hdata] at ht <;> dsimp only at ht
    · cases ht
    · cases ht
      obtain ⟨l, hl, -⟩ := processData_ownLookups hdata
      exact ⟨l, hl⟩
    · obtain ⟨l, hl, -⟩ := processData_ownLookups hdata
      split at ht
      · cases ht
        exact ⟨l, hl⟩
      · obtain ⟨l', hl'⟩ := ih ht
        refine ⟨l ++ l', ?_⟩
        dsimp only at hl'
        rw [hl', hl, List.append_assoc]

/-- A data processor that calls the outside. -/
theorem feed_of_call {h t : Handshake σ} {s : ProxyAccessService σ} {c : ClientConnection} {k : ℕ}
    {call : ProxyCall} (hinvalid : h.invalid = false)
    (hdata : processData S P h.service h.connection (h.buffer ++ x) = .ok (s, c, some k))
    (hcalls : s.calls = h.service.calls ++ [call]) (ht : feed S P h x = .ok t) :
    ∃ l, t.service.calls = h.service.calls ++ call :: l := by
  by_cases hend : k = 0 ∨ (h.buffer ++ x).drop k = []
  · rw [feed_of_processed hinvalid hdata hend] at ht
    cases ht
    exact ⟨[], hcalls⟩
  · rw [not_or] at hend
    rw [feed_of_rest hinvalid hdata hend.1 hend.2, feed, if_neg (by simp [hinvalid])] at ht
    obtain ⟨l, hl⟩ := present_calls ht
    refine ⟨l, ?_⟩
    dsimp only at hl
    rw [hl, hcalls, List.append_assoc, List.singleton_append]

/-- A header with a key is followed by the request for authentication, or by another refusal. -/
theorem AtRaw.feed_authenticate {h t : Handshake σ} (hraw : AtRaw h)
    (hscan : scanHeader P (splitLines (h.buffer ++ x)).1 = .ok .ends)
    (hkey : lastKey P [] (splitLines (h.buffer ++ x)).1 ≠ []) (ht : feed S P h x = .ok t) :
    ∃ call l, t.service.calls = h.service.calls ++ call :: l ∧
      call ≠ .post h.connection.connectionId .reply http407 := by
  obtain ⟨j, hloop⟩ :=
    rawHeaderLoop_eq (P := P) (k := []) 0 (Nat.lt_succ_self (h.buffer ++ x).length)
  rw [hscan] at hloop
  dsimp only at hloop
  rw [if_neg hkey] at hloop
  have hdata := hraw.processData (S := S) (P := P) (h.buffer ++ x)
  rw [onHttpRawHeaderProcessor, hloop] at hdata
  dsimp only at hdata
  rcases hrequest : requestAuthentication S h.service
    { h.connection with dataProcessor := .killConnectionOnData }
    (lastKey P [] (splitLines (h.buffer ++ x)).1) with f | ⟨s, f⟩
  · rw [hrequest] at hdata
    rw [feed_of_error hraw.invalid hdata] at ht
    cases ht
  · rw [hrequest] at hdata
    rcases requestAuthentication_eq_ok hrequest with ⟨rfl, rfl⟩ | ⟨f, m, t', r, rfl, -, -, rfl⟩
    · obtain ⟨l, hl⟩ := feed_of_call hraw.invalid hdata rfl ht
      refine ⟨_, l, hl, fun heq => http500_ne_http407 ?_⟩
      injection heq
    · obtain ⟨l, hl⟩ := feed_of_call hraw.invalid hdata rfl ht
      exact ⟨_, l, hl, ProxyCall.noConfusion⟩

/-- A key found in one call is not there in the next. -/
theorem AtRaw.not_independent {h : Handshake σ} (hraw : AtRaw h) (hbuffer : h.buffer = [])
    {pre tail : Bytes} (hpre : (splitLines pre).2 = [])
    (hmore : scanHeader P (splitLines pre).1 = .ok .more)
    (hkey : lastKey P [] (splitLines pre).1 ≠ []) :
    (exec (feed S P) h [pre ++ 13 :: 10 :: tail]).map outcome ≠
      (exec (feed S P) h [pre, 13 :: 10 :: tail]).map outcome := by
  have htail : splitLines (13 :: 10 :: tail) = ([] :: (splitLines tail).1, (splitLines tail).2) :=
    splitLines_line (l := []) rfl tail
  -- In two segments, the header ends without a key.
  have hfirst := hraw.feed_more (S := S) (P := P) (x := pre) (by rwa [hbuffer])
  rw [hbuffer, List.nil_append, hpre] at hfirst
  have hraw' : AtRaw { h with buffer := [] } := ⟨hraw.dataProcessor, hraw.invalid⟩
  have hsecond := hraw'.feed_unauthorized (S := S) (P := P) (x := 13 :: 10 :: tail)
    (by rw [List.nil_append, htail]; rfl) (by rw [List.nil_append, htail]; rfl)
  rw [exec_cons_of_ok _ hfirst, exec_cons_of_ok _ hsecond, exec_nil]
  -- In one, it does not.
  have hlines : (splitLines (h.buffer ++ (pre ++ 13 :: 10 :: tail))).1 =
      (splitLines pre).1 ++ [] :: (splitLines tail).1 := by
    rw [hbuffer, List.nil_append, splitLines_append, hpre, List.nil_append, htail]
  have hends : scanHeader P (splitLines (h.buffer ++ (pre ++ 13 :: 10 :: tail))).1 = .ok .ends := by
    rw [hlines, scanHeader_append hmore]
    rfl
  have hkey' : lastKey P [] (splitLines (h.buffer ++ (pre ++ 13 :: 10 :: tail))).1 ≠ [] := by
    rw [hlines, lastKey_append hmore, lastKey, if_pos rfl]
    exact hkey
  rcases hfeed : feed S P h (pre ++ 13 :: 10 :: tail) with f | t
  · rw [exec_cons_of_error _ hfeed]
    intro heq
    cases heq
  · obtain ⟨call, l, hcalls, hne⟩ := hraw.feed_authenticate hends hkey' hfeed
    rw [exec_cons_of_ok _ hfeed, exec_nil]
    intro heq
    have heq := congrArg Outcome.calls (Except.ok.inj heq)
    change t.service.calls = h.service.calls ++ [_] at heq
    rw [hcalls] at heq
    exact hne (List.cons.inj (List.append_cancel_left heq)).1

/-- A refusal for which nothing is consumed is repeated with the next segment. -/
theorem AtRaw.not_independent_refused {h : Handshake σ} (hraw : AtRaw h) (hbuffer : h.buffer = [])
    {pre tail : Bytes} (hrefused : scanHeader P (splitLines pre).1 = .ok .notFound) :
    (exec (feed S P) h [pre ++ tail]).map outcome ≠ (exec (feed S P) h [pre, tail]).map outcome := by
  have hwhole : scanHeader P (splitLines (pre ++ tail)).1 = .ok .notFound := by
    rw [splitLines_append, scanHeader_append_of_ne (by simp [hrefused]), hrefused]
  have hone := hraw.feed_notFound (S := S) (P := P) (x := pre ++ tail) (by rwa [hbuffer])
  have hfirst := hraw.feed_notFound (S := S) (P := P) (x := pre) (by rwa [hbuffer])
  have hraw' : AtRaw { h with
      service := (post P h.service h.connection .reply http404).1
      connection := (post P h.service h.connection .reply http404).2
      buffer := h.buffer ++ pre } := ⟨hraw.dataProcessor, hraw.invalid⟩
  have hsecond := hraw'.feed_notFound (S := S) (P := P) (x := tail) (by
    dsimp only
    rwa [hbuffer, List.nil_append])
  rw [exec_cons_of_ok _ hone, exec_nil, exec_cons_of_ok _ hfirst, exec_cons_of_ok _ hsecond, exec_nil]
  intro heq
  have heq := congrArg (fun o => o.calls.length) (Except.ok.inj heq)
  simp [outcome, post, call] at heq

/-- The two cuts of a request behind some bytes of its header. -/
theorem isCut_pair (hline : IsRequestLine line) (pre : Bytes) {tail : Bytes} (htail : tail ≠ []) :
    IsCut (line ++ 13 :: 10 :: (pre ++ tail)) [line ++ 13 :: 10 :: pre, tail] where
  flatten := by simp
  nonempty x hx := by
    rcases List.mem_pair.1 hx with rfl | rfl
    · simp
    · exact htail
  first x hx := by
    cases hx
    have := List.length_pos_iff.2 hline.ne_nil
    rw [List.length_append, List.length_cons, List.length_cons]
    omega

theorem isCut_singleton (hline : IsRequestLine line) (rest : Bytes) :
    IsCut (line ++ 13 :: 10 :: rest) [line ++ 13 :: 10 :: rest] where
  flatten := by simp
  nonempty x hx := by
    rw [List.mem_singleton.1 hx]
    simp
  first x hx := by
    cases hx
    have := List.length_pos_iff.2 hline.ne_nil
    rw [List.length_append, List.length_cons, List.length_cons]
    omega

/-- What a cut behind some bytes of the header comes to. -/
theorem IsFresh.outcomeOf_line (hc : IsFresh c) (hline : IsRequestLine line) {c' : ClientConnection}
    (hdata : ∀ r, onHttpChallenge s c (line ++ 13 :: 10 :: r) = .ok (s, c', some (line.length + 2)))
    (segments : List Bytes) :
    outcomeOf S P s c ((line ++ 13 :: 10 :: r) :: segments) =
      (exec (feed S P) { service := s, connection := c' }
        (if r = [] then segments else r :: segments)).map outcome := by
  rw [outcomeOf, exec_line segments (List.nil_append _)
    ((hc.processData_line hline).trans (hdata r))]

/-- The cuts of a `CONNECT` request. -/
theorem IsFresh.connect_iff (hc : IsFresh c) (hline : IsRequestLine line)
    (hconnect : strncasecmp (ascii "CONNECT ") line) :
    SegmentationIndependent S P s c (line ++ 13 :: 10 :: rest) ↔
      (line.drop 8).head? = some 58 ∨ AnsweredOnce P rest := by
  obtain ⟨host, port, hhost, hchallenge⟩ := onHttpChallenge_connect (σ := σ) hline hconnect
  by_cases hnil : host = []
  · refine iff_of_true (fun segments segments' hcut hcut' => ?_) (.inl (hhost.1 hnil))
    have hinvalid : ∀ r, onHttpChallenge s c (line ++ 13 :: 10 :: r) = .ok (s, c, none) :=
      fun r => (hchallenge s c r).trans (if_pos hnil)
    rw [hc.outcomeOf_noHost hline hinvalid hcut, hc.outcomeOf_noHost hline hinvalid hcut']
  · rw [or_iff_right fun h => hnil (hhost.2 h)]
    obtain ⟨c', hraw, hdata⟩ : ∃ c' : ClientConnection,
        c'.dataProcessor = .onHttpRawHeaderProcessor ∧ ∀ r,
          onHttpChallenge s c (line ++ 13 :: 10 :: r) = .ok (s, c', some (line.length + 2)) :=
      ⟨_, rfl, fun r => (hchallenge s c r).trans (if_neg hnil)⟩
    have hat : AtRaw ({ service := s, connection := c' } : Handshake σ) := ⟨hraw, rfl⟩
    constructor
    · refine fun hsame => ⟨fun hends => ?_, fun hrefused => ?_⟩
      · by_contra hkey
        obtain ⟨pre, tail, rfl, hpre, hmore, hlast⟩ := exists_ends hends
        rw [← hlast] at hkey
        have hne : pre ≠ [] := by
          rintro rfl
          exact hkey rfl
        have hcut := isCut_pair hline pre (List.cons_ne_nil 13 (10 :: tail))
        have hsame := hsame _ _ (isCut_singleton hline _) hcut
        rw [hc.outcomeOf_line hline hdata, hc.outcomeOf_line hline hdata, if_neg (by simp),
          if_neg hne] at hsame
        exact hat.not_independent rfl hpre hmore hkey hsame
      · obtain ⟨pre, tail, rfl, hscan, hlast⟩ := exists_notFound hrefused
        rcases eq_or_ne tail [] with rfl | htail
        · rwa [List.append_nil]
        have hne : pre ≠ [] := by
          rintro rfl
          cases hscan
        have hsame := hsame _ _ (isCut_singleton hline _) (isCut_pair hline pre htail)
        rw [hc.outcomeOf_line hline hdata, hc.outcomeOf_line hline hdata,
          if_neg (by simp [hne]), if_neg hne] at hsame
        exact absurd hsame (hat.not_independent_refused rfl hscan)
    · intro honce segments segments' hcut hcut'
      obtain ⟨t, ht, hne, htoutcome⟩ := hc.outcomeOf_cut (S := S) (P := P) hline hdata hcut
      obtain ⟨t', ht', hne', htoutcome'⟩ := hc.outcomeOf_cut (S := S) (P := P) hline hdata hcut'
      rw [htoutcome, htoutcome', hat.map_exec rfl hne (by rwa [List.nil_append, ht]),
        hat.map_exec rfl hne' (by rwa [List.nil_append, ht']), ht, ht']

/-! ## The header of another request -/

/-- The request line of a request other than `CONNECT` is read. -/
structure AtNormal (h : Handshake σ) : Prop where
  dataProcessor : h.connection.dataProcessor = .onHttpNormalHeaderProcessor
  invalid : h.invalid = false
  buffer : h.buffer = []

theorem AtNormal.processData {h : Handshake σ} (hnormal : AtNormal h) (data : Bytes) :
    processData S P h.service h.connection data =
      onHttpNormalHeaderProcessor S P h.service h.connection data := by
  rw [ProxyAccessService.processData, hnormal.dataProcessor]

/-- A segment that is used up. -/
theorem AtNormal.feed_wait {h : Handshake σ} (hnormal : AtNormal h) {http : HttpData}
    (hloop : normalHeaderLoop P (x.length + 1) x h.connection.http [] 0 = .ok (.wait http)) :
    feed S P h x = .ok { h with connection := { h.connection with http := http } } := by
  have hdata : ProxyAccessService.processData S P h.service h.connection (h.buffer ++ x) =
      .ok (h.service, { h.connection with http := http }, some x.length) := by
    rw [hnormal.buffer, List.nil_append, hnormal.processData, onHttpNormalHeaderProcessor, hloop]
  have hdrop : (h.buffer ++ x).drop x.length = [] := by
    rw [hnormal.buffer, List.nil_append, List.drop_length]
  rw [feed_of_processed hnormal.invalid hdata (.inr hdrop), hdrop, ← hnormal.buffer]

theorem IsProxyConnection.of_begins {l l' : Bytes} (h : IsProxyConnection l) (hl : l <+: l') :
    IsProxyConnection l' := by
  obtain ⟨r, rfl⟩ := hl
  refine ⟨by rw [List.length_append]; have := h.1; omega, ?_⟩
  rw [strncasecmp_append (le_trans (by with_unfolding_all decide) (Nat.le_of_lt h.1))]
  exact h.2

theorem IsProxyConnection.processHeaderLine {http : HttpData} {k : Bytes} {i : ℕ}
    (h : IsProxyConnection http.tempHeaderLine) :
    processHeaderLine P http k i = .ok (.next http k) := by
  rw [ProxyAccessService.processHeaderLine]
  exact if_pos h

/-- Lines that are dropped leave nothing, whatever the cut: a line that is not found begins with one
    of them. -/
theorem normalHeaderLoop_proxyConnection {http : HttpData} {n m : ℕ} {k data w : Bytes}
    (hn : data.length < n)
    (h : ∀ l ∈ (splitLines (http.tempHeaderLine ++ (data ++ w))).1, IsProxyConnection l) :
    ∃ temp, normalHeaderLoop P n data http k m = .ok (.wait { http with tempHeaderLine := temp }) ∧
      ∀ l ∈ (splitLines (temp ++ w)).1, IsProxyConnection l := by
  induction data using lines_induction generalizing http n m with
  | rest s hs =>
    obtain ⟨n, rfl⟩ : ∃ i, n = i + 1 := ⟨n - 1, by omega⟩
    rw [← List.append_assoc] at h
    exact ⟨_, normalHeaderLoop_rest hs, h⟩
  | line l r hl ih =>
    obtain ⟨n, rfl⟩ : ∃ i, n = i + 1 := ⟨n - 1, by omega⟩
    obtain ⟨l', ls, hsplit, hbegins⟩ := exists_splitLines_crlf (http.tempHeaderLine ++ l)
    rw [show http.tempHeaderLine ++ (l ++ 13 :: 10 :: r ++ w) =
      (http.tempHeaderLine ++ l ++ [13, 10]) ++ (r ++ w) by simp, splitLines_append, hsplit] at h
    dsimp only at h
    rw [List.nil_append] at h
    have hline : IsProxyConnection (http.tempHeaderLine ++ l) :=
      (h l' List.mem_cons_self).of_begins hbegins
    have hne : ¬(l = [] ∧ http.tempHeaderLine = []) := by
      rintro ⟨rfl, htemp⟩
      rw [htemp] at hline
      exact absurd hline.1 (by decide)
    have hlength : r.length < n := by
      rw [List.length_append, List.length_cons, List.length_cons] at hn
      omega
    have hrest : ∀ x ∈ (splitLines
        (({ http with tempHeaderLine := [] } : HttpData).tempHeaderLine ++ (r ++ w))).1,
        IsProxyConnection x := fun x hx => h x (List.mem_append_right _ hx)
    obtain ⟨temp, hloop, htemp⟩ := ih (m := m + (l.length + 2)) hlength hrest
    refine ⟨temp, ?_, htemp⟩
    rw [normalHeaderLoop_line hl hne, IsProxyConnection.processHeaderLine hline]
    exact hloop

/-- A header with nothing but such lines comes to the same in every cut. -/
theorem AtNormal.map_exec {h : Handshake σ} (hnormal : AtNormal h) {segments : List Bytes}
    (hlines : ∀ l ∈ (splitLines (h.connection.http.tempHeaderLine ++ segments.flatten)).1,
      IsProxyConnection l) :
    (exec (feed S P) h segments).map outcome = .ok h.outcome := by
  induction segments generalizing h with
  | nil => rfl
  | cons x segments ih =>
    obtain ⟨temp, hloop, htemp⟩ := normalHeaderLoop_proxyConnection (P := P) (k := []) (m := 0)
      (Nat.lt_succ_self x.length) hlines
    rw [exec_cons_of_ok _ (hnormal.feed_wait hloop)]
    exact ih ⟨hnormal.dataProcessor, hnormal.invalid, hnormal.buffer⟩ htemp

/-- Byte by byte, no line end is ever found. -/
theorem AtNormal.map_exec_bytes {h : Handshake σ} (hnormal : AtNormal h) (data : Bytes) :
    (exec (feed S P) h (data.map fun b => [b])).map outcome = .ok h.outcome := by
  induction data generalizing h with
  | nil => rfl
  | cons b data ih =>
    have hloop : normalHeaderLoop P 2 [b] h.connection.http [] 0 = _ :=
      normalHeaderLoop_rest (by simp [findCrlf])
    rw [List.map_cons, exec_cons_of_ok _ (hnormal.feed_wait hloop)]
    exact ih ⟨hnormal.dataProcessor, hnormal.invalid, hnormal.buffer⟩

/-- A line of another header keeps the content, or adds to it. -/
theorem processHeaderLine_content {http http' : HttpData} {k k' : Bytes} {i : ℕ}
    (h : processHeaderLine P http k i = .ok (.next http' k')) :
    http.content.length ≤ http'.content.length ∧
      (¬IsProxyConnection http.tempHeaderLine → ¬IsCredential http.tempHeaderLine →
        http.content.length < http'.content.length) := by
  rw [processHeaderLine] at h
  dsimp only at h
  split at h
  · next hproxy =>
    cases h
    exact ⟨le_rfl, fun hnot => absurd hproxy hnot⟩
  · split at h
    · cases h
      have : (ascii "Connection: close\r\n").length = 19 := by with_unfolding_all decide
      dsimp only
      rw [List.length_append, this]
      exact ⟨by omega, fun _ _ => by omega⟩
    · split at h
      · next hcred =>
        have hkept : http' = http := by
          split at h
          · cases h
          · split at h
            · cases h
            · split at h <;> cases h
              rfl
        rw [hkept]
        exact ⟨le_rfl, fun _ hnot => absurd hcred hnot⟩
      · split at h
        · split at h
          · cases h
          · cases h
            simp only [List.length_append, List.length_cons, List.length_nil]
            exact ⟨by omega, fun _ _ => by omega⟩
        · cases h
          simp only [List.length_append, List.length_cons, List.length_nil]
          exact ⟨by omega, fun _ _ => by omega⟩

/-- What is kept of a header that goes on only grows. -/
theorem normalHeaderLoop_content {http http' : HttpData} {n m : ℕ} {k data : Bytes}
    (h : normalHeaderLoop P n data http k m = .ok (.wait http')) :
    http.content.length ≤ http'.content.length := by
  induction n generalizing data http k m with
  | zero => cases h
  | succ n ih =>
    rw [normalHeaderLoop] at h
    split at h
    · cases h
      exact le_rfl
    · split at h
      · cases h
      · dsimp only at h
        split at h
        · cases h
        · cases h
        · next http₁ k₁ hline =>
          have hrest := ih h
          exact (processHeaderLine_content hline).1.trans hrest

/-- A header with a line that is not dropped: either the first one is a credential, or something is
    kept of it in a single call, unless the header ends. -/
theorem exists_credential_or_grows {data : Bytes}
    (h : ¬∀ l ∈ (splitLines data).1, IsProxyConnection l) :
    (∃ pre l tail, data = pre ++ l ++ 13 :: 10 :: tail ∧ (splitLines pre).2 = [] ∧
      (∀ x ∈ (splitLines pre).1, IsProxyConnection x) ∧ findCrlf l = none ∧ IsCredential l) ∨
    ∀ (http http' : HttpData) n k m, http.tempHeaderLine = [] → data.length < n →
      normalHeaderLoop P n data http k m = .ok (.wait http') →
      http.content.length < http'.content.length := by
  induction data using lines_induction with
  | rest s hs =>
    rw [splitLines_rest hs] at h
    exact absurd (fun l hl => by cases hl) h
  | line l r hl ih =>
    by_cases hproxy : IsProxyConnection l
    · have hne : l ≠ [] := by
        rintro rfl
        exact absurd hproxy.1 (by decide)
      rw [splitLines_line hl, List.forall_mem_cons, and_iff_right hproxy] at h
      rcases ih h with ⟨pre, l', tail, hr, hpre, hproxies, hl', hcred⟩ | hgrows
      · refine .inl ⟨l ++ 13 :: 10 :: pre, l', tail, by simp [hr], ?_, ?_, hl', hcred⟩
        · rwa [splitLines_line hl]
        · rw [splitLines_line hl]
          exact List.forall_mem_cons.2 ⟨hproxy, hproxies⟩
      · refine .inr fun http http' n k m htemp hn hloop => ?_
        obtain ⟨n, rfl⟩ : ∃ i, n = i + 1 := ⟨n - 1, by omega⟩
        rw [normalHeaderLoop_line hl (fun hnil => hne hnil.1),
          IsProxyConnection.processHeaderLine (by dsimp only; rwa [htemp])] at hloop
        refine hgrows { http with tempHeaderLine := [] } http' n _ _ rfl ?_ hloop
        rw [List.length_append, List.length_cons, List.length_cons] at hn
        omega
    · by_cases hcred : IsCredential l
      · exact .inl ⟨[], l, r, rfl, rfl, List.forall_mem_nil _, hl, hcred⟩
      · refine .inr fun http http' n k m htemp hn hloop => ?_
        obtain ⟨n, rfl⟩ : ∃ i, n = i + 1 := ⟨n - 1, by omega⟩
        by_cases hnil : l = []
        · subst hnil
          rw [List.nil_append, normalHeaderLoop_end htemp] at hloop
          cases hloop
        · rw [normalHeaderLoop_line hl (fun h => hnil h.1), htemp, List.nil_append] at hloop
          split at hloop
          · cases hloop
          · cases hloop
          · next http₁ k₁ hline =>
            have hrest := normalHeaderLoop_content hloop
            exact ((processHeaderLine_content hline).2 hproxy hcred).trans_le hrest

/-- The lines that are dropped, and a rest. -/
theorem normalHeaderLoop_dropped {http : HttpData} {n m : ℕ} {k data : Bytes}
    (hn : data.length < n) (htemp : http.tempHeaderLine = [])
    (h : ∀ l ∈ (splitLines data).1, IsProxyConnection l) :
    normalHeaderLoop P n data http k m =
      .ok (.wait { http with tempHeaderLine := (splitLines data).2 }) := by
  induction data using lines_induction generalizing http n m with
  | rest s hs =>
    obtain ⟨n, rfl⟩ : ∃ i, n = i + 1 := ⟨n - 1, by omega⟩
    rw [normalHeaderLoop_rest hs, splitLines_rest hs, htemp, List.nil_append]
  | line l r hl ih =>
    obtain ⟨n, rfl⟩ : ∃ i, n = i + 1 := ⟨n - 1, by omega⟩
    rw [splitLines_line hl] at h ⊢
    have hproxy := h l List.mem_cons_self
    have hne : l ≠ [] := by
      rintro rfl
      exact absurd hproxy.1 (by decide)
    rw [normalHeaderLoop_line hl (fun hnil => hne hnil.1),
      IsProxyConnection.processHeaderLine (by dsimp only; rwa [htemp])]
    refine ih ?_ rfl fun x hx => h x (List.mem_cons_of_mem _ hx)
    rw [List.length_append, List.length_cons, List.length_cons] at hn
    omega

/-- A credential of which only the last byte is in the segment is read beyond its end: the length is
    that of the piece. -/
theorem processHeaderLine_lastByte {http : HttpData} {k : Bytes}
    (hcred : IsCredential http.tempHeaderLine) (hsize : http.tempHeaderLine.length < 2 ^ 64) :
    processHeaderLine P http k 1 = .error .readOutOfRange := by
  have hlength : sub64 1 21 = 2 ^ 64 - 20 := by decide
  have hlength' : sub64 (2 ^ 64 - 20) 6 = 2 ^ 64 - 26 := by decide
  have hconnection := hcred.not_connection
  rw [processHeaderLine]
  dsimp only
  rw [if_neg (by simp [hconnection.1]), if_neg (by simp [hconnection.2])]
  refine (if_pos hcred).trans ?_
  rw [hlength, if_neg (by simp), hlength', base64DecodeAt, if_pos]
  rw [List.length_drop, List.length_drop]
  omega

/-- The segment with the rest of a header of which something is kept. -/
theorem AtNormal.map_exec_ne {h : Handshake σ} (hnormal : AtNormal h)
    (hgrows : ∀ http', normalHeaderLoop P (rest.length + 1) rest h.connection.http [] 0 =
      .ok (.wait http') → h.connection.http.content.length < http'.content.length) :
    (exec (feed S P) h [rest]).map outcome ≠ .ok h.outcome := by
  rcases hfeed : feed S P h rest with f | t
  · rw [exec_cons_of_error _ hfeed]
    intro heq
    cases heq
  rw [exec_cons_of_ok _ hfeed]
  -- A call to the outside is part of the outcome.
  have hcall : ∀ {s c k call}, ProxyAccessService.processData S P h.service h.connection
      (h.buffer ++ rest) = .ok (s, c, some k) → s.calls = h.service.calls ++ [call] →
      (exec (feed S P) t []).map outcome ≠ .ok h.outcome := by
    intro s c k call hdata hcalls heq
    have heq := congrArg Outcome.calls (Except.ok.inj heq)
    change t.service.calls = h.service.calls at heq
    obtain ⟨l, hl⟩ := feed_of_call hnormal.invalid hdata hcalls hfeed
    rw [hl] at heq
    exact List.cons_ne_nil _ _ (List.append_right_eq_self.1 heq)
  have hdata := hnormal.processData (S := S) (P := P) (h.buffer ++ rest)
  rw [hnormal.buffer, List.nil_append] at hdata hcall
  rw [onHttpNormalHeaderProcessor] at hdata
  rcases hloop : normalHeaderLoop P (rest.length + 1) rest h.connection.http [] 0 with
    f | (http | ⟨http, reply⟩ | ⟨http, authKey, k⟩) <;> rw [hloop] at hdata <;> dsimp only at hdata
  · rw [feed_of_error hnormal.invalid (by rwa [hnormal.buffer])] at hfeed
    cases hfeed
  · rw [hnormal.feed_wait hloop] at hfeed
    cases hfeed
    intro heq
    have heq := congrArg (fun o => o.content.length) (Except.ok.inj heq)
    exact absurd heq (hgrows _ hloop).ne'
  · exact hcall hdata rfl
  · rcases hrequest : requestAuthentication S h.service
      { h.connection with http := { http with content := http.content ++ [13, 10] } } authKey with
      f | ⟨s, f⟩
    · rw [hrequest] at hdata
      rw [feed_of_error hnormal.invalid (by rwa [hnormal.buffer])] at hfeed
      cases hfeed
    · rw [hrequest] at hdata
      rcases requestAuthentication_eq_ok hrequest with ⟨rfl, rfl⟩ | ⟨f, m, t', r, rfl, -, -, rfl⟩
      · exact hcall hdata rfl
      · exact hcall hdata rfl

/-- A credential cut before its last byte. -/
theorem AtNormal.exec_credential {h : Handshake σ} (hnormal : AtNormal h)
    (htemp : h.connection.http.tempHeaderLine = []) {pre l : Bytes} (tail : Bytes)
    (hpre : (splitLines pre).2 = []) (hproxies : ∀ x ∈ (splitLines pre).1, IsProxyConnection x)
    (hl : findCrlf l = none) (hcred : IsCredential l) (hsize : l.length < 2 ^ 64) :
    ∃ y b, l = y ++ [b] ∧ y ≠ [] ∧
      exec (feed S P) h [pre ++ y, b :: 13 :: 10 :: tail] = .error .readOutOfRange := by
  have hlength := hcred.1
  obtain ⟨y, b, rfl⟩ := (List.eq_nil_or_concat' l).resolve_left (by rintro rfl; simp at hlength)
  have hy : findCrlf y = none := findCrlf_of_begins (List.prefix_append y [b]) hl
  rw [List.length_append, List.length_singleton] at hlength
  refine ⟨y, b, rfl, by rintro rfl; simp at hlength, ?_⟩
  have hlines : splitLines (pre ++ y) = ((splitLines pre).1, y) := by
    rw [splitLines_append, hpre, List.nil_append, splitLines_rest hy, List.append_nil]
  have hwait := normalHeaderLoop_dropped (P := P) (m := 0) (k := [])
    (Nat.lt_succ_self (pre ++ y).length) htemp (by rwa [hlines])
  rw [hlines] at hwait
  rw [exec_cons_of_ok _ (hnormal.feed_wait hwait)]
  have hloop : normalHeaderLoop P ((b :: 13 :: 10 :: tail).length + 1) (b :: 13 :: 10 :: tail)
      { h.connection.http with tempHeaderLine := y } [] 0 = .error .readOutOfRange := by
    have hbyte : processHeaderLine P { h.connection.http with tempHeaderLine := y ++ [b] } [] 1 =
        .error .readOutOfRange := processHeaderLine_lastByte hcred hsize
    rw [show b :: 13 :: 10 :: tail = [b] ++ 13 :: 10 :: tail from rfl,
      normalHeaderLoop_line (by simp [findCrlf]) (by simp), List.length_singleton]
    dsimp only
    rw [hbyte]
  refine exec_cons_of_error _ (feed_of_error hnormal.invalid ?_)
  dsimp only
  rw [hnormal.buffer, List.nil_append, ProxyAccessService.processData, hnormal.dataProcessor]
  dsimp only
  rw [onHttpNormalHeaderProcessor, hloop]

/-- The cut into the request line and single bytes. -/
theorem isCut_bytes (hline : IsRequestLine line) (rest : Bytes) :
    IsCut (line ++ 13 :: 10 :: rest) ((line ++ [13, 10]) :: rest.map fun b => [b]) where
  flatten := by
    rw [List.flatten_cons, ← List.flatMap_def, List.flatMap_singleton']
    simp
  nonempty x hx := by
    rcases List.mem_cons.1 hx with rfl | hx
    · simp
    · obtain ⟨b, -, rfl⟩ := List.mem_map.1 hx
      exact List.cons_ne_nil b []
  first x hx := by
    cases hx
    have := List.length_pos_iff.2 hline.ne_nil
    rw [List.length_append, List.length_cons, List.length_singleton]
    omega

/-- The cuts of another request. -/
theorem IsFresh.normal_iff (hc : IsFresh c) (hline : IsRequestLine line)
    (hconnect : strncasecmp (ascii "CONNECT ") line = false) (hsize : rest.length < 2 ^ 64) :
    SegmentationIndependent S P s c (line ++ 13 :: 10 :: rest) ↔
      ∀ l ∈ (splitLines rest).1, IsProxyConnection l := by
  obtain ⟨c', hproc, htemp, hdata⟩ := onHttpChallenge_normal (σ := σ) hline hconnect c
  have hdata := hdata s
  rw [hc.http] at htemp
  have hnormal : AtNormal ({ service := s, connection := c' } : Handshake σ) := ⟨hproc, rfl, rfl⟩
  constructor
  · intro hsame
    by_contra hlines
    have hrest : rest ≠ [] := by
      rintro rfl
      exact hlines (List.forall_mem_nil _)
    -- Byte by byte, the handshake goes on.
    have hbytes : outcomeOf S P s c ((line ++ [13, 10]) :: rest.map fun b => [b]) =
        .ok (outcome { service := s, connection := c' }) := by
      rw [show line ++ [13, 10] = line ++ 13 :: 10 :: [] from rfl, hc.outcomeOf_line hline hdata,
        if_pos rfl, hnormal.map_exec_bytes]
    rcases exists_credential_or_grows (P := P) hlines with
      ⟨pre, l, tail, rfl, hpre, hproxies, hl, hcred⟩ | hgrows
    · have hl64 : l.length < 2 ^ 64 := by
        rw [List.length_append, List.length_append] at hsize
        omega
      obtain ⟨y, b, rfl, hy, hfault⟩ :=
        hnormal.exec_credential (S := S) (P := P) htemp tail hpre hproxies hl hcred hl64
      have hcut := isCut_pair hline (pre ++ y) (List.cons_ne_nil b (13 :: 10 :: tail))
      rw [show pre ++ y ++ b :: 13 :: 10 :: tail = pre ++ (y ++ [b]) ++ 13 :: 10 :: tail by simp]
        at hcut
      have hsame := hsame _ _ (isCut_bytes hline _) hcut
      rw [hbytes, hc.outcomeOf_line hline hdata, if_neg (by simp [hy]), hfault] at hsame
      cases hsame
    · have hsame := hsame _ _ (isCut_singleton hline _) (isCut_bytes hline _)
      rw [hbytes, hc.outcomeOf_line hline hdata, if_neg hrest] at hsame
      refine hnormal.map_exec_ne (fun http' hloop => ?_) hsame
      exact hgrows _ http' _ _ _ htemp (Nat.lt_succ_self _) hloop
  · intro hlines segments segments' hcut hcut'
    obtain ⟨t, ht, -, htoutcome⟩ := hc.outcomeOf_cut (S := S) (P := P) hline hdata hcut
    obtain ⟨t', ht', -, htoutcome'⟩ := hc.outcomeOf_cut (S := S) (P := P) hline hdata hcut'
    have htemp' : c'.http.tempHeaderLine = [] := htemp
    rw [htoutcome, htoutcome', hnormal.map_exec (by rwa [htemp', List.nil_append, ht]),
      hnormal.map_exec (by rwa [htemp', List.nil_append, ht'])]

/-- A request for a tunnel. -/
def connectLine : Bytes := ascii "CONNECT a:80 HTTP/1.1"

theorem isRequestLine_connectLine : IsRequestLine connectLine where
  isLine := by decide +kernel
  parts := ⟨ascii "CONNECT", ascii "a:80", ascii "1.1", by decide +kernel⟩

end Handshake

end ProxyPlatform
