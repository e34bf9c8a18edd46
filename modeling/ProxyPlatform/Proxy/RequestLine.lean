import ProxyPlatform.Proxy.Segmentation

/-!
# The request line

A request line has a method, a target and a version, with spaces between them. The target of
most requests is a URL, of which `onHttpChallenge` takes the host and the port for the target of
the connection and leaves the path in the line; that of a `CONNECT` request is a host and a port.

* `IsRequest`, `IsUrl`, `IsConnectTarget`: what a request line should look like, and what is to be
  read from it;
* `ReadsRequestLine`: the line is rewritten, or refused, as it should be;
* `IsRequest.onHttpChallenge_eq`: what the code makes of a line;
* `readsRequestLine_iff`: which lines it reads right.

The code searches the whole line for a slash, where the URL should be searched; it does not look
at the number it takes for a port; and behind `https://` it takes up the search one byte too early.
-/

namespace ProxyPlatform.ProxyAccessService

/-! ## Request lines -/

/-- The line is that of a `CONNECT` request. -/
def IsConnect (line : Bytes) : Prop := strncasecmp (ascii "CONNECT ") line
  deriving Decidable

structure IsRequest (line method target version : Bytes) : Prop where
  parts : line = method ++ 32 :: (target ++ 32 :: version)
  method : 32 ∉ method
  target : 32 ∉ target

/-- The number written with these digits. -/
def number (digits : Bytes) : ℕ := digits.foldl (fun n b => 10 * n + (b.toNat - 48)) 0

/-- The text is the number of a port. -/
structure IsPortNumber (digits : Bytes) (port : ℕ) : Prop where
  ne_nil : digits ≠ []
  isDigit : ∀ b ∈ digits, isdigit b
  eq : number digits = port
  pos : 0 < port
  le : port ≤ 65535

/-- The target is a URL with this host, this text for its port, and this path behind its first
    slash. -/
structure IsUrl (target host text path : Bytes) (port : ℕ) : Prop where
  scheme : ∃ scheme, (scheme.map tolower = (ascii "http://").map tolower ∨
    scheme.map tolower = (ascii "https://").map tolower) ∧ target = scheme ++ (host ++ (text ++ 47 :: path))
  ne_nil : host ≠ []
  slash : 47 ∉ host
  colon : 58 ∉ host
  port : text = [] ∧ port = 80 ∨ ∃ digits, text = 58 :: digits ∧ IsPortNumber digits port

/-- The line asks for a tunnel to this host, with this text for its port. -/
structure IsConnectTarget (line host text : Bytes) : Prop where
  parts : ∃ tail, line.drop 8 = host ++ 58 :: (text ++ tail) ∧ (tail = [] ∨ tail.head? = some 32)
  ne_nil : host ≠ []
  colon : 58 ∉ host
  space : 32 ∉ host
  text : 32 ∉ text

/-- The connection behind the request line of a request that is forwarded. -/
def forwarded (c : ClientConnection) (method path version host : Bytes) (port : ℕ) :
    ClientConnection :=
  { c with
    http := { c.http with
      targetHost := host
      targetPort := port
      content := c.http.content ++ (method ++ 32 :: 47 :: (path ++ 32 :: (version ++ [13, 10]))) }
    type := .httpNormal
    dataProcessor := .onHttpNormalHeaderProcessor }

/-- The connection behind the request line of a `CONNECT` request. -/
def tunnelled (c : ClientConnection) (host : Bytes) (port : ℕ) : ClientConnection :=
  { c with
    http := { c.http with targetHost := host, targetPort := port }
    type := .httpRaw
    dataProcessor := .onHttpRawHeaderProcessor }

variable {σ : Type*} {s : ProxyAccessService σ} {c : ClientConnection}
  {line method target version host text path r : Bytes} {port : ℕ}

/-- The data is refused as invalid. -/
def IsRefused (s : ProxyAccessService σ)
    (result : Except Fault (ProxyAccessService σ × ClientConnection × Option ℕ)) : Prop :=
  ∃ c', result = .ok (s, c', none)

/-- The request line is read as it should be, whatever follows: a URL becomes a path, with its host
    and its port for the target, and any other target is refused; for a `CONNECT` request, it is
    the host and the port given, and refused if that is none. -/
def ReadsRequestLine (s : ProxyAccessService σ) (c : ClientConnection) (line r : Bytes) : Prop :=
  if IsConnect line then
    ∀ host text, IsConnectTarget line host text →
      (∀ port, IsPortNumber text port → onHttpChallenge s c (line ++ 13 :: 10 :: r) =
        .ok (s, tunnelled c host port, some (line.length + 2))) ∧
      ((¬∃ port, IsPortNumber text port) →
        IsRefused s (onHttpChallenge s c (line ++ 13 :: 10 :: r)))
  else
    (∀ method target version host text path port, IsRequest line method target version →
      IsUrl target host text path port → onHttpChallenge s c (line ++ 13 :: 10 :: r) =
        .ok (s, forwarded c method path version host port, some (line.length + 2))) ∧
    ((¬∃ method target version host text path port, IsRequest line method target version ∧
      IsUrl target host text path port) →
        IsRefused s (onHttpChallenge s c (line ++ 13 :: 10 :: r)))

/-- The line is read right: a `CONNECT` request for a port has the number of one; and the target of
    any other request is a URL and not a secure one, or no slash stands behind its scheme, up to
    the end of the line. -/
def Readable (line : Bytes) : Prop :=
  if IsConnect line then ∀ host text, IsConnectTarget line host text → ∃ port, IsPortNumber text port
  else ∀ method target version, IsRequest line method target version →
    ¬strncasecmp (ascii "https://") target ∧
      ((∃ host text path port, IsUrl target host text path port) ∨
        47 ∉ (if strncasecmp (ascii "http://") target then target.drop 7 else target) ++ version)

/-! ## Numbers -/

theorem readDigits_number {digits : Bytes} {b : UInt8} (h : ∀ d ∈ digits, isdigit d)
    (hb : isdigit b = false) (n : ℕ) :
    readDigits n (digits ++ b :: r) = .ok (digits.foldl (fun n b => 10 * n + (b.toNat - 48)) n) := by
  induction digits generalizing n with
  | nil => rw [List.nil_append, readDigits, if_neg (by simp [hb])]; rfl
  | cons d digits ih =>
    obtain ⟨hd, hdigits⟩ := List.forall_mem_cons.1 h
    rw [List.cons_append, readDigits, if_pos hd, ih hdigits]
    rfl

/-- A digit is neither white space nor a sign. -/
theorem not_sign_of_isdigit {b : UInt8} (h : isdigit b) : isspace b = false ∧ b ≠ 45 ∧ b ≠ 43 := by
  simp only [isdigit, isspace, decide_eq_true_eq, decide_eq_false_iff_not,
    UInt8.le_iff_toNat_le, ← UInt8.toNat_inj, UInt8.reduceToNat, ne_eq] at h ⊢
  omega

/-- The number of a port is what `atoi` reads, up to a byte that is no digit. -/
theorem IsPortNumber.atoi16 {b : UInt8} (h : IsPortNumber text port) (hb : isdigit b = false) :
    atoi16 (text ++ b :: r) = .ok port := by
  obtain ⟨d, digits, rfl⟩ := List.exists_cons_of_ne_nil h.ne_nil
  obtain ⟨hspace, hminus, hplus⟩ := not_sign_of_isdigit (h.isDigit d List.mem_cons_self)
  have hread : readDigits 0 (d :: digits ++ b :: r) = .ok port := by
    rw [readDigits_number h.isDigit hb]
    exact congrArg Except.ok h.eq
  have hle := h.le
  have hmin : (min (port : ℤ) (2 ^ 63 - 1) % 2 ^ 16).toNat = port := by omega
  rw [ProxyPlatform.atoi16, List.cons_append, strtol, if_neg (by simp [hspace]), if_neg hminus,
    if_neg hplus, ← List.cons_append, hread]
  exact congrArg Except.ok hmin

/-! ## Authorities -/

/-- A host is read up to its end. -/
theorem readAuthority_append {stop : UInt8} (hcolon : 58 ∉ host) (hstop : stop ∉ host) (n : ℕ)
    (acc : Bytes) :
    readAuthority stop (host.length + n) acc (host ++ r) = readAuthority stop n (acc ++ host) r := by
  induction host generalizing acc with
  | nil => rw [List.length_nil, Nat.zero_add, List.nil_append, List.append_nil]
  | cons b host ih =>
    rw [List.mem_cons, not_or] at hcolon hstop
    rw [List.length_cons, Nat.add_right_comm, List.cons_append, readAuthority,
      if_neg (Ne.symm hcolon.1), if_neg (Ne.symm hstop.1), ih hcolon.2 hstop.2, List.append_assoc,
      List.singleton_append]

/-- A host ends at a colon. -/
theorem readAuthority_colon {stop : UInt8} {n : ℕ} (hcolon : 58 ∉ host) (hstop : stop ∉ host)
    (hn : host.length < n) (acc : Bytes) :
    readAuthority stop n acc (host ++ 58 :: r) = (atoi16 r).map fun port => some (acc ++ host, port) := by
  obtain ⟨m, rfl⟩ := Nat.exists_eq_add_of_lt hn
  rw [Nat.add_assoc, readAuthority_append hcolon hstop, readAuthority, if_pos rfl]

/-- A host ends where the search does. -/
theorem readAuthority_stop {stop : UInt8} {n : ℕ} (hne : stop ≠ 58) (hcolon : 58 ∉ host)
    (hstop : stop ∉ host) (hn : host.length < n) (acc : Bytes) :
    readAuthority stop n acc (host ++ stop :: r) = .ok (some (acc ++ host, 80)) := by
  obtain ⟨m, rfl⟩ := Nat.exists_eq_add_of_lt hn
  rw [Nat.add_assoc, readAuthority_append hcolon hstop, readAuthority, if_neg hne, if_pos rfl]

/-! ## Requests that are forwarded -/

theorem IsRequest.unique {method' target' version' : Bytes} (h : IsRequest line method target version)
    (h' : IsRequest line method' target' version') :
    method = method' ∧ target = target' ∧ version = version' := by
  obtain ⟨hmethod, hrest⟩ := append_cons_inj h.method h'.method (h.parts.symm.trans h'.parts)
  obtain ⟨htarget, hversion⟩ := append_cons_inj h.target h'.target hrest
  exact ⟨hmethod, htarget, hversion⟩

/-- The code takes the line for one of a `CONNECT` request by its beginning, which is in the
    line. -/
theorem strncasecmp_connect (line r : Bytes) :
    strncasecmp (ascii "CONNECT ") (line ++ 13 :: r) = strncasecmp (ascii "CONNECT ") line :=
  strncasecmp_append_cons (by with_unfolding_all decide) _

theorem IsRequest.drop (h : IsRequest line method target version) (r : Bytes) (i : ℕ) :
    (line ++ r).drop (method.length + 1 + i) = (target ++ 32 :: (version ++ r)).drop i := by
  have hend : (line ++ r).drop (method.length + 1) = target ++ 32 :: (version ++ r) := by
    rw [h.parts, List.append_assoc, List.drop_append, List.drop_eq_nil_of_le (by omega),
      List.nil_append, Nat.add_sub_cancel_left]
    simp
  rw [← List.drop_drop, hend]

/-- Where the search for the authority begins, and where that for the path does. -/
theorem IsRequest.skipScheme (h : IsRequest line method target version) (r : Bytes) :
    skipScheme (line ++ r) (method.length + 1) =
      if strncasecmp (ascii "http://") target then (method.length + 1 + 7, method.length + 1 + 7)
      else if strncasecmp (ascii "https://") target then
        (method.length + 1 + 8, method.length + 1 + 7)
      else (method.length + 1, method.length + 1) := by
  have hdrop := h.drop r 0
  rw [Nat.add_zero, List.drop_zero] at hdrop
  rw [ProxyAccessService.skipScheme, hdrop,
    strncasecmp_append_cons (by with_unfolding_all decide),
    strncasecmp_append_cons (by with_unfolding_all decide)]

/-- What the code makes of the request line. -/
theorem IsRequest.onHttpChallenge_eq (h : IsRequest line method target version)
    (hl : findCrlf line = none) (hconnect : ¬IsConnect line) {u i : ℕ}
    (hskip : ProxyAccessService.skipScheme (line ++ 13 :: 10 :: r) (method.length + 1) = (u, i)) :
    onHttpChallenge s c (line ++ 13 :: 10 :: r) = match find 47 (line.drop i) with
      | none => .ok (s, { c with http := { c.http with
          content := c.http.content ++ (method ++ [32]) } }, none)
      | some j => match readAuthority 47 (i + j + 1 - u) [] ((line ++ 13 :: 10 :: r).drop u) with
        | .error x => .error x
        | .ok target => .ok (s, { c with
            http := { c.http with
              targetHost := (target.map Prod.fst).getD []
              targetPort := (target.map Prod.snd).getD 0
              content := c.http.content ++ (method ++ [32]) ++ (line ++ [13, 10]).drop (i + j) }
            type := .httpNormal
            dataProcessor := .onHttpNormalHeaderProcessor }, some (line.length + 2)) := by
  have hne : line.length ≠ 0 := by
    rw [h.parts, List.length_append, List.length_cons]
    omega
  have htake : (line ++ 13 :: 10 :: r).take line.length = line := List.take_left
  have htake' : (line ++ 13 :: 10 :: r).take (line.length + 2) = line ++ [13, 10] := by
    rw [show line ++ 13 :: 10 :: r = line ++ [13, 10] ++ r by simp]
    exact List.take_left' (by simp)
  have hmethodEnd : find 32 line = some method.length := by
    rw [h.parts]
    exact find_append_cons h.method _
  have hmethod : line.take (method.length + 1) = method ++ [32] := by
    rw [h.parts, List.append_cons]
    exact List.take_left' (by simp)
  have htargetEnd : find 32 (line.drop (method.length + 1)) = some target.length := by
    have hdrop := h.drop [] 0
    rw [List.append_nil, List.append_nil, Nat.add_zero, List.drop_zero] at hdrop
    rw [hdrop]
    exact find_append_cons h.target _
  rw [onHttpChallenge, findCrlf_line hl]
  dsimp only
  rw [if_neg hne, strncasecmp_connect, if_neg (by exact hconnect), onHttpNormalChallenge]
  dsimp only
  rw [htake, hmethodEnd]
  dsimp only
  rw [htargetEnd]
  dsimp only
  rewrite [hskip, hmethod, htake']
  rcases find 47 (line.drop i) with _ | j
  · rfl
  · rcases hread : readAuthority 47 (i + j + 1 - u) [] ((line ++ 13 :: 10 :: r).drop u) with x | p <;>
      simp only [hread]

/-- The line is refused if and only if there is no slash where the path is searched. -/
theorem IsRequest.isRefused_iff (h : IsRequest line method target version)
    (hl : findCrlf line = none) (hconnect : ¬IsConnect line) {u i : ℕ}
    (hskip : ProxyAccessService.skipScheme (line ++ 13 :: 10 :: r) (method.length + 1) = (u, i)) :
    IsRefused s (onHttpChallenge s c (line ++ 13 :: 10 :: r)) ↔ 47 ∉ line.drop i := by
  rw [IsRefused, h.onHttpChallenge_eq hl hconnect hskip, ← find_eq_none]
  rcases find 47 (line.drop i) with _ | j
  · exact iff_of_true ⟨_, rfl⟩ rfl
  · refine iff_of_false ?_ (Option.some_ne_none j)
    rintro ⟨c', heq⟩
    dsimp only at heq
    split at heq
    · cases heq
    · have hnone := congrArg (fun x => x.2.2) (Except.ok.inj heq)
      cases hnone

/-- A line with fewer than two spaces is refused. -/
theorem isRefused_of_not_isRequest (hl : findCrlf line = none) (hconnect : ¬IsConnect line)
    (h : ∀ method target version, ¬IsRequest line method target version) :
    IsRefused s (onHttpChallenge s c (line ++ 13 :: 10 :: r)) := by
  have htake : (line ++ 13 :: 10 :: r).take line.length = line := List.take_left
  rw [IsRefused, onHttpChallenge, findCrlf_line hl]
  dsimp only
  by_cases hne : line.length = 0
  · exact ⟨c, if_pos hne⟩
  rw [if_neg hne, strncasecmp_connect, if_neg (by exact hconnect), onHttpNormalChallenge]
  dsimp only
  rw [htake]
  rcases hfirst : find 32 line with _ | i
  · exact ⟨_, rfl⟩
  dsimp only
  rcases hsecond : find 32 (line.drop (i + 1)) with _ | j
  · exact ⟨_, rfl⟩
  -- Two spaces make a request.
  exfalso
  obtain ⟨method, w, rfl, hmethod, rfl⟩ := exists_find hfirst
  rw [List.append_cons, List.drop_left' (by simp)] at hsecond
  obtain ⟨target, version, rfl, htarget, -⟩ := exists_find hsecond
  exact h method target version ⟨rfl, hmethod, htarget⟩

/-- The scheme of a URL, if it is not a secure one. -/
theorem IsUrl.exists_http (h : IsUrl target host text path port)
    (hs : ¬strncasecmp (ascii "https://") target) :
    ∃ scheme, scheme.length = 7 ∧ target = scheme ++ (host ++ (text ++ 47 :: path)) ∧
      strncasecmp (ascii "http://") target = true := by
  obtain ⟨scheme, hscheme | hscheme, rfl⟩ := h.scheme
  · have hlength : scheme.length = (ascii "http://").length := by
      simpa using congrArg List.length hscheme
    exact ⟨scheme, hlength.trans (by with_unfolding_all decide), rfl, strncasecmp_of_map hscheme _⟩
  · exact absurd (strncasecmp_of_map hscheme _) hs

/-- A secure URL is not taken for the other. -/
theorem not_http (h : strncasecmp (ascii "https://") target) :
    ¬strncasecmp (ascii "http://") target :=
  fun hhttp => absurd (strncasecmp_agree hhttp h (by with_unfolding_all decide))
    (by with_unfolding_all decide)

theorem IsRequest.line_drop (h : IsRequest line method target version) (i : ℕ) :
    line.drop (method.length + 1 + i) = (target ++ 32 :: version).drop i := by
  have hdrop := h.drop [] i
  rwa [List.append_nil, List.append_nil] at hdrop

/-- Without a secure scheme, a line is refused if and only if no slash follows the scheme. -/
theorem IsRequest.isRefused_iff_slash (h : IsRequest line method target version)
    (hl : findCrlf line = none) (hconnect : ¬IsConnect line)
    (hs : ¬strncasecmp (ascii "https://") target) :
    IsRefused s (onHttpChallenge s c (line ++ 13 :: 10 :: r)) ↔
      47 ∉ (if strncasecmp (ascii "http://") target then target.drop 7 else target) ++ version := by
  have hskip := h.skipScheme (13 :: 10 :: r)
  rw [if_neg hs] at hskip
  have hspace : ∀ t : Bytes, 47 ∉ t ++ 32 :: version ↔ 47 ∉ t ++ version := fun t => by simp
  by_cases hhttp : strncasecmp (ascii "http://") target
  · have hseven : 7 ≤ target.length :=
      le_trans (by with_unfolding_all decide) (length_le_of_strncasecmp hhttp)
    rw [if_pos hhttp] at hskip
    rw [if_pos hhttp, h.isRefused_iff hl hconnect hskip, h.line_drop,
      List.drop_append_of_le_length hseven, hspace]
  · rw [if_neg hhttp] at hskip
    rw [if_neg hhttp, h.isRefused_iff hl hconnect hskip, ← Nat.add_zero (method.length + 1),
      h.line_drop, List.drop_zero, hspace]

/-- A URL is read as it should be, if it is not a secure one. -/
theorem IsRequest.onHttpChallenge_url (h : IsRequest line method target version)
    (hl : findCrlf line = none) (hconnect : ¬IsConnect line)
    (hurl : IsUrl target host text path port) (hs : ¬strncasecmp (ascii "https://") target) :
    onHttpChallenge s c (line ++ 13 :: 10 :: r) =
      .ok (s, forwarded c method path version host port, some (line.length + 2)) := by
  obtain ⟨scheme, hlength, htarget, hhttp⟩ := hurl.exists_http hs
  have hskip := h.skipScheme (13 :: 10 :: r)
  rw [if_pos hhttp] at hskip
  have hdrop : ∀ w, (target ++ w).drop 7 = host ++ (text ++ 47 :: (path ++ w)) := by
    intro w
    rw [htarget, List.append_assoc, List.drop_left' hlength]
    simp
  have hslash : 47 ∉ host ++ text := by
    rw [List.mem_append, not_or]
    refine ⟨hurl.slash, ?_⟩
    rcases hurl.port with ⟨rfl, -⟩ | ⟨digits, rfl, hport⟩
    · exact List.not_mem_nil
    · rw [List.mem_cons, not_or]
      exact ⟨by decide, fun hmem => absurd (hport.isDigit 47 hmem) (by decide)⟩
  have hpath : find 47 (line.drop (method.length + 1 + 7)) = some (host ++ text).length := by
    rw [h.line_drop, hdrop, ← List.append_assoc]
    exact find_append_cons hslash _
  have hcontent : (line ++ [13, 10]).drop (method.length + 1 + 7 + (host ++ text).length) =
      47 :: (path ++ 32 :: (version ++ [13, 10])) := by
    rw [← List.drop_drop, h.drop, hdrop, ← List.append_assoc, List.drop_left]
  have hauthority : readAuthority 47 ((host ++ text).length + 1) []
      (host ++ (text ++ 47 :: (path ++ 32 :: (version ++ 13 :: 10 :: r)))) =
        .ok (some (host, port)) := by
    have hn : host.length < (host ++ text).length + 1 := by
      rw [List.length_append]
      omega
    rcases hurl.port with ⟨rfl, rfl⟩ | ⟨digits, rfl, hport⟩
    · exact readAuthority_stop (by decide) hurl.colon hurl.slash hn []
    · rw [List.cons_append, readAuthority_colon hurl.colon hurl.slash hn, hport.atoi16 (by decide)]
      rfl
  have hsize : method.length + 1 + 7 + (host ++ text).length + 1 - (method.length + 1 + 7) =
      (host ++ text).length + 1 := by omega
  rw [h.onHttpChallenge_eq hl hconnect hskip, hpath]
  dsimp only
  rw [hsize, h.drop, hdrop, hauthority, hcontent, List.append_assoc]
  simp [forwarded]

/-- Behind a secure scheme, the slash that is found is the second one of the scheme. -/
theorem IsRequest.onHttpChallenge_https (h : IsRequest line method target version)
    (hl : findCrlf line = none) (hconnect : ¬IsConnect line)
    (hs : strncasecmp (ascii "https://") target) :
    ∃ c' : ClientConnection, c'.http.targetHost = [] ∧
      onHttpChallenge s c (line ++ 13 :: 10 :: r) = .ok (s, c', some (line.length + 2)) := by
  have hskip := h.skipScheme (13 :: 10 :: r)
  rw [if_neg (not_http hs), if_pos hs] at hskip
  have hlength : 8 ≤ target.length :=
    le_trans (by with_unfolding_all decide) (length_le_of_strncasecmp hs)
  obtain ⟨b, hb⟩ : ∃ b, target[7]? = some b := ⟨_, List.getElem?_eq_getElem (by omega)⟩
  have hslash : b = 47 := by
    refine eq_of_tolower (by decide) ?_
    have heq : (target.take (ascii "https://").length).map tolower =
        (ascii "https://").map tolower := of_decide_eq_true hs
    have hlast := congrArg (fun x => x[7]?) heq
    have height : (ascii "https://").length = 8 := by with_unfolding_all decide
    have hend : ((ascii "https://").map tolower)[7]? = some 47 := by with_unfolding_all decide
    rw [height] at hlast
    simpa [List.getElem?_take_of_lt, hb, hend] using hlast
  have hpath : find 47 (line.drop (method.length + 1 + 7)) = some 0 := by
    rw [h.line_drop, List.drop_append_of_le_length (by omega), List.drop_eq_getElem?_toList_append,
      hb, hslash]
    rfl
  have hsize : method.length + 1 + 7 + 0 + 1 - (method.length + 1 + 8) = 0 := by omega
  rw [h.onHttpChallenge_eq hl hconnect hskip, hpath]
  dsimp only
  rw [hsize]
  have hnone : ∀ x : Bytes, readAuthority 47 0 [] x = .ok none := fun x => by cases x <;> rfl
  rw [hnone]
  exact ⟨_, rfl, rfl⟩

/-! ## Requests for a tunnel -/

/-- The host and the port of a `CONNECT` request. -/
theorem IsConnectTarget.onHttpChallenge_eq (h : IsConnectTarget line host text)
    (hl : findCrlf line = none) (hconnect : IsConnect line) :
    ∃ b w, isdigit b = false ∧ onHttpChallenge s c (line ++ 13 :: 10 :: r) =
      match atoi16 (text ++ b :: w) with
      | .error x => .error x
      | .ok port => .ok (s, tunnelled c host port, some (line.length + 2)) := by
  obtain ⟨tail, hparts, htail⟩ := h.parts
  have hlength : 8 ≤ line.length :=
    le_trans (by with_unfolding_all decide) (length_le_of_strncasecmp hconnect)
  obtain ⟨b, w, hb, hw⟩ : ∃ b w, isdigit b = false ∧ tail ++ 13 :: 10 :: r = b :: w := by
    rcases htail with rfl | htail
    · exact ⟨13, 10 :: r, by decide, rfl⟩
    · obtain ⟨w, rfl⟩ := List.head?_eq_some_iff.1 htail
      exact ⟨32, w ++ 13 :: 10 :: r, by decide, rfl⟩
  have hn : host.length < line.length - 8 := by
    rw [← List.length_drop, hparts, List.length_append, List.length_cons]
    omega
  have hdrop : (line ++ 13 :: 10 :: r).drop 8 = host ++ 58 :: (text ++ b :: w) := by
    rw [List.drop_append_of_le_length hlength, hparts, ← hw]
    simp
  refine ⟨b, w, hb, ?_⟩
  rw [onHttpChallenge, findCrlf_line hl]
  dsimp only
  rw [if_neg (by omega), strncasecmp_connect, if_pos (by exact hconnect), hdrop,
    readAuthority_colon h.colon h.space hn]
  rcases atoi16 (text ++ b :: w) with x | port
  · rfl
  · exact if_neg h.ne_nil

/-! ## Lines that are read right -/

/-- The request line is read as it should be if and only if it is a `CONNECT` request whose port
    is the number of one, or a request for a URL that is not secure, or has no slash behind the
    scheme. -/
theorem readsRequestLine_iff (s : ProxyAccessService σ) (c : ClientConnection)
    (hl : findCrlf line = none) (r : Bytes) : ReadsRequestLine s c line r ↔ Readable line := by
  unfold ReadsRequestLine Readable
  by_cases hconnect : IsConnect line
  · rw [if_pos hconnect, if_pos hconnect]
    refine forall_congr' fun host => forall_congr' fun text => imp_congr_right fun htarget => ?_
    obtain ⟨b, w, hb, hchallenge⟩ := htarget.onHttpChallenge_eq (s := s) (c := c) (r := r) hl hconnect
    rw [hchallenge]
    constructor
    · rintro ⟨-, hrefused⟩
      by_contra hno
      obtain ⟨c', heq⟩ := hrefused hno
      rcases hport : atoi16 (text ++ b :: w) with x | port <;> rw [hport] at heq
      · cases heq
      · have hnone := congrArg (fun x => x.2.2) (Except.ok.inj heq)
        cases hnone
    · intro hport
      exact ⟨fun port hport => by rw [hport.atoi16 hb], fun hno => absurd hport hno⟩
  rw [if_neg hconnect, if_neg hconnect]
  constructor
  · rintro ⟨hread, hrefused⟩ method target version hrequest
    -- The line has one method, one target and one version.
    have hurls : (¬∃ host text path port, IsUrl target host text path port) →
        IsRefused s (onHttpChallenge s c (line ++ 13 :: 10 :: r)) := by
      intro hno
      refine hrefused ?_
      rintro ⟨method', target', version', host, text, path, port, hrequest', hurl⟩
      obtain ⟨-, rfl, -⟩ := hrequest.unique hrequest'
      exact hno ⟨host, text, path, port, hurl⟩
    by_cases hs : strncasecmp (ascii "https://") target
    · exfalso
      obtain ⟨c', hhost, hchallenge⟩ :=
        hrequest.onHttpChallenge_https (s := s) (c := c) (r := r) hl hconnect hs
      by_cases hurl : ∃ host text path port, IsUrl target host text path port
      · obtain ⟨host, text, path, port, hurl⟩ := hurl
        have hforwarded := hread _ _ _ _ _ _ _ hrequest hurl
        rw [hchallenge] at hforwarded
        have heq := congrArg (fun x => x.2.1.http.targetHost) (Except.ok.inj hforwarded)
        exact hurl.ne_nil (heq.symm.trans hhost)
      · obtain ⟨c'', heq⟩ := hurls hurl
        rw [hchallenge] at heq
        have hnone := congrArg (fun x => x.2.2) (Except.ok.inj heq)
        cases hnone
    refine ⟨hs, or_iff_not_imp_left.2 fun hno => ?_⟩
    exact (hrequest.isRefused_iff_slash hl hconnect hs).1 (hurls hno)
  · intro hreadable
    refine ⟨fun method target version host text path port hrequest hurl => ?_, fun hno => ?_⟩
    · exact hrequest.onHttpChallenge_url hl hconnect hurl (hreadable _ _ _ hrequest).1
    by_cases hrequest : ∃ method target version, IsRequest line method target version
    · obtain ⟨method, target, version, hrequest⟩ := hrequest
      obtain ⟨hs, ⟨host, text, path, port, hurl⟩ | hslash⟩ := hreadable _ _ _ hrequest
      · exact absurd ⟨_, _, _, _, _, _, _, hrequest, hurl⟩ hno
      · exact (hrequest.isRefused_iff_slash hl hconnect hs).2 hslash
    · refine isRefused_of_not_isRequest hl hconnect fun method target version h => ?_
      exact hrequest ⟨method, target, version, h⟩

/-- A client that has sent nothing yet. -/
def freshConnection : ClientConnection := newConnection (init ()) localAddress localAddress 1

/-- The line of a `CONNECT` request, and that of one that is forwarded. -/
theorem readsRequestLine_connect :
    ReadsRequestLine (init ()) freshConnection (ascii "CONNECT h:443 HTTP/1.1") [] ∧
      ReadsRequestLine (init ()) freshConnection (ascii "GET http://h:8080/p HTTP/1.1") [] ∧
      onHttpChallenge (init ()) freshConnection (ascii "GET http://h:8080/p HTTP/1.1" ++ [13, 10]) =
        .ok (init (), forwarded freshConnection (ascii "GET") (ascii "p") (ascii "HTTP/1.1")
          (ascii "h") 8080, some 30) := by
  have hurl : IsUrl (ascii "http://h:8080/p") (ascii "h") (ascii ":8080") (ascii "p") 8080 :=
    ⟨⟨ascii "http://", .inl rfl, by decide +kernel⟩, by decide +kernel, by decide +kernel,
      by decide +kernel, .inr ⟨ascii "8080", by decide +kernel, by decide +kernel, by decide +kernel,
        by decide +kernel, by decide, by decide⟩⟩
  have hrequest : IsRequest (ascii "GET http://h:8080/p HTTP/1.1") (ascii "GET")
      (ascii "http://h:8080/p") (ascii "HTTP/1.1") :=
    ⟨by decide +kernel, by decide +kernel, by decide +kernel⟩
  have hforwards : ReadsRequestLine (init ()) freshConnection
      (ascii "GET http://h:8080/p HTTP/1.1") [] := by
    refine (readsRequestLine_iff _ _ (by decide +kernel) []).2 ?_
    rw [Readable, if_neg (by decide +kernel)]
    intro method target version hrequest'
    obtain ⟨-, rfl, -⟩ := hrequest.unique hrequest'
    exact ⟨by decide +kernel, .inl ⟨_, _, _, _, hurl⟩⟩
  refine ⟨?_, hforwards, ?_⟩
  · refine (readsRequestLine_iff _ _ (by decide +kernel) []).2 ?_
    rw [Readable, if_pos (by decide +kernel)]
    rintro host text ⟨⟨tail, hparts, htail⟩, -, hcolon, -, htext⟩
    have hline : (ascii "CONNECT h:443 HTTP/1.1").drop 8 =
        ascii "h" ++ 58 :: (ascii "443" ++ 32 :: ascii "HTTP/1.1") := by decide +kernel
    obtain ⟨-, hrest⟩ := append_cons_inj (by decide +kernel) hcolon (hline.symm.trans hparts)
    rcases htail with rfl | htail
    · rw [List.append_nil] at hrest
      rw [← hrest] at htext
      exact absurd htext (by decide +kernel)
    · obtain ⟨w, rfl⟩ := List.head?_eq_some_iff.1 htail
      obtain ⟨rfl, -⟩ := append_cons_inj (by decide +kernel) htext hrest
      exact ⟨443, by decide +kernel, by decide +kernel, by decide +kernel, by decide, by decide⟩
  · rw [ReadsRequestLine, if_neg (by decide +kernel)] at hforwards
    have hlength : (ascii "GET http://h:8080/p HTTP/1.1").length = 28 := by decide +kernel
    have hread := hforwards.1 _ _ _ _ _ _ _ hrequest hurl
    rwa [hlength] at hread

/-- The host of a secure URL is lost. -/
theorem readsRequestLine_counterexample :
    ¬ReadsRequestLine (init ()) freshConnection (ascii "GET https://h/p HTTP/1.1") [] := by
  intro h
  rw [ReadsRequestLine, if_neg (by decide +kernel)] at h
  have hread := h.1 (ascii "GET") (ascii "https://h/p") (ascii "HTTP/1.1") (ascii "h") []
    (ascii "p") 80 ⟨by decide +kernel, by decide +kernel, by decide +kernel⟩
    ⟨⟨ascii "https://", .inr rfl, by decide +kernel⟩, by decide +kernel, by decide +kernel,
      by decide +kernel, .inl ⟨rfl, rfl⟩⟩
  obtain ⟨⟨s', c', n⟩, hx, hp⟩ := exists_ok_of_check
    (x := onHttpChallenge (init ()) freshConnection
      (ascii "GET https://h/p HTTP/1.1" ++ 13 :: 10 :: []))
    (p := fun x => x.2.1.http.targetHost = []) (by decide +kernel)
  rw [hx] at hread
  have hhost : c'.http.targetHost = ascii "h" :=
    congrArg (fun x => x.2.1.http.targetHost) (Except.ok.inj hread)
  rw [of_decide_eq_true hp] at hhost
  exact absurd hhost (by decide +kernel)

end ProxyPlatform.ProxyAccessService
