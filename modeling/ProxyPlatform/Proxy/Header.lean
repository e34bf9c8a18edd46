import ProxyPlatform.Base.Lines
import ProxyPlatform.Proxy.Http

/-!
# The headers, line by line

The loops over a header work on the bytes at hand, and look for the next line end. Here
they are described by the lines of these bytes.

* `CredentialLine`, `readCredential`: what a line of the header of a `CONNECT` request says
  of the credential;
* `rawHeaderLoop_line`, `rawHeaderLoop_end`, `rawHeaderLoop_rest`: a turn of the loop of
  `onHttpRawHeaderProcessor`, which never reads beyond the line;
* `normalHeaderLoop_line`, `normalHeaderLoop_end`, `normalHeaderLoop_rest`: a turn of the
  loop of `onHttpNormalHeaderProcessor`.
-/

namespace ProxyPlatform.ProxyAccessService

/-- What a line of a header says of the credential. -/
inductive CredentialLine
  /-- Nothing. -/
  | other
  /-- It is not a Basic credential. -/
  | invalid
  /-- The credential has no account. -/
  | noAccount
  | key (authKey : Bytes)
  deriving DecidableEq

/-- The line holds a credential. -/
def IsCredential (line : Bytes) : Prop :=
  21 < line.length ∧ strncasecmp (ascii "Proxy-Authorization: ") line
  deriving Decidable

/-- The credential in a line of the header of a `CONNECT` request. -/
def readCredential (P : Platform) (line : Bytes) : Except Fault CredentialLine :=
  if IsCredential line then
    if line.length < 27 then .ok .invalid
    else match authKeyOf (P.base64Decode (line.drop 27)) with
      | .error x => .error x
      | .ok none => .ok .noAccount
      | .ok (some authKey) => .ok (.key authKey)
  else .ok .other

variable {P : Platform}

/-! ## Comparisons -/

/-- A comparison that stays within the line does not see what follows. -/
theorem strncasecmp_append {p l : Bytes} (h : p.length ≤ l.length) (r : Bytes) :
    strncasecmp p (l ++ r) = strncasecmp p l := by
  simp only [strncasecmp, List.take_append_of_le_length h]

/-- A byte that is no letter is compared as it is. -/
theorem eq_of_tolower {b d : UInt8} (hd : d < 97) (h : tolower b = d) : b = d := by
  rw [tolower] at h
  split at h
  · next hupper =>
    have hlower := hupper.1
    have hle := hupper.2
    simp only [UInt8.le_iff_toNat_le, UInt8.lt_iff_toNat_lt, ← UInt8.toNat_inj, UInt8.toNat_add,
      UInt8.reduceToNat] at hd h hlower hle
    omega
  · exact h

/-- What is compared, in any case, is found. -/
theorem strncasecmp_of_map {p q : Bytes} (h : q.map tolower = p.map tolower) (r : Bytes) :
    strncasecmp p (q ++ r) = true := by
  have hlength : q.length = p.length := by
    simpa using congrArg List.length h
  refine decide_eq_true ?_
  rw [List.take_left' hlength, h]

theorem length_le_of_strncasecmp {p t : Bytes} (h : strncasecmp p t = true) :
    p.length ≤ t.length := by
  have hlength := congrArg List.length (of_decide_eq_true h)
  simp only [List.length_map, List.length_take] at hlength
  omega

/-- What begins a text begins it with all of its beginnings. -/
theorem strncasecmp_of_begins {p q t : Bytes} (hpq : p <+: q) (h : strncasecmp q t = true) :
    strncasecmp p t = true := by
  obtain ⟨q, rfl⟩ := hpq
  have heq : (t.take (p ++ q).length).map tolower = (p ++ q).map tolower := of_decide_eq_true h
  refine decide_eq_true ?_
  have htake := congrArg (List.take p.length) heq
  simpa [← List.map_take, List.take_take] using htake

/-- A byte behind a line does not match what is compared. -/
theorem strncasecmp_of_lt {p l : Bytes} {b : UInt8} (hp : tolower b ∉ p.map tolower)
    (h : l.length < p.length) (r : Bytes) : strncasecmp p (l ++ b :: r) = false := by
  have hmem : tolower b ∈ ((l ++ b :: r).take p.length).map tolower := by
    refine List.mem_map_of_mem ?_
    obtain ⟨i, hi⟩ := Nat.exists_eq_add_of_lt h
    rw [List.take_append, List.mem_append, show p.length - l.length = i + 1 by omega]
    exact .inr List.mem_cons_self
  exact decide_eq_false fun heq => hp (heq ▸ hmem)

/-- A comparison ends with a byte that is not in what is compared. -/
theorem strncasecmp_append_cons {p l : Bytes} {b : UInt8} (hp : tolower b ∉ p.map tolower)
    (r : Bytes) : strncasecmp p (l ++ b :: r) = strncasecmp p l := by
  rcases Nat.lt_or_ge l.length p.length with hlt | hge
  · rw [strncasecmp_of_lt hp hlt]
    refine (eq_false_of_ne_true fun h => ?_).symm
    exact absurd (length_le_of_strncasecmp h) (by omega)
  · exact strncasecmp_append hge _

/-! ## Keys -/

/-- A key is an account, the separator and a password. -/
theorem authKeyOf_eq_some {a k : Bytes} (h : authKeyOf a = .ok (some k)) :
    ∃ account pass, account ≠ [] ∧ k = account ++ 0 :: pass := by
  unfold authKeyOf at h
  split at h
  · cases h
  · next n hn =>
    split at h
    · cases h
    · next hn0 =>
      cases h
      refine ⟨a.take n, a.drop (n + 1), fun htake => ?_, ?_⟩
      · rcases List.take_eq_nil_iff.1 htake with h0 | rfl
        · exact hn0 h0
        · exact absurd (find_eq_some hn).1 (Nat.not_lt_zero n)
      · rw [List.set_eq_take_append_cons_drop, if_pos (find_eq_some hn).1]

theorem authKeyOf_ne_nil {a k : Bytes} (h : authKeyOf a = .ok (some k)) : k ≠ [] := by
  obtain ⟨account, pass, -, rfl⟩ := authKeyOf_eq_some h
  simp

theorem readCredential_ne_nil {line k : Bytes} (h : readCredential P line = .ok (.key k)) :
    k ≠ [] := by
  rw [readCredential] at h
  split at h
  · split at h
    · cases h
    · split at h
      · cases h
      · cases h
      · next hauth =>
        cases h
        exact authKeyOf_ne_nil hauth
  · cases h

/-! ## The header of a CONNECT request -/

section

variable {l r s k : Bytes} {n m : ℕ}

theorem length_proxyAuthorization : (ascii "Proxy-Authorization: ").length = 21 := by
  with_unfolding_all decide

theorem length_basic : (ascii "Basic ").length = 6 := by
  with_unfolding_all decide

theorem not_mem_basic : 13 ∉ (ascii "Basic ").map tolower := by
  with_unfolding_all decide

/-- A line end does not match a letter. -/
theorem strncasecmp_basic_of_lt (h : l.length < 6) (r : Bytes) :
    strncasecmp (ascii "Basic ") (l ++ 13 :: r) = false :=
  strncasecmp_of_lt not_mem_basic (by rwa [length_basic]) r

/-- A turn of the loop. -/
theorem rawHeaderLoop_succ : rawHeaderLoop P (n + 1) s k m = match findCrlf s with
    | none => .ok (.wait m)
    | some lineEndIndex =>
      if lineEndIndex = 0 then
        if k = [] then .ok .unauthorized else .ok (.authenticate k (m + 2))
      else if 21 < lineEndIndex ∧ strncasecmp (ascii "Proxy-Authorization: ") s then
        if lineEndIndex - 21 < 6 ∧ !strncasecmp (ascii "Basic ") (s.drop 21) then .ok .invalid
        else match base64DecodeAt P ((s.drop 21).drop 6) (sub64 (lineEndIndex - 21) 6) with
          | .error x => .error x
          | .ok decoded => match authKeyOf decoded with
            | .error x => .error x
            | .ok none => .ok .notFound
            | .ok (some authKey) =>
              rawHeaderLoop P n (s.drop (lineEndIndex + 2)) authKey (m + (lineEndIndex + 2))
      else rawHeaderLoop P n (s.drop (lineEndIndex + 2)) k (m + (lineEndIndex + 2)) := (rfl)

/-- A turn on a line. -/
theorem rawHeaderLoop_line (hl : findCrlf l = none) (hne : l ≠ []) :
    rawHeaderLoop P (n + 1) (l ++ 13 :: 10 :: r) k m = match readCredential P l with
      | .error x => .error x
      | .ok .other => rawHeaderLoop P n r k (m + (l.length + 2))
      | .ok .invalid => .ok .invalid
      | .ok .noAccount => .ok .notFound
      | .ok (.key authKey) => rawHeaderLoop P n r authKey (m + (l.length + 2)) := by
  have hdrop : (l ++ 13 :: 10 :: r).drop (l.length + 2) = r := by
    rw [List.drop_append]; simp
  have hlen : l.length ≠ 0 := fun h => hne (List.eq_nil_of_length_eq_zero h)
  have hcred : (21 < l.length ∧ strncasecmp (ascii "Proxy-Authorization: ")
      (l ++ 13 :: 10 :: r)) ↔ IsCredential l := by
    refine and_congr_right fun h => ?_
    rw [strncasecmp_append (by rw [length_proxyAuthorization]; omega)]
  rw [rawHeaderLoop_succ, findCrlf_line hl r]
  simp only [if_neg hlen, hdrop, hcred, readCredential]
  split
  · next hc =>
    have hauth : (l ++ 13 :: 10 :: r).drop 21 = l.drop 21 ++ 13 :: 10 :: r :=
      List.drop_append_of_le_length (Nat.le_of_lt hc.1)
    rw [hauth]
    by_cases h27 : l.length < 27
    · have hshort : l.length - 21 < 6 := by omega
      have hbasic := strncasecmp_basic_of_lt (l := l.drop 21) (by rw [List.length_drop]; exact hshort)
        (10 :: r)
      simp [h27, hshort, hbasic]
    · have hlong : ¬l.length - 21 < 6 := by omega
      have hdec : base64DecodeAt P ((l.drop 21 ++ 13 :: 10 :: r).drop 6) (sub64 (l.length - 21) 6) =
          .ok (P.base64Decode (l.drop 27)) := by
        rw [sub64_of_le (by omega), List.drop_append_of_le_length (by rw [List.length_drop]; omega),
          List.drop_drop, base64DecodeAt, if_neg (by simp; omega)]
        rw [List.take_append_of_le_length (by rw [List.length_drop]; omega), List.take_of_length_le
          (by rw [List.length_drop]; omega)]
      simp only [h27, hlong, false_and, if_false, hdec]
      cases authKeyOf (P.base64Decode (l.drop 27)) with
      | error x => rfl
      | ok key => cases key with
        | none => rfl
        | some authKey => rfl
  · rfl

/-- The turn at the end of the header. -/
theorem rawHeaderLoop_end : rawHeaderLoop P (n + 1) (13 :: 10 :: r) k m =
    if k = [] then .ok .unauthorized else .ok (.authenticate k (m + 2)) := by
  rw [rawHeaderLoop_succ, findCrlf_crlf]
  exact if_pos rfl

/-- The turn on an incomplete line. -/
theorem rawHeaderLoop_rest (hs : findCrlf s = none) :
    rawHeaderLoop P (n + 1) s k m = .ok (.wait m) := by
  rw [rawHeaderLoop_succ, hs]

end

/-! ## The header of another request -/

section

variable {l r s k : Bytes} {n m : ℕ} {http : HttpData}

/-- Two beginnings of a line agree. -/
theorem strncasecmp_agree {p q : Bytes} (hp : strncasecmp p l = true) (hq : strncasecmp q l = true)
    (h : p.length ≤ q.length) : (q.map tolower).take p.length = p.map tolower := by
  rw [strncasecmp, decide_eq_true_eq] at hp hq
  rw [← hq, ← hp, ← List.map_take, List.take_take, Nat.min_eq_left h]

/-- A line with a credential is none of those looked for before it. -/
theorem IsCredential.not_connection (h : IsCredential l) :
    strncasecmp (ascii "Proxy-Connection: ") l = false ∧
      strncasecmp (ascii "Connection: ") l = false := by
  constructor
  · refine eq_false_of_ne_true fun hp => ?_
    exact absurd (strncasecmp_agree hp h.2 (by with_unfolding_all decide)) (by with_unfolding_all decide)
  · refine eq_false_of_ne_true fun hp => ?_
    exact absurd (strncasecmp_agree hp h.2 (by with_unfolding_all decide)) (by with_unfolding_all decide)

/-- A turn on a line, of which the last piece is `l`. -/
theorem normalHeaderLoop_line (hl : findCrlf l = none)
    (hne : ¬(l = [] ∧ http.tempHeaderLine = [])) :
    normalHeaderLoop P (n + 1) (l ++ 13 :: 10 :: r) http k m =
      match processHeaderLine P { http with tempHeaderLine := http.tempHeaderLine ++ l } k
        l.length with
      | .error x => .error x
      | .ok (.refused reply) =>
        .ok (.refused { http with tempHeaderLine := http.tempHeaderLine ++ l } reply)
      | .ok (.next http authKey) =>
        normalHeaderLoop P n r { http with tempHeaderLine := [] } authKey (m + (l.length + 2)) := by
  have hdrop : (l ++ 13 :: 10 :: r).drop (l.length + 2) = r := by
    rw [List.drop_append]; simp
  have htake : (l ++ 13 :: 10 :: r).take l.length = l := List.take_left
  have hlen : ¬(l.length = 0 ∧ http.tempHeaderLine = []) := by
    rwa [List.length_eq_zero_iff]
  rw [normalHeaderLoop, findCrlf_line hl r]
  refine (if_neg hlen).trans ?_
  rewrite [hdrop, htake]
  rfl

/-- The turn at the end of the header. -/
theorem normalHeaderLoop_end (ht : http.tempHeaderLine = []) :
    normalHeaderLoop P (n + 1) (13 :: 10 :: r) http k m = .ok (.finished http k (m + 2)) := by
  rw [normalHeaderLoop, findCrlf_crlf]
  exact if_pos ⟨rfl, ht⟩

/-- The turn on an incomplete line. -/
theorem normalHeaderLoop_rest (hs : findCrlf s = none) :
    normalHeaderLoop P (n + 1) s http k m =
      .ok (.wait { http with tempHeaderLine := http.tempHeaderLine ++ s }) := by
  rw [normalHeaderLoop, hs]

end

end ProxyPlatform.ProxyAccessService
