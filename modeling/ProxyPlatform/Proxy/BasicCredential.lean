import ProxyPlatform.Proxy.HeaderFilter
import ProxyPlatform.Proxy.Segments

/-!
# Basic credentials

Both processors of a header look for the credential of the client in the line with the field
`Proxy-Authorization`, each with its own copy of the code. The value of the field should be the
scheme `Basic` and the encoding of an account, a colon and a password.

* `rawOutcome`, `normalOutcome`: what the loops over a header come to, as far as its credential is
  concerned: the key that `requestAuthentication` is called with, or a refusal;
* `rawOutcome_header`, `normalOutcome_header`: both read the line as `readCredential` does, and
  differ only if it finds no credential there;
* `IsAuthorizationLine.readCredential`: what is read of a value;
* `extractsCredential_iff`: the key is made of the account and the password, and any other value
  refused, if and only if the value is a credential, or too short for one, or what it decodes to
  begins with a colon.

The scheme is not compared in a value of six bytes or more, and what has no colon is not refused
but written to behind its end.
-/

namespace ProxyPlatform.ProxyAccessService

variable {P : Platform}

/-! ## Outcomes -/

/-- What a header comes to, as far as its credential is concerned. -/
inductive CredentialOutcome
  /-- There are lines to come. -/
  | goesOn
  /-- The client is answered that it is refused, or is closed. -/
  | refuses
  /-- The key is looked up. -/
  | requests (authKey : Bytes)
  deriving DecidableEq

def RawHeaderExit.outcome : RawHeaderExit → CredentialOutcome
  | .wait _ => .goesOn
  | .invalid | .notFound | .unauthorized => .refuses
  | .authenticate authKey _ => .requests authKey

def NormalHeaderExit.outcome : NormalHeaderExit → CredentialOutcome
  | .wait _ => .goesOn
  | .refused _ _ => .refuses
  | .finished _ authKey _ => .requests authKey

/-- What `onHttpRawHeaderProcessor` does with a header. -/
def rawOutcome (P : Platform) (data : Bytes) : Except Fault CredentialOutcome :=
  (rawHeaderLoop P (data.length + 1) data [] 0).map RawHeaderExit.outcome

/-- What `onHttpNormalHeaderProcessor` does with a header. -/
def normalOutcome (P : Platform) (http : HttpData) (data : Bytes) :
    Except Fault CredentialOutcome :=
  (normalHeaderLoop P (data.length + 1) data http [] 0).map NormalHeaderExit.outcome

def HeaderScan.outcome : HeaderScan → CredentialOutcome
  | .more _ => .goesOn
  | .refused _ _ => .refuses
  | .ends _ authKey => .requests authKey

/-- What a line says of the credential decides the outcome, unless it says nothing: then it is
    `other`. -/
def CredentialLine.outcome (other : CredentialOutcome) : CredentialLine → CredentialOutcome
  | .other => other
  | .invalid | .noAccount => .refuses
  | .key authKey => .requests authKey

@[simp] theorem outcome_prepend (text : Bytes) (x : HeaderScan) :
    (x.prepend text).outcome = x.outcome := by
  cases x <;> rfl

variable {http : HttpData} {k l x : Bytes} {pre post ls : List Bytes} {n m : ℕ}

theorem map_outcome_prepend (text : Bytes) (scan : Except Fault HeaderScan) :
    (scan.map (.prepend text)).map HeaderScan.outcome = scan.map HeaderScan.outcome := by
  rcases scan with x | x
  · rfl
  · exact congrArg Except.ok (outcome_prepend text x)

/-- The outcome of the loop is that of the lines it finds. -/
theorem ComesTo.outcome {loop : Except Fault NormalHeaderExit} {scan : Except Fault HeaderScan}
    (h : ComesTo m http loop scan) :
    loop.map NormalHeaderExit.outcome = scan.map HeaderScan.outcome := by
  rcases scan with x | (text | ⟨text, line⟩ | ⟨text, authKey⟩)
  · rw [show loop = .error x from h]
    rfl
  · obtain ⟨temp, len, rfl⟩ := h
    rfl
  · obtain ⟨reply, len, -, rfl⟩ := h
    rfl
  · obtain ⟨j, len, -, rfl⟩ := h
    rfl

/-! ## Headers -/

/-- A header with these lines, and what follows it. -/
def header (lines : List Bytes) (rest : Bytes) : Bytes :=
  lines.flatMap (· ++ [13, 10]) ++ 13 :: 10 :: rest

/-- A line of a header that is another field. -/
structure IsOtherLine (line : Bytes) : Prop where
  ne_nil : line ≠ []
  whole : findCrlf line = none
  name : ¬HasName "Proxy-Authorization:" line

theorem splitLines_header (h : ∀ l ∈ ls, findCrlf l = none) (rest : Bytes) :
    (splitLines (header ls rest)).1 = ls ++ [] :: (splitLines rest).1 := by
  induction ls with
  | nil => exact congrArg Prod.fst (splitLines_line rfl rest)
  | cons l ls ih =>
    obtain ⟨hl, hls⟩ := List.forall_mem_cons.1 h
    have hparts : header (l :: ls) rest = l ++ 13 :: 10 :: header ls rest := by
      simp [header]
    rw [hparts, splitLines_line hl, ih hls, List.cons_append]

theorem IsOtherLine.readCredential (h : IsOtherLine l) : readCredential P l = .ok .other :=
  if_neg fun hcred => h.name hcred.hasName

/-- The last piece of a line is the whole line, if there was none before. -/
theorem readPiece_length (l : Bytes) : readPiece P l l.length = readCredential P l := by
  rw [readPiece, ProxyAccessService.readCredential]
  by_cases hcred : IsCredential l
  · rw [if_pos hcred, if_pos hcred]
    have hlt := hcred.1
    dsimp only
    rw [sub64_of_le (by omega)]
    by_cases hshort : l.length < 27
    · have hbasic : strncasecmp (ascii "Basic ") (l.drop 21) = false := by
        refine eq_false_of_ne_true fun h => ?_
        have hlength := length_le_of_strncasecmp h
        rw [length_basic, List.length_drop] at hlength
        omega
      rw [if_pos ⟨by omega, by rw [hbasic]; rfl⟩, if_pos hshort]
    · have hlong : ¬l.length - 21 < 6 := by omega
      rewrite [if_neg fun h => hlong h.1, if_neg hshort, sub64_of_le (by omega), List.drop_drop,
        base64DecodeAt, if_neg (by rw [List.length_drop]; omega),
        List.take_of_length_le (by rw [List.length_drop]; omega)]
      rfl
  · rw [if_neg hcred, if_neg hcred]

theorem IsOtherLine.readPiece (h : IsOtherLine l) : readPiece P l l.length = .ok .other := by
  rw [readPiece_length, h.readCredential]

/-! ### The header of a CONNECT request -/

theorem scanHeader_other (h : ∀ l ∈ ls, IsOtherLine l) : scanHeader P ls = .ok .more := by
  induction ls with
  | nil => rfl
  | cons l ls ih =>
    obtain ⟨hl, hls⟩ := List.forall_mem_cons.1 h
    rw [scanHeader, if_neg hl.ne_nil, hl.readCredential]
    exact ih hls

theorem lastKey_other (h : ∀ l ∈ ls, IsOtherLine l) : lastKey P k ls = k := by
  induction ls with
  | nil => rfl
  | cons l ls ih =>
    obtain ⟨hl, hls⟩ := List.forall_mem_cons.1 h
    rw [lastKey, if_neg hl.ne_nil, hl.readCredential]
    exact ih hls

/-- What a complete header comes to with the last of its keys. -/
def keyOutcome (authKey : Bytes) : CredentialOutcome :=
  if authKey = [] then .refuses else .requests authKey

/-- The loop comes to what the lines come to. -/
theorem rawOutcome_eq (data : Bytes) :
    rawOutcome P data = match scanHeader P (splitLines data).1 with
      | .error x => .error x
      | .ok .more => .ok .goesOn
      | .ok .ends => .ok (keyOutcome (lastKey P [] (splitLines data).1))
      | .ok .invalid | .ok .notFound => .ok .refuses := by
  obtain ⟨j, hloop⟩ := rawHeaderLoop_eq (P := P) (k := []) 0 (Nat.lt_succ_self data.length)
  rw [rawOutcome, hloop]
  rcases scanHeader P (splitLines data).1 with x | (_ | _ | _ | _)
  · rfl
  · rfl
  · dsimp only
    rw [keyOutcome]
    split <;> rfl
  · rfl
  · rfl

/-- The lines around the credential are lines. -/
theorem findCrlf_lines (hpre : ∀ l ∈ pre, IsOtherLine l) (hl : findCrlf l = none)
    (hpost : ∀ l ∈ post, IsOtherLine l) : ∀ l' ∈ pre ++ l :: post, findCrlf l' = none := by
  rw [List.forall_mem_append, List.forall_mem_cons]
  exact ⟨fun l' hl' => (hpre l' hl').whole, hl, fun l' hl' => (hpost l' hl').whole⟩

/-- The line with the credential decides the outcome; a header without one is refused. -/
theorem rawOutcome_header (hpre : ∀ l ∈ pre, IsOtherLine l) (hpost : ∀ l ∈ post, IsOtherLine l)
    (hl : findCrlf l = none) (hne : l ≠ []) (rest : Bytes) :
    rawOutcome P (header (pre ++ l :: post) rest) =
      (readCredential P l).map (CredentialLine.outcome .refuses) := by
  have hlines := findCrlf_lines hpre hl hpost
  -- What is behind the line comes to the end of the header, with the key there is.
  have hends : ∀ key, scanHeader P (post ++ [] :: (splitLines rest).1) = .ok .ends ∧
      lastKey P key (post ++ [] :: (splitLines rest).1) = key := by
    intro key
    rw [scanHeader_append (scanHeader_other hpost), lastKey_append (scanHeader_other hpost),
      lastKey_other hpost]
    exact ⟨rfl, rfl⟩
  rw [rawOutcome_eq, splitLines_header hlines, List.append_assoc, List.cons_append,
    scanHeader_append (scanHeader_other hpre), lastKey_append (scanHeader_other hpre),
    lastKey_other hpre, scanHeader, lastKey, if_neg hne, if_neg hne]
  rcases hread : readCredential P l with e | (_ | _ | _ | key)
  · rfl
  · dsimp only
    rw [(hends []).1, (hends []).2]
    rfl
  · rfl
  · rfl
  · dsimp only
    rw [(hends key).1, (hends key).2]
    dsimp only
    rw [keyOutcome, if_neg (readCredential_ne_nil hread)]
    rfl

/-! ### The header of another request -/

theorem scanNormal_other (h : ∀ l ∈ pre, IsOtherLine l) (ls : List Bytes) :
    (scanNormal P [] k (pre ++ ls)).map HeaderScan.outcome =
      (scanNormal P [] k ls).map HeaderScan.outcome := by
  induction pre with
  | nil => rfl
  | cons l pre ih =>
    obtain ⟨hl, hpre⟩ := List.forall_mem_cons.1 h
    rw [List.cons_append, scanNormal, if_neg fun hnil => hl.ne_nil hnil.1, List.nil_append,
      hl.readPiece]
    dsimp only
    rw [map_outcome_prepend, ih hpre]

/-- The line with the credential decides the outcome; a header without one is let through. -/
theorem normalOutcome_header (hpre : ∀ l ∈ pre, IsOtherLine l) (hpost : ∀ l ∈ post, IsOtherLine l)
    (hl : findCrlf l = none) (hne : l ≠ []) (htemp : http.tempHeaderLine = []) (rest : Bytes) :
    normalOutcome P http (header (pre ++ l :: post) rest) =
      (readCredential P l).map (CredentialLine.outcome (.requests [])) := by
  have hlines := findCrlf_lines hpre hl hpost
  have hloop : ComesTo 0 http (normalHeaderLoop P _ (header (pre ++ l :: post) rest) http [] 0) _ :=
    normalHeaderLoop_scan (Nat.lt_succ_self _)
  have hends : ∀ key, (scanNormal P [] key (post ++ [] :: (splitLines rest).1)).map
      HeaderScan.outcome = .ok (.requests key) := by
    intro key
    rw [scanNormal_other hpost, scanNormal, if_pos ⟨rfl, rfl⟩]
    rfl
  rw [normalOutcome, hloop.outcome, htemp, splitLines_header hlines, List.append_assoc,
    List.cons_append, scanNormal_other hpre, scanNormal, if_neg fun hnil => hne hnil.1,
    List.nil_append, readPiece_length]
  rcases readCredential P l with e | (_ | _ | _ | key)
  · rfl
  · exact (map_outcome_prepend _ _).trans (hends [])
  · rfl
  · rfl
  · exact (map_outcome_prepend _ _).trans (hends key)

/-! ## Values -/

/-- The line is the field with the value `v`, which `sep` stands before: a space, or nothing. -/
structure IsAuthorizationLine (line sep v : Bytes) : Prop where
  name : ∃ field, field.map tolower = (ascii "Proxy-Authorization:").map tolower ∧
    line = field ++ (sep ++ v)
  sep : sep = [32] ∨ sep = [] ∧ v.head? ≠ some 32
  whole : findCrlf line = none

/-- The value is the credential of the account `u` with the password `p`. -/
def IsBasicCredential (encode : Bytes → Bytes) (v u p : Bytes) : Prop :=
  u ≠ [] ∧ 58 ∉ u ∧ ∃ scheme, scheme.map tolower = (ascii "Basic ").map tolower ∧
    v = scheme ++ encode (u ++ 58 :: p)

/-- Both processors extract the credential from a header with the value `v`, or refuse it. -/
def ExtractsCredential (P : Platform) (encode : Bytes → Bytes) (http : HttpData)
    (data v : Bytes) : Prop :=
  (∀ u p, IsBasicCredential encode v u p →
    rawOutcome P data = .ok (.requests (combineAccountPass u p)) ∧
      normalOutcome P http data = .ok (.requests (combineAccountPass u p))) ∧
  ((¬∃ u p, IsBasicCredential encode v u p) →
    rawOutcome P data = .ok .refuses ∧ normalOutcome P http data = .ok .refuses)

variable {line sep v u p : Bytes} {encode : Bytes → Bytes}

theorem length_of_map_tolower {s t : Bytes} (h : s.map tolower = t.map tolower) :
    s.length = t.length := by
  simpa using congrArg List.length h

theorem length_proxyAuthorization_field {field : Bytes}
    (h : field.map tolower = (ascii "Proxy-Authorization:").map tolower) : field.length = 20 :=
  (length_of_map_tolower h).trans (by with_unfolding_all decide)

theorem IsAuthorizationLine.ne_nil (h : IsAuthorizationLine line sep v) : line ≠ [] := by
  obtain ⟨field, hfield, rfl⟩ := h.name
  have hlength := length_proxyAuthorization_field hfield
  intro hnil
  rw [(List.append_eq_nil_iff.1 hnil).1] at hlength
  cases hlength

/-- Without the space, it is not known as a credential. -/
theorem IsAuthorizationLine.not_isCredential (h : IsAuthorizationLine line [] v) :
    ¬IsCredential line := by
  obtain ⟨field, hfield, rfl⟩ := h.name
  have hlength := length_proxyAuthorization_field hfield
  have hhead : v.head? ≠ some 32 := by
    rcases h.sep with hsep | hsep
    · cases hsep
    · exact hsep.2
  rintro ⟨hlt, hname⟩
  have heq : ((field ++ ([] ++ v)).take 21).map tolower =
      (ascii "Proxy-Authorization: ").map tolower := by
    rw [← length_proxyAuthorization]
    exact of_decide_eq_true hname
  have hspace := congrArg (fun x => x[20]?) heq
  cases v with
  | nil => simp [hlength] at hlt
  | cons b v =>
    have hb : tolower b = 32 := by
      have hget : ((ascii "Proxy-Authorization: ").map tolower)[20]? = some 32 := by decide +kernel
      rw [hget] at hspace
      simpa [hlength, List.getElem?_append] using hspace
    exact hhead (congrArg some (eq_of_tolower (by decide) hb))

/-- Behind a space, it is known as a credential if there is one. -/
theorem IsAuthorizationLine.isCredential (h : IsAuthorizationLine line [32] v) (hv : v ≠ []) :
    IsCredential line ∧ line.length = 21 + v.length ∧ line.drop 27 = v.drop 6 := by
  obtain ⟨field, hfield, rfl⟩ := h.name
  have hlength := length_proxyAuthorization_field hfield
  have hpos := List.length_pos_iff.2 hv
  refine ⟨⟨by simp; omega, decide_eq_true ?_⟩, by simp; omega, ?_⟩
  · rw [length_proxyAuthorization, List.take_append, hlength, List.take_of_length_le (by omega),
      List.map_append, hfield]
    exact (by with_unfolding_all decide : (ascii "Proxy-Authorization:").map tolower ++
      [tolower 32] = (ascii "Proxy-Authorization: ").map tolower)
  · rw [List.drop_append, hlength, List.drop_eq_nil_of_le (by omega)]
    rfl

/-- What is read of a value. -/
theorem IsAuthorizationLine.readCredential (h : IsAuthorizationLine line [32] v) (hv : v ≠ []) :
    ProxyAccessService.readCredential P line = if v.length < 6 then .ok .invalid
      else match authKeyOf (P.base64Decode (v.drop 6)) with
        | .error x => .error x
        | .ok none => .ok .noAccount
        | .ok (some authKey) => .ok (.key authKey) := by
  obtain ⟨hcred, hlength, hdrop⟩ := h.isCredential hv
  have hshort : line.length < 27 ↔ v.length < 6 := by omega
  rw [ProxyAccessService.readCredential, if_pos hcred, hdrop]
  by_cases hlong : v.length < 6
  · rw [if_pos (hshort.2 hlong), if_pos hlong]
  · rewrite [if_neg (mt hshort.1 hlong), if_neg hlong]
    rfl

theorem authKeyOf_account (hu : u ≠ []) (hcolon : 58 ∉ u) (p : Bytes) :
    authKeyOf (u ++ 58 :: p) = .ok (some (combineAccountPass u p)) := by
  rw [authKeyOf, find_append_cons hcolon]
  dsimp only
  rw [if_neg (by rwa [List.length_eq_zero_iff]), List.set_append_right _ _ le_rfl, Nat.sub_self]
  rfl

theorem authKeyOf_none_iff {a : Bytes} : authKeyOf a = .ok none ↔ find 58 a = some 0 := by
  rw [authKeyOf]
  rcases find 58 a with _ | n
  · simp
  · by_cases hn : n = 0 <;> simp [hn]

/-- Both processors extract the credential, or refuse the value, if and only if a space stands
    before the value, and it is a credential, or one of the values that are refused. -/
theorem extractsCredential_iff (hdecode : ∀ d, P.base64Decode (encode d) = d)
    (hline : IsAuthorizationLine line sep v) (hpre : ∀ l ∈ pre, IsOtherLine l)
    (hpost : ∀ l ∈ post, IsOtherLine l) (htemp : http.tempHeaderLine = []) (rest : Bytes) :
    ExtractsCredential P encode http (header (pre ++ line :: post) rest) v ↔
      sep = [32] ∧ ((∃ u p, IsBasicCredential encode v u p) ∨
        v ≠ [] ∧ (v.length < 6 ∨ find 58 (P.base64Decode (v.drop 6)) = some 0)) := by
  rw [ExtractsCredential, rawOutcome_header hpre hpost hline.whole hline.ne_nil,
    normalOutcome_header hpre hpost hline.whole hline.ne_nil htemp]
  -- A line that is not known as a credential is refused by the one, and let through by the other.
  have hunknown : ¬IsCredential line → ¬((∀ u p, IsBasicCredential encode v u p →
      (ProxyAccessService.readCredential P line).map (CredentialLine.outcome .refuses) =
          .ok (.requests (combineAccountPass u p)) ∧
        (ProxyAccessService.readCredential P line).map (CredentialLine.outcome (.requests [])) =
          .ok (.requests (combineAccountPass u p))) ∧
      ((¬∃ u p, IsBasicCredential encode v u p) →
        (ProxyAccessService.readCredential P line).map (CredentialLine.outcome .refuses) =
            .ok .refuses ∧
          (ProxyAccessService.readCredential P line).map (CredentialLine.outcome (.requests [])) =
            .ok .refuses)) := by
    rintro hcred ⟨hbasic, hother⟩
    rw [ProxyAccessService.readCredential, if_neg hcred] at hbasic hother
    by_cases hex : ∃ u p, IsBasicCredential encode v u p
    · obtain ⟨u, p, hex⟩ := hex
      cases (hbasic u p hex).1
    · cases (hother hex).2
  rcases hline.sep with rfl | ⟨rfl, -⟩
  swap
  · exact iff_of_false (hunknown hline.not_isCredential) fun h => by cases h.1
  by_cases hv : v = []
  · subst hv
    refine iff_of_false (hunknown fun hcred => ?_) ?_
    · obtain ⟨field, hfield, rfl⟩ := hline.name
      have hlength := length_proxyAuthorization_field hfield
      have hlt := hcred.1
      simp [hlength] at hlt
    · rintro ⟨-, ⟨u, p, -, -, scheme, hscheme, hnil⟩ | ⟨hne, -⟩⟩
      · rw [(List.append_eq_nil_iff.1 hnil.symm).1] at hscheme
        exact absurd (length_of_map_tolower hscheme) (by with_unfolding_all decide)
      · exact hne rfl
  rw [hline.readCredential hv, and_iff_right rfl, and_iff_right hv]
  by_cases hex : ∃ u p, IsBasicCredential encode v u p
  · refine iff_of_true ⟨fun u p hbasic => ?_, fun h => absurd hex h⟩ (.inl hex)
    obtain ⟨hu, hcolon, scheme, hscheme, rfl⟩ := hbasic
    have hlength : scheme.length = 6 := (length_of_map_tolower hscheme).trans length_basic
    have hdrop : (scheme ++ encode (u ++ 58 :: p)).drop 6 = encode (u ++ 58 :: p) := by
      rw [← hlength, List.drop_left]
    have hlong : ¬(scheme ++ encode (u ++ 58 :: p)).length < 6 := by
      rw [List.length_append]
      omega
    rw [if_neg hlong, hdrop, hdecode, authKeyOf_account hu hcolon]
    exact ⟨rfl, rfl⟩
  rw [or_iff_right hex, and_iff_right_of_imp fun _ u p hbasic => absurd ⟨u, p, hbasic⟩ hex,
    forall_prop_of_true hex]
  by_cases hshort : v.length < 6
  · rw [if_pos hshort]
    exact iff_of_true ⟨rfl, rfl⟩ (.inl hshort)
  rw [if_neg hshort, or_iff_right hshort, ← authKeyOf_none_iff]
  rcases authKeyOf (P.base64Decode (v.drop 6)) with x | (_ | key)
  · exact iff_of_false (fun h => by cases h.1) fun h => by cases h
  · exact iff_of_true ⟨rfl, rfl⟩ rfl
  · exact iff_of_false (fun h => by cases h.1) fun h => by cases h

/-- An encoding of which two values are those of base64. -/
def sampleEncode (d : Bytes) : Bytes :=
  if d = ascii "a:b" then ascii "YTpi" else if d = ascii "ab" then ascii "YWI=" else 0 :: d

/-- A platform that decodes it. -/
def samplePlatform : Platform where
  __ := credentialPlatform
  base64Decode s :=
    if s = ascii "YTpi" then ascii "a:b" else if s = ascii "YWI=" then ascii "ab" else s.tail

theorem base64Decode_sampleEncode (d : Bytes) :
    samplePlatform.base64Decode (sampleEncode d) = d := by
  have hne : ∀ s, (s = ascii "YTpi" ∨ s = ascii "YWI=") → (0 :: d) ≠ s := by
    rintro s hs rfl
    have hhead : (0 : UInt8) = 89 := by
      rcases hs with hs | hs
      · exact Option.some.inj ((congrArg List.head? hs).trans (by with_unfolding_all decide))
      · exact Option.some.inj ((congrArg List.head? hs).trans (by with_unfolding_all decide))
    exact absurd hhead (by decide)
  change (if sampleEncode d = _ then _ else if sampleEncode d = _ then _ else (sampleEncode d).tail) = d
  rw [sampleEncode]
  by_cases h₁ : d = ascii "a:b"
  · rw [if_pos h₁, if_pos rfl, h₁]
  by_cases h₂ : d = ascii "ab"
  · rw [if_neg h₁, if_pos h₂, if_neg (by with_unfolding_all decide), if_pos rfl, h₂]
  · rw [if_neg h₁, if_neg h₂, if_neg (hne _ (.inl rfl)), if_neg (hne _ (.inr rfl))]
    rfl

theorem extractsCredential_sample :
    ExtractsCredential samplePlatform sampleEncode {}
      (header ([ascii "Host: b"] ++ ascii "proxy-authorization: bAsic YTpi" :: []) [])
      (ascii "bAsic YTpi") :=
  (extractsCredential_iff base64Decode_sampleEncode
    { name := ⟨ascii "proxy-authorization:", by decide +kernel⟩
      sep := .inl rfl
      whole := by decide +kernel }
    (by
      intro l hl
      rw [List.mem_singleton] at hl
      subst hl
      exact ⟨by decide +kernel, by decide +kernel, by decide +kernel⟩)
    (fun _ h => by cases h) rfl []).2
    ⟨rfl, .inl ⟨ascii "a", ascii "b", by decide +kernel, by decide +kernel, ascii "bAsic ",
      by decide +kernel⟩⟩

/-- The credential of another scheme is looked up. -/
theorem extractsCredential_counterexample :
    (∀ d, samplePlatform.base64Decode (sampleEncode d) = d) ∧
      IsAuthorizationLine (ascii "Proxy-Authorization: Token YTpi") [32] (ascii "Token YTpi") ∧
      ¬ExtractsCredential samplePlatform sampleEncode {}
        (header [ascii "Proxy-Authorization: Token YTpi"] []) (ascii "Token YTpi") := by
  refine ⟨base64Decode_sampleEncode, ⟨⟨ascii "Proxy-Authorization:", by decide +kernel⟩, .inl rfl,
    by decide +kernel⟩, ?_⟩
  rintro ⟨-, hother⟩
  have hscheme : ¬∃ u p, IsBasicCredential sampleEncode (ascii "Token YTpi") u p := by
    rintro ⟨u, p, -, -, scheme, hscheme, heq⟩
    have hlength : scheme.length = 6 := (length_of_map_tolower hscheme).trans length_basic
    have htake : (ascii "Token YTpi").take 6 = scheme := by
      rw [heq, ← hlength, List.take_left]
    rw [← htake] at hscheme
    exact absurd hscheme (by decide +kernel)
  have hrequests : rawOutcome samplePlatform (header [ascii "Proxy-Authorization: Token YTpi"] []) =
      .ok (.requests (combineAccountPass (ascii "a") (ascii "b"))) := by decide +kernel
  rw [(hother hscheme).1] at hrequests
  cases hrequests

end ProxyPlatform.ProxyAccessService
