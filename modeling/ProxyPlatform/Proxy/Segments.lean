import ProxyPlatform.Proxy.Header
import ProxyPlatform.Proxy.Service

/-!
# The HTTP handshake, segment by segment

The transport keeps what a data processor does not consume, and presents it again with
the data that comes next; after a call that consumed something, it presents the rest at
once. `feed` is what it does with a segment: it goes on whatever the client was sent, and
ends only when the data is invalid, as it is for `killConnectionOnData` in any case.

* `feed_of_processed`, `feed_of_rest`: a data processor that leaves nothing, or takes
  nothing, is called once, and otherwise the rest is fed to the next;
* `scanHeader`, `lastKey`: what the lines of the header of a `CONNECT` request come to;
* `rawHeaderLoop_eq`: the loop over these lines, for any beginning of the header;
* `feed_killed`, `exec_feed_killed`: when nothing is expected any more, what comes makes
  no difference;
* `AtRaw.map_exec`: the headers of a `CONNECT` request that come to the same in every cut.
-/

namespace ProxyPlatform

open ProxyAccessService

/-- A client in the handshake. -/
structure Handshake (σ : Type*) where
  service : ProxyAccessService σ
  connection : ClientConnection
  /-- The data received and not consumed. -/
  buffer : Bytes := []
  /-- The data was invalid, and nothing more is presented. -/
  invalid : Bool := false

/-- What a handshake comes to: the calls to the outside, among them the requests for authentication
    and the replies to the client, whether the data was refused as invalid, and the state of the
    connection. -/
structure Outcome where
  calls : List ProxyCall
  invalid : Bool
  targetHost : Bytes
  targetPort : ℕ
  content : Bytes
  dataProcessor : TcpDataProcessor
  deriving DecidableEq

namespace Handshake

variable {σ : Type*} (S : Services σ) (P : Platform)

def outcome (h : Handshake σ) : Outcome where
  calls := h.service.calls
  -- `killConnectionOnData` says nothing about the data.
  invalid := h.invalid && decide (h.connection.dataProcessor ≠ .killConnectionOnData)
  targetHost := h.connection.http.targetHost
  targetPort := h.connection.http.targetPort
  content := h.connection.http.content
  dataProcessor := h.connection.dataProcessor

/-- The data at hand is presented to the data processor, and again as long as some of it is
    consumed, for a number of turns. -/
def present : ℕ → Handshake σ → Except Fault (Handshake σ)
  | 0, _ => .error .noReturn
  | n + 1, h => match processData S P h.service h.connection h.buffer with
    | .error x => .error x
    | .ok (s, c, none) => .ok { h with service := s, connection := c, invalid := true }
    | .ok (s, c, some consumedSize) =>
      let t : Handshake σ := { h with
        service := s
        connection := c
        buffer := h.buffer.drop consumedSize }
      if consumedSize = 0 ∨ t.buffer = [] then .ok t else present n t

/-- A segment arrives. -/
def feed (h : Handshake σ) (segment : Bytes) : Except Fault (Handshake σ) :=
  if h.invalid then .ok h
  else present S P (h.buffer.length + segment.length + 1) { h with buffer := h.buffer ++ segment }

variable {S P} {h t : Handshake σ} {x : Bytes}

/-- Behind invalid data, nothing happens. -/
theorem exec_feed_of_invalid (hinvalid : h.invalid) (segments : List Bytes) :
    exec (feed S P) h segments = .ok h := by
  induction segments with
  | nil => rfl
  | cons x segments ih =>
    have hfeed : feed S P h x = .ok h := if_pos hinvalid
    rw [exec_cons_of_ok _ hfeed, ih]

/-- The number of turns does not matter. -/
theorem present_fuel {n m : ℕ} (hn : h.buffer.length < n) (hm : h.buffer.length < m) :
    present S P n h = present S P m h := by
  induction n generalizing h m with
  | zero => omega
  | succ n ih =>
    obtain ⟨m, rfl⟩ : ∃ k, m = k + 1 := ⟨m - 1, by omega⟩
    simp only [present]
    split
    · rfl
    · rfl
    · next s c k hk =>
      split
      · rfl
      · next hrest =>
        simp only [not_or] at hrest
        have hlength : (h.buffer.drop k).length < h.buffer.length := by
          rw [List.length_drop]
          have := List.length_pos_iff.2 hrest.2
          rw [List.length_drop] at this
          omega
        exact ih (by dsimp only; omega) (by dsimp only; omega)

section

variable {s : ProxyAccessService σ} {c : ClientConnection} {k : ℕ}

/-- What a call of the data processor makes of the handshake, when the data is used up by it, or
    left as it is. -/
theorem feed_of_processed (hinvalid : h.invalid = false)
    (hdata : processData S P h.service h.connection (h.buffer ++ x) = .ok (s, c, some k))
    (hend : k = 0 ∨ (h.buffer ++ x).drop k = []) :
    feed S P h x = .ok { h with
      service := s
      connection := c
      buffer := (h.buffer ++ x).drop k } := by
  rw [feed, if_neg (by simp [hinvalid]), present, hdata]
  exact if_pos hend

theorem feed_of_invalid (hinvalid : h.invalid = false)
    (hdata : processData S P h.service h.connection (h.buffer ++ x) = .ok (s, c, none)) :
    feed S P h x = .ok { h with
      service := s
      connection := c
      buffer := h.buffer ++ x
      invalid := true } := by
  rw [feed, if_neg (by simp [hinvalid]), present, hdata]

theorem feed_of_error {f : Fault} (hinvalid : h.invalid = false)
    (hdata : processData S P h.service h.connection (h.buffer ++ x) = .error f) :
    feed S P h x = .error f := by
  rw [feed, if_neg (by simp [hinvalid]), present, hdata]

/-- When some of the data is left, it is fed to the next data processor. -/
theorem feed_of_rest (hinvalid : h.invalid = false)
    (hdata : processData S P h.service h.connection (h.buffer ++ x) = .ok (s, c, some k))
    (hk : k ≠ 0) (hrest : (h.buffer ++ x).drop k ≠ []) :
    feed S P h x = feed S P { h with service := s, connection := c, buffer := [] }
      ((h.buffer ++ x).drop k) := by
  rw [feed, if_neg (by simp [hinvalid]), present, hdata]
  dsimp only
  rw [if_neg (by simp [hk, hrest]), feed, if_neg (by simp [hinvalid]), List.nil_append]
  have hlength := List.length_pos_iff.2 hrest
  rw [List.length_drop, List.length_append] at hlength
  refine present_fuel ?_ (by dsimp only; omega)
  dsimp only
  rw [List.length_drop, List.length_append]
  omega

/-! ## Connections to be killed -/

/-- When nothing is expected any more, what comes makes no difference. -/
theorem feed_killed (hkill : h.connection.dataProcessor = .killConnectionOnData) (x : Bytes) :
    ∃ t, feed S P h x = .ok t ∧ t.service = h.service ∧ t.connection = h.connection := by
  by_cases hinvalid : h.invalid
  · exact ⟨h, if_pos hinvalid, rfl, rfl⟩
  · have hdata : processData S P h.service h.connection (h.buffer ++ x) =
        .ok (h.service, h.connection, none) := by
      rw [processData, hkill]
    exact ⟨_, feed_of_invalid (Bool.eq_false_iff.2 hinvalid) hdata, rfl, rfl⟩

theorem exec_feed_killed (hkill : h.connection.dataProcessor = .killConnectionOnData)
    (segments : List Bytes) : ∃ t, exec (feed S P) h segments = .ok t ∧ t.service = h.service ∧
      t.connection = h.connection := by
  induction segments generalizing h with
  | nil => exact ⟨h, rfl, rfl, rfl⟩
  | cons x segments ih =>
    obtain ⟨t, ht, hservice, hconnection⟩ := feed_killed (S := S) (P := P) hkill x
    obtain ⟨t', ht', hservice', hconnection'⟩ := ih (h := t) (by rw [hconnection, hkill])
    refine ⟨t', ?_, hservice'.trans hservice, hconnection'.trans hconnection⟩
    rw [exec_cons_of_ok _ ht, ht']

end

end Handshake

/-! ## The header of a CONNECT request -/

namespace ProxyAccessService

/-- What the lines of a header come to, whatever the key. -/
inductive HeaderVerdict
  /-- There are more lines to come. -/
  | more
  /-- The header is complete. -/
  | ends
  | invalid
  /-- A credential has no account. -/
  | notFound
  deriving DecidableEq

variable (P : Platform)

/-- The verdict on the lines of the header of a `CONNECT` request. -/
def scanHeader : List Bytes → Except Fault HeaderVerdict
  | [] => .ok .more
  | l :: ls =>
    if l = [] then .ok .ends
    else match readCredential P l with
      | .error x => .error x
      | .ok .other => scanHeader ls
      | .ok .invalid => .ok .invalid
      | .ok .noAccount => .ok .notFound
      | .ok (.key _) => scanHeader ls

/-- The last key in the lines of the header, or the one there was before. -/
def lastKey (authKey : Bytes) : List Bytes → Bytes
  | [] => authKey
  | l :: ls =>
    if l = [] then authKey
    else match readCredential P l with
      | .ok (.key authKey) => lastKey authKey ls
      | _ => lastKey authKey ls

variable {P} {ls ls' : List Bytes} {k : Bytes}

theorem scanHeader_append (h : scanHeader P ls = .ok .more) :
    scanHeader P (ls ++ ls') = scanHeader P ls' := by
  induction ls with
  | nil => rfl
  | cons l ls ih =>
    rw [scanHeader] at h
    rw [List.cons_append, scanHeader]
    split at h
    · cases h
    · next hl =>
      rw [if_neg hl]
      split at h <;> first | exact ih h | cases h

theorem lastKey_append (h : scanHeader P ls = .ok .more) :
    lastKey P k (ls ++ ls') = lastKey P (lastKey P k ls) ls' := by
  induction ls generalizing k with
  | nil => rfl
  | cons l ls ih =>
    rw [scanHeader] at h
    rw [List.cons_append, lastKey, lastKey]
    split at h
    · cases h
    · next hl =>
      rw [if_neg hl, if_neg hl]
      split at h
      · cases h
      · next hc =>
        rw [hc]
        exact ih h
      · cases h
      · cases h
      · next hc =>
        rw [hc]
        exact ih h

theorem lastKey_append_of_ends (h : scanHeader P ls = .ok .ends) :
    lastKey P k (ls ++ ls') = lastKey P k ls := by
  induction ls generalizing k with
  | nil => cases h
  | cons l ls ih =>
    rw [scanHeader] at h
    rw [List.cons_append, lastKey, lastKey]
    split
    · rfl
    · next hl =>
      rw [if_neg hl] at h
      rcases hc : readCredential P l with x | (_ | _ | _ | k') <;> simp only [hc] at h ⊢
      · cases h
      · exact ih h
      · cases h
      · cases h
      · exact ih h

/-- A key is never lost in the loop. -/
theorem lastKey_ne_nil (hk : k ≠ []) : lastKey P k ls ≠ [] := by
  induction ls generalizing k with
  | nil => exact hk
  | cons l ls ih =>
    rw [lastKey]
    split
    · exact hk
    · split
      · next k' hc => exact ih (readCredential_ne_nil hc)
      · exact ih hk

/-- What is decided before the end of some lines is decided. -/
theorem scanHeader_append_of_ne (h : scanHeader P ls ≠ .ok .more) :
    scanHeader P (ls ++ ls') = scanHeader P ls := by
  induction ls with
  | nil => exact absurd rfl h
  | cons l ls ih =>
    rw [scanHeader] at h
    rw [List.cons_append, scanHeader, scanHeader]
    split
    · rfl
    · next hl =>
      rw [if_neg hl] at h
      rcases hc : readCredential P l with x | (_ | _ | _ | k) <;> simp only [hc] at h ⊢ <;>
        exact ih h

/-- The loop comes to the verdict on the lines at hand. -/
theorem rawHeaderLoop_eq {data : Bytes} {n : ℕ} (m : ℕ) (hn : data.length < n) :
    ∃ j, rawHeaderLoop P n data k m = match scanHeader P (splitLines data).1 with
      | .error x => .error x
      | .ok .more => .ok (.wait (m + (data.length - (splitLines data).2.length)))
      | .ok .ends =>
        if lastKey P k (splitLines data).1 = [] then .ok .unauthorized
        else .ok (.authenticate (lastKey P k (splitLines data).1) j)
      | .ok .invalid => .ok .invalid
      | .ok .notFound => .ok .notFound := by
  induction data using lines_induction generalizing n k m with
  | rest s hs =>
    obtain ⟨n, rfl⟩ : ∃ i, n = i + 1 := ⟨n - 1, by omega⟩
    rw [splitLines_rest hs, rawHeaderLoop_rest hs]
    exact ⟨0, by simp [scanHeader]⟩
  | line l r hl ih =>
    obtain ⟨n, rfl⟩ : ∃ i, n = i + 1 := ⟨n - 1, by omega⟩
    have hlength : (l ++ 13 :: 10 :: r).length = l.length + 2 + r.length := by
      simp only [List.length_append, List.length_cons]
      omega
    have hrest : (splitLines r).2.length ≤ r.length := splitLines_suffix.length_le
    have hwait : m + (l.length + 2) + (r.length - (splitLines r).2.length) =
        m + ((l ++ 13 :: 10 :: r).length - (splitLines r).2.length) := by omega
    rw [splitLines_line hl, scanHeader, lastKey]
    by_cases hnil : l = []
    · subst hnil
      rw [List.nil_append, rawHeaderLoop_end]
      exact ⟨m + 2, by simp⟩
    · rw [rawHeaderLoop_line hl hnil, if_neg hnil, if_neg hnil]
      dsimp only
      rw [← hwait]
      rcases readCredential P l with x | (_ | _ | _ | k')
      · exact ⟨0, rfl⟩
      · exact ih (m + (l.length + 2)) (by omega)
      · exact ⟨0, rfl⟩
      · exact ⟨0, rfl⟩
      · exact ih (m + (l.length + 2)) (by omega)

end ProxyAccessService

namespace Handshake

variable {σ : Type*} {S : Services σ} {P : Platform} {h t : Handshake σ} {x : Bytes}

variable (h) in
/-- The request line of a `CONNECT` request is read. -/
structure AtRaw : Prop where
  dataProcessor : h.connection.dataProcessor = .onHttpRawHeaderProcessor
  invalid : h.invalid = false

theorem AtRaw.processData (hraw : AtRaw h) (data : Bytes) :
    processData S P h.service h.connection data =
      onHttpRawHeaderProcessor S P h.service h.connection data := by
  rw [ProxyAccessService.processData, hraw.dataProcessor]

/-- A segment with which the header goes on. -/
theorem AtRaw.feed_more (hraw : AtRaw h)
    (hscan : scanHeader P (splitLines (h.buffer ++ x)).1 = .ok .more) :
    feed S P h x = .ok { h with buffer := (splitLines (h.buffer ++ x)).2 } := by
  have hone : ∀ data, scanHeader P (splitLines data).1 = .ok .more →
      ProxyAccessService.processData S P h.service h.connection data =
        .ok (h.service, h.connection, some (data.length - (splitLines data).2.length)) := by
    intro data hdata
    obtain ⟨j, hloop⟩ := rawHeaderLoop_eq (P := P) (k := []) 0 (Nat.lt_succ_self data.length)
    rw [hdata, Nat.zero_add] at hloop
    rw [hraw.processData, onHttpRawHeaderProcessor, hloop]
  have hdrop := List.suffix_iff_eq_drop.1 (splitLines_suffix (s := h.buffer ++ x))
  by_cases hend : (h.buffer ++ x).length - (splitLines (h.buffer ++ x)).2.length = 0 ∨
      (splitLines (h.buffer ++ x)).2 = []
  · rw [feed_of_processed hraw.invalid (hone _ hscan) (by rwa [← hdrop]), ← hdrop]
  · rw [not_or] at hend
    rw [feed_of_rest hraw.invalid (hone _ hscan) hend.1 (by rw [← hdrop]; exact hend.2), ← hdrop]
    -- The line that is left is not complete.
    have hrest := splitLines_rest (findCrlf_splitLines (s := h.buffer ++ x))
    have hlast : ProxyAccessService.processData S P h.service h.connection
        (splitLines (h.buffer ++ x)).2 = .ok (h.service, h.connection, some 0) := by
      rw [hone _ (by rw [hrest]; rfl), hrest, Nat.sub_self]
    exact feed_of_processed (h := { h with buffer := [] }) hraw.invalid hlast (.inl rfl)

theorem AtRaw.feed_error (hraw : AtRaw h) {f : Fault}
    (hscan : scanHeader P (splitLines (h.buffer ++ x)).1 = .error f) :
    feed S P h x = .error f := by
  obtain ⟨j, hloop⟩ :=
    rawHeaderLoop_eq (P := P) (k := []) 0 (Nat.lt_succ_self (h.buffer ++ x).length)
  rw [hscan] at hloop
  refine feed_of_error hraw.invalid ?_
  rw [hraw.processData, onHttpRawHeaderProcessor, hloop]

theorem AtRaw.feed_invalid (hraw : AtRaw h)
    (hscan : scanHeader P (splitLines (h.buffer ++ x)).1 = .ok .invalid) :
    feed S P h x = .ok { h with buffer := h.buffer ++ x, invalid := true } := by
  obtain ⟨j, hloop⟩ :=
    rawHeaderLoop_eq (P := P) (k := []) 0 (Nat.lt_succ_self (h.buffer ++ x).length)
  rw [hscan] at hloop
  refine feed_of_invalid hraw.invalid ?_
  rw [hraw.processData, onHttpRawHeaderProcessor, hloop]

/-- A credential without an account is refused, and presented again. -/
theorem AtRaw.feed_notFound (hraw : AtRaw h)
    (hscan : scanHeader P (splitLines (h.buffer ++ x)).1 = .ok .notFound) :
    feed S P h x = .ok { h with
      service := (post P h.service h.connection .reply http404).1
      connection := (post P h.service h.connection .reply http404).2
      buffer := h.buffer ++ x } := by
  obtain ⟨j, hloop⟩ :=
    rawHeaderLoop_eq (P := P) (k := []) 0 (Nat.lt_succ_self (h.buffer ++ x).length)
  rw [hscan] at hloop
  refine feed_of_processed hraw.invalid (k := 0) ?_ (.inl rfl)
  rw [hraw.processData, onHttpRawHeaderProcessor, hloop]

theorem AtRaw.feed_unauthorized (hraw : AtRaw h)
    (hscan : scanHeader P (splitLines (h.buffer ++ x)).1 = .ok .ends)
    (hkey : lastKey P [] (splitLines (h.buffer ++ x)).1 = []) :
    feed S P h x = .ok { h with
      service := (post P h.service { h.connection with dataProcessor := .killConnectionOnData }
        .reply http407).1
      connection := (post P h.service { h.connection with dataProcessor := .killConnectionOnData }
        .reply http407).2
      buffer := h.buffer ++ x } := by
  obtain ⟨j, hloop⟩ :=
    rawHeaderLoop_eq (P := P) (k := []) 0 (Nat.lt_succ_self (h.buffer ++ x).length)
  rw [hscan, hkey] at hloop
  refine feed_of_processed hraw.invalid (k := 0) ?_ (.inl rfl)
  rw [hraw.processData, onHttpRawHeaderProcessor, hloop]
  rfl

/-- What a handshake comes to from here, by the verdict on the lines that are left. -/
def rawOutcome (P : Platform) (h : Handshake σ) (ls : List Bytes) : Except Fault Outcome :=
  match scanHeader P ls with
  | .error x => .error x
  | .ok .more => .ok h.outcome
  | .ok .ends => .ok { h.outcome with
      calls := h.service.calls ++ [.post h.connection.connectionId .reply http407]
      dataProcessor := .killConnectionOnData }
  | .ok .invalid => .ok { h.outcome with invalid := true }
  | .ok .notFound => .ok { h.outcome with
      calls := h.service.calls ++ [.post h.connection.connectionId .reply http404] }

/-- The last line decides, and nothing follows it. -/
def DecidedLast (P : Platform) (rest : Bytes) : Prop :=
  scanHeader P (splitLines rest).1.dropLast = .ok .more ∧ (splitLines rest).2 = []

/-- No key is lost between two calls, and no refusal is repeated: the header ends without a key, or
    not at all, and a credential without an account is the last that comes. -/
def AnsweredOnce (P : Platform) (rest : Bytes) : Prop :=
  (scanHeader P (splitLines rest).1 = .ok .ends → lastKey P [] (splitLines rest).1 = []) ∧
    (scanHeader P (splitLines rest).1 = .ok .notFound → DecidedLast P rest)

/-- Behind lines with which the header goes on, it is the rest that counts. -/
theorem AnsweredOnce.of_append {b : Bytes} (h : AnsweredOnce P (b ++ x))
    (hmore : scanHeader P (splitLines b).1 = .ok .more) : AnsweredOnce P ((splitLines b).2 ++ x) := by
  obtain ⟨hkey, hlast⟩ := h
  rw [DecidedLast, splitLines_append] at hlast
  rw [splitLines_append] at hkey
  rw [scanHeader_append hmore] at hkey hlast
  rw [lastKey_append hmore] at hkey
  refine ⟨fun hends => ?_, fun hrefused => ?_⟩
  · by_contra hne
    have hnil := hkey hends
    rcases eq_or_ne (lastKey P [] (splitLines b).1) [] with h0 | h0
    · rw [h0] at hnil
      exact hne hnil
    · exact lastKey_ne_nil h0 hnil
  · obtain ⟨hdrop, hrest⟩ := hlast hrefused
    refine ⟨?_, hrest⟩
    have hne : (splitLines ((splitLines b).2 ++ x)).1 ≠ [] := by
      intro hnil
      rw [hnil] at hrefused
      cases hrefused
    rwa [List.dropLast_append_of_ne_nil hne, scanHeader_append hmore] at hdrop

/-- Behind a credential without an account, nothing comes. -/
theorem AnsweredOnce.eq_nil {b : Bytes} (h : AnsweredOnce P (b ++ x))
    (hrefused : scanHeader P (splitLines b).1 = .ok .notFound) : x = [] := by
  have hne : scanHeader P (splitLines b).1 ≠ .ok .more := by simp [hrefused]
  have hlast := h.2
  rw [DecidedLast, splitLines_append, scanHeader_append_of_ne hne] at hlast
  obtain ⟨hdrop, hrest⟩ := hlast hrefused
  have hnil : (splitLines ((splitLines b).2 ++ x)).1 = [] := by
    by_contra hnil
    rw [List.dropLast_append_of_ne_nil hnil, scanHeader_append_of_ne hne] at hdrop
    exact hne hdrop
  exact (List.append_eq_nil_iff.1 (splitLines_eq_nil.1 ⟨hnil, hrest⟩)).2

/-- A header that is answered once comes to the same in every cut. -/
theorem AtRaw.map_exec (hraw : AtRaw h) (hline : findCrlf h.buffer = none) {segments : List Bytes}
    (hsegments : ∀ x ∈ segments, x ≠ []) (honce : AnsweredOnce P (h.buffer ++ segments.flatten)) :
    (exec (feed S P) h segments).map outcome =
      rawOutcome P h (splitLines (h.buffer ++ segments.flatten)).1 := by
  induction segments generalizing h with
  | nil =>
    rw [List.flatten_nil, List.append_nil, splitLines_rest hline]
    rfl
  | cons x segments ih =>
    obtain ⟨-, hnonempty⟩ := List.forall_mem_cons.1 hsegments
    rw [List.flatten_cons, ← List.append_assoc] at honce ⊢
    have hlines : (splitLines (h.buffer ++ x ++ segments.flatten)).1 = (splitLines (h.buffer ++ x)).1
        ++ (splitLines ((splitLines (h.buffer ++ x)).2 ++ segments.flatten)).1 := by
      rw [splitLines_append]
    have hdecided : scanHeader P (splitLines (h.buffer ++ x)).1 ≠ .ok .more →
        rawOutcome P h (splitLines (h.buffer ++ x ++ segments.flatten)).1 =
          rawOutcome P h (splitLines (h.buffer ++ x)).1 := by
      intro hne
      rw [hlines, rawOutcome, rawOutcome, scanHeader_append_of_ne hne]
    rcases hscan : scanHeader P (splitLines (h.buffer ++ x)).1 with f | (_ | _ | _ | _)
    · rw [hdecided (by simp [hscan]), exec_cons_of_error _ (hraw.feed_error hscan), rawOutcome, hscan]
      rfl
    · -- The rest of the header is left to the next segments.
      rw [exec_cons_of_ok _ (hraw.feed_more hscan),
        ih (h := { h with buffer := (splitLines (h.buffer ++ x)).2 }) ⟨hraw.dataProcessor, hraw.invalid⟩
          findCrlf_splitLines hnonempty (honce.of_append hscan), hlines]
      rw [rawOutcome, rawOutcome, scanHeader_append hscan]
      rfl
    · have hkey := honce.1 (by rw [hlines, scanHeader_append_of_ne (by simp [hscan]), hscan])
      rw [hlines, lastKey_append_of_ends hscan] at hkey
      rw [hdecided (by simp [hscan]), exec_cons_of_ok _ (hraw.feed_unauthorized hscan hkey)]
      obtain ⟨t, ht, hservice, hconnection⟩ := exec_feed_killed (S := S) (P := P) (h := { h with
          service := (post P h.service { h.connection with dataProcessor := .killConnectionOnData }
            .reply http407).1
          connection := (post P h.service
            { h.connection with dataProcessor := .killConnectionOnData } .reply http407).2
          buffer := h.buffer ++ x }) rfl segments
      rw [ht, rawOutcome, hscan]
      simp [Except.map, outcome, hservice, hconnection, hraw.invalid, post, call]
    · rw [hdecided (by simp [hscan]), exec_cons_of_ok _ (hraw.feed_invalid hscan),
        exec_feed_of_invalid rfl, rawOutcome, hscan]
      simp [Except.map, outcome, hraw.dataProcessor]
    · -- There are no other segments.
      obtain rfl : segments = [] := by
        have hflatten := honce.eq_nil hscan
        rcases segments with _ | ⟨y, segments⟩
        · rfl
        · rw [List.flatten_cons, List.append_eq_nil_iff] at hflatten
          exact absurd hflatten.1 (hnonempty y List.mem_cons_self)
      rw [hdecided (by simp [hscan]), exec_cons_of_ok _ (hraw.feed_notFound hscan), exec_nil,
        rawOutcome, hscan]
      simp [Except.map, outcome, hraw.invalid, post, call]

end Handshake

end ProxyPlatform
