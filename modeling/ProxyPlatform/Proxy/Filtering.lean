import ProxyPlatform.Proxy.HeaderFilter

/-!
# The header that is forwarded, call by call

A header comes in segments. `onHttpNormalHeaderProcessor` is presented each of them behind what
it has not consumed, and `content` is forwarded when a call has completed the header. A line end
that is cut into two is not found, so that what the code takes for a line may be several
(`linesOf`).

* `present`: a call, with whatever the service is then;
* `foundLines`: the lines that the calls find, when each uses up its segment;
* `passedLines`, `filtered`: what a line found adds to the content, and what a line of the header
  is to add;
* `IsCall`: the four ways a call ends; `Reading`, `Repeated`, `Stuck`: where that leaves the
  header. A refused one is never completed (`Stuck.scan`), and one that was completed before there
  was a future has been added to the content already (`Repeated.not_filters`);
* `filtersHeader_iff`: what is forwarded is the filtered header, and what follows it is left for the
  body, if and only if it was completed by the last call only, and each line found is handled as
  the lines in it should be.
-/

namespace ProxyPlatform

open ProxyAccessService Handshake

/-- A connection whose header is read. -/
structure HeaderReader where
  connection : ClientConnection
  /-- The data received and not consumed. -/
  buffer : Bytes := []

namespace HeaderReader

variable {σ : Type*} (S : Services σ) (P : Platform)

/-- A segment arrives, when the service is in the given state. -/
def present (r : HeaderReader) (call : ProxyAccessService σ × Bytes) : Except Fault HeaderReader :=
  (onHttpNormalHeaderProcessor S P call.1 r.connection (r.buffer ++ call.2)).map fun x =>
    { connection := x.2.1, buffer := (r.buffer ++ call.2).drop (x.2.2.getD 0) }

/-! ## The header as it is to be -/

/-- A field that is meant for the proxy. -/
def IsForProxy (line : Bytes) : Prop :=
  HasName "Proxy-Connection:" line ∨ HasName "Proxy-Authorization:" line
  deriving Decidable

/-- What a line of a header is to become. -/
def filtered (line : Bytes) : List Bytes :=
  if IsForProxy line then []
  else if HasName "Connection:" line then [ascii "Connection: close"]
  else [line]

/-- The data is a header with these lines, and what follows its empty line. -/
structure IsHeader (data : Bytes) (ls : List Bytes) (body : Bytes) : Prop where
  parts : data = withEnds ls ++ 13 :: 10 :: body
  lines : ∀ l ∈ ls, l ≠ [] ∧ findCrlf l = none

/-- The header is added to the content as it is to be, and what follows it is left. -/
def FiltersHeader (c : ClientConnection) (data : Bytes) (t : HeaderReader) : Prop :=
  ∃ ls body, IsHeader data ls body ∧
    t.connection.http.content = c.http.content ++ (withEnds (ls.flatMap filtered) ++ [13, 10]) ∧
    t.buffer = body

/-! ## The header as it is found -/

/-- The line that is not complete, after a segment. -/
def takeUp (temp x : Bytes) : Bytes :=
  if (splitLines x).1 = [] then temp ++ (splitLines x).2 else (splitLines x).2

/-- The lines that are found in the segments, the first of which goes on with `temp`. -/
def foundLines : (temp : Bytes) → List Bytes → List Bytes
  | _, [] => []
  | temp, x :: segments => joinLines temp (splitLines x).1 ++ foundLines (takeUp temp x) segments

/-- The lines in what is taken for one. -/
def linesOf (line : Bytes) : List Bytes := (splitLines (line ++ [13, 10])).1

/-- The lines that a line found adds to the content. -/
def passedLines (line : Bytes) : List Bytes :=
  if IsProxyConnection line then []
  else if IsConnection line then [ascii "Connection: close"]
  else if IsCredential line then []
  else linesOf line

/-- A line that is to be kept as it is. -/
def IsKept (line : Bytes) : Prop :=
  line ≠ [] ∧ ¬IsForProxy line ∧ (HasName "Connection:" line → line = ascii "Connection: close")
  deriving Decidable

/-- If the code drops or replaces what it has found, the lines behind the first are to be dropped;
    otherwise all of them are to be kept. -/
def Recognised (line : Bytes) : Prop :=
  if IsProxyConnection line ∨ IsConnection line ∨ IsCredential line then
    ∀ l ∈ (linesOf line).tail, IsForProxy l
  else ∀ l ∈ linesOf line, IsKept l
  deriving Decidable

/-- The header is not completed before the last call, and each of its lines is recognised. -/
def FoundRight (segments : List Bytes) (last : Bytes) : Prop :=
  [] ∉ foundLines [] segments ∧
    ∀ line ∈ (foundLines [] (segments ++ [last])).takeWhile (· ≠ []), Recognised line
  deriving Decidable

variable {S P} {r t : HeaderReader} {c : ClientConnection} {l line temp x data k : Bytes}
  {segments ls ls' : List Bytes}

/-! ## Names -/

theorem not_isForProxy_of_connection (h : HasName "Connection:" l) : ¬IsForProxy l := by
  rintro (hproxy | hproxy)
  · exact h.ne (by with_unfolding_all decide) (by with_unfolding_all decide) hproxy
  · exact h.ne (by with_unfolding_all decide) (by with_unfolding_all decide) hproxy

theorem IsForProxy.ne_nil (h : IsForProxy l) : l ≠ [] := by
  rcases h with h | h
  · exact h.ne_nil (by with_unfolding_all decide)
  · exact h.ne_nil (by with_unfolding_all decide)

/-- A name is found in the first line. -/
theorem hasName_withEnds {name : String} (hname : tolower 13 ∉ (ascii name).map tolower)
    {ls : List Bytes} : HasName name (withEnds (l :: ls)) ↔ HasName name l := by
  rw [HasName, HasName, withEnds_cons, strncasecmp_append_cons hname]

/-! ## Lines found -/

/-- The lines in what is taken for one are those that were written. -/
theorem withEnds_linesOf (line : Bytes) : withEnds (linesOf line) = line ++ [13, 10] := by
  obtain ⟨l, ls, hsplit, -⟩ := exists_splitLines_crlf line
  have hwhole := withEnds_splitLines (line ++ [13, 10])
  rwa [hsplit, List.append_nil, ← congrArg Prod.fst hsplit] at hwhole

theorem findCrlf_of_mem_linesOf (h : l ∈ linesOf line) : findCrlf l = none :=
  findCrlf_of_mem_splitLines h

/-- There is a first line, with the name of what is taken for one line. -/
theorem exists_linesOf (line : Bytes) : ∃ l ls, linesOf line = l :: ls ∧
    ∀ name : String, tolower 13 ∉ (ascii name).map tolower → HasName name line → HasName name l := by
  obtain ⟨l, ls, hsplit, -⟩ := exists_splitLines_crlf line
  have hlines : linesOf line = l :: ls := congrArg Prod.fst hsplit
  refine ⟨l, ls, hlines, fun name hname h => ?_⟩
  have hiff : HasName name (withEnds (l :: ls)) ↔ HasName name l := hasName_withEnds hname
  rw [← hiff, ← hlines, withEnds_linesOf]
  exact h.append _

/-- The bytes a line adds are those of the lines it adds. -/
theorem passed_eq (line : Bytes) : passed line = withEnds (passedLines line) := by
  unfold passed passedLines
  split
  · rfl
  split
  · with_unfolding_all decide
  split
  · rfl
  · exact (withEnds_linesOf line).symm

theorem flatMap_passed (ls : List Bytes) :
    ls.flatMap passed = withEnds (ls.flatMap passedLines) := by
  induction ls with
  | nil => rfl
  | cons l ls ih => rw [List.flatMap_cons, List.flatMap_cons, withEnds_append, passed_eq, ih]

theorem findCrlf_of_mem_passedLines (h : l ∈ passedLines line) : findCrlf l = none := by
  unfold passedLines at h
  split at h
  · cases h
  split at h
  · rw [List.mem_singleton.1 h]
    with_unfolding_all decide
  split at h
  · cases h
  · exact findCrlf_of_mem_linesOf h

/-- What a line becomes has no line end and is not empty, and is not meant for the proxy. -/
theorem of_mem_filtered (h : l ∈ filtered line) (hline : findCrlf line = none) (hne : line ≠ []) :
    l ≠ [] ∧ findCrlf l = none := by
  unfold filtered at h
  split at h
  · cases h
  split at h
  · rw [List.mem_singleton.1 h]
    exact ⟨by with_unfolding_all decide, by with_unfolding_all decide⟩
  · rw [List.mem_singleton.1 h]
    exact ⟨hne, hline⟩

theorem not_isForProxy_of_mem_filtered (h : l ∈ filtered line) : ¬IsForProxy l := by
  unfold filtered at h
  split at h
  · cases h
  split at h
  · rw [List.mem_singleton.1 h]
    with_unfolding_all decide
  · rw [List.mem_singleton.1 h]
    assumption

theorem filtered_eq_nil : filtered line = [] ↔ IsForProxy line := by
  unfold filtered
  split
  · next h => exact iff_of_true rfl h
  split
  · next h _ => exact iff_of_false (List.cons_ne_nil _ _) h
  · next h _ => exact iff_of_false (List.cons_ne_nil _ _) h

theorem length_filtered_le (line : Bytes) : (filtered line).length ≤ 1 := by
  unfold filtered
  split_ifs <;> simp

theorem length_flatMap_filtered_le (ls : List Bytes) : (ls.flatMap filtered).length ≤ ls.length := by
  induction ls with
  | nil => exact le_rfl
  | cons l ls ih =>
    rw [List.flatMap_cons, List.length_append, List.length_cons]
    have hle := length_filtered_le l
    omega

theorem IsKept.filtered_eq (h : IsKept line) : filtered line = [line] := by
  obtain ⟨-, hproxy, hconnection⟩ := h
  rw [filtered, if_neg hproxy]
  split
  · next hname => rw [← hconnection hname]
  · rfl

theorem isKept_of_filtered_eq (hne : line ≠ []) (h : filtered line = [line]) : IsKept line := by
  refine ⟨hne, fun hproxy => ?_, fun hname => ?_⟩
  · rw [filtered_eq_nil.2 hproxy] at h
    cases h
  · rw [filtered, if_neg (not_isForProxy_of_connection hname), if_pos hname] at h
    exact (List.singleton_injective h).symm

/-- What a line found that is dropped or replaced adds is what its first line is to become. -/
theorem passedLines_eq_head (hline : IsProxyConnection line ∨ IsConnection line ∨ IsCredential line) :
    ∃ l ls, linesOf line = l :: ls ∧ passedLines line = filtered l := by
  obtain ⟨l, ls, hlines, hname⟩ := exists_linesOf line
  refine ⟨l, ls, hlines, ?_⟩
  have hof : ∀ p q : String, ascii p <+: ascii q → tolower 13 ∉ (ascii p).map tolower →
      strncasecmp (ascii q) line = true → HasName p l := fun p q hpq hp hq =>
    hname p hp (strncasecmp_of_begins hpq hq)
  rw [passedLines]
  by_cases hp : IsProxyConnection line
  · rw [if_pos hp]
    refine (filtered_eq_nil.2 (.inl ?_)).symm
    exact hof _ _ (by with_unfolding_all decide) (by with_unfolding_all decide) hp.2
  rw [if_neg hp]
  by_cases hc : IsConnection line
  · have hconnection : HasName "Connection:" l :=
      hof _ _ (by with_unfolding_all decide) (by with_unfolding_all decide) hc.2
    rw [if_pos hc, filtered, if_neg (not_isForProxy_of_connection hconnection), if_pos hconnection]
  · have hcred := (hline.resolve_left hp).resolve_left hc
    rw [if_neg hc, if_pos hcred]
    refine (filtered_eq_nil.2 (.inr ?_)).symm
    exact hof _ _ (by with_unfolding_all decide) (by with_unfolding_all decide) hcred.2

/-- A line found that is recognised adds what the lines in it are to become. -/
theorem Recognised.passedLines_eq (h : Recognised line) :
    passedLines line = (linesOf line).flatMap filtered ∧ ∀ l ∈ linesOf line, l ≠ [] := by
  by_cases hline : IsProxyConnection line ∨ IsConnection line ∨ IsCredential line
  · rw [Recognised, if_pos hline] at h
    obtain ⟨l, ls, hlines, hpassed⟩ := passedLines_eq_head hline
    rw [hlines, List.tail_cons] at h
    have hnil : ls.flatMap filtered = [] :=
      List.flatMap_eq_nil_iff.2 fun l' hl' => filtered_eq_nil.2 (h l' hl')
    rw [hlines, List.flatMap_cons, hnil, List.append_nil]
    refine ⟨hpassed, List.forall_mem_cons.2 ⟨?_, fun l' hl' => (h l' hl').ne_nil⟩⟩
    -- The first line has a name.
    rintro rfl
    have hempty : ∀ name : String, ascii name ≠ [] → ¬HasName name [] := fun name hname h =>
      h.ne_nil hname rfl
    obtain ⟨l', ls', hlines', hname⟩ := exists_linesOf line
    rw [hlines] at hlines'
    cases hlines'
    rcases hline with hp | hc | hcred
    · exact hempty _ (by with_unfolding_all decide) (hname _ (by with_unfolding_all decide) hp.2)
    · exact hempty _ (by with_unfolding_all decide) (hname _ (by with_unfolding_all decide) hc.2)
    · exact hempty _ (by with_unfolding_all decide) (hname _ (by with_unfolding_all decide) hcred.2)
  · rw [Recognised, if_neg hline] at h
    obtain ⟨hp, hrest⟩ := not_or.1 hline
    obtain ⟨hc, hcred⟩ := not_or.1 hrest
    rw [passedLines, if_neg hp, if_neg hc, if_neg hcred]
    refine ⟨?_, fun l hl => (h l hl).1⟩
    rw [List.flatMap_congr fun l hl => (h l hl).filtered_eq, List.flatMap_singleton']

/-- No more lines are added than the lines in it are to become, unless one is kept that is not to
    be. -/
theorem length_passedLines_le (h : ∀ l ∈ passedLines line, ¬IsForProxy l) :
    (passedLines line).length ≤ ((linesOf line).flatMap filtered).length := by
  by_cases hline : IsProxyConnection line ∨ IsConnection line ∨ IsCredential line
  · obtain ⟨l, ls, hlines, hpassed⟩ := passedLines_eq_head hline
    rw [hlines, hpassed, List.flatMap_cons, List.length_append]
    exact Nat.le_add_right _ _
  · obtain ⟨hp, hrest⟩ := not_or.1 hline
    obtain ⟨hc, hcred⟩ := not_or.1 hrest
    rw [passedLines, if_neg hp, if_neg hc, if_neg hcred] at h ⊢
    generalize linesOf line = ls at h ⊢
    induction ls with
    | nil => exact le_rfl
    | cons l ls ih =>
      obtain ⟨hl, hls⟩ := List.forall_mem_cons.1 h
      rw [List.flatMap_cons, List.length_append, List.length_cons]
      have hpos := List.length_pos_iff.2 fun hnil => hl (filtered_eq_nil.1 hnil)
      have hle := ih hls
      omega

/-- A line found that adds what the lines in it are to become is recognised. -/
theorem recognised_of_passedLines_eq (hne : ∀ l ∈ linesOf line, l ≠ [])
    (h : passedLines line = (linesOf line).flatMap filtered) : Recognised line := by
  by_cases hline : IsProxyConnection line ∨ IsConnection line ∨ IsCredential line
  · obtain ⟨l, ls, hlines, hpassed⟩ := passedLines_eq_head hline
    rw [Recognised, if_pos hline, hlines, List.tail_cons]
    rw [hlines, List.flatMap_cons, hpassed] at h
    intro l' hl'
    exact filtered_eq_nil.1 (List.flatMap_eq_nil_iff.1 (List.self_eq_append_right.1 h) l' hl')
  · rw [Recognised, if_neg hline]
    obtain ⟨hp, hrest⟩ := not_or.1 hline
    obtain ⟨hc, hcred⟩ := not_or.1 hrest
    rw [passedLines, if_neg hp, if_neg hc, if_neg hcred] at h
    generalize linesOf line = ls at hne h ⊢
    induction ls with
    | nil => exact List.forall_mem_nil _
    | cons l ls ih =>
      obtain ⟨hl, hls⟩ := List.forall_mem_cons.1 hne
      rw [List.flatMap_cons] at h
      have hone : filtered l = [l] := by
        rcases hfiltered : filtered l with _ | ⟨l', ls'⟩
        · -- There are too few of them then.
          have hlength := length_flatMap_filtered_le ls
          rw [hfiltered, List.nil_append] at h
          have heq := congrArg List.length h
          rw [List.length_cons] at heq
          omega
        · have hle := length_filtered_le l
          rw [hfiltered, List.length_cons] at hle
          obtain rfl : ls' = [] := List.eq_nil_of_length_eq_zero (by omega)
          rw [hfiltered, List.singleton_append] at h
          rw [(List.cons.inj h).1]
      rw [hone, List.singleton_append] at h
      exact List.forall_mem_cons.2
        ⟨isKept_of_filtered_eq hl hone, ih hls (List.cons.inj h).2⟩

/-! ## Headers found -/

/-- Lists of which none is longer than the other, and that are the same taken together, are the
    same one by one. -/
theorem eq_of_flatMap_eq {α β : Type*} {f g : α → List β} {l : List α}
    (hle : ∀ a ∈ l, (f a).length ≤ (g a).length) (h : l.flatMap f = l.flatMap g) :
    ∀ a ∈ l, f a = g a := by
  have hsum : ∀ l : List α, (∀ a ∈ l, (f a).length ≤ (g a).length) →
      (l.flatMap f).length ≤ (l.flatMap g).length := by
    intro l hle
    induction l with
    | nil => exact le_rfl
    | cons a l ih =>
      obtain ⟨ha, hl⟩ := List.forall_mem_cons.1 hle
      rw [List.flatMap_cons, List.flatMap_cons, List.length_append, List.length_append]
      exact Nat.add_le_add ha (ih hl)
  induction l with
  | nil => exact List.forall_mem_nil _
  | cons a l ih =>
    obtain ⟨ha, hl⟩ := List.forall_mem_cons.1 hle
    rw [List.flatMap_cons, List.flatMap_cons] at h
    have hlength := congrArg List.length h
    rw [List.length_append, List.length_append] at hlength
    have hrest := hsum l hl
    obtain ⟨hfirst, hothers⟩ := List.append_inj h (by omega)
    exact List.forall_mem_cons.2 ⟨hfirst, ih hl hothers⟩

/-- The lines in the lines found are the lines of the same bytes. -/
theorem withEnds_flatMap_linesOf (ls : List Bytes) :
    withEnds (ls.flatMap linesOf) = withEnds ls := by
  induction ls with
  | nil => rfl
  | cons l ls ih =>
    rw [List.flatMap_cons, withEnds_append, withEnds_linesOf, ih, withEnds_cons, List.append_assoc]
    rfl

theorem findCrlf_of_mem_flatMap {f : Bytes → List Bytes}
    (hf : ∀ line, ∀ l ∈ f line, findCrlf l = none) (ls : List Bytes) :
    ∀ l ∈ ls.flatMap f, findCrlf l = none := by
  intro l hl
  obtain ⟨line, -, hl⟩ := List.mem_flatMap.1 hl
  exact hf line l hl

/-- A header of which these lines were found has been filtered if and only if each is recognised. -/
theorem filtersHeader_iff_recognised {body : Bytes} (hdata : data = withEnds ls ++ 13 :: 10 :: body)
    (hcontent : t.connection.http.content =
      c.http.content ++ (withEnds (ls.flatMap passedLines) ++ [13, 10])) (hbuffer : t.buffer = body) :
    FiltersHeader c data t ↔ ∀ line ∈ ls, Recognised line := by
  constructor
  · rintro ⟨ls', body', ⟨hdata', hlines⟩, hcontent', hbuffer'⟩
    -- The lines of the header are those in the lines found.
    rw [hbuffer] at hbuffer'
    rw [hdata, hbuffer', List.append_left_inj] at hdata'
    have hls' : ls' = ls.flatMap linesOf := by
      refine withEnds_inj (fun l hl => (hlines l hl).2) ?_ ?_
      · exact findCrlf_of_mem_flatMap (fun _ _ => findCrlf_of_mem_linesOf) ls
      · rw [withEnds_flatMap_linesOf, hdata']
    subst hls'
    have hne : ∀ line ∈ ls, ∀ l ∈ linesOf line, l ≠ [] := fun line hline l hl =>
      (hlines l (List.mem_flatMap.2 ⟨line, hline, hl⟩)).1
    rw [hcontent, List.append_right_inj, List.append_left_inj, List.flatMap_assoc] at hcontent'
    have hsame : ls.flatMap passedLines = ls.flatMap fun line => (linesOf line).flatMap filtered := by
      refine withEnds_inj (findCrlf_of_mem_flatMap (fun _ _ => findCrlf_of_mem_passedLines) ls) ?_
        hcontent'
      intro l hl
      obtain ⟨line, hline, hl⟩ := List.mem_flatMap.1 hl
      obtain ⟨l', hl', hl⟩ := List.mem_flatMap.1 hl
      exact (of_mem_filtered hl (findCrlf_of_mem_linesOf hl') (hne line hline l' hl')).2
    -- No line meant for the proxy is among those that are to be there.
    have hkept : ∀ line ∈ ls, ∀ l ∈ passedLines line, ¬IsForProxy l := by
      intro line hline l hl
      have hmem : l ∈ ls.flatMap passedLines := List.mem_flatMap.2 ⟨line, hline, hl⟩
      rw [hsame] at hmem
      obtain ⟨line', -, hl⟩ := List.mem_flatMap.1 hmem
      obtain ⟨l', -, hl⟩ := List.mem_flatMap.1 hl
      exact not_isForProxy_of_mem_filtered hl
    intro line hline
    refine recognised_of_passedLines_eq (hne line hline) ?_
    exact eq_of_flatMap_eq (fun line hline => length_passedLines_le (hkept line hline)) hsame line hline
  · intro hrecognised
    refine ⟨ls.flatMap linesOf, body, ⟨?_, fun l hl => ?_⟩, ?_, hbuffer⟩
    · rw [withEnds_flatMap_linesOf, hdata]
    · obtain ⟨line, hline, hl⟩ := List.mem_flatMap.1 hl
      exact ⟨(hrecognised line hline).passedLines_eq.2 l hl, findCrlf_of_mem_linesOf hl⟩
    · rw [hcontent, List.flatMap_assoc,
        List.flatMap_congr fun line hline => (hrecognised line hline).passedLines_eq.1]

/-! ## Segments -/

theorem joinLines_nil (ls : List Bytes) : joinLines [] ls = ls := by
  cases ls <;> rfl

/-- A segment is the lines that are found in it, but for what was there and what is left. -/
theorem withEnds_joinLines (temp x : Bytes) :
    withEnds (joinLines temp (splitLines x).1) ++ takeUp temp x = temp ++ x := by
  have hx := withEnds_splitLines x
  rw [takeUp]
  rcases hls : (splitLines x).1 with _ | ⟨l, ls⟩ <;> rw [hls] at hx
  · rw [withEnds_nil, List.nil_append] at hx
    rw [if_pos rfl, joinLines, withEnds_nil, List.nil_append, hx]
  · rw [if_neg (List.cons_ne_nil l ls), joinLines, withEnds_cons]
    rw [withEnds_cons] at hx
    conv_rhs => rw [← hx]
    simp only [List.append_assoc]

theorem foundLines_append (temp : Bytes) (segments segments' : List Bytes) :
    foundLines temp (segments ++ segments') =
      foundLines temp segments ++ foundLines (segments.foldl takeUp temp) segments' := by
  induction segments generalizing temp with
  | nil => rfl
  | cons x segments ih =>
    rw [List.cons_append, foundLines, foundLines, ih, List.append_assoc]
    rfl

theorem foundLines_snoc (temp : Bytes) (segments : List Bytes) (x : Bytes) :
    foundLines temp (segments ++ [x]) = foundLines temp segments ++
      joinLines (segments.foldl takeUp temp) (splitLines x).1 := by
  rw [foundLines_append, foundLines, foundLines, List.append_nil]

/-- The segments are the lines that are found in them, and what is left. -/
theorem withEnds_foundLines (temp : Bytes) (segments : List Bytes) :
    withEnds (foundLines temp segments) ++ segments.foldl takeUp temp = temp ++ segments.flatten := by
  induction segments generalizing temp with
  | nil => exact (List.append_nil temp).symm
  | cons x segments ih =>
    rw [foundLines, withEnds_append, List.append_assoc, List.foldl_cons, ih, ← List.append_assoc,
      withEnds_joinLines, List.flatten_cons, List.append_assoc]

/-! ## Lines of a call -/

/-- The credential in the line is refused, when its last piece had `n` bytes. -/
def Refused (P : Platform) (line : Bytes) (n : ℕ) : Prop :=
  readPiece P line n = .ok .invalid ∨ readPiece P line n = .ok .noAccount

/-- What a call comes to on a line and those behind it. -/
theorem scanNormal_cons_eq_ok {y : HeaderScan} (h : scanNormal P temp k (l :: ls) = .ok y) :
    (temp = [] ∧ l = [] ∧ y = .ends [] k) ∨
    (temp ++ l ≠ [] ∧ Refused P (temp ++ l) l.length ∧ y = .refused [] (temp ++ l)) ∨
    (temp ++ l ≠ [] ∧ ¬Refused P (temp ++ l) l.length ∧ ∃ key z, scanNormal P [] key ls = .ok z ∧
      y = z.prepend (passed (temp ++ l))) := by
  rw [scanNormal] at h
  by_cases hend : l = [] ∧ temp = []
  · rw [if_pos hend] at h
    cases h
    exact .inl ⟨hend.2, hend.1, rfl⟩
  have hne : temp ++ l ≠ [] := fun hnil => hend (List.append_eq_nil_iff.1 hnil).symm
  rw [if_neg hend] at h
  rcases hpiece : readPiece P (temp ++ l) l.length with e | (_ | _ | _ | key) <;> rw [hpiece] at h
  · cases h
  · obtain ⟨z, hz, rfl⟩ := map_eq_ok h
    exact .inr (.inr ⟨hne, by simp [Refused, hpiece], k, z, hz, rfl⟩)
  · cases h
    exact .inr (.inl ⟨hne, .inl hpiece, rfl⟩)
  · cases h
    exact .inr (.inl ⟨hne, .inr hpiece, rfl⟩)
  · obtain ⟨z, hz, rfl⟩ := map_eq_ok h
    exact .inr (.inr ⟨hne, by simp [Refused, hpiece], key, z, hz, rfl⟩)

/-- While the header goes on, no line is empty, and each adds what it adds. -/
theorem scanNormal_more {text : Bytes} (h : scanNormal P temp k ls = .ok (.more text)) :
    [] ∉ joinLines temp ls ∧ text = (joinLines temp ls).flatMap passed := by
  induction ls generalizing temp k text with
  | nil =>
    cases h
    exact ⟨List.not_mem_nil, rfl⟩
  | cons l ls ih =>
    obtain ⟨-, -, hy⟩ | ⟨-, -, hy⟩ | ⟨hne, -, key, z, hz, hy⟩ := scanNormal_cons_eq_ok h
    · cases hy
    · cases hy
    · rcases z with t | ⟨t, line⟩ | ⟨t, key'⟩ <;> cases hy
      obtain ⟨hlines, rfl⟩ := ih hz
      rw [joinLines_nil] at hlines ⊢
      refine ⟨fun hmem => ?_, rfl⟩
      rcases List.mem_cons.1 hmem with hnil | hmem
      · exact hne hnil.symm
      · exact hlines hmem

/-- The header ends with an empty line, and those before it add what they add. -/
theorem scanNormal_ends {text key : Bytes} (h : scanNormal P temp k ls = .ok (.ends text key)) :
    [] ∈ joinLines temp ls ∧ text = ((joinLines temp ls).takeWhile (· ≠ [])).flatMap passed := by
  induction ls generalizing temp k text with
  | nil => cases h
  | cons l ls ih =>
    rw [joinLines]
    obtain ⟨rfl, rfl, hy⟩ | ⟨-, -, hy⟩ | ⟨hne, -, key', z, hz, hy⟩ := scanNormal_cons_eq_ok h
    · cases hy
      exact ⟨List.mem_cons_self, rfl⟩
    · cases hy
    · rcases z with t | ⟨t, line⟩ | ⟨t, key''⟩ <;> cases hy
      obtain ⟨hlines, rfl⟩ := ih hz
      rw [joinLines_nil] at hlines ⊢
      rw [List.takeWhile_cons, if_pos (decide_eq_true hne), List.flatMap_cons]
      exact ⟨List.mem_cons_of_mem _ hlines, rfl⟩

/-! ## Refusals -/

theorem Refused.isCredential {n : ℕ} (h : Refused P line n) : IsCredential line := by
  by_contra hnot
  have hother : readPiece P line n = .ok .other := if_neg hnot
  rcases h with h | h <;> rw [hother] at h <;> cases h

theorem Refused.ne_nil {n : ℕ} (h : Refused P line n) : line ≠ [] := by
  rintro rfl
  exact absurd h.isCredential.1 (Nat.not_lt_zero _)

/-- The letters that a name and a scheme would have to share. -/
theorem not_basic_of_piece {v : Bytes} (hcred : IsCredential (temp ++ l))
    (hv : (temp ++ l).drop 21 = v) (hshort : v.length < 6) (hlong : 21 ≤ l.length) :
    strncasecmp (ascii "Basic ") (v ++ l) = false := by
  refine eq_false_of_ne_true fun hbasic => ?_
  have hlength := hcred.1
  have hvlength := congrArg List.length hv
  rw [List.length_drop] at hvlength
  rw [List.length_append] at hlength hvlength
  -- The letter of the scheme at the end of `v` is the first one of `l`, which is one of the name.
  have hscheme : ((v ++ l)[v.length]?).map tolower = ((ascii "Basic ").map tolower)[v.length]? := by
    have heq : ((v ++ l).take (ascii "Basic ").length).map tolower = (ascii "Basic ").map tolower :=
      of_decide_eq_true hbasic
    have hsix : (ascii "Basic ").length = 6 := by with_unfolding_all decide
    rw [← heq, List.getElem?_map, List.getElem?_take_of_lt (by omega)]
  have hname : ((temp ++ l)[temp.length]?).map tolower =
      ((ascii "Proxy-Authorization: ").map tolower)[temp.length]? := by
    have heq : ((temp ++ l).take (ascii "Proxy-Authorization: ").length).map tolower =
        (ascii "Proxy-Authorization: ").map tolower := of_decide_eq_true hcred.2
    have hname : (ascii "Proxy-Authorization: ").length = 21 := by with_unfolding_all decide
    rw [← heq, List.getElem?_map, List.getElem?_take_of_lt (by omega)]
  rw [List.getElem?_append_right le_rfl, Nat.sub_self] at hscheme hname
  have hletters : ∀ i < 6, ∀ j < 6, 0 < j → ((ascii "Proxy-Authorization: ").map tolower)[i]? ≠
      ((ascii "Basic ").map tolower)[j]? := by with_unfolding_all decide
  exact hletters temp.length (by omega) v.length (by omega) (by omega) (hname.symm.trans hscheme)

/-- A credential that is refused is refused when its last piece comes again. -/
theorem Refused.again (h : Refused P (temp ++ l) l.length) : Refused P (temp ++ l ++ l) l.length := by
  have hcred := h.isCredential
  have hlong := hcred.1
  have hcred' : IsCredential (temp ++ l ++ l) := by
    refine ⟨by rw [List.length_append]; omega, ?_⟩
    rw [strncasecmp_append (length_le_of_strncasecmp hcred.2)]
    exact hcred.2
  have hdrop : (temp ++ l ++ l).drop 21 = (temp ++ l).drop 21 ++ l :=
    List.drop_append_of_le_length (Nat.le_of_lt hlong)
  rw [Refused, readPiece, if_pos hcred] at h
  rw [Refused, readPiece, if_pos hcred']
  dsimp only at h ⊢
  rw [hdrop]
  by_cases hinvalid : sub64 l.length 21 < 6 ∧ !strncasecmp (ascii "Basic ") ((temp ++ l).drop 21)
  · left
    obtain ⟨hsize, hscheme⟩ := hinvalid
    refine if_pos ⟨hsize, ?_⟩
    rw [Bool.not_eq_true'] at hscheme ⊢
    rcases Nat.lt_or_ge ((temp ++ l).drop 21).length 6 with hshort | hlong'
    · refine not_basic_of_piece hcred rfl hshort ?_
      by_contra hlt
      rw [sub64, if_neg hlt] at hsize
      omega
    · rw [strncasecmp_append (le_trans (by with_unfolding_all decide) hlong'), hscheme]
  · rw [if_neg hinvalid] at h
    rw [if_neg fun hnot => hinvalid ⟨hnot.1, ?_⟩]
    · -- The text of the credential is the same.
      have htext : ∀ m decoded, base64DecodeAt P (((temp ++ l).drop 21).drop 6) m = .ok decoded →
          base64DecodeAt P (((temp ++ l).drop 21 ++ l).drop 6) m = .ok decoded := by
        intro m decoded hm
        rw [base64DecodeAt] at hm
        split at hm
        · cases hm
        next hle =>
        rw [not_lt] at hle
        have htake : (((temp ++ l).drop 21 ++ l).drop 6).take m =
            (((temp ++ l).drop 21).drop 6).take m := by
          rw [List.drop_append, List.take_append_of_le_length hle]
        have hlength := congrArg List.length htake
        rw [List.length_take, List.length_take, Nat.min_eq_left hle] at hlength
        rw [base64DecodeAt, if_neg (by omega), htake]
        exact hm
      rcases hdecode : base64DecodeAt P (((temp ++ l).drop 21).drop 6)
        (sub64 (sub64 l.length 21) 6) with e | decoded
      · rw [hdecode] at h
        rcases h with h | h <;> cases h
      · rw [hdecode] at h
        rw [htext _ _ hdecode]
        exact h
    · rcases hscheme : strncasecmp (ascii "Basic ") ((temp ++ l).drop 21)
      · rfl
      · have hnot := hnot.2
        rw [strncasecmp_append (length_le_of_strncasecmp hscheme), hscheme] at hnot
        exact hnot

/-- A line is refused whatever comes behind it: the first, if its last piece comes again, or one
    behind it, as it is. -/
def Stuck (P : Platform) (temp : Bytes) (ls : List Bytes) : Prop :=
  temp ≠ [] ∧ ∃ l ls', ls = l :: ls' ∧ (Refused P (temp ++ l) l.length ∨
    ∃ pre line tail, ls' = pre ++ line :: tail ∧ [] ∉ pre ∧ Refused P line line.length)

theorem Stuck.append (h : Stuck P temp ls) (ls' : List Bytes) : Stuck P temp (ls ++ ls') := by
  obtain ⟨htemp, l, ls, rfl, hrefused | ⟨pre, line, tail, rfl, hpre, hrefused⟩⟩ := h
  · exact ⟨htemp, l, ls ++ ls', rfl, .inl hrefused⟩
  · exact ⟨htemp, l, _, rfl, .inr ⟨pre, line, tail ++ ls', by simp, hpre, hrefused⟩⟩

/-- Behind lines that are not empty, a line that is refused is. -/
theorem scanNormal_of_refused {pre tail : List Bytes} {y : HeaderScan} (hpre : [] ∉ pre)
    (hrefused : Refused P line line.length)
    (h : scanNormal P [] k (pre ++ line :: tail) = .ok y) :
    ∃ text line', y = .refused text line' ∧ line' ≠ [] := by
  induction pre generalizing k y with
  | nil =>
    have hne := hrefused.ne_nil
    obtain ⟨-, hnil, -⟩ | ⟨-, -, hy⟩ | ⟨-, hnot, -⟩ := scanNormal_cons_eq_ok h
    · exact absurd hnil hne
    · exact ⟨[], line, hy, hne⟩
    · exact absurd hrefused hnot
  | cons l pre ih =>
    have hl : l ≠ [] := fun hnil => hpre (hnil ▸ List.mem_cons_self)
    obtain ⟨-, hnil, -⟩ | ⟨hne, -, hy⟩ | ⟨-, -, key, z, hz, rfl⟩ := scanNormal_cons_eq_ok h
    · exact absurd hnil hl
    · exact ⟨[], [] ++ l, hy, hne⟩
    · obtain ⟨text, line', rfl, hline'⟩ :=
        ih (fun hmem => hpre (List.mem_cons_of_mem _ hmem)) hz
      exact ⟨_, line', rfl, hline'⟩

/-- The header is refused again, and always will be. -/
theorem Stuck.scan {y : HeaderScan} (hstuck : Stuck P temp ls) (h : scanNormal P temp k ls = .ok y) :
    ∃ text line, y = .refused text line ∧ Stuck P line ls := by
  obtain ⟨htemp, l, ls', rfl, hlines⟩ := hstuck
  obtain ⟨hnil, -⟩ | ⟨hne, hrefused, rfl⟩ | ⟨hne, hnot, key, z, hz, rfl⟩ := scanNormal_cons_eq_ok h
  · exact absurd hnil htemp
  · exact ⟨[], _, rfl, hne, l, ls', rfl, .inl hrefused.again⟩
  · obtain ⟨pre, line, tail, rfl, hpre, hrefused⟩ := hlines.resolve_left hnot
    obtain ⟨text, line', rfl, hline'⟩ := scanNormal_of_refused hpre hrefused hz
    exact ⟨_, line', rfl, hline', l, _, rfl, .inr ⟨pre, line, tail, rfl, hpre, hrefused⟩⟩

/-- A line that is refused, with those before it. -/
theorem scanNormal_refused_nil {text : Bytes} (h : scanNormal P [] k ls = .ok (.refused text line)) :
    ∃ pre tail, ls = pre ++ line :: tail ∧ [] ∉ pre ∧ Refused P line line.length := by
  induction ls generalizing k text with
  | nil => cases h
  | cons l ls ih =>
    obtain ⟨-, -, hy⟩ | ⟨-, hrefused, hy⟩ | ⟨hne, -, key, z, hz, hy⟩ := scanNormal_cons_eq_ok h
    · cases hy
    · cases hy
      exact ⟨[], ls, rfl, List.not_mem_nil, hrefused⟩
    · rcases z with t | ⟨t, line'⟩ | ⟨t, key'⟩ <;> cases hy
      obtain ⟨pre, tail, rfl, hpre, hrefused⟩ := ih hz
      refine ⟨l :: pre, tail, rfl, fun hmem => ?_, hrefused⟩
      rcases List.mem_cons.1 hmem with hnil | hmem
      · exact hne hnil.symm
      · exact hpre hmem

/-- A header that is refused once is stuck. -/
theorem stuck_of_refused {text : Bytes} (h : scanNormal P temp k ls = .ok (.refused text line)) :
    Stuck P line ls := by
  rcases ls with _ | ⟨l, ls⟩
  · cases h
  obtain ⟨-, -, hy⟩ | ⟨hne, hrefused, hy⟩ | ⟨hne, -, key, z, hz, hy⟩ := scanNormal_cons_eq_ok h
  · cases hy
  · cases hy
    exact ⟨hne, l, ls, rfl, .inl hrefused.again⟩
  · rcases z with t | ⟨t, line'⟩ | ⟨t, key'⟩ <;> cases hy
    obtain ⟨pre, tail, rfl, hpre, hrefused⟩ := scanNormal_refused_nil hz
    exact ⟨hrefused.ne_nil, l, _, rfl, .inr ⟨pre, line, tail, rfl, hpre, hrefused⟩⟩

/-! ## Calls -/

theorem takeUp_nil (x : Bytes) : takeUp [] x = (splitLines x).2 := by
  rw [takeUp]
  split <;> rfl

/-- What a call that goes on keeps of the line that is not complete. -/
theorem normalHeaderLoop_wait {http http' : HttpData} {n m : ℕ}
    (h : normalHeaderLoop P n data http k m = .ok (.wait http')) :
    http'.tempHeaderLine = takeUp http.tempHeaderLine data := by
  induction data using lines_induction generalizing n k m http with
  | rest s hs =>
    rcases n with _ | n
    · cases h
    rw [normalHeaderLoop_rest hs] at h
    cases h
    rw [takeUp, splitLines_rest hs, if_pos rfl]
  | line l r hl ih =>
    rcases n with _ | n
    · cases h
    by_cases hend : l = [] ∧ http.tempHeaderLine = []
    · rw [hend.1, List.nil_append, normalHeaderLoop_end hend.2] at h
      cases h
    rw [normalHeaderLoop_line hl hend] at h
    split at h
    · cases h
    · cases h
    · rw [ih h, takeUp_nil, takeUp, splitLines_line hl, if_neg (List.cons_ne_nil _ _)]

/-- The lines up to the end of the header, and what is behind it. -/
theorem normalHeaderLoop_finished {http http' : HttpData} {n m j : ℕ} {k' : Bytes}
    (h : normalHeaderLoop P n data http k m = .ok (.finished http' k' j)) :
    ∃ ls body, data = withEnds ls ++ 13 :: 10 :: body ∧ (∀ l ∈ ls, findCrlf l = none) ∧
      j = m + ((withEnds ls).length + 2) ∧ [] ∉ joinLines http.tempHeaderLine ls ∧
      (ls = [] → http.tempHeaderLine = []) := by
  induction data using lines_induction generalizing n k m http with
  | rest s hs =>
    rcases n with _ | n
    · cases h
    rw [normalHeaderLoop_rest hs] at h
    cases h
  | line l r hl ih =>
    rcases n with _ | n
    · cases h
    by_cases hend : l = [] ∧ http.tempHeaderLine = []
    · rw [hend.1, List.nil_append, normalHeaderLoop_end hend.2] at h
      cases h
      exact ⟨[], r, by rw [hend.1]; rfl, List.forall_mem_nil _, rfl, List.not_mem_nil, fun _ => hend.2⟩
    rw [normalHeaderLoop_line hl hend] at h
    split at h
    · cases h
    · cases h
    · obtain ⟨ls, body, rfl, hls, rfl, hne, -⟩ := ih h
      rw [joinLines_nil] at hne
      refine ⟨l :: ls, body, ?_, List.forall_mem_cons.2 ⟨hl, hls⟩, ?_, fun hmem => ?_,
        fun hnil => absurd hnil (List.cons_ne_nil _ _)⟩
      · rw [withEnds_cons, List.append_assoc, List.cons_append, List.cons_append]
      · rw [withEnds_cons, List.length_append, List.length_cons, List.length_cons]
        omega
      · rcases List.mem_cons.1 hmem with hnil | hmem
        · exact hend (List.append_eq_nil_iff.1 hnil.symm).symm
        · exact hne hmem

/-- What a call that is presented `data` makes of the reader. -/
inductive IsCall (P : Platform) (r t : HeaderReader) (data : Bytes) : Prop
  | more (text : Bytes)
      (hscan : scanNormal P r.connection.http.tempHeaderLine [] (splitLines data).1 = .ok (.more text))
      (hcontent : t.connection.http.content = r.connection.http.content ++ text)
      (htemp : t.connection.http.tempHeaderLine = takeUp r.connection.http.tempHeaderLine data)
      (hbuffer : t.buffer = []) (hproc : t.connection.dataProcessor = r.connection.dataProcessor)
  | refused (text line : Bytes)
      (hscan : scanNormal P r.connection.http.tempHeaderLine [] (splitLines data).1 =
        .ok (.refused text line))
      (hcontent : t.connection.http.content = r.connection.http.content ++ text)
      (htemp : t.connection.http.tempHeaderLine = line)
      (hbuffer : t.buffer = data) (hproc : t.connection.dataProcessor = r.connection.dataProcessor)
  /-- The header is complete, but there is no future. -/
  | unanswered (text authKey : Bytes)
      (hscan : scanNormal P r.connection.http.tempHeaderLine [] (splitLines data).1 =
        .ok (.ends text authKey))
      (hcontent : t.connection.http.content = r.connection.http.content ++ text ++ [13, 10])
      (hbuffer : t.buffer = data) (hproc : t.connection.dataProcessor = r.connection.dataProcessor)
  | ends (text authKey : Bytes) (ls : List Bytes) (body : Bytes)
      (hscan : scanNormal P r.connection.http.tempHeaderLine [] (splitLines data).1 =
        .ok (.ends text authKey))
      (hcontent : t.connection.http.content = r.connection.http.content ++ text ++ [13, 10])
      (hdata : data = withEnds ls ++ 13 :: 10 :: body) (hls : ∀ l ∈ ls, findCrlf l = none)
      (hne : [] ∉ joinLines r.connection.http.tempHeaderLine ls)
      (hfirst : ls = [] → r.connection.http.tempHeaderLine = [])
      (hbuffer : t.buffer = body) (hproc : t.connection.dataProcessor = .onHttpBody)

theorem isCall_of_present {call : ProxyAccessService σ × Bytes} (h : present S P r call = .ok t) :
    IsCall P r t (r.buffer ++ call.2) := by
  obtain ⟨⟨s', c', n⟩, hx, rfl⟩ := map_eq_ok h
  generalize r.buffer ++ call.2 = data at hx ⊢
  have hloop : ComesTo 0 r.connection.http
      (normalHeaderLoop P (data.length + 1) data r.connection.http [] 0) _ :=
    normalHeaderLoop_scan (Nat.lt_succ_self data.length)
  rw [onHttpNormalHeaderProcessor] at hx
  rcases hscan : scanNormal P r.connection.http.tempHeaderLine [] (splitLines data).1 with
    e | (text | ⟨text, line⟩ | ⟨text, authKey⟩) <;> rw [hscan] at hloop
  · rw [show normalHeaderLoop P (data.length + 1) data r.connection.http [] 0 = .error e from hloop]
      at hx
    cases hx
  · obtain ⟨temp, len, hloop⟩ := hloop
    have htemp := normalHeaderLoop_wait hloop
    rw [hloop] at hx
    cases hx
    exact .more text hscan rfl htemp List.drop_length rfl
  · obtain ⟨reply, len, -, hloop⟩ := hloop
    rw [hloop] at hx
    cases hx
    exact .refused text line hscan rfl rfl rfl rfl
  · obtain ⟨j, len, -, hloop⟩ := hloop
    obtain ⟨ls, body, hdata, hls, hj, hne, hfirst⟩ := normalHeaderLoop_finished hloop
    rw [hloop] at hx
    dsimp only at hx
    generalize hc : ({ r.connection with http := _ } : ClientConnection) = c₁ at hx
    rcases hrequest : requestAuthentication S call.1 c₁ authKey with e | ⟨u, f | f⟩ <;>
      rw [hrequest] at hx <;> cases hx
    · subst hc
      exact .unanswered text authKey hscan rfl rfl rfl
    · subst hc
      refine .ends text authKey ls body hscan rfl hdata hls hne hfirst ?_ rfl
      dsimp only
      rw [Option.getD_some, hj, Nat.zero_add, hdata, ← List.drop_drop, List.drop_left]
      rfl

/-! ## Headers read -/

/-- The header goes on: the lines found have added what they add. -/
structure Reading (c : ClientConnection) (segments : List Bytes) (r : HeaderReader) : Prop where
  content : r.connection.http.content = c.http.content ++ (foundLines [] segments).flatMap passed
  temp : r.connection.http.tempHeaderLine = segments.foldl takeUp []
  buffer : r.buffer = []
  lines : [] ∉ foundLines [] segments

/-- The header was complete, and there was no future; it is presented again. -/
structure Repeated (c : ClientConnection) (segments : List Bytes) (r : HeaderReader) : Prop where
  content : ∃ (ls : List Bytes) (text : Bytes), r.connection.http.content =
    c.http.content ++ (withEnds (ls.flatMap passedLines) ++ 13 :: 10 :: text)
  lines : [] ∈ foundLines [] segments

/-- Where calls that have not completed the header leave it. -/
inductive Reads (P : Platform) (c : ClientConnection) (segments : List Bytes) (r : HeaderReader) : Prop
  | reading (h : Reading c segments r)
  | repeated (h : Repeated c segments r)
  | stuck (h : Stuck P r.connection.http.tempHeaderLine (splitLines r.buffer).1)

theorem IsCall.content_eq (h : IsCall P r t data) :
    ∃ text, t.connection.http.content = r.connection.http.content ++ text := by
  cases h with
  | more text _ hcontent => exact ⟨text, hcontent⟩
  | refused text _ _ hcontent => exact ⟨text, hcontent⟩
  | unanswered text _ _ hcontent => exact ⟨_, hcontent.trans (List.append_assoc _ _ _)⟩
  | ends text _ _ _ _ hcontent => exact ⟨_, hcontent.trans (List.append_assoc _ _ _)⟩

theorem Repeated.append {text : Bytes} (h : Repeated c segments r) (x : Bytes)
    (ht : t.connection.http.content = r.connection.http.content ++ text) :
    Repeated c (segments ++ [x]) t := by
  obtain ⟨⟨ls, text', hcontent⟩, hlines⟩ := h
  refine ⟨⟨ls, text' ++ text, ?_⟩, ?_⟩
  · rw [ht, hcontent]
    simp only [List.append_assoc, List.cons_append]
  · rw [foundLines_snoc]
    exact List.mem_append_left _ hlines

/-- What a call does that does not complete the header. -/
theorem Reads.present {call : ProxyAccessService σ × Bytes} (h : Reads P c segments r)
    (hcall : present S P r call = .ok t) (hproc : t.connection.dataProcessor ≠ .onHttpBody) :
    Reads P c (segments ++ [call.2]) t := by
  have hcases := isCall_of_present hcall
  cases h with
  | reading h =>
    rw [h.buffer, List.nil_append] at hcases
    cases hcases with
    | more text hscan hcontent htemp hbuffer _ =>
      rw [h.temp] at hscan htemp
      obtain ⟨hlines, rfl⟩ := scanNormal_more hscan
      refine .reading ⟨?_, ?_, hbuffer, ?_⟩
      · rw [hcontent, h.content, foundLines_snoc, List.flatMap_append, List.append_assoc]
      · rw [htemp, List.foldl_append]
        rfl
      · rw [foundLines_snoc]
        exact fun hmem => (List.mem_append.1 hmem).elim h.lines hlines
    | refused text line hscan _ htemp hbuffer _ =>
      refine .stuck ?_
      rw [htemp, hbuffer]
      exact stuck_of_refused hscan
    | unanswered text authKey hscan hcontent _ _ =>
      rw [h.temp] at hscan
      obtain ⟨hlines, rfl⟩ := scanNormal_ends hscan
      let found := joinLines (segments.foldl takeUp []) (splitLines call.2).1
      refine .repeated ⟨⟨foundLines [] segments ++ found.takeWhile (· ≠ []), [], ?_⟩, ?_⟩
      · rw [hcontent, h.content, ← flatMap_passed, List.flatMap_append]
        simp only [List.append_assoc]
        rfl
      · rw [foundLines_snoc]
        exact List.mem_append_right _ hlines
    | ends _ _ _ _ _ _ _ _ _ _ _ hbody => exact absurd hbody hproc
  | repeated h =>
    obtain ⟨text, htext⟩ := hcases.content_eq
    exact .repeated (h.append _ htext)
  | stuck h =>
    have hlines : Stuck P r.connection.http.tempHeaderLine (splitLines (r.buffer ++ call.2)).1 := by
      rw [splitLines_append]
      exact h.append _
    cases hcases with
    | more text hscan =>
      obtain ⟨_, _, hy, -⟩ := hlines.scan hscan
      cases hy
    | refused text line hscan _ htemp hbuffer _ =>
      obtain ⟨_, _, hy, hstuck⟩ := hlines.scan hscan
      cases hy
      refine .stuck ?_
      rwa [htemp, hbuffer]
    | unanswered text authKey hscan =>
      obtain ⟨_, _, hy, -⟩ := hlines.scan hscan
      cases hy
    | ends text authKey ls body hscan =>
      obtain ⟨_, _, hy, -⟩ := hlines.scan hscan
      cases hy

/-- A call does not go back to the header. -/
theorem IsCall.dataProcessor (h : IsCall P r t data)
    (ht : t.connection.dataProcessor = .onHttpNormalHeaderProcessor) :
    r.connection.dataProcessor = .onHttpNormalHeaderProcessor := by
  cases h with
  | more _ _ _ _ _ hproc => rw [← hproc, ht]
  | refused _ _ _ _ _ _ hproc => rw [← hproc, ht]
  | unanswered _ _ _ _ _ hproc => rw [← hproc, ht]
  | ends _ _ _ _ _ _ _ _ _ _ _ hbody =>
    rw [ht] at hbody
    cases hbody

/-- Where calls leave a header that is not complete. -/
theorem reads_of_exec {calls : List (ProxyAccessService σ × Bytes)}
    (htemp : c.http.tempHeaderLine = []) (h : exec (present S P) { connection := c } calls = .ok r)
    (hr : r.connection.dataProcessor = .onHttpNormalHeaderProcessor) :
    Reads P c (calls.map Prod.snd) r := by
  induction calls using List.reverseRecOn generalizing r with
  | nil =>
    cases h
    exact .reading ⟨(List.append_nil _).symm, htemp, rfl, List.not_mem_nil⟩
  | append_singleton calls call ih =>
    obtain ⟨u, hu, hcall⟩ := exec_append_eq_ok.1 h
    obtain ⟨u', hu', hnil⟩ := exec_cons_eq_ok.1 hcall
    cases hnil
    rw [List.map_append]
    exact (ih hu ((isCall_of_present hu').dataProcessor hr)).present hu' (by
      rw [hr]
      exact TcpDataProcessor.noConfusion)

/-- A header that was filtered has no empty line but the last. -/
theorem Repeated.not_filters (h : Repeated c segments r) {text : Bytes}
    (hcontent : t.connection.http.content = r.connection.http.content ++ text ++ [13, 10]) :
    ¬FiltersHeader c data t := by
  rintro ⟨ls, body, ⟨-, hlines⟩, hcontent', -⟩
  obtain ⟨⟨ls', text', hrepeated⟩, -⟩ := h
  have hfiltered : ∀ l ∈ ls.flatMap filtered, l ≠ [] ∧ findCrlf l = none := by
    intro l hl
    obtain ⟨line, hline, hl⟩ := List.mem_flatMap.1 hl
    exact of_mem_filtered hl (hlines line hline).2 (hlines line hline).1
  -- The same bytes as lines of the first header and more, and as lines that are not empty.
  have hbytes : withEnds (ls'.flatMap passedLines ++ [[]]) ++ (text' ++ text ++ [13, 10]) =
      withEnds (ls.flatMap filtered ++ [[]]) ++ [] := by
    rw [hcontent, hrepeated] at hcontent'
    rw [withEnds_append, withEnds_append, List.append_nil]
    refine (List.append_right_inj c.http.content).1 ?_
    rw [show withEnds [[]] = [13, 10] from rfl, ← hcontent']
    simp only [List.append_assoc, List.cons_append, List.nil_append]
  have hpassed : ∀ l ∈ ls'.flatMap passedLines ++ [[]], findCrlf l = none := by
    intro l hl
    rcases List.mem_append.1 hl with hl | hl
    · exact findCrlf_of_mem_flatMap (fun _ _ => findCrlf_of_mem_passedLines) ls' l hl
    · rw [List.mem_singleton.1 hl]
      rfl
  have hkept : ∀ l ∈ ls.flatMap filtered ++ [[]], findCrlf l = none := by
    intro l hl
    rcases List.mem_append.1 hl with hl | hl
    · exact (hfiltered l hl).2
    · rw [List.mem_singleton.1 hl]
      rfl
  obtain ⟨l, ls'', hrest, -⟩ := exists_splitLines_crlf (text' ++ text)
  have hsplit := congrArg (fun s => (splitLines s).1) hbytes
  rw [splitLines_withEnds hpassed, splitLines_withEnds hkept, hrest, splitLines_rest rfl,
    List.append_nil] at hsplit
  -- Without the last line of both, there is still an empty one.
  have hlast := congrArg List.dropLast hsplit
  rw [List.dropLast_append_of_ne_nil (List.cons_ne_nil _ _), List.dropLast_concat] at hlast
  have hmem : [] ∈ ls.flatMap filtered := by
    rw [← hlast]
    exact List.mem_append_left _ (List.mem_append_right _ List.mem_cons_self)
  exact (hfiltered [] hmem).1 rfl

/-! ## What is forwarded -/

/-- The lines before the empty one, when it is the last. -/
theorem takeWhile_ne_nil_append {ls : List Bytes} (h : [] ∉ ls) (ls' : List Bytes) :
    (ls ++ ls').takeWhile (· ≠ []) = ls ++ ls'.takeWhile (· ≠ []) := by
  refine List.takeWhile_append_of_pos fun l hl => decide_eq_true ?_
  rintro rfl
  exact h hl

/-- The lines before the empty one are all that are written before it. -/
theorem takeWhile_joinLines {body : Bytes} (hls : ∀ l ∈ ls, findCrlf l = none)
    (hne : [] ∉ joinLines temp ls) (hfirst : ls = [] → temp = []) :
    (joinLines temp (splitLines (withEnds ls ++ 13 :: 10 :: body)).1).takeWhile (· ≠ []) =
      joinLines temp ls := by
  rw [splitLines_withEnds hls]
  have hbody : (splitLines (13 :: 10 :: body)).1 = [] :: (splitLines body).1 :=
    congrArg Prod.fst (splitLines_line (l := []) rfl body)
  rw [hbody]
  rcases ls with _ | ⟨l, ls⟩
  · rw [hfirst rfl]
    rfl
  · have htake := takeWhile_ne_nil_append hne ([] :: (splitLines body).1)
    rwa [List.takeWhile_cons, if_neg (by simp), List.append_nil] at htake

/-- A header that was found as it came, and is complete, has been filtered if and only if each of
    its lines is recognised. -/
theorem Reading.filters_iff (h : Reading c segments r) {text authKey body : Bytes}
    (hscan : scanNormal P r.connection.http.tempHeaderLine [] (splitLines x).1 =
      .ok (.ends text authKey))
    (hcontent : t.connection.http.content = r.connection.http.content ++ text ++ [13, 10])
    (hx : x = withEnds ls ++ 13 :: 10 :: body) (hls : ∀ l ∈ ls, findCrlf l = none)
    (hne : [] ∉ joinLines r.connection.http.tempHeaderLine ls)
    (hfirst : ls = [] → r.connection.http.tempHeaderLine = []) (hbuffer : t.buffer = body) :
    FiltersHeader c (segments ++ [x]).flatten t ↔ FoundRight segments x := by
  have hlines : (foundLines [] (segments ++ [x])).takeWhile (· ≠ []) =
      foundLines [] segments ++ joinLines r.connection.http.tempHeaderLine ls := by
    rw [foundLines_snoc, takeWhile_ne_nil_append h.lines, ← h.temp, hx,
      takeWhile_joinLines hls hne hfirst]
  rw [FoundRight, and_iff_right h.lines, hlines]
  refine filtersHeader_iff_recognised ?_ ?_ hbuffer
  · -- The bytes are those of the lines found.
    have hbefore := withEnds_foundLines [] segments
    rw [← h.temp, List.nil_append] at hbefore
    rw [List.flatten_append, List.flatten_singleton, ← hbefore, hx, withEnds_append]
    rcases ls with _ | ⟨l, ls⟩
    · rw [hfirst rfl, joinLines, List.append_nil]
      simp only [List.nil_append, withEnds_nil, List.append_nil]
    · rw [joinLines, withEnds_cons, withEnds_cons]
      simp only [List.append_assoc, List.cons_append]
  · obtain ⟨-, rfl⟩ := scanNormal_ends hscan
    rw [hcontent, h.content, hx, takeWhile_joinLines hls hne hfirst, ← flatMap_passed,
      List.flatMap_append]
    simp only [List.append_assoc]

/-- What is forwarded is the header as it is to be if and only if the header was completed by the
    last call only, and each line found is handled as the lines in it should be. -/
theorem filtersHeader_iff {calls : List (ProxyAccessService σ × Bytes)}
    {call : ProxyAccessService σ × Bytes} (htemp : c.http.tempHeaderLine = [])
    (hcalls : exec (present S P) { connection := c } calls = .ok r)
    (hr : r.connection.dataProcessor = .onHttpNormalHeaderProcessor)
    (hcall : present S P r call = .ok t) (ht : t.connection.dataProcessor = .onHttpBody) :
    FiltersHeader c ((calls.map Prod.snd ++ [call.2]).flatten) t ↔
      FoundRight (calls.map Prod.snd) call.2 := by
  have hother : ¬t.connection.dataProcessor = r.connection.dataProcessor := by
    rw [hr, ht]
    exact TcpDataProcessor.noConfusion
  have hcases := isCall_of_present hcall
  cases hcases with
  | more _ _ _ _ _ hproc => exact absurd hproc hother
  | refused _ _ _ _ _ _ hproc => exact absurd hproc hother
  | unanswered _ _ _ _ _ hproc => exact absurd hproc hother
  | ends text authKey ls body hscan hcontent hdata hls hne hfirst hbuffer _ =>
    rcases reads_of_exec htemp hcalls hr with h | h | h
    · rw [h.buffer, List.nil_append] at hscan hdata
      exact h.filters_iff hscan hcontent hdata hls hne hfirst hbuffer
    · -- The header was complete before.
      exact iff_of_false (h.not_filters hcontent) fun hfound => hfound.1 h.lines
    · -- One that was refused is never completed.
      have hlines : Stuck P r.connection.http.tempHeaderLine (splitLines (r.buffer ++ call.2)).1 := by
        rw [splitLines_append]
        exact h.append _
      obtain ⟨_, _, hy, -⟩ := hlines.scan hscan
      cases hy

/-- Fields cut anywhere: in a line end before one that is kept, and before the empty line. -/
theorem filtersHeader_cut : ∃ r t,
    exec (present grantingServices credentialPlatform) { connection := headerConnection }
      [(init (), ascii "Host: b\r"),
        (init (), ascii "\nX: 1\r\npRoxy-connection: x\r\nConnection: keep-al"),
        (init (), ascii "ive\r\n")] = .ok r ∧
    present grantingServices credentialPlatform r (init (), ascii "\r\nbody") = .ok t ∧
    FiltersHeader headerConnection (ascii "Host: b\r\nX: 1\r\npRoxy-connection: x\r\n" ++
      ascii "Connection: keep-alive\r\n\r\nbody") t := by
  obtain ⟨r, hcalls, hr⟩ := exists_ok_of_check
    (x := exec (present grantingServices credentialPlatform) { connection := headerConnection }
      [(init (), ascii "Host: b\r"),
        (init (), ascii "\nX: 1\r\npRoxy-connection: x\r\nConnection: keep-al"),
        (init (), ascii "ive\r\n")])
    (p := fun r => r.connection.dataProcessor = .onHttpNormalHeaderProcessor) (by decide +kernel)
  obtain ⟨t, ht, hp⟩ := exists_ok_of_check
    (x := exec (present grantingServices credentialPlatform) { connection := headerConnection }
      [(init (), ascii "Host: b\r"),
        (init (), ascii "\nX: 1\r\npRoxy-connection: x\r\nConnection: keep-al"),
        (init (), ascii "ive\r\n"), (init (), ascii "\r\nbody")])
    (p := fun t => t.connection.dataProcessor = .onHttpBody) (by decide +kernel)
  have hcall := exec_snoc (init (), ascii "\r\nbody") hcalls
  rw [List.cons_append, List.cons_append, List.cons_append, List.nil_append, ht] at hcall
  have hfiltered := (filtersHeader_iff rfl hcalls (of_decide_eq_true hr) hcall.symm
    (of_decide_eq_true hp)).2 (by decide +kernel)
  have hbytes : (List.map Prod.snd [((init () : ProxyAccessService Unit), ascii "Host: b\r"),
      (init (), ascii "\nX: 1\r\npRoxy-connection: x\r\nConnection: keep-al"),
      (init (), ascii "ive\r\n")] ++ [ascii "\r\nbody"]).flatten =
      ascii "Host: b\r\nX: 1\r\npRoxy-connection: x\r\n" ++
        ascii "Connection: keep-alive\r\n\r\nbody" := by decide +kernel
  rw [hbytes] at hfiltered
  exact ⟨r, t, hcalls, hcall.symm, hfiltered⟩

/-- A header that was filtered adds no line that is meant for the proxy. -/
theorem FiltersHeader.not_isForProxy {text : Bytes} (h : FiltersHeader c data t)
    (hcontent : t.connection.http.content = c.http.content ++ text) (hl : l ∈ (splitLines text).1) :
    ¬IsForProxy l := by
  obtain ⟨ls, body, ⟨-, hlines⟩, hcontent', -⟩ := h
  rw [hcontent, List.append_right_inj] at hcontent'
  have hkept : ∀ l ∈ ls.flatMap filtered, findCrlf l = none := by
    intro l hl
    obtain ⟨line, hline, hl⟩ := List.mem_flatMap.1 hl
    exact (of_mem_filtered hl (hlines line hline).2 (hlines line hline).1).2
  rw [hcontent', splitLines_withEnds hkept] at hl
  rcases List.mem_append.1 hl with hl | hl
  · obtain ⟨line, -, hl⟩ := List.mem_flatMap.1 hl
    exact not_isForProxy_of_mem_filtered hl
  · -- The line behind them is empty.
    rw [List.mem_singleton.1 hl]
    exact fun hproxy => hproxy.ne_nil rfl

/-- Without the space after the colon the credential is forwarded, and so it is behind a line that
    is cut in its end. -/
theorem filtersHeader_counterexample :
    (∃ t, exec (present grantingServices credentialPlatform) { connection := headerConnection }
        [(init (), ascii "Proxy-Authorization:Basic YTpi\r\n\r\n")] = .ok t ∧
      t.connection.dataProcessor = .onHttpBody ∧
      ¬FiltersHeader headerConnection (ascii "Proxy-Authorization:Basic YTpi\r\n\r\n") t) ∧
    ∃ t, exec (present grantingServices credentialPlatform) { connection := headerConnection }
        [(init (), ascii "Host: h\r"), (init (), ascii "\nProxy-Authorization: Basic YTpi\r\n" ++
          ascii "Proxy-Authorization: Basic YTpi\r\n\r\n")] = .ok t ∧
      t.connection.dataProcessor = .onHttpBody ∧
      ¬FiltersHeader headerConnection (ascii "Host: h\r\nProxy-Authorization: Basic YTpi\r\n" ++
        ascii "Proxy-Authorization: Basic YTpi\r\n\r\n") t := by
  constructor
  · obtain ⟨t, ht, hp⟩ := exists_ok_of_check
      (x := exec (present grantingServices credentialPlatform) { connection := headerConnection }
        [(init (), ascii "Proxy-Authorization:Basic YTpi\r\n\r\n")])
      (p := fun t => t.connection.dataProcessor = .onHttpBody ∧ t.connection.http.content =
        headerConnection.http.content ++ ascii "Proxy-Authorization:Basic YTpi\r\n\r\n")
      (by decide +kernel)
    obtain ⟨hproc, hcontent⟩ := of_decide_eq_true hp
    have hmem : ascii "Proxy-Authorization:Basic YTpi" ∈
        (splitLines (ascii "Proxy-Authorization:Basic YTpi\r\n\r\n")).1 := by decide +kernel
    exact ⟨t, ht, hproc, fun h => h.not_isForProxy hcontent hmem (.inr (by decide +kernel))⟩
  · obtain ⟨t, ht, hp⟩ := exists_ok_of_check
      (x := exec (present grantingServices credentialPlatform) { connection := headerConnection }
        [(init (), ascii "Host: h\r"), (init (), ascii "\nProxy-Authorization: Basic YTpi\r\n" ++
          ascii "Proxy-Authorization: Basic YTpi\r\n\r\n")])
      (p := fun t => t.connection.dataProcessor = .onHttpBody ∧ t.connection.http.content =
        headerConnection.http.content ++
          ascii "Host: h\r\nProxy-Authorization: Basic YTpi\r\n\r\n")
      (by decide +kernel)
    obtain ⟨hproc, hcontent⟩ := of_decide_eq_true hp
    have hmem : ascii "Proxy-Authorization: Basic YTpi" ∈ (splitLines
        (ascii "Host: h\r\nProxy-Authorization: Basic YTpi\r\n\r\n")).1 := by decide +kernel
    exact ⟨t, ht, hproc, fun h => h.not_isForProxy hcontent hmem (.inr (by decide +kernel))⟩

end HeaderReader

end ProxyPlatform
