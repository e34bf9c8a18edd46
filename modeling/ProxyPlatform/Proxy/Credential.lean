import ProxyPlatform.Proxy.Header
import ProxyPlatform.Proxy.Ledger

/-!
# The keys a client can ask for

The auth map has the accounts under `account ++ 0 :: password`, and the white-listed ips
under `0 :: ip` (`combineAccountPass`). A SOCKS5 client without user and password is
looked up by its ip; any other key is made of what the client sends, and the separator
in it is put behind an account that is not empty.

* `IsKeyFor`: the keys that are made for a client;
* `keysOwn_of_exec`: no other key is ever looked up, so that a client only reaches the
  entry of its own ip;
* `Separated`: the header at hand has no credential without a colon, up to the first one
  that is refused;
* `keysOwn_iff`: exactly then the separator is written within the decoded credential.
-/

namespace ProxyPlatform

/-- The key of a white-listed ip is that of an empty account. -/
theorem combineAccountPass_nil (ip : Bytes) : combineAccountPass [] ip = 0 :: ip := rfl

namespace ProxyAccessService

variable {σ : Type*} (S : Services σ) (P : Platform)

/-! ## Keys -/

/-- An account, the separator and a password. -/
def IsAccountKey (key : Bytes) : Prop :=
  ∃ account pass, account ≠ [] ∧ key = combineAccountPass account pass

/-- The keys that are made for a client: that of its ip, and those of its credentials. -/
def IsKeyFor (remoteAddress : NetAddress) (key : Bytes) : Prop :=
  key = 0 :: P.ipToString remoteAddress ∨ key = [] ∨ IsAccountKey key

/-- A lookup is for a key of the client. -/
def LooksUpOwn : ProxyCall → Prop
  | .acquireAuthInfo _ remoteAddress authView _ => IsKeyFor P remoteAddress authView
  | _ => True

/-! ## Credentials with a separator -/

/-- The header of a `CONNECT` request, by its lines: no credential is without a colon, up to
    the first one that is refused. -/
def SeparatedRaw : List Bytes → Prop
  | [] => True
  | line :: lines =>
    line = [] ∨
    if IsCredential line then
      let decoded := P.base64Decode (line.drop 27)
      line.length < 27 ∨ find 58 decoded = some 0 ∨ 58 ∈ decoded ∧ SeparatedRaw lines
    else SeparatedRaw lines

/-- The same for another request, where the first line is behind `temp`, and the length of
    its last piece counts. -/
def SeparatedNormal : (temp : Bytes) → List Bytes → Prop
  | _, [] => True
  | temp, piece :: lines =>
    let line := temp ++ piece
    let authLength := sub64 piece.length 21
    line = [] ∨
    if IsCredential line then
      let decoded := P.base64Decode ((line.drop 27).take (sub64 authLength 6))
      authLength < 6 ∧ !strncasecmp (ascii "Basic ") (line.drop 21) ∨
      (line.drop 27).length < sub64 authLength 6 ∨
      find 58 decoded = some 0 ∨ 58 ∈ decoded ∧ SeparatedNormal [] lines
    else SeparatedNormal [] lines

instance decidableSeparatedRaw : (lines : List Bytes) → Decidable (SeparatedRaw P lines)
  | [] => inferInstanceAs (Decidable True)
  | _ :: lines => by
    have hnext := decidableSeparatedRaw lines
    unfold SeparatedRaw
    infer_instance

/-- The data that comes next has no credential without a colon, up to the first one that is
    refused. -/
def Separated (s : ProxyAccessService σ) : ProxyEvent → Prop
  | .onData k data => ∀ c ∈ s.clientConnectionPool.get k, match c.dataProcessor with
    | .onHttpRawHeaderProcessor => SeparatedRaw P (splitLines data).1
    | .onHttpNormalHeaderProcessor => SeparatedNormal P c.http.tempHeaderLine (splitLines data).1
    | _ => True
  | _ => True

/-- The separator is written within the decoded credentials. -/
def IndexInRange (c : ClientConnection) (data : Bytes) : Prop :=
  match c.dataProcessor with
  | .onHttpRawHeaderProcessor =>
    rawHeaderLoop P (data.length + 1) data [] 0 ≠ .error .indexOutOfRange
  | .onHttpNormalHeaderProcessor =>
    normalHeaderLoop P (data.length + 1) data c.http [] 0 ≠ .error .indexOutOfRange
  | _ => True

/-- A client reaches the entry of no ip but its own, and its credentials are read within their
    bounds. -/
structure KeysOwn (services : σ) (es : List ProxyEvent) : Prop where
  own : ∀ pre s k remoteAddress ip r, pre <+: es → exec (step S P) (init services) pre = .ok s →
    .acquireAuthInfo k remoteAddress (combineAccountPass [] ip) r ∈ s.calls → 0 ∉ ip →
    ip = P.ipToString remoteAddress
  inRange : ∀ pre k data s c, pre ++ [.onData k data] <+: es →
    exec (step S P) (init services) pre = .ok s → s.clientConnectionPool.get k = some c →
    IndexInRange P c data

section

variable {S P} {s t s' : ProxyAccessService σ} {c c' : ClientConnection} {data key : Bytes}
  {n : Option ℕ}

/-- The key of an account is that of no ip. -/
theorem IsAccountKey.mem_of_cons {ip : Bytes} (h : IsAccountKey (0 :: ip)) : 0 ∈ ip := by
  obtain ⟨account, pass, hne, heq⟩ := h
  cases account with
  | nil => exact absurd rfl hne
  | cons b account =>
    rw [combineAccountPass, List.cons_append] at heq
    rw [(List.cons.inj heq).2]
    simp

/-- A client only reaches the entry of its own ip. -/
theorem IsKeyFor.eq_ipToString {remoteAddress : NetAddress} {ip : Bytes}
    (h : IsKeyFor P remoteAddress (0 :: ip)) (hip : 0 ∉ ip) : ip = P.ipToString remoteAddress := by
  rcases h with h | h | h
  · exact (List.cons.inj h).2
  · cases h
  · exact absurd h.mem_of_cons hip

theorem isAccountKey_of_authKeyOf {a : Bytes} (h : authKeyOf a = .ok (some key)) :
    IsAccountKey key :=
  authKeyOf_eq_some h

/-- The loop over the header of a `CONNECT` request ends with the key of an account. -/
theorem rawHeaderLoop_key {fuel m i : ℕ} {k : Bytes} (hk : k = [] ∨ IsAccountKey k)
    (hfuel : data.length < fuel)
    (h : rawHeaderLoop P fuel data k m = .ok (.authenticate key i)) : IsAccountKey key := by
  induction data using lines_induction generalizing fuel k m with
  | rest r hr =>
    obtain ⟨n, rfl⟩ : ∃ n, fuel = n + 1 := ⟨fuel - 1, by omega⟩
    rw [rawHeaderLoop_rest hr] at h
    cases h
  | line l r hl ih =>
    obtain ⟨n, rfl⟩ : ∃ n, fuel = n + 1 := ⟨fuel - 1, by omega⟩
    have hlen : r.length < n := by
      simp only [List.length_append, List.length_cons] at hfuel; omega
    by_cases hnil : l = []
    · subst hnil
      rw [List.nil_append, rawHeaderLoop_end] at h
      split at h
      · cases h
      · next hne => cases h; exact hk.resolve_left hne
    · rw [rawHeaderLoop_line hl hnil] at h
      split at h
      · cases h
      · exact ih hk hlen h
      · cases h
      · cases h
      · next authKey hc =>
        refine ih (.inr ?_) hlen h
        unfold readCredential at hc
        split at hc
        · split at hc
          · cases hc
          · split at hc
            · cases hc
            · cases hc
            · next ha => cases hc; exact isAccountKey_of_authKeyOf ha
        · cases hc

/-- A line of another header leaves the key, or makes one. -/
theorem processHeaderLine_key {http http' : HttpData} {k : Bytes} {i : ℕ}
    (hk : k = [] ∨ IsAccountKey k) (h : processHeaderLine P http k i = .ok (.next http' key)) :
    key = [] ∨ IsAccountKey key := by
  simp only [processHeaderLine] at h
  split at h
  · cases h; exact hk
  split at h
  · cases h; exact hk
  split at h
  · split at h
    · cases h
    split at h
    · cases h
    split at h
    · cases h
    · cases h
    · next ha => cases h; exact .inr (isAccountKey_of_authKeyOf ha)
  split at h
  · split at h
    · cases h
    · cases h; exact hk
  · cases h; exact hk

/-- The loop over another header ends without a key, or with that of an account. -/
theorem normalHeaderLoop_key {fuel m i : ℕ} {http http' : HttpData} {k : Bytes}
    (hk : k = [] ∨ IsAccountKey k) (hfuel : data.length < fuel)
    (h : normalHeaderLoop P fuel data http k m = .ok (.finished http' key i)) :
    key = [] ∨ IsAccountKey key := by
  induction data using lines_induction generalizing fuel http k m with
  | rest r hr =>
    obtain ⟨n, rfl⟩ : ∃ n, fuel = n + 1 := ⟨fuel - 1, by omega⟩
    rw [normalHeaderLoop_rest hr] at h
    cases h
  | line l r hl ih =>
    obtain ⟨n, rfl⟩ : ∃ n, fuel = n + 1 := ⟨fuel - 1, by omega⟩
    have hlen : r.length < n := by
      simp only [List.length_append, List.length_cons] at hfuel; omega
    by_cases hnil : l = [] ∧ http.tempHeaderLine = []
    · obtain ⟨rfl, ht⟩ := hnil
      rw [List.nil_append, normalHeaderLoop_end ht] at h
      cases h
      exact hk
    · rw [normalHeaderLoop_line hl hnil] at h
      split at h
      · cases h
      · cases h
      · next hp => exact ih (processHeaderLine_key hk hp) hlen h

/-! ## Faults -/

/-- A decoded credential without a colon is a fault, and no other one is. -/
theorem authKeyOf_cases (a : Bytes) :
    58 ∉ a ∧ authKeyOf a = .error .indexOutOfRange ∨
    find 58 a = some 0 ∧ authKeyOf a = .ok none ∨
    58 ∈ a ∧ find 58 a ≠ some 0 ∧ ∃ k, authKeyOf a = .ok (some k) := by
  unfold authKeyOf
  cases h : find 58 a with
  | none => exact .inl ⟨find_eq_none.1 h, rfl⟩
  | some n =>
    have hmem : 58 ∈ a := by
      by_contra hno
      rw [find_eq_none.2 hno] at h
      cases h
    by_cases hn : n = 0
    · subst hn; exact .inr (.inl ⟨rfl, rfl⟩)
    · exact .inr (.inr ⟨hmem, by simpa using hn, _, if_neg hn⟩)

/-- The loop over the header of a `CONNECT` request writes no separator out of range, exactly if
    there is a colon in each credential it decodes. -/
theorem rawHeaderLoop_separated {fuel m : ℕ} {k : Bytes} (hfuel : data.length < fuel) :
    rawHeaderLoop P fuel data k m ≠ .error .indexOutOfRange ↔
      SeparatedRaw P (splitLines data).1 := by
  induction data using lines_induction generalizing fuel k m with
  | rest r hr =>
    obtain ⟨n, rfl⟩ : ∃ n, fuel = n + 1 := ⟨fuel - 1, by omega⟩
    rw [rawHeaderLoop_rest hr, splitLines_rest hr]
    exact iff_of_true (by simp) trivial
  | line l r hl ih =>
    obtain ⟨n, rfl⟩ : ∃ n, fuel = n + 1 := ⟨fuel - 1, by omega⟩
    have hlen : r.length < n := by
      simp only [List.length_append, List.length_cons] at hfuel; omega
    rw [splitLines_line hl]
    dsimp only
    rw [SeparatedRaw]
    by_cases hnil : l = []
    · subst hnil
      rw [List.nil_append, rawHeaderLoop_end]
      refine iff_of_true ?_ (.inl rfl)
      split <;> simp
    rw [rawHeaderLoop_line hl hnil, or_iff_right hnil]
    unfold readCredential
    by_cases hc : IsCredential l
    · rw [if_pos hc, if_pos hc]
      by_cases h27 : l.length < 27
      · rw [if_pos h27]
        exact iff_of_true (by simp) (.inl h27)
      rw [if_neg h27]
      dsimp only
      rw [or_iff_right h27]
      rcases authKeyOf_cases (P.base64Decode (l.drop 27)) with
        ⟨hno, ha⟩ | ⟨h0, ha⟩ | ⟨hmem, h0, key, ha⟩
      · rw [ha]
        refine iff_of_false (by simp) ?_
        rintro (h | h)
        · exact hno (List.mem_of_getElem? (find_eq_some h).2)
        · exact hno h.1
      · rw [ha]
        exact iff_of_true (by simp) (.inl h0)
      · rw [ha, or_iff_right h0, and_iff_right hmem]
        exact ih hlen
    · rw [if_neg hc, if_neg hc]
      exact ih hlen

/-- A number that ends with a NUL is read. -/
theorem strtol_nul (l : Bytes) : ∃ i, strtol (l ++ [0]) = .ok i := by
  obtain ⟨i, hi⟩ := strtol_of_mem (b := 0) (l := l ++ [0]) (by decide) (by simp)
  exact ⟨i, by simpa using hi []⟩

/-- So does the loop over another header. -/
theorem normalHeaderLoop_separated {fuel m : ℕ} {http : HttpData} {k : Bytes}
    (hfuel : data.length < fuel) :
    normalHeaderLoop P fuel data http k m ≠ .error .indexOutOfRange ↔
      SeparatedNormal P http.tempHeaderLine (splitLines data).1 := by
  induction data using lines_induction generalizing fuel http k m with
  | rest r hr =>
    obtain ⟨n, rfl⟩ : ∃ n, fuel = n + 1 := ⟨fuel - 1, by omega⟩
    rw [normalHeaderLoop_rest hr, splitLines_rest hr]
    exact iff_of_true (by simp) trivial
  | line l r hl ih =>
    obtain ⟨n, rfl⟩ : ∃ n, fuel = n + 1 := ⟨fuel - 1, by omega⟩
    have hlen : r.length < n := by
      simp only [List.length_append, List.length_cons] at hfuel; omega
    rw [splitLines_line hl]
    dsimp only
    rw [SeparatedNormal]
    have hnil : http.tempHeaderLine ++ l = [] ↔ l = [] ∧ http.tempHeaderLine = [] := by
      rw [List.append_eq_nil_iff, and_comm]
    dsimp only
    by_cases hempty : l = [] ∧ http.tempHeaderLine = []
    · obtain ⟨rfl, ht⟩ := hempty
      rw [List.nil_append, normalHeaderLoop_end ht]
      exact iff_of_true (by simp) (.inl (hnil.2 ⟨rfl, ht⟩))
    rw [normalHeaderLoop_line hl hempty, or_iff_right (mt hnil.1 hempty)]
    have hnext (http' : HttpData) (k' : Bytes) :
        normalHeaderLoop P n r { http' with tempHeaderLine := [] } k' (m + (l.length + 2)) ≠
            .error .indexOutOfRange ↔ SeparatedNormal P [] (splitLines r).1 :=
      ih hlen
    by_cases hc : IsCredential (http.tempHeaderLine ++ l)
    · rw [if_pos hc]
      have h₁ : ¬(18 < (http.tempHeaderLine ++ l).length ∧
          strncasecmp (ascii "Proxy-Connection: ") (http.tempHeaderLine ++ l)) := by
        rw [hc.not_connection.1]; simp
      have h₂ : ¬(12 < (http.tempHeaderLine ++ l).length ∧
          strncasecmp (ascii "Connection: ") (http.tempHeaderLine ++ l)) := by
        rw [hc.not_connection.2]; simp
      have h₃ : 21 < (http.tempHeaderLine ++ l).length ∧
          strncasecmp (ascii "Proxy-Authorization: ") (http.tempHeaderLine ++ l) := hc
      unfold processHeaderLine
      dsimp only
      rw [if_neg h₁, if_neg h₂, if_pos h₃]
      by_cases hb : sub64 l.length 21 < 6 ∧
          !strncasecmp (ascii "Basic ") ((http.tempHeaderLine ++ l).drop 21)
      · rw [if_pos hb]
        exact iff_of_true (by simp) (.inl hb)
      rw [if_neg hb, or_iff_right hb, List.drop_drop, base64DecodeAt]
      by_cases hlt : ((http.tempHeaderLine ++ l).drop 27).length < sub64 (sub64 l.length 21) 6
      · rw [if_pos hlt]
        exact iff_of_true (by simp) (.inl hlt)
      rw [if_neg hlt, or_iff_right hlt]
      dsimp only
      rcases authKeyOf_cases (P.base64Decode (((http.tempHeaderLine ++ l).drop 27).take
        (sub64 (sub64 l.length 21) 6))) with ⟨hno, ha⟩ | ⟨h0, ha⟩ | ⟨hmem, h0, key, ha⟩
      · rw [ha]
        refine iff_of_false (by simp) ?_
        rintro (h | h)
        · exact hno (List.mem_of_getElem? (find_eq_some h).2)
        · exact hno h.1
      · rw [ha]
        exact iff_of_true (by simp) (.inl h0)
      · rw [ha, or_iff_right h0, and_iff_right hmem]
        exact hnext _ _
    · rw [if_neg hc]
      unfold processHeaderLine
      dsimp only
      split
      · next hp =>
        split at hp
        · cases hp
        split at hp
        · cases hp
        split at hp
        · next h => exact absurd h hc
        split at hp
        · obtain ⟨i, hi⟩ := strtol_nul ((http.tempHeaderLine ++ l).drop 16)
          rw [atoll64, hi] at hp
          cases hp
        · cases hp
      · next hp =>
        split at hp
        · cases hp
        split at hp
        · cases hp
        split at hp
        · next h => exact absurd h hc
        split at hp
        · obtain ⟨i, hi⟩ := strtol_nul ((http.tempHeaderLine ++ l).drop 16)
          rw [atoll64, hi] at hp
          cases hp
        · cases hp
      · exact hnext _ _

/-! ## Lookups -/

/-- What is looked up in between are keys of the client. -/
def OwnLookups (P : Platform) (s t : ProxyAccessService σ) : Prop :=
  ∃ l, t.calls = s.calls ++ l ∧ ∀ x ∈ l, LooksUpOwn P x

theorem looksUpOwn_of_not_auth {x : ProxyCall} (h : ¬IsAuthCall x) : LooksUpOwn P x := by
  cases x with
  | acquireAuthInfo => exact absurd trivial h
  | _ => trivial

theorem SameAuthCalls.ownLookups (h : SameAuthCalls s t) : OwnLookups P s t :=
  let ⟨l, hl, hno⟩ := h
  ⟨l, hl, fun x hx => looksUpOwn_of_not_auth (hno x hx)⟩

theorem OwnLookups.refl (s : ProxyAccessService σ) : OwnLookups P s s :=
  (SameAuthCalls.refl s).ownLookups

/-- Another call that is no lookup. -/
theorem OwnLookups.append {l : List ProxyCall} (h : OwnLookups P s t)
    (hs : s'.calls = t.calls ++ l) (hl : ∀ x ∈ l, ¬IsAuthCall x) : OwnLookups P s s' := by
  obtain ⟨m, hm, hown⟩ := h
  refine ⟨m ++ l, by rw [hs, hm, List.append_assoc], fun x hx => ?_⟩
  rcases List.mem_append.1 hx with hx | hx
  · exact hown x hx
  · exact looksUpOwn_of_not_auth (hl x hx)

theorem OwnLookups.post {o : Origin} (h : OwnLookups P s t) :
    OwnLookups P s (post P t c o data).1 :=
  h.append (l := [.post c.connectionId o data]) rfl (by simp [IsAuthCall])

/-- A request for authentication looks up the key it is given. -/
theorem requestAuthentication_ownLookups {f : Option ℕ} (hkey : IsKeyFor P c.remoteAddress key)
    (h : requestAuthentication S s c key = .ok (s', f)) : OwnLookups P s s' := by
  obtain ⟨-, rfl⟩ | ⟨f, m, u, r, -, -, -, rfl⟩ := requestAuthentication_eq_ok h
  · exact .refl _
  · exact ⟨[_], rfl, by simpa [LooksUpOwn] using hkey⟩

theorem onS5Challenge_ownLookups (h : onS5Challenge S P s c data = .ok (s', c', n)) :
    OwnLookups P s s' := by
  simp only [onS5Challenge] at h
  iterate 2
    split at h
    · cases h; exact .refl s
  split at h
  · split at h
    · cases h
    · next s₁ hs₁ =>
      cases h
      exact (requestAuthentication_ownLookups (.inl rfl) hs₁).post
    · next s₁ f hs₁ => cases h; exact requestAuthentication_ownLookups (.inl rfl) hs₁
  · cases h
    exact (OwnLookups.refl s).post

/-- The user of a SOCKS5 client is not empty. -/
theorem onS5AuthInfo_ownLookups (h : onS5AuthInfo S P s c data = .ok (s', c', n)) :
    OwnLookups P s s' := by
  simp only [onS5AuthInfo] at h
  split at h
  · cases h; exact .refl s
  split at h
  · cases h; exact .refl s
  split at h
  · cases h; exact .refl s
  next hlong =>
  split at h
  · cases h; exact .refl s
  split at h
  · cases h; exact .refl s
  next hempty =>
  have hkey : IsKeyFor P c.remoteAddress ((data.drop 2).take (data.getD 1 0).toNat ++
      0 :: (data.drop (3 + (data.getD 1 0).toNat)).take
        (data.getD (2 + (data.getD 1 0).toNat) 0).toNat) := by
    refine .inr (.inr ⟨_, _, fun hnil => ?_, rfl⟩)
    have hlen := congrArg List.length hnil
    rw [List.length_take, List.length_drop, List.length_nil] at hlen
    omega
  split at h
  · cases h
  · next s₁ hs₁ => cases h; exact (requestAuthentication_ownLookups hkey hs₁).post
  · next s₁ f hs₁ => cases h; exact requestAuthentication_ownLookups hkey hs₁

theorem onHttpChallenge_ownLookups (h : onHttpChallenge s c data = .ok (s', c', n)) :
    OwnLookups P s s' := by
  simp only [onHttpChallenge, onHttpNormalChallenge] at h
  repeat' split at h
  all_goals first | (cases h; exact .refl _) | cases h

theorem onHttpRawHeaderProcessor_ownLookups
    (h : onHttpRawHeaderProcessor S P s c data = .ok (s', c', n)) : OwnLookups P s s' := by
  unfold onHttpRawHeaderProcessor at h
  split at h
  · cases h
  · cases h; exact .refl s
  · cases h; exact .refl s
  · cases h; exact (OwnLookups.refl s).post
  · cases h; exact (OwnLookups.refl s).post
  next key i hx =>
  have hkey : IsKeyFor P c.remoteAddress key :=
    .inr (.inr (rawHeaderLoop_key (.inl rfl) (Nat.lt_succ_self _) hx))
  dsimp only at h
  split at h
  · cases h
  · next s₁ hs₁ => cases h; exact (requestAuthentication_ownLookups hkey hs₁).post
  · next s₁ f hs₁ => cases h; exact requestAuthentication_ownLookups hkey hs₁

theorem onHttpNormalHeaderProcessor_ownLookups
    (h : onHttpNormalHeaderProcessor S P s c data = .ok (s', c', n)) : OwnLookups P s s' := by
  unfold onHttpNormalHeaderProcessor at h
  split at h
  · cases h
  · cases h; exact .refl s
  · cases h; exact (OwnLookups.refl s).post
  next http key i hx =>
  have hkey : IsKeyFor P c.remoteAddress key :=
    .inr (normalHeaderLoop_key (.inl rfl) (Nat.lt_succ_self _) hx)
  dsimp only at h
  split at h
  · cases h
  · next s₁ hs₁ => cases h; exact (requestAuthentication_ownLookups hkey hs₁).post
  · next s₁ f hs₁ => cases h; exact requestAuthentication_ownLookups hkey hs₁

theorem onS5UdpTarget_ownLookups {addrType : UInt8} {offset : ℕ}
    (h : onS5UdpTarget S P s c addrType offset = (s', c', n)) : OwnLookups P s s' := by
  simp only [onS5UdpTarget] at h
  split at h
  · cases h; exact (OwnLookups.refl s).post
  split at h
  · cases h; exact (OwnLookups.refl s).post
  split at h
  · cases h; exact (OwnLookups.refl s).post
  split at h
  · cases h; exact ⟨[_], rfl, by simp [LooksUpOwn]⟩
  split at h
  · next s₁ hr =>
    cases h
    obtain ⟨-, rfl⟩ | ⟨_, _, _, _, -, -, -, rfl⟩ := requestDeviceUdpChannel_eq hr
    · exact ⟨[_], rfl, by simp [LooksUpOwn]⟩
    · exact ⟨[_, _], (List.append_assoc _ _ _), by simp [LooksUpOwn]⟩
  · next s₁ f hr =>
    cases h
    obtain ⟨-, rfl⟩ | ⟨_, _, _, _, -, -, -, rfl⟩ := requestDeviceUdpChannel_eq hr
    · exact ⟨[], (List.append_nil _).symm, by simp⟩
    · exact ⟨[_], rfl, by simp [LooksUpOwn]⟩

theorem requestDeviceConnection_ownLookups {target : Target} {f : Option ℕ}
    (h : requestDeviceConnection S P s c target = (s', f)) : OwnLookups P s s' := by
  obtain ⟨l, hl, ⟨-, rfl⟩ | ⟨_, _, _, _, -, -, -, rfl⟩⟩ := requestDeviceConnection_eq h
  · exact (Talk.sameAuthCalls ⟨l, rfl, hl⟩).ownLookups
  · exact (Talk.sameAuthCalls ⟨l, rfl, hl⟩).ownLookups

theorem onS5Target_ownLookups (h : onS5Target S P s c data = .ok (s', c', n)) :
    OwnLookups P s s' := by
  unfold onS5Target at h
  dsimp only at h
  iterate 3
    split at h
    · cases h; exact ⟨[], (List.append_nil _).symm, by simp⟩
  split at h
  · cases h; exact .refl s
  split at h
  · split at h
    · split at h
      · next s₁ hr => cases h; exact (requestDeviceConnection_ownLookups hr).post
      · next s₁ f hr => cases h; exact requestDeviceConnection_ownLookups hr
    · split at h
      · cases h
      · cases h; exact ⟨[_], rfl, by simp [LooksUpOwn]⟩
  split at h
  · exact (onS5UdpTarget_ownLookups (Except.ok.inj h) :)
  · cases h; exact (OwnLookups.refl s).post

/-- No data processor looks up a key that is not made for the client. -/
theorem processData_ownLookups (h : processData S P s c data = .ok (s', c', n)) :
    OwnLookups P s s' := by
  unfold processData at h
  split at h
  · cases h; exact .refl s
  · unfold onGuessProxyType at h
    split at h
    · cases h; exact .refl s
    split at h
    · exact onS5Challenge_ownLookups h
    split at h
    · cases h; exact (OwnLookups.refl s).post
    · exact onHttpChallenge_ownLookups h
  · exact onS5AuthInfo_ownLookups h
  · exact onS5Target_ownLookups h
  · rcases onRawData_eq S s c data with ⟨-, heq⟩ | ⟨-, heq⟩
    · rw [heq] at h
      cases h
      exact .refl s
    · rw [heq] at h
      cases h
      exact ⟨[_], rfl, by simp [LooksUpOwn]⟩
  · exact onHttpRawHeaderProcessor_ownLookups h
  · exact onHttpNormalHeaderProcessor_ownLookups h
  · rcases onHttpBody_eq S s c data with ⟨-, heq⟩ | ⟨-, -, heq⟩ | ⟨-, -, heq⟩
    · rw [heq] at h
      cases h
      exact .refl s
    · rw [heq] at h
      cases h
      exact ⟨[], (List.append_nil _).symm, by simp⟩
    · rw [heq] at h
      cases h
      exact ⟨[_], rfl, by simp [LooksUpOwn]⟩

/-! ## Runs -/

/-- A turn that is no call of a client looks nothing up. -/
theorem Turn.ownLookups {l : TurnLabel} (h : Turn S s l t) (hl : ∀ k, l ≠ .call k) :
    OwnLookups P s t := by
  cases h with
  | clock nowMS audit => exact .refl s
  | accept remoteAddress localAddress k p hacquire => exact .refl s
  | refuse x k p hacquire => exact .refl s
  | call k => exact absurd rfl (hl k)
  | result κ f m future c s' c' hpop hf hc hcf heffect hcf' hstage =>
    -- A result does not lead to another lookup.
    rcases heffect.act.auth with ⟨-, -, -, hcalls, -⟩ | ⟨htaken, -⟩ | ⟨r, -, -, -, -, -, hcalls⟩
    · exact hcalls.ownLookups
    · cases htaken
    · exact hcalls.ownLookups
  | touch k c s' c' l hc hframe hcore hshape hudp hcalls hdelivery hmark =>
    exact ⟨l, hcalls, fun x hx => looksUpOwn_of_not_auth (not_isAuthCall_of_isDelivery (hdelivery x hx))⟩
  | forwardUdp => exact ⟨[_], rfl, by simp [LooksUpOwn]⟩
  | peerClose k c s' c' hc hmark h =>
    obtain ⟨u, m, heq, hm⟩ := onPeerClose_eq_ok hmark h
    cases heq
    refine ⟨m, rfl, fun x hx => ?_⟩
    rcases hm with ⟨-, -, rfl⟩ | ⟨-, ⟨i, y, -, -, -, -, rfl⟩⟩ | ⟨-, -, -, rfl⟩
    · rw [List.mem_singleton.1 hx]; trivial
    · rw [List.mem_singleton.1 hx]; trivial
    · cases hx
  | flush k c hc =>
    rcases onFlush_eq s c with ⟨-, heq⟩ | ⟨-, heq⟩
    all_goals rw [heq]; exact .refl s
  | close k c hc =>
    rcases closeConnection_eq s c with ⟨-, heq⟩ | ⟨-, -, heq⟩ | ⟨-, -, heq⟩
    all_goals rw [heq]; exact .refl s
  | ready κ f r =>
    unfold setReady
    split
    · exact .refl s
    · split
      · exact .refl s
      · exact .refl s
  | expire l h timeoutMS => exact .refl s
  | destroy k lists c t hpop hc hready h =>
    obtain ⟨-, -, -, -, -, -, ⟨-, -, hcalls⟩ | ⟨-, -, hcalls⟩⟩ := destroyConnection_eq_ok h
    · exact ⟨[], by rw [hcalls, List.append_nil], by simp⟩
    · exact ⟨[_], hcalls, by simp [LooksUpOwn]⟩

/-- The lookups of a run are for keys of the clients. -/
def LooksUpOwns (P : Platform) (s : ProxyAccessService σ) : Prop := ∀ x ∈ s.calls, LooksUpOwn P x

theorem OwnLookups.looksUpOwns (h : OwnLookups P s t) (hs : LooksUpOwns P s) : LooksUpOwns P t := by
  obtain ⟨l, hl, hown⟩ := h
  intro x hx
  rw [hl, List.mem_append] at hx
  rcases hx with hx | hx
  · exact hs x hx
  · exact hown x hx

theorem step_looksUpOwns {e : ProxyEvent} (hs : Sound s) (h : step S P s e = .ok t)
    (hown : LooksUpOwns P s) : LooksUpOwns P t := by
  by_cases he : ∃ k data, e = .onData k data
  · obtain ⟨k, data, rfl⟩ := he
    obtain ⟨-, rfl⟩ | ⟨c, s', c', n, hc, hd, rfl⟩ := step_onData_eq_ok h
    · exact hown
    obtain ⟨c₁, total, hp, -⟩ := onData_eq_ok hd
    exact (processData_ownLookups hp).looksUpOwns hown
  · refine (step_turns hs h).invariant (fun u l v hl _ hu hturn => ?_) hs hown
    refine (hturn.ownLookups fun k hk => he ?_).looksUpOwns hu
    rw [hk] at hl
    cases e <;> simp_all [ProxyEvent.Allows]

/-- Whatever the clients send, no key is looked up for another client's ip. -/
theorem looksUpOwns_of_exec {services : σ} {es : List ProxyEvent}
    (h : exec (step S P) (init services) es = .ok s) : LooksUpOwns P s := by
  have hboth : Sound s ∧ LooksUpOwns P s := by
    refine exec_invariant (I := fun s => Sound s ∧ LooksUpOwns P s) (fun u e v hu hv => ?_)
      ⟨sound_init services, fun x hx => (by cases hx)⟩ h
    exact ⟨step_sound u e v hu.1 hv, step_looksUpOwns hu.1 hv hu.2⟩
  exact hboth.2

/-- The separator is written within the credential exactly if there is a colon in it. -/
theorem indexInRange_iff :
    IndexInRange P c data ↔ match c.dataProcessor with
      | .onHttpRawHeaderProcessor => SeparatedRaw P (splitLines data).1
      | .onHttpNormalHeaderProcessor =>
        SeparatedNormal P c.http.tempHeaderLine (splitLines data).1
      | _ => True := by
  unfold IndexInRange
  cases c.dataProcessor with
  | onHttpRawHeaderProcessor => exact rawHeaderLoop_separated (Nat.lt_succ_self _)
  | onHttpNormalHeaderProcessor => exact normalHeaderLoop_separated (Nat.lt_succ_self _)
  | _ => exact Iff.rfl

/-- In every run the clients reach the entry of no ip but their own, and their credentials are read
    within their bounds exactly if every header that is read has a colon in each of its credentials,
    up to the first one that is refused. -/
theorem keysOwn_iff (services : σ) (es : List ProxyEvent) :
    KeysOwn S P services es ↔ Along (step S P) (Separated P) (init services) es := by
  rw [along_iff]
  constructor
  · intro h pre e s hpre hs
    cases e with
    | onData k data => exact fun c hc => indexInRange_iff.1 (h.inRange pre k data s c hpre hs hc)
    | _ => trivial
  · intro h
    refine ⟨fun pre s k remoteAddress ip r _ hs hmem hip => ?_, fun pre k data s c hpre hs hc => ?_⟩
    · exact (looksUpOwns_of_exec hs _ hmem).eq_ipToString hip
    · exact indexInRange_iff.2 (h pre _ s hpre hs c hc)

/-- A platform on which the credential `YTpi` is `a:b`, and `YWI=` is `ab`. -/
def credentialPlatform : Platform where
  __ := localPlatform
  base64Decode s :=
    if s = ascii "YTpi" then ascii "a:b"
    else if s = ascii "YWI=" then ascii "ab"
    else if s = ascii "OmI=" then ascii ":b"
    else []

/-- A credential without a colon. -/
theorem keysOwn_counterexample :
    ¬KeysOwn grantingServices credentialPlatform ()
      [.onNewConnection localAddress localAddress true,
        .onData 1 (ascii "CONNECT a:80 HTTP/1.1\r\n"),
        .onData 1 (ascii "Proxy-Authorization: Basic YWI=\r\n\r\n")] := by
  intro h
  obtain ⟨s, hs, hp⟩ := exists_ok_of_check
    (x := exec (step grantingServices credentialPlatform) (init ())
      [.onNewConnection localAddress localAddress true,
        .onData 1 (ascii "CONNECT a:80 HTTP/1.1\r\n")])
    (p := fun s => (s.clientConnectionPool.get 1).map (fun c => c.dataProcessor) =
      some .onHttpRawHeaderProcessor) (by decide +kernel)
  obtain ⟨c, hc, hproc⟩ := Option.map_eq_some_iff.1 (of_decide_eq_true hp)
  have hrange := h.inRange _ 1 (ascii "Proxy-Authorization: Basic YWI=\r\n\r\n") s c
    List.prefix_rfl hs hc
  rw [indexInRange_iff, hproc] at hrange
  change SeparatedRaw _ _ at hrange
  exact absurd hrange (by decide +kernel)

end

end ProxyAccessService

end ProxyPlatform
