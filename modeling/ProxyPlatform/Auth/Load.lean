import ProxyPlatform.Auth.Request
import ProxyPlatform.Base.Decimal

/-!
# Loading the account files

`LoadFile` reads the rows of a file into a map of accounts. A row is skipped when it is
expired (`IsListed` holds of those that are not), and when its country code is malformed
(`IsValid`). But the second check comes after `TargetMap[AccountKey]`, which makes a record
for an account that has none: the row of a malformed country code lists its account, with
the default values.

* `loadRow_lookup`: what a row does to the map;
* `mem_loadRows`, `lookup_loadRows`: the accounts a list of rows puts in the map, and the
  record of an account with a valid row: that of the last one;
* `loadsExactly_iff`: the map has exactly the accounts with valid rows, with the records of
  their last valid rows, when every account that is listed has a valid row.

The CSV library is not part of the model: a file is what the library makes of it, row by
row (`AuthRow`). A cell is read by its column, and reading throws when it is missing or, for
the expiry time, not a number.
-/

namespace ProxyPlatform

/-! ## Numbers in cells -/

/-- Whether `atoi` gives another number than zero: it is `strtol`, cut to an `int`. -/
def atoiIsTrue (s : Bytes) : Bool :=
  max (-2 ^ 63) (min (2 ^ 63 - 1) (leadingNumber s)) % 2 ^ 32 ≠ 0

/-- The `double` nearest to a natural number: 53 significant bits, ties to even. -/
def toDouble (n : ℕ) : ℕ :=
  let unit := 2 ^ (n.log2 - 52)
  let up : Bool := unit < 2 * (n % unit) ∨ unit = 2 * (n % unit) ∧ n / unit % 2 = 1
  (n / unit + up.toNat) * unit

/-! ## Rows -/

/-- A row of a file, as the CSV library reads it: a cell that cannot be read is `none`. -/
structure AuthRow where
  expiredTime : Option ℤ
  authId : Option Bytes
  account : Option Bytes
  password : Option Bytes
  countryCode : Option Bytes
  paIp : Option Bytes
  proxyIp : Option Bytes
  isUdp : Option Bytes
  bandwidthLimit : Option Bytes
  connLimit : Option Bytes

/-- A file, and the time it is loaded at. -/
structure AuthFile where
  now : ℤ
  rows : List AuthRow

/-- The functions from other libraries, and the platform. -/
structure LoadLibrary where
  /-- `xNetAddress::Parse`. -/
  parse : Bytes → NetAddress
  /-- The conversion to `uint64_t` of a `double` that is too large for it, which the language
      leaves undefined. -/
  overflow : ℕ → UInt64

namespace AuthLocalService

def bandwithLimitOverFactor : UInt64 := 3

def connectionLimitOverFactor : UInt64 := 3

/-- `uint64_t(factor * limit * (LOCAL_AUDIT_NODE_IDLE_TIMEOUT_MS / 1000.))`: the first product is
    one of integers, the second one of `double`s. The timeouts are whole seconds. -/
def scaleLimit (lib : LoadLibrary) (T : AuthTimeouts) (factor limit : UInt64) : UInt64 :=
  let d := toDouble (toDouble (factor * limit).toNat * (T.localAuditNodeIdleTimeoutMS / 1000))
  if d < 2 ^ 64 then UInt64.ofNat d else lib.overflow d

/-- `CountryCodeToCountryId`. -/
def countryCodeToCountryId (c₀ c₁ : UInt8) : ℕ := c₀.toNat * 256 + c₁.toNat

/-- `TargetMap[AccountKey]`: the record, made with the default values when there is none. -/
def subscript (targetMap : AuthLocalMap) (accountKey : Bytes) : AuthLocalMap × AuthLocalRecord :=
  match targetMap.lookup accountKey with
  | some node => (targetMap, node)
  | none => (targetMap.insert accountKey {}, {})

/-- A row of the loop in `LoadFile`. It is `none` when reading a cell throws. -/
def loadRow (lib : LoadLibrary) (T : AuthTimeouts) (now : ℤ) (targetMap : AuthLocalMap)
    (row : AuthRow) : Option AuthLocalMap := do
  let expiredTimeLimit ← row.expiredTime
  if expiredTimeLimit < now then
    return targetMap
  let authId := strtoumax (← row.authId)
  let account ← row.account
  let password ← row.password
  let countryCode ← row.countryCode
  let proxyIp := lib.parse (← row.paIp)
  let exportAddress := lib.parse (← row.proxyIp)
  let udp ← row.isUdp
  let bandwidthLimit := strtoumax (← row.bandwidthLimit)
  let connectionLimit := strtoumax (← row.connLimit)
  let accountKey := combineAccountPass account password
  -- The record is made before the country is looked at.
  let (targetMap, node) := subscript targetMap accountKey
  match countryCode with
  | [c₀, c₁] => return targetMap.insert accountKey { node with
      globalAuthId := authId.toNat
      countryId := countryCodeToCountryId c₀ c₁
      proxyClientAddress := proxyIp
      staticExportAddress := exportAddress
      enableUdp := atoiIsTrue udp
      bandwidthLimit := scaleLimit lib T bandwithLimitOverFactor bandwidthLimit
      connectionLimit := scaleLimit lib T connectionLimitOverFactor connectionLimit }
  | _ => return targetMap

/-- `LoadFile`. -/
def loadFile (lib : LoadLibrary) (T : AuthTimeouts) (targetMap : AuthLocalMap) (file : AuthFile) :
    Option AuthLocalMap :=
  file.rows.foldlM (loadRow lib T file.now) targetMap

/-- The map built from a list of files. -/
def loadFiles (lib : LoadLibrary) (T : AuthTimeouts) (files : List AuthFile) :
    Option AuthLocalMap :=
  files.foldlM (loadFile lib T) ∅

/-! ## What a row does -/

/-- A row, and the time its file is loaded at. -/
abbrev StampedRow := ℤ × AuthRow

/-- The rows of a list of files, in order. -/
def rowsOf (files : List AuthFile) : List StampedRow :=
  files.flatMap fun file => file.rows.map fun row => (file.now, row)

/-- The row is one of the account under `key`, and is not expired. -/
def IsListed (p : StampedRow) (key : Bytes) : Prop :=
  (∃ expired, p.2.expiredTime = some expired ∧ p.1 ≤ expired) ∧
    ∃ account password, p.2.account = some account ∧ p.2.password = some password ∧
      combineAccountPass account password = key

/-- The row is listed, with a country code of two characters. -/
def IsValid (p : StampedRow) (key : Bytes) : Prop :=
  IsListed p key ∧ ∃ c₀ c₁, p.2.countryCode = some [c₀, c₁]

/-- The record of a row. -/
def recordOf (lib : LoadLibrary) (T : AuthTimeouts) (row : AuthRow) : AuthLocalRecord where
  globalAuthId := (strtoumax (row.authId.getD [])).toNat
  countryId := match row.countryCode with
    | some [c₀, c₁] => countryCodeToCountryId c₀ c₁
    | _ => 0
  proxyClientAddress := lib.parse (row.paIp.getD [])
  staticExportAddress := lib.parse (row.proxyIp.getD [])
  enableUdp := atoiIsTrue (row.isUdp.getD [])
  bandwidthLimit := scaleLimit lib T bandwithLimitOverFactor
    (strtoumax (row.bandwidthLimit.getD []))
  connectionLimit := scaleLimit lib T connectionLimitOverFactor
    (strtoumax (row.connLimit.getD []))

variable {lib : LoadLibrary} {T : AuthTimeouts} {m m' : AuthLocalMap} {p : StampedRow}
  {l : List StampedRow} {key : Bytes}

/-- The records of a map while it is loaded: what only the service writes is not set. -/
def IsFresh (m : AuthLocalMap) : Prop :=
  ∀ key localRecord, m.lookup key = some localRecord →
    localRecord.localAuthId = 0 ∧ localRecord.enableTcp = true ∧
      localRecord.blockStartTimestampMS = 0

/-- A listed row has one key. -/
theorem IsListed.key_unique {key' : Bytes} (h : IsListed p key) (h' : IsListed p key') :
    key = key' := by
  obtain ⟨-, account, password, ha, hp, rfl⟩ := h
  obtain ⟨-, account', password', ha', hp', rfl⟩ := h'
  rw [ha, Option.some.injEq] at ha'
  rw [hp, Option.some.injEq] at hp'
  rw [ha', hp']

theorem lookup_subscript (m : AuthLocalMap) (k key : Bytes) :
    (subscript m k).1.lookup key =
      if key = k then some ((m.lookup key).getD {}) else m.lookup key := by
  unfold subscript
  split
  · next node hnode =>
    split
    · next h => rw [h, hnode, Option.getD_some]
    · rfl
  · next hnone =>
    split
    · next h => rw [h, AList.lookup_insert, hnone, Option.getD_none]
    · next h => exact AList.lookup_insert_ne h

theorem subscript_snd (m : AuthLocalMap) (k : Bytes) :
    (subscript m k).2 = (m.lookup k).getD {} := by
  unfold subscript
  split
  · next hnode => rw [hnode, Option.getD_some]
  · next hnone => rw [hnone, Option.getD_none]

/-- What a row that is read leaves in the map. -/
inductive RowOutcome (lib : LoadLibrary) (T : AuthTimeouts) (p : StampedRow) (m : AuthLocalMap) :
    AuthLocalMap → Prop
  | expired (h : ∀ key, ¬IsListed p key) : RowOutcome lib T p m m
  | malformed (key : Bytes) (h : IsListed p key) (hcode : ∀ k, ¬IsValid p k) :
      RowOutcome lib T p m (subscript m key).1
  | valid (key : Bytes) (h : IsValid p key) : RowOutcome lib T p m
      ((subscript m key).1.insert key { recordOf lib T p.2 with
        localAuthId := ((m.lookup key).getD {}).localAuthId
        enableTcp := ((m.lookup key).getD {}).enableTcp
        blockStartTimestampMS := ((m.lookup key).getD {}).blockStartTimestampMS })

/-- A row that is read is expired, or malformed, or valid. -/
theorem loadRow_outcome (h : loadRow lib T p.1 m p.2 = some m') : RowOutcome lib T p m m' := by
  unfold loadRow at h
  obtain ⟨expired, hexpired, h⟩ := Option.bind_eq_some_iff.1 h
  split at h
  · next hlt =>
    cases h
    refine .expired fun key hl => ?_
    obtain ⟨⟨expired', hexpired', hle⟩, -⟩ := hl
    rw [hexpired, Option.some.injEq] at hexpired'
    omega
  next hle =>
  simp only [bind, Option.bind_eq_some_iff] at h
  obtain ⟨authId, hauthId, account, haccount, password, hpassword, code, hcode, paIp, hpaIp,
    proxyIp, hproxyIp, udp, hudp, bandwidth, hbandwidth, connections, hconnections, h⟩ := h
  have hlisted : IsListed p (combineAccountPass account password) :=
    ⟨⟨expired, hexpired, Int.not_lt.1 hle⟩, account, password, haccount, hpassword, rfl⟩
  split at h
  · next c₀ c₁ =>
    cases h
    have hrecord : RowOutcome lib T p m _ := .valid _ ⟨hlisted, c₀, c₁, hcode⟩
    simp only [recordOf, hauthId, hcode, hpaIp, hproxyIp, hudp, hbandwidth, hconnections,
      Option.getD_some] at hrecord
    rw [subscript_snd]
    exact hrecord
  · next hshort =>
    cases h
    refine .malformed _ hlisted fun k hv => ?_
    obtain ⟨-, c₀, c₁, hcode'⟩ := hv
    rw [hcode, Option.some.injEq] at hcode'
    exact hshort c₀ c₁ hcode'

namespace RowOutcome

/-- Only the record under `key` changes when the row is one of the account `key`. -/
theorem lookup_of_not_listed (h : RowOutcome lib T p m m') (hl : ¬IsListed p key) :
    m'.lookup key = m.lookup key := by
  cases h with
  | expired => rfl
  | malformed k hk =>
    have hne : key ≠ k := fun heq => hl (heq ▸ hk)
    rw [lookup_subscript, if_neg hne]
  | valid k hk =>
    have hne : key ≠ k := fun heq => hl (heq ▸ hk.1)
    rw [AList.lookup_insert_ne hne, lookup_subscript, if_neg hne]

/-- A row that is listed makes a record for its account, if there is none. -/
theorem lookup_of_malformed (h : RowOutcome lib T p m m') (hl : IsListed p key)
    (hv : ¬IsValid p key) : m'.lookup key = some ((m.lookup key).getD {}) := by
  cases h with
  | expired hnone => exact absurd hl (hnone key)
  | malformed k hk => rw [hl.key_unique hk, lookup_subscript, if_pos rfl]
  | valid k hk => exact absurd (hl.key_unique hk.1 ▸ hk) hv

/-- A valid row sets the record of its account. -/
theorem lookup_of_valid (h : RowOutcome lib T p m m') (hm : IsFresh m) (hv : IsValid p key) :
    m'.lookup key = some (recordOf lib T p.2) := by
  cases h with
  | expired hnone => exact absurd hv.1 (hnone key)
  | malformed k hk hcode => exact absurd hv (hcode key)
  | valid k hk =>
    obtain rfl := hv.1.key_unique hk.1
    have hdefault : ((m.lookup key).getD {}).localAuthId = 0 ∧
        ((m.lookup key).getD {}).enableTcp = true ∧
        ((m.lookup key).getD {}).blockStartTimestampMS = 0 := by
      cases hrec : m.lookup key with
      | none => exact ⟨rfl, rfl, rfl⟩
      | some old => exact hm key old hrec
    obtain ⟨hid, htcp, hblock⟩ := hdefault
    rw [AList.lookup_insert, hid, htcp, hblock]
    rfl

/-- An account is listed after the row when it was before, or the row lists it. -/
theorem mem_iff (h : RowOutcome lib T p m m') : key ∈ m' ↔ key ∈ m ∨ IsListed p key := by
  rw [← AList.lookup_isSome, ← AList.lookup_isSome]
  by_cases hl : IsListed p key
  · refine iff_of_true ?_ (.inr hl)
    cases h with
    | expired hnone => exact absurd hl (hnone key)
    | malformed k hk => rw [hl.key_unique hk, lookup_subscript, if_pos rfl]; rfl
    | valid k hk => rw [hl.key_unique hk.1, AList.lookup_insert]; rfl
  · rw [h.lookup_of_not_listed hl, or_iff_left hl]

theorem isFresh (h : RowOutcome lib T p m m') (hm : IsFresh m) : IsFresh m' := by
  intro key record hrec
  by_cases hv : IsValid p key
  · rw [h.lookup_of_valid hm hv, Option.some.injEq] at hrec
    rw [← hrec]
    exact ⟨rfl, rfl, rfl⟩
  by_cases hl : IsListed p key
  · rw [h.lookup_of_malformed hl hv, Option.some.injEq] at hrec
    cases hold : m.lookup key with
    | none =>
      rw [← hrec, hold]
      exact ⟨rfl, rfl, rfl⟩
    | some old =>
      rw [← hrec, hold]
      exact hm key old hold
  · rw [h.lookup_of_not_listed hl] at hrec
    exact hm key record hrec

/-- A row that is not valid for the account leaves its record. -/
theorem lookup_of_not_valid {localRecord : AuthLocalRecord} (h : RowOutcome lib T p m m')
    (hv : ¬IsValid p key) (hrec : m.lookup key = some localRecord) :
    m'.lookup key = some localRecord := by
  by_cases hl : IsListed p key
  · rw [h.lookup_of_malformed hl hv, hrec, Option.getD_some]
  · rw [h.lookup_of_not_listed hl, hrec]

end RowOutcome

/-! ## What a list of rows does -/

/-- The rows of several files, with the time of each. -/
def loadRows (lib : LoadLibrary) (T : AuthTimeouts) (m : AuthLocalMap) (l : List StampedRow) :
    Option AuthLocalMap :=
  l.foldlM (fun m p => loadRow lib T p.1 m p.2) m

theorem loadFiles_eq_loadRows (lib : LoadLibrary) (T : AuthTimeouts) (files : List AuthFile) :
    loadFiles lib T files = loadRows lib T ∅ (rowsOf files) := by
  rw [loadFiles, loadRows, rowsOf]
  generalize (∅ : AuthLocalMap) = m
  induction files generalizing m with
  | nil => rfl
  | cons file files ih =>
    rw [List.flatMap_cons, List.foldlM_append, List.foldlM_cons, List.foldlM_map]
    exact congrArg _ (funext ih)

theorem loadRows_cons : loadRows lib T m (p :: l) = some m' ↔
    ∃ u, loadRow lib T p.1 m p.2 = some u ∧ loadRows lib T u l = some m' := by
  rw [loadRows, List.foldlM_cons]
  exact Option.bind_eq_some_iff

theorem loadRows_append {l' : List StampedRow} : loadRows lib T m (l ++ l') = some m' ↔
    ∃ u, loadRows lib T m l = some u ∧ loadRows lib T u l' = some m' := by
  rw [loadRows, List.foldlM_append]
  exact Option.bind_eq_some_iff

theorem isFresh_loadRows (h : loadRows lib T m l = some m') (hm : IsFresh m) : IsFresh m' := by
  induction l generalizing m with
  | nil => cases h; exact hm
  | cons p l ih =>
    obtain ⟨u, hu, h⟩ := loadRows_cons.1 h
    exact ih h ((loadRow_outcome hu).isFresh hm)

/-- The accounts of the map are those listed in some row. -/
theorem mem_loadRows (h : loadRows lib T m l = some m') :
    key ∈ m' ↔ key ∈ m ∨ ∃ p ∈ l, IsListed p key := by
  induction l generalizing m with
  | nil => cases h; simp
  | cons p l ih =>
    obtain ⟨u, hu, h⟩ := loadRows_cons.1 h
    rw [ih h, (loadRow_outcome hu).mem_iff, List.exists_mem_cons_iff, or_assoc]

/-- Rows that are not valid for the account leave its record. -/
theorem lookup_loadRows_of_not_valid {localRecord : AuthLocalRecord}
    (h : loadRows lib T m l = some m') (hv : ∀ p ∈ l, ¬IsValid p key)
    (hrec : m.lookup key = some localRecord) : m'.lookup key = some localRecord := by
  induction l generalizing m with
  | nil => cases h; exact hrec
  | cons p l ih =>
    obtain ⟨u, hu, h⟩ := loadRows_cons.1 h
    rw [List.forall_mem_cons] at hv
    exact ih h hv.2 ((loadRow_outcome hu).lookup_of_not_valid hv.1 hrec)

/-- The record of an account is that of its last valid row. -/
theorem lookup_loadRows {pre post : List StampedRow}
    (h : loadRows lib T m (pre ++ p :: post) = some m') (hm : IsFresh m) (hv : IsValid p key)
    (hpost : ∀ q ∈ post, ¬IsValid q key) : m'.lookup key = some (recordOf lib T p.2) := by
  obtain ⟨u, hu, h⟩ := loadRows_append.1 h
  obtain ⟨v, hv', h⟩ := loadRows_cons.1 h
  exact lookup_loadRows_of_not_valid h hpost
    ((loadRow_outcome hv').lookup_of_valid (isFresh_loadRows hu hm) hv)

theorem isFresh_empty : IsFresh ∅ := fun _ _ h => by cases h

/-- The map built from files is one the loading thread can publish. -/
theorem fresh_of_loadFiles {files : List AuthFile} (h : loadFiles lib T files = some m) :
    ∀ e ∈ m.entries, e.2.localAuthId = 0 ∧ e.2.blockStartTimestampMS = 0 := by
  intro e he
  rw [loadFiles_eq_loadRows] at h
  have hfresh := isFresh_loadRows h isFresh_empty e.1 e.2 (AList.mem_lookup_iff.2 he)
  exact ⟨hfresh.1, hfresh.2.2⟩

/-! ## The accounts of the files -/

/-- The map `m` has the accounts with valid rows, each with the record of its last one, and an
    account without a valid row does not authenticate. -/
structure LoadsExactly (lib : LoadLibrary) (T : AuthTimeouts) (files : List AuthFile)
    (m : AuthLocalMap) : Prop where
  mem_iff : ∀ key, key ∈ m ↔ ∃ p ∈ rowsOf files, IsValid p key
  lookup : ∀ key pre p post, rowsOf files = pre ++ p :: post → IsValid p key →
    (∀ q ∈ post, ¬IsValid q key) → m.lookup key = some (recordOf lib T p.2)
  refused : ∀ key, (∀ p ∈ rowsOf files, ¬IsValid p key) → ∀ s t res, s.mapInForce = m →
    acquireAuthInfo T s key = .ok (t, res) → res = none

/-- The map has exactly the accounts with valid rows when every account that is listed in some
    row has a valid one. -/
theorem loadsExactly_iff (lib : LoadLibrary) (T : AuthTimeouts) (files : List AuthFile)
    (m : AuthLocalMap) (h : loadFiles lib T files = some m) :
    LoadsExactly lib T files m ↔
      ∀ p ∈ rowsOf files, ∀ key, IsListed p key → ∃ q ∈ rowsOf files, IsValid q key := by
  rw [loadFiles_eq_loadRows] at h
  have hmem (key : Bytes) : key ∈ m ↔ ∃ p ∈ rowsOf files, IsListed p key := by
    rw [mem_loadRows h, or_iff_right (AList.notMem_empty key)]
  constructor
  · intro hexact p hp key hl
    exact (hexact.mem_iff key).1 ((hmem key).2 ⟨p, hp, hl⟩)
  · intro hvalid
    have hmem' (key : Bytes) : key ∈ m ↔ ∃ p ∈ rowsOf files, IsValid p key := by
      rw [hmem]
      exact ⟨fun ⟨p, hp, hl⟩ => hvalid p hp key hl, fun ⟨p, hp, hv⟩ => ⟨p, hp, hv.1⟩⟩
    refine ⟨hmem', fun key pre p post hrows hv hpost => ?_, fun key hnone s t res hs ht => ?_⟩
    · rw [hrows] at h
      exact lookup_loadRows h isFresh_empty hv hpost
    · refine acquireAuthInfo_refused (AList.lookup_eq_none.2 ?_) ht
      rw [hs, hmem']
      rintro ⟨p, hp, hv⟩
      exact hnone p hp hv

/-- A row of the account `a` with the password `b`, for the year 2100. -/
def sampleRow (countryCode : Bytes) : AuthRow where
  expiredTime := some 4102444800
  authId := some [55]
  account := some [97]
  password := some [98]
  countryCode := some countryCode
  paIp := some []
  proxyIp := some []
  isUdp := some [49]
  bandwidthLimit := some [48]
  connLimit := some [48]

/-- A library for rows without addresses and limits. -/
def sampleLibrary : LoadLibrary where
  parse _ := {}
  overflow _ := 0

/-- A valid row in one file, and a malformed one of the same account in the next. -/
def sampleFiles : List AuthFile :=
  [⟨1700000000, [sampleRow [85, 83]]⟩, ⟨1700000000, [sampleRow [85, 83, 65]]⟩]

theorem isListed_sampleRow (code : Bytes) :
    IsListed (1700000000, sampleRow code) (combineAccountPass [97] [98]) :=
  ⟨⟨4102444800, rfl, (by decide : (1700000000 : ℤ) ≤ 4102444800)⟩, [97], [98], rfl, rfl, rfl⟩

theorem loadsExactly_iff_overridden :
    ∃ m, loadFiles sampleLibrary .release sampleFiles = some m ∧
      LoadsExactly sampleLibrary .release sampleFiles m := by
  obtain ⟨m, hm⟩ : ∃ m, loadFiles sampleLibrary .release sampleFiles = some m :=
    Option.isSome_iff_exists.1 (by rfl)
  refine ⟨m, hm, (loadsExactly_iff _ _ _ m hm).2 fun p hp key hl => ?_⟩
  -- Both rows are of the same account, and the first one is valid.
  have hfirst := isListed_sampleRow [85, 83]
  refine ⟨_, List.mem_cons_self, ?_, 85, 83, rfl⟩
  have hp : p ∈ [((1700000000 : ℤ), sampleRow [85, 83]), (1700000000, sampleRow [85, 83, 65])] := hp
  rcases List.mem_pair.1 hp with rfl | rfl
  · exact hl
  · exact hl.key_unique (isListed_sampleRow [85, 83, 65]) ▸ hfirst

/-- An account whose only row has a country code of three characters is listed. -/
theorem loadsExactly_counterexample :
    ¬∀ (lib : LoadLibrary) (T : AuthTimeouts) (files : List AuthFile) (m : AuthLocalMap),
      loadFiles lib T files = some m → LoadsExactly lib T files m := by
  intro h
  obtain ⟨m, hm⟩ : ∃ m, loadFiles sampleLibrary .release
      [⟨1700000000, [sampleRow [85, 83, 65]]⟩] = some m :=
    Option.isSome_iff_exists.1 (by rfl)
  have hexact := h _ _ _ m hm
  rw [loadFiles_eq_loadRows] at hm
  obtain ⟨p, hp, -, c₀, c₁, hcode⟩ := (hexact.mem_iff _).1
    ((mem_loadRows hm).2 (.inr ⟨_, List.mem_cons_self, isListed_sampleRow [85, 83, 65]⟩))
  obtain rfl := List.mem_singleton.1 hp
  cases hcode

end AuthLocalService

end ProxyPlatform
