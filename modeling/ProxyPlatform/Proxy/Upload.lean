import ProxyPlatform.Proxy.Header
import ProxyPlatform.Proxy.Rounds
import Mathlib.Tactic.Abel

/-!
# What a client is charged for its data

`OnData` charges a connection for all the data that is presented, whatever its data
processor takes of it, unless the processor returns `InvalidDataSize`. What the
processor leaves is presented again, and charged again.

* `Whole`: the data is what the data processor of the connection takes as a whole, or
  refuses as invalid;
* `processData_sized`: exactly then the size returned is that of the data;
* `uploads`, `consumed`: the data presented in a run and the sizes returned;
* `exactUploads_iff`: exactly in the runs that present such data only, a connection is
  charged for what was consumed.

A client that sends its credential in two pieces is charged twice for the first one.
-/

namespace ProxyPlatform.ProxyAccessService

variable {σ : Type*} (S : Services σ) (P : Platform)

/-! ## The data that is taken as a whole -/

/-- A future of the kind `κ` can be acquired. -/
def HasRoom (s : ProxyAccessService σ) (κ : FutureKind) : Prop :=
  (s.futureManager κ).futurePool.size < (s.futureManager κ).futurePool.capacity
  deriving Decidable

/-- The greeting of a SOCKS5 client. -/
def WholeS5Challenge (data : Bytes) : Prop :=
  let nm := (data.getD 1 0).toNat
  nm = 0 ∨ data.length ≤ 2 + nm
  deriving Decidable

/-- The request line names no target. -/
def NoTarget (data : Bytes) (lineLength : ℕ) : Prop :=
  let line := data.take lineLength
  if strncasecmp (ascii "CONNECT ") data then
    let host := (line.drop 8).takeWhile fun b => b ≠ 58 ∧ b ≠ 32
    host = [] ∨ host = line.drop 8
  else match find 32 line with
    | none => True
    | some i => find 32 (line.drop (i + 1)) = none ∨
      find 47 (line.drop (skipScheme data (i + 1)).2) = none

instance (data : Bytes) (lineLength : ℕ) : Decidable (NoTarget data lineLength) := by
  unfold NoTarget
  dsimp only
  split
  · infer_instance
  · split <;> infer_instance

/-- The request line of an HTTP client. -/
def WholeHttpChallenge (data : Bytes) : Prop :=
  match findCrlf data with
  | none => False
  | some lineLength => lineLength = 0 ∨ NoTarget data lineLength ∨ data.length = lineLength + 2

instance (data : Bytes) : Decidable (WholeHttpChallenge data) := by
  unfold WholeHttpChallenge
  split <;> infer_instance

/-- The first data of a client. -/
def WholeChallenge (data : Bytes) : Prop :=
  data.length < 3 ∨ data.getD 0 0 = 5 ∧ WholeS5Challenge data ∨
    data.getD 0 0 ≠ 5 ∧ data.getD 0 0 ≠ 22 ∧ WholeHttpChallenge data
  deriving Decidable

/-- The user and the password of a SOCKS5 client. -/
def WholeS5AuthInfo (data : Bytes) : Prop :=
  let nameLen := (data.getD 1 0).toNat
  let passLen := (data.getD (2 + nameLen) 0).toNat
  data = [] ∨ 3 ≤ data.length ∧ data.getD 0 0 ≠ 1 ∨
    3 + nameLen + passLen ≤ data.length ∧
      (nameLen = 0 ∨ passLen = 0 ∨ data.length = 3 + nameLen + passLen)
  deriving Decidable

/-- A UDP channel can be bound and relayed for the connection. -/
def CanAssociate (s : ProxyAccessService σ) (c : ClientConnection) (addrType : UInt8) : Prop :=
  let bindAddress := udpBindAddress c addrType
  c.enableUdpTarget ∧ bindAddress.isSet ∧
    s.clientUdpChannelPool.size < s.clientUdpChannelPool.capacity ∧
    (P.bindUdp s.calls.length bindAddress).isSome ∧ HasRoom s .acquireDeviceUdpChannel
  deriving Decidable

/-- The request of a SOCKS5 client is one that is passed on. -/
def CanRequest (s : ProxyAccessService σ) (c : ClientConnection) (data : Bytes) : Prop :=
  data.getD 1 0 = 1 ∧ data.getD 3 0 ∈ [1, 3, 4] ∧ HasRoom s .acquireDeviceConnection ∨
    data.getD 1 0 = 3 ∧ CanAssociate P s c (data.getD 3 0)
  deriving Decidable

/-- The request of a SOCKS5 client. -/
def WholeS5Target (s : ProxyAccessService σ) (c : ClientConnection) (data : Bytes) : Prop :=
  data = [] ∨ 6 + 256 ≤ data.length ∨
    10 ≤ data.length ∧ (data.getD 0 0 ≠ 5 ∨ data.getD 2 0 ≠ 0 ∨
      (readS5Target data).map Prod.snd = some data.length ∧ CanRequest P s c data)
  deriving Decidable

/-- The header of a `CONNECT` request, by its lines and what follows them: they end with
    the data, all complete, or behind a credential and at the end of the header; or one of
    them is invalid. `found` is whether there was a credential before. -/
def WholeRawHeader (s : ProxyAccessService σ) : (found : Bool) → List Bytes → Bytes → Prop
  | _, [], rest => rest = []
  | found, line :: lines, rest =>
    if line = [] then found ∧ HasRoom s .auth ∧ lines = [] ∧ rest = []
    else match readCredential P line with
      | .error _ => False
      | .ok .other => WholeRawHeader s found lines rest
      | .ok .invalid => True
      | .ok .noAccount => False
      | .ok (.key _) => WholeRawHeader s true lines rest

instance decidableWholeRawHeader (s : ProxyAccessService σ) :
    (found : Bool) → (lines : List Bytes) → (rest : Bytes) → Decidable (WholeRawHeader P s found lines rest)
  | _, [], rest => inferInstanceAs (Decidable (rest = []))
  | found, line :: lines, rest => by
    have hother := decidableWholeRawHeader s found lines rest
    have hkey := decidableWholeRawHeader s true lines rest
    unfold WholeRawHeader
    split
    · infer_instance
    · split <;> infer_instance

/-- A line that makes `OnHttpNormalHeaderProcessor` refuse the request. -/
def RefusesLine (line : Bytes) (lineEndIndex : ℕ) : Prop :=
  let authLength := sub64 lineEndIndex 21
  IsCredential line ∧ (authLength < 6 ∧ !strncasecmp (ascii "Basic ") (line.drop 21) ∨
    find 58 (P.base64Decode ((line.drop 27).take (sub64 authLength 6))) = some 0)
  deriving Decidable

/-- The header of another request, by its lines and what follows them: no line is refused,
    and nothing follows the end of the header. `temp` is what there was of the first line. -/
def WholeNormalHeader (s : ProxyAccessService σ) : (temp : Bytes) → List Bytes → Bytes → Prop
  | _, [], _ => True
  | temp, line :: lines, rest =>
    if line = [] ∧ temp = [] then HasRoom s .auth ∧ lines = [] ∧ rest = []
    else ¬RefusesLine P (temp ++ line) line.length ∧ WholeNormalHeader s [] lines rest

instance decidableWholeNormalHeader (s : ProxyAccessService σ) :
    (temp : Bytes) → (lines : List Bytes) → (rest : Bytes) →
      Decidable (WholeNormalHeader P s temp lines rest)
  | _, [], _ => inferInstanceAs (Decidable True)
  | temp, line :: lines, rest => by
    have hnext := decidableWholeNormalHeader s [] lines rest
    unfold WholeNormalHeader
    split <;> infer_instance

/-- The data is taken as a whole by the data processor of the connection, or is refused
    as invalid. -/
def Whole (s : ProxyAccessService σ) (c : ClientConnection) (data : Bytes) : Prop :=
  match c.dataProcessor with
  | .killConnectionOnData => True
  | .onGuessProxyType => WholeChallenge data
  | .onS5AuthInfo => WholeS5AuthInfo data
  | .onS5Target => WholeS5Target P s c data
  | .onRawData | .onHttpBody => data = [] ∨ c.deleteMark = false
  | .onHttpRawHeaderProcessor =>
    WholeRawHeader P s false (splitLines data).1 (splitLines data).2
  | .onHttpNormalHeaderProcessor =>
    WholeNormalHeader P s c.http.tempHeaderLine (splitLines data).1 (splitLines data).2

instance (s : ProxyAccessService σ) (c : ClientConnection) (data : Bytes) :
    Decidable (Whole P s c data) := by
  unfold Whole
  split <;> infer_instance

/-- The data that the client of a live connection presents is taken as a whole. -/
def PresentsWhole (s : ProxyAccessService σ) : ProxyEvent → Prop
  | .onData k data => ∀ c ∈ s.clientConnectionPool.get k, Whole P s c data
  | _ => True

instance (s : ProxyAccessService σ) : ∀ e : ProxyEvent, Decidable (PresentsWhole P s e)
  | .onData k data => inferInstanceAs
    (Decidable (∀ c ∈ s.clientConnectionPool.get k, Whole P s c data))
  | .onNewConnection .. | .onPeerClose _ | .onFlush _ | .onUdpData .. | .postData ..
  | .postUdpData .. | .closeConnection _ | .setReady .. | .tick _ => .isTrue trivial

/-! ## Runs -/

/-- The call of `OnData` on the connection `k` in a step: what is presented, and the size
    returned. -/
def upload (k : ℕ) (s : ProxyAccessService σ) : ProxyEvent → List (Bytes × Option ℕ)
  | .onData j data =>
    if j = k then
      match s.clientConnectionPool.get j with
      | none => []
      | some c => match onData S P s c data with
        | .error _ => []
        | .ok (_, _, n) => [(data, n)]
    else []
  | _ => []

/-- The calls of `OnData` on the connection `k` in a run. -/
def uploads (services : σ) (k : ℕ) (es : List ProxyEvent) : List (Bytes × Option ℕ) :=
  collectAlong (step S P) (upload S P k) (init services) es

/-- Each call presents what the one before has left, and whatever arrived since; none follows
    `InvalidDataSize`. -/
def Represents : List (Bytes × Option ℕ) → Prop :=
  List.IsChain fun u v => ∃ n ∈ u.2, u.1.drop n <+: v.1

/-- The number of bytes of the connection `k` consumed in a run. -/
def consumed (services : σ) (k : ℕ) (es : List ProxyEvent) : ℕ :=
  ((uploads S P services k es).map fun u => u.2.getD 0).sum

/-- At every point of the run, the live connections are charged for what was consumed. -/
def ExactUploads (services : σ) (es : List ProxyEvent) : Prop :=
  ∀ pre s k c, pre <+: es → exec (step S P) (init services) pre = .ok s →
    s.clientConnectionPool.get k = some c →
    c.totalTcpBytesFromClient = (consumed S P services k pre).toUInt64

/-! ## The sizes returned -/

/-- The size `n` is at most that of the data, and `whole` tells when it is the same or
    `InvalidDataSize`. -/
structure Sized (data : Bytes) (n : Option ℕ) (whole : Prop) : Prop where
  le : ∀ m ∈ n, m ≤ data.length
  whole : whole ↔ ∀ m ∈ n, m = data.length

section

variable {S P} {s s' : ProxyAccessService σ} {c c' : ClientConnection} {data : Bytes}
  {n : Option ℕ} {whole : Prop}

theorem Sized.invalid (h : whole) : Sized data none whole :=
  ⟨by simp, iff_of_true h (by simp)⟩

/-- Nothing is consumed of some data. -/
theorem Sized.zero (hdata : data ≠ []) (h : ¬whole) : Sized data (some 0) whole :=
  ⟨by simp, iff_of_false h fun hz =>
    hdata (List.eq_nil_of_length_eq_zero (hz 0 rfl).symm)⟩

/-- The data is consumed up to an offset. -/
theorem Sized.upTo {m : ℕ} (hm : m ≤ data.length) (h : whole ↔ m = data.length) :
    Sized data (some m) whole :=
  ⟨by simpa using hm, by simpa using h⟩

/-- Nothing is consumed. -/
theorem Sized.nothing (h : whole ↔ data = []) : Sized data (some 0) whole :=
  .upTo (Nat.zero_le _) (h.trans (List.length_eq_zero_iff.symm.trans eq_comm))

theorem Sized.congr {whole' : Prop} (h : Sized data n whole) (hw : whole' ↔ whole) :
    Sized data n whole' :=
  ⟨h.le, hw.trans h.whole⟩

theorem acquireFuture_eq_none {χ ρ : Type*} {m : FuturePoolManager χ ρ} {x : χ} :
    m.acquireFuture x = none ↔ ¬m.futurePool.size < m.futurePool.capacity := by
  rw [Nat.not_lt, ← Storage.acquire_eq_none (x := fun _ => ({ context := x } : Future χ ρ))]
  unfold FuturePoolManager.acquireFuture
  split <;> simp_all

/-- A request for authentication gets a future when there is one. -/
theorem requestAuthentication_isSome {authView : Bytes} {f : Option ℕ}
    (h : requestAuthentication S s c authView = .ok (s', f)) : f.isSome ↔ HasRoom s .auth := by
  unfold requestAuthentication at h
  split at h
  · next hm =>
    cases h
    exact iff_of_false Bool.false_ne_true (acquireFuture_eq_none.1 hm)
  · next i m hm =>
    have hroom : HasRoom s .auth := by
      by_contra hroom
      rw [acquireFuture_eq_none.2 hroom] at hm
      cases hm
    split at h
    · cases h
    · cases h
      exact iff_of_true rfl hroom

/-- So does a request for a relay connection. -/
theorem requestDeviceConnection_isSome {target : Target} {f : Option ℕ}
    (h : requestDeviceConnection S P s c target = (s', f)) :
    f.isSome ↔ HasRoom s .acquireDeviceConnection := by
  obtain ⟨l, hl, -⟩ := reportTarget_eq (P := P) s c.globalAuthId target
  unfold requestDeviceConnection at h
  rw [hl] at h
  dsimp only at h
  split at h
  · next hm =>
    cases h
    exact iff_of_false Bool.false_ne_true (acquireFuture_eq_none.1 hm)
  · next i m hm =>
    cases h
    refine iff_of_true rfl ?_
    by_contra hroom
    rw [acquireFuture_eq_none.2 hroom] at hm
    cases hm

/-- And one for a relayed UDP channel. -/
theorem requestDeviceUdpChannel_isSome {u : ℕ} {f : Option ℕ}
    (h : requestDeviceUdpChannel S s c u = (s', f)) :
    f.isSome ↔ HasRoom s .acquireDeviceUdpChannel := by
  unfold requestDeviceUdpChannel at h
  split at h
  · next hm =>
    cases h
    exact iff_of_false Bool.false_ne_true (acquireFuture_eq_none.1 hm)
  · next i m hm =>
    cases h
    refine iff_of_true rfl ?_
    by_contra hroom
    rw [acquireFuture_eq_none.2 hroom] at hm
    cases hm

/-! ### SOCKS5 -/

theorem onS5Challenge_sized (h : onS5Challenge S P s c data = .ok (s', c', n)) :
    Sized data n (WholeS5Challenge data) := by
  simp only [onS5Challenge] at h
  split at h
  · next hnm => cases h; exact .invalid (.inl hnm)
  next hnm =>
  split at h
  · next hlt => cases h; exact .invalid (.inr hlt.le)
  next hlt =>
  have hsized : Sized data (some (2 + (data.getD 1 0).toNat)) (WholeS5Challenge data) := by
    refine .upTo (Nat.not_lt.1 hlt) ?_
    simp only [WholeS5Challenge]
    omega
  split at h
  · split at h
    · cases h
    all_goals cases h; exact hsized
  · cases h; exact hsized

theorem onS5AuthInfo_sized (h : onS5AuthInfo S P s c data = .ok (s', c', n)) :
    Sized data n (WholeS5AuthInfo data) := by
  simp only [onS5AuthInfo] at h
  split at h
  · next hlt =>
    cases h
    by_cases hdata : data = []
    · subst hdata
      exact .upTo le_rfl (iff_of_true (.inl rfl) rfl)
    · refine .zero hdata ?_
      rintro (h | h | h)
      · exact hdata h
      · exact absurd h.1 (Nat.not_le.2 hlt)
      · omega
  next hlt =>
  split at h
  · next hver => cases h; exact .invalid (.inr (.inl ⟨Nat.not_lt.1 hlt, hver⟩))
  next hver =>
  have hdata : data ≠ [] := by rintro rfl; simp at hlt
  have hwhole : WholeS5AuthInfo data ↔ 3 + (data.getD 1 0).toNat +
      (data.getD (2 + (data.getD 1 0).toNat) 0).toNat ≤ data.length ∧
      ((data.getD 1 0).toNat = 0 ∨ (data.getD (2 + (data.getD 1 0).toNat) 0).toNat = 0 ∨
        data.length = 3 + (data.getD 1 0).toNat +
          (data.getD (2 + (data.getD 1 0).toNat) 0).toNat) := by
    simp only [WholeS5AuthInfo, hdata, hver, and_false, false_or]
  refine .congr ?_ hwhole
  split at h
  · cases h; exact .zero hdata (by omega)
  split at h
  · cases h; exact .zero hdata (by omega)
  next hpass =>
  split at h
  · next hempty => cases h; exact .invalid ⟨Nat.not_lt.1 hpass, by omega⟩
  next hempty =>
  have hsized : Sized data (some (3 + (data.getD 1 0).toNat +
      (data.getD (2 + (data.getD 1 0).toNat) 0).toNat)) _ := .upTo (Nat.not_lt.1 hpass) Iff.rfl
  split at h
  · cases h
  all_goals
    cases h
    exact hsized.congr (by omega)

/-- A target is read up to an offset within the data, and is none exactly for an unknown type
    of address. -/
theorem readS5Target_eq_some {target : Option Target} {offset : ℕ} (hdata : 10 ≤ data.length)
    (h : readS5Target data = some (target, offset)) :
    offset ≤ data.length ∧ (target.isSome ↔ data.getD 3 0 ∈ [1, 3, 4]) := by
  simp only [readS5Target] at h
  generalize data.getD 3 0 = addrType at h ⊢
  split at h
  · next ht => cases h; exact ⟨hdata, by simp [ht]⟩
  split at h
  · next ht =>
    split at h
    · cases h
    · cases h; exact ⟨by omega, by simp [ht]⟩
  split at h
  · next ht =>
    split at h
    · cases h
    · cases h; exact ⟨by omega, by simp [ht]⟩
  · next h1 h4 h3 => cases h; exact ⟨by omega, by simp [h1, h4, h3]⟩

/-- A request for a UDP channel is passed on, or refused. -/
theorem onS5UdpTarget_size {addrType : UInt8} {offset : ℕ}
    (h : onS5UdpTarget S P s c addrType offset = (s', c', n)) :
    CanAssociate P s c addrType ∧ n = some offset ∨ ¬CanAssociate P s c addrType ∧ n = some 0 := by
  simp only [onS5UdpTarget] at h
  split at h
  · next hudp => cases h; exact .inr ⟨fun hcan => by simp [hcan.1] at hudp, rfl⟩
  split at h
  · next hset => cases h; exact .inr ⟨fun hcan => by simp [hcan.2.1] at hset, rfl⟩
  next hudp hset =>
  split at h
  · next hp =>
    cases h
    exact .inr ⟨fun hcan => absurd hcan.2.2.1 (Nat.not_lt.2 (Storage.acquire_eq_none.1 hp)), rfl⟩
  next u p hp =>
  split at h
  · next hbound =>
    cases h
    refine .inr ⟨fun hcan => ?_, rfl⟩
    rw [Option.isNone_iff_eq_none] at hbound
    have hsome := hcan.2.2.2.1
    rw [hbound] at hsome
    cases hsome
  next hbound =>
  split at h
  · next s₁ hr =>
    cases h
    exact .inr ⟨fun hcan => Bool.false_ne_true ((requestDeviceUdpChannel_isSome hr).2 hcan.2.2.2.2),
      rfl⟩
  · next s₁ f hr =>
    cases h
    refine .inl ⟨⟨by simpa using hudp, by simpa using hset, (Storage.acquire_eq_some hp).2.2,
      ?_, (requestDeviceUdpChannel_isSome hr).1 rfl⟩, rfl⟩
    rw [← Option.not_isNone, Bool.not_eq_true', ← Bool.not_eq_true]
    exact hbound

theorem onS5Target_sized (h : onS5Target S P s c data = .ok (s', c', n)) :
    Sized data n (WholeS5Target P s c data) := by
  simp only [onS5Target] at h
  split at h
  · next hlt =>
    cases h
    by_cases hdata : data = []
    · subst hdata
      exact .upTo le_rfl (iff_of_true (.inl rfl) rfl)
    · refine .zero hdata ?_
      rintro (h | h | h)
      · exact hdata h
      · omega
      · omega
  next hlt =>
  split at h
  · next hlong => cases h; exact .invalid (.inr (.inl hlong))
  next hlong =>
  have hdata : data ≠ [] := by rintro rfl; simp at hlt
  split at h
  · next hver => cases h; exact .invalid (.inr (.inr ⟨Nat.not_lt.1 hlt, by tauto⟩))
  next hver =>
  have hwhole : WholeS5Target P s c data ↔
      (readS5Target data).map Prod.snd = some data.length ∧ CanRequest P s c data := by
    rw [not_or, not_not, not_not] at hver
    simp only [WholeS5Target, hdata, hlong, hver, Nat.not_lt.1 hlt, false_or, ne_eq,
      not_true_eq_false, true_and]
  refine .congr ?_ hwhole
  split at h
  · next hr => cases h; exact .zero hdata (by simp [hr])
  next target offset hr =>
  obtain ⟨hoffset, htarget⟩ := readS5Target_eq_some (Nat.not_lt.1 hlt) hr
  rw [hr, Option.map_some, Option.some.injEq]
  split at h
  · next hcmd =>
    have hne : data.getD 1 0 ≠ 3 := by rw [hcmd]; decide
    have hcan : CanRequest P s c data ↔
        target.isSome ∧ HasRoom s .acquireDeviceConnection := by
      simp only [CanRequest, hcmd, htarget, true_and, or_iff_left_iff_imp]
      rintro ⟨h3, -⟩
      cases h3
    rw [hcan]
    split at h
    · next target =>
      split at h
      · next s₁ hreq =>
        cases h
        exact .zero hdata fun hw => Bool.false_ne_true ((requestDeviceConnection_isSome hreq).2 hw.2.2)
      · next s₁ f hreq =>
        cases h
        have hroom := (requestDeviceConnection_isSome hreq).1 rfl
        exact .upTo hoffset ⟨fun hw => hw.1, fun hw => ⟨hw, rfl, hroom⟩⟩
    · split at h
      · cases h
      · cases h
        exact .zero hdata fun hw => Bool.false_ne_true hw.2.1
  next hcmd =>
  split at h
  · next hcmd' =>
    have hcan : CanRequest P s c data ↔ CanAssociate P s c (data.getD 3 0) := by
      simp only [CanRequest, hcmd', true_and, or_iff_right_iff_imp]
      rintro ⟨h3, -⟩
      cases h3
    rw [hcan]
    rcases onS5UdpTarget_size (Except.ok.inj h) with ⟨hcan, rfl⟩ | ⟨hcan, rfl⟩
    · exact .upTo hoffset (and_iff_left hcan)
    · exact .zero hdata fun hw => hcan hw.2
  · next hcmd' =>
    cases h
    refine .zero hdata ?_
    rintro ⟨-, ⟨h1, -⟩ | ⟨h3, -⟩⟩
    · exact hcmd h1
    · exact hcmd' h3

/-! ### HTTP -/

/-- The host read is what comes before a colon or the stop byte, if there is one. -/
theorem readAuthority_eq_ok {stop : UInt8} {m : ℕ} {host bs : Bytes} {x : Option (Bytes × ℕ)}
    (h : readAuthority stop m host bs = .ok x) :
    x = none ∧ ((bs.take m).takeWhile fun b => b ≠ 58 ∧ b ≠ stop) = bs.take m ∨
      ∃ port, x = some (host ++ (bs.take m).takeWhile (fun b => b ≠ 58 ∧ b ≠ stop), port) ∧
        ((bs.take m).takeWhile fun b => b ≠ 58 ∧ b ≠ stop) ≠ bs.take m := by
  induction m generalizing host bs with
  | zero => cases h; exact .inl ⟨rfl, rfl⟩
  | succ m ih =>
    cases bs with
    | nil => cases h; exact .inl ⟨rfl, rfl⟩
    | cons b bs =>
      rw [readAuthority] at h
      rw [List.take_succ_cons]
      split at h
      · next hb =>
        cases hp : atoi16 bs with
        | error y => rw [hp] at h; cases h
        | ok port =>
          rw [hp] at h
          cases h
          exact .inr ⟨port, by simp [hb], by simp [hb]⟩
      next hb =>
      split at h
      · next hstop =>
        cases h
        exact .inr ⟨80, by simp [hstop], by simp [hstop]⟩
      next hstop =>
      rw [List.takeWhile_cons_of_pos (by simp [hb, hstop])]
      rcases ih h with ⟨rfl, heq⟩ | ⟨port, rfl, hne⟩
      · exact .inl ⟨rfl, by rw [heq]⟩
      · exact .inr ⟨port, by rw [List.append_assoc]; rfl, fun heq => hne (List.cons.inj heq).2⟩

/-- The size returned for a request line that names a target. -/
theorem onHttpNormalChallenge_sized {lineLength : ℕ} (hline : findCrlf data = some lineLength)
    (hconnect : strncasecmp (ascii "CONNECT ") data = false)
    (h : onHttpNormalChallenge s c data lineLength = .ok (s', c', n)) :
    Sized data n (NoTarget data lineLength ∨ data.length = lineLength + 2) := by
  have htarget : NoTarget data lineLength ↔ match find 32 (data.take lineLength) with
      | none => True
      | some i => find 32 ((data.take lineLength).drop (i + 1)) = none ∨
        find 47 ((data.take lineLength).drop (skipScheme data (i + 1)).2) = none := by
    unfold NoTarget
    simp only [hconnect, Bool.false_eq_true, if_false]
  simp only [onHttpNormalChallenge] at h
  split at h
  · next hi =>
    rw [hi] at htarget
    cases h
    exact .invalid (.inl (htarget.2 trivial))
  next i hi =>
  rw [hi] at htarget
  dsimp only at htarget
  split at h
  · next hj => cases h; exact .invalid (.inl (htarget.2 (.inl hj)))
  next j hj =>
  split at h
  · next hk => cases h; exact .invalid (.inl (htarget.2 (.inr hk)))
  next k hk =>
  split at h
  · cases h
  next target _ =>
  cases h
  refine .upTo (add_two_le_of_findCrlf hline) ?_
  rw [htarget, hj, hk]
  simp [eq_comm]

theorem onHttpChallenge_sized (hdata : data ≠ [])
    (h : onHttpChallenge s c data = .ok (s', c', n)) : Sized data n (WholeHttpChallenge data) := by
  have hwhole : WholeHttpChallenge data ↔ match findCrlf data with
      | none => False
      | some lineLength => lineLength = 0 ∨ NoTarget data lineLength ∨
        data.length = lineLength + 2 := Iff.rfl
  unfold onHttpChallenge at h
  split at h
  · next hl =>
    rw [hl] at hwhole
    cases h
    exact .zero hdata hwhole.1
  next lineLength hl =>
  rw [hl] at hwhole
  dsimp only at hwhole
  split at h
  · next h0 => cases h; exact .invalid (hwhole.2 (.inl h0))
  next h0 =>
  refine .congr ?_ (hwhole.trans (or_iff_right h0))
  split at h
  · next hconnect =>
    have htarget : NoTarget data lineLength ↔
        (((data.drop 8).take (lineLength - 8)).takeWhile fun b => b ≠ 58 ∧ b ≠ 32) = [] ∨
        (((data.drop 8).take (lineLength - 8)).takeWhile fun b => b ≠ 58 ∧ b ≠ 32) =
          (data.drop 8).take (lineLength - 8) := by
      unfold NoTarget
      simp only [hconnect, if_true, List.drop_take]
    rw [htarget]
    split at h
    · cases h
    · next hr =>
      cases h
      rcases readAuthority_eq_ok hr with ⟨-, heq⟩ | ⟨port, hx, -⟩
      · exact .invalid (.inl (.inr heq))
      · cases hx
    · next host port hr =>
      rcases readAuthority_eq_ok hr with ⟨hx, -⟩ | ⟨port, hx, hne⟩
      · cases hx
      cases hx
      rw [List.nil_append] at h
      split at h
      · next hhost => cases h; exact .invalid (.inl (.inl hhost))
      · next hhost =>
        cases h
        refine .upTo (add_two_le_of_findCrlf hl) ?_
        rw [or_iff_left hne, or_iff_right hhost, eq_comm]
  · next hconnect =>
    exact onHttpNormalChallenge_sized hl (eq_false_of_ne_true hconnect) h

theorem onGuessProxyType_sized (h : onGuessProxyType S P s c data = .ok (s', c', n)) :
    Sized data n (WholeChallenge data) := by
  unfold onGuessProxyType at h
  split at h
  · next hlt => cases h; exact .invalid (.inl hlt)
  next hlt =>
  have hdata : data ≠ [] := by rintro rfl; simp at hlt
  split at h
  · next h5 =>
    refine (onS5Challenge_sized h).congr ⟨?_, fun h => .inr (.inl ⟨h5, h⟩)⟩
    rintro (h | h | h)
    · exact absurd h hlt
    · exact h.2
    · exact absurd h5 h.1
  next h5 =>
  split at h
  · next h22 =>
    cases h
    refine .zero hdata ?_
    rintro (h | h | h)
    · exact hlt h
    · exact h5 h.1
    · exact h.2.1 h22
  · next h22 =>
    refine (onHttpChallenge_sized hdata h).congr ⟨?_, fun h => .inr (.inr ⟨h5, h22, h⟩)⟩
    rintro (h | h | h)
    · exact absurd h hlt
    · exact absurd h.1 h5
    · exact h.2.2

/-- The loop is left with at most `size` bytes consumed, and `whole` tells when it is just as
    many, or when the header is invalid. -/
def RawHeaderExit.Sized (room whole : Prop) (size : ℕ) : RawHeaderExit → Prop
  | .wait n => n ≤ size ∧ (whole ↔ n = size)
  | .invalid => whole
  | .notFound | .unauthorized => ¬whole
  | .authenticate _ n => n ≤ size ∧ (whole ↔ room ∧ n = size)

theorem rawHeaderLoop_sized {fuel m : ℕ} {k : Bytes} {x : RawHeaderExit} (hfuel : data.length < fuel)
    (h : rawHeaderLoop P fuel data k m = .ok x) :
    x.Sized (HasRoom s .auth) (WholeRawHeader P s (k ≠ []) (splitLines data).1 (splitLines data).2)
      (m + data.length) := by
  induction data using lines_induction generalizing fuel k m with
  | rest r hr =>
    obtain ⟨n, rfl⟩ : ∃ n, fuel = n + 1 := ⟨fuel - 1, by omega⟩
    rw [rawHeaderLoop_rest hr] at h
    cases h
    rw [splitLines_rest hr]
    refine ⟨Nat.le_add_right _ _, ?_⟩
    change r = [] ↔ m = m + r.length
    rw [← List.length_eq_zero_iff]
    omega
  | line l r hl ih =>
    obtain ⟨n, rfl⟩ : ∃ n, fuel = n + 1 := ⟨fuel - 1, by omega⟩
    have hlen : (l ++ 13 :: 10 :: r).length = l.length + 2 + r.length := by
      simp only [List.length_append, List.length_cons]; omega
    rw [hlen] at hfuel ⊢
    rw [splitLines_line hl]
    dsimp only
    rw [WholeRawHeader]
    by_cases hnil : l = []
    · subst hnil
      rw [List.nil_append, rawHeaderLoop_end] at h
      rw [if_pos rfl]
      split at h
      · next hk => cases h; exact fun hw => absurd hw.1 (by simp [hk])
      · next hk =>
        cases h
        refine ⟨by rw [List.length_nil]; omega, ?_⟩
        simp only [hk, ne_eq, not_false_eq_true, decide_true, true_and]
        refine and_congr_right fun _ => ?_
        rw [List.length_nil]
        rw [splitLines_eq_nil, ← List.length_eq_zero_iff]
        omega
    · rw [rawHeaderLoop_line hl hnil] at h
      rw [if_neg hnil]
      cases hc : readCredential P l with
      | error y => rw [hc] at h; cases h
      | ok y =>
        rw [hc] at h
        cases y with
        | other =>
          have hi := ih (by omega) h
          rwa [show m + (l.length + 2 + r.length) = m + (l.length + 2) + r.length by omega]
        | invalid => cases h; exact trivial
        | noAccount => cases h; exact not_false
        | key authKey =>
          have hkey : authKey ≠ [] := by
            unfold readCredential at hc
            split at hc
            · split at hc
              · cases hc
              · split at hc
                · cases hc
                · cases hc
                · next ha => cases hc; exact authKeyOf_ne_nil ha
            · cases hc
          have hi := ih (by omega) h
          simp only [hkey, ne_eq, not_false_eq_true, decide_true] at hi
          rwa [show m + (l.length + 2 + r.length) = m + (l.length + 2) + r.length by omega]

theorem onHttpRawHeaderProcessor_sized
    (h : onHttpRawHeaderProcessor S P s c data = .ok (s', c', n)) :
    Sized data n (WholeRawHeader P s false (splitLines data).1 (splitLines data).2) := by
  have hdata (hw : ¬WholeRawHeader P s false (splitLines data).1 (splitLines data).2) :
      data ≠ [] := by
    rintro rfl
    exact hw rfl
  unfold onHttpRawHeaderProcessor at h
  split at h
  · cases h
  · next m hx =>
    cases h
    obtain ⟨hle, hw⟩ := rawHeaderLoop_sized (s := s) (Nat.lt_succ_self _) hx
    rw [Nat.zero_add] at hle hw
    exact .upTo hle hw
  · next hx => cases h; exact .invalid (rawHeaderLoop_sized (s := s) (Nat.lt_succ_self _) hx)
  · next hx =>
    cases h
    have hw := rawHeaderLoop_sized (s := s) (Nat.lt_succ_self _) hx
    exact .zero (hdata hw) hw
  · next hx =>
    cases h
    have hw := rawHeaderLoop_sized (s := s) (Nat.lt_succ_self _) hx
    exact .zero (hdata hw) hw
  next authKey m hx =>
  obtain ⟨hle, hw⟩ := rawHeaderLoop_sized (s := s) (Nat.lt_succ_self _) hx
  rw [Nat.zero_add] at hle hw
  dsimp only at h
  split at h
  · cases h
  · next s₁ hr =>
    cases h
    have hroom := (not_congr (requestAuthentication_isSome hr)).1 Bool.false_ne_true
    have hw' := mt hw.1 fun hw => hroom hw.1
    exact .zero (hdata hw') hw'
  · next s₁ f hr =>
    cases h
    have hroom := (requestAuthentication_isSome hr).1 rfl
    exact .upTo hle (hw.trans (and_iff_right hroom))

/-- The lines that make the processor refuse the request. -/
theorem processHeaderLine_refused {http : HttpData} {k : Bytes} {i : ℕ} {x : HeaderLine}
    (h : processHeaderLine P http k i = .ok x) :
    RefusesLine P http.tempHeaderLine i ↔ ∃ reply, x = .refused reply := by
  simp only [processHeaderLine] at h
  split at h
  · next hl =>
    cases h
    refine iff_of_false (fun hr => ?_) (by simp)
    rw [hr.1.not_connection.1] at hl
    exact Bool.false_ne_true hl.2
  split at h
  · next hl =>
    cases h
    refine iff_of_false (fun hr => ?_) (by simp)
    rw [hr.1.not_connection.2] at hl
    exact Bool.false_ne_true hl.2
  split at h
  · next hl =>
    split at h
    · next hb => cases h; exact iff_of_true ⟨hl, .inl hb⟩ ⟨_, rfl⟩
    next hb =>
    have hiff : RefusesLine P http.tempHeaderLine i ↔ find 58 (P.base64Decode
        ((http.tempHeaderLine.drop 27).take (sub64 (sub64 i 21) 6))) = some 0 :=
      ⟨fun hr => hr.2.resolve_left hb, fun hr => ⟨hl, .inr hr⟩⟩
    rw [hiff]
    rw [List.drop_drop, base64DecodeAt] at h
    split at h
    · cases h
    next decoded hd =>
    split at hd
    · cases hd
    cases hd
    unfold authKeyOf at h
    split at h
    · cases h
    · next y hy =>
      split at hy
      · cases hy
      · next j hj =>
        split at hy
        · next h0 => cases h; exact iff_of_true (hj.trans (congrArg some h0)) ⟨_, rfl⟩
        · cases hy
    · next y hy =>
      split at hy
      · cases hy
      · next j hj =>
        split at hy
        · cases hy
        · next h0 =>
          cases h
          refine iff_of_false (fun hr => h0 ?_) (by simp)
          exact Option.some.inj (hj.symm.trans hr)
  next hl =>
  have hnot : ¬RefusesLine P http.tempHeaderLine i := fun hr => hl hr.1
  split at h
  · split at h
    · cases h
    · cases h; exact iff_of_false hnot (by simp)
  · cases h; exact iff_of_false hnot (by simp)

/-- The loop is left with at most `size` bytes consumed, and `whole` tells when it is just as
    many. Before the end of the header it is. -/
def NormalHeaderExit.Sized (room whole : Prop) (size : ℕ) : NormalHeaderExit → Prop
  | .wait _ => whole
  | .refused _ _ => ¬whole
  | .finished _ _ n => n ≤ size ∧ (whole ↔ room ∧ n = size)

theorem normalHeaderLoop_sized {fuel m : ℕ} {http : HttpData} {k : Bytes} {x : NormalHeaderExit}
    (hfuel : data.length < fuel) (h : normalHeaderLoop P fuel data http k m = .ok x) :
    x.Sized (HasRoom s .auth)
      (WholeNormalHeader P s http.tempHeaderLine (splitLines data).1 (splitLines data).2)
      (m + data.length) := by
  induction data using lines_induction generalizing fuel http k m with
  | rest r hr =>
    obtain ⟨n, rfl⟩ : ∃ n, fuel = n + 1 := ⟨fuel - 1, by omega⟩
    rw [normalHeaderLoop_rest hr] at h
    cases h
    rw [splitLines_rest hr]
    exact trivial
  | line l r hl ih =>
    obtain ⟨n, rfl⟩ : ∃ n, fuel = n + 1 := ⟨fuel - 1, by omega⟩
    have hlen : (l ++ 13 :: 10 :: r).length = l.length + 2 + r.length := by
      simp only [List.length_append, List.length_cons]; omega
    rw [hlen] at hfuel ⊢
    rw [splitLines_line hl]
    dsimp only
    rw [WholeNormalHeader]
    by_cases hnil : l = [] ∧ http.tempHeaderLine = []
    · obtain ⟨rfl, ht⟩ := hnil
      rw [List.nil_append, normalHeaderLoop_end ht] at h
      cases h
      rw [if_pos ⟨rfl, ht⟩, List.length_nil]
      refine ⟨by omega, and_congr_right fun _ => ?_⟩
      rw [splitLines_eq_nil, ← List.length_eq_zero_iff]
      omega
    · rw [normalHeaderLoop_line hl hnil] at h
      rw [if_neg hnil]
      split at h
      · cases h
      · next reply hp =>
        cases h
        exact fun hw => hw.1 ((processHeaderLine_refused hp).2 ⟨reply, rfl⟩)
      · next http' k' hp =>
        have hnot : ¬RefusesLine P (http.tempHeaderLine ++ l) l.length := fun hr => by
          obtain ⟨reply, hreply⟩ := (processHeaderLine_refused hp).1 hr
          cases hreply
        have hi := ih (by omega) h
        rw [and_iff_right hnot]
        rwa [show m + (l.length + 2 + r.length) = m + (l.length + 2) + r.length by omega]

theorem onHttpNormalHeaderProcessor_sized
    (h : onHttpNormalHeaderProcessor S P s c data = .ok (s', c', n)) :
    Sized data n (WholeNormalHeader P s c.http.tempHeaderLine (splitLines data).1
      (splitLines data).2) := by
  have hdata (hw : ¬WholeNormalHeader P s c.http.tempHeaderLine (splitLines data).1
      (splitLines data).2) : data ≠ [] := by
    rintro rfl
    exact hw trivial
  unfold onHttpNormalHeaderProcessor at h
  split at h
  · cases h
  · next http hx =>
    cases h
    exact .upTo le_rfl (iff_of_true (normalHeaderLoop_sized (s := s) (Nat.lt_succ_self _) hx) rfl)
  · next http reply hx =>
    cases h
    have hw := normalHeaderLoop_sized (s := s) (Nat.lt_succ_self _) hx
    exact .zero (hdata hw) hw
  next http authKey m hx =>
  obtain ⟨hle, hw⟩ := normalHeaderLoop_sized (s := s) (Nat.lt_succ_self _) hx
  rw [Nat.zero_add] at hle hw
  dsimp only at h
  split at h
  · cases h
  · next s₁ hr =>
    cases h
    have hroom := (not_congr (requestAuthentication_isSome hr)).1 Bool.false_ne_true
    have hw' := mt hw.1 fun hw => hroom hw.1
    exact .zero (hdata hw') hw'
  · next s₁ f hr =>
    cases h
    have hroom := (requestAuthentication_isSome hr).1 rfl
    exact .upTo hle (hw.trans (and_iff_right hroom))

/-! ### All data processors -/

/-- The size returned is that of the data exactly if the data is one to be taken as a whole. -/
theorem processData_sized (h : processData S P s c data = .ok (s', c', n)) :
    Sized data n (Whole P s c data) := by
  unfold processData at h
  unfold Whole
  cases hp : c.dataProcessor with
  | killConnectionOnData => simp only [hp] at h; cases h; exact .invalid trivial
  | onGuessProxyType => simp only [hp] at h; exact onGuessProxyType_sized h
  | onS5AuthInfo => simp only [hp] at h; exact onS5AuthInfo_sized h
  | onS5Target => simp only [hp] at h; exact onS5Target_sized h
  | onRawData =>
    simp only [hp] at h
    rcases onRawData_eq S s c data with ⟨hmark, heq⟩ | ⟨hmark, heq⟩
    · rw [heq] at h
      cases h
      exact .nothing (or_iff_left (by rw [hmark]; exact Bool.noConfusion))
    · rw [heq] at h
      cases h
      exact .upTo le_rfl (iff_of_true (.inr hmark) rfl)
  | onHttpRawHeaderProcessor => simp only [hp] at h; exact onHttpRawHeaderProcessor_sized h
  | onHttpNormalHeaderProcessor => simp only [hp] at h; exact onHttpNormalHeaderProcessor_sized h
  | onHttpBody =>
    simp only [hp] at h
    rcases onHttpBody_eq S s c data with ⟨hmark, heq⟩ | ⟨hmark, -, heq⟩ | ⟨hmark, -, heq⟩
    · rw [heq] at h
      cases h
      exact .nothing (or_iff_left (by rw [hmark]; exact Bool.noConfusion))
    all_goals
      rw [heq] at h
      cases h
      exact .upTo le_rfl (iff_of_true (.inr hmark) rfl)

end

/-! ## Charges -/

/-- The connections that were there are charged as they were, the others for nothing. -/
structure Uncharged (s t : ProxyAccessService σ) : Prop where
  lastId : s.clientConnectionPool.lastId ≤ t.clientConnectionPool.lastId
  connection : ∀ k c', t.clientConnectionPool.get k = some c' →
    (∃ c, s.clientConnectionPool.get k = some c ∧
      c'.totalTcpBytesFromClient = c.totalTcpBytesFromClient) ∨
    s.clientConnectionPool.lastId < k ∧ c'.totalTcpBytesFromClient = 0

section

variable {S P} {s t u s' : ProxyAccessService σ} {c c' : ClientConnection} {k : ℕ}

theorem Uncharged.of_pool (h : t.clientConnectionPool = s.clientConnectionPool) : Uncharged s t :=
  ⟨by rw [h], fun k c hc => .inl ⟨c, by rwa [h] at hc, rfl⟩⟩

theorem Uncharged.trans (h : Uncharged s t) (h' : Uncharged t u) : Uncharged s u := by
  refine ⟨h.lastId.trans h'.lastId, fun k c'' hc'' => ?_⟩
  rcases h'.connection k c'' hc'' with ⟨c', hc', heq'⟩ | ⟨hk, h0⟩
  · rcases h.connection k c' hc' with ⟨c, hc, heq⟩ | ⟨hk, h0⟩
    · exact .inl ⟨c, hc, heq'.trans heq⟩
    · exact .inr ⟨hk, heq'.trans h0⟩
  · exact .inr ⟨h.lastId.trans_lt hk, h0⟩

/-- Writing back a connection for which something was handled. -/
theorem Handled.uncharged (h : Handled s c s' c') (hc : s.clientConnectionPool.get k = some c)
    (hid : c.connectionId = k) : Uncharged s (s'.store c') := by
  refine ⟨?_, fun j d hd => ?_⟩
  · simp [store, h.clientConnectionPool]
  · rw [get_store_of_pool h.clientConnectionPool hc (h.connectionId.trans hid)] at hd
    split at hd
    · next hj =>
      cases hd
      exact .inl ⟨c, by rw [hj, hc], h.totalTcpBytesFromClient⟩
    · exact .inl ⟨d, hd, rfl⟩

/-- A round does not charge. -/
theorem Round.uncharged (h : Round s t) (hs : Identified s) : Uncharged s t := by
  cases h with
  | quiet t hpool hcalls => exact .of_pool hpool
  | accept remoteAddress localAddress k p hacquire =>
    obtain ⟨hk, hlast, -⟩ := Storage.acquire_eq_some hacquire
    refine ⟨by change _ ≤ p.lastId; omega, fun j d hd => ?_⟩
    change p.get j = some d at hd
    rw [Storage.get_acquire hacquire] at hd
    split at hd
    · next hj => cases hd; exact .inr ⟨by omega, rfl⟩
    · exact .inl ⟨d, hd, rfl⟩
  | refuse x k p hacquire =>
    obtain ⟨hk, hlast, -⟩ := Storage.acquire_eq_some hacquire
    refine ⟨by change _ ≤ p.lastId; omega, fun j d hd => ?_⟩
    change (p.release k).get j = some d at hd
    rw [Storage.get_release] at hd
    split at hd
    · cases hd
    · next hj =>
      rw [Storage.get_acquire hacquire, if_neg hj] at hd
      exact .inl ⟨d, hd, rfl⟩
  | handle k c s' c' hc h => exact h.uncharged hc (hs k c hc)
  | release k t hpool hcalls =>
    refine ⟨by rw [hpool]; exact le_rfl, fun j d hd => ?_⟩
    rw [hpool, Storage.get_release] at hd
    split at hd
    · cases hd
    · exact .inl ⟨d, hd, rfl⟩

/-- No event but the data of a client charges it. -/
theorem step_uncharged {e : ProxyEvent} (he : ∀ k data, e ≠ .onData k data) (hs : Sound s)
    (h : step S P s e = .ok t) : Uncharged s t :=
  (step_rounds he hs h).invariant (fun _ _ hs ih hround => ih.trans (hround.uncharged hs))
    hs.connectionId (.of_pool rfl)

/-! ### Data -/

theorem onS5UdpTarget_total {addrType : UInt8} {offset : ℕ} {n : Option ℕ}
    (h : onS5UdpTarget S P s c addrType offset = (s', c', n)) :
    c'.totalTcpBytesFromClient = c.totalTcpBytesFromClient := by
  simp only [onS5UdpTarget] at h
  repeat' split at h
  all_goals cases h; rfl

theorem onS5Target_total {data : Bytes} {n : Option ℕ}
    (h : onS5Target S P s c data = .ok (s', c', n)) :
    c'.totalTcpBytesFromClient = c.totalTcpBytesFromClient := by
  unfold onS5Target at h
  dsimp only at h
  iterate 3
    split at h
    · cases h; rfl
  split at h
  · cases h; rfl
  split at h
  · split at h
    · split at h
      · cases h; rfl
      · cases h; rfl
    · split at h
      · cases h
      · cases h; rfl
  split at h
  · exact (onS5UdpTarget_total (Except.ok.inj h) :)
  · cases h; rfl

theorem onHttpNormalHeaderProcessor_total {data : Bytes} {n : Option ℕ}
    (h : onHttpNormalHeaderProcessor S P s c data = .ok (s', c', n)) :
    c'.totalTcpBytesFromClient = c.totalTcpBytesFromClient := by
  unfold onHttpNormalHeaderProcessor at h
  split at h
  · cases h
  · cases h; rfl
  · cases h; rfl
  dsimp only at h
  split at h
  · cases h
  · cases h; rfl
  · cases h; rfl

theorem onHttpRawHeaderProcessor_total {data : Bytes} {n : Option ℕ}
    (h : onHttpRawHeaderProcessor S P s c data = .ok (s', c', n)) :
    c'.totalTcpBytesFromClient = c.totalTcpBytesFromClient := by
  unfold onHttpRawHeaderProcessor at h
  split at h
  · cases h
  · cases h; rfl
  · cases h; rfl
  · cases h; rfl
  · cases h; rfl
  dsimp only at h
  split at h
  · cases h
  · cases h; rfl
  · cases h; rfl

/-- The data processors do not charge by themselves. -/
theorem processData_total {data : Bytes} {n : Option ℕ}
    (h : processData S P s c data = .ok (s', c', n)) :
    c'.totalTcpBytesFromClient = c.totalTcpBytesFromClient := by
  unfold processData at h
  split at h
  · cases h; rfl
  · simp only [onGuessProxyType, onS5Challenge, onHttpChallenge, onHttpNormalChallenge] at h
    repeat' split at h
    all_goals first | (cases h; rfl) | cases h
  · simp only [onS5AuthInfo] at h
    repeat' split at h
    all_goals first | (cases h; rfl) | cases h
  · exact onS5Target_total h
  · rcases onRawData_eq S s c data with ⟨-, heq⟩ | ⟨-, heq⟩
    all_goals
      rw [heq] at h
      cases h
      rfl
  · exact onHttpRawHeaderProcessor_total h
  · exact onHttpNormalHeaderProcessor_total h
  · rcases onHttpBody_eq S s c data with ⟨-, heq⟩ | ⟨-, -, heq⟩ | ⟨-, -, heq⟩
    all_goals
      rw [heq] at h
      cases h
      rfl

/-- What `OnData` charges. -/
theorem onData_total {data : Bytes} {n : Option ℕ} (h : onData S P s c data = .ok (s', c', n)) :
    c'.totalTcpBytesFromClient = c.totalTcpBytesFromClient +
      if n.isSome then data.length.toUInt64 else 0 := by
  unfold onData at h
  split at h
  · cases h
  · next hp => cases h; simp [processData_total hp]
  · next hp => cases h; simp [processData_total hp]

theorem onData_sized {data : Bytes} {n : Option ℕ} (h : onData S P s c data = .ok (s', c', n)) :
    Sized data n (Whole P s c data) := by
  obtain ⟨c₁, total, hp, -⟩ := onData_eq_ok h
  exact processData_sized hp

end

/-! ## The uploads of a run -/

section

variable {S P} {services : σ} {es pre : List ProxyEvent} {s t : ProxyAccessService σ}
  {c c' : ClientConnection} {k : ℕ}

theorem consumed_snoc (e : ProxyEvent) (h : exec (step S P) (init services) pre = .ok s) :
    consumed S P services k (pre ++ [e]) =
      consumed S P services k pre + ((upload S P k s e).map fun u => u.2.getD 0).sum := by
  unfold consumed uploads
  rw [collectAlong_snoc e h, List.map_append, List.sum_append]

/-- Nothing is consumed for a connection that is still to come. -/
theorem consumed_of_lt (h : exec (step S P) (init services) es = .ok s)
    (hk : s.clientConnectionPool.lastId < k) : consumed S P services k es = 0 := by
  induction es using List.reverseRecOn generalizing s with
  | nil => rfl
  | append_singleton pre e ih =>
    obtain ⟨t, ht, he⟩ := exec_append_eq_ok.1 h
    obtain ⟨u, hu, hnil⟩ := exec_cons_eq_ok.1 he
    cases hnil
    have hlater := ((step_turns (sound_of_exec ht) hu).later (sound_of_exec ht)).lastId
    have hk' : t.clientConnectionPool.lastId < k := hlater.trans_lt hk
    rw [consumed_snoc e ht, ih ht hk', Nat.zero_add]
    have hnone : upload S P k t e = [] := by
      cases e with
      | onData j data =>
        simp only [upload]
        split
        · next hj => rw [hj, Storage.get_of_lt hk']
        · rfl
      | _ => rfl
    rw [hnone]
    rfl

/-- The connections are charged for what was consumed. -/
def Charged (S : Services σ) (P : Platform) (services : σ) (pre : List ProxyEvent)
    (s : ProxyAccessService σ) : Prop :=
  ∀ k c, s.clientConnectionPool.get k = some c →
    c.totalTcpBytesFromClient = (consumed S P services k pre).toUInt64

/-- A charge for `n` bytes is one for `m` bytes. -/
theorem charge_eq_iff {n m : ℕ} (hm : m ≤ n) (hn : n < 2 ^ 64) (a : ℕ) :
    a.toUInt64 + n.toUInt64 = (a + m).toUInt64 ↔ m = n := by
  rw [show (a + m).toUInt64 = a.toUInt64 + m.toUInt64 from UInt64.ofNat_add a m]
  constructor
  · intro h
    have h' := congrArg UInt64.toNat (UInt64.add_right_inj a.toUInt64 |>.1 h)
    rw [show n.toUInt64.toNat = n from UInt64.toNat_ofNat_of_lt' hn,
      show m.toUInt64.toNat = m from UInt64.toNat_ofNat_of_lt' (hm.trans_lt hn)] at h'
    exact h'.symm
  · rintro rfl
    rfl

/-- No event but the data of a client changes what is charged or consumed. -/
theorem charged_step {e : ProxyEvent} (he : ∀ k data, e ≠ .onData k data)
    (hs : exec (step S P) (init services) pre = .ok s) (h : step S P s e = .ok t)
    (hc : Charged S P services pre s) : Charged S P services (pre ++ [e]) t := by
  have hnone (k : ℕ) : upload S P k s e = [] := by
    cases e with
    | onData k data => exact absurd rfl (he k data)
    | _ => rfl
  intro k d hd
  rw [consumed_snoc e hs, hnone, List.map_nil, List.sum_nil, Nat.add_zero]
  rcases (step_uncharged he (sound_of_exec hs) h).connection k d hd with ⟨c, hcs, heq⟩ | ⟨hk, h0⟩
  · exact heq.trans (hc k c hcs)
  · rw [h0, consumed_of_lt hs hk]
    rfl

/-- Data keeps the charges right exactly if it is taken as a whole. -/
theorem charged_onData {data : Bytes} (hsize : data.length < 2 ^ 64)
    (hs : exec (step S P) (init services) pre = .ok s)
    (h : step S P s (.onData k data) = .ok t) (hc : Charged S P services pre s) :
    Charged S P services (pre ++ [.onData k data]) t ↔ PresentsWhole P s (.onData k data) := by
  have hsound := sound_of_exec hs
  obtain ⟨hk, rfl⟩ | ⟨c, s', c', n, hk, hd, rfl⟩ := step_onData_eq_ok h
  · refine iff_of_true (fun j d hd => ?_) fun c hc => ?_
    · rw [consumed_snoc _ hs]
      have hnone : upload S P j t (.onData k data) = [] := by
        simp only [upload, hk]
        split <;> rfl
      rw [hnone]
      exact hc j d hd
    · rw [hk] at hc
      cases hc
  obtain ⟨g, hg⟩ := hsound.stage k c hk
  obtain ⟨heffect, -⟩ := onData_spec hg hd
  have hid : c'.connectionId = k := heffect.connectionId.trans (hsound.connectionId k c hk)
  have hget (j : ℕ) : (s'.store c').clientConnectionPool.get j =
      if j = k then some c' else s.clientConnectionPool.get j :=
    get_store_of_pool heffect.clientConnectionPool hk hid j
  have hup (j : ℕ) : upload S P j s (.onData k data) = if k = j then [(data, n)] else [] := by
    simp only [upload, hk, hd]
  have hwhole : PresentsWhole P s (.onData k data) ↔ Whole P s c data :=
    ⟨fun h => h c hk, fun h d hd => by rw [hk] at hd; cases hd; exact h⟩
  obtain ⟨hle, hiff⟩ := onData_sized hd
  rw [hwhole, hiff]
  -- The charge of the connection is right when the size returned is that of the data.
  have hcharge : c'.totalTcpBytesFromClient =
      (consumed S P services k (pre ++ [.onData k data])).toUInt64 ↔
      ∀ m ∈ n, m = data.length := by
    rw [consumed_snoc _ hs, hup, if_pos rfl, onData_total hd, hc k c hk]
    cases n with
    | none => simp
    | some m =>
      have hm := charge_eq_iff (hle m rfl) hsize (consumed S P services k pre)
      simpa using hm
  rw [← hcharge]
  constructor
  · intro h
    exact h k c' (by rw [hget, if_pos rfl])
  · intro h j d hd
    rw [hget] at hd
    split at hd
    · next hj => cases hd; rw [hj]; exact h
    · next hj =>
      rw [consumed_snoc _ hs, hup, if_neg (Ne.symm hj)]
      exact hc j d hd

theorem charged_init : Charged S P services [] (init services) := by
  intro k c hc
  cases hc

/-- Upload accounting is exact in exactly those runs in which the data presented is taken as a
    whole at every call. -/
theorem exactUploads_iff (services : σ) (es : List ProxyEvent) (s : ProxyAccessService σ)
    (hsize : ∀ k data, .onData k data ∈ es → data.length < 2 ^ 64)
    (h : exec (step S P) (init services) es = .ok s) :
    ExactUploads S P services es ↔ Along (step S P) (PresentsWhole P) (init services) es := by
  rw [along_iff]
  constructor
  · intro hexact pre e t hpre ht
    by_cases he : ∀ k data, e ≠ .onData k data
    · cases e with
      | onData k data => exact absurd rfl (he k data)
      | _ => trivial
    · simp only [not_forall, ne_eq, not_not] at he
      obtain ⟨k, data, rfl⟩ := he
      obtain ⟨post, rfl⟩ := hpre
      obtain ⟨u, hu, -⟩ := exec_append_eq_ok.1 h
      have htu := (exec_snoc _ ht).symm.trans hu
      have hbefore : Charged S P services pre t := fun j d hd =>
        hexact pre t j d ⟨_, (List.append_assoc _ _ _).symm⟩ ht hd
      have hafter : Charged S P services (pre ++ [.onData k data]) u := fun j d hd =>
        hexact _ u j d ⟨post, rfl⟩ hu hd
      exact (charged_onData (hsize k data (by simp)) ht htu hbefore).1 hafter
  · intro halong
    have hcharged (pre : List ProxyEvent) (t : ProxyAccessService σ) (hpre : pre <+: es)
        (ht : exec (step S P) (init services) pre = .ok t) : Charged S P services pre t := by
      induction pre using List.reverseRecOn generalizing t with
      | nil => cases ht; exact charged_init
      | append_singleton pre e ih =>
        obtain ⟨u, hu, he⟩ := exec_append_eq_ok.1 ht
        obtain ⟨v, hv, hnil⟩ := exec_cons_eq_ok.1 he
        cases hnil
        have hpre' : pre <+: es := (List.prefix_append pre [e]).trans hpre
        by_cases he : ∀ k data, e ≠ .onData k data
        · exact charged_step he hu hv (ih u hpre' hu)
        · simp only [not_forall, ne_eq, not_not] at he
          obtain ⟨k, data, rfl⟩ := he
          have hmem : ProxyEvent.onData k data ∈ es := hpre.subset (by simp)
          exact (charged_onData (hsize k data hmem) hu hv (ih u hpre' hu)).2
            (halong pre _ u hpre hu)
    exact fun pre t k c hpre ht hc => hcharged pre t hpre ht k c hc

/-- A client that sends its user and password in the pieces given. -/
def pastingClient (pieces : List Bytes) : List ProxyEvent :=
  .onNewConnection localAddress localAddress true :: .onData 1 [5, 1, 2] ::
    pieces.map (.onData 1 ·)

theorem exactUploads_sample :
    ExactUploads grantingServices localPlatform () (pastingClient [[1, 1, 97, 1, 98]]) := by
  obtain ⟨s, hs, -⟩ := exists_ok_of_check
    (x := exec (step grantingServices localPlatform) (init ()) (pastingClient [[1, 1, 97, 1, 98]]))
    (p := fun _ => true) (by decide +kernel)
  refine (exactUploads_iff () _ s (fun k data hmem => ?_) hs).2 (along_of_check (by decide +kernel))
  simp only [pastingClient, List.map_cons, List.map_nil, List.mem_cons, List.not_mem_nil, reduceCtorEq,
    ProxyEvent.onData.injEq, false_or, or_false] at hmem
  rcases hmem with ⟨-, rfl⟩ | ⟨-, rfl⟩ <;> decide

/-- Two bytes of the credential come first, and come again with the rest: ten bytes are charged
    for eight. -/
theorem exactUploads_counterexample :
    Represents (uploads grantingServices localPlatform () 1
      (pastingClient [[1, 1], [1, 1, 97, 1, 98]])) ∧
    ¬ExactUploads grantingServices localPlatform () (pastingClient [[1, 1], [1, 1, 97, 1, 98]]) := by
  constructor
  · rw [show uploads grantingServices localPlatform () 1 (pastingClient [[1, 1], [1, 1, 97, 1, 98]]) =
      [([5, 1, 2], some 3), ([1, 1], some 0), ([1, 1, 97, 1, 98], some 5)] by decide +kernel]
    simp [Represents]
  · intro hexact
    obtain ⟨s, hs, hp⟩ := exists_ok_of_check
      (x := exec (step grantingServices localPlatform) (init ())
        (pastingClient [[1, 1], [1, 1, 97, 1, 98]]))
      (p := fun s => (s.clientConnectionPool.get 1).map ClientConnection.totalTcpBytesFromClient =
        some 10) (by decide +kernel)
    obtain ⟨c, hc, htotal⟩ := Option.map_eq_some_iff.1 (of_decide_eq_true hp)
    have h := hexact _ s 1 c List.prefix_rfl hs hc
    rw [htotal, show consumed grantingServices localPlatform () 1
      (pastingClient [[1, 1], [1, 1, 97, 1, 98]]) = 8 by decide +kernel] at h
    exact absurd h (by decide)

end

end ProxyPlatform.ProxyAccessService
