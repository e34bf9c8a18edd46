import ProxyPlatform.Proxy.Basic

/-!
# The data processors of HTTP

The request line is read by `onHttpChallenge`, the header of a `CONNECT` request by
`onHttpRawHeaderProcessor`, that of any other request by `onHttpNormalHeaderProcessor`,
which rewrites it into `content`, and the body of the latter by `onHttpBody`.

The loops over the lines of a header run for a number of turns that is enough for the
bytes at hand (`rawHeaderLoop`, `normalHeaderLoop`); how they leave is an `Exit`, and
what the processor does then is in the processor.
-/

namespace ProxyPlatform.ProxyAccessService

variable {σ : Type*} (S : Services σ) (P : Platform)

/-! ## The request line -/

/-- The host and the port in the next `n` bytes, the host ending at a colon or at `stop`;
    nothing, if neither is found. -/
def readAuthority (stop : UInt8) : ℕ → Bytes → Bytes → Except Fault (Option (Bytes × ℕ))
  | 0, _, _ => .ok none
  | _ + 1, _, [] => .ok none
  | n + 1, host, b :: bs =>
    if b = 58 then (atoi16 bs).map fun port => some (host, port)
    else if b = stop then .ok (some (host, 80))
    else readAuthority stop n (host ++ [b]) bs

/-- The start of the URL behind its scheme, and where the path is searched from. -/
def skipScheme (data : Bytes) (urlStartIndex : ℕ) : ℕ × ℕ :=
  if strncasecmp (ascii "http://") (data.drop urlStartIndex) then
    (urlStartIndex + 7, urlStartIndex + 7)
  else if strncasecmp (ascii "https://") (data.drop urlStartIndex) then
    -- The path is searched from the second slash of the scheme on.
    (urlStartIndex + 8, urlStartIndex + 7)
  else (urlStartIndex, urlStartIndex)

/-- The part of `OnHttpChallenge` for the methods other than `CONNECT`. -/
def onHttpNormalChallenge (s : ProxyAccessService σ) (c : ClientConnection) (data : Bytes)
    (lineLength : ℕ) : Except Fault (ProxyAccessService σ × ClientConnection × Option ℕ) :=
  let lineView := data.take lineLength
  match find 32 lineView with
  | none => .ok (s, c, none)
  | some i =>
    -- The method is appended before the rest of the line is looked at.
    let content := c.http.content ++ lineView.take (i + 1)
    let invalid := { c with http := { c.http with content := content } }
    match find 32 (lineView.drop (i + 1)) with
    | none => .ok (s, invalid, none)
    | some _ =>
      let (urlStart, urlStartIndex) := skipScheme data (i + 1)
      match find 47 (lineView.drop urlStartIndex) with
      | none => .ok (s, invalid, none)
      | some j =>
        let pathStartIndex := urlStartIndex + j
        match readAuthority 47 (pathStartIndex + 1 - urlStart) [] (data.drop urlStart) with
        | .error x => .error x
        | .ok target => .ok (s, { c with
          http := { c.http with
            targetHost := (target.map Prod.fst).getD []
            targetPort := (target.map Prod.snd).getD 0
            content := content ++ (data.take (lineLength + 2)).drop pathStartIndex }
          type := .httpNormal
          dataProcessor := .onHttpNormalHeaderProcessor }, some (lineLength + 2))

/-- `OnHttpChallenge`. -/
def onHttpChallenge (s : ProxyAccessService σ) (c : ClientConnection) (data : Bytes) :
    Except Fault (ProxyAccessService σ × ClientConnection × Option ℕ) :=
  match findCrlf data with
  | none => .ok (s, c, some 0)
  | some lineLength =>
    if lineLength = 0 then .ok (s, c, none)
    else if strncasecmp (ascii "CONNECT ") data then
      match readAuthority 32 (lineLength - 8) [] (data.drop 8) with
      | .error x => .error x
      | .ok none => .ok (s, c, none)
      | .ok (some (host, port)) =>
        if host = [] then .ok (s, c, none)
        else .ok (s, { c with
          http := { c.http with targetHost := host, targetPort := port }
          type := .httpRaw
          dataProcessor := .onHttpRawHeaderProcessor }, some (lineLength + 2))
    else onHttpNormalChallenge s c data lineLength

/-! ## Credentials -/

/-- `Base64Decode` on the `size` bytes from the beginning of `s`. -/
def base64DecodeAt (s : Bytes) (size : ℕ) : Except Fault Bytes :=
  if s.length < size then .error .readOutOfRange else .ok (P.base64Decode (s.take size))

/-- The key made of a decoded credential: the first colon becomes the separator. There is
    no key if the credential begins with it. -/
def authKeyOf (authKey : Bytes) : Except Fault (Option Bytes) :=
  match find 58 authKey with
  -- Without a colon `AuthKey[npos]` is written.
  | none => .error .indexOutOfRange
  | some passStart =>
    if passStart = 0 then .ok none else .ok (some (authKey.set passStart 0))

/-! ## The header of a CONNECT request -/

/-- How the loop of `OnHttpRawHeaderProcessor` is left. -/
inductive RawHeaderExit
  /-- The next line is not complete. -/
  | wait (consumedSize : ℕ)
  | invalid
  /-- The credential has no account: 404. -/
  | notFound
  /-- The header ends without a credential: 407. -/
  | unauthorized
  | authenticate (authKey : Bytes) (consumedSize : ℕ)
  deriving DecidableEq

/-- The loop of `OnHttpRawHeaderProcessor`, for a number of turns. -/
def rawHeaderLoop : ℕ → (headerView authKey : Bytes) → (consumedSize : ℕ) →
    Except Fault RawHeaderExit
  | 0, _, _, _ => .error .noReturn
  | n + 1, headerView, authKey, consumedSize => match findCrlf headerView with
    | none => .ok (.wait consumedSize)
    | some lineEndIndex =>
      if lineEndIndex = 0 then
        if authKey = [] then .ok .unauthorized else .ok (.authenticate authKey (consumedSize + 2))
      else
        let lineLength := lineEndIndex + 2
        if 21 < lineEndIndex ∧ strncasecmp (ascii "Proxy-Authorization: ") headerView then
          let authStart := headerView.drop 21
          let authLength := lineEndIndex - 21
          if authLength < 6 ∧ !strncasecmp (ascii "Basic ") authStart then .ok .invalid
          else match base64DecodeAt P (authStart.drop 6) (sub64 authLength 6) with
            | .error x => .error x
            | .ok decoded => match authKeyOf decoded with
              | .error x => .error x
              | .ok none => .ok .notFound
              | .ok (some authKey) =>
                rawHeaderLoop n (headerView.drop lineLength) authKey (consumedSize + lineLength)
        else rawHeaderLoop n (headerView.drop lineLength) authKey (consumedSize + lineLength)

/-- `OnHttpRawHeaderProcessor`. -/
def onHttpRawHeaderProcessor (s : ProxyAccessService σ) (c : ClientConnection) (data : Bytes) :
    Except Fault (ProxyAccessService σ × ClientConnection × Option ℕ) :=
  match rawHeaderLoop P (data.length + 1) data [] 0 with
  | .error x => .error x
  | .ok (.wait consumedSize) => .ok (s, c, some consumedSize)
  | .ok .invalid => .ok (s, c, none)
  -- The processor stays: the bytes, and the 404, come again.
  | .ok .notFound =>
    let (s, c) := post P s c .reply http404
    .ok (s, c, some 0)
  | .ok .unauthorized =>
    let (s, c) := post P s { c with dataProcessor := .killConnectionOnData } .reply http407
    .ok (s, c, some 0)
  | .ok (.authenticate authKey consumedSize) =>
    let c := { c with dataProcessor := .killConnectionOnData }
    match requestAuthentication S s c authKey with
    | .error x => .error x
    | .ok (s, none) =>
      let (s, c) := post P s (c.setFuture .auth none) .reply http500
      .ok (s, c, some 0)
    | .ok (s, some f) => .ok (s, c.setFuture .auth (some f), some consumedSize)

/-! ## The header of another request -/

/-- What becomes of a line of the header. -/
inductive HeaderLine
  | next (http : HttpData) (authKey : Bytes)
  | refused (reply : Bytes)

/-- The line in `tempHeaderLine`, whose last piece had `lineEndIndex` bytes. -/
def processHeaderLine (http : HttpData) (authKey : Bytes) (lineEndIndex : ℕ) :
    Except Fault HeaderLine :=
  let lineRef := http.tempHeaderLine
  let keep (http : HttpData) : HttpData := { http with content := http.content ++ lineRef ++ [13, 10] }
  -- A line that is dropped has at least one byte behind the blank.
  if 18 < lineRef.length ∧ strncasecmp (ascii "Proxy-Connection: ") lineRef then
    .ok (.next http authKey)
  else if 12 < lineRef.length ∧ strncasecmp (ascii "Connection: ") lineRef then
    .ok (.next { http with content := http.content ++ ascii "Connection: close\r\n" } authKey)
  else if 21 < lineRef.length ∧ strncasecmp (ascii "Proxy-Authorization: ") lineRef then
    let authStart := lineRef.drop 21
    -- `LineEndIndex` counts the bytes of the last piece only, not those of the line.
    let authLength := sub64 lineEndIndex 21
    if authLength < 6 ∧ !strncasecmp (ascii "Basic ") authStart then .ok (.refused http407)
    else match base64DecodeAt P (authStart.drop 6) (sub64 authLength 6) with
      | .error x => .error x
      | .ok decoded => match authKeyOf decoded with
        | .error x => .error x
        | .ok none => .ok (.refused http404)
        | .ok (some authKey) => .ok (.next http authKey)
  else if 16 < lineRef.length ∧ strncasecmp (ascii "Content-Length: ") lineRef then
    -- The string ends with a NUL.
    match atoll64 (lineRef.drop 16 ++ [0]) with
    | .error x => .error x
    | .ok n => .ok (.next (keep { http with contentLengthLeft := n }) authKey)
  else .ok (.next (keep http) authKey)

/-- How the loop of `OnHttpNormalHeaderProcessor` is left. -/
inductive NormalHeaderExit
  /-- All bytes are consumed, the last ones in `tempHeaderLine`. -/
  | wait (http : HttpData)
  | refused (http : HttpData) (reply : Bytes)
  /-- The header is complete. -/
  | finished (http : HttpData) (authKey : Bytes) (consumedSize : ℕ)

/-- The loop of `OnHttpNormalHeaderProcessor`, for a number of turns. -/
def normalHeaderLoop : ℕ → (dataView : Bytes) → HttpData → (authKey : Bytes) →
    (consumedSize : ℕ) → Except Fault NormalHeaderExit
  | 0, _, _, _, _ => .error .noReturn
  | n + 1, dataView, http, authKey, consumedSize => match findCrlf dataView with
    | none => .ok (.wait { http with tempHeaderLine := http.tempHeaderLine ++ dataView })
    | some lineEndIndex =>
      if lineEndIndex = 0 ∧ http.tempHeaderLine = [] then
        .ok (.finished http authKey (consumedSize + 2))
      else
        let http := { http with
          tempHeaderLine := http.tempHeaderLine ++ dataView.take lineEndIndex }
        match processHeaderLine P http authKey lineEndIndex with
        | .error x => .error x
        | .ok (.refused reply) => .ok (.refused http reply)
        | .ok (.next http authKey) =>
          normalHeaderLoop n (dataView.drop (lineEndIndex + 2)) { http with tempHeaderLine := [] }
            authKey (consumedSize + (lineEndIndex + 2))

/-- `OnHttpNormalHeaderProcessor`. -/
def onHttpNormalHeaderProcessor (s : ProxyAccessService σ) (c : ClientConnection) (data : Bytes) :
    Except Fault (ProxyAccessService σ × ClientConnection × Option ℕ) :=
  match normalHeaderLoop P (data.length + 1) data c.http [] 0 with
  | .error x => .error x
  | .ok (.wait http) => .ok (s, { c with http := http }, some data.length)
  -- `TempHeaderLine` keeps the refused line: the bytes come again, behind it.
  | .ok (.refused http reply) =>
    let (s, c) := post P s { c with http := http } .reply reply
    .ok (s, c, some 0)
  | .ok (.finished http authKey consumedSize) =>
    let c := { c with http := { http with content := http.content ++ [13, 10] } }
    match requestAuthentication S s c authKey with
    | .error x => .error x
    | .ok (s, none) =>
      let (s, c) := post P s (c.setFuture .auth none) .reply http500
      .ok (s, c, some 0)
    | .ok (s, some f) =>
      .ok (s, { c.setFuture .auth (some f) with dataProcessor := .onHttpBody }, some consumedSize)

/-! ## The body -/

/-- `OnHttpBody`: the body is kept until the relay connection has taken the header. -/
def onHttpBody (s : ProxyAccessService σ) (c : ClientConnection) (data : Bytes) :
    ProxyAccessService σ × ClientConnection × Option ℕ :=
  -- A body that comes before the client is authenticated keeps it alive, too.
  match keepAlive s c with
  | none => (s, c, some 0)
  | some (s, c) =>
    if c.http.content ≠ [] then
      (s, { c with http := { c.http with content := c.http.content ++ data } }, some data.length)
    else (relayPostData S s c data, c, some data.length)

end ProxyPlatform.ProxyAccessService
