import Mathlib
import Ads.Foundation.Cutting
import Ads.SandboxEgress.Policy

/-!
# Header gates

The model of `validate_headers`, `raw_http1_headers`, `validate_trailers`, `forwarding_headers` and
`BodyLength` of `framing.py`. `validateHeaders_eq` says that validation changes nothing but the case of the names.
-/

set_option autoImplicit false
set_option relaxedAutoImplicit false

namespace Ads.SandboxEgress

open Dns Foundation.Cutting Foundation.StateExcept Python

/-- `Headers`. -/
abbrev Headers := List (Bytes × Bytes)

/-- A byte of a token. -/
def isTokenByte (byte : Octet) : Bool :=
  (48 ≤ byte.val && byte.val ≤ 57) || (65 ≤ byte.val && byte.val ≤ 90) ||
    (97 ≤ byte.val && byte.val ≤ 122) || byte ∈ ascii "!#$%&'*+-.^_`|~"

/-- `_TOKEN.fullmatch`. -/
def isToken (bytes : Bytes) : Bool :=
  bytes ≠ [] ∧ bytes.all isTokenByte

/-- `_HOP_BY_HOP`. -/
def hopByHop : List Bytes :=
  ["connection", "keep-alive", "proxy-connection", "transfer-encoding", "upgrade"].map ascii

/-- The pseudo-headers a message may have. -/
def pseudoHeaders : List Bytes :=
  [":method", ":scheme", ":authority", ":path", ":status", ":protocol"].map ascii

/-- The name is that of a pseudo-header. -/
def isPseudo (name : Bytes) : Bool :=
  name.head? == some 58

/-- The loop state of `validate_headers`. -/
structure HeaderGate where
  /-- The headers taken in. -/
  result : Headers := []
  /-- The octets counted. -/
  total : ℕ := 0
  /-- A header that is no pseudo-header was seen. -/
  regularSeen : Bool := false
  /-- The pseudo-headers seen. -/
  pseudo : List Bytes := []

/-- One round of the loop of `validate_headers`. -/
def HeaderGate.take (h2 : Bool) (gate : HeaderGate) (header : Bytes × Bytes) :
    Except Raised HeaderGate :=
  let total := gate.total + header.1.length + header.2.length + 4
  if gate.result.length ≥ 128 ∨ total > 65536 ∨ header.1.length > 256 ∨ header.2.length > 16384 then
    throw (.requestDenied "header_limit")
  else if header.1 = [] ∨ header.2.any fun char ↦
      (char.val < 32 && char.val != 9) || char.val == 127 then
    throw (.requestDenied "invalid_header")
  else if h2 ∧ header.1 ≠ lowerBytes header.1 then throw (.requestDenied "uppercase_h2_header")
  else
    let name := lowerBytes header.1
    if isPseudo name ∧ (¬ h2 ∨ gate.regularSeen ∨ name ∈ gate.pseudo ∨ name ∉ pseudoHeaders) then
      throw (.requestDenied "invalid_pseudo_header")
    else if ¬ isPseudo name ∧ ¬ isToken name then throw (.requestDenied "invalid_header_name")
    else if h2 ∧ (name ∈ hopByHop ∨
        name = ascii "te" ∧ lowerBytes header.2 ≠ ascii "trailers") then
      throw (.requestDenied "h2_connection_header")
    else
      return {
        result := gate.result ++ [(name, header.2)]
        total
        regularSeen := gate.regularSeen || !isPseudo name
        pseudo := if isPseudo name then gate.pseudo ++ [name] else gate.pseudo }

/-- The values of the headers with a name. -/
def valuesOf (name : String) (headers : Headers) : List Bytes :=
  (headers.filter fun header ↦ header.1 == ascii name).map Prod.snd

/-- `int` of decimal digits. -/
def decimalBytes (digits : Bytes) : ℕ :=
  digits.foldl (fun value digit ↦ value * 10 + (digit.val - 48)) 0

/-- The body length is given once and in bounds, or the body is chunked, or neither. -/
def checkFraming (headers : Headers) : Except Raised Unit :=
  let lengths := valuesOf "content-length" headers
  let transfers := valuesOf "transfer-encoding" headers
  if lengths.length > 1 ∨ lengths ≠ [] ∧ transfers ≠ [] then
    throw (.requestDenied "ambiguous_framing")
  else if lengths.any fun value ↦
      !(1 ≤ value.length && value.length ≤ 19 &&
        value.all (fun digit ↦ 48 ≤ digit.val && digit.val ≤ 57)) ||
      decimalBytes value > 2 ^ 63 - 1 then
    throw (.requestDenied "invalid_content_length")
  else if transfers ≠ [] ∧ (transfers.length ≠ 1 ∨
      lowerBytes (transfers.headD []) ≠ ascii "chunked") then
    throw (.requestDenied "unsupported_transfer_coding")
  else return ()

/-- `validate_headers`. -/
def validateHeaders (headers : Headers) (h2 : Bool := false) : Except Raised Headers := do
  let gate ← headers.foldlM (HeaderGate.take h2) {}
  checkFraming gate.result
  return gate.result

/-- `bytes.strip(b" \t")`. -/
def stripBlanks (value : Bytes) : Bytes :=
  let isBlank := fun byte : Octet ↦ byte.val == 32 || byte.val == 9
  ((value.dropWhile isBlank).reverse.dropWhile isBlank).reverse

/-- A line of a raw header block. -/
def rawHeader (line : Bytes) : Except Raised (Bytes × Bytes) := do
  let (name, colon, value) := cutAt 58 line
  failIf (colon = false ∨ isToken name = false) (.requestDenied "invalid_header_line")
  return (name, stripBlanks value)

/-- `raw_http1_headers`. -/
def rawHttp1Headers (block : Bytes) : Except Raised (Bytes × Headers) := do
  failIf (block.length > 65536 ∨ ¬ [13, 10, 13, 10] <:+ block) (.requestDenied "invalid_header_block")
  let lines := cutLines 13 10 (block.take (block.length - 4))
  let start := lines.headD []
  failIf (start = [] ∨ 10 ∈ start ∨ 13 ∈ start ∨ start.length > 16384)
    (.requestDenied "invalid_start_line")
  let headers ← lines.tail.mapM rawHeader
  return (start, ← validateHeaders headers)

/-- `_FORBIDDEN_TRAILERS`. -/
def forbiddenTrailers : List Bytes :=
  ["host", "authorization", "proxy-authorization", "content-length", "transfer-encoding",
    "connection", "te", "trailer", "upgrade", "expect", "content-encoding", "content-type",
    "content-range", "cookie", "set-cookie", "proxy-authenticate", "www-authenticate"].map ascii

/-- `validate_trailers`. -/
def validateTrailers (headers : Headers) (h2 : Bool := false) : Except Raised Headers := do
  let values ← validateHeaders headers h2
  if values.length > 32 ∨
      (values.map fun header ↦ header.1.length + header.2.length).sum > 16384 then
    throw (.requestDenied "trailer_limit")
  else if values.any fun header ↦ isPseudo header.1 || header.1 ∈ forbiddenTrailers then
    throw (.requestDenied "forbidden_trailer")
  else return values

/-- `BodyLength`. -/
structure BodyLength where
  /-- `expected`. -/
  expected : Option ℕ
  /-- `received`. -/
  received : ℕ := 0
deriving DecidableEq

/-- `BodyLength.add`: the object after it, and what it raises. -/
def BodyLength.add (body : BodyLength) (count : ℕ) : BodyLength × Except Raised Unit :=
  if body.received + count > 2 ^ 63 - 1 then (body, throw (.requestDenied "body_length_limit"))
  else
    let received := body.received + count
    ({ body with received },
      if body.expected.any (received > ·) then throw (.requestDenied "body_length_exceeded")
      else return ())

/-- `BodyLength.finish`. -/
def BodyLength.finish (body : BodyLength) : Except Raised Unit :=
  if body.expected.any (body.received ≠ ·) then throw (.requestDenied "body_truncated")
  else return ()

/-- The items of the connection headers. -/
def connectionItems (headers : Headers) : List Bytes :=
  (valuesOf "connection" headers).flatMap fun value ↦
    (value.splitOn 44).map fun item ↦ lowerBytes (stripBytes item)

/-- `forwarding_headers`. -/
def forwardingHeaders (headers : Headers) : Except Raised Headers :=
  let nominated := connectionItems headers
  if nominated.any fun item ↦ !isToken item || item ∈
      (["host", "content-length", "authorization", "proxy-authorization"].map ascii) then
    throw (.requestDenied "unsafe_connection_nomination")
  else return headers.filter fun header ↦ header.1 ∉ hopByHop ++ nominated

/-- One round takes in the header with its name in lower case. -/
theorem HeaderGate.result_take {h2 : Bool} {gate next : HeaderGate} {header : Bytes × Bytes}
    (htake : gate.take h2 header = .ok next) :
    next.result = gate.result ++ [(lowerBytes header.1, header.2)] := by
  unfold HeaderGate.take at htake
  dsimp only at htake
  split_ifs at htake <;> exact Except.ok.inj htake ▸ rfl

/-- Validation changes nothing but the case of the names. -/
theorem validateHeaders_eq {headers result : Headers} {h2 : Bool}
    (hvalid : validateHeaders headers h2 = .ok result) :
    result = headers.map fun header ↦ (lowerBytes header.1, header.2) := by
  have hfold : ∀ (items : Headers) (gate final : HeaderGate),
      items.foldlM (HeaderGate.take h2) gate = .ok final →
        final.result = gate.result ++ items.map fun header ↦ (lowerBytes header.1, header.2) := by
    intro items
    induction items with
    | nil =>
      intro gate final hrun
      obtain rfl : gate = final := Except.ok.inj hrun
      simp
    | cons item rest ih =>
      intro gate final hrun
      rw [List.foldlM_cons] at hrun
      cases hitem : gate.take h2 item with
      | error failure =>
        rw [hitem] at hrun
        cases hrun
      | ok next =>
        rw [hitem] at hrun
        rw [ih next final hrun, HeaderGate.result_take hitem]
        simp
  unfold validateHeaders at hvalid
  cases hgate : headers.foldlM (HeaderGate.take h2) {} with
  | error failure =>
    rw [hgate] at hvalid
    cases hvalid
  | ok gate =>
    rw [hgate] at hvalid
    cases hframing : checkFraming gate.result with
    | error failure =>
      simp only [Bind.bind, Except.bind, hframing] at hvalid
      cases hvalid
    | ok _ =>
      simp only [Bind.bind, Except.bind, hframing] at hvalid
      rw [← Except.ok.inj hvalid, hfold headers {} gate hgate]
      rfl

end Ads.SandboxEgress
