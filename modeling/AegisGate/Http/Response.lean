import Mathlib

/-!
# HTTP responses and their serialization

The response types of `src/http/HttpResponse.cpp`, the two `Serialize` functions and
the removal of hop-by-hop fields a proxied message goes through. Text is a list of
bytes; character classes are those of the "C" locale.
-/

namespace AegisGate.Http

/-- `std::string`. -/
abbrev Bytes := List UInt8

/-- The bytes of a text. -/
def ascii (s : String) : Bytes := s.toList.map fun c => UInt8.ofNat c.toNat

/-- `std::tolower` on one byte. -/
def tolower (c : UInt8) : UInt8 := if 65 ≤ c && c ≤ 90 then c + 32 else c

/-- `LowerAscii`. -/
def lowerAscii (value : Bytes) : Bytes := value.map tolower

/-- `EqualsIgnoreCase`. -/
def equalsIgnoreCase (left right : Bytes) : Bool := lowerAscii left == lowerAscii right

/-- The order-preserving field list of a message. -/
abbrev Headers := List (Bytes × Bytes)

/-- `ResponseBodyMode`. -/
inductive ResponseBodyMode
  | normal
  /-- `Content-Length` is declared and no body is sent. -/
  | suppressedWithKnownLength
  /-- Neither `Content-Length` nor a body is sent. -/
  | suppressedWithUnknownLength
  deriving DecidableEq, Repr

/-- `HttpResponse`. -/
structure HttpResponse where
  status : ℕ := 200
  reason : Bytes := ascii "OK"
  headers : Headers := []
  body : Bytes := []
  bodyMode : ResponseBodyMode := .normal
  contentLength : Option ℕ := none
  deriving DecidableEq

/-- A validated response header with its framing and no body bytes. -/
structure HttpResponseHead where
  status : ℕ := 200
  reason : Bytes := ascii "OK"
  headers : Headers := []
  bodyMode : ResponseBodyMode := .normal
  contentLength : Option ℕ := none
  deriving DecidableEq

/-- A carriage return or a line feed. -/
def hasLineBreak (value : Bytes) : Bool := value.any fun c => c == 13 || c == 10

def crlf : Bytes := [13, 10]

/-- A status without a body. -/
def bodylessStatus (status : ℕ) : Bool := status == 204 || status == 304

/-- One field of the header loop; `none` when the field must not be serialized. -/
def serializeField (field : Bytes × Bytes) : Option Bytes :=
  if field.1.isEmpty || hasLineBreak field.1 || hasLineBreak field.2 then none
  else if lowerAscii field.1 == ascii "content-length"
      || lowerAscii field.1 == ascii "transfer-encoding" then none
  else some (field.1 ++ ascii ": " ++ field.2 ++ crlf)

/-- The status line, the fields, the framing line if there is one, and the blank line:
the part the two `Serialize` functions share. -/
def serializeHeader (status : ℕ) (reason : Bytes) (headers : Headers) (length : Option ℕ) :
    Option Bytes := do
  let fields ← headers.mapM serializeField
  let framing := match length with
    | some n => ascii "Content-Length: " ++ ascii (toString n) ++ crlf
    | none => []
  return ascii "HTTP/1.1 " ++ ascii (toString status) ++ ascii " " ++ reason ++ crlf
    ++ fields.flatten ++ framing ++ crlf

/-- The status line can be written. -/
def validStatusLine (status : ℕ) (reason : Bytes) : Bool :=
  200 ≤ status && status ≤ 599 && !hasLineBreak reason

/-- The framing checks of `HttpResponse::Serialize`. -/
def HttpResponse.framingOk (r : HttpResponse) : Bool :=
  if bodylessStatus r.status then
    r.body.isEmpty && r.bodyMode == .normal && r.contentLength.isNone
  else match r.bodyMode with
    | .normal => r.contentLength.isNone
    | .suppressedWithKnownLength => r.contentLength.isSome && r.body.isEmpty
    | .suppressedWithUnknownLength => r.contentLength.isNone && r.body.isEmpty

/-- `HttpResponse::Serialize`; `none` is `std::invalid_argument`. -/
def HttpResponse.serialize (r : HttpResponse) : Option Bytes :=
  if !validStatusLine r.status r.reason || !r.framingOk then none
  else
    let length :=
      if bodylessStatus r.status || r.bodyMode == .suppressedWithUnknownLength then none
      else if r.bodyMode == .suppressedWithKnownLength then r.contentLength
      else some r.body.length
    (serializeHeader r.status r.reason r.headers length).map fun header =>
      if r.bodyMode == .normal then header ++ r.body else header

/-- The framing checks of `HttpResponseHead::Serialize`. -/
def HttpResponseHead.framingOk (h : HttpResponseHead) : Bool :=
  if bodylessStatus h.status then h.bodyMode == .normal && h.contentLength.isNone
  else match h.bodyMode with
    | .normal => h.contentLength.isSome
    | .suppressedWithKnownLength => h.contentLength.isSome
    | .suppressedWithUnknownLength => h.contentLength.isNone

/-- `HttpResponseHead::Serialize`; `none` is `std::invalid_argument`. -/
def HttpResponseHead.serialize (h : HttpResponseHead) : Option Bytes :=
  if !validStatusLine h.status h.reason || !h.framingOk then none
  else
    serializeHeader h.status h.reason h.headers <|
      if bodylessStatus h.status || h.bodyMode == .suppressedWithUnknownLength then none
      else h.contentLength

/-! ## Hop-by-hop fields -/

/-- The tokens of a comma list without the bytes around them that `blank` selects. -/
def listTokens (blank : UInt8 → Bool) (value : Bytes) : List Bytes :=
  (value.splitOn 44).map fun token =>
    ((token.dropWhile blank).reverse.dropWhile blank).reverse

/-- `AddConnectionTokens`: the lower-cased nonempty tokens, trimmed of blanks and tabs. -/
def connectionTokens (value : Bytes) : List Bytes :=
  (listTokens (fun c => c == 32 || c == 9) value).filterMap fun token =>
    if token.isEmpty then none else some (lowerAscii token)

/-- The fields that never travel beyond one hop. -/
def hopByHopFields : List Bytes :=
  ["connection", "content-length", "keep-alive", "proxy-authenticate", "proxy-authorization",
    "proxy-connection", "te", "trailer", "transfer-encoding", "upgrade"].map ascii

/-- `HopByHopNames`: those fields and the ones a `Connection` field nominates. -/
def hopByHopNames (headers : Headers) : List Bytes :=
  hopByHopFields ++ headers.flatMap fun field =>
    if equalsIgnoreCase field.1 (ascii "connection") then connectionTokens field.2 else []

/-- `StripHopByHopHeaders`. -/
def stripHopByHopHeaders (headers : Headers) : Headers :=
  let names := hopByHopNames headers
  headers.filter fun field => !names.contains (lowerAscii field.1)

/-- `std::isspace` on one byte. -/
def isspace (c : UInt8) : Bool := c == 32 || (9 ≤ c && c ≤ 13)

/-- `ContainsConnectionClose`, which trims with `std::isspace`. -/
def containsConnectionClose (value : Bytes) : Bool :=
  (listTokens isspace value).any fun token => equalsIgnoreCase token (ascii "close")

/-- `ResponseWantsClose` and `HeadWantsClose`. -/
def headersWantClose (headers : Headers) : Bool :=
  headers.any fun field =>
    equalsIgnoreCase field.1 (ascii "connection") && containsConnectionClose field.2

end AegisGate.Http
