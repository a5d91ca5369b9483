import AegisGate.Http.Response

/-!
# The request parser

`HttpRequestParser::Parse` of `src/http/HttpRequestParser.cpp`. It takes one request from the
front of the input or nothing at all: an incomplete request is parsed again from its first byte
when more has arrived. A result other than `kNeedMoreData` stays until `Reset`.

The functions below return early as the source does, by an `Except` whose error is the
`result_` that `Parse` returns with.
-/

namespace AegisGate.Http

def kMaxRequestLineBytes : ℕ := 8 * 1024
def kMaxHeaderBytes : ℕ := 32 * 1024
def kMaxRequestBodyBytes : ℕ := 1024 * 1024

/-- `std::string_view::find`. -/
def find (pattern : Bytes) : Bytes → Option ℕ
  | [] => if pattern.isEmpty then some 0 else none
  | b :: bytes =>
    if pattern.isPrefixOf (b :: bytes) then some 0 else (find pattern bytes).map (· + 1)

/-- `find` from a position on. -/
def findFrom (pattern : Bytes) (start : ℕ) (bytes : Bytes) : Option ℕ :=
  (find pattern (bytes.drop start)).map (· + start)

/-- Optional white space. -/
def isOws (c : UInt8) : Bool := c == 32 || c == 9

/-- `TrimOws`. -/
def trimOws (value : Bytes) : Bytes :=
  ((value.dropWhile isOws).reverse.dropWhile isOws).reverse

/-- `std::isalnum` on one byte. -/
def isalnum (c : UInt8) : Bool := (48 ≤ c && c ≤ 57) || (65 ≤ c && c ≤ 90) || (97 ≤ c && c ≤ 122)

/-- The marks that the `switch` of `IsToken` lists, from `!` to `~`. -/
def tokenMarks : Bytes := [33, 35, 36, 37, 38, 39, 42, 43, 45, 46, 94, 95, 96, 124, 126]

/-- `IsToken`. -/
def isToken (value : Bytes) : Bool :=
  !value.isEmpty && value.all fun c => isalnum c || tokenMarks.contains c

/-- `ContainsChunked`. -/
def containsChunked (value : Bytes) : Bool :=
  (listTokens isOws value).any fun coding =>
    lowerAscii coding == ascii "chunked"

/-- The loop of `HasBareLineFeed` after a byte. -/
def bareLineFeedAfter (previous : UInt8) : Bytes → Bool
  | [] => false
  | b :: bytes => (b == 10 && previous != 13) || bareLineFeedAfter b bytes

/-- `HasBareLineFeed`; a line feed at the very start has no carriage return before it. -/
def hasBareLineFeed (bytes : Bytes) : Bool := bareLineFeedAfter 0 bytes

/-- `IsValidFieldValue`. -/
def isValidFieldValue (value : Bytes) : Bool := value.all fun c => c == 9 || (32 ≤ c && c != 127)

/-- One turn of `ParseContentLength`, with the test that keeps `parsed * 10 + digit` below
`2 ^ 64`. -/
def takeDigit (parsed : ℕ) (c : UInt8) : Option ℕ :=
  if c < 48 || 57 < c then none
  else if (2 ^ 64 - 1 - (c.toNat - 48)) / 10 < parsed then none
  else some (parsed * 10 + (c.toNat - 48))

/-- `ParseContentLength`. -/
def parseContentLength (value : Bytes) : Option ℕ :=
  if value.isEmpty then none else value.foldlM takeDigit 0

/-- `HttpRequest`; the names of the headers are in lower case. -/
structure HttpRequest where
  method : Bytes := []
  target : Bytes := []
  version : Bytes := []
  body : Bytes := []
  headers : AList (fun _ : Bytes => Bytes) := ∅
  deriving DecidableEq

/-- `HttpRequest::Header`. -/
def HttpRequest.header (r : HttpRequest) (name : Bytes) : Bytes :=
  (r.headers.lookup (lowerAscii name)).getD []

/-- `ParseResult`. -/
inductive ParseResult
  | needMoreData
  | complete
  | error
  | unsupported
  deriving DecidableEq, Repr

/-- The method and the target of a request line. -/
def parseRequestLine (line : Bytes) : Except ParseResult (Bytes × Bytes) :=
  match find [32] line with
  | none => .error .error
  | some first =>
    match findFrom [32] (first + 1) line with
    | none => .error .error
    | some second =>
      if (findFrom [32] (second + 1) line).isSome || first == 0 || second == first + 1
          || line.drop (second + 1) != ascii "HTTP/1.1" || !isToken (line.take first) then
        .error .error
      else .ok (line.take first, (line.drop (first + 1)).take (second - first - 1))

/-- The fields so far; `contentLength` is `none` while `has_content_length` is false. -/
structure Fields where
  headers : AList (fun _ : Bytes => Bytes) := ∅
  contentLength : Option ℕ := none

/-- The body length after a `Content-Length` field. -/
def Fields.takeLength (f : Fields) (value : Bytes) : Except ParseResult Fields :=
  match f.contentLength, parseContentLength value with
  | none, some length =>
    if kMaxRequestBodyBytes < length then .error .error
    else .ok { f with contentLength := some length }
  | _, _ => .error .error

/-- A field is stored: the values of `connection` are joined, of any other name the last stays. -/
def Fields.store (f : Fields) (name value : Bytes) : Fields :=
  match f.headers.lookup name with
  | some existing =>
    if name = ascii "connection" then
      { f with headers := f.headers.insert name (existing ++ ascii "," ++ value) }
    else { f with headers := f.headers.insert name value }
  | none => { f with headers := f.headers.insert name value }

/-- One turn of the loop over the field lines. -/
def parseField (line : Bytes) (f : Fields) : Except ParseResult Fields :=
  match find [58] line with
  | none => .error .error
  | some colon =>
    if colon == 0 || !isToken (line.take colon) then .error .error
    else if !isValidFieldValue (line.drop (colon + 1)) then .error .error
    else do
      let name := lowerAscii (line.take colon)
      let value := trimOws (line.drop (colon + 1))
      let f ← if name = ascii "content-length" then f.takeLength value else .ok f
      if name = ascii "transfer-encoding" ∧ containsChunked value then .error .unsupported
      else .ok (f.store name value)

/-- The loop over the field lines, with the position after the blank line. A turn that does not
end the loop consumes a line, so as many turns as there are bytes are enough. -/
def parseFields (bytes : Bytes) (requestLineEnd : ℕ) :
    ℕ → ℕ → Fields → Except ParseResult (Fields × ℕ)
  | 0, _, _ => .error .needMoreData
  | turns + 1, cursor, f =>
    if kMaxHeaderBytes + requestLineEnd + 2 < cursor then .error .error
    else
      match findFrom crlf cursor bytes with
      | none =>
        if kMaxHeaderBytes + requestLineEnd + 2 < bytes.length then .error .error
        else .error .needMoreData
      | some lineEnd =>
        if kMaxHeaderBytes < lineEnd + 2 - (requestLineEnd + 2) then .error .error
        else if lineEnd = cursor then .ok (f, cursor + 2)
        else do
          let f ← parseField ((bytes.drop cursor).take (lineEnd - cursor)) f
          parseFields bytes requestLineEnd turns (lineEnd + 2) f

/-- `Parse` on the readable bytes: the request and how many bytes it takes. -/
def parseBytes (bytes : Bytes) : Except ParseResult (HttpRequest × ℕ) := do
  let protocolBytes := match find (crlf ++ crlf) bytes with
    | none => bytes
    | some headersEnd => bytes.take (headersEnd + 4)
  if hasBareLineFeed protocolBytes then .error .error
  else
    match find crlf bytes with
    | none => if kMaxRequestLineBytes < bytes.length then .error .error else .error .needMoreData
    | some requestLineEnd =>
      if kMaxRequestLineBytes < requestLineEnd then .error .error
      else do
        let (method, target) ← parseRequestLine (bytes.take requestLineEnd)
        let (fields, cursor) ← parseFields bytes requestLineEnd (bytes.length + 1)
          (requestLineEnd + 2) {}
        let contentLength := fields.contentLength.getD 0
        -- The head is not consumed before the body it declares is complete.
        if bytes.length - cursor < contentLength then .error .needMoreData
        else
          let request : HttpRequest :=
            { method, target, version := ascii "HTTP/1.1", headers := fields.headers
              body := (bytes.drop cursor).take contentLength }
          .ok (request, cursor + contentLength)

/-- `HttpRequestParser`. -/
structure HttpRequestParser where
  result : ParseResult := .needMoreData
  request : HttpRequest := {}
  deriving DecidableEq

namespace HttpRequestParser

/-- `Parse`, with the bytes it leaves in the buffer. -/
def parse (p : HttpRequestParser) (input : Bytes) : HttpRequestParser × Bytes :=
  if p.result ≠ .needMoreData then (p, input)
  else
    match parseBytes input with
    | .error result => ({ p with result }, input)
    | .ok (request, length) => ({ result := .complete, request }, input.drop length)

/-- `Reset`. -/
def reset (_ : HttpRequestParser) : HttpRequestParser := {}

end HttpRequestParser

/-! ## Positions -/

lemma find_add_length_le {pattern bytes : Bytes} {i : ℕ} (h : find pattern bytes = some i) :
    i + pattern.length ≤ bytes.length := by
  induction bytes generalizing i with
  | nil =>
    rw [find] at h
    obtain ⟨hempty, ⟨⟩⟩ := Option.ite_none_right_eq_some.mp h
    rw [List.isEmpty_iff.mp hempty]
    exact Nat.le_refl 0
  | cons b bytes ih =>
    rw [find] at h
    split at h
    · next hpre =>
      cases h
      rw [Nat.zero_add]
      exact List.IsPrefix.length_le <| List.isPrefixOf_iff_prefix.mp hpre
    · obtain ⟨j, hj, rfl⟩ := Option.map_eq_some_iff.mp h
      have := ih hj
      rw [List.length_cons]
      omega

lemma findFrom_bounds {pattern bytes : Bytes} {start i : ℕ}
    (h : findFrom pattern start bytes = some i) (hpos : 0 < pattern.length) :
    start ≤ i ∧ i + pattern.length ≤ bytes.length := by
  obtain ⟨j, hj, rfl⟩ := Option.map_eq_some_iff.mp h
  have hle := find_add_length_le hj
  rw [List.length_drop] at hle
  omega

end AegisGate.Http
