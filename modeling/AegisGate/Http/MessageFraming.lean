import AegisGate.Http.FieldLines

/-!
# Where a request ends

The length of a request follows from its head: with a `Transfer-Encoding` field the message is
chunked, or invalid when `chunked` is not the last coding; without one the body is as long as the
one valid `Content-Length` says, or empty.

The parser does not know chunked bodies and rejects a `Transfer-Encoding` that lists `chunked`. It
accepts every other coding as if the field were not there: the message then ends where its
`Content-Length` says, or right after the head, and what follows is parsed as the next request.
-/

namespace AegisGate.Http

/-! ## Messages -/

/-- How the end of a body is told. -/
inductive Framing
  | length (n : ℕ)
  | chunked
  | invalid
  deriving DecidableEq, Repr

/-- The codings a `Transfer-Encoding` value lists. -/
def codings (value : Bytes) : List Bytes :=
  ((listTokens isOws value).filter fun coding => !coding.isEmpty).map lowerAscii

/-- The framing that the fields of a head declare. -/
def MessageHead.framing (head : MessageHead) : Framing :=
  if head.values (ascii "transfer-encoding") ≠ [] then
    if ((head.values (ascii "transfer-encoding")).flatMap codings).getLast? =
        some (ascii "chunked") then .chunked
    else .invalid
  else
    match head.values (ascii "content-length") with
    | [] => .length 0
    | [value] => match decimal value with
      | some n => .length n
      | none => .invalid
    | _ => .invalid

/-- The message at the front of a stream, when its length is declared. -/
structure FirstMessage (stream : Bytes) where
  head : MessageHead
  body : Bytes
  rest : Bytes
  stream_eq : stream = head.bytes ++ (body ++ rest)
  framing : head.framing = .length body.length

/-- A stream has one first message at most. -/
instance (stream : Bytes) : Subsingleton (FirstMessage stream) where
  allEq m m' := by
    obtain ⟨head, body, rest, hstream, hframing⟩ := m
    obtain ⟨head', body', rest', hstream', hframing'⟩ := m'
    obtain ⟨rfl, hrest⟩ := MessageHead.bytes_append_inj (hstream.symm.trans hstream')
    rw [hframing] at hframing'
    injection hframing' with hlength
    obtain ⟨rfl, rfl⟩ := List.append_inj hrest hlength
    rfl

/-! ## Accepted requests -/

/-- The condition: a `Transfer-Encoding` line, if there is one, lists `chunked`. -/
def CodingsChunked (stream : Bytes) : Prop :=
  ∀ (head : MessageHead) (rest : Bytes), stream = head.bytes ++ rest →
    ∀ value ∈ head.values (ascii "transfer-encoding"), containsChunked value

/-- Without a `Transfer-Encoding` the parser finds the declared length. -/
lemma framing_of_parseLines {head : MessageHead} {fields : Fields}
    (h : foldLines parseField head.fieldLines {} = .ok fields)
    (hcodings : head.values (ascii "transfer-encoding") = []) :
    head.framing = .length (fields.contentLength.getD 0) := by
  have hlower : lowerAscii (ascii "content-length") = ascii "content-length" := by decide
  rw [MessageHead.framing, if_neg (not_not_intro hcodings), MessageHead.values, hlower]
  rcases contentLength_parseLines h with ⟨hvalues, hlength⟩ | ⟨value, hvalues, _, hparsed, hsome⟩
  · rw [hvalues, hlength]
    rfl
  obtain ⟨length, hlength⟩ := Option.ne_none_iff_exists'.mp hsome
  rw [hlength] at hparsed
  rw [hvalues, hlength]
  dsimp only
  rw [((parseContentLength_eq_some value length).mp hparsed.symm).1]
  rfl

/-- A line that lists `chunked` is not accepted, so under the condition there is none. -/
lemma values_transferEncoding_eq_nil {head : MessageHead} {fields : Fields}
    (h : foldLines parseField head.fieldLines {} = .ok fields)
    (hchunked : ∀ value ∈ head.values (ascii "transfer-encoding"), containsChunked value) :
    head.values (ascii "transfer-encoding") = [] := by
  rw [List.eq_nil_iff_forall_not_mem]
  intro value hvalue
  have hlower : lowerAscii (ascii "transfer-encoding") = ascii "transfer-encoding" := by decide
  have hunchunked := containsChunked_parseLines h value
      (by rwa [MessageHead.values, hlower] at hvalue)
  rw [hchunked value hvalue] at hunchunked
  cases hunchunked

lemma HttpRequestParser.parse_complete {p : HttpRequestParser} {input : Bytes}
    (hopen : p.result = .needMoreData) (h : (p.parse input).1.result = .complete) :
    ∃ length, parseBytes input = .ok ((p.parse input).1.request, length) ∧
      (p.parse input).2 = input.drop length := by
  rw [parse, if_neg (not_not_intro hopen)] at h ⊢
  cases hparse : parseBytes input with
  | error result =>
    rw [hparse] at h
    dsimp only at h
    rw [h] at hparse
    exact absurd hparse (parseBytes_ne_complete input)
  | ok parsed => exact ⟨parsed.2, rfl, rfl⟩

lemma HttpRequestParser.parse_of_ok {input : Bytes} {request : HttpRequest} {length : ℕ}
    (h : parseBytes input = .ok (request, length)) :
    parse {} input = ({ result := .complete, request }, input.drop length) := by
  rw [parse, if_neg (by simp), h]

/-- A message of a declared length has no `Transfer-Encoding` line. -/
lemma FirstMessage.codingsChunked {stream : Bytes} (message : FirstMessage stream) :
    CodingsChunked stream := by
  intro head rest hstream value hvalue
  obtain ⟨rfl, -⟩ := MessageHead.bytes_append_inj (message.stream_eq.symm.trans hstream)
  have hframing := message.framing
  rw [MessageHead.framing, if_pos (List.ne_nil_of_mem hvalue)] at hframing
  split at hframing <;> cases hframing

/-- **When the parser takes the first message.** Whenever it completes: the stream starts with a
message of a declared length, its body is the request's and what is left is what follows it, exactly
when the stream meets the condition. -/
theorem firstMessage_iff_codingsChunked {p : HttpRequestParser} {input : Bytes}
    (hopen : p.result = .needMoreData) (hcomplete : (p.parse input).1.result = .complete) :
    (∃ message : FirstMessage input, (p.parse input).1.request.body = message.body ∧
      (p.parse input).2 = message.rest) ↔ CodingsChunked input := by
  refine ⟨fun ⟨message, _⟩ => message.codingsChunked, fun hcodings => ?_⟩
  obtain ⟨length, hparse, hleft⟩ := HttpRequestParser.parse_complete hopen hcomplete
  obtain ⟨head, rest, fields, hinput, _, hfields, hbody, hrequest, hlength⟩ :=
    parseBytes_ok hparse
  have hnone := values_transferEncoding_eq_nil hfields (hcodings head rest hinput)
  have hdrop : input.drop head.bytes.length = rest := by rw [hinput, List.drop_left]
  let message : FirstMessage input :=
    { head
      body := rest.take (fields.contentLength.getD 0)
      rest := rest.drop (fields.contentLength.getD 0)
      stream_eq := by rw [List.take_append_drop, hinput]
      framing := by
        rw [framing_of_parseLines hfields hnone, List.length_take, Nat.min_eq_left hbody] }
  refine ⟨message, ?_, ?_⟩
  · rw [hrequest]
  · rw [hleft, hlength, ← List.drop_drop, hdrop]

/-- A request with a body, and the start of the next one. -/
def postHead : MessageHead where
  startLine := ascii "POST / HTTP/1.1"
  fieldLines := [ascii "Host: a", ascii "content-LENGTH:  3"]
  isLine := by decide +kernel
  nonempty := by decide +kernel

def postInput : Bytes := postHead.bytes ++ ascii "\r\n\r\nGET"

theorem exists_firstMessage_postInput : ∃ message : FirstMessage postInput,
      (HttpRequestParser.parse {} postInput).1.request.body = message.body ∧
        (HttpRequestParser.parse {} postInput).2 = message.rest := by
  refine (firstMessage_iff_codingsChunked rfl (by decide +kernel)).mpr ?_
  intro head rest hinput
  obtain ⟨rfl, _⟩ := MessageHead.bytes_append_inj hinput
  decide +kernel

/-! ## Other codings -/

/-- A request in a coding that the gateway does not support. -/
def gzipHead : MessageHead where
  startLine := ascii "POST / HTTP/1.1"
  fieldLines := [ascii "Host: a", ascii "Transfer-Encoding: gzip"]
  isLine := by decide +kernel
  nonempty := by decide +kernel

def gzipBody : Bytes := ascii "GET /b HTTP/1.1\r\nHost: a\r\n\r\n"

/-- The parser accepts the head with an empty body, although it declares no length. What follows
is left in the input and parsed as a request of its own. -/
theorem not_firstMessage_gzip :
    (HttpRequestParser.parse {} (gzipHead.bytes ++ gzipBody)).1.result = .complete ∧
      (HttpRequestParser.parse {} (gzipHead.bytes ++ gzipBody)).2 = gzipBody ∧
      (HttpRequestParser.parse {} gzipBody).1.result = .complete ∧
      gzipHead.framing = .invalid ∧ IsEmpty (FirstMessage (gzipHead.bytes ++ gzipBody)) := by
  have hframing : gzipHead.framing = .invalid := by decide +kernel
  refine ⟨by decide +kernel, by decide +kernel, by decide +kernel, hframing, ⟨fun message => ?_⟩⟩
  have hhead := (MessageHead.bytes_append_inj message.stream_eq).1
  have hlength := message.framing
  rw [← hhead, hframing] at hlength
  cases hlength

end AegisGate.Http
