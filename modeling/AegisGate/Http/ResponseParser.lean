import AegisGate.Http.RequestParser

/-!
# The body phase of the response parser

`HttpResponseParser` in streaming mode: the header area is parsed once, and from then on
`ConsumeBody` hands what is buffered to a sink, never more than the declared length. What
`ParseHeaderArea` found is an argument here.

The sink is a function on whatever state lies behind it; `none` is an exception.
-/

namespace AegisGate.Http

/-- What `ParseHeaderArea` leaves for `ParseHeaders`. -/
structure ParsedHeader where
  status : ℕ := 200
  reason : Bytes := ascii "OK"
  headers : Headers := []
  hasContentLength : Bool := false
  contentLength : ℕ := 0

/-- `out.bodyless`. -/
def ParsedHeader.bodyless (h : ParsedHeader) : Bool := bodylessStatus h.status

/-- The incremental parser of a response. -/
structure HttpResponseParser where
  result : ParseResult := .needMoreData
  headersComplete : Bool := false
  responseToHead : Bool := false
  head : HttpResponseHead := {}
  remainingBody : ℕ := 0
  bodyComplete : Bool := false

namespace HttpResponseParser

/-- The head `ParseHeaders` makes of an accepted header area. -/
def headOf (p : HttpResponseParser) (parsed : ParsedHeader) : HttpResponseHead :=
  let head : HttpResponseHead :=
    { status := parsed.status, reason := parsed.reason, headers := parsed.headers }
  if parsed.bodyless then head
  else if p.responseToHead then
    if parsed.hasContentLength then
      { head with
        bodyMode := .suppressedWithKnownLength, contentLength := some parsed.contentLength }
    else { head with bodyMode := .suppressedWithUnknownLength }
  else { head with contentLength := some parsed.contentLength }

/-- `ParseHeaders` once `ParseHeaderArea` has accepted the header area. -/
def parseHeaders (p : HttpResponseParser) (parsed : ParsedHeader) : HttpResponseParser :=
  let p := { p with headersComplete := true, head := p.headOf parsed }
  if parsed.bodyless || p.responseToHead then { p with bodyComplete := true }
  else { p with
    remainingBody := parsed.contentLength, bodyComplete := parsed.contentLength == 0 }

/-- So many bytes of the body were taken. -/
def retrieve (p : HttpResponseParser) (take : ℕ) : HttpResponseParser :=
  if p.remainingBody - take = 0 then
    { p with remainingBody := 0, bodyComplete := true, result := .complete }
  else { p with remainingBody := p.remainingBody - take }

/-- `ConsumeBody`: the parser, the input left, the sink's state and the answer. -/
def consumeBody {σ : Type} (p : HttpResponseParser) (input : Bytes)
    (sink : Bytes → σ → Option (σ × Bool)) (s : σ) :
    Option (HttpResponseParser × Bytes × σ × ParseResult) :=
  if !p.headersComplete then none
  else if p.result != .needMoreData || p.bodyComplete then
    some ({ p with result := .complete }, input, s, .complete)
  else
    let take := min p.remainingBody input.length
    if take = 0 then some (p, input, s, .needMoreData)
    else (sink (input.take take) s).map fun (s, accepted) =>
      if !accepted then (p, input, s, .needMoreData)
      else (p.retrieve take, input.drop take, s, (p.retrieve take).result)

/-- The body bytes a response has after its head: the declared length, and none for `HEAD`,
204 and 304. -/
def bodyLength (responseToHead : Bool) (parsed : ParsedHeader) : ℕ :=
  if parsed.bodyless || responseToHead then 0 else parsed.contentLength

/-- What the parser still expects: body bytes, and then its answer is open. -/
structure Expecting (p : HttpResponseParser) : Prop where
  headers : p.headersComplete
  open_ : p.bodyComplete = false → p.result = .needMoreData ∧ 0 < p.remainingBody
  closed : p.bodyComplete → p.remainingBody = 0

lemma expecting_parseHeaders (responseToHead : Bool) (parsed : ParsedHeader) :
    (({ responseToHead } : HttpResponseParser).parseHeaders parsed).Expecting := by
  rw [parseHeaders]
  split
  · exact ⟨rfl, nofun, fun _ => rfl⟩
  · refine ⟨rfl, fun hopen => ⟨rfl, ?_⟩, fun hclosed => ?_⟩
    · have hne : parsed.contentLength ≠ 0 := by simpa using hopen
      show 0 < parsed.contentLength
      omega
    · simpa using hclosed

lemma remainingBody_parseHeaders (responseToHead : Bool) (parsed : ParsedHeader) :
    (({ responseToHead } : HttpResponseParser).parseHeaders parsed).remainingBody =
      bodyLength responseToHead parsed := by
  rw [parseHeaders, bodyLength]
  split <;> rfl

lemma Expecting.retrieve {p : HttpResponseParser} (h : p.Expecting) (hopen : p.bodyComplete = false)
    (take : ℕ) : (p.retrieve take).Expecting ∧
      (p.retrieve take).remainingBody = p.remainingBody - take ∧
      ((p.retrieve take).result = .complete ↔ (p.retrieve take).bodyComplete) := by
  rw [HttpResponseParser.retrieve]
  split
  · next hzero => exact ⟨⟨h.headers, nofun, fun _ => rfl⟩, hzero.symm, by simp⟩
  next hne =>
  refine ⟨⟨h.headers, fun _ => ⟨(h.open_ hopen).1, by show 0 < p.remainingBody - take; omega⟩,
    fun hclosed => ?_⟩, rfl, ?_⟩
  · rw [show p.bodyComplete from hclosed] at hopen
    cases hopen
  · simp [(h.open_ hopen).1, hopen]

end HttpResponseParser
end AegisGate.Http
