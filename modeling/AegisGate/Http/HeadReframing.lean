import AegisGate.Http.HeaderArea
import AegisGate.Http.SerializedRequest

/-!
# A response head is framed anew

The head of an upstream response is parsed, loses its hop-by-hop fields and its `Content-Length`,
and is written for the client, where the serializer declares the length again. Nothing is lost on
the way: the head that is written can be written, and the same parser reads the same response
from it.
-/

namespace AegisGate.Http
open List HttpResponseParser ParsedHeader Option

/-- `StripHopByHopHeaders` of a response head. -/
def HttpResponseHead.stripHopByHopHeaders (head : HttpResponseHead) : HttpResponseHead :=
  { head with headers := Http.stripHopByHopHeaders head.headers }

/-- The head fits the limits of the parser. -/
structure MessageHead.WithinLimits (head : MessageHead) : Prop where
  start : head.startLine.length ≤ kMaxStatusLineBytes
  line : ∀ line ∈ head.fieldLines, line.length ≤ kMaxStatusLineBytes
  size : (joinLines head.fieldLines).length + crlf.length ≤ kMaxHeaderBytes

lemma length_le_joinLines {lines : List Bytes} {line : Bytes} (h : line ∈ lines) :
    line.length ≤ (joinLines lines).length := by
  induction lines with
  | nil => cases h
  | cons first lines ih =>
    rw [joinLines_cons, length_append, length_append]
    cases h with
    | head => omega
    | tail _ h =>
      have := ih h
      omega

lemma MessageHead.withinLimits_of_length {head : MessageHead}
    (h : head.bytes.length ≤ kMaxStatusLineBytes) : head.WithinLimits := by
  have hbytes := congrArg length (head.bytes_append [])
  simp only [length_append, append_nil] at hbytes
  have hmax : kMaxStatusLineBytes ≤ kMaxHeaderBytes := by decide
  refine ⟨by omega, fun line hline => ?_, by omega⟩
  have := length_le_joinLines hline
  omega

/-! ## Declared lengths -/

/-- The length that a header area declares, if its response can have a body. -/
def ParsedHeader.declared (h : ParsedHeader) : Option ℕ :=
  if h.bodyless || !h.hasContentLength then none else some h.contentLength

def bodyModeOf (responseToHead : Bool) (status : ℕ) (declared : Option ℕ) : ResponseBodyMode :=
  if bodylessStatus status || !responseToHead then .normal
  else if declared.isSome then .suppressedWithKnownLength
  else .suppressedWithUnknownLength

variable {p : HttpResponseParser} {parsed : ParsedHeader} {status : ℕ} {reason : Bytes}

/-- `ParseHeaders` makes the head from the status line, the fields and the declared length. -/
lemma headOf_eq
    (h : parsed.bodyless = false → p.responseToHead = false → parsed.hasContentLength) :
    p.headOf parsed =
      { status := parsed.status, reason := parsed.reason, headers := parsed.headers
        bodyMode := bodyModeOf p.responseToHead parsed.status parsed.declared
        contentLength := parsed.declared } := by
  rw [headOf, declared, bodyModeOf]
  cases hbodyless : parsed.bodyless with
  | true =>
    rw [bodyless] at hbodyless
    simp [hbodyless]
  | false =>
    rw [bodyless] at hbodyless
    cases hhead : p.responseToHead with
    | true => cases hlength : parsed.hasContentLength <;> simp [hbodyless]
    | false => simp [hbodyless, h ‹_› hhead]

/-! ## The head that is written -/

/-- The field that declares a length. -/
def lengthFields (declared : Option ℕ) : Headers :=
  declared.toList.map fun n => (ascii "Content-Length", ascii (toString n))

def statusLine (status : ℕ) (reason : Bytes) : Bytes :=
  ascii "HTTP/1.1 " ++ ascii (toString status) ++ ascii " " ++ reason

/-- A field that is written as it was read. -/
structure WritableField (field : Bytes × Bytes) : Prop where
  name : isToken field.1
  value : isValidFieldValue field.2
  trimmed : trimOws field.2 = field.2
  coding : lowerAscii field.1 ≠ ascii "transfer-encoding"

lemma writableField_lengthFields (declared : Option ℕ) :
    ∀ field ∈ lengthFields declared, WritableField field := by
  intro field hfield
  rw [lengthFields, List.mem_map] at hfield
  obtain ⟨n, _, rfl⟩ := hfield
  have hname : isToken (ascii "Content-Length") := by decide
  have hcoding : lowerAscii (ascii "Content-Length") ≠ ascii "transfer-encoding" := by decide
  exact ⟨hname, isValidFieldValue_toString n, trimOws_toString n, hcoding⟩

lemma writableField_stripped {headers : Headers} (hname : ∀ field ∈ headers, isToken field.1)
    (hvalue : ∀ field ∈ headers, isValidFieldValue field.2)
    (htrimmed : ∀ field ∈ headers, trimOws field.2 = field.2) :
    ∀ field ∈ stripHopByHopHeaders headers,
      WritableField field ∧ lowerAscii field.1 ≠ ascii "content-length" := by
  intro field hfield
  rw [stripHopByHopHeaders, mem_filter] at hfield
  obtain ⟨hmem, hkept⟩ := hfield
  have hne : ∀ hop ∈ hopByHopFields, lowerAscii field.1 ≠ hop := by
    rintro hop hhop rfl
    have : lowerAscii field.1 ∈ hopByHopNames headers := mem_append_left _ hhop
    simp [this] at hkept
  exact ⟨⟨hname field hmem, hvalue field hmem, htrimmed field hmem, hne _ (by decide)⟩,
    hne _ (by decide)⟩

lemma hasLineBreak_eq_false {value : Bytes} (hcr : 13 ∉ value) (hlf : 10 ∉ value) :
    hasLineBreak value = false := by
  rw [hasLineBreak, List.any_eq_false]
  intro c hc
  simp only [Bool.or_eq_true, beq_iff_eq, not_or]
  constructor
  · rintro rfl
    exact hcr hc
  · rintro rfl
    exact hlf hc

lemma not_mem_writtenLine {field : Bytes × Bytes} (h : WritableField field) {c : UInt8}
    (hc : c = 13 ∨ c = 10) : c ∉ field.1 ∧ c ∉ field.2 ∧ c ∉ writtenLine field := by
  have hname : c ∉ field.1 := by
    rcases hc with rfl | rfl <;> exact not_mem_of_isToken h.name (by decide)
  have hvalue : c ∉ field.2 := by
    rcases hc with rfl | rfl <;> exact not_mem_of_isValidFieldValue h.value (by decide)
  have hcolon : c ∉ ascii ": " := by
    rcases hc with rfl | rfl <;> decide
  simp only [writtenLine, mem_append, not_or]
  exact ⟨hname, hvalue, ⟨hname, hcolon⟩, hvalue⟩

lemma not_mem_statusLine (h : isValidFieldValue reason) {c : UInt8}
    (hc : c = 13 ∨ c = 10) :
    c ∉ statusLine status reason := by
  have hreason : c ∉ reason := by
    rcases hc with rfl | rfl <;> exact not_mem_of_isValidFieldValue h (by decide)
  have hdigits : c ∉ ascii (toString status) := by
    rcases hc with rfl | rfl <;>
      exact not_mem_of_isValidFieldValue (isValidFieldValue_toString status) (by decide)
  have hversion : c ∉ ascii "HTTP/1.1 " := by
    rcases hc with rfl | rfl <;> decide
  have hblank : c ∉ ascii " " := by
    rcases hc with rfl | rfl <;> decide
  simp only [statusLine, mem_append, not_or]
  exact ⟨⟨⟨hversion, hdigits⟩, hblank⟩, hreason⟩

/-- The head that the gateway writes. -/
def reframedHead {reason : Bytes} {fields : Headers} (hreason : isValidFieldValue reason)
    (hfields : ∀ field ∈ fields, WritableField field) (status : ℕ) : MessageHead where
  startLine := statusLine status reason
  fieldLines := fields.map writtenLine
  isLine := by
    refine forall_mem_cons.mpr ⟨find_crlf_eq_none (not_mem_statusLine hreason (.inl rfl)), ?_⟩
    intro line hline
    obtain ⟨field, hfield, rfl⟩ := List.mem_map.mp hline
    exact find_crlf_eq_none (not_mem_writtenLine (hfields field hfield) (.inl rfl)).2.2
  nonempty := by simp [writtenLine, ascii]

lemma mapM_serializeField {fields : Headers}
    (h : ∀ field ∈ fields, WritableField field ∧ lowerAscii field.1 ≠ ascii "content-length") :
    fields.mapM serializeField = some (fields.map fun field => writtenLine field ++ crlf) := by
  induction fields with
  | nil => rfl
  | cons field fields ih =>
    obtain ⟨hwritable, hlength⟩ := h field mem_cons_self
    have hcr := not_mem_writtenLine hwritable (.inl rfl)
    have hlf := not_mem_writtenLine hwritable (.inr rfl)
    have hempty : field.1.isEmpty = false := by
      have htoken := hwritable.name
      rw [isToken, Bool.and_eq_true] at htoken
      simpa using htoken.1
    have hfield : serializeField field = some (writtenLine field ++ crlf) := by
      rw [serializeField, hempty, hasLineBreak_eq_false hcr.1 hlf.1,
        hasLineBreak_eq_false hcr.2.1 hlf.2.1, if_neg (by simp), if_neg]
      · rfl
      · simpa using ⟨hlength, hwritable.coding⟩
    rw [mapM_cons, hfield, ih fun g hg => h g (mem_cons_of_mem field hg)]
    rfl

lemma flatten_map_writtenLine (fields : Headers) :
    (fields.map fun field => writtenLine field ++ crlf).flatten =
      joinLines (fields.map writtenLine) := by
  induction fields with
  | nil => rfl
  | cons field fields ih => simp [ih]

lemma serializeHeader_eq {fields : Headers} {declared : Option ℕ}
    (h : ∀ field ∈ fields, WritableField field ∧ lowerAscii field.1 ≠ ascii "content-length") :
    serializeHeader status reason fields declared = some (statusLine status reason ++
        (crlf ++ (joinLines ((fields ++ lengthFields declared).map writtenLine) ++ crlf))) := by
  unfold serializeHeader
  rw [mapM_serializeField h]
  refine congrArg some ?_
  rw [flatten_map_writtenLine, map_append, joinLines_append]
  cases declared with
  | none => simp [statusLine, lengthFields]
  | some n =>
    have hline : writtenLine (ascii "Content-Length", ascii (toString n)) =
        ascii "Content-Length: " ++ ascii (toString n) := rfl
    simp only [statusLine, lengthFields, toList_some, map_cons, map_nil,
      joinLines_cons, joinLines_nil, hline, append_assoc, append_nil]

/-! ## Reading it back -/

lemma exists_digits_status (hlow : 200 ≤ status) (hhigh : status ≤ 599) :
    ∃ hundreds tens ones, ascii (toString status) = [hundreds, tens, ones] ∧
      isDigit hundreds ∧ isDigit tens ∧ isDigit ones ∧
      (hundreds.toNat - 48) * 100 + (tens.toNat - 48) * 10 + (ones.toNat - 48) = status := by
  have hdigits := all_isDigit_toString status
  have hvalue := decimal_toString status
  rw [decimal] at hvalue
  obtain ⟨_, hvalue⟩ := ite_none_right_eq_some.mp hvalue
  have hlength : (ascii (toString status)).length ≤ 3 := by
    rw [ascii_toString, length_map]
    exact Nat.toDigits_length 10 status 3 (by decide) (by omega)
  have hvalue := some_inj.mp hvalue
  have hbound : ∀ c, isDigit c → c.toNat - 48 ≤ 9 := by
    intro c hc
    simp only [isDigit, Bool.and_eq_true, decide_eq_true_eq, UInt8.le_iff_toNat_le,
      UInt8.reduceToNat] at hc
    omega
  generalize ascii (toString status) = text at hdigits hvalue hlength ⊢
  simp only [List.all_eq_true] at hdigits
  rcases text with _ | ⟨a, _ | ⟨b, _ | ⟨c, _ | ⟨_, _⟩⟩⟩⟩
  · simp only [foldl_nil] at hvalue
    omega
  · have := hbound a (hdigits a (by simp))
    simp only [foldl_cons, foldl_nil, appendDigit] at hvalue
    omega
  · have := hbound a (hdigits a (by simp))
    have := hbound b (hdigits b (by simp))
    simp only [foldl_cons, foldl_nil, appendDigit] at hvalue
    omega
  · refine ⟨a, b, c, rfl, hdigits a (by simp), hdigits b (by simp), hdigits c (by simp), ?_⟩
    simp only [foldl_cons, foldl_nil, appendDigit] at hvalue
    omega
  · simp only [length_cons] at hlength
    omega

lemma parseStatusLine_statusLine (hlow : 200 ≤ status) (hhigh : status ≤ 599) (hne : reason ≠ [])
    (hreason : isValidFieldValue reason) :
    parseStatusLine (statusLine status reason) = .ok (status, reason) := by
  obtain ⟨a, b, c, htext, ha, hb, hc, hvalue⟩ := exists_digits_status hlow hhigh
  have hline : statusLine status reason =
      ascii "HTTP/1.1" ++ 32 :: ([a, b, c] ++ 32 :: reason) := by
    rw [statusLine, htext]
    simp only [append_assoc]
    rfl
  have hblank : ∀ d, isDigit d → 32 ≠ d := by
    rintro d hd rfl
    cases hd
  have hfirst : find [32] (statusLine status reason) = some 8 := by
    rw [hline]
    exact find_singleton_append (by decide) _
  have hsecond : findFrom [32] (8 + 1) (statusLine status reason) = some 12 := by
    have hfind : find [32] ([a, b, c] ++ 32 :: reason) = some 3 := by
      refine find_singleton_append ?_ reason
      simp [hblank a ha, hblank b hb, hblank c hc]
    rw [hline, findFrom]
    exact congrArg (Option.map _) hfind
  have hpos := length_pos_of_ne_nil hne
  have hrange : 50 ≤ a ∧ a ≤ 53 := by
    simp only [isDigit, Bool.and_eq_true, decide_eq_true_eq, UInt8.le_iff_toNat_le,
      UInt8.reduceToNat] at ha hb hc ⊢
    omega
  have htake : (statusLine status reason).take 8 = ascii "HTTP/1.1" := by
    rw [hline]
    rfl
  have hdigits : ((statusLine status reason).drop 9).take 3 = [a, b, c] := by
    rw [hline]
    rfl
  have hdrop : (statusLine status reason).drop 13 = reason := by
    rw [hline]
    rfl
  have hlength : ¬ (statusLine status reason).length ≤ 12 + 1 := by
    rw [← hdrop, length_drop] at hpos
    omega
  have hlow' : ¬ a < 50 := UInt8.not_lt.mpr hrange.1
  have hhigh' : ¬ 53 < a := UInt8.not_lt.mpr hrange.2
  rw [parseStatusLine, hfirst, bind_some, hsecond, htake, hdigits, hdrop,
    if_neg (by simpa using hlength)]
  dsimp only
  rw [if_neg (by simp [hb, hc, hreason, hlow', hhigh']), hvalue]

lemma parseHeaderField_writtenLine {field : Bytes × Bytes} (h : WritableField field)
    (hsize : (writtenLine field).length ≤ kMaxStatusLineBytes) (parsed : ParsedHeader) :
    parseHeaderField (writtenLine field) parsed =
      (if lowerAscii field.1 = ascii "content-length" then parsed.takeLength field.2
        else .ok parsed)
        >>= fun parsed => .ok { parsed with headers := parsed.headers ++ [field] } := by
  have hcolon : 58 ∉ field.1 := not_mem_of_isToken h.name (by decide)
  obtain ⟨hraw, hrawValue⟩ := rawName_writtenLine hcolon field.2
  obtain ⟨hname, hvalue⟩ := fieldName_writtenLine hcolon field.2
  have hvalid : isValidFieldValue (32 :: field.2) := by
    have := h.value
    rw [isValidFieldValue] at this ⊢
    simp [this]
  rw [parseHeaderField_eq, hname, hvalue, hraw, hrawValue, if_neg (Nat.not_lt.mpr hsize),
    if_neg (by simp [h.name, writtenLine, ascii]), if_neg (by simp [hvalid]), if_neg h.coding,
    h.trimmed]

lemma foldLines_writtenLine {fields : Headers}
    (h : ∀ field ∈ fields, WritableField field ∧ lowerAscii field.1 ≠ ascii "content-length")
    (hsize : ∀ line ∈ fields.map writtenLine, line.length ≤ kMaxStatusLineBytes)
    (parsed : ParsedHeader) :
    foldLines parseHeaderField (fields.map writtenLine) parsed =
      .ok { parsed with headers := parsed.headers ++ fields } := by
  induction fields generalizing parsed with
  | nil => simp
  | cons field fields ih =>
    obtain ⟨hwritable, hlength⟩ := h field mem_cons_self
    have hfield := parseHeaderField_writtenLine hwritable (hsize _ mem_cons_self) parsed
    rw [if_neg hlength] at hfield
    rw [map_cons, foldLines_cons, hfield]
    refine (ih (fun g hg => h g (mem_cons_of_mem field hg))
      (fun line hline => hsize line (mem_cons_of_mem _ hline)) _).trans ?_
    simp

lemma foldLines_lengthFields {declared : Option ℕ}
    (h : ∀ n ∈ declared, n ≤ kMaxUpstreamResponseBodyBytes)
    (hsize : ∀ line ∈ (lengthFields declared).map writtenLine, line.length ≤ kMaxStatusLineBytes)
    (hnone : parsed.hasContentLength = false) (hzero : parsed.contentLength = 0) :
    foldLines parseHeaderField ((lengthFields declared).map writtenLine) parsed = .ok { parsed with
        headers := parsed.headers ++ lengthFields declared
        hasContentLength := declared.isSome, contentLength := declared.getD 0 } := by
  cases declared with
  | none =>
    obtain ⟨status, reason, headers, has, length⟩ := parsed
    subst hnone hzero
    simp [lengthFields]
  | some n =>
    have hn := h n rfl
    have hwritable := writableField_lengthFields (some n) _ mem_cons_self
    have hfield := parseHeaderField_writtenLine hwritable (hsize _ mem_cons_self) parsed
    have htake : parsed.takeLength (ascii (toString n)) =
        .ok { parsed with hasContentLength := true, contentLength := n } := by
      rw [takeLength, hnone,
        parseContentLength_toString (Nat.lt_of_le_of_lt hn (by decide))]
      exact if_neg (Nat.not_lt.mpr hn)
    have hname : lowerAscii (ascii "Content-Length") = ascii "content-length" := by decide
    rw [if_pos hname, htake] at hfield
    exact (foldLines_singleton _ _).trans hfield

/-! ## The round trip -/

lemma HttpResponseParser.parseHeaderPhase_of_ok {input : Bytes} {headerEnd : ℕ}
    (hopen : p.result = .needMoreData)
    (h : parseHeaderArea p.responseToHead input = .ok (parsed, headerEnd)) :
    (p.parseHeaderPhase input).2 = (input.drop headerEnd, .complete) ∧
      (p.parseHeaderPhase input).1.head = p.headOf parsed := by
  rw [parseHeaderPhase, if_neg (not_not_intro hopen), h]
  refine ⟨rfl, ?_⟩
  dsimp only
  rw [parseHeaders]
  split <;> rfl

lemma HttpResponseParser.parseHeaderPhase_complete {input : Bytes}
    (hopen : p.result = .needMoreData) (h : (p.parseHeaderPhase input).2.2 = .complete) :
    ∃ parsed headerEnd, parseHeaderArea p.responseToHead input = .ok (parsed, headerEnd) ∧
      (p.parseHeaderPhase input).1.head = p.headOf parsed := by
  cases hparse : parseHeaderArea p.responseToHead input with
  | error result =>
    rw [parseHeaderPhase, if_neg (not_not_intro hopen), hparse] at h
    dsimp only at h
    rw [h] at hparse
    exact absurd hparse (parseHeaderArea_ne_complete _ _)
  | ok parsed => exact ⟨parsed.1, parsed.2, rfl, (parseHeaderPhase_of_ok hopen hparse).2⟩

section
variable {responseToHead : Bool} {parsed : ParsedHeader} (h : AcceptedHeader responseToHead parsed)
include h

lemma AcceptedHeader.declared_le : ∀ n ∈ parsed.declared, n ≤ kMaxUpstreamResponseBodyBytes := by
  intro n hn
  rw [ParsedHeader.declared, mem_def] at hn
  obtain ⟨_, ⟨⟩⟩ := ite_none_left_eq_some.mp hn
  exact h.length

lemma AcceptedHeader.framing (fields : Headers) : HttpResponseHead.framingOk
        { status := parsed.status, reason := parsed.reason, headers := fields
          bodyMode := bodyModeOf responseToHead parsed.status parsed.declared
          contentLength := parsed.declared } ∧
      (if bodylessStatus parsed.status ||
          bodyModeOf responseToHead parsed.status parsed.declared == .suppressedWithUnknownLength
        then none else parsed.declared) = parsed.declared := by
  have hdeclared := h.declared
  rw [HttpResponseHead.framingOk, bodyModeOf, ParsedHeader.declared, ParsedHeader.bodyless] at *
  cases hbodyless : bodylessStatus parsed.status with
  | true => simp
  | false =>
    cases responseToHead with
    | true => cases parsed.hasContentLength <;> simp
    | false => simp [hdeclared hbodyless rfl]

lemma AcceptedHeader.writable :
    ∀ field ∈ stripHopByHopHeaders parsed.headers ++ lengthFields parsed.declared,
      WritableField field :=
  forall_mem_append.mpr ⟨fun field hfield =>
    (writableField_stripped h.name h.value h.trimmed field hfield).1,
    writableField_lengthFields parsed.declared⟩

/-- The head that is written for an accepted header area. -/
def AcceptedHeader.reframed : MessageHead := reframedHead h.reasonValue h.writable parsed.status

lemma AcceptedHeader.serialize_eq {p : HttpResponseParser}
    (hp : p.responseToHead = responseToHead) :
    (p.headOf parsed).stripHopByHopHeaders.serialize = some h.reframed.bytes := by
  have hdeclared := h.declared
  obtain ⟨hframing, hlength⟩ := h.framing (stripHopByHopHeaders parsed.headers)
  rw [headOf_eq (hp ▸ hdeclared), hp]
  have hline : validStatusLine parsed.status parsed.reason := by
    have hcr : 13 ∉ parsed.reason := not_mem_of_isValidFieldValue h.reasonValue (by decide)
    have hlf : 10 ∉ parsed.reason := not_mem_of_isValidFieldValue h.reasonValue (by decide)
    simp [validStatusLine, h.low, h.high, hasLineBreak_eq_false hcr hlf]
  rw [HttpResponseHead.stripHopByHopHeaders, HttpResponseHead.serialize]
  rw [hline, hframing, if_neg (by simp), hlength,
    serializeHeader_eq (writableField_stripped h.name h.value h.trimmed)]
  rfl

/-- What a parser reads from the written head. -/
def reframedHeader (parsed : ParsedHeader) : ParsedHeader where
  status := parsed.status
  reason := parsed.reason
  headers := stripHopByHopHeaders parsed.headers ++ lengthFields parsed.declared
  hasContentLength := parsed.declared.isSome
  contentLength := parsed.declared.getD 0

omit h in
lemma declared_of_bodyless (hbodyless : parsed.bodyless) : parsed.declared = none := by
  simp [declared, hbodyless]

omit h in
lemma lengthFields_declared :
    (if bodylessStatus parsed.status then [] else lengthFields parsed.declared) =
      lengthFields parsed.declared := by
  split
  · next hbodyless => rw [declared_of_bodyless hbodyless, lengthFields, toList_none, map_nil]
  · rfl

omit h in
lemma declared_reframedHeader : (reframedHeader parsed).declared = parsed.declared := by
  have hbodyless : (reframedHeader parsed).bodyless = parsed.bodyless := rfl
  cases hcase : parsed.bodyless with
  | true => rw [declared_of_bodyless hcase, declared_of_bodyless (hbodyless.trans hcase)]
  | false =>
    rw [declared, hbodyless, hcase]
    cases hdeclared : parsed.declared with
    | none => simp [reframedHeader, hdeclared]
    | some n => simp [reframedHeader, hdeclared]

lemma AcceptedHeader.checkFraming_reframedHeader :
    (reframedHeader parsed).checkFraming responseToHead = .ok (reframedHeader parsed) := by
  have hbodyless : (reframedHeader parsed).bodyless = parsed.bodyless := rfl
  rw [ParsedHeader.checkFraming, hbodyless]
  cases hcase : parsed.bodyless with
  | true => simp [reframedHeader, declared_of_bodyless hcase]
  | false =>
    have hlength : (reframedHeader parsed).hasContentLength = parsed.hasContentLength := by
      cases hhas : parsed.hasContentLength <;>
        simp [reframedHeader, ParsedHeader.declared, hcase, hhas]
    have hdeclared := h.declared hcase
    cases responseToHead with
    | true => simp
    | false => simp [hlength, hdeclared rfl]

lemma AcceptedHeader.parseHeaderArea_reframed (hlimits : h.reframed.WithinLimits) :
    parseHeaderArea responseToHead h.reframed.bytes =
      .ok (reframedHeader parsed, h.reframed.bytes.length) := by
  have hfeed : ∀ line ∈ h.reframed.startLine :: h.reframed.fieldLines, 10 ∉ line := by
    refine forall_mem_cons.mpr ⟨not_mem_statusLine h.reasonValue (.inr rfl), ?_⟩
    intro line hline
    obtain ⟨field, hfield, rfl⟩ := List.mem_map.mp hline
    exact (not_mem_writtenLine (h.writable field hfield) (.inr rfl)).2.2
  have hline := hlimits.line
  have hfields : foldLines parseHeaderField h.reframed.fieldLines
      { status := parsed.status, reason := parsed.reason } = .ok (reframedHeader parsed) := by
    have hmap : h.reframed.fieldLines = (stripHopByHopHeaders parsed.headers).map writtenLine ++
        (lengthFields parsed.declared).map writtenLine := map_append
    rw [hmap, forall_mem_append] at hline
    have hstripped := foldLines_writtenLine
      (writableField_stripped h.name h.value h.trimmed) hline.1
      { status := parsed.status, reason := parsed.reason }
    rw [hmap, foldLines_append hstripped, foldLines_lengthFields h.declared_le hline.2 rfl rfl]
    rfl
  have harea := parseHeaderArea_head h.reframed hfeed hlimits.start hlimits.size
    (parseStatusLine_statusLine h.low h.high h.reason h.reasonValue) hfields responseToHead []
  rw [append_nil, h.checkFraming_reframedHeader] at harea
  exact harea

end

/-- **A response head is framed anew.** For every head that `ParseHeaders` accepts, for a `HEAD`
request or another one: without its hop-by-hop fields it can be written, and if what is written is
within the limits, `ParseHeaders` reads all of it and finds the same status, reason, body mode and
length. The fields are those that are left, in order, and the new `Content-Length` if a length is
known. -/
theorem parseHeaderPhase_reframed (p : HttpResponseParser) (input : Bytes)
    (hopen : p.result = .needMoreData) (hcomplete : (p.parseHeaderPhase input).2.2 = .complete) :
    let head := (p.parseHeaderPhase input).1.head
    ∃ reframed : MessageHead, head.stripHopByHopHeaders.serialize = some reframed.bytes ∧
      (reframed.WithinLimits →
        let again := ({ responseToHead := p.responseToHead } : HttpResponseParser).parseHeaderPhase
          reframed.bytes
        again.2 = ([], .complete) ∧ again.1.head =
          { head with headers := stripHopByHopHeaders head.headers ++
              if bodylessStatus head.status then [] else lengthFields head.contentLength }) := by
  obtain ⟨parsed, headerEnd, hparse, hhead⟩ :=
    parseHeaderPhase_complete hopen hcomplete
  have haccepted := acceptedHeader_of_ok hparse
  rw [hhead]
  refine ⟨haccepted.reframed, haccepted.serialize_eq rfl, fun hlimits => ?_⟩
  obtain ⟨hrest, hagain⟩ := parseHeaderPhase_of_ok
    (p := { responseToHead := p.responseToHead }) rfl (haccepted.parseHeaderArea_reframed hlimits)
  refine ⟨by rw [hrest, drop_length], ?_⟩
  have hreframed := acceptedHeader_of_ok (haccepted.parseHeaderArea_reframed hlimits)
  rw [hagain, headOf_eq haccepted.declared,
    headOf_eq (p := { responseToHead := p.responseToHead }) hreframed.declared]
  rw [declared_reframedHeader, lengthFields_declared]
  rfl

/-- A response with a field that the connection nominates. -/
def taggedResponse : Bytes :=
  ascii "HTTP/1.1 200 OK\r\nConnection: x-hop\r\nX-Hop: 1\r\nETag: v1\r\n" ++
    ascii "Content-Length: 3\r\n\r\nabc"

theorem parseHeaderPhase_reframed_taggedResponse :
    let head := (({} : HttpResponseParser).parseHeaderPhase taggedResponse).1.head
    ∃ reframed : MessageHead, head.stripHopByHopHeaders.serialize = some reframed.bytes ∧
      reframed.WithinLimits ∧
      (({} : HttpResponseParser).parseHeaderPhase reframed.bytes).1.head =
        { head with headers := [(ascii "ETag", ascii "v1"),
            (ascii "Content-Length", ascii "3")] } := by
  obtain ⟨reframed, hserialize, hagain⟩ :=
    parseHeaderPhase_reframed {} taggedResponse rfl (by decide +kernel)
  have hlimits : reframed.WithinLimits := by
    refine MessageHead.withinLimits_of_length ?_
    have hbytes : (({} : HttpResponseParser).parseHeaderPhase
        taggedResponse).1.head.stripHopByHopHeaders.serialize =
          some (ascii "HTTP/1.1 200 OK\r\nETag: v1\r\nContent-Length: 3\r\n\r\n") := by
      decide +kernel
    rw [some_inj.mp (hserialize.symm.trans hbytes)]
    decide
  refine ⟨reframed, hserialize, hlimits, (hagain hlimits).2.trans ?_⟩
  decide +kernel

end AegisGate.Http
