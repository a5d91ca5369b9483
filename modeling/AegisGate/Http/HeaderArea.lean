import AegisGate.Http.MessageHead
import AegisGate.Http.Decimal
import AegisGate.Http.ResponseParser

/-!
# The header phase of the response parser

`ParseHeaderArea` of `src/http/HttpResponseParser.cpp`, the read-only header phase, and
`ParseHeaders`, which records its result and consumes the header area. Early returns are errors of
an `Except`, as in the request parser.
-/

namespace AegisGate.Http

def kMaxStatusLineBytes : ℕ := 8 * 1024
def kMaxUpstreamResponseBodyBytes : ℕ := 16 * 1024 * 1024

/-- The status and the reason of a status line. -/
def parseStatusLine (line : Bytes) : Except ParseResult (ℕ × Bytes) :=
  let firstSpace := find [32] line
  let secondSpace := firstSpace.bind fun first => findFrom [32] (first + 1) line
  if firstSpace ≠ some 8 || secondSpace ≠ some 12 || line.length ≤ 12 + 1
      || line.take 8 != ascii "HTTP/1.1" then .error .error
  else match (line.drop 9).take 3 with
    | [hundreds, tens, ones] =>
      if hundreds < 50 || 53 < hundreds || !isDigit tens || !isDigit ones
          || !isValidFieldValue (line.drop 13) then .error .error
      else .ok ((hundreds.toNat - 48) * 100 + (tens.toNat - 48) * 10 + (ones.toNat - 48),
        line.drop 13)
    -- The line is longer than 13 bytes.
    | _ => .error .error

/-- The declared length after a `Content-Length` field. -/
def ParsedHeader.takeLength (h : ParsedHeader) (value : Bytes) : Except ParseResult ParsedHeader :=
  match h.hasContentLength, parseContentLength value with
  | false, some length =>
    if kMaxUpstreamResponseBodyBytes < length then .error .error
    else .ok { h with hasContentLength := true, contentLength := length }
  | _, _ => .error .error

/-- One turn of the loop over the field lines. -/
def parseHeaderField (line : Bytes) (h : ParsedHeader) : Except ParseResult ParsedHeader :=
  if kMaxStatusLineBytes < line.length then .error .error
  else match find [58] line with
    | none => .error .error
    | some colon =>
      if colon == 0 || !isToken (line.take colon) then .error .error
      else if !isValidFieldValue (line.drop (colon + 1)) then .error .error
      else do
        let value := trimOws (line.drop (colon + 1))
        let name := lowerAscii (line.take colon)
        if name = ascii "transfer-encoding" then .error .unsupported
        else
          let h ← if name = ascii "content-length" then h.takeLength value else .ok h
          .ok { h with headers := h.headers ++ [(line.take colon, value)] }

/-- The answer when a field line has no end yet: an unfinished line has a limit of its own. -/
def unfinishedField (bytes : Bytes) (statusLineEnd cursor : ℕ) : ParseResult :=
  if kMaxStatusLineBytes < bytes.length - cursor then .error
  else if kMaxHeaderBytes + statusLineEnd + 2 < bytes.length then .error
  else .needMoreData

/-- The declared length against the status. -/
def ParsedHeader.checkFraming (h : ParsedHeader) (responseToHead : Bool) :
    Except ParseResult ParsedHeader :=
  if h.bodyless then
    if h.hasContentLength && h.contentLength != 0 then .error .error
    else .ok { h with contentLength := 0 }
  else if !h.hasContentLength && !responseToHead then .error .error
  else .ok h

/-- `ParseHeaderArea`, with `header_end`. -/
def parseHeaderArea (responseToHead : Bool) (bytes : Bytes) :
    Except ParseResult (ParsedHeader × ℕ) := do
  let protocol := match find (crlf ++ crlf) bytes with
    | none => bytes
    | some headersEnd => bytes.take (headersEnd + 4)
  if hasBareLineFeed protocol then .error .error
  else
    match find crlf bytes with
    | none => if kMaxStatusLineBytes < bytes.length then .error .error else .error .needMoreData
    | some statusLineEnd =>
      if kMaxStatusLineBytes < statusLineEnd then .error .error
      else do
        let (status, reason) ← parseStatusLine (bytes.take statusLineEnd)
        let (out, cursor) ← lineLoop parseHeaderField (unfinishedField bytes statusLineEnd) bytes
          statusLineEnd (bytes.length + 1) (statusLineEnd + 2) { status, reason }
        let out ← out.checkFraming responseToHead
        .ok (out, cursor)

/-- `ParseHeaders`: the parser, the input left and the answer. -/
def HttpResponseParser.parseHeaderPhase (p : HttpResponseParser) (input : Bytes) :
    HttpResponseParser × Bytes × ParseResult :=
  if p.result ≠ .needMoreData then (p, input, p.result)
  else
    match parseHeaderArea p.responseToHead input with
    | .error result => ({ p with result }, input, result)
    | .ok (parsed, headerEnd) => (p.parseHeaders parsed, input.drop headerEnd, .complete)

/-! ## The phase on a head -/

/-- `ParseHeaderArea` on a head within the limits. -/
lemma parseHeaderArea_head (head : MessageHead)
    (hfeed : ∀ line ∈ head.startLine :: head.fieldLines, 10 ∉ line)
    (hstart : head.startLine.length ≤ kMaxStatusLineBytes)
    (hsize : (joinLines head.fieldLines).length + crlf.length ≤ kMaxHeaderBytes)
    {status : ℕ} {reason : Bytes} (hstatus : parseStatusLine head.startLine = .ok (status, reason))
    {parsed : ParsedHeader}
    (hfields : foldLines parseHeaderField head.fieldLines { status, reason } = .ok parsed)
    (responseToHead : Bool) (rest : Bytes) :
    parseHeaderArea responseToHead (head.bytes ++ rest) =
      (parsed.checkFraming responseToHead).map fun out => (out, head.bytes.length) := by
  obtain ⟨hfind, htake⟩ := head.find_crlf_bytes rest
  obtain ⟨headersEnd, hend, hfeeds⟩ := head.exists_headersEnd hfeed rest
  rw [parseHeaderArea, hend]
  rw [if_neg (Bool.eq_false_iff.mp hfeeds), hfind]
  dsimp only
  rw [if_neg (by omega), htake, hstatus]
  simp only [bind, Except.bind, lineLoop_head head hsize, hfields, Except.map]

lemma parseHeaderArea_ok {responseToHead : Bool} {bytes : Bytes} {out : ParsedHeader}
    {headerEnd : ℕ} (h : parseHeaderArea responseToHead bytes = .ok (out, headerEnd)) :
    ∃ (head : MessageHead) (status : ℕ) (reason : Bytes) (parsed : ParsedHeader),
      parseStatusLine head.startLine = .ok (status, reason) ∧
      foldLines parseHeaderField head.fieldLines { status, reason } = .ok parsed ∧
      parsed.checkFraming responseToHead = .ok out := by
  obtain ⟨_, h⟩ := of_ite_error_ok h
  cases hfind : find crlf bytes with
  | none =>
    rw [hfind] at h
    cases (of_ite_error_ok h).2
  | some statusLineEnd =>
    rw [hfind] at h
    obtain ⟨_, h⟩ := of_ite_error_ok h
    obtain ⟨⟨status, reason⟩, hstatus, h⟩ := exists_of_bind_ok h
    obtain ⟨⟨parsed, cursor⟩, hloop, h⟩ := exists_of_bind_ok h
    obtain ⟨out', hframing, h⟩ := exists_of_bind_ok h
    cases h
    obtain ⟨head, rest, _, hstart, hfields, _⟩ := exists_head_of_lineLoop hfind hloop
    exact ⟨head, status, reason, parsed, by rw [hstart]; exact hstatus, hfields, hframing⟩

/-! ## Accepted header areas -/

lemma parseHeaderField_eq (line : Bytes) (h : ParsedHeader) : parseHeaderField line h =
      if kMaxStatusLineBytes < line.length then .error .error
      else if 58 ∉ line ∨ isToken (rawName line) = false then .error .error
      else if isValidFieldValue (rawValue line) = false then .error .error
      else if fieldName line = ascii "transfer-encoding" then .error .unsupported
      else
        (if fieldName line = ascii "content-length" then h.takeLength (fieldValue line) else .ok h)
          >>= fun h => .ok { h with headers := h.headers ++
            [(rawName line, fieldValue line)] } := by
  rw [parseHeaderField]
  refine ite_congr rfl (fun _ => rfl) fun _ => ?_
  cases hfind : find [58] line with
  | none => rw [if_pos (.inl (find_singleton_eq_none.mp hfind))]
  | some colon =>
    obtain ⟨hname, hvalue⟩ := take_drop_of_find hfind
    have hcond := colon_test_iff hfind
    dsimp only
    rw [hname] at hcond
    rw [hname, hvalue]
    simp only [hcond, Bool.not_eq_eq_eq_not, Bool.not_true]
    refine ite_congr rfl (fun _ => rfl) fun _ => ite_congr rfl (fun _ => rfl) fun _ => ?_
    refine ite_congr rfl (fun _ => rfl) fun _ => ?_
    by_cases hlength : fieldName line = ascii "content-length"
    · rw [if_pos hlength, if_pos (show lowerAscii (rawName line) = _ from hlength)]
      rfl
    · rw [if_neg hlength, if_neg (show lowerAscii (rawName line) ≠ _ from hlength)]
      rfl

/-- The fields of an accepted header area, and the length they declare. -/
structure WellFormedHeader (h : ParsedHeader) : Prop where
  name : ∀ field ∈ h.headers, isToken field.1
  value : ∀ field ∈ h.headers, isValidFieldValue field.2
  trimmed : ∀ field ∈ h.headers, trimOws field.2 = field.2
  length : h.contentLength ≤ kMaxUpstreamResponseBodyBytes

lemma ParsedHeader.takeLength_ok {h g : ParsedHeader} {value : Bytes}
    (hg : h.takeLength value = .ok g) :
    ∃ length ≤ kMaxUpstreamResponseBodyBytes,
      g = { h with hasContentLength := true, contentLength := length } := by
  rw [ParsedHeader.takeLength] at hg
  split at hg
  · next length _ _ =>
    obtain ⟨hle, hg⟩ := of_ite_error_ok hg
    cases hg
    exact ⟨length, Nat.not_lt.mp hle, rfl⟩
  · cases hg

lemma parseHeaderField_ok {line : Bytes} {h g : ParsedHeader}
    (hg : parseHeaderField line h = .ok g) (hwf : WellFormedHeader h) :
    WellFormedHeader g ∧ g.status = h.status ∧ g.reason = h.reason := by
  rw [parseHeaderField_eq] at hg
  obtain ⟨_, hg⟩ := of_ite_error_ok hg
  obtain ⟨hname, hg⟩ := of_ite_error_ok hg
  obtain ⟨hvalue, hg⟩ := of_ite_error_ok hg
  obtain ⟨_, hg⟩ := of_ite_error_ok hg
  obtain ⟨h', hlength, hg⟩ := exists_of_bind_ok hg
  cases hg
  simp only [not_or, Bool.not_eq_false] at hname hvalue
  have hframe : h'.headers = h.headers ∧ h'.status = h.status ∧ h'.reason = h.reason ∧
      h'.contentLength ≤ kMaxUpstreamResponseBodyBytes := by
    split at hlength
    · obtain ⟨length, hle, rfl⟩ := ParsedHeader.takeLength_ok hlength
      exact ⟨rfl, rfl, rfl, hle⟩
    · cases hlength
      exact ⟨rfl, rfl, rfl, hwf.length⟩
  obtain ⟨hheaders, hstatus, hreason, hle⟩ := hframe
  have hadd : ∀ {P : Bytes × Bytes → Prop}, (∀ field ∈ h.headers, P field) →
      P (rawName line, fieldValue line) →
      ∀ field ∈ h'.headers ++ [(rawName line, fieldValue line)], P field := by
    intro P hold hnew
    rw [hheaders]
    exact List.forall_mem_append.mpr ⟨hold, List.forall_mem_singleton.mpr hnew⟩
  refine ⟨⟨hadd hwf.name hname.2, hadd hwf.value ?_, hadd hwf.trimmed ?_, hle⟩, hstatus, hreason⟩
  · exact isValidFieldValue_trimOws hvalue
  · exact trimOws_trimOws _

lemma foldLines_parseHeaderField_ok {lines : List Bytes} {h g : ParsedHeader}
    (hg : foldLines parseHeaderField lines h = .ok g) (hwf : WellFormedHeader h) :
    WellFormedHeader g ∧ g.status = h.status ∧ g.reason = h.reason := by
  induction lines generalizing h with
  | nil =>
    cases hg
    exact ⟨hwf, rfl, rfl⟩
  | cons line lines ih =>
    rw [foldLines_cons] at hg
    obtain ⟨h', hfield, hg⟩ := exists_of_bind_ok hg
    obtain ⟨hwf', hstatus', hreason'⟩ := parseHeaderField_ok hfield hwf
    obtain ⟨hwf'', hstatus, hreason⟩ := ih hg hwf'
    exact ⟨hwf'', hstatus.trans hstatus', hreason.trans hreason'⟩

lemma parseStatusLine_ok {line : Bytes} {status : ℕ} {reason : Bytes}
    (h : parseStatusLine line = .ok (status, reason)) :
    200 ≤ status ∧ status ≤ 599 ∧ reason ≠ [] ∧ isValidFieldValue reason := by
  obtain ⟨hline, h⟩ := of_ite_error_ok h
  split at h
  · next hundreds tens ones _ =>
    obtain ⟨hdigits, h⟩ := of_ite_error_ok h
    cases h
    simp only [Bool.or_eq_true, not_or, decide_eq_true_eq, isDigit, Bool.not_eq_true',
      Bool.not_eq_false, Bool.and_eq_true, UInt8.lt_iff_toNat_lt, UInt8.le_iff_toNat_le,
      UInt8.reduceToNat] at hdigits hline
    refine ⟨by omega, by omega, ?_, hdigits.2⟩
    rw [ne_eq, List.drop_eq_nil_iff]
    omega
  · cases h

/-- What `ParseHeaders` accepts. -/
structure AcceptedHeader (responseToHead : Bool) (h : ParsedHeader) : Prop
    extends WellFormedHeader h where
  low : 200 ≤ h.status
  high : h.status ≤ 599
  reason : h.reason ≠ []
  reasonValue : isValidFieldValue h.reason
  declared : h.bodyless = false → responseToHead = false → h.hasContentLength

lemma acceptedHeader_of_ok {responseToHead : Bool} {bytes : Bytes} {out : ParsedHeader}
    {headerEnd : ℕ} (h : parseHeaderArea responseToHead bytes = .ok (out, headerEnd)) :
    AcceptedHeader responseToHead out := by
  obtain ⟨head, status, reason, parsed, hstatus, hfields, hframing⟩ := parseHeaderArea_ok h
  obtain ⟨hlow, hhigh, hreason, hvalue⟩ := parseStatusLine_ok hstatus
  obtain ⟨hwf, hstatus', hreason'⟩ := foldLines_parseHeaderField_ok hfields
    ⟨nofun, nofun, nofun, Nat.zero_le _⟩
  dsimp only at hstatus' hreason'
  rw [ParsedHeader.checkFraming] at hframing
  split at hframing
  · next hbodyless =>
    cases (of_ite_error_ok hframing).2
    refine ⟨⟨hwf.name, hwf.value, hwf.trimmed, Nat.zero_le _⟩, ?_, ?_, ?_, ?_, ?_⟩
    · exact hstatus' ▸ hlow
    · exact hstatus' ▸ hhigh
    · exact hreason' ▸ hreason
    · exact hreason' ▸ hvalue
    · intro hbody
      rw [ParsedHeader.bodyless] at hbodyless hbody
      rw [hbodyless] at hbody
      cases hbody
  next hbodyless =>
  obtain ⟨hdeclared, hout⟩ := of_ite_error_ok hframing
  cases hout
  refine ⟨hwf, hstatus' ▸ hlow, hstatus' ▸ hhigh, hreason' ▸ hreason, hreason' ▸ hvalue, ?_⟩
  intro _ hhead
  simpa [hhead] using hdeclared

/-! ## Early returns -/

lemma parseStatusLine_ne_complete (line : Bytes) : parseStatusLine line ≠ .error .complete := by
  refine ite_ne_complete nofun ?_
  split
  · exact ite_ne_complete nofun nofun
  · nofun

lemma ParsedHeader.takeLength_ne_complete (h : ParsedHeader) (value : Bytes) :
    h.takeLength value ≠ .error .complete := by
  rw [ParsedHeader.takeLength]
  split
  · exact ite_ne_complete nofun nofun
  · nofun

lemma parseHeaderField_ne_complete (line : Bytes) (h : ParsedHeader) :
    parseHeaderField line h ≠ .error .complete := by
  rw [parseHeaderField_eq]
  refine ite_ne_complete nofun (ite_ne_complete nofun (ite_ne_complete nofun ?_))
  refine ite_ne_complete nofun (bind_ne_complete ?_ fun _ => nofun)
  split
  · exact h.takeLength_ne_complete _
  · nofun

lemma unfinishedField_ne_complete (bytes : Bytes) (statusLineEnd cursor : ℕ) :
    unfinishedField bytes statusLineEnd cursor ≠ .complete := by
  rw [unfinishedField]
  split
  · nofun
  split
  · nofun
  · nofun

lemma ParsedHeader.checkFraming_ne_complete (h : ParsedHeader) (responseToHead : Bool) :
    h.checkFraming responseToHead ≠ .error .complete := by
  rw [ParsedHeader.checkFraming]
  split
  · exact ite_ne_complete nofun nofun
  · exact ite_ne_complete nofun nofun

/-- `kComplete` is never the answer of an early return. -/
lemma parseHeaderArea_ne_complete (responseToHead : Bool) (bytes : Bytes) :
    parseHeaderArea responseToHead bytes ≠ .error .complete := by
  refine ite_ne_complete nofun ?_
  split
  · exact ite_ne_complete nofun nofun
  refine ite_ne_complete nofun (bind_ne_complete (parseStatusLine_ne_complete _) fun _ => ?_)
  refine bind_ne_complete (lineLoop_ne_complete parseHeaderField_ne_complete
    (unfinishedField_ne_complete _ _) _ _ _) fun out => ?_
  exact bind_ne_complete (out.1.checkFraming_ne_complete _) fun _ => nofun

end AegisGate.Http
