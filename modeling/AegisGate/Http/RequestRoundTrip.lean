import AegisGate.Http.FieldForwarding

/-!
# What is sent upstream is read back

The serializer's output is a request for the same parser, whatever bytes follow it: one message
with the method, the target and the body of the original, and with its fields except for the
hop-by-hop ones. No name, value, target or body can add a field or a message to it.
-/

namespace AegisGate.Http
open List HttpRequestParser

/-! ## The request line -/

lemma length_pos_of_isValidTarget {target : Bytes} (h : isValidTarget target) :
    0 < target.length := by
  cases target with
  | nil => cases h
  | cons c target => exact Nat.succ_pos _

variable {order : Headers}

lemma parseRequestLine_forwardedStart {request : HttpRequest} (h : Serializable request order) :
    parseRequestLine (forwardedStart request) = .ok (request.method, request.target) := by
  have hmethod : 32 ∉ request.method := not_mem_of_isToken h.method (by decide)
  have htarget : 32 ∉ request.target := not_mem_of_isValidTarget h.target (by decide)
  have hpos := length_pos_of_isValidTarget h.target
  have hline : forwardedStart request =
      request.method ++ 32 :: (request.target ++ 32 :: ascii "HTTP/1.1") := by
    simp only [forwardedStart, h.version, append_assoc]
    rfl
  have hfirst : find [32] (forwardedStart request) = some request.method.length := by
    rw [hline]
    exact find_singleton_append hmethod _
  have hafter : (forwardedStart request).drop (request.method.length + 1) =
      request.target ++ 32 :: ascii "HTTP/1.1" := by
    rw [hline, ← drop_drop, drop_left]
    rfl
  have hsecond : findFrom [32] (request.method.length + 1) (forwardedStart request) =
      some (request.target.length + (request.method.length + 1)) := by
    rw [findFrom, hafter, find_singleton_append htarget]
    rfl
  have hversion : (forwardedStart request).drop
      (request.target.length + (request.method.length + 1) + 1) = ascii "HTTP/1.1" := by
    rw [Nat.add_right_comm, Nat.add_comm _ (request.method.length + 1), ← drop_drop, hafter,
      ← drop_drop, drop_left]
    rfl
  have hthird : findFrom [32] (request.target.length + (request.method.length + 1) + 1)
      (forwardedStart request) = none := by
    rw [findFrom, hversion]
    rfl
  have htake : (forwardedStart request).take request.method.length = request.method := by
    rw [hline, take_left]
  have hne : (request.method.length == 0) = false := by
    have htoken := h.method
    rw [isToken, Bool.and_eq_true] at htoken
    simpa using htoken.1
  rw [parseRequestLine, hfirst]
  dsimp only
  rw [hsecond]
  dsimp only
  rw [hthird, hversion, htake, hne, h.method, if_neg]
  · rw [hafter, show request.target.length + (request.method.length + 1) - request.method.length - 1
      = request.target.length by omega, take_left]
  · simp only [Option.isSome_none, Bool.false_or, bne_self_eq_false, Bool.or_false, Bool.not_true,
      beq_iff_eq]
    omega

/-! ## The field lines -/

lemma parseField_writtenLine {name value : Bytes} (hname : isToken name)
    (hvalue : isValidFieldValue value) (f : Fields) :
    parseField (writtenLine (name, value)) f =
      (if lowerAscii name = ascii "content-length" then f.takeLength (trimOws value) else .ok f)
        >>= fun f =>
          if lowerAscii name = ascii "transfer-encoding" ∧ containsChunked (trimOws value) then
            .error .unsupported
          else .ok (f.store (lowerAscii name) (trimOws value)) := by
  have hcolon : 58 ∉ name := not_mem_of_isToken hname (by decide)
  have hraw := rawName_writtenLine hcolon value
  obtain ⟨hfield, htrimmed⟩ := fieldName_writtenLine hcolon value
  rw [parseField_eq, hfield, htrimmed, hraw.1, hraw.2, if_neg, if_neg]
  · rw [isValidFieldValue] at hvalue ⊢
    simp [hvalue]
  · simp [hname, writtenLine, ascii]

lemma parseField_writtenLine_other {name value : Bytes} (hname : isToken name)
    (hvalue : isValidFieldValue value) (hlength : lowerAscii name ≠ ascii "content-length")
    (hcoding : lowerAscii name ≠ ascii "transfer-encoding") (f : Fields) :
    parseField (writtenLine (name, value)) f = .ok (f.store (lowerAscii name) (trimOws value)) := by
  rw [parseField_writtenLine hname hvalue, if_neg hlength]
  simp only [hcoding, false_and, if_false]
  rfl

lemma parseField_writtenLine_length {n : ℕ} (hn : n ≤ kMaxRequestBodyBytes) {f : Fields}
    (hf : f.contentLength = none) :
    ∃ g, parseField (writtenLine (ascii "Content-Length", ascii (toString n))) f = .ok g := by
  have hname : lowerAscii (ascii "Content-Length") = ascii "content-length" := by decide
  have hcoding : ascii "content-length" ≠ ascii "transfer-encoding" := by decide
  have htake : f.takeLength (ascii (toString n)) = .ok { f with contentLength := some n } := by
    rw [Fields.takeLength, hf, parseContentLength_toString (Nat.lt_of_le_of_lt hn (by decide))]
    exact if_neg (Nat.not_lt.mpr hn)
  rw [parseField_writtenLine (by decide) (isValidFieldValue_toString n), trimOws_toString, hname,
    if_pos rfl, htake]
  simp only [hcoding, false_and, if_false]
  exact ⟨_, rfl⟩

lemma exists_parseLines_map (h : ∀ field ∈ order, ForwardableField field) (f : Fields) :
    ∃ g, foldLines parseField (order.map writtenLine) f = .ok g ∧
      g.contentLength = f.contentLength := by
  induction order generalizing f with
  | nil => exact ⟨f, rfl, rfl⟩
  | cons field order ih =>
    obtain ⟨hname, hvalue, hframing⟩ := h field mem_cons_self
    have hne : ∀ name ∈ framingNames, lowerAscii field.1 ≠ name := by
      rintro name hmem rfl
      exact hframing hmem
    have hfield := parseField_writtenLine_other hname hvalue (hne _ (by decide))
      (hne _ (by decide)) f
    obtain ⟨g, hparse, hlength⟩ := ih (fun g hg => h g (mem_cons_of_mem field hg))
      (f.store (lowerAscii field.1) (trimOws field.2))
    refine ⟨g, ?_, hlength.trans (f.contentLength_store _ _)⟩
    rw [map_cons, foldLines_cons, hfield]
    exact hparse

lemma exists_parseLines_forwardedLines {request : HttpRequest} (h : Serializable request order) :
    ∃ fields, foldLines parseField (forwardedLines request order) {} = .ok fields := by
  obtain ⟨g, hparse, hnone⟩ := exists_parseLines_map h.fields {}
  obtain ⟨g', hlength⟩ := parseField_writtenLine_length h.body hnone
  have hconnection : parseField (writtenLine (ascii "Connection", ascii "keep-alive")) g' =
      .ok (g'.store (ascii "connection") (ascii "keep-alive")) :=
    parseField_writtenLine_other (by decide) (by decide) (by decide) (by decide) g'
  have hlines : forwardedLines request order = (order.map writtenLine ++
      [writtenLine (ascii "Content-Length", ascii (toString request.body.length))]) ++
        [writtenLine (ascii "Connection", ascii "keep-alive")] := by
    rw [append_assoc]
    rfl
  have hfirst := (foldLines_append hparse _).trans ((foldLines_singleton _ g).trans hlength)
  refine ⟨g'.store (ascii "connection") (ascii "keep-alive"), ?_⟩
  rw [hlines, foldLines_append hfirst, foldLines_singleton, hconnection]

lemma length_joinLines_forwardedLines (request : HttpRequest) (order : Headers) :
    (joinLines (forwardedLines request order)).length + crlf.length =
      (order.map fieldBytes).sum + (contentLengthLine request).length + connectionLine.length +
        crlf.length := by
  have hfields : (joinLines (order.map writtenLine)).length = (order.map fieldBytes).sum := by
    induction order with
    | nil => rfl
    | cons field order ih =>
      simp only [map_cons, joinLines_cons, length_append, ih, sum_cons, fieldBytes,
        writtenLine, show crlf.length = 2 from rfl, show (ascii ": ").length = 2 from rfl]
      omega
  simp only [forwardedLines, joinLines_append, length_append, hfields, joinLines_cons,
    joinLines_nil, contentLengthLine, connectionLine, length_nil]
  omega

/-! ## The round trip -/

section
variable {request : HttpRequest} {client : MessageHead} (h : ParsedFrom request client)
  {order : Headers} (horder : order.Perm request.stripHopByHopHeaders.fields) {fields : Fields}
  (hfields : foldLines parseField (forwardedLines request.stripHopByHopHeaders order) {} =
    .ok fields)
include h horder hfields

lemma lookup_forwardedLines (name : Bytes) : fields.headers.lookup name =
    if name = ascii "content-length" then some (ascii (toString request.body.length))
    else if name = ascii "connection" then some (ascii "keep-alive")
    else if name ∈ hopByHopFields ++ connectionTokens (request.header (ascii "connection")) then
      none
    else request.headers.lookup name := by
  have hhop : ∀ hop ∈ hopByHopFields, lowerAscii hop ∈ hopByHopNames request.fields := by
    intro hop hmem
    rw [h.mem_hopByHopNames_iff]
    left
    revert hop
    decide
  have hdropped : name ∈ hopByHopFields ++ connectionTokens (request.header (ascii "connection")) ↔
      name ∈ hopByHopNames request.fields := by
    rw [mem_append, h.mem_hopByHopNames_iff]
  rw [lookup_parseLines hfields, lineValues_forwardedLines horder (h.canonicalField horder),
    HttpRequest.lookup_stripHopByHopHeaders]
  by_cases hlength : name = ascii "content-length"
  · subst hlength
    rw [if_pos (hhop _ (by decide)), if_pos rfl, if_neg (by decide), if_pos rfl]
    rfl
  by_cases hconnection : name = ascii "connection"
  · subst hconnection
    rw [if_pos (hhop _ (by decide)), if_neg (by decide), if_pos rfl, if_neg (by decide), if_pos rfl]
    rfl
  rw [if_neg hlength, if_neg hconnection, if_neg (Ne.symm hlength), if_neg (Ne.symm hconnection),
    append_nil, append_nil]
  simp only [hdropped]
  cases hlookup : request.headers.lookup name with
  | none => simp
  | some value =>
    rw [h.lower hlookup]
    split <;> rfl

lemma contentLength_forwardedLines : fields.contentLength = some request.body.length := by
  have hbody : request.body.length < 2 ^ 64 :=
    Nat.lt_of_le_of_lt h.wellFormed.body (by decide)
  have hvalues := lineValues_forwardedLines horder (h.canonicalField horder)
    (ascii "content-length")
  rw [HttpRequest.lookup_stripHopByHopHeaders, if_pos, if_pos rfl, if_neg (by decide)] at hvalues
  · rcases contentLength_parseLines hfields with ⟨hnil, _⟩ | ⟨value, hvalue, _, hparsed, _⟩
    · rw [hvalues] at hnil
      cases hnil
    · rw [hvalues] at hvalue
      cases hvalue
      rw [hparsed]
      exact parseContentLength_toString hbody
  · rw [h.mem_hopByHopNames_iff]
    exact .inl (by decide)

end

lemma parse_requestBytes {request : HttpRequest} {client : MessageHead}
    (h : ParsedFrom request client) (horder : order.Perm request.stripHopByHopHeaders.fields)
    (hserializable : Serializable request.stripHopByHopHeaders order) (rest : Bytes) :
    ∃ fields,
      foldLines parseField (forwardedLines request.stripHopByHopHeaders order) {} = .ok fields ∧
      parse {} (requestBytes request.stripHopByHopHeaders order ++ rest) =
        ({ result := .complete, request := { request with headers := fields.headers } }, rest) := by
  obtain ⟨fields, hfields⟩ := exists_parseLines_forwardedLines hserializable
  have hlength := contentLength_forwardedLines h horder hfields
  have hfeeds : ∀ line ∈ (forwardedHead hserializable).startLine ::
      (forwardedHead hserializable).fieldLines, 10 ∉ line :=
    forall_mem_cons.mpr ⟨not_mem_forwardedStart hserializable (.inr rfl),
      not_mem_forwardedLines hserializable.fields (.inr rfl)⟩
  have hstart : (forwardedHead hserializable).startLine.length ≤ kMaxRequestLineBytes := by
    refine Nat.le_trans (Nat.le_of_eq ?_) hserializable.line
    simp [forwardedHead, forwardedStart, ascii]
    omega
  have hsize : (joinLines (forwardedHead hserializable).fieldLines).length + crlf.length ≤
      kMaxHeaderBytes :=
    Nat.le_trans (Nat.le_of_eq (length_joinLines_forwardedLines _ _)) hserializable.size
  have hbody : fields.contentLength.getD 0 ≤ (request.body ++ rest).length := by
    rw [hlength, length_append]
    exact Nat.le_add_right _ _
  have hparse := parseBytes_head (forwardedHead hserializable) hfeeds hstart hsize
    (parseRequestLine_forwardedStart hserializable) hfields hbody
  rw [hlength, Option.getD_some, take_left, ← h.wellFormed.version] at hparse
  have hinput : requestBytes request.stripHopByHopHeaders order ++ rest =
      (forwardedHead hserializable).bytes ++ (request.body ++ rest) := by
    rw [requestBytes_eq hserializable, append_assoc]
    rfl
  refine ⟨fields, hfields, ?_⟩
  rw [hinput, parse_of_ok hparse, ← drop_drop, drop_left, drop_left]
  rfl

/-- **What is sent upstream is read back.** For every complete request that is written after the
filter, in any order of its fields: a fresh parser on what is written, followed by anything,
completes, leaves what follows, and returns the same request. Its fields are those that are not
hop-by-hop and not listed in `Connection`, and the two the serializer adds. -/
theorem parse_serialized (p : HttpRequestParser) (input : Bytes) (hopen : p.result = .needMoreData)
    (hcomplete : (p.parse input).1.result = .complete) (order : Headers)
    (horder : order.Perm (p.parse input).1.request.stripHopByHopHeaders.fields) (out : Bytes)
    (hout : serializeRequest (p.parse input).1.request.stripHopByHopHeaders order = .ok out)
    (rest : Bytes) :
    let request := (p.parse input).1.request
    let again := HttpRequestParser.parse {} (out ++ rest)
    again.1.result = .complete ∧ again.2 = rest ∧
      again.1.request.method = request.method ∧ again.1.request.target = request.target ∧
      again.1.request.version = request.version ∧ again.1.request.body = request.body ∧
      ∀ name, again.1.request.headers.lookup name =
        if name = ascii "content-length" then some (ascii (toString request.body.length))
        else if name = ascii "connection" then some (ascii "keep-alive")
        else if name ∈ hopByHopFields ++ connectionTokens (request.header (ascii "connection")) then
          none
        else request.headers.lookup name := by
  obtain ⟨client, _, _, hparsed⟩ := exists_parsedFrom hopen hcomplete
  obtain ⟨hserializable, rfl⟩ := serializable_of_ok hout
  obtain ⟨fields, hfields, hagain⟩ := parse_requestBytes hparsed horder hserializable rest
  rw [hagain]
  exact ⟨rfl, rfl, rfl, rfl, rfl, rfl, lookup_forwardedLines hparsed horder hfields⟩

theorem parse_serialized_taggedHead :
    (HttpRequestParser.parse {} (requestBytes taggedRequest.stripHopByHopHeaders
      taggedRequest.stripHopByHopHeaders.fields ++ ascii "GET")).2 = ascii "GET" := by
  have hrequest : (parse {} taggedHead.bytes).1.request = taggedRequest := by
    rw [parse_taggedHead]
  exact (parse_serialized {} taggedHead.bytes rfl (by rw [parse_taggedHead])
    taggedRequest.stripHopByHopHeaders.fields (by rw [hrequest])
    (requestBytes taggedRequest.stripHopByHopHeaders taggedRequest.stripHopByHopHeaders.fields)
    (by rw [hrequest]; decide +kernel) (ascii "GET")).2.1

end AegisGate.Http
