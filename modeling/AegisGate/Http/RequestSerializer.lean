import AegisGate.Http.RequestParser

/-!
# The request serializer

`SerializeRequest` of `src/http/HttpRequestSerializer.cpp`, which writes the request of an
attempt, and `StripHopByHopHeaders` of `src/proxy/ProxyTransaction.cpp`, which the request goes
through before. The serializer checks the request with tests of its own: the target against the
URI grammar, the fields one by one, and the sizes with the lines it adds.

The fields of a request are a hash map. A loop over them visits them in an order of its own,
which is the argument `order` here.
-/

namespace AegisGate.Http
open List

/-- `TryAddWithinLimit`, with the new total. -/
def tryAddWithinLimit (limit total value : ℕ) : Option ℕ :=
  if limit - total < value then none else some (total + value)

/-- A chain of `TryAddWithinLimit`. -/
def addWithinLimit (limit total : ℕ) (values : List ℕ) : Option ℕ :=
  values.foldlM (tryAddWithinLimit limit) total

/-- `IsHexDigit`. -/
def isHexDigit (c : UInt8) : Bool := (48 ≤ c && c ≤ 57) || (65 ≤ c && c ≤ 70) || (97 ≤ c && c ≤ 102)

/-- `IsUnreserved`. -/
def isUnreserved (c : UInt8) : Bool := isalnum c || c == 45 || c == 46 || c == 95 || c == 126

/-- `IsSubDelimiter`: one of `!$&'()*+,;=`. -/
def isSubDelimiter (c : UInt8) : Bool :=
  [33, 36, 38, 39, 40, 41, 42, 43, 44, 59, 61].contains c

/-- The bytes that stand for themselves in a path, and `?` in a query. -/
def isUriByte (isQuery : Bool) (c : UInt8) : Bool :=
  isUnreserved c || isSubDelimiter c || c == 58 || c == 64 || c == 47 || (isQuery && c == 63)

/-- `IsValidUriComponent`. -/
def isValidUriComponent (isQuery : Bool) : Bytes → Bool
  | [] => true
  | c :: rest =>
    if isUriByte isQuery c then isValidUriComponent isQuery rest
    else match rest with
      | high :: low :: rest =>
        c == 37 && isHexDigit high && isHexDigit low && isValidUriComponent isQuery rest
      | _ => false

/-- `IsValidTarget`: a path, with a query or without. -/
def isValidTarget (target : Bytes) : Bool :=
  if target.head? != some 47 then false
  else match find [63] target with
    | none => isValidUriComponent false target
    | some queryStart =>
      isValidUriComponent false (target.take queryStart) &&
        isValidUriComponent true (target.drop (queryStart + 1))

/-- The sizes `SerializeRequest` keeps while it reads the fields. -/
structure FieldTally where
  headerBytes : ℕ := 0
  hostCount : ℕ := 0
  deriving DecidableEq

/-- The fields that frame a message. -/
def framingNames : List Bytes := ["content-length", "transfer-encoding", "connection"].map ascii

/-- One turn of the loop over the headers. -/
def tallyField (tally : FieldTally) (field : Bytes × Bytes) : Except String FieldTally :=
  if !isToken field.1 || !isValidFieldValue field.2 then .error "invalid HTTP request header"
  else match addWithinLimit kMaxHeaderBytes tally.headerBytes
      [field.1.length, 2, field.2.length, 2] with
    | none => .error "HTTP request headers exceed limit"
    | some headerBytes =>
      let lowerName := lowerAscii field.1
      let hostCount := if lowerName = ascii "host" then tally.hostCount + 1 else tally.hostCount
      if framingNames.contains lowerName then
        .error "HTTP request framing is managed by Serialize"
      else .ok { headerBytes, hostCount }

/-- The lines the serializer adds, with the blank line. -/
def contentLengthLine (request : HttpRequest) : Bytes :=
  ascii "Content-Length: " ++ ascii (toString request.body.length) ++ crlf

/-- The line that is added. -/
def connectionLine : Bytes := ascii "Connection: keep-alive" ++ crlf

/-- A field as it is written. -/
def fieldLine (field : Bytes × Bytes) : Bytes := field.1 ++ ascii ": " ++ field.2 ++ crlf

/-- What is written for a request that passes the tests. -/
def requestBytes (request : HttpRequest) (order : Headers) : Bytes :=
  request.method ++ ascii " " ++ request.target ++ ascii " " ++ request.version ++ crlf
    ++ order.flatMap fieldLine ++ contentLengthLine request ++ connectionLine ++ crlf
    ++ request.body

/-- `SerializeRequest`; `order` is the order of the hash map. -/
def serializeRequest (request : HttpRequest) (order : Headers) : Except String Bytes :=
  if !isToken request.method || !isValidTarget request.target
      || request.version != ascii "HTTP/1.1"
      || decide (kMaxRequestBodyBytes < request.body.length) then
    .error "invalid HTTP request"
  else if (addWithinLimit kMaxRequestLineBytes 0 [request.method.length, 1, request.target.length,
      1, request.version.length]).isNone then
    .error "HTTP request line exceeds limit"
  else
    match order.foldlM tallyField {} with
    | .error message => .error message
    | .ok tally =>
      if tally.hostCount ≠ 1 then
        .error "HTTP/1.1 request requires exactly one Host header"
      else if (addWithinLimit kMaxHeaderBytes tally.headerBytes [(contentLengthLine request).length,
          connectionLine.length, crlf.length]).isNone then
        .error "HTTP request headers exceed limit"
      else .ok (requestBytes request order)

namespace HttpRequest

/-- The fields of a request. -/
def fields (r : HttpRequest) : Headers := r.headers.entries.map fun field => (field.1, field.2)

/-- `StripHopByHopHeaders` of a request. -/
def stripHopByHopHeaders (r : HttpRequest) : HttpRequest :=
  let names := hopByHopNames r.fields
  { r with headers :=
      ⟨r.headers.entries.filter fun field => !names.contains (lowerAscii field.1),
        r.headers.nodupKeys.sublist filter_sublist⟩ }

lemma fields_stripHopByHopHeaders (r : HttpRequest) :
    r.stripHopByHopHeaders.fields = Http.stripHopByHopHeaders r.fields := by
  simp only [fields, stripHopByHopHeaders, Http.stripHopByHopHeaders, filter_map]
  rfl

lemma nodup_names (r : HttpRequest) : (r.fields.map Prod.fst).Nodup := by
  have hkeys : r.fields.map Prod.fst = r.headers.keys := by
    simp [fields, AList.keys, keys, Function.comp_def]
  rw [hkeys]
  exact r.headers.keys_nodup

lemma mem_fields_iff (r : HttpRequest) (name value : Bytes) :
    (name, value) ∈ r.fields ↔ r.headers.lookup name = some value := by
  rw [← Option.mem_def, AList.mem_lookup_iff, fields, mem_map]
  constructor
  · rintro ⟨⟨name', value'⟩, hmem, heq⟩
    cases heq
    exact hmem
  · intro hmem
    exact ⟨⟨name, value⟩, hmem, rfl⟩

end HttpRequest

/-! ## Sizes -/

lemma addWithinLimit_eq (values : List ℕ) {limit total : ℕ} (h : total + values.sum ≤ limit) :
    addWithinLimit limit total values = some (total + values.sum) := by
  induction values generalizing total with
  | nil => rfl
  | cons value values ih =>
    rw [sum_cons] at h
    have hstep : tryAddWithinLimit limit total value = some (total + value) := by
      rw [tryAddWithinLimit, if_neg (by omega)]
    rw [addWithinLimit, foldlM_cons, hstep, sum_cons, ← Nat.add_assoc]
    exact ih (by omega)

/-- What a field adds to the header. -/
def fieldBytes (field : Bytes × Bytes) : ℕ := field.1.length + 2 + field.2.length + 2

/-- The field passes the checks. -/
def ForwardableField (field : Bytes × Bytes) : Prop :=
  isToken field.1 ∧ isValidFieldValue field.2 ∧ lowerAscii field.1 ∉ framingNames

/-- The field is `Host`. -/
def isHost (field : Bytes × Bytes) : Bool := lowerAscii field.1 == ascii "host"

lemma foldlM_tallyField {order : Headers} (tally : FieldTally)
    (hfields : ∀ field ∈ order, ForwardableField field)
    (hsize : tally.headerBytes + (order.map fieldBytes).sum ≤ kMaxHeaderBytes) :
    order.foldlM tallyField tally = .ok
      { headerBytes := tally.headerBytes + (order.map fieldBytes).sum
        hostCount := tally.hostCount + order.countP isHost } := by
  induction order generalizing tally with
  | nil => rfl
  | cons field order ih =>
    obtain ⟨hname, hvalue, hframing⟩ := hfields field mem_cons_self
    rw [map_cons, sum_cons] at hsize
    have hsum : [field.1.length, 2, field.2.length, 2].sum = fieldBytes field := by
      simp [fieldBytes]
      omega
    have hadd : addWithinLimit kMaxHeaderBytes tally.headerBytes
        [field.1.length, 2, field.2.length, 2] = some (tally.headerBytes + fieldBytes field) := by
      rw [← hsum]
      exact addWithinLimit_eq _ (by omega)
    have hstep : tallyField tally field = .ok
        { headerBytes := tally.headerBytes + fieldBytes field
          hostCount := tally.hostCount + if isHost field then 1 else 0 } := by
      rw [tallyField, if_neg (by simp [hname, hvalue]), hadd]
      dsimp only
      rw [if_neg (by simpa using hframing)]
      by_cases hhost : lowerAscii field.1 = ascii "host" <;> simp [isHost, hhost]
    rw [foldlM_cons, hstep]
    refine (ih _ (fun g hg => hfields g (mem_cons_of_mem field hg)) ?_).trans ?_
    · rw [Nat.add_assoc]
      exact hsize
    rw [map_cons, sum_cons, countP_cons]
    simp only [Nat.add_assoc, Nat.add_comm (if isHost field then 1 else 0)]

/-! ## Requests that are written -/

/-- The request passes the checks of `SerializeRequest`. -/
structure Serializable (request : HttpRequest) (order : Headers) : Prop where
  method : isToken request.method
  target : isValidTarget request.target
  version : request.version = ascii "HTTP/1.1"
  body : request.body.length ≤ kMaxRequestBodyBytes
  line : request.method.length + 1 + request.target.length + 1 + request.version.length ≤
    kMaxRequestLineBytes
  fields : ∀ field ∈ order, ForwardableField field
  host : order.countP isHost = 1
  size : (order.map fieldBytes).sum + (contentLengthLine request).length + connectionLine.length +
    crlf.length ≤ kMaxHeaderBytes

lemma serializeRequest_eq {request : HttpRequest} {order : Headers}
    (h : Serializable request order) :
    serializeRequest request order = .ok (requestBytes request order) := by
  have hline : addWithinLimit kMaxRequestLineBytes 0 [request.method.length, 1,
      request.target.length, 1, request.version.length] ≠ none := by
    rw [addWithinLimit_eq]
    · exact Option.some_ne_none _
    · have := h.line
      simp only [sum_cons, sum_nil]
      omega
  have htally := foldlM_tallyField {} h.fields (by have := h.size; dsimp only; omega)
  have hadded : addWithinLimit kMaxHeaderBytes (0 + (order.map fieldBytes).sum)
      [(contentLengthLine request).length, connectionLine.length, crlf.length] ≠ none := by
    rw [addWithinLimit_eq]
    · exact Option.some_ne_none _
    · have := h.size
      simp only [sum_cons, sum_nil]
      omega
  rw [serializeRequest, if_neg (by simp [h.method, h.target, h.version, h.body]),
    if_neg (by simpa using hline), htally]
  dsimp only
  rw [if_neg (by simp [h.host]), if_neg (by simpa using hadded)]

end AegisGate.Http
