import AegisGate.Http.AcceptedRequest
import AegisGate.Http.SerializedRequest
import AegisGate.Proxy.Accounting
import AegisGate.Routing.RouteTable

/-!
# Which requests can be forwarded

Three functions check a request before it is sent upstream: the parser that takes it from the
client, the route table, and the serializer that writes it for the upstream. They do not agree.
The parser and the route table accept targets that are no URI, such as `/|` or `/%zz`; a
`Connection` field can nominate `Host`, which is then stripped; and the serializer adds lines to
a header that may already be as large as allowed. In each of these cases `SerializeRequest`
throws, `Start` finishes the exchange with `kProtocolError`, and the transaction reports a
failure of the endpoint.

Every other accepted request is written.
-/

namespace AegisGate.Proxy
open Http Routing Health HttpRequestParser List AList Prod

/-- The request an attempt sends: `StartUpstream` strips a copy of it, and `Start` of the
connection serializes that, or finishes with `kProtocolError`. `connect` is how the call ends
otherwise. -/
def startOutcome (request : HttpRequest) (order : Headers) (connect : StartOutcome) :
    StartOutcome :=
  match serializeRequest request.stripHopByHopHeaders order with
  | .error _ => .failed .protocolError
  | .ok _ => connect

/-- The condition: the target is a URI path with a query, `Host` is not nominated as a
hop-by-hop field, and the header fits with the lines the serializer adds. -/
structure Forwardable (request : HttpRequest) : Prop where
  target : isValidTarget request.target
  host : ascii "host" ∉ hopByHopNames request.fields
  size : (request.stripHopByHopHeaders.fields.map fieldBytes).sum +
    (contentLengthLine request).length + connectionLine.length + crlf.length ≤ kMaxHeaderBytes

/-! ## The fields that remain -/

variable {request : HttpRequest}

lemma forwardableField_of_stripped (hwf : request.WellFormed) {field : Bytes × Bytes}
    (hmem : field ∈ request.stripHopByHopHeaders.fields) : ForwardableField field := by
  rw [HttpRequest.fields_stripHopByHopHeaders, stripHopByHopHeaders, mem_filter] at hmem
  obtain ⟨hmem, hkept⟩ := hmem
  have hfield := hwf.fields field hmem
  refine ⟨hfield.name, hfield.value, fun hframing => ?_⟩
  have hsub : framingNames ⊆ hopByHopFields := by decide
  have hname : lowerAscii field.1 ∈ hopByHopNames request.fields :=
    mem_append_left _ (hsub hframing)
  simp [hname] at hkept

lemma countP_isHost_stripped (hwf : request.WellFormed)
    (hhost : ascii "host" ∉ hopByHopNames request.fields) {value : Bytes}
    (hlookup : request.headers.lookup (ascii "host") = some value) :
    request.stripHopByHopHeaders.fields.countP isHost = 1 := by
  have hmem : (ascii "host", value) ∈ request.stripHopByHopHeaders.fields := by
    rw [HttpRequest.fields_stripHopByHopHeaders, stripHopByHopHeaders, mem_filter]
    refine ⟨mem_map.mpr ⟨⟨ascii "host", value⟩, mem_lookup_iff.mp hlookup, rfl⟩, ?_⟩
    have hlower : lowerAscii (ascii "host") = ascii "host" := by decide
    simpa [hlower] using hhost
  have hlower : ∀ field ∈ request.stripHopByHopHeaders.fields,
      (isHost field ↔ (field.1 == ascii "host")) := by
    intro field hfield
    rw [HttpRequest.fields_stripHopByHopHeaders] at hfield
    rw [isHost, (hwf.fields field (mem_of_mem_filter hfield)).lower]
  calc request.stripHopByHopHeaders.fields.countP isHost
      = request.stripHopByHopHeaders.fields.countP ((· == ascii "host") ∘ fst) :=
        countP_congr hlower
    _ = (request.stripHopByHopHeaders.fields.map fst).count (ascii "host") := by
        rw [count, countP_map]
    _ = 1 := count_eq_one_of_mem (HttpRequest.nodup_names _) (mem_map_of_mem hmem)

lemma exists_host_of_match {config : Config} {index : ℕ}
    (hhosts : ∀ route ∈ config.routes, route.host ≠ "")
    (hmatch : RouteTable.match_ config (request.header (ascii "host")) request.target =
      some index) : ∃ value, request.headers.lookup (ascii "host") = some value := by
  obtain ⟨_, route, hroute, hmatches, _⟩ := RouteTable.match_some hmatch
  obtain ⟨hequal, _⟩ := Bool.and_eq_true_iff.mp hmatches
  have hlower : lowerAscii (ascii "host") = ascii "host" := by decide
  by_contra hnone
  rw [not_exists] at hnone
  have hempty : request.header (ascii "host") = [] := by
    rw [HttpRequest.header, hlower, Option.eq_none_iff_forall_ne_some.mpr hnone]
    rfl
  have hbytes : textBytes route.host = [] := by
    simpa [equalsIgnoreCase, hempty, lowerAscii] using hequal
  refine hhosts route (mem_of_getElem? hroute) (String.toByteArray_eq_empty_iff.mp ?_)
  exact ByteArray.ext (Array.toList_eq_nil_iff.mp hbytes)

/-- What the serializer asks for is asked of every request of an attempt. -/
lemma forwardable_of_serializable {order : Headers}
    (horder : order.Perm request.stripHopByHopHeaders.fields)
    (h : Serializable request.stripHopByHopHeaders order) : Forwardable request where
  target := h.target
  host := by
    intro hnominated
    obtain ⟨field, hfield, hhost⟩ := countP_pos_iff.mp (h.host ▸ Nat.one_pos)
    have hname : lowerAscii field.1 = ascii "host" := by simpa [isHost] using hhost
    have hkept := horder.mem_iff.mp hfield
    rw [HttpRequest.fields_stripHopByHopHeaders, stripHopByHopHeaders, mem_filter] at hkept
    simp [hname, hnominated] at hkept
  size := by
    rw [← (horder.map fieldBytes).sum_eq]
    exact h.size

/-! ## The request of an attempt -/

/-- The request a fresh parser takes from the front of its input. -/
def requestOf (input : Bytes) : HttpRequest := (parse {} input).1.request

/-- **Which request content makes an attempt fail before a byte is sent.** Every complete request
with a route, whatever the order of its fields, is serialized exactly when it meets the condition.
Then how the call ends is a matter of the connection alone; otherwise it fails at once. -/
theorem serialized_iff_forwardable (input : Bytes) {config : Config} {index : ℕ} {order : Headers}
    (hcomplete : (parse {} input).1.result = .complete)
    (hhosts : ∀ route ∈ config.routes, route.host ≠ "")
    (hmatch : RouteTable.match_ config ((requestOf input).header (ascii "host"))
      (requestOf input).target = some index)
    (horder : order.Perm (requestOf input).stripHopByHopHeaders.fields) :
    ((∃ bytes, serializeRequest (requestOf input).stripHopByHopHeaders order = .ok bytes) ↔
        Forwardable (requestOf input)) ∧
      (Forwardable (requestOf input) →
        ∀ connect, startOutcome (requestOf input) order connect = connect) ∧
      (¬ Forwardable (requestOf input) →
        ∀ connect, startOutcome (requestOf input) order connect = .failed .protocolError) := by
  have hwf : (requestOf input).WellFormed := wellFormed_of_complete hcomplete
  obtain ⟨value, hlookup⟩ := exists_host_of_match hhosts hmatch
  have hserializable (hforward : Forwardable (requestOf input)) :
      Serializable (requestOf input).stripHopByHopHeaders order :=
    { method := hwf.method
      target := hforward.target
      version := hwf.version
      body := hwf.body
      line := hwf.line
      fields := fun field hfield => forwardableField_of_stripped hwf (horder.mem_iff.mp hfield)
      host := (horder.countP_eq isHost).trans (countP_isHost_stripped hwf hforward.host hlookup)
      size := by
        rw [(horder.map fieldBytes).sum_eq]
        exact hforward.size }
  have hiff : (∃ bytes, serializeRequest (requestOf input).stripHopByHopHeaders order = .ok bytes) ↔
      Forwardable (requestOf input) := by
    constructor
    · rintro ⟨bytes, hok⟩
      exact forwardable_of_serializable horder (serializable_of_ok hok).1
    · intro hforward
      exact ⟨_, serializeRequest_eq (hserializable hforward)⟩
  refine ⟨hiff, fun hforward connect => ?_, fun hnot connect => ?_⟩
  · rw [startOutcome, serializeRequest_eq (hserializable hforward)]
  · rw [startOutcome]
    cases hserialize : serializeRequest (requestOf input).stripHopByHopHeaders order with
    | error message => rfl
    | ok bytes => exact absurd (hiff.mp ⟨bytes, hserialize⟩) hnot

def oneRoute : Config := { routes := [{ name := "all", host := "a", pathPrefix := "/" }] }

/-- A request with an escape in its query and a nominated field. -/
def strippedInput : Bytes :=
  ascii "GET /b?c=%20 HTTP/1.1\r\nHost: a\r\nConnection: close, x-hop\r\nX-Hop: 1\r\n\r\n"

def strippedRequest : HttpRequest where
  method := ascii "GET"
  target := ascii "/b?c=%20"
  version := ascii "HTTP/1.1"
  headers := ((insert (ascii "host") (ascii "a") ∅).insert (ascii "connection")
    (ascii "close, x-hop")).insert (ascii "x-hop") (ascii "1")

lemma parse_strippedInput : parse {} strippedInput =
    ({ result := .complete, request := strippedRequest }, []) := by rfl

theorem startOutcome_strippedInput :
    startOutcome (requestOf strippedInput) (requestOf strippedInput).stripHopByHopHeaders.fields
      .pending = .pending := by
  have hrequest : requestOf strippedInput = strippedRequest := by
    rw [requestOf, parse_strippedInput]
  have hmatch : RouteTable.match_ oneRoute ((requestOf strippedInput).header (ascii "host"))
      (requestOf strippedInput).target = some 0 := by
    rw [hrequest]
    decide +kernel
  have hforward : Forwardable (requestOf strippedInput) := by
    rw [hrequest]
    exact ⟨by decide +kernel, by decide +kernel, by decide +kernel⟩
  exact (serialized_iff_forwardable strippedInput (by rw [parse_strippedInput]) (by decide) hmatch
    (.refl _)).2.1 hforward .pending

def barInput : Bytes := ascii "GET /| HTTP/1.1\r\nHost: a\r\n\r\n"

def barRequest : HttpRequest where
  method := ascii "GET"
  target := ascii "/|"
  version := ascii "HTTP/1.1"
  headers := insert (ascii "host") (ascii "a") ∅

lemma parse_barInput : parse {} barInput =
    ({ result := .complete, request := barRequest }, []) := by rfl

/-- The parser accepts the target `/|` and the route table finds a route for it. The attempt
fails at once, the transaction ends, and a failure of the endpoint is published. -/
theorem startOutcome_fails_target : (parse {} barInput).1.result = .complete ∧
      RouteTable.match_ oneRoute ((requestOf barInput).header (ascii "host"))
        (requestOf barInput).target = some 0 ∧
      serializeRequest (requestOf barInput).stripHopByHopHeaders
        (requestOf barInput).stripHopByHopHeaders.fields = .error "invalid HTTP request" ∧
      ∃ x result, Exchange.start Exchange.getRequest Exchange.waitingClient {} true 0
          { decision := Exchange.permittedCandidate
            outcome := startOutcome (requestOf barInput)
              (requestOf barInput).stripHopByHopHeaders.fields .pending } [] = some x ∧
        x.tx.finished ∧ Effect.published 0 result ∈ x.tx.ledger.trace ∧
        result.success = false := by
  have hrequest : requestOf barInput = barRequest := by rw [requestOf, parse_barInput]
  have houtcome : startOutcome barRequest barRequest.stripHopByHopHeaders.fields .pending =
      .failed .protocolError := by decide +kernel
  rw [hrequest, parse_barInput, houtcome]
  refine ⟨rfl, by decide +kernel, by decide +kernel, ?_⟩
  exact ⟨_, { routeIndex := 0, endpointIndex := 0, permit := {}, success := false }, rfl, rfl,
    by decide, rfl⟩

example : let request := requestOf (ascii "GET / HTTP/1.1\r\nHost: a\r\nConnection: host\r\n\r\n")
    serializeRequest request.stripHopByHopHeaders request.stripHopByHopHeaders.fields =
      .error "HTTP/1.1 request requires exactly one Host header" := by decide +kernel

end AegisGate.Proxy
