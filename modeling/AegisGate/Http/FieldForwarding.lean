import AegisGate.Http.MessageFraming
import AegisGate.Http.SerializedRequest

/-!
# Which fields are forwarded

A request is parsed into a map from field names to values, loses its hop-by-hop fields and is
written again. Of a name that occurs on one line the value goes through. Of a name that occurs on
several lines only the last value does: `insert_or_assign` replaces the others, except for
`Connection`, whose values are joined and which is not forwarded.
-/

namespace AegisGate.Http
open HttpRequestParser List

/-! ## The lists of `Connection` -/

lemma splitOn_append_cons (value more : Bytes) :
    (value ++ 44 :: more).splitOn 44 = value.splitOn 44 ++ more.splitOn 44 := by
  induction value with
  | nil => simp [splitOn_cons_eq_if_modifyHead]
  | cons c value ih =>
    rw [cons_append, splitOn_cons_eq_if_modifyHead, splitOn_cons_eq_if_modifyHead c value, ih]
    by_cases hc : (c == 44)
    · simp [hc]
    · cases hsplit : value.splitOn 44 with
      | nil => exact absurd hsplit (splitOn_ne_nil 44 value)
      | cons token tokens => simp [hc]

lemma connectionTokens_comma (value more : Bytes) :
    connectionTokens (value ++ ascii "," ++ more) =
      connectionTokens value ++ connectionTokens more := by
  have hcomma : value ++ ascii "," ++ more = value ++ 44 :: more := by
    rw [append_assoc]
    rfl
  rw [hcomma]
  simp only [connectionTokens, listTokens, splitOn_append_cons, map_append, filterMap_append]

/-- The tokens of all `Connection` lines are those of the value that is stored. -/
lemma connectionTokens_foldl (values : List Bytes) (existing : Option Bytes) :
    (values.foldl (fun existing value => some (storedValue (ascii "connection") existing value))
      existing).elim [] connectionTokens =
      existing.elim [] connectionTokens ++ values.flatMap connectionTokens := by
  induction values generalizing existing with
  | nil => simp
  | cons value values ih =>
    rw [foldl_cons, ih, flatMap_cons, ← append_assoc]
    cases existing with
    | none => rfl
    | some existing => simp only [storedValue, if_true, Option.elim_some, connectionTokens_comma]

/-! ## Accepted requests -/

/-- The request was read from the head of the client. -/
structure ParsedFrom (request : HttpRequest) (client : MessageHead) : Prop where
  wellFormed : request.WellFormed
  fields : ∃ f, foldLines parseField client.fieldLines {} = .ok f ∧ request.headers = f.headers

lemma exists_parsedFrom {p : HttpRequestParser} {input : Bytes} (hopen : p.result = .needMoreData)
    (hcomplete : (p.parse input).1.result = .complete) :
    ∃ client rest, input = client.bytes ++ rest ∧ ParsedFrom (p.parse input).1.request client := by
  obtain ⟨length, hparse, _⟩ := parse_complete hopen hcomplete
  obtain ⟨head, rest, fields, hhead, _, hfields, _, hrequest, _⟩ := parseBytes_ok hparse
  exact ⟨head, rest, hhead, wellFormed_of_parseBytes hparse, fields, hfields, by rw [hrequest]⟩

lemma parsedFrom_of_complete {p : HttpRequestParser} {input rest : Bytes} {client : MessageHead}
    (hopen : p.result = .needMoreData) (hcomplete : (p.parse input).1.result = .complete)
    (hinput : input = client.bytes ++ rest) : ParsedFrom (p.parse input).1.request client := by
  obtain ⟨head, _, hhead, hparsed⟩ := exists_parsedFrom hopen hcomplete
  obtain ⟨rfl, _⟩ := MessageHead.bytes_append_inj (hhead.symm.trans hinput)
  exact hparsed

/-- A name whose lines are meant for the origin server. -/
def EndToEnd (client : MessageHead) (name : Bytes) : Prop :=
  lowerAscii name ∉ hopByHopFields ∧
    ∀ value ∈ client.values (ascii "connection"), lowerAscii name ∉ connectionTokens value

instance (client : MessageHead) (name : Bytes) : Decidable (EndToEnd client name) :=
  inferInstanceAs (Decidable (_ ∧ _))

namespace HttpRequest

lemma lookup_stripHopByHopHeaders (r : HttpRequest) (name : Bytes) :
    r.stripHopByHopHeaders.headers.lookup name =
      if lowerAscii name ∈ hopByHopNames r.fields then none else r.headers.lookup name := by
  ext value
  rw [← mem_fields_iff, fields_stripHopByHopHeaders, Http.stripHopByHopHeaders, mem_filter,
    mem_fields_iff]
  by_cases hname : lowerAscii name ∈ hopByHopNames r.fields
  · simp [hname]
  · simp [hname]

end HttpRequest

namespace ParsedFrom

variable {request : HttpRequest} {client : MessageHead} (h : ParsedFrom request client)
include h

lemma lookup (name : Bytes) : request.headers.lookup name =
    (lineValues name client.fieldLines).foldl
      (fun existing value => some (storedValue name existing value)) none := by
  obtain ⟨f, hparse, hheaders⟩ := h.fields
  rw [hheaders, lookup_parseLines hparse]
  rfl

lemma lookup_last {name : Bytes} (hname : name ≠ ascii "connection") :
    request.headers.lookup name = (lineValues name client.fieldLines).getLast? := by
  obtain ⟨f, hparse, hheaders⟩ := h.fields
  rw [hheaders, lookup_parseLines_last hparse hname]
  exact Option.or_none

lemma lower {name value : Bytes} (hlookup : request.headers.lookup name = some value) :
    lowerAscii name = name :=
  (h.wellFormed.fields _ ((request.mem_fields_iff name value).mpr hlookup)).lower

/-- The fields that are dropped are the hop-by-hop ones and those that `Connection` lists. -/
lemma mem_hopByHopNames_iff (token : Bytes) : token ∈ hopByHopNames request.fields ↔
    token ∈ hopByHopFields ∨ token ∈ connectionTokens (request.header (ascii "connection")) := by
  have hlower : lowerAscii (ascii "connection") = ascii "connection" := by decide
  rw [hopByHopNames, mem_append, mem_flatMap, HttpRequest.header, hlower]
  refine or_congr_right ?_
  constructor
  · rintro ⟨⟨name, value⟩, hmem, htoken⟩
    rw [HttpRequest.mem_fields_iff] at hmem
    have hname : name = ascii "connection" := by
      by_contra hne
      have : equalsIgnoreCase name (ascii "connection") = false := by
        simpa [equalsIgnoreCase, h.lower hmem, hlower] using hne
      simp [this] at htoken
    subst hname
    rw [hmem]
    simpa [equalsIgnoreCase] using htoken
  intro htoken
  cases hlookup : request.headers.lookup (ascii "connection") with
  | none =>
    rw [hlookup] at htoken
    cases htoken
  | some value =>
    rw [hlookup] at htoken
    refine ⟨(ascii "connection", value), (request.mem_fields_iff _ _).mpr hlookup, ?_⟩
    simpa [equalsIgnoreCase] using htoken

/-- Those are the ones that some `Connection` line of the client lists. -/
lemma mem_hopByHopNames (token : Bytes) : token ∈ hopByHopNames request.fields ↔
    token ∈ hopByHopFields ∨
      ∃ value ∈ client.values (ascii "connection"), token ∈ connectionTokens value := by
  have hlower : lowerAscii (ascii "connection") = ascii "connection" := by decide
  have htokens := connectionTokens_foldl (client.values (ascii "connection")) none
  rw [MessageHead.values, hlower, ← h.lookup, Option.elim_none, nil_append] at htokens
  rw [h.mem_hopByHopNames_iff, MessageHead.values, hlower, ← mem_flatMap, ← htokens,
    HttpRequest.header, hlower]
  cases request.headers.lookup (ascii "connection") with
  | none => rfl
  | some value => rfl

lemma canonicalField {order : Headers} (horder : order.Perm request.stripHopByHopHeaders.fields) :
    ∀ field ∈ order, CanonicalField field := by
  intro field hfield
  have hlookup : request.stripHopByHopHeaders.headers.lookup field.1 = some field.2 :=
    (HttpRequest.mem_fields_iff _ _ _).mp (horder.mem_iff.mp hfield)
  rw [HttpRequest.lookup_stripHopByHopHeaders] at hlookup
  obtain ⟨hkept, hlookup⟩ := Option.ite_none_left_eq_some.mp hlookup
  have hwf := h.wellFormed.fields _ ((request.mem_fields_iff _ _).mpr hlookup)
  refine ⟨not_mem_of_isToken hwf.name (by decide), hwf.lower, ?_⟩
  have hname : field.1 ≠ ascii "connection" := by
    intro hname
    apply hkept
    rw [h.mem_hopByHopNames, hname]
    exact .inl (by decide)
  rw [h.lookup_last hname] at hlookup
  have hmem := mem_of_getLast? hlookup
  rw [lineValues, mem_map] at hmem
  obtain ⟨line, _, hline⟩ := hmem
  rw [← hline, fieldValue, trimOws_trimOws]

end ParsedFrom

/-! ## Forwarded lines -/

/-- The values of some field lines in others: as they are, or several of them joined. -/
def Carries (received forwarded : List Bytes) : Prop :=
  ∃ separator ∈ [ascii ",", ascii ", "], ∃ groups : List (List Bytes),
    [] ∉ groups ∧ groups.flatten = received ∧ forwarded = groups.map separator.intercalate

lemma Carries.refl (values : List Bytes) : Carries values values := by
  refine ⟨ascii ",", mem_cons_self, values.map fun value => [value], ?_, ?_, ?_⟩
  · simp
  · induction values with
    | nil => rfl
    | cons value values ih => simp [ih]
  · simp [Function.comp_def]

lemma length_le_intercalate (separator : Bytes) {values : List Bytes} {last : Bytes}
    (hlast : values.getLast? = some last) :
    last.length ≤ (separator.intercalate values).length := by
  induction values with
  | nil => cases hlast
  | cons value values ih =>
    cases values with
    | nil =>
      cases hlast
      simp
    | cons next values =>
      rw [getLast?_cons_cons] at hlast
      have hrest := ih hlast
      rw [intercalate_cons_cons]
      simp only [length_append]
      omega

/-- Several values are longer when joined than the last of them. -/
lemma Carries.length_le_one {values : List Bytes} (h : Carries values values.getLast?.toList) :
    values.length ≤ 1 := by
  obtain ⟨separator, hseparator, groups, -, rfl, hgroups⟩ := h
  generalize hvalues : groups.flatten = values at hgroups ⊢
  rcases values with _ | ⟨value, _ | ⟨next, values⟩⟩
  · exact Nat.zero_le 1
  · exact le_rfl
  exfalso
  obtain ⟨last, hlast⟩ : ∃ last, (next :: values).getLast? = some last :=
    ⟨_, getLast?_eq_some_getLast (cons_ne_nil next values)⟩
  rw [getLast?_cons_cons, hlast, Option.toList_some, eq_comm, map_eq_singleton_iff] at hgroups
  obtain ⟨group, rfl, hjoined⟩ := hgroups
  rw [flatten_singleton] at hvalues
  subst hvalues
  have hpos : 0 < separator.length := by
    simp only [mem_cons, not_mem_nil, or_false] at hseparator
    rcases hseparator with rfl | rfl <;> decide
  have hle := length_le_intercalate separator hlast
  rw [← hjoined, intercalate_cons_cons] at hle
  simp only [length_append] at hle
  omega

/-- **A name is forwarded as it came exactly when it is on one line at most.** For every request
that is accepted and written again after the filter, and every end-to-end name: the head that is
written carries the values of the client's lines with this name, and no other value for it, if and
only if the client did not repeat it. -/
theorem carries_iff_unrepeated {p : HttpRequestParser} {input rest : Bytes} (client : MessageHead)
    (order : Headers) (out : Bytes) (hopen : p.result = .needMoreData)
    (hcomplete : (p.parse input).1.result = .complete) (hinput : input = client.bytes ++ rest)
    (horder : order.Perm (p.parse input).1.request.stripHopByHopHeaders.fields)
    (hout : serializeRequest (p.parse input).1.request.stripHopByHopHeaders order = .ok out) :
    ∃ (forwarded : MessageHead) (body : Bytes), out = forwarded.bytes ++ body ∧
      ∀ name, EndToEnd client name →
        (Carries (client.values name) (forwarded.values name) ↔
          (client.values name).length ≤ 1) := by
  have hparsed := parsedFrom_of_complete hopen hcomplete hinput
  obtain ⟨hserializable, rfl⟩ := serializable_of_ok hout
  refine ⟨forwardedHead hserializable, _, requestBytes_eq hserializable, ?_⟩
  intro name hname
  have hkept : lowerAscii name ∉ hopByHopNames (p.parse input).1.request.fields := by
    rw [hparsed.mem_hopByHopNames]
    rintro (hhop | ⟨value, hvalue, htoken⟩)
    · exact hname.1 hhop
    · exact hname.2 value hvalue htoken
  have hne : ∀ hop ∈ hopByHopFields, hop ≠ lowerAscii name := by
    rintro hop hhop rfl
    exact hname.1 hhop
  -- the last value is what the map holds
  have hvalues : (forwardedHead hserializable).values name =
      (client.values name).getLast?.toList := by
    rw [MessageHead.values, forwardedHead, lineValues_forwardedLines horder
      (hparsed.canonicalField horder), if_neg (hne _ (by decide)), if_neg (hne _ (by decide)),
      HttpRequest.lookup_stripHopByHopHeaders, lowerAscii_lowerAscii, if_neg hkept,
      hparsed.lookup_last (hne _ (by decide)).symm, append_nil, append_nil]
    rfl
  rw [hvalues]
  refine ⟨Carries.length_le_one, fun hone => ?_⟩
  generalize client.values name = values at hone ⊢
  rcases values with _ | ⟨value, _ | ⟨_, _⟩⟩
  · exact .refl []
  · exact .refl [value]
  · simp at hone

/-- A request with a nominated field and another one. -/
def taggedHead : MessageHead where
  startLine := ascii "GET / HTTP/1.1"
  fieldLines := [ascii "Host: a", ascii "Connection: x-hop", ascii "X-Hop: 1", ascii "X-Tag: 2"]
  isLine := by decide +kernel
  nonempty := by decide +kernel

def taggedRequest : HttpRequest where
  method := ascii "GET"
  target := ascii "/"
  version := ascii "HTTP/1.1"
  headers := (((AList.insert (ascii "host") (ascii "a") ∅).insert (ascii "connection")
    (ascii "x-hop")).insert (ascii "x-hop") (ascii "1")).insert (ascii "x-tag") (ascii "2")

lemma parse_taggedHead : parse {} taggedHead.bytes =
    ({ result := .complete, request := taggedRequest }, []) := by rfl

theorem carries_taggedHead : ∃ (forwarded : MessageHead) (body : Bytes),
      requestBytes taggedRequest.stripHopByHopHeaders taggedRequest.stripHopByHopHeaders.fields =
        forwarded.bytes ++ body ∧
      Carries (taggedHead.values (ascii "x-tag")) (forwarded.values (ascii "x-tag")) := by
  have hrequest : (parse {} taggedHead.bytes).1.request = taggedRequest := by
    rw [parse_taggedHead]
  obtain ⟨forwarded, body, hout, hcarries⟩ := carries_iff_unrepeated taggedHead
    taggedRequest.stripHopByHopHeaders.fields
    (requestBytes taggedRequest.stripHopByHopHeaders taggedRequest.stripHopByHopHeaders.fields) rfl
    (by rw [parse_taggedHead]) (append_nil _).symm (by rw [hrequest])
    (by rw [hrequest]; decide +kernel)
  exact ⟨forwarded, body, hout,
    (hcarries (ascii "x-tag") (by decide +kernel)).mpr (by decide +kernel)⟩

/-! ## Repeated names -/

def repeatedHead : MessageHead where
  startLine := ascii "GET / HTTP/1.1"
  fieldLines := [ascii "Host: a", ascii "X-Tag: 1", ascii "X-Tag: 2"]
  isLine := by decide +kernel
  nonempty := by decide +kernel

def repeatedRequest : HttpRequest where
  method := ascii "GET"
  target := ascii "/"
  version := ascii "HTTP/1.1"
  headers := ((AList.insert (ascii "host") (ascii "a") ∅).insert (ascii "x-tag")
    (ascii "1")).insert (ascii "x-tag") (ascii "2")

lemma parse_repeatedHead : parse {} repeatedHead.bytes =
    ({ result := .complete, request := repeatedRequest }, []) := by rfl

def repeatedForwarded : MessageHead where
  startLine := ascii "GET / HTTP/1.1"
  fieldLines := [ascii "x-tag: 2", ascii "host: a", ascii "Content-Length: 0",
    ascii "Connection: keep-alive"]
  isLine := by decide +kernel
  nonempty := by decide +kernel

lemma repeatedForwarded_bytes :
    requestBytes repeatedRequest.stripHopByHopHeaders repeatedRequest.stripHopByHopHeaders.fields =
      repeatedForwarded.bytes ++ [] := by decide +kernel

/-- The second line replaces the first one: what is forwarded does not carry both values. -/
theorem not_carries_repeated : (parse {} repeatedHead.bytes).1.result = .complete ∧
      EndToEnd repeatedHead (ascii "x-tag") ∧
      ∃ out, serializeRequest
          (parse {} repeatedHead.bytes).1.request.stripHopByHopHeaders
          (parse {} repeatedHead.bytes).1.request.stripHopByHopHeaders.fields = .ok out ∧
        ∀ (forwarded : MessageHead) (body : Bytes), out = forwarded.bytes ++ body →
          ¬ Carries (repeatedHead.values (ascii "x-tag"))
            (forwarded.values (ascii "x-tag")) := by
  rw [parse_repeatedHead]
  refine ⟨rfl, by decide +kernel,
    requestBytes repeatedRequest.stripHopByHopHeaders repeatedRequest.stripHopByHopHeaders.fields,
    by decide +kernel, ?_⟩
  intro forwarded body hout hcarries
  have hhead := (MessageHead.bytes_append_inj (repeatedForwarded_bytes.symm.trans hout)).1
  rw [← hhead] at hcarries
  have hlast : repeatedForwarded.values (ascii "x-tag") =
      (repeatedHead.values (ascii "x-tag")).getLast?.toList := by decide +kernel
  rw [hlast] at hcarries
  exact absurd hcarries.length_le_one (by decide +kernel)

end AegisGate.Http
