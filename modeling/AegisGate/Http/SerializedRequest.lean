import AegisGate.Http.FieldLines

/-!
# The serialized request as a message

What `SerializeRequest` writes is a head of its own, followed by the body. The head has one line
for each field of the request and the two lines the serializer adds.
-/

namespace AegisGate.Http
open List

/-! ## The tests -/

lemma addWithinLimit_eq_some {values : List ℕ} {limit total sum : ℕ} (htotal : total ≤ limit)
    (h : addWithinLimit limit total values = some sum) :
    sum = total + values.sum ∧ sum ≤ limit := by
  induction values generalizing total with
  | nil =>
    cases h
    exact ⟨by simp, htotal⟩
  | cons value values ih =>
    rw [addWithinLimit, foldlM_cons] at h
    obtain ⟨next, hnext, h⟩ := Option.bind_eq_some_iff.mp h
    obtain ⟨hfits, ⟨⟩⟩ := Option.ite_none_left_eq_some.mp hnext
    have hrest := ih (by omega) h
    rw [sum_cons]
    omega

lemma tallyField_ok {tally tally' : FieldTally} {field : Bytes × Bytes}
    (hsize : tally.headerBytes ≤ kMaxHeaderBytes) (h : tallyField tally field = .ok tally') :
    ForwardableField field ∧ tally'.headerBytes = tally.headerBytes + fieldBytes field ∧
      tally'.headerBytes ≤ kMaxHeaderBytes ∧
      tally'.hostCount = tally.hostCount + if isHost field then 1 else 0 := by
  obtain ⟨hvalid, h⟩ := of_ite_error_ok h
  simp only [Bool.or_eq_true, not_or, Bool.not_eq_true', Bool.not_eq_false] at hvalid
  cases hadd : addWithinLimit kMaxHeaderBytes tally.headerBytes
      [field.1.length, 2, field.2.length, 2] with
  | none =>
    rw [hadd] at h
    cases h
  | some headerBytes =>
    rw [hadd] at h
    obtain ⟨hframing, h⟩ := of_ite_error_ok h
    obtain ⟨hsum, hle⟩ := addWithinLimit_eq_some hsize hadd
    cases h
    refine ⟨⟨hvalid.1, hvalid.2, by simpa using hframing⟩, ?_, hle, ?_⟩
    · rw [hsum, fieldBytes]
      simp only [sum_cons, sum_nil]
      omega
    · by_cases hhost : lowerAscii field.1 = ascii "host"
      · simp [isHost, hhost]
      · simp [isHost, hhost]

variable {order : Headers} {value name : Bytes} {c : UInt8}

lemma foldlM_tallyField_ok {tally tally' : FieldTally}
    (hsize : tally.headerBytes ≤ kMaxHeaderBytes) (h : order.foldlM tallyField tally = .ok tally') :
    (∀ field ∈ order, ForwardableField field) ∧
      tally'.headerBytes = tally.headerBytes + (order.map fieldBytes).sum ∧
      tally'.headerBytes ≤ kMaxHeaderBytes ∧
      tally'.hostCount = tally.hostCount + order.countP isHost := by
  induction order generalizing tally with
  | nil =>
    cases h
    exact ⟨nofun, rfl, hsize, rfl⟩
  | cons field order ih =>
    rw [foldlM_cons] at h
    obtain ⟨next, hfield, h⟩ := exists_of_bind_ok h
    obtain ⟨hforward, hbytes, hle, hcount⟩ := tallyField_ok hsize hfield
    obtain ⟨hrest, hbytes', hle', hcount'⟩ := ih hle h
    refine ⟨forall_mem_cons.mpr ⟨hforward, hrest⟩, ?_, hle', ?_⟩
    · rw [hbytes', hbytes, map_cons, sum_cons, Nat.add_assoc]
    · rw [hcount', hcount, countP_cons]
      omega

lemma serializable_of_ok {request : HttpRequest} {out : Bytes}
    (h : serializeRequest request order = .ok out) :
    Serializable request order ∧ out = requestBytes request order := by
  obtain ⟨hvalid, h⟩ := of_ite_error_ok h
  obtain ⟨hline, h⟩ := of_ite_error_ok h
  simp only [Bool.or_eq_true, not_or, Bool.not_eq_true', Bool.not_eq_false, bne_iff_ne, ne_eq,
    not_not, decide_eq_true_eq, Nat.not_lt] at hvalid
  obtain ⟨⟨⟨hmethod, htarget⟩, hversion⟩, hbody⟩ := hvalid
  rw [Bool.not_eq_true, Option.isNone_eq_false_iff, Option.isSome_iff_exists] at hline
  obtain ⟨lineBytes, hline⟩ := hline
  cases hfold : order.foldlM tallyField {} with
  | error message =>
    rw [hfold] at h
    cases h
  | ok tally =>
    rw [hfold] at h
    obtain ⟨hhost, h⟩ := of_ite_error_ok h
    obtain ⟨hadded, h⟩ := of_ite_error_ok h
    cases h
    rw [Bool.not_eq_true, Option.isNone_eq_false_iff, Option.isSome_iff_exists] at hadded
    obtain ⟨headerBytes, hadded⟩ := hadded
    obtain ⟨hfields, hbytes, hle, hcount⟩ := foldlM_tallyField_ok (Nat.zero_le _) hfold
    have hlineSum := addWithinLimit_eq_some (Nat.zero_le _) hline
    have hsum := addWithinLimit_eq_some hle hadded
    simp only [sum_cons, sum_nil] at hlineSum hsum
    refine ⟨⟨hmethod, htarget, hversion, hbody, by omega, hfields, ?_, ?_⟩, rfl⟩
    · rw [not_not, hcount] at hhost
      simpa using hhost
    · omega

/-! ## The lines -/

def writtenLine (field : Bytes × Bytes) : Bytes := field.1 ++ ascii ": " ++ field.2

/-- The field lines of a forwarded request. -/
def forwardedLines (request : HttpRequest) (order : Headers) : List Bytes :=
  order.map writtenLine ++ [ascii "Content-Length: " ++ ascii (toString request.body.length),
    ascii "Connection: keep-alive"]

def forwardedStart (request : HttpRequest) : Bytes :=
  request.method ++ ascii " " ++ request.target ++ ascii " " ++ request.version

lemma not_mem_of_isToken (h : isToken value)
    (hc : (isalnum c || tokenMarks.contains c) = false) : c ∉ value := by
  intro hmem
  rw [isToken, Bool.and_eq_true, all_eq_true] at h
  rw [h.2 c hmem] at hc
  cases hc

lemma not_mem_of_isValidFieldValue (h : isValidFieldValue value)
    (hc : (c == 9 || (32 ≤ c && c != 127)) = false) : c ∉ value := by
  intro hmem
  rw [isValidFieldValue, all_eq_true] at h
  rw [h c hmem] at hc
  cases hc

lemma isValidUriComponent_cons (isQuery : Bool) (c : UInt8) (rest : Bytes) :
    isValidUriComponent isQuery (c :: rest) =
      if isUriByte isQuery c then isValidUriComponent isQuery rest
      else match rest with
        | high :: low :: rest =>
          c == 37 && isHexDigit high && isHexDigit low && isValidUriComponent isQuery rest
        | _ => false := by
  cases rest with
  | nil => rfl
  | cons high rest =>
    cases rest with
    | nil => rfl
    | cons low rest => rfl

/-- A path, or a query: bytes that stand for themselves, and triplets `%` HEXDIG HEXDIG. -/
inductive UriText (isQuery : Bool) : Bytes → Prop
  | nil : UriText isQuery []
  | byte {c : UInt8} {rest : Bytes} (hc : isUriByte isQuery c) (h : UriText isQuery rest) :
      UriText isQuery (c :: rest)
  | triplet {high low : UInt8} {rest : Bytes} (hhigh : isHexDigit high)
      (hlow : isHexDigit low) (h : UriText isQuery rest) :
      UriText isQuery (37 :: high :: low :: rest)

lemma isValidUriComponent_iff {isQuery : Bool} :
    isValidUriComponent isQuery value ↔ UriText isQuery value := by
  constructor
  · intro h
    induction value using isValidUriComponent.induct isQuery with
    | case1 => exact .nil
    | case2 c rest hc ih =>
      rw [isValidUriComponent_cons, if_pos hc] at h
      exact .byte hc (ih h)
    | case3 c hc high low rest ih =>
      rw [isValidUriComponent_cons, if_neg hc] at h
      simp only [Bool.and_eq_true, beq_iff_eq] at h
      obtain ⟨⟨⟨rfl, hhigh⟩, hlow⟩, hrest⟩ := h
      exact .triplet hhigh hlow (ih hrest)
    | case4 c rest hc hrest =>
      rw [isValidUriComponent_cons, if_neg hc] at h
      split at h
      · next high low rest => exact absurd rfl (hrest high low rest)
      · cases h
  · intro h
    induction h with
    | nil => rfl
    | byte hc _ ih => rw [isValidUriComponent_cons, if_pos hc, ih]
    | triplet hhigh hlow _ ih =>
      have hpercent : isUriByte isQuery 37 = false := by cases isQuery <;> decide
      rw [isValidUriComponent_cons, hpercent, if_neg Bool.false_ne_true]
      simp [hhigh, hlow, ih]

lemma UriText.mem {isQuery : Bool} (h : UriText isQuery value) (hc : c ∈ value) :
    isUriByte isQuery c ∨ c = 37 ∨ isHexDigit c := by
  induction h with
  | nil => cases hc
  | byte hd _ ih =>
    rcases mem_cons.mp hc with rfl | hc
    · exact .inl hd
    · exact ih hc
  | triplet hhigh hlow _ ih =>
    simp only [mem_cons] at hc
    rcases hc with rfl | rfl | rfl | hc
    · exact .inr (.inl rfl)
    · exact .inr (.inr hhigh)
    · exact .inr (.inr hlow)
    · exact ih hc

lemma not_mem_of_isValidUriComponent {isQuery : Bool}
    (h : isValidUriComponent isQuery value)
    (hc : (isUriByte true c || c == 37 || isHexDigit c) = false) : c ∉ value := by
  intro hmem
  simp only [Bool.or_eq_false_iff, beq_eq_false_iff_ne] at hc
  rcases (isValidUriComponent_iff.mp h).mem hmem with huri | hpercent | hhex
  · have huri' : isUriByte true c := by
      simp only [isUriByte, Bool.or_eq_true, Bool.and_eq_true] at huri ⊢
      exact huri.imp_right fun hmark => ⟨trivial, hmark.2⟩
    rw [hc.1.1] at huri'
    cases huri'
  · exact hc.1.2 hpercent
  · rw [hc.2] at hhex
    cases hhex

lemma not_mem_of_isValidTarget {target : Bytes} (h : isValidTarget target)
    (hc : (isUriByte true c || c == 37 || isHexDigit c) = false) : c ∉ target := by
  rw [isValidTarget] at h
  split at h
  · cases h
  split at h
  · exact not_mem_of_isValidUriComponent h hc
  next queryStart hquery =>
  rw [Bool.and_eq_true] at h
  rw [eq_append_of_find hquery, mem_append, mem_append, not_or, not_or]
  refine ⟨not_mem_of_isValidUriComponent h.1 hc, ?_, not_mem_of_isValidUriComponent h.2 hc⟩
  rw [mem_singleton]
  rintro rfl
  revert hc
  decide

lemma find_crlf_eq_none {line : Bytes} (h : 13 ∉ line) : find crlf line = none := by
  induction line with
  | nil => rfl
  | cons b line ih =>
    rw [mem_cons, not_or] at h
    rw [find_cons_eq_none]
    refine ⟨fun hpre => h.1 ?_, ih h.2⟩
    exact (cons_prefix_cons.mp hpre).1

lemma not_mem_forwardedStart {request : HttpRequest} (h : Serializable request order)
    (hc : c = 13 ∨ c = 10) : c ∉ forwardedStart request := by
  have hmethod : c ∉ request.method := by
    rcases hc with rfl | rfl <;> exact not_mem_of_isToken h.method (by decide)
  have htarget : c ∉ request.target := by
    rcases hc with rfl | rfl <;> exact not_mem_of_isValidTarget h.target (by decide)
  have hrest : c ∉ ascii " " ++ ascii "HTTP/1.1" := by
    rcases hc with rfl | rfl <;> decide
  simp only [mem_append, not_or] at hrest
  simp only [forwardedStart, h.version, mem_append, not_or]
  exact ⟨⟨⟨⟨hmethod, hrest.1⟩, htarget⟩, hrest.1⟩, hrest.2⟩

lemma not_mem_forwardedLines {request : HttpRequest} (h : ∀ field ∈ order, ForwardableField field)
    (hc : c = 13 ∨ c = 10) : ∀ line ∈ forwardedLines request order, c ∉ line := by
  intro line hline
  rw [forwardedLines, mem_append, mem_map] at hline
  rcases hline with ⟨field, hfield, rfl⟩ | hline
  · obtain ⟨hname, hvalue, _⟩ := h field hfield
    have hname : c ∉ field.1 := by
      rcases hc with rfl | rfl <;> exact not_mem_of_isToken hname (by decide)
    have hvalue : c ∉ field.2 := by
      rcases hc with rfl | rfl <;> exact not_mem_of_isValidFieldValue hvalue (by decide)
    have hcolon : c ∉ ascii ": " := by
      rcases hc with rfl | rfl <;> decide
    simp only [writtenLine, mem_append, not_or]
    exact ⟨⟨hname, hcolon⟩, hvalue⟩
  simp only [mem_cons, not_mem_nil, or_false] at hline
  rcases hline with rfl | rfl
  · have hdigits : c ∉ ascii (toString request.body.length) := by
      intro hmem
      have hdigit := all_eq_true.mp (all_isDigit_toString request.body.length) c hmem
      revert hdigit
      rcases hc with rfl | rfl <;> decide
    have hname : c ∉ ascii "Content-Length: " := by
      rcases hc with rfl | rfl <;> decide
    rw [mem_append, not_or]
    exact ⟨hname, hdigits⟩
  · rcases hc with rfl | rfl <;> decide

/-- The head of a forwarded request. -/
def forwardedHead {request : HttpRequest} {order : Headers} (h : Serializable request order) :
    MessageHead where
  startLine := forwardedStart request
  fieldLines := forwardedLines request order
  isLine := forall_mem_cons.mpr ⟨find_crlf_eq_none (not_mem_forwardedStart h (.inl rfl)),
    fun line hline => find_crlf_eq_none (not_mem_forwardedLines h.fields (.inl rfl) line hline)⟩
  nonempty := by simp [forwardedLines, writtenLine, ascii]

lemma requestBytes_eq {request : HttpRequest} (h : Serializable request order) :
    requestBytes request order = (forwardedHead h).bytes ++ request.body := by
  have hfields : ∀ order : Headers,
      order.flatMap fieldLine = joinLines (order.map writtenLine) := by
    intro order
    induction order with
    | nil => rfl
    | cons field order ih => simp [fieldLine, writtenLine, ih]
  simp only [requestBytes, MessageHead.bytes, forwardedHead, forwardedStart, forwardedLines,
    hfields, contentLengthLine, connectionLine]
  simp

/-! ## The values -/

lemma trimOws_toString (n : ℕ) : trimOws (ascii (toString n)) = ascii (toString n) := by
  refine trimOws_eq_self fun c hc => ?_
  have hdigit := all_eq_true.mp (all_isDigit_toString n) c hc
  by_contra hows
  rw [Bool.not_eq_false, isOws, Bool.or_eq_true, beq_iff_eq, beq_iff_eq] at hows
  rcases hows with rfl | rfl
  · cases hdigit
  · cases hdigit

lemma isValidFieldValue_toString (n : ℕ) : isValidFieldValue (ascii (toString n)) := by
  rw [isValidFieldValue, all_eq_true]
  intro c hc
  have hdigit := all_eq_true.mp (all_isDigit_toString n) c hc
  simp only [isDigit, Bool.and_eq_true, decide_eq_true_eq, UInt8.le_iff_toNat_le,
    UInt8.reduceToNat] at hdigit
  have hne : c ≠ 127 := by
    rintro rfl
    exact absurd hdigit.2 (by decide)
  have hle : 32 ≤ c := by
    simp only [UInt8.le_iff_toNat_le, UInt8.reduceToNat]
    omega
  simp [hne, hle]

lemma rawName_writtenLine (h : 58 ∉ name) (value : Bytes) :
    rawName (writtenLine (name, value)) = name ∧
      rawValue (writtenLine (name, value)) = 32 :: value := by
  have hall : ∀ c ∈ name, (c != 58) := by
    intro c hc
    rw [bne_iff_ne]
    rintro rfl
    exact h hc
  have hline : writtenLine (name, value) = name ++ 58 :: 32 :: value := by
    rw [writtenLine, append_assoc]
    rfl
  constructor
  · rw [rawName, hline, takeWhile_append_of_pos hall]
    simp
  · rw [rawValue, hline, dropWhile_append_of_pos hall]
    simp

lemma fieldName_writtenLine (h : 58 ∉ name) (value : Bytes) :
    fieldName (writtenLine (name, value)) = lowerAscii name ∧
      fieldValue (writtenLine (name, value)) = trimOws value := by
  obtain ⟨hname, hvalue⟩ := rawName_writtenLine h value
  rw [fieldName, fieldValue, hname, hvalue]
  exact ⟨rfl, by simp [trimOws, isOws]⟩

lemma lineValues_writtenLine (h : 58 ∉ name) (value other : Bytes) :
    lineValues other [writtenLine (name, value)] =
      if lowerAscii name = other then [trimOws value] else [] := by
  obtain ⟨hname, hvalue⟩ := fieldName_writtenLine h value
  rw [lineValues_cons, hname, hvalue]
  rfl

/-- A field that reads back as it was written. -/
structure CanonicalField (field : Bytes × Bytes) : Prop where
  colon : 58 ∉ field.1
  lower : lowerAscii field.1 = field.1
  trimmed : trimOws field.2 = field.2

lemma lineValues_map_writtenLine (h : ∀ field ∈ order, CanonicalField field) (name : Bytes) :
    lineValues name (order.map writtenLine) =
      (order.filter fun field => field.1 == name).map Prod.snd := by
  induction order with
  | nil => rfl
  | cons field order ih =>
    obtain ⟨hcolon, hlower, htrimmed⟩ := h field mem_cons_self
    obtain ⟨hname, hvalue⟩ := fieldName_writtenLine hcolon field.2
    rw [map_cons, lineValues_cons, hname, hvalue, hlower, htrimmed,
      ih fun g hg => h g (mem_cons_of_mem field hg)]
    by_cases heq : field.1 = name
    · simp [heq]
    · simp [heq]

lemma filter_fields {request : HttpRequest} (horder : order.Perm request.fields) (name : Bytes) :
    (order.filter fun field => field.1 == name).map Prod.snd =
      (request.headers.lookup name).toList := by
  have hnodup : (order.filter fun field => field.1 == name).Nodup :=
    ((horder.nodup_iff.mpr (List.Nodup.of_map _ request.nodup_names))).filter _
  have hmem : ∀ field, field ∈ order.filter (fun field => field.1 == name) ↔
      field.1 = name ∧ request.headers.lookup name = some field.2 := by
    intro field
    rw [mem_filter, horder.mem_iff, beq_iff_eq, and_comm]
    refine and_congr_right fun hname => ?_
    rw [← hname, ← HttpRequest.mem_fields_iff]
  cases hlookup : request.headers.lookup name with
  | none =>
    have hnil : (order.filter fun field => field.1 == name) = [] := by
      rw [eq_nil_iff_forall_not_mem]
      intro field hfield
      rw [hmem, hlookup] at hfield
      cases hfield.2
    rw [hnil]
    rfl
  | some value =>
    have hperm : (order.filter fun field => field.1 == name).Perm [(name, value)] := by
      rw [perm_ext_iff_of_nodup hnodup (nodup_singleton _)]
      intro field
      rw [hmem, hlookup, mem_singleton, Option.some_inj, Prod.ext_iff, eq_comm (a := value)]
    rw [perm_singleton.mp hperm]
    rfl

lemma lineValues_forwardedLines {request : HttpRequest} (horder : order.Perm request.fields)
    (hfields : ∀ field ∈ order, CanonicalField field) (name : Bytes) :
    lineValues name (forwardedLines request order) = (request.headers.lookup name).toList ++
      ((if ascii "content-length" = name then [ascii (toString request.body.length)] else []) ++
        if ascii "connection" = name then [ascii "keep-alive"] else []) := by
  have hdigits := trimOws_toString request.body.length
  have hlines : forwardedLines request order = order.map writtenLine ++
      ([writtenLine (ascii "Content-Length", ascii (toString request.body.length))] ++
        [writtenLine (ascii "Connection", ascii "keep-alive")]) := rfl
  have hlength : lowerAscii (ascii "Content-Length") = ascii "content-length" := by decide
  have hconnection : lowerAscii (ascii "Connection") = ascii "connection" := by decide
  rw [hlines, lineValues_append, lineValues_append, lineValues_map_writtenLine hfields,
    filter_fields horder, lineValues_writtenLine (by decide), lineValues_writtenLine (by decide),
    hdigits, hlength, hconnection, show trimOws (ascii "keep-alive") = ascii "keep-alive" from rfl]

end AegisGate.Http
