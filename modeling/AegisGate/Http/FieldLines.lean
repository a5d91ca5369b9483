import AegisGate.Http.Decimal
import AegisGate.Http.RequestHead

/-!
# What the field lines of an accepted request amount to

Each accepted line stores a value under its name. From one line to all of them: which value a name
has in the end, and which length is declared.
-/

namespace AegisGate.Http

/-! ## One line -/

/-- An accepted line, from the fields before it to the fields after it. -/
structure AcceptedLine (line : Bytes) (f g : Fields) : Prop where
  name : isToken (rawName line)
  value : isValidFieldValue (rawValue line)
  unchunked : fieldName line = ascii "transfer-encoding" → containsChunked (fieldValue line) = false
  headers : g.headers = (f.store (fieldName line) (fieldValue line)).headers
  other : fieldName line ≠ ascii "content-length" → g.contentLength = f.contentLength
  declared : fieldName line = ascii "content-length" → f.contentLength = none ∧
    g.contentLength = parseContentLength (fieldValue line) ∧ g.contentLength ≠ none

lemma Fields.contentLength_store (f : Fields) (name value : Bytes) :
    (f.store name value).contentLength = f.contentLength := by
  rw [Fields.store]
  split
  · split <;> rfl
  · rfl

variable {f g : Fields} {lines : List Bytes}

lemma Fields.takeLength_ok {value : Bytes} (h : f.takeLength value = .ok g) :
    g.headers = f.headers ∧ f.contentLength = none ∧
      g.contentLength = parseContentLength value ∧ g.contentLength ≠ none := by
  rw [Fields.takeLength] at h
  split at h
  · next length hnone hlength =>
    cases (of_ite_error_ok h).2
    exact ⟨rfl, hnone, hlength.symm, Option.some_ne_none length⟩
  · cases h

lemma Fields.headers_store_congr (h : g.headers = f.headers) (name value : Bytes) :
    (g.store name value).headers = (f.store name value).headers := by
  simp only [Fields.store, h]
  split
  · split <;> rfl
  · rfl

lemma acceptedLine_of_parseField {line : Bytes} (h : parseField line f = .ok g) :
    AcceptedLine line f g := by
  rw [parseField_eq] at h
  obtain ⟨hname, h⟩ := of_ite_error_ok h
  obtain ⟨hvalue, h⟩ := of_ite_error_ok h
  simp only [not_or, Bool.not_eq_false] at hname hvalue
  obtain ⟨f', hlength, h⟩ := exists_of_bind_ok h
  obtain ⟨hchunked, h⟩ := of_ite_error_ok h
  have hg : g = f'.store (fieldName line) (fieldValue line) := by
    cases h
    rfl
  have hunchunked : fieldName line = ascii "transfer-encoding" →
      containsChunked (fieldValue line) = false := by
    intro hte
    simpa [hte] using hchunked
  by_cases hdeclares : fieldName line = ascii "content-length"
  · rw [if_pos hdeclares] at hlength
    obtain ⟨hheaders, hnone, hparsed, hsome⟩ := Fields.takeLength_ok hlength
    refine ⟨hname.2, hvalue, hunchunked, ?_, fun hne => absurd hdeclares hne, fun _ => ?_⟩
    · rw [hg]
      exact Fields.headers_store_congr hheaders _ _
    · rw [hg, Fields.contentLength_store]
      exact ⟨hnone, hparsed, hsome⟩
  · rw [if_neg hdeclares] at hlength
    cases hlength
    refine ⟨hname.2, hvalue, hunchunked, by rw [hg], fun _ => ?_, fun heq => absurd heq hdeclares⟩
    rw [hg, Fields.contentLength_store]

/-! ## Stored values -/

/-- The value under a name after a further line with it. -/
def storedValue (name : Bytes) (existing : Option Bytes) (value : Bytes) : Bytes :=
  match existing with
  | some existing => if name = ascii "connection" then existing ++ ascii "," ++ value else value
  | none => value

lemma Fields.lookup_store (f : Fields) (name value other : Bytes) :
    (f.store name value).headers.lookup other =
      if name = other then some (storedValue name (f.headers.lookup name) value)
      else f.headers.lookup other := by
  have hinsert : ∀ stored : Bytes, (f.headers.insert name stored).lookup other =
      if name = other then some stored else f.headers.lookup other := by
    intro stored
    by_cases h : name = other
    · rw [if_pos h, ← h, AList.lookup_insert]
    · rw [if_neg h, AList.lookup_insert_ne (Ne.symm h)]
  cases hlookup : f.headers.lookup name with
  | none => simp only [Fields.store, hlookup, hinsert, storedValue]
  | some existing =>
    by_cases hconnection : name = ascii "connection"
    · simp only [Fields.store, hlookup, if_pos hconnection, hinsert, storedValue]
    · simp only [Fields.store, hlookup, if_neg hconnection, hinsert, storedValue]

lemma lookup_parseLines (h : foldLines parseField lines f = .ok g) (name : Bytes) :
    g.headers.lookup name =
      (lineValues name lines).foldl (fun existing value => some (storedValue name existing value))
        (f.headers.lookup name) := by
  induction lines generalizing f with
  | nil =>
    cases h
    rfl
  | cons line lines ih =>
    rw [foldLines_cons] at h
    obtain ⟨f', hfield, h⟩ := exists_of_bind_ok h
    have haccepted := acceptedLine_of_parseField hfield
    rw [ih h, haccepted.headers, Fields.lookup_store, lineValues_cons]
    by_cases hname : fieldName line = name
    · subst hname
      simp
    · simp [hname]

lemma foldl_some_eq_getLast? (values : List Bytes) (existing : Option Bytes) :
    values.foldl (fun _ value => some value) existing = values.getLast?.or existing := by
  induction values generalizing existing with
  | nil => rfl
  | cons value values ih =>
    rw [List.foldl_cons, ih, List.getLast?_cons]
    cases values.getLast? <;> rfl

/-- Of a name other than `connection` the last value stays. -/
lemma lookup_parseLines_last (h : foldLines parseField lines f = .ok g) {name : Bytes}
    (hname : name ≠ ascii "connection") :
    g.headers.lookup name = (lineValues name lines).getLast?.or (f.headers.lookup name) := by
  have hstored : ∀ (existing : Option Bytes) (value : Bytes),
      storedValue name existing value = value := by
    intro existing value
    cases existing with
    | none => rfl
    | some existing => simp [storedValue, hname]
  rw [lookup_parseLines h]
  simp only [hstored]
  exact foldl_some_eq_getLast? _ _

/-! ## Framing fields -/

/-- There is one `Content-Length` line at most, and the length is what it says. -/
lemma contentLength_parseLines (h : foldLines parseField lines f = .ok g) :
    (lineValues (ascii "content-length") lines = [] ∧ g.contentLength = f.contentLength) ∨
      ∃ value, lineValues (ascii "content-length") lines = [value] ∧ f.contentLength = none ∧
        g.contentLength = parseContentLength value ∧ g.contentLength ≠ none := by
  induction lines generalizing f with
  | nil =>
    cases h
    exact .inl ⟨rfl, rfl⟩
  | cons line lines ih =>
    rw [foldLines_cons] at h
    obtain ⟨f', hfield, h⟩ := exists_of_bind_ok h
    have haccepted := acceptedLine_of_parseField hfield
    rw [lineValues_cons]
    by_cases hname : fieldName line = ascii "content-length"
    · obtain ⟨hnone, hparsed, hsome⟩ := haccepted.declared hname
      rw [if_pos hname]
      right
      rcases ih h with ⟨hvalues, hlength⟩ | ⟨_, _, hnone', _⟩
      · exact ⟨fieldValue line, by rw [hvalues], hnone, hlength.trans hparsed, hlength ▸ hsome⟩
      · exact absurd hnone' hsome
    · rw [if_neg hname, ← haccepted.other hname]
      exact ih h

/-- No `Transfer-Encoding` line lists `chunked`. -/
lemma containsChunked_parseLines (h : foldLines parseField lines f = .ok g) :
    ∀ value ∈ lineValues (ascii "transfer-encoding") lines, containsChunked value = false := by
  induction lines generalizing f with
  | nil => nofun
  | cons line lines ih =>
    rw [foldLines_cons] at h
    obtain ⟨f', hfield, h⟩ := exists_of_bind_ok h
    rw [lineValues_cons]
    by_cases hname : fieldName line = ascii "transfer-encoding"
    · rw [if_pos hname]
      have hfirst := (acceptedLine_of_parseField hfield).unchunked hname
      exact List.forall_mem_cons.mpr ⟨hfirst, ih h⟩
    · rw [if_neg hname]
      exact ih h

end AegisGate.Http
