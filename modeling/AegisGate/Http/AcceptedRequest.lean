import AegisGate.Http.RequestSerializer

/-!
# What the request parser accepts

A request that the parser returns has a token for its method, lines and a body within the
limits, and fields whose names are tokens in lower case and whose values have no control bytes.
-/

namespace AegisGate.Http
open List

/-! ## Bytes -/

@[simp] lemma tolower_tolower (c : UInt8) : tolower (tolower c) = tolower c := by
  by_cases h : 65 ≤ c ∧ c ≤ 90
  · have hlower : tolower c = c + 32 := by simp [tolower, h]
    have hupper : ¬ c + 32 ≤ 90 := by
      simp only [UInt8.le_iff_toNat_le, UInt8.toNat_add, UInt8.reduceToNat] at h ⊢
      omega
    rw [hlower]
    simp [tolower, hupper]
  · have hlower : tolower c = c := by simp [tolower, h]
    rw [hlower, hlower]

@[simp] lemma lowerAscii_lowerAscii (value : Bytes) :
    lowerAscii (lowerAscii value) = lowerAscii value := by
  simp [lowerAscii, Function.comp_def]

lemma isalnum_tolower {c : UInt8} (h : isalnum c) : isalnum (tolower c) := by
  by_cases hc : 65 ≤ c ∧ c ≤ 90
  · have hlower : tolower c = c + 32 := by simp [tolower, hc]
    rw [hlower]
    simp only [isalnum, Bool.or_eq_true, Bool.and_eq_true, decide_eq_true_eq]
    right
    simp only [UInt8.le_iff_toNat_le, UInt8.toNat_add, UInt8.reduceToNat] at hc ⊢
    omega
  · have hlower : tolower c = c := by simp [tolower, hc]
    rw [hlower]
    exact h

lemma tolower_of_mem_tokenMarks {c : UInt8} (h : c ∈ tokenMarks) : tolower c = c := by
  have hall : tokenMarks.all (fun c => tolower c == c) := by decide
  exact beq_iff_eq.mp (all_eq_true.mp hall c h)

variable {value : Bytes} {f g : Fields}

lemma isToken_lowerAscii (h : isToken value) : isToken (lowerAscii value) := by
  simp only [isToken, Bool.and_eq_true, all_eq_true, Bool.or_eq_true, contains_iff_mem] at h ⊢
  refine ⟨by simpa [lowerAscii] using h.1, fun c hc => ?_⟩
  obtain ⟨d, hd, rfl⟩ := mem_map.mp hc
  rcases h.2 d hd with halnum | hmark
  · exact .inl (isalnum_tolower halnum)
  · rw [tolower_of_mem_tokenMarks hmark]
    exact .inr hmark

lemma trimOws_sublist (value : Bytes) : (trimOws value).Sublist value := by
  have hback : (trimOws value).reverse.Sublist (value.dropWhile isOws).reverse := by
    rw [trimOws, reverse_reverse]
    exact dropWhile_sublist isOws
  exact (reverse_sublist.mp hback).trans (dropWhile_sublist isOws)

lemma isValidFieldValue_trimOws (h : isValidFieldValue value) :
    isValidFieldValue (trimOws value) := by
  rw [isValidFieldValue, all_eq_true] at h ⊢
  exact fun c hc => h c ((trimOws_sublist value).mem hc)

lemma trimOws_eq (value : Bytes) : trimOws value = (value.dropWhile isOws).rdropWhile isOws := rfl

@[simp] lemma trimOws_trimOws (value : Bytes) : trimOws (trimOws value) = trimOws value := by
  have hfront : (trimOws value).dropWhile isOws = trimOws value := by
    rw [trimOws_eq, dropWhile_eq_self_iff]
    intro hpos
    have hstart := rdropWhile_prefix isOws (value.dropWhile isOws)
    have hidem := dropWhile_eq_self_iff.mp (dropWhile_idempotent isOws value)
    rw [hstart.getElem hpos]
    exact hidem (Nat.lt_of_lt_of_le hpos hstart.length_le)
  rw [trimOws_eq (trimOws value), hfront, trimOws_eq, rdropWhile_idempotent]

lemma trimOws_eq_self (h : ∀ c ∈ value, isOws c = false) : trimOws value = value := by
  have hfront : value.dropWhile isOws = value := by
    rw [dropWhile_eq_self_iff]
    intro hpos
    simp [h _ (getElem_mem hpos)]
  rw [trimOws_eq, hfront, rdropWhile_eq_self_iff]
  intro hne
  simp [h _ (getLast_mem hne)]

/-! ## Early returns -/

section
variable {ε α β : Type}

lemma exists_of_bind_ok {x : Except ε α} {f : α → Except ε β} {b : β} (h : x >>= f = .ok b) :
    ∃ a, x = .ok a ∧ f a = .ok b := by
  cases x with
  | error e => cases h
  | ok a => exact ⟨a, rfl, h⟩

lemma of_ite_error_ok {p : Prop} [Decidable p] {e : ε} {x : Except ε α} {a : α}
    (h : (if p then .error e else x) = .ok a) : ¬ p ∧ x = .ok a := by
  split at h
  · cases h
  · next hp => exact ⟨hp, h⟩

end

/-! ## Fields -/

/-- A field as the parser stores it. -/
structure WellFormedField (field : Bytes × Bytes) : Prop where
  name : isToken field.1
  lower : lowerAscii field.1 = field.1
  value : isValidFieldValue field.2

structure Fields.WellFormed (f : Fields) : Prop where
  fields : ∀ {name value}, f.headers.lookup name = some value → WellFormedField (name, value)
  length : ∀ {length}, f.contentLength = some length → length ≤ kMaxRequestBodyBytes

lemma Fields.wellFormed_empty : Fields.WellFormed {} where
  fields h := by cases h
  length h := by cases h

lemma Fields.WellFormed.insert (h : f.WellFormed) {name : Bytes}
    (hfield : WellFormedField (name, value)) :
    Fields.WellFormed { f with headers := f.headers.insert name value } where
  fields {other value'} hlookup := by
    by_cases heq : other = name
    · subst heq
      rw [AList.lookup_insert] at hlookup
      cases hlookup
      exact hfield
    · rw [AList.lookup_insert_ne heq] at hlookup
      exact h.fields hlookup
  length := h.length

lemma Fields.WellFormed.store (h : f.WellFormed) {name : Bytes}
    (hfield : WellFormedField (name, value)) : (f.store name value).WellFormed := by
  rw [Fields.store]
  split
  · next existing hlookup =>
    split
    · refine h.insert ⟨hfield.name, hfield.lower, ?_⟩
      have hexisting := (h.fields hlookup).value
      have hvalue := hfield.value
      simp only [isValidFieldValue, all_append, Bool.and_eq_true] at hexisting hvalue ⊢
      exact ⟨⟨hexisting, by decide⟩, hvalue⟩
    · exact h.insert hfield
  · exact h.insert hfield

lemma Fields.WellFormed.takeLength (h : f.WellFormed) (hg : f.takeLength value = .ok g) :
    g.WellFormed := by
  rw [Fields.takeLength] at hg
  split at hg
  · obtain ⟨hle, hg⟩ := of_ite_error_ok hg
    cases hg
    refine ⟨h.fields, fun hlength => ?_⟩
    cases hlength
    exact Nat.not_lt.mp hle
  · cases hg

lemma Fields.WellFormed.parseField (h : f.WellFormed) {line : Bytes}
    (hg : parseField line f = .ok g) : g.WellFormed := by
  rw [Http.parseField] at hg
  split at hg
  · cases hg
  next colon _ =>
  obtain ⟨hname, hg⟩ := of_ite_error_ok hg
  obtain ⟨hvalue, hg⟩ := of_ite_error_ok hg
  simp only [Bool.or_eq_true, not_or, Bool.not_eq_true', Bool.not_eq_false] at hname hvalue
  have hstore : ∀ {f' : Fields}, f'.WellFormed →
      (f'.store (lowerAscii (line.take colon)) (trimOws (line.drop (colon + 1)))).WellFormed :=
    fun hf' => hf'.store ⟨isToken_lowerAscii hname.2, lowerAscii_lowerAscii _,
      isValidFieldValue_trimOws hvalue⟩
  dsimp only at hg
  split at hg
  · obtain ⟨f', hlength, hg⟩ := exists_of_bind_ok hg
    cases (of_ite_error_ok hg).2
    exact hstore (h.takeLength hlength)
  · cases (of_ite_error_ok hg).2
    exact hstore h

lemma Fields.WellFormed.parseFields {bytes : Bytes} {requestLineEnd turns cursor stop : ℕ}
    (h : f.WellFormed) (hg : parseFields bytes requestLineEnd turns cursor f = .ok (g, stop)) :
    g.WellFormed := by
  induction turns generalizing cursor f with
  | zero => cases hg
  | succ turns ih =>
    obtain ⟨_, hg⟩ := of_ite_error_ok hg
    split at hg
    · cases (of_ite_error_ok hg).2
    obtain ⟨_, hg⟩ := of_ite_error_ok hg
    split at hg
    · cases hg
      exact h
    · obtain ⟨f', hfield, hg⟩ := exists_of_bind_ok hg
      exact ih (h.parseField hfield) hg

/-! ## Requests -/

lemma parseRequestLine_ok {line method target : Bytes}
    (h : parseRequestLine line = .ok (method, target)) :
    isToken method ∧
      method.length + 1 + target.length + 1 + (ascii "HTTP/1.1").length ≤ line.length := by
  rw [parseRequestLine] at h
  split at h
  · cases h
  next first hfirst =>
  split at h
  · cases h
  next second hsecond =>
  obtain ⟨hvalid, h⟩ := of_ite_error_ok h
  cases h
  simp only [Bool.or_eq_true, not_or, bne_iff_ne, ne_eq, not_not, Bool.not_eq_true',
    Bool.not_eq_false] at hvalid
  obtain ⟨⟨_, hversion⟩, htoken⟩ := hvalid
  have hbounds := findFrom_bounds hsecond (by decide)
  have hlength := congrArg List.length hversion
  refine ⟨htoken, ?_⟩
  simp only [length_take, length_drop, length_singleton] at hbounds hlength ⊢
  omega

/-- What an accepted request satisfies. -/
structure HttpRequest.WellFormed (r : HttpRequest) : Prop where
  method : isToken r.method
  version : r.version = ascii "HTTP/1.1"
  line : r.method.length + 1 + r.target.length + 1 + r.version.length ≤ kMaxRequestLineBytes
  body : r.body.length ≤ kMaxRequestBodyBytes
  fields : ∀ field ∈ r.fields, WellFormedField field

lemma wellFormed_of_parseBytes {bytes : Bytes} {r : HttpRequest} {length : ℕ}
    (h : parseBytes bytes = .ok (r, length)) : r.WellFormed := by
  obtain ⟨_, h⟩ := of_ite_error_ok h
  split at h
  · cases (of_ite_error_ok h).2
  next requestLineEnd _ =>
  obtain ⟨hline, h⟩ := of_ite_error_ok h
  obtain ⟨⟨method, target⟩, hmethod, h⟩ := exists_of_bind_ok h
  obtain ⟨⟨fields, cursor⟩, hfields, h⟩ := exists_of_bind_ok h
  cases (of_ite_error_ok h).2
  obtain ⟨htoken, hsize⟩ := parseRequestLine_ok hmethod
  have hwf := Fields.wellFormed_empty.parseFields hfields
  refine ⟨htoken, rfl, ?_, ?_, ?_⟩
  · have hle := length_take_le requestLineEnd bytes
    dsimp only
    omega
  · refine (length_take_le _ _).trans ?_
    cases hlength : fields.contentLength with
    | none => exact Nat.zero_le _
    | some length => exact hwf.length hlength
  · intro field hfield
    obtain ⟨entry, hentry, rfl⟩ := mem_map.mp hfield
    exact hwf.fields (AList.mem_lookup_iff.mpr hentry)

/-! ## Complete requests -/

section
variable {α β : Type} {x : Except ParseResult α}

lemma bind_ne_complete {f : α → Except ParseResult β} (hx : x ≠ .error .complete)
    (hf : ∀ a, f a ≠ .error .complete) : x >>= f ≠ .error .complete := by
  cases x with
  | error result => exact fun h => hx (by cases h; rfl)
  | ok a => exact hf a

lemma ite_ne_complete {p : Prop} [Decidable p] {result : ParseResult}
    (hresult : result ≠ .complete) (hx : x ≠ .error .complete) :
    (if p then .error result else x) ≠ .error .complete := by
  split
  · exact fun h => hresult (by cases h; rfl)
  · exact hx

end

lemma parseRequestLine_ne_complete (line : Bytes) : parseRequestLine line ≠ .error .complete := by
  rw [parseRequestLine]
  split
  · nofun
  split
  · nofun
  exact ite_ne_complete nofun nofun

lemma takeLength_ne_complete (f : Fields) (value : Bytes) :
    f.takeLength value ≠ .error .complete := by
  rw [Fields.takeLength]
  split
  · exact ite_ne_complete nofun nofun
  · nofun

lemma parseField_ne_complete (line : Bytes) (f : Fields) :
    parseField line f ≠ .error .complete := by
  rw [parseField]
  split
  · nofun
  refine ite_ne_complete nofun (ite_ne_complete nofun ?_)
  dsimp only
  split
  · exact bind_ne_complete (takeLength_ne_complete f _) fun _ => ite_ne_complete nofun nofun
  · exact ite_ne_complete nofun nofun

lemma parseFields_ne_complete (bytes : Bytes) (requestLineEnd turns cursor : ℕ) (f : Fields) :
    parseFields bytes requestLineEnd turns cursor f ≠ .error .complete := by
  induction turns generalizing cursor f with
  | zero => nofun
  | succ turns ih =>
    rw [parseFields]
    refine ite_ne_complete nofun ?_
    split
    · exact ite_ne_complete nofun nofun
    refine ite_ne_complete nofun ?_
    split
    · nofun
    · exact bind_ne_complete (parseField_ne_complete _ f) fun f' => ih _ f'

/-- `kComplete` is never the answer of an early return. -/
lemma parseBytes_ne_complete (bytes : Bytes) : parseBytes bytes ≠ .error .complete := by
  refine ite_ne_complete nofun ?_
  split
  · exact ite_ne_complete nofun nofun
  refine ite_ne_complete nofun (bind_ne_complete (parseRequestLine_ne_complete _) fun _ => ?_)
  exact bind_ne_complete (parseFields_ne_complete _ _ _ _ _) fun _ => ite_ne_complete nofun nofun

lemma HttpRequestParser.wellFormed_of_complete {input : Bytes}
    (h : (parse {} input).1.result = .complete) : (parse {} input).1.request.WellFormed := by
  rw [parse, if_neg (by simp)] at h ⊢
  cases hparse : parseBytes input with
  | error result =>
    rw [hparse] at h
    dsimp only at h
    rw [h] at hparse
    exact absurd hparse (parseBytes_ne_complete input)
  | ok parsed => exact wellFormed_of_parseBytes hparse

end AegisGate.Http
