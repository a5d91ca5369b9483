import AegisGate.Http.RequestParser

/-!
# Decimal numbers on the wire

A length is `1*DIGIT`. `ParseContentLength` reads such a text digit by digit and gives up before
the value leaves 64 bits; `std::to_string` writes one.
-/

namespace AegisGate.Http
open List

/-- `DIGIT`. -/
def isDigit (c : UInt8) : Bool := 48 ≤ c && c ≤ 57

def appendDigit (n : ℕ) (c : UInt8) : ℕ := n * 10 + (c.toNat - 48)

/-- The number that `1*DIGIT` stands for. -/
def decimal (value : Bytes) : Option ℕ :=
  if value ≠ [] ∧ value.all isDigit then some (value.foldl appendDigit 0) else none

lemma le_foldl_appendDigit (value : Bytes) (n : ℕ) : n ≤ value.foldl appendDigit n := by
  induction value generalizing n with
  | nil => exact Nat.le_refl n
  | cons c value ih =>
    refine Nat.le_trans ?_ (ih (appendDigit n c))
    rw [appendDigit]
    omega

/-- One turn: a digit is taken as long as the number stays below `2 ^ 64`. -/
lemma takeDigit_eq (n : ℕ) (c : UInt8) : takeDigit n c =
      if isDigit c ∧ appendDigit n c < 2 ^ 64 then some (appendDigit n c) else none := by
  by_cases hdigit : isDigit c
  · have hrange : ¬ (c < 48 || 57 < c) := by
      simp only [isDigit, Bool.and_eq_true, decide_eq_true_eq] at hdigit
      simpa [UInt8.not_lt] using hdigit
    have hle : c.toNat - 48 ≤ 9 := by
      simp only [isDigit, Bool.and_eq_true, decide_eq_true_eq, UInt8.le_iff_toNat_le,
        UInt8.reduceToNat] at hdigit
      omega
    have hguard : (2 ^ 64 - 1 - (c.toNat - 48)) / 10 < n ↔ ¬ appendDigit n c < 2 ^ 64 := by
      rw [appendDigit]
      omega
    rw [takeDigit, if_neg hrange]
    by_cases hfits : appendDigit n c < 2 ^ 64
    · rw [if_neg (fun h => hguard.mp h hfits), if_pos (And.intro hdigit hfits)]
      rfl
    · rw [if_pos (hguard.mpr hfits), if_neg (fun h : _ ∧ _ => hfits h.2)]
  · have hrange : (c < 48 || 57 < c) := by
      simp only [isDigit, Bool.and_eq_true, decide_eq_true_eq, not_and_or, UInt8.not_le] at hdigit
      simpa using hdigit
    rw [takeDigit, if_pos hrange, if_neg (fun h => hdigit h.1)]

lemma foldlM_takeDigit (value : Bytes) {n : ℕ} (hn : n < 2 ^ 64) (length : ℕ) :
    value.foldlM takeDigit n = some length ↔
      value.all isDigit ∧ value.foldl appendDigit n = length ∧ length < 2 ^ 64 := by
  induction value generalizing n with
  | nil =>
    simp only [foldlM_nil, all_nil, foldl_nil, Option.pure_def, Option.some_inj, true_and]
    constructor
    · intro h
      exact ⟨h, h ▸ hn⟩
    · intro h
      exact h.1
  | cons c value ih =>
    rw [foldlM_cons, takeDigit_eq, all_cons, foldl_cons, Bool.and_eq_true]
    by_cases hdigit : isDigit c
    · by_cases hfits : appendDigit n c < 2 ^ 64
      · rw [if_pos ⟨hdigit, hfits⟩]
        simpa [hdigit] using ih hfits
      · rw [if_neg (fun h => hfits h.2)]
        simp only [Option.bind_eq_bind, Option.bind_none, reduceCtorEq, false_iff]
        intro h
        have hle := le_foldl_appendDigit value (appendDigit n c)
        omega
    · rw [if_neg (fun h => hdigit h.1)]
      simp [hdigit]

/-- `ParseContentLength` reads the decimal numbers below `2 ^ 64`. -/
lemma parseContentLength_eq_some (value : Bytes) (length : ℕ) :
    parseContentLength value = some length ↔ decimal value = some length ∧ length < 2 ^ 64 := by
  rw [parseContentLength, decimal]
  by_cases hempty : value = []
  · simp [hempty]
  · rw [if_neg (by simpa using hempty), foldlM_takeDigit value (by decide)]
    by_cases hdigits : value.all isDigit
    · simp [hempty, hdigits]
    · simp [hempty, hdigits]

/-- **`ParseContentLength`**, in both parsers: it accepts the digit strings with a value below
`2 ^ 64`, returns that value, and `parsed * 10 + digit` does not wrap in any turn of its loop. -/
theorem parseContentLength_exact (value : Bytes) :
    (∀ length, parseContentLength value = some length ↔ value ≠ [] ∧
      (∀ c ∈ value, isDigit c) ∧ value.foldl appendDigit 0 = length ∧ length < 2 ^ 64) ∧
    ∀ (k parsed : ℕ) (c : UInt8) (next : ℕ), (value.take k).foldlM takeDigit 0 = some parsed →
      value[k]? = some c → takeDigit parsed c = some next →
        next = parsed * 10 + (c.toNat - 48) ∧ next < 2 ^ 64 := by
  refine ⟨fun length => ?_, fun k parsed c next _ _ hnext => ?_⟩
  · rw [parseContentLength_eq_some, decimal, Option.ite_none_right_eq_some, all_eq_true,
      Option.some_inj]
    simp only [and_assoc]
  · rw [takeDigit_eq, Option.ite_none_right_eq_some] at hnext
    obtain ⟨⟨_, hfits⟩, hvalue⟩ := hnext
    cases hvalue
    exact ⟨rfl, hfits⟩

/-! ## `std::to_string` -/

lemma isDigit_ofNat {c : Char} (h : c.isDigit) :
    isDigit (UInt8.ofNat c.toNat) ∧ (UInt8.ofNat c.toNat).toNat = c.toNat := by
  simp only [Char.isDigit, Bool.and_eq_true, decide_eq_true_eq, ge_iff_le,
    UInt32.le_iff_toNat_le, Char.toNat_val] at h
  obtain ⟨hlow, hhigh⟩ := h
  have hlow : 48 ≤ c.toNat := hlow
  have hhigh : c.toNat ≤ 57 := hhigh
  have hnat : (UInt8.ofNat c.toNat).toNat = c.toNat :=
    UInt8.toNat_ofNat_of_lt (Nat.lt_of_le_of_lt hhigh (by decide))
  refine ⟨?_, hnat⟩
  simp only [isDigit, Bool.and_eq_true, decide_eq_true_eq, UInt8.le_iff_toNat_le,
    UInt8.reduceToNat, hnat]
  exact ⟨hlow, hhigh⟩

lemma ascii_toString (n : ℕ) :
    ascii (toString n) = (Nat.toDigits 10 n).map fun c => UInt8.ofNat c.toNat := by
  rw [ascii, Nat.toString_eq_ofList_toDigits, String.toList_ofList]

lemma all_isDigit_toString (n : ℕ) : (ascii (toString n)).all isDigit := by
  rw [ascii_toString, all_map, all_eq_true]
  intro c hc
  exact (isDigit_ofNat (Nat.isDigit_of_mem_toDigits (by decide) (by decide) hc)).1

lemma foldl_appendDigit_map {chars : List Char} (h : ∀ c ∈ chars, c.isDigit) (n : ℕ) :
    (chars.map fun c => UInt8.ofNat c.toNat).foldl appendDigit n = Nat.ofDigitChars 10 chars n := by
  induction chars generalizing n with
  | nil => rfl
  | cons c chars ih =>
    have hc := (isDigit_ofNat (h c mem_cons_self)).2
    rw [map_cons, foldl_cons, ih fun d hd => h d (mem_cons_of_mem c hd),
      Nat.ofDigitChars_cons, appendDigit, hc, Nat.mul_comm]
    rfl

@[simp] lemma decimal_toString (n : ℕ) : decimal (ascii (toString n)) = some n := by
  have hdigits : ∀ c ∈ Nat.toDigits 10 n, c.isDigit := by
    intro c hc
    exact Nat.isDigit_of_mem_toDigits (by decide) (by decide) hc
  have hne : ascii (toString n) ≠ [] := by
    rw [ascii_toString]
    simp [Nat.toDigits_ne_nil]
  rw [decimal, if_pos ⟨hne, all_isDigit_toString n⟩, ascii_toString,
    foldl_appendDigit_map hdigits, Nat.ofDigitChars_ten_toDigits]

lemma parseContentLength_toString {n : ℕ} (h : n < 2 ^ 64) :
    parseContentLength (ascii (toString n)) = some n :=
  (parseContentLength_eq_some _ _).mpr ⟨decimal_toString n, h⟩

end AegisGate.Http
