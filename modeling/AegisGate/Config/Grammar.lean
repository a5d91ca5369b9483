import AegisGate.Config.Loader
import AegisGate.Http.SerializedRequest

/-!
# The grammar of targets and addresses

`IsValidTarget` splits a target at its first question mark and `ParseNumericIpv4` goes from dot to
dot. What they accept is stated here without positions: a path, a path and a query, four octets
with dots between them.
-/

namespace AegisGate.Config
open Http Option
open List hiding Vector

lemma question_not_mem {path : Bytes} (h : UriText false path) : 63 ∉ path := by
  intro hmem
  rcases h.mem hmem with huri | hpercent | hhex
  · exact absurd huri (by decide)
  · exact absurd hpercent (by decide)
  · exact absurd hhex (by decide)

/-- A path, and a query after the first question mark. -/
def IsTarget (target : Bytes) : Prop :=
  ∃ path, path.head? = some 47 ∧ UriText false path ∧
    (target = path ∨ ∃ query, target = path ++ 63 :: query ∧ UriText true query)

lemma isTarget_of_isValidTarget {target : Bytes} (h : isValidTarget target) :
    IsTarget target := by
  rw [isValidTarget] at h
  split at h
  · cases h
  next hslash =>
  have hslash : target.head? = some 47 := by simpa using hslash
  split at h
  · exact ⟨target, hslash, isValidUriComponent_iff.mp h, .inl rfl⟩
  next start hfind =>
  simp only [Bool.and_eq_true, isValidUriComponent_iff] at h
  have hsplit := eq_append_of_find hfind
  refine ⟨target.take start, ?_, h.1, .inr ⟨target.drop (start + 1), hsplit, h.2⟩⟩
  -- The target begins with a slash, so the question mark is not at its front.
  cases start with
  | zero =>
    rw [hsplit] at hslash
    simp at hslash
  | succ start =>
    rw [head?_take, if_neg (Nat.succ_ne_zero start)]
    exact hslash

lemma isValidTarget_of_isTarget {target : Bytes} (h : IsTarget target) :
    isValidTarget target := by
  obtain ⟨path, hslash, hpath, rfl | ⟨query, rfl, hquery⟩⟩ := h
  · rw [isValidTarget, hslash, find_singleton_eq_none.mpr (question_not_mem hpath)]
    simpa [isValidUriComponent_iff] using hpath
  · have hfront : (path ++ 63 :: query).head? = some 47 := by simp [head?_append, hslash]
    rw [isValidTarget, hfront, find_singleton_append (question_not_mem hpath)]
    simp [isValidUriComponent_iff, hpath, hquery]

/-- `IsValidTarget` accepts the targets, `IsValidPathPrefix` the paths. -/
theorem isValidTarget_grammar (target : Bytes) :
    (isValidTarget target ↔ IsTarget target) ∧
    (isValidPathPrefix target ↔ target.head? = some 47 ∧ UriText false target) ∧
    (isValidPathPrefix target → isValidTarget target) := by
  have hpath : isValidPathPrefix target ↔ target.head? = some 47 ∧ UriText false target := by
    simp [isValidPathPrefix, isValidUriComponent_iff]
  refine ⟨⟨isTarget_of_isValidTarget, isValidTarget_of_isTarget⟩, hpath, fun h => ?_⟩
  obtain ⟨hslash, htext⟩ := hpath.mp h
  exact isValidTarget_of_isTarget ⟨target, hslash, htext, .inl rfl⟩

/-! ## Addresses -/

/-- One to three digits with a value of at most 255. -/
def IsOctet (part : Bytes) (value : UInt8) : Prop :=
  part ≠ [] ∧ part.length ≤ 3 ∧ (∀ c ∈ part, isDigit c) ∧
    part.foldl appendDigit 0 = value.toNat

lemma decimal_octet {part : Bytes} {n : ℕ} (hlength : part.length ≤ 3)
    (h : decimal part = some n) (hn : n ≤ 255) : IsOctet part (.ofNat n) := by
  rw [decimal] at h
  obtain ⟨⟨hne, hdigits⟩, hvalue⟩ := ite_none_right_eq_some.mp h
  refine ⟨hne, hlength, all_eq_true.mp hdigits, ?_⟩
  rw [UInt8.toNat_ofNat_of_lt' (by rw [UInt8.size]; omega)]
  exact some.inj hvalue

lemma ipv4Component_eq_some {host : Bytes} {value : UInt8} {rest : Option Bytes} :
    ipv4Component host = some (value, rest) ↔
      ∃ part, IsOctet part value ∧ host = part ++ rest.elim [] (46 :: ·) := by
  constructor
  · intro h
    rw [ipv4Component] at h
    obtain ⟨hlength, h⟩ := ite_none_left_eq_some.mp h
    rw [not_lt] at hlength
    split at h
    · cases h
    next n hdecimal =>
    obtain ⟨hn, h⟩ := ite_none_left_eq_some.mp h
    cases h
    refine ⟨_, decimal_octet hlength hdecimal (not_lt.mp hn), ?_⟩
    cases hdot : find [46] host with
    | none => simp
    | some dot => exact eq_append_of_find hdot
  · rintro ⟨part, ⟨hne, hlength, hdigits, hvalue⟩, rfl⟩
    have hmem : 46 ∉ part := fun hmem => absurd (hdigits 46 hmem) (by decide)
    have hdecimal : decimal part = some value.toNat := by
      rw [decimal, if_pos ⟨hne, all_eq_true.mpr hdigits⟩, hvalue]
    have hle : value.toNat ≤ 255 := Nat.le_of_lt_succ value.toNat_lt
    rw [ipv4Component]
    cases rest with
    | none =>
      rw [elim_none, append_nil, find_singleton_eq_none.mpr hmem]
      simp [hdecimal, not_lt.mpr hlength, not_lt.mpr hle]
    | some rest =>
      rw [elim_some, find_singleton_append hmem]
      simp [hdecimal, not_lt.mpr hlength, not_lt.mpr hle]

/-- `ParseNumericIpv4` accepts four octets with single dots between them, and stores them. -/
theorem parseNumericIpv4_eq_some (host : Bytes) (address : Vector UInt8 4) :
    parseNumericIpv4 host = some address ↔ ∃ a b c d,
      host = a ++ 46 :: (b ++ 46 :: (c ++ 46 :: d)) ∧ IsOctet a address[0] ∧
        IsOctet b address[1] ∧ IsOctet c address[2] ∧ IsOctet d address[3] := by
  have hloop : parseNumericIpv4 host = some address ↔ ∃ h₁ h₂ h₃,
      ipv4Component host = some (address[0], some h₁) ∧
      ipv4Component h₁ = some (address[1], some h₂) ∧
      ipv4Component h₂ = some (address[2], some h₃) ∧
      ipv4Component h₃ = some (address[3], none) := by
    constructor
    · intro h
      simp only [parseNumericIpv4] at h
      repeat' split at h
      all_goals try cases h
      next h₁ ha _ _ h₂ hb _ _ h₃ hc _ _ hd =>
      exact ⟨h₁, h₂, h₃, ha, hb, hc, hd⟩
    · rintro ⟨h₁, h₂, h₃, ha, hb, hc, hd⟩
      simp only [parseNumericIpv4, ha, hb, hc, hd]
      refine congrArg some (Vector.ext fun i hi => ?_)
      interval_cases i <;> rfl
  rw [hloop]
  simp only [ipv4Component_eq_some, elim_some, elim_none, append_nil]
  constructor
  · rintro ⟨_, _, d, ⟨a, ha, rfl⟩, ⟨b, hb, rfl⟩, ⟨c, hc, rfl⟩, _, hd, rfl⟩
    exact ⟨a, b, c, d, rfl, ha, hb, hc, hd⟩
  · rintro ⟨a, b, c, d, rfl, ha, hb, hc, hd⟩
    exact ⟨_, _, d, ⟨a, ha, rfl⟩, ⟨b, hb, rfl⟩, ⟨c, hc, rfl⟩, d, hd, rfl⟩

end AegisGate.Config
