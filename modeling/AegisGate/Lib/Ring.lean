import Mathlib

/-!
# Free-running counters, ring slots and holders

A ring of `cap` slots is often addressed by a counter that is never reduced: the
`k`-th claim uses the slot `k % 2 ^ w % cap`, where `w` is the width of the
counter. As long as the counter has not wrapped this is `k % cap`, and claims
fewer than `cap` apart use different slots. After a wrap it still is when `cap`
divides `2 ^ w`, and only then: `windowInjective_iff`.

The second half counts what the cells of a list hold. Replacing one cell moves
what it held and nothing else, which is all that a conservation argument needs.
-/

namespace AegisGate.Lib

/-! ## Counters of `w` bits -/

/-- Post-increment of a `w`-bit counter. -/
def incW (w n : ℕ) : ℕ := (n + 1) % 2 ^ w

/-- Difference of two `w`-bit counters. -/
def subW (w a b : ℕ) : ℕ := (a + 2 ^ w - b) % 2 ^ w

@[simp] lemma incW_mod (w n : ℕ) : incW w (n % 2 ^ w) = (n + 1) % 2 ^ w := by
  simp [incW, Nat.add_mod]

variable {w cap : ℕ}

/-- The difference of two wrapped counters is the true difference while that is
small, however often the counters have wrapped. -/
lemma subW_mod {a b : ℕ} (hba : b ≤ a) (hlt : a - b < 2 ^ w) :
    subW w (a % 2 ^ w) (b % 2 ^ w) = a - b := by
  have hpos : 0 < 2 ^ w := Nat.two_pow_pos w
  have hb : b % 2 ^ w < 2 ^ w := Nat.mod_lt _ hpos
  obtain ⟨d, rfl⟩ := Nat.exists_eq_add_of_le hba
  have hd : d < 2 ^ w := by omega
  have hcongr : (b + d) % 2 ^ w = (b % 2 ^ w + d) % 2 ^ w := by simp
  rw [hcongr, subW]
  by_cases h : b % 2 ^ w + d < 2 ^ w
  · rw [Nat.mod_eq_of_lt h]
    have he : b % 2 ^ w + d + 2 ^ w - b % 2 ^ w = d + 2 ^ w := by omega
    rw [he, Nat.add_mod_right, Nat.mod_eq_of_lt hd]
    omega
  have hm : (b % 2 ^ w + d) % 2 ^ w = b % 2 ^ w + d - 2 ^ w := by
    rw [Nat.mod_eq_sub_mod (by omega), Nat.mod_eq_of_lt (by omega)]
  rw [hm]
  have he : b % 2 ^ w + d - 2 ^ w + 2 ^ w - b % 2 ^ w = d := by omega
  rw [he, Nat.mod_eq_of_lt hd]
  omega

/-! ## Slots of a ring -/

/-- The slot that the `k`-th claim of a `w`-bit counter addresses. -/
def ringSlot (w cap k : ℕ) : ℕ := k % 2 ^ w % cap

lemma ringSlot_of_dvd (h : cap ∣ 2 ^ w) (k : ℕ) : ringSlot w cap k = k % cap :=
  Nat.mod_mod_of_dvd k h

lemma ringSlot_of_lt {k : ℕ} (cap : ℕ) (h : k < 2 ^ w) : ringSlot w cap k = k % cap := by
  rw [ringSlot, Nat.mod_eq_of_lt h]

/-- Claims less than `cap` apart have different residues. -/
lemma mod_ne_of_lt_add {a b : ℕ} (hab : a < b) (hb : b < a + cap) : a % cap ≠ b % cap := by
  intro h
  have hdvd : cap ∣ b - a := Nat.dvd_of_mod_eq_zero (Nat.sub_mod_eq_zero_of_mod_eq h.symm)
  have hle : cap ≤ b - a := Nat.le_of_dvd (by omega) hdvd
  omega

/-- No two of the first `bound` claims that lie within one window of `cap`
consecutive claims share a slot. -/
def WindowInjective (w cap bound : ℕ) : Prop :=
  ∀ a b, a < b → b < a + cap → b < bound → ringSlot w cap a ≠ ringSlot w cap b

/-- **When a free-running counter addresses a ring correctly**: before its first
wrap, or for ever when the capacity divides the counter's range. -/
theorem windowInjective_iff {bound : ℕ} (hcap : 0 < cap) :
    WindowInjective w cap bound ↔ cap ∣ 2 ^ w ∨ bound ≤ 2 ^ w := by
  constructor
  · intro h
    by_contra hne
    rw [not_or, Nat.not_le] at hne
    obtain ⟨hndvd, hbound⟩ := hne
    -- The claim that starts the last full turn before the wrap, and the first one after it.
    have hr : 0 < 2 ^ w % cap := Nat.pos_of_ne_zero fun h0 => hndvd (Nat.dvd_of_mod_eq_zero h0)
    have hrlt : 2 ^ w % cap < cap := Nat.mod_lt _ hcap
    have hrle : 2 ^ w % cap ≤ 2 ^ w := Nat.mod_le _ _
    refine h (2 ^ w - 2 ^ w % cap) (2 ^ w) (by omega) (by omega) hbound ?_
    rw [ringSlot_of_lt cap (by omega)]
    have hz : (2 ^ w - 2 ^ w % cap) % cap = 0 :=
      Nat.mod_eq_zero_of_dvd (Nat.dvd_sub_mod _)
    simp [ringSlot, hz]
  · rintro (hdvd | hbound) a b hab hb hlt
    · rw [ringSlot_of_dvd hdvd, ringSlot_of_dvd hdvd]
      exact mod_ne_of_lt_add hab hb
    · rw [ringSlot_of_lt cap (by omega), ringSlot_of_lt cap (by omega)]
      exact mod_ne_of_lt_add hab hb

lemma WindowInjective.mono {bound bound' : ℕ} (h : WindowInjective w cap bound)
    (hle : bound' ≤ bound) : WindowInjective w cap bound' :=
  fun a b hab hb hlt => h a b hab hb (by omega)

/-! ## What the cells of a list hold -/

universe u v
variable {α : Type u} {β : Type v}

/-- Everything the cells hold, with multiplicity. -/
def held (f : α → Option β) (cells : List α) : Multiset β := ↑(cells.filterMap f)

/-- What a single cell holds. -/
def heldBy (f : α → Option β) (a : α) : Multiset β := ↑(f a).toList

variable {f : α → Option β} {a : α}

@[simp] lemma heldBy_of_none (h : f a = none) : heldBy f a = 0 := by
  simp [heldBy, h]

lemma heldBy_of_some {b : β} (h : f a = some b) : heldBy f a = {b} := by
  simp [heldBy, h]

@[simp] lemma held_nil (f : α → Option β) : held f [] = 0 := rfl

lemma held_cons (f : α → Option β) (a : α) (cells : List α) :
    held f (a :: cells) = heldBy f a + held f cells := by
  simp only [held, heldBy, List.filterMap_cons]
  cases f a <;> simp

lemma held_append (f : α → Option β) (xs ys : List α) :
    held f (xs ++ ys) = held f xs + held f ys := by
  simp [held, List.filterMap_append]

lemma held_singleton (f : α → Option β) (a : α) : held f [a] = heldBy f a := by
  simp [held_cons]

/-- **Frame rule.** Overwriting a cell exchanges what that cell held and leaves
everything else in place. -/
theorem held_set {cells : List α} {i : ℕ} (b : α) (h : cells[i]? = some a) :
    held f (cells.set i b) + heldBy f a = held f cells + heldBy f b := by
  obtain ⟨hi, rfl⟩ := List.getElem?_eq_some_iff.mp h
  have hset : held f (cells.set i b) = held f (b :: cells.eraseIdx i) :=
    Multiset.coe_eq_coe.mpr ((List.set_perm_cons_eraseIdx hi b).filterMap f)
  have hget : held f cells = held f (cells[i] :: cells.eraseIdx i) :=
    Multiset.coe_eq_coe.mpr ((List.getElem_cons_eraseIdx_perm hi).symm.filterMap f)
  rw [hset, hget, held_cons, held_cons]
  abel

/-- Overwriting a cell by one that holds the same changes nothing. -/
lemma held_set_of_eq {cells : List α} {i : ℕ} {b : α} (h : cells[i]? = some a) (hab : f b = f a) :
    held f (cells.set i b) = held f cells := by
  have hset := held_set b h (f := f)
  rw [heldBy, heldBy, hab] at hset
  exact Multiset.add_left_inj.mp hset

end AegisGate.Lib
