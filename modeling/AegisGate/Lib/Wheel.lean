import Mathlib

/-!
# Wheels and scatter loops

A wheel is a ring of `n` cells, one of them active, in which a step makes the next cell the
active one. `back n i j` is how many steps ago `j` was active, seen from `i`.

A scatter loop reads a list and rewrites the cell each element names. When no cell is named
twice, every element finds the cell as it was before the loop, so that the loop loses nothing
and mixes nothing.
-/

namespace AegisGate.Lib
open List Function

/-! ## Wheels -/

/-- How many cells `j` is behind the active cell `i` on a wheel of `n`. -/
def back (n i j : ℕ) : ℕ := if j ≤ i then i - j else i + n - j

lemma back_self (n i : ℕ) : back n i i = 0 := by simp [back]

lemma back_injective {n i j k : ℕ} (hj : j < n) (hk : k < n) (h : back n i j = back n i k) :
    j = k := by
  rw [back, back] at h
  split at h <;> split at h <;> omega

/-- A step moves every cell but the one it reaches one further back. -/
lemma back_next {n i j : ℕ} (hi : i < n) (hj : j < n) (hne : j ≠ (i + 1) % n) :
    back n ((i + 1) % n) j = back n i j + 1 := by
  by_cases hwrap : i + 1 = n
  · rw [hwrap, Nat.mod_self] at hne ⊢
    rw [back, back, if_neg (by omega), if_pos (by omega)]
    omega
  · rw [Nat.mod_eq_of_lt (by omega)] at hne ⊢
    rw [back, back]
    split <;> split <;> omega

lemma back_lt {n i j : ℕ} (hi : i < n) (hj : j < n) : back n i j < n := by
  rw [back]
  split <;> omega

/-- The distance of a cell, taken as a cell, is at the distance of that cell. -/
lemma back_back {n i j : ℕ} (hi : i < n) (hj : j < n) : back n i (back n i j) = j := by
  rw [back, back]
  split <;> split <;> omega

/-! ## What a wheel shows -/

section Shows
variable {β : Type*} {n i : ℕ} {cells : ℕ → β} {z : ℤ} {f : ℤ → β}

/-- The cells are the last `n` values of a sequence, the active cell `i` the one at `z`. -/
def Shows (n i : ℕ) (cells : ℕ → β) (z : ℤ) (f : ℤ → β) : Prop :=
  ∀ j < n, cells j = f (z - back n i j)

/-- A step that writes the next value into the cell it reaches. -/
lemma Shows.next (h : Shows n i cells z f) (hi : i < n) :
    Shows n ((i + 1) % n) (update cells ((i + 1) % n) (f (z + 1))) (z + 1) f := by
  intro j hj
  by_cases hreached : j = (i + 1) % n
  · rw [hreached, update_self, back_self]
    simp
  · rw [update_of_ne hreached, h j hj, back_next hi hj hreached]
    congr 1
    omega

/-- The last value changes, and the active cell with it. -/
lemma Shows.write (h : Shows n i cells z f) (hi : i < n) (y : β) :
    Shows n i (update cells i y) z (update f z y) := by
  intro j hj
  by_cases hactive : j = i
  · rw [hactive, back_self]
    simp
  · have hback : back n i j ≠ 0 := by
      rw [← back_self n i]
      exact fun heq => hactive (back_injective hj hi heq)
    have hne : z - back n i j ≠ z := by omega
    rw [update_of_ne hactive, update_of_ne hne, h j hj]

/-- The sum over the cells is the sum over the last values. -/
lemma Shows.sum {M : Type*} [AddCommMonoid M] (h : Shows n i cells z f) (hi : i < n) (g : β → M) :
    ∑ j ∈ Finset.range n, g (cells j) = ∑ k ∈ Finset.range n, g (f (z - k)) := by
  refine Finset.sum_nbij' (back n i) (back n i) ?_ ?_ ?_ ?_ ?_
  · exact fun j hj => Finset.mem_range.mpr (back_lt hi (Finset.mem_range.mp hj))
  · exact fun k hk => Finset.mem_range.mpr (back_lt hi (Finset.mem_range.mp hk))
  · exact fun j hj => back_back hi (Finset.mem_range.mp hj)
  · exact fun k hk => back_back hi (Finset.mem_range.mp hk)
  · exact fun j hj => congrArg g (h j (Finset.mem_range.mp hj))

end Shows

/-! ## Scatter loops -/

section Scatter
variable {α κ β : Type*} [DecidableEq κ]

/-- Rewrite the cell that each element names. -/
def scatter (key : α → κ) (write : α → β → β) (l : List α) (y : κ → β) : κ → β :=
  l.foldl (fun y a => update y (key a) (write a (y (key a)))) y

variable {key : α → κ} {write : α → β → β} {l : List α} {y : κ → β}

lemma scatter_of_notMem {k : κ} (h : k ∉ l.map key) : scatter key write l y k = y k := by
  induction l generalizing y with
  | nil => rfl
  | cons a l ih =>
    rw [map_cons, mem_cons, not_or] at h
    exact (ih h.2).trans (Function.update_of_ne h.1 _ _)

lemma scatter_of_mem (hnodup : (l.map key).Nodup) {a : α} (ha : a ∈ l) :
    scatter key write l y (key a) = write a (y (key a)) := by
  induction l generalizing y with
  | nil => cases ha
  | cons c l ih =>
    rw [map_cons, nodup_cons] at hnodup
    rcases mem_cons.mp ha with rfl | ha
    · exact (scatter_of_notMem hnodup.1).trans (Function.update_self _ _ _)
    · -- The first element wrote another cell.
      have hne : key a ≠ key c := fun heq => hnodup.1 (heq ▸ mem_map_of_mem ha)
      have hrest := ih (y := Function.update y (key c) (write c (y (key c)))) hnodup.2 ha
      rw [Function.update_of_ne hne] at hrest
      exact hrest

/-- What is measured in the cells afterwards was brought by the elements. -/
lemma sum_scatter (f : β → ℕ) {s : Finset κ} (hnodup : (l.map key).Nodup)
    (hkeys : ∀ a ∈ l, key a ∈ s) (hempty : ∀ k, f (y k) = 0) :
    ∑ k ∈ s, f (scatter key write l y k) = (l.map fun a => f (write a (y (key a)))).sum := by
  have hsub : (l.map key).toFinset ⊆ s := by
    intro k hk
    obtain ⟨a, ha, rfl⟩ := mem_map.mp (mem_toFinset.mp hk)
    exact hkeys a ha
  calc ∑ k ∈ s, f (scatter key write l y k)
      = ∑ k ∈ (l.map key).toFinset, f (scatter key write l y k) := by
        refine (Finset.sum_subset hsub fun k _ hk => ?_).symm
        rw [scatter_of_notMem fun hmem => hk (mem_toFinset.mpr hmem), hempty]
    _ = ((l.map key).map fun k => f (scatter key write l y k)).sum := sum_toFinset _ hnodup
    _ = (l.map fun a => f (write a (y (key a)))).sum := by
        rw [map_map]
        refine congrArg sum (map_congr_left fun a ha => ?_)
        rw [Function.comp_apply, scatter_of_mem hnodup ha]

end Scatter

/-! ## Counting -/

/-- Disjoint parts of a list count no more than what they are all part of. -/
lemma sum_countP_le {α : Type*} {l : List α} {js : Finset ℕ} {p : ℕ → α → Bool}
    {q : α → Bool} (hq : ∀ j ∈ js, ∀ a, p j a → q a)
    (hdisjoint : ∀ j ∈ js, ∀ k ∈ js, ∀ a, p j a → p k a → j = k) :
    ∑ j ∈ js, l.countP (p j) ≤ l.countP q := by
  induction l with
  | nil => simp
  | cons a l ih =>
    simp only [countP_cons, Finset.sum_add_distrib]
    have hone : (∑ j ∈ js, if p j a then 1 else 0) ≤ if q a then 1 else 0 := by
      rw [← Finset.card_filter]
      split
      · refine Finset.card_le_one.mpr fun j hj k hk => ?_
        obtain ⟨hj, hpj⟩ := Finset.mem_filter.mp hj
        obtain ⟨hk, hpk⟩ := Finset.mem_filter.mp hk
        exact hdisjoint j hj k hk a hpj hpk
      · next hno =>
        rw [Nat.le_zero, Finset.card_eq_zero, Finset.filter_eq_empty_iff]
        exact fun j hj hpj => hno (hq j hj a hpj)
    omega

/-- What has its value in a set is counted value by value. -/
lemma countP_mem_eq_sum {α : Type*} {κ : Type*} [DecidableEq κ] (f : α → κ) (js : Finset κ)
    (l : List α) : l.countP (fun a => f a ∈ js) = ∑ j ∈ js, l.countP fun a => f a = j := by
  induction l with
  | nil => simp
  | cons a l ih => simp [countP_cons, Finset.sum_add_distrib, ih]

end AegisGate.Lib
