import Mathlib

/-!
# Ragged two-dimensional tables

A table is a list of rows of any lengths. Reading outside gives `none` and updating
outside does nothing, as the bounds checks of the code around such tables do.
-/

namespace AegisGate.Lib
open Option

universe u v

/-- A cell for every endpoint of every route. -/
abbrev Grid (α : Type u) := List (List α)

namespace Grid
variable {α : Type u} {β : Type v}

/-- The cell in a row and column. -/
def cell (g : Grid α) (i j : ℕ) : Option α := (g[i]?).bind fun row => row[j]?

/-- Replace one cell by its image, if it exists. -/
def update (g : Grid α) (i j : ℕ) (f : α → α) : Grid α :=
  g.modify i fun row => row.modify j f

lemma cell_update (g : Grid α) (i j : ℕ) (f : α → α) (r c : ℕ) : (g.update i j f).cell r c =
      if r = i ∧ c = j then (g.cell r c).map f else g.cell r c := by
  simp only [cell, update, List.getElem?_modify]
  by_cases hr : i = r
  · subst hr
    cases hrow : g[i]? with
    | none => simp
    | some row =>
      by_cases hc : j = c
      · subst hc
        simp
      · simp [hc, Ne.symm hc]
  · simp [hr, Ne.symm hr]

lemma cell_map (g : Grid α) (f : α → β) (r c : ℕ) :
    Grid.cell (g.map fun row => row.map f) r c = (g.cell r c).map f := by
  simp only [cell, List.getElem?_map]
  cases g[r]? <;> simp

end Grid

/-- The elements of a list that was built by a fallible map. -/
lemma getElem?_of_mapM {α : Type u} {β : Type v} {f : α → Option β} {xs : List α} {ys : List β}
    (h : xs.mapM f = some ys) (i : ℕ) : ys[i]? = (xs[i]?).bind f := by
  induction xs generalizing ys i with
  | nil =>
    simp only [List.mapM_nil, pure_def, Option.some.injEq] at h
    subst h
    simp
  | cons x xs ih =>
    simp only [List.mapM_cons, pure_def, bind_eq_bind, bind_eq_some_iff, Option.some.injEq] at h
    obtain ⟨y, hy, ys', hys, rfl⟩ := h
    cases i with
    | zero => simp [hy]
    | succ i => simpa using ih hys i

lemma length_of_mapM {α : Type u} {β : Type v} {f : α → Option β} {xs : List α} {ys : List β}
    (h : xs.mapM f = some ys) : ys.length = xs.length := by
  induction xs generalizing ys with
  | nil =>
    simp only [List.mapM_nil, pure_def, Option.some.injEq] at h
    simp [← h]
  | cons a xs ih =>
    simp only [List.mapM_cons, pure_def, bind_eq_bind, bind_eq_some_iff, Option.some.injEq] at h
    obtain ⟨y, -, ys', hys, rfl⟩ := h
    simp [ih hys]

/-- A fallible map succeeds if and only if it does on every element. -/
lemma isSome_mapM {α : Type u} {β : Type v} {f : α → Option β} {xs : List α} :
    (xs.mapM f).isSome ↔ ∀ x ∈ xs, (f x).isSome := by
  induction xs with
  | nil => simp
  | cons a xs ih =>
    rw [List.forall_mem_cons, ← ih, List.mapM_cons]
    cases f a with
    | none => simp
    | some b => cases xs.mapM f <;> simp

lemma isSome_of_mapM {α : Type u} {β : Type v} {f : α → Option β} {xs : List α} {ys : List β}
    (h : xs.mapM f = some ys) {x : α} (hx : x ∈ xs) : (f x).isSome :=
  isSome_mapM.mp (isSome_iff_exists.mpr ⟨ys, h⟩) x hx

end AegisGate.Lib
