import Mathlib

/-!
# The load of a list

Items that carry a number: tokens held, callbacks still to be made, one for every item of a
kind. The load of a list of items is the sum of what they carry. Replacing or removing an item
moves the load by what the item carried, and this is all that an accounting argument needs to
know of the list.
-/

namespace AegisGate.Lib

variable {α : Type*} {f : α → ℕ} {l : List α} {i : ℕ} {a : α}

/-- The sum of a weight over a list. -/
def load (f : α → ℕ) (l : List α) : ℕ := (l.map f).sum

@[simp] lemma load_nil : load f [] = 0 := rfl

@[simp] lemma load_cons (a : α) (l : List α) : load f (a :: l) = f a + load f l := by
  simp [load]

@[simp] lemma load_append (l m : List α) : load f (l ++ m) = load f l + load f m := by
  simp [load]

lemma load_perm {m : List α} (h : l.Perm m) : load f l = load f m := (h.map f).sum_eq

/-- An item is removed. -/
lemma load_eraseIdx (h : l[i]? = some a) : load f (l.eraseIdx i) + f a = load f l := by
  obtain ⟨hi, rfl⟩ := List.getElem?_eq_some_iff.mp h
  rw [← load_perm (List.getElem_cons_eraseIdx_perm hi), load_cons]
  exact Nat.add_comm _ _

/-- An item is replaced. -/
lemma load_set (h : l[i]? = some a) (b : α) : load f (l.set i b) + f a = load f l + f b := by
  obtain ⟨hi, -⟩ := List.getElem?_eq_some_iff.mp h
  rw [load_perm (List.set_perm_cons_eraseIdx hi b), load_cons, ← load_eraseIdx h]
  omega

/-- Counting, when an item is removed. -/
lemma countP_eraseIdx (p : α → Bool) (h : l[i]? = some a) :
    (l.eraseIdx i).countP p + (p a).toNat = l.countP p := by
  obtain ⟨hi, rfl⟩ := List.getElem?_eq_some_iff.mp h
  rw [← (List.getElem_cons_eraseIdx_perm hi).countP_eq, List.countP_cons]
  cases p l[i] <;> rfl

/-- Taking one entry off a list is felt by that entry alone. -/
lemma count_eraseIdx [DecidableEq α] (h : l[i]? = some a) :
    (∀ b ≠ a, (l.eraseIdx i).count b = l.count b) ∧ l.count a = (l.eraseIdx i).count a + 1 := by
  have hcount (b : α) := countP_eraseIdx (fun x => x == b) h
  constructor
  · intro b hne
    have hother := hcount b
    rw [beq_false_of_ne hne.symm, Bool.toNat_false, Nat.add_zero] at hother
    exact hother
  · have hown := hcount a
    rw [beq_self_eq_true, Bool.toNat_true] at hown
    exact hown.symm

lemma le_load (h : l[i]? = some a) : f a ≤ load f l := by
  rw [← load_eraseIdx h]
  exact Nat.le_add_left _ _

/-- A positive load has an item. -/
lemma exists_of_load_pos (h : 0 < load f l) : ∃ (i : ℕ) (a : α), l[i]? = some a ∧ 0 < f a := by
  by_contra hnone
  simp only [not_exists, not_and, Nat.not_lt, Nat.le_zero] at hnone
  have hzero : load f l = 0 := List.sum_eq_zero fun n hn => by
    obtain ⟨a, ha, rfl⟩ := List.mem_map.mp hn
    obtain ⟨i, hi⟩ := List.mem_iff_getElem?.mp ha
    exact hnone i a hi
  omega

/-- The load of an indicator is a count. -/
lemma load_indicator [DecidableEq α] (a : α) (l : List α) :
    load (fun b => if b = a then 1 else 0) l = l.count a := by
  induction l with
  | nil => rfl
  | cons b l ih => simp [ih, List.count_cons, Nat.add_comm]

end AegisGate.Lib
