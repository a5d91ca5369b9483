import Mathlib

/-!
# Runs of a partial transition function

A system is a function `step : σ → ε → Option σ`: the state after an event, or
`none` when the event cannot happen in that state. Events carry every input the
environment chooses, so a list of events determines a run and a statement about
all lists is a statement about all interleavings.

`Always` asserts a property in every state of a run, the first included.
`Along` asserts a condition on every step that is taken, stated on the state
before the step. The rules below package the induction over a run once:
`always_of_along` derives a property from a condition on the steps, and
`always_iff_along` says that the condition is exact.
-/

namespace AegisGate.Lib

universe u v
variable {σ : Type u} {ε : Type v}

section
variable (step : σ → ε → Option σ)

/-- Execute the events in order; `none` as soon as one of them is not enabled. -/
def run (step : σ → ε → Option σ) : σ → List ε → Option σ
  | s, [] => some s
  | s, e :: es => (step s e).bind fun t => run step t es

@[simp] lemma run_nil (s : σ) : run step s [] = some s := rfl

@[simp] lemma run_cons (s : σ) (e : ε) (es : List ε) :
    run step s (e :: es) = (step s e).bind fun t => run step t es := rfl

lemma run_append (s : σ) (es fs : List ε) :
    run step s (es ++ fs) = (run step s es).bind fun t => run step t fs := by
  induction es generalizing s with
  | nil => simp
  | cons e es ih =>
    cases h : step s e with
    | none => simp [h]
    | some t => simp [h, ih]

/-- Some list of events leads from `s` to `t`. -/
def Reaches (s t : σ) : Prop := ∃ es, run step s es = some t

lemma Reaches.refl (s : σ) : Reaches step s s := ⟨[], rfl⟩

end

variable {s t : σ}

lemma Reaches.trans {step : σ → ε → Option σ} {u : σ} (h : Reaches step s t)
    (k : Reaches step t u) : Reaches step s u := by
  obtain ⟨es, hes⟩ := h
  obtain ⟨fs, hfs⟩ := k
  exact ⟨es ++ fs, by rw [run_append, hes]; exact hfs⟩

variable {es : List ε}

/-- **The invariant rule.** What one step preserves, a whole run preserves. -/
theorem run_invariant {step : σ → ε → Option σ} {I : σ → Prop}
    (hstep : ∀ s e t, I s → step s e = some t → I t) (hs : I s) (hrun : run step s es = some t) :
    I t := by
  induction es generalizing s with
  | nil =>
    simp only [run_nil, Option.some.injEq] at hrun
    exact hrun ▸ hs
  | cons e es ih =>
    simp only [run_cons, Option.bind_eq_some_iff] at hrun
    obtain ⟨u, hu, hrest⟩ := hrun
    exact ih (hstep s e u hs hu) hrest

lemma Reaches.invariant {step : σ → ε → Option σ} {I : σ → Prop} (h : Reaches step s t) (hs : I s)
    (hstep : ∀ s e t, I s → step s e = some t → I t) : I t := by
  obtain ⟨es, hes⟩ := h
  exact run_invariant hstep hs hes

/-- `Q` holds in every state of the run, the first one included. -/
def Always (step : σ → ε → Option σ) (Q : σ → Prop) : σ → List ε → Prop
  | s, [] => Q s
  | s, e :: es => Q s ∧ ∀ t, step s e = some t → Always step Q t es

/-- Every step the run takes meets `P` in the state before it. -/
def Along (step : σ → ε → Option σ) (P : σ → ε → Prop) : σ → List ε → Prop
  | _, [] => True
  | s, e :: es => ∀ t, step s e = some t → P s e ∧ Along step P t es

variable {P : σ → ε → Prop}

lemma along_cons_some {step : σ → ε → Option σ} {e : ε} (ht : step s e = some t) :
    Along step P s (e :: es) ↔ P s e ∧ Along step P t es := by
  refine ⟨fun h => h t ht, fun h u hu => ?_⟩
  cases ht.symm.trans hu
  exact h

/-- A condition on a given run can be evaluated. -/
instance decidableAlong (step : σ → ε → Option σ) (P : σ → ε → Prop) [∀ s e, Decidable (P s e)] :
    ∀ s es, Decidable (Along step P s es)
  | _, [] => .isTrue trivial
  | s, e :: es =>
    match ht : step s e with
    | none => .isTrue fun _ hu => nomatch ht.symm.trans hu
    | some t =>
      have := decidableAlong step P t es
      decidable_of_iff' _ (along_cons_some ht)

variable {Q : σ → Prop}

/-- `Always` in terms of prefixes: what it says of the states a run passes. -/
lemma always_iff_prefix {step : σ → ε → Option σ} :
    Always step Q s es ↔ ∀ pre post t, es = pre ++ post → run step s pre = some t → Q t := by
  induction es generalizing s with
  | nil =>
    constructor
    · intro h pre post t hes hrun
      obtain ⟨rfl, rfl⟩ := List.append_eq_nil_iff.mp hes.symm
      simp only [run_nil, Option.some.injEq] at hrun
      exact hrun ▸ h
    · intro h
      exact h [] [] s rfl rfl
  | cons e es ih =>
    constructor
    · intro h pre post t hes hrun
      cases pre with
      | nil =>
        simp only [run_nil, Option.some.injEq] at hrun
        exact hrun ▸ h.1
      | cons a pre =>
        simp only [List.cons_append, List.cons.injEq] at hes
        obtain ⟨rfl, htail⟩ := hes
        simp only [run_cons, Option.bind_eq_some_iff] at hrun
        obtain ⟨u, hu, hrest⟩ := hrun
        exact ih.mp (h.2 u hu) pre post t htail hrest
    · intro h
      refine ⟨h [] (e :: es) s rfl rfl, fun u hu => ih.mpr ?_⟩
      intro pre post t hes hrun
      exact h (e :: pre) post t (by rw [hes]; rfl) (by simp [hu, hrun])

lemma Always.final {step : σ → ε → Option σ} (h : Always step Q s es)
    (hrun : run step s es = some t) : Q t :=
  always_iff_prefix.mp h es [] t (by simp) hrun

lemma Always.head {step : σ → ε → Option σ} (h : Always step Q s es) : Q s := by
  cases es with
  | nil => exact h
  | cons => exact h.1

lemma always_mono {step : σ → ε → Option σ} {R : σ → Prop} (hQR : ∀ s, Q s → R s)
    (h : Always step Q s es) : Always step R s es := by
  induction es generalizing s with
  | nil => exact hQR s h
  | cons e es ih => exact ⟨hQR s h.1, fun t ht => ih (h.2 t ht)⟩

/-- A property that every admissible step preserves holds along every run all of
whose steps are admissible. -/
lemma always_of_along {step : σ → ε → Option σ}
    (hstep : ∀ s e t, Q s → P s e → step s e = some t → Q t) (hs : Q s) (h : Along step P s es) :
    Always step Q s es := by
  induction es generalizing s with
  | nil => exact hs
  | cons e es ih =>
    refine ⟨hs, fun t ht => ?_⟩
    obtain ⟨hp, hrest⟩ := h t ht
    exact ih (hstep s e t hs hp ht) hrest

/-- A condition on the events alone. -/
lemma along_of_forall {step : σ → ε → Option σ} {P : ε → Prop} (h : ∀ e ∈ es, P e) (s : σ) :
    Along step (fun _ e => P e) s es := by
  induction es generalizing s with
  | nil => trivial
  | cons e es ih =>
    intro t _
    exact ⟨h e List.mem_cons_self, ih (fun f hf => h f (List.mem_cons_of_mem e hf)) t⟩

/-- A condition on every pair of a state and an event. -/
lemma along_of_all {step : σ → ε → Option σ} (h : ∀ s e, P s e) (s : σ) (es : List ε) :
    Along step P s es := by
  induction es generalizing s with
  | nil => trivial
  | cons e es ih => exact fun t _ => ⟨h s e, ih t⟩

/-- A run in two parts. -/
lemma along_append {step : σ → ε → Option σ} {fs : List ε} (hes : Along step P s es)
    (hfs : ∀ t, run step s es = some t → Along step P t fs) : Along step P s (es ++ fs) := by
  induction es generalizing s with
  | nil => exact hfs s rfl
  | cons e es ih =>
    intro t ht
    obtain ⟨hp, hrest⟩ := hes t ht
    refine ⟨hp, ih hrest fun u hu => hfs u ?_⟩
    rw [run_cons, ht]
    exact hu

/-- What holds in every state of a run bounds every step it takes. -/
lemma along_of_always {step : σ → ε → Option σ} (hP : ∀ s e, Q s → P s e)
    (h : Always step Q s es) :
    Along step P s es := by
  induction es generalizing s with
  | nil => trivial
  | cons e es ih => exact fun t ht => ⟨hP s e h.1, ih (h.2 t ht)⟩

/-- What every step must have met to lead where it did. -/
lemma along_of_next {step : σ → ε → Option σ} {G : σ → Prop}
    (hG : ∀ s e t, G s → step s e = some t → G t)
    (hP : ∀ s e t, G s → step s e = some t → Q t → P s e) (hs : G s) (h : Always step Q s es) :
    Along step P s es := by
  induction es generalizing s with
  | nil => trivial
  | cons e es ih =>
    intro t ht
    have hrest := h.2 t ht
    exact ⟨hP s e t hs ht hrest.head, ih (hG s e t hs ht) hrest⟩

/-- **The exact condition.** If, under an invariant `G` of the system, a step from
a good state leads to a good state precisely when it is admissible, then a run
stays good precisely when all its steps are admissible. -/
theorem always_iff_along {step : σ → ε → Option σ} {G : σ → Prop}
    (hG : ∀ s e t, G s → step s e = some t → G t)
    (hP : ∀ s e t, G s → Q s → step s e = some t → (Q t ↔ P s e)) (hs : G s) (hq : Q s) :
    Always step Q s es ↔ Along step P s es := by
  induction es generalizing s with
  | nil => exact ⟨fun _ => trivial, fun _ => hq⟩
  | cons e es ih =>
    constructor
    · rintro ⟨-, h⟩ t ht
      have hrest := h t ht
      have hqt := hrest.head
      exact ⟨(hP s e t hs hq ht).mp hqt, (ih (hG s e t hs ht) hqt).mp hrest⟩
    · intro h
      refine ⟨hq, fun t ht => ?_⟩
      obtain ⟨hp, hrest⟩ := h t ht
      have hqt := (hP s e t hs hq ht).mpr hp
      exact (ih (hG s e t hs ht) hqt).mpr hrest

end AegisGate.Lib
