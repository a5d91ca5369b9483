import AegisGate.Lib.Transition

/-!
# Compare-exchange loops on one shared value

A loop loads the shared value, decides from it what to store, and stores that with a
compare-exchange; if the exchange fails the loop starts over. Any number of threads may be
anywhere in such loops. The exchange compares values, so it may succeed although the value
has changed and changed back in between, and the weak form may fail for no reason at all.

Every successful exchange is entered in `log`, newest first. Between two states of a run the
value moves along the entries made in between, and each entry is what the loop's body decides
on the value it replaced: the loops are as good as atomic.
-/

namespace AegisGate.Lib.Cas

universe u v
variable {ω : Type u} {α : Type v}

/-- What the body of a loop decides on the value it loaded. -/
inductive Plan (α : Type v)
  /-- Its arithmetic is undefined on that value. -/
  | trap
  /-- It returns without a store. -/
  | leave
  | exchange (desired : α)
  deriving DecidableEq

/-- Where a thread is. -/
inductive Point (ω : Type u) (α : Type v)
  | idle
  | enter (op : ω)
  | loaded (op : ω) (expected desired : α)
  | trapped
  deriving DecidableEq

/-- A successful exchange. -/
structure Commit (ω : Type u) (α : Type v) where
  op : ω
  before : α
  after : α

/-- The shared value and the threads. -/
structure Loops (ω : Type u) (α : Type v) where
  value : α
  points : List (Point ω α)
  log : List (Commit ω α) := []

/-- One step of the thread with the given number. -/
inductive Move (ω : Type u)
  | start (thread : ℕ) (op : ω)
  | load (thread : ℕ)
  | attempt (thread : ℕ) (spurious : Bool)

/-- The thread after its load. -/
def Plan.point (op : ω) (expected : α) : Plan α → Point ω α
  | .trap => .trapped
  | .leave => .idle
  | .exchange desired => .loaded op expected desired

section
variable [DecidableEq α] (body : ω → α → Plan α)

/-- One load or one attempt. -/
def step (s : Loops ω α) : Move ω → Option (Loops ω α)
  | .start i op =>
    match s.points[i]? with
    | some .idle => some { s with points := s.points.set i (.enter op) }
    | _ => none
  | .load i =>
    match s.points[i]? with
    | some (.enter op) =>
      some { s with points := s.points.set i ((body op s.value).point op s.value) }
    | _ => none
  | .attempt i spurious =>
    match s.points[i]? with
    | some (.loaded op expected desired) =>
      if s.value = expected ∧ spurious = false then
        some { value := desired, points := s.points.set i .idle
               log := ⟨op, expected, desired⟩ :: s.log }
      else some { s with points := s.points.set i (.enter op) }
    | _ => none

end

/-- The commits, newest first, lead from the first value to the last. -/
def Path (body : ω → α → Plan α) : α → List (Commit ω α) → α → Prop
  | v, [], w => v = w
  | v, c :: cs, w => c.after = w ∧ body c.op c.before = .exchange c.after ∧ Path body v cs c.before

/-- Every thread that is about to attempt an exchange has planned it. -/
def Planned (body : ω → α → Plan α) (s : Loops ω α) : Prop :=
  ∀ op expected desired, Point.loaded op expected desired ∈ s.points →
    body op expected = .exchange desired

section
variable {body : ω → α → Plan α}

/-- A loaded thread has what its body planned. -/
lemma Plan.eq_of_point {op op' : ω} {v expected desired : α} {plan : Plan α}
    (h : plan.point op v = .loaded op' expected desired) :
    op = op' ∧ v = expected ∧ plan = .exchange desired := by
  cases plan with
  | trap => cases h
  | leave => cases h
  | exchange d =>
    cases h
    exact ⟨rfl, rfl, rfl⟩

lemma Path.append {v w x : α} {new old : List (Commit ω α)} (hnew : Path body w new x)
    (hold : Path body v old w) : Path body v (new ++ old) x := by
  induction new generalizing x with
  | nil =>
    cases hnew
    exact hold
  | cons c cs ih => exact ⟨hnew.1, hnew.2.1, ih hnew.2.2⟩

end

section
variable [DecidableEq α] {body : ω → α → Plan α} {s t : Loops ω α}

/-- What one step does: it moves one thread, and commits at most one exchange. -/
lemma step_cases {m : Move ω} (h : step body s m = some t) : ∃ i p, t.points = s.points.set i p ∧
      (t.value = s.value ∧ t.log = s.log ∧ ((∃ op, p = .enter op) ∨
          ∃ op, Point.enter op ∈ s.points ∧ p = (body op s.value).point op s.value) ∨
        ∃ op desired, Point.loaded op s.value desired ∈ s.points ∧ p = .idle ∧
          t.value = desired ∧ t.log = ⟨op, s.value, desired⟩ :: s.log) := by
  cases m with
  | start i op =>
    rw [step] at h
    split at h
    · cases h
      exact ⟨i, .enter op, rfl, .inl ⟨rfl, rfl, .inl ⟨op, rfl⟩⟩⟩
    · cases h
  | load i =>
    rw [step] at h
    split at h
    · next op hop =>
      cases h
      exact ⟨i, _, rfl, .inl ⟨rfl, rfl, .inr ⟨op, List.mem_of_getElem? hop, rfl⟩⟩⟩
    · cases h
  | attempt i spurious =>
    rw [step] at h
    split at h
    · next op expected desired hop =>
      split at h
      · next hvalue =>
        cases h
        rw [← hvalue.1] at hop
        exact ⟨i, .idle, rfl,
          .inr ⟨op, desired, List.mem_of_getElem? hop, rfl, rfl, by rw [hvalue.1]⟩⟩
      · cases h
        exact ⟨i, .enter op, rfl, .inl ⟨rfl, rfl, .inl ⟨op, rfl⟩⟩⟩
    · cases h

lemma Planned.step {m : Move ω} (h : Planned body s) (hstep : step body s m = some t) :
    Planned body t := by
  obtain ⟨i, p, hpoints, hcase⟩ := step_cases hstep
  intro op expected desired hmem
  rw [hpoints] at hmem
  rcases List.mem_or_eq_of_mem_set hmem with hold | hnew
  · exact h op expected desired hold
  · rcases hcase with ⟨-, -, ⟨op', rfl⟩ | ⟨op', -, rfl⟩⟩ | ⟨op', d, -, rfl, -⟩
    · cases hnew
    · obtain ⟨rfl, rfl, hplan⟩ := Plan.eq_of_point hnew.symm
      exact hplan
    · cases hnew

/-- One step moves the value along at most one commit. -/
lemma path_step {m : Move ω} (h : Planned body s) (hstep : Cas.step body s m = some t) :
    ∃ new, t.log = new ++ s.log ∧ Path body s.value new t.value := by
  obtain ⟨i, p, -, hcase⟩ := step_cases hstep
  rcases hcase with ⟨hvalue, hlog, -⟩ | ⟨op, desired, hmem, -, hvalue, hlog⟩
  · exact ⟨[], hlog, hvalue.symm⟩
  · exact ⟨[⟨op, s.value, desired⟩], hlog, hvalue.symm, h op s.value desired hmem, rfl⟩

/-- **The loops are atomic.** A system whose steps move its loops, or leave them alone, moves
the value along the commits it makes. -/
theorem exists_path {σ : Type*} {ε : Type*} {host : σ → ε → Option σ} {loops : σ → Loops ω α}
    {I : σ → Prop} (hhost : ∀ x e y, I x → host x e = some y →
      I y ∧ (loops y = loops x ∨ ∃ m, step body (loops x) m = some (loops y)))
    (hplanned : ∀ x, I x → Planned body (loops x)) {x y : σ} {es : List ε}
    (h : I x) (hrun : run host x es = some y) :
    ∃ new, (loops y).log = new ++ (loops x).log ∧
      Path body (loops x).value new (loops y).value := by
  induction es generalizing x with
  | nil =>
    cases hrun
    exact ⟨[], rfl, rfl⟩
  | cons e es ih =>
    obtain ⟨z, hz, hrest⟩ := Option.bind_eq_some_iff.mp hrun
    obtain ⟨hIz, hloops⟩ := hhost x e z h hz
    obtain ⟨new, hnew, hpath⟩ := ih hIz hrest
    rcases hloops with hsame | ⟨m, hm⟩
    · rw [← hsame]
      exact ⟨new, hnew, hpath⟩
    · obtain ⟨first, hfirst, hstep⟩ := path_step (hplanned x h) hm
      refine ⟨new ++ first, ?_, hpath.append hstep⟩
      rw [hnew, hfirst, List.append_assoc]

/-- A body that is defined wherever an invariant of its commits holds traps no thread. -/
lemma untrapped {I : α → Prop} {m : Move ω} (hdefined : ∀ op v, I v → body op v ≠ .trap)
    (hv : I s.value) (hs : Point.trapped ∉ s.points) (hstep : step body s m = some t) :
    Point.trapped ∉ t.points := by
  obtain ⟨i, p, hpoints, hcase⟩ := step_cases hstep
  intro hmem
  rw [hpoints] at hmem
  rcases List.mem_or_eq_of_mem_set hmem with hold | hnew
  · exact hs hold
  rcases hcase with ⟨-, -, ⟨op, rfl⟩ | ⟨op, -, rfl⟩⟩ | ⟨op, d, -, rfl, -⟩
  · cases hnew
  · cases hplan : body op s.value with
    | trap => exact hdefined op s.value hv hplan
    | leave | exchange d =>
      rw [hplan] at hnew
      cases hnew
  · cases hnew

end
end AegisGate.Lib.Cas
