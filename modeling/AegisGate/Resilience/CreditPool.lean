import AegisGate.Resilience.GlobalAdmission

/-!
# The credit pool under concurrent calls

Any number of threads draw from the counter and return to it, and one thread, number zero,
refills it. The refill reads the time it has to supply before its loop and never again. Each
loop is taken as its loads and attempts.

The bound on what can be drawn follows from the commits alone: between two moments of a run
the counter moves by what was refilled and handed back less what was drawn, it never exceeds
the capacity and it never falls below zero.
-/

namespace AegisGate.Resilience
open Lib AdmissionLimits Option List

abbrev CreditCommit := Cas.Commit CreditOp ℤ

/-- What the draws took. -/
def tokensDrawn (cs : List CreditCommit) : ℤ := (cs.map fun c => taken c.op c.before).sum

/-- Nanoseconds of refill applied by some commits. -/
def nanosecondsApplied (cs : List CreditCommit) : ℤ := (cs.map fun c => nanoseconds c.op).sum

namespace AdmissionLimits

def creditHandedBack (l : AdmissionLimits) (cs : List CreditCommit) : ℤ :=
  (cs.map fun c => l.handedBack c.op c.before).sum

def creditRefilled (l : AdmissionLimits) (cs : List CreditCommit) : ℤ :=
  (cs.map fun c => l.refilled c.op c.before).sum

variable {l : AdmissionLimits} {v w : ℤ} {cs : List CreditCommit}

lemma path_balance (hv : l.Holds v) (h : Cas.Path l.plan v cs w) :
    l.Holds w ∧ w + tokensDrawn cs * kCreditScale =
        v + l.creditRefilled cs + l.creditHandedBack cs ∧
      l.creditRefilled cs ≤ l.rate.toNat * nanosecondsApplied cs := by
  induction cs generalizing w with
  | nil =>
    cases h
    simp [tokensDrawn, creditRefilled, creditHandedBack, nanosecondsApplied, hv]
  | cons c cs ih =>
    obtain ⟨rfl, hplan, hrest⟩ := h
    obtain ⟨hbefore, hbalance, hrate⟩ := ih hrest
    obtain ⟨hafter, hmove, hnano, -⟩ := plan_exchange hbefore hplan
    refine ⟨hafter, ?_, ?_⟩
    · simp only [tokensDrawn, creditRefilled, creditHandedBack, map_cons,
        sum_cons] at hbalance ⊢
      rw [Int.add_mul]
      omega
    · simp only [creditRefilled, nanosecondsApplied, map_cons, sum_cons] at hrate ⊢
      rw [Int.mul_add]
      omega

lemma path_drawn_le (hv : l.Holds v) (h : Cas.Path l.plan v cs w) :
    tokensDrawn cs * kCreditScale - l.creditHandedBack cs ≤
      l.capacityCredit + l.rate.toNat * nanosecondsApplied cs := by
  obtain ⟨hw, hbalance, hrate⟩ := path_balance hv h
  have hlow := hw.1
  have hhigh := hv.2
  omega

end AdmissionLimits

abbrev ClockTime := { t : ℤ // 0 ≤ t ∧ t < 2 ^ 63 }

/-- The shared part of a `GlobalAdmission` and the threads that use it. `overflowed` is set if
the subtraction of two time points left its range. -/
structure CreditPool where
  limits : AdmissionLimits
  lastRefill : ClockTime
  overflowed : Bool := false
  loops : Cas.Loops CreditOp ℤ

namespace CreditPool

/-- The constructor, with a refiller and a number of other threads. -/
def create (limits : AdmissionLimits) (now : ClockTime) (threads : ℕ) : CreditPool where
  limits
  lastRefill := now
  loops := { value := limits.capacityCredit, points := replicate (threads + 1) .idle }

/-- The value of the counter. -/
def credit (p : CreditPool) : ℤ := p.loops.value

/-- One step. The arguments of a call are the caller's; a `Refill` begins with its reading of
the clock. -/
inductive Event
  | refill (now : ClockTime)
  | draw (thread : ℕ) (want : UInt32)
  | return_ (thread : ℕ) (tokens : UInt32)
  | load (thread : ℕ)
  | attempt (thread : ℕ) (spurious : Bool)

/-- One access of a loop. -/
def move (p : CreditPool) (m : Cas.Move CreditOp) : Option CreditPool :=
  (Cas.step p.limits.plan p.loops m).map fun loops => { p with loops }

/-- `Refill` up to its loop; its caller is the only one, so it is not in the loop already. -/
def refill (p : CreditPool) (now : ClockTime) : Option CreditPool :=
  if now.1 ≤ p.lastRefill.1 then some p else
  match int64 (now - p.lastRefill) with
  | none => some { p with overflowed := true }
  | some elapsed =>
    let p := { p with lastRefill := now }
    if h : 0 < elapsed then p.move (.start 0 (.refill ⟨elapsed, h⟩)) else some p

def step (p : CreditPool) : Event → Option CreditPool
  | .refill now => if p.loops.points[0]? = some .idle then p.refill now else none
  | .draw i want => if i = 0 then none else p.move (.start i (.draw want))
  | .return_ i tokens => if i = 0 then none else p.move (.start i (.return_ tokens))
  | .load i => p.move (.load i)
  | .attempt i spurious => p.move (.attempt i spurious)

variable {p q : CreditPool}

lemma move_some {m : Cas.Move CreditOp} (h : p.move m = some q) :
    Cas.step p.limits.plan p.loops m = some q.loops ∧ q.limits = p.limits ∧
      q.overflowed = p.overflowed := by
  obtain ⟨loops, hloops, rfl⟩ := map_eq_some_iff.mp h
  exact ⟨hloops, rfl, rfl⟩

lemma refill_some {now : ClockTime} (h : p.refill now = some q) :
    q.limits = p.limits ∧ q.overflowed = p.overflowed ∧
      (q.loops = p.loops ∨ ∃ m, Cas.step p.limits.plan p.loops m = some q.loops) := by
  have hnow := now.2
  have hlast := p.lastRefill.2
  rw [refill] at h
  split at h
  · cases h
    exact ⟨rfl, rfl, .inl rfl⟩
  rw [int64_eq (by omega) (by omega)] at h
  dsimp only at h
  split at h
  · obtain ⟨hstep, hlimits, hflow⟩ := move_some h
    exact ⟨hlimits, hflow, .inr ⟨_, hstep⟩⟩
  · cases h
    exact ⟨rfl, rfl, .inl rfl⟩

lemma step_loops {e : Event} (h : p.step e = some q) :
    q.limits = p.limits ∧ q.overflowed = p.overflowed ∧
      (q.loops = p.loops ∨ ∃ m, Cas.step p.limits.plan p.loops m = some q.loops) := by
  have hmove : ∀ m, p.move m = some q → q.limits = p.limits ∧ q.overflowed = p.overflowed ∧
      (q.loops = p.loops ∨ ∃ m, Cas.step p.limits.plan p.loops m = some q.loops) := by
    intro m hm
    obtain ⟨hstep, hlimits, hflow⟩ := move_some hm
    exact ⟨hlimits, hflow, .inr ⟨m, hstep⟩⟩
  cases e with
  | refill now =>
    rw [step] at h
    obtain ⟨-, h⟩ := ite_none_right_eq_some.mp h
    exact refill_some h
  | draw i want | return_ i tokens =>
    rw [step] at h
    obtain ⟨-, h⟩ := ite_none_left_eq_some.mp h
    exact hmove _ h
  | load i | attempt i spurious =>
    rw [step] at h
    exact hmove _ h

/-- The counter is in its range and no arithmetic was undefined. -/
structure Sound (l : AdmissionLimits) (p : CreditPool) : Prop where
  limits : p.limits = l
  credit : l.Holds p.credit
  planned : Cas.Planned l.plan p.loops
  untrapped : Cas.Point.trapped ∉ p.loops.points
  inRange : p.overflowed = false

variable {l : AdmissionLimits}

lemma sound_create (l : AdmissionLimits) (now : ClockTime) (threads : ℕ) :
    Sound l (create l now threads) := by
  have hpoints : ∀ point ∈ (create l now threads).loops.points, point = .idle :=
    fun point hmem => eq_of_mem_replicate hmem
  refine ⟨rfl, ⟨(scaled_bounds l.burst).1, le_refl _⟩, fun op expected desired hmem => ?_,
    fun hmem => ?_, rfl⟩
  · cases hpoints _ hmem
  · cases hpoints _ hmem

lemma Sound.step {e : Event} (h : Sound l p) (hstep : p.step e = some q) : Sound l q := by
  obtain ⟨hlimits, hflow, hloops⟩ := step_loops hstep
  rw [h.limits] at hloops
  rcases hloops with hsame | ⟨m, hm⟩
  · exact ⟨hlimits.trans h.limits, by rw [CreditPool.credit, hsame]; exact h.credit,
      by rw [hsame]; exact h.planned, by rw [hsame]; exact h.untrapped, hflow.trans h.inRange⟩
  · obtain ⟨new, -, hpath⟩ := Cas.path_step h.planned hm
    exact ⟨hlimits.trans h.limits, (path_balance h.credit hpath).1, h.planned.step hm,
      Cas.untrapped (fun op v hv => plan_ne_trap hv op) h.credit h.untrapped hm,
      hflow.trans h.inRange⟩

lemma Sound.exists_path {es : List Event} (h : Sound l p)
    (hrun : run CreditPool.step p es = some q) :
    ∃ new, q.loops.log = new ++ p.loops.log ∧ Cas.Path l.plan p.credit new q.credit := by
  refine Cas.exists_path (I := Sound l) (fun x e y hx hxy => ⟨hx.step hxy, ?_⟩)
    (fun x hx => hx.planned) h hrun
  have hloops := (step_loops hxy).2.2
  rw [hx.limits] at hloops
  exact hloops

/-- **The credit pool.** In every state of a run the counter is between zero and the capacity
and no arithmetic was undefined. Between any two of its states the counter moves only by what
the commits refilled, handed back and drew, and what was drawn is bounded by the capacity and
the time that was supplied. -/
theorem bounded (l : AdmissionLimits) (now : ClockTime) (threads : ℕ) (es fs : List Event)
    (hp : run CreditPool.step (create l now threads) es = some p)
    (hq : run CreditPool.step p fs = some q) :
    (0 ≤ q.credit ∧ q.credit ≤ l.burst.toNat * 1000000000) ∧
      (int64 (l.burst.toNat * 1000000000) = some l.capacityCredit ∧
        Cas.Point.trapped ∉ q.loops.points ∧ q.overflowed = false) ∧
      ∃ new, q.loops.log = new ++ p.loops.log ∧
        q.credit = p.credit + l.creditRefilled new + l.creditHandedBack new -
          tokensDrawn new * 1000000000 ∧
        l.creditRefilled new ≤ l.rate.toNat * nanosecondsApplied new ∧
        tokensDrawn new * 1000000000 - l.creditHandedBack new ≤
          l.burst.toNat * 1000000000 + l.rate.toNat * nanosecondsApplied new := by
  have hsp : Sound l p := run_invariant (fun _ _ _ hs => hs.step) (sound_create l now threads) hp
  have hsq : Sound l q := run_invariant (fun _ _ _ hs => hs.step) hsp hq
  obtain ⟨new, hlog, hpath⟩ := hsp.exists_path hq
  obtain ⟨-, hbalance, hrate⟩ := path_balance hsp.credit hpath
  have hcapacity : int64 (l.burst.toNat * 1000000000) = some l.capacityCredit := by
    obtain ⟨hlow, hhigh⟩ := scaled_bounds l.burst
    rw [kCreditScale] at hlow hhigh
    exact int64_eq (by omega) (by omega)
  refine ⟨hsq.credit, ⟨hcapacity, hsq.untrapped, hsq.inRange⟩, new, hlog, ?_, hrate,
    path_drawn_le hsp.credit hpath⟩
  rw [kCreditScale] at hbalance
  omega

def oneToken : AdmissionLimits := ⟨1, 1, 1, by decide, by decide, by decide⟩

/-- Two threads draw at once: the second finds the counter changed and starts over, and its next
exchange fails for no reason. A refill comes in between. -/
theorem bounded_contended : ∃ p q, run CreditPool.step (create oneToken ⟨0, by decide⟩ 2)
        [.draw 1 1, .draw 2 1, .load 1, .load 2, .attempt 1 false, .attempt 2 false] = some p ∧
      p.loops.log.length = 1 ∧
      run CreditPool.step p [.refill ⟨1000000000, by decide⟩, .load 0, .attempt 0 false, .load 2,
        .attempt 2 true, .load 2, .attempt 2 false] = some q ∧
      q.loops.log.length = 3 ∧ 0 ≤ q.credit ∧ q.credit ≤ oneToken.burst.toNat * 1000000000 := by
  obtain ⟨p, hp⟩ : ∃ p, run CreditPool.step (create oneToken ⟨0, by decide⟩ 2)
      [.draw 1 1, .draw 2 1, .load 1, .load 2, .attempt 1 false, .attempt 2 false] = some p :=
    ⟨_, rfl⟩
  obtain ⟨q, hq⟩ : ∃ q, run CreditPool.step p [.refill ⟨1000000000, by decide⟩, .load 0,
      .attempt 0 false, .load 2, .attempt 2 true, .load 2, .attempt 2 false] = some q := by
    cases hp
    exact ⟨_, rfl⟩
  refine ⟨p, q, hp, ?_, hq, ?_, (bounded oneToken _ 2 _ _ hp hq).1⟩
  · cases hp
    rfl
  · cases hp
    cases hq
    rfl

end CreditPool
end AegisGate.Resilience
