import AegisGate.Runtime.TryAdmit

/-!
# The rate limit of a route across workers

All workers of a generation share the admission of a route and keep leases of its tokens.
The tokens are then in two places, and the capacity caps only one of them: while a worker
holds a lease, a refill fills the pool up to the burst as if the lease had been spent. What
can be admitted from a point on is what the pool and the leases hold together at that point
and what is refilled later. So the route stays within its token bucket as long as no refill
lifts the pool and the leases together above the burst, and exceeds it otherwise.
-/

namespace AegisGate.Runtime
open Lib Resilience Function

/-- `n` workers that share the admission of a route. `admitted` counts the calls of `TryAdmit`
that returned true. -/
structure Fleet (n : ℕ) where
  admission : GlobalAdmission
  batch : UInt32
  workers : Fin n → LeaseCall := fun _ => {}
  admitted : ℕ := 0

namespace Fleet
variable {n : ℕ}

def create (limits : AdmissionLimits) (workers : UInt32) (now : ℤ) : Fleet workers.toNat where
  admission := .create limits now
  batch := leaseBatch limits.rate workers limits.burst

inductive Event (n : ℕ)
  /-- The next piece of a worker's call; an idle worker begins one. -/
  | tryAdmit (worker : Fin n)
  /-- The coordinator's tick. -/
  | refill (now : ℤ)
  /-- A request is over and its in-flight slot is released. -/
  | release

/-- The next piece of a call of `TryAdmit`. -/
def tryAdmit (s : Fleet n) (i : Fin n) : Fleet n :=
  let (c, g, result) := (s.workers i).advance s.batch s.admission
  { s with
    admission := g
    workers := update s.workers i c
    admitted := s.admitted + (result == some true).toNat }

/-- One step; the clock does not run backwards. -/
def step (s : Fleet n) : Event n → Option (Fleet n)
  | .tryAdmit i => some (s.tryAdmit i)
  | .refill now =>
    if now < s.admission.lastRefill then none
    else some { s with admission := s.admission.refill now }
  | .release => some { s with admission := s.admission.releaseOne }

/-- Tokens in the hands of workers. -/
def leased (s : Fleet n) : ℕ := ∑ i, (s.workers i).balance.toNat

/-- The token bucket between two points of a run. Since the clock does not run backwards,
`lastRefill` is the time of the latest refill. Credit is in billionths of a token and time in
nanoseconds, so a rate in tokens a second needs no conversion. -/
def WithinBudget (p q : Fleet n) : Prop :=
  ((q.admitted : ℤ) - p.admitted) * 1000000000 ≤ p.admission.limits.burst.toNat * 1000000000 +
    p.admission.limits.rate.toNat * (q.admission.lastRefill - p.admission.lastRefill)

/-- Before a tick: the pool, filled up to the burst with what the time since the last tick supplies,
and the leases are together within the burst. -/
def Fits (s : Fleet n) : Event n → Prop
  | .refill now => min s.admission.limits.capacityCredit
      (s.admission.credit + s.admission.limits.rate.toNat * (now - s.admission.lastRefill)) +
        s.leased * kCreditScale ≤ s.admission.limits.capacityCredit
  | _ => True

/-- A call between its two pieces that move tokens holds none. -/
def Settled (s : Fleet n) : Prop := ∀ i, (s.workers i).Settled

variable {s t p q : Fleet n}

lemma sum_update (w : Fin n → LeaseCall) (i : Fin n) (c : LeaseCall) :
    ∑ j, (update w i c j).balance.toNat + (w i).balance.toNat =
      ∑ j, (w j).balance.toNat + c.balance.toNat := by
  have hrest : ∑ j ∈ Finset.univ.erase i, (update w i c j).balance.toNat =
      ∑ j ∈ Finset.univ.erase i, (w j).balance.toNat := by
    apply Finset.sum_congr rfl
    intro j hj
    rw [update_of_ne (Finset.ne_of_mem_erase hj)]
  rw [← Finset.add_sum_erase _ _ (Finset.mem_univ i), hrest, update_self,
    ← Finset.add_sum_erase _ (fun j => (w j).balance.toNat) (Finset.mem_univ i)]
  omega

/-- **What no step creates.** The credit of the pool, the leases and the requests admitted,
less what the time supplied. -/
theorem step_worth {e : Event n} (h : s.Settled) (hstep : s.step e = some t) :
    t.Settled ∧ t.admission.limits = s.admission.limits ∧
      t.admission.credit + (t.leased + t.admitted) * kCreditScale ≤
        s.admission.credit + (s.leased + s.admitted) * kCreditScale +
          s.admission.limits.rate.toNat * (t.admission.lastRefill - s.admission.lastRefill) := by
  cases e with
  | tryAdmit i =>
    cases hstep
    rcases hcall : (s.workers i).advance s.batch s.admission with ⟨c, g, result⟩
    obtain ⟨hlimits, hlast⟩ := LeaseCall.advance_limits hcall
    have hcredit := LeaseCall.advance_credit (h i) hcall
    have hsum := sum_update s.workers i c
    rw [tryAdmit, hcall]
    refine ⟨fun j => ?_, hlimits, ?_⟩
    · by_cases hj : j = i
      · rw [hj]
        simpa using LeaseCall.Settled.advance hcall
      · simpa [update_of_ne hj] using h j
    rw [kCreditScale] at hcredit ⊢
    simp only [leased, hlast, Int.sub_self, Int.mul_zero, Int.add_zero]
    generalize ∑ j, (update s.workers i c j).balance.toNat = after at hsum ⊢
    generalize ∑ j, (s.workers j).balance.toNat = before at hsum ⊢
    push_cast
    omega
  | refill now =>
    rw [step] at hstep
    obtain ⟨hlt, ⟨⟩⟩ := Option.ite_none_left_eq_some.mp hstep
    obtain ⟨hlimits, hlast, hcredit⟩ := s.admission.refill_eq now
    rw [max_eq_right (by omega)] at hlast hcredit
    refine ⟨h, hlimits, ?_⟩
    simp only [leased, hlast]
    omega
  | release =>
    cases hstep
    refine ⟨h, rfl, ?_⟩
    simp [GlobalAdmission.releaseOne, leased]

lemma run_worth {es : List (Event n)} (hp : p.Settled) (hrun : run Fleet.step p es = some q) :
    q.Settled ∧ q.admission.limits = p.admission.limits ∧
      q.admission.credit + (q.leased + q.admitted) * kCreditScale ≤
        p.admission.credit + (p.leased + p.admitted) * kCreditScale +
          p.admission.limits.rate.toNat * (q.admission.lastRefill - p.admission.lastRefill) := by
  induction es generalizing p with
  | nil =>
    cases hrun
    exact ⟨hp, rfl, by simp⟩
  | cons e es ih =>
    obtain ⟨r, hr, hrest⟩ := Option.bind_eq_some_iff.mp hrun
    obtain ⟨hsettled, hlimits, hworth⟩ := step_worth hp hr
    obtain ⟨hq, hlimits', hworth'⟩ := ih hsettled hrest
    rw [hlimits] at hworth'
    exact ⟨hq, hlimits'.trans hlimits, by linarith⟩

lemma admitted_le {es : List (Event n)} (hp : p.Settled) (hrun : run Fleet.step p es = some q) :
    ((q.admitted : ℤ) - p.admitted) * kCreditScale ≤ p.admission.credit + p.leased * kCreditScale +
        p.admission.limits.rate.toNat * (q.admission.lastRefill - p.admission.lastRefill) := by
  obtain ⟨-, -, hworth⟩ := run_worth hp hrun
  have hcredit := q.admission.holds.1
  have hleased : 0 ≤ (q.leased : ℤ) * kCreditScale := Int.mul_nonneg (by omega) (by decide)
  linarith

/-- The pool and the leases are together within the burst. -/
structure Within (l : AdmissionLimits) (s : Fleet n) : Prop where
  settled : s.Settled
  limits : s.admission.limits = l
  worth : s.admission.credit + s.leased * kCreditScale ≤ l.capacityCredit

variable {l : AdmissionLimits}

lemma within_create (l : AdmissionLimits) (workers : UInt32) (now : ℤ) :
    Within l (create l workers now) := by
  refine ⟨fun i => nofun, rfl, ?_⟩
  simp [create, GlobalAdmission.create, leased]

lemma Within.step {e : Event n} (h : Within l s) (hfits : s.Fits e) (hstep : s.step e = some t) :
    Within l t := by
  obtain ⟨hsettled, hlimits, hworth⟩ := step_worth h.settled hstep
  refine ⟨hsettled, hlimits.trans h.limits, ?_⟩
  have hbefore := h.worth
  cases e with
  | tryAdmit i =>
    cases hstep
    rcases hcall : (s.workers i).advance s.batch s.admission with ⟨c, g, result⟩
    have hlast : (s.tryAdmit i).admission.lastRefill = s.admission.lastRefill := by
      rw [tryAdmit, hcall]
      exact (LeaseCall.advance_limits hcall).2
    have hadmitted : (s.admitted : ℤ) * kCreditScale ≤ (s.tryAdmit i).admitted * kCreditScale := by
      refine Int.mul_le_mul_of_nonneg_right ?_ (by decide)
      rw [tryAdmit, hcall]
      push_cast
      omega
    rw [hlast, Int.sub_self, Int.mul_zero] at hworth
    linarith
  | refill now =>
    rw [Fleet.step] at hstep
    obtain ⟨hge, ⟨⟩⟩ := Option.ite_none_left_eq_some.mp hstep
    obtain ⟨-, -, hcredit⟩ := s.admission.refill_eq now
    rw [max_eq_right (not_lt.mp hge)] at hcredit
    dsimp only [leased]
    rw [← h.limits, hcredit]
    exact hfits
  | release =>
    cases hstep
    exact hbefore

/-- **The token bucket.** In a run whose refills all leave the pool and the leases together
within the burst, the requests admitted between any two points stay within the burst and the
rate. -/
theorem withinBudget_of_fits (l : AdmissionLimits) (workers : UInt32) (now : ℤ)
    (es fs : List (Event workers.toNat)) {p q : Fleet workers.toNat}
    (hfits : Along Fleet.step Fits (create l workers now) es)
    (hp : run Fleet.step (create l workers now) es = some p)
    (hq : run Fleet.step p fs = some q) : WithinBudget p q := by
  have halways : Always Fleet.step (Within l) (create l workers now) es :=
    always_of_along (fun _ _ _ hs hfit hst => hs.step hfit hst) (within_create l workers now) hfits
  have hwithin := halways.final hp
  have hle := admitted_le hwithin.settled hq
  have hworth := hwithin.worth
  rw [WithinBudget, hwithin.limits]
  rw [hwithin.limits] at hle
  rw [AdmissionLimits.capacityCredit] at hworth
  rw [kCreditScale] at hle hworth
  omega

/-- Two tokens a second and two at most: one worker's lease is the whole burst. -/
def twoTokens : AdmissionLimits := ⟨2, 2, 4, by decide, by decide, by decide⟩

/-- Four pieces of a call that draws a new lease. -/
def admitOnce : List (Event 1) := List.replicate 4 (.tryAdmit 0)

/-- Three pieces of a call that has tokens left. -/
def admitAgain : List (Event 1) := List.replicate 3 (.tryAdmit 0)

lemma along_calls (s : Fleet n) (i : Fin n) (k : ℕ) :
    Along Fleet.step Fits s (List.replicate k (.tryAdmit i)) := by
  induction k generalizing s with
  | zero => trivial
  | succ k ih => exact fun t _ => ⟨trivial, ih t⟩

/-- Two requests empty the lease before the refill, so it fits. -/
theorem withinBudget_of_fits_emptied : ∃ p q : Fleet 1, Along Fleet.step Fits (create twoTokens 1 0)
        (admitOnce ++ admitAgain ++ [.refill 1000000000]) ∧
      run Fleet.step (create twoTokens 1 0)
        (admitOnce ++ admitAgain ++ [.refill 1000000000]) = some p ∧
      run Fleet.step p (admitOnce ++ admitAgain) = some q ∧ WithinBudget p q := by
  obtain ⟨s, hs⟩ : ∃ s, run Fleet.step (create twoTokens 1 0) (admitOnce ++ admitAgain) = some s :=
    ⟨_, rfl⟩
  have hfits : Along Fleet.step Fits (create twoTokens 1 0)
      (admitOnce ++ admitAgain ++ [.refill 1000000000]) := by
    refine along_append (along_append (along_calls _ _ 4) fun t _ => along_calls t _ 3) ?_
    intro t ht
    cases hs.symm.trans ht
    cases hs
    rintro _ ⟨⟩
    refine ⟨?_, trivial⟩
    rw [Fits]
    decide
  obtain ⟨p, hp⟩ : ∃ p, run Fleet.step (create twoTokens 1 0)
      (admitOnce ++ admitAgain ++ [.refill 1000000000]) = some p := ⟨_, rfl⟩
  obtain ⟨q, hq⟩ : ∃ q, run Fleet.step p (admitOnce ++ admitAgain) = some q := by
    cases hp
    exact ⟨_, rfl⟩
  exact ⟨p, q, hfits, hp, hq, withinBudget_of_fits twoTokens 1 0 _ _ hfits hp hq⟩

/-- The worker holds one token while the refill fills the pool: three requests are admitted
after it without another refill, with a burst of two. -/
theorem exceeds_burst : ∃ p q : Fleet 1,
    run Fleet.step (create twoTokens 1 0) (admitOnce ++ [.refill 1000000000]) = some p ∧
      run Fleet.step p (admitAgain ++ admitOnce ++ admitAgain) = some q ∧
      q.admitted - p.admitted = 3 ∧ ¬WithinBudget p q := by
  refine ⟨_, _, rfl, rfl, rfl, ?_⟩
  rw [WithinBudget]
  decide

end Fleet
end AegisGate.Runtime
