import AegisGate.Resilience.GlobalAdmission

/-!
# Admission of one request on a worker

A worker keeps the tokens it has drawn from the route's admission as a local balance, and
admits a request by spending one of them. `TryAdmit` runs on the worker's thread, but the
admission is shared: between its calls on the admission other workers and the coordinator may
act. So a call is taken in four pieces, each with at most one such call in it.
-/

namespace AegisGate.Runtime
open Resilience

/-- Where a call of `TryAdmit` is. -/
inductive AdmitPhase
  | idle
  /-- The in-flight slot is taken. -/
  | acquired
  /-- A low balance was returned and the next lease is not yet drawn. -/
  | returned
  | ready
  deriving DecidableEq, Repr

/-- The balance of a worker for one route of one generation, and the call that works on
it. -/
structure LeaseCall where
  phase : AdmitPhase := .idle
  balance : UInt32 := 0
  deriving DecidableEq

namespace LeaseCall

/-- The next piece of `TryAdmit`, and the result once the call is over. -/
def advance (batch : UInt32) (c : LeaseCall) (g : GlobalAdmission) :
    LeaseCall × GlobalAdmission × Option Bool :=
  match c.phase with
  | .idle =>
    match g.tryAcquireInflight with
    | none => (c, g, some false)
    | some g => ({ c with phase := .acquired }, g, none)
  | .acquired =>
    -- The product has 32 bits, as the balance has.
    if c.balance * 2 < batch then ({ phase := .returned, balance := 0 }, g.return_ c.balance, none)
    else ({ c with phase := .ready }, g, none)
  | .returned => ({ phase := .ready, balance := (g.draw batch).2 }, (g.draw batch).1, none)
  | .ready =>
    if c.balance = 0 then ({ c with phase := .idle }, g.releaseOne, some false)
    else ({ phase := .idle, balance := c.balance - 1 }, g, some true)

/-- A call that has returned its balance holds none. -/
def Settled (c : LeaseCall) : Prop := c.phase = .returned → c.balance = 0

lemma toNat_sub_one {n : UInt32} (h : n ≠ 0) : (n - 1).toNat = n.toNat - 1 := by
  rw [UInt32.toNat_sub_of_le]
  · rfl
  · rw [UInt32.le_iff_toNat_le]
    rw [ne_eq, ← UInt32.toNat_inj] at h
    exact Nat.pos_of_ne_zero h

variable {batch : UInt32} {c d : LeaseCall} {g k : GlobalAdmission} {result : Option Bool}

lemma Settled.advance (h : c.advance batch g = (d, k, result)) : d.Settled := by
  intro hphase
  rw [LeaseCall.advance.eq_def] at h
  split at h
  · split at h
    · next hidle _ _ =>
      cases h
      rw [hidle] at hphase
      cases hphase
    · cases h
      cases hphase
  · split at h
    · cases h
      rfl
    · cases h
      cases hphase
  · cases h
    cases hphase
  · split at h
    · cases h
      cases hphase
    · cases h
      cases hphase

lemma advance_idle (hidle : c.phase = .idle) (h : c.advance batch g = (d, k, result)) :
    d.balance = c.balance ∧ d.phase ≠ .returned := by
  rw [LeaseCall.advance, hidle] at h
  dsimp only at h
  split at h
  · cases h
    exact ⟨rfl, by rw [hidle]; nofun⟩
  · cases h
    exact ⟨rfl, nofun⟩

lemma advance_limits (h : c.advance batch g = (d, k, result)) :
    k.limits = g.limits ∧ k.lastRefill = g.lastRefill := by
  rw [LeaseCall.advance.eq_def] at h
  split at h
  · rw [GlobalAdmission.tryAcquireInflight] at h
    split at h
    · cases h
      exact ⟨rfl, rfl⟩
    · next heq =>
      split at heq <;> cases heq
      cases h
      exact ⟨rfl, rfl⟩
  · split at h
    · cases h
      exact ⟨(g.return_spec c.balance).1, (g.return_spec c.balance).2.1⟩
    · cases h
      exact ⟨rfl, rfl⟩
  · cases h
    exact ⟨(g.draw_spec batch).1, (g.draw_spec batch).2.1⟩
  · split at h
    · cases h
      exact ⟨rfl, rfl⟩
    · cases h
      exact ⟨rfl, rfl⟩

/-- **What a piece does to the balance.** A draw adds to it, a return takes all of it and an
admitted request one token. -/
theorem advance_tokens (hc : c.Settled) (h : c.advance batch g = (d, k, result)) :
    (if c.phase = .returned then d.balance.toNat else 0) + c.balance.toNat =
      (result == some true).toNat + d.balance.toNat +
        (if d.phase = .returned then c.balance.toNat else 0) := by
  rw [LeaseCall.advance.eq_def] at h
  split at h
  · next hidle =>
    split at h <;> cases h <;> simp [hidle]
  · next hacquired =>
    split at h <;> cases h <;> simp [hacquired]
  · next hreturned =>
    cases h
    simp [hreturned, hc hreturned]
  next hready =>
  split at h
  · cases h
    simp [hready]
  next hne =>
  cases h
  simp only [hready, reduceCtorEq, if_false]
  rw [toNat_sub_one hne]
  have hpos : 0 < c.balance.toNat := by
    rw [← UInt32.toNat_inj] at hne
    exact Nat.pos_of_ne_zero hne
  simp
  omega

/-- **No piece of a call creates tokens**: the credit of the pool, the balance and the request
that was admitted are together worth at most what the pool and the balance were. -/
theorem advance_credit (hc : c.Settled) (h : c.advance batch g = (d, k, result)) :
    k.credit + (d.balance.toNat + (result == some true).toNat) * kCreditScale ≤
      g.credit + c.balance.toNat * kCreditScale := by
  rw [LeaseCall.advance.eq_def] at h
  split at h
  · rw [GlobalAdmission.tryAcquireInflight] at h
    split at h
    · cases h
      simp
    · next heq =>
      split at heq <;> cases heq
      cases h
      simp
  · split at h
    · cases h
      simpa using (g.return_spec c.balance).2.2
    · cases h
      simp
  · next hphase =>
    cases h
    rw [hc hphase]
    simpa using (g.draw_spec batch).2.2.le
  split at h
  · cases h
    simp [GlobalAdmission.releaseOne]
  next hne =>
  cases h
  have hpos : 0 < c.balance.toNat := by
    rw [← UInt32.toNat_inj] at hne
    exact Nat.pos_of_ne_zero hne
  have hcount : ((c.balance.toNat - 1 : ℕ) : ℤ) + 1 = c.balance.toNat := by omega
  rw [toNat_sub_one hne]
  simp [hcount]

end LeaseCall
end AegisGate.Runtime
