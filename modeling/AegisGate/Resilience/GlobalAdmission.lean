import AegisGate.Config
import AegisGate.Lib.Cas

/-!
# Global route admission

One `GlobalAdmission` is shared by all workers of a route. Its token budget is one atomic
credit counter, in billionths of a token: `Refill` adds to it as time passes, workers `Draw`
whole tokens from it and `Return` what they did not spend. Each of the three is a
compare-exchange loop on the counter; `plan` is the body of that loop, from the load to the
exchange. The arithmetic of the source has 64 signed bits, and a result outside of them is
undefined: `none` here.
-/

namespace AegisGate.Resilience
open Lib Int

/-- A signed 64-bit result; `none` is an overflow. -/
def int64 (n : ℤ) : Option ℤ := if -2 ^ 63 ≤ n ∧ n < 2 ^ 63 then some n else none

lemma int64_eq {n : ℤ} (hlow : -2 ^ 63 ≤ n) (hhigh : n < 2 ^ 63) : int64 n = some n :=
  if_pos ⟨hlow, hhigh⟩

/-- Units of credit in a token. -/
def kCreditScale : ℤ := 1000000000

/-- The limits of a route. The constructor throws on a zero. -/
structure AdmissionLimits where
  rate : UInt32
  burst : UInt32
  maxInflight : UInt32
  rate_pos : 0 < rate.toNat
  burst_pos : 0 < burst.toNat
  maxInflight_pos : 0 < maxInflight.toNat

/-- The limits a route configures; `none` is `std::invalid_argument`. -/
def AdmissionLimits.ofRoute (route : Config.Route) : Option AdmissionLimits :=
  if h : 0 < route.rateLimit.toNat ∧ 0 < route.burst.toNat ∧ 0 < route.maxInflight.toNat then
    some ⟨route.rateLimit, route.burst, route.maxInflight, h.1, h.2.1, h.2.2⟩
  else none

/-- A call on the credit counter. `Refill` enters its loop with a positive time only. -/
inductive CreditOp
  | refill (elapsed : { n : ℤ // 0 < n })
  | draw (want : UInt32)
  | return_ (tokens : UInt32)
  deriving DecidableEq

/-- `LeaseBatch`; the sum is taken in 64 bits. -/
def leaseBatch (rate workers burst : UInt32) : UInt32 :=
  if workers = 0 then 0 else
  let batch := (rate.toNat + workers.toNat - 1) / workers.toNat
  if burst.toNat ≤ batch then burst else if 0 < batch then .ofNat batch else 1

namespace AdmissionLimits
variable (l : AdmissionLimits)

def capacityCredit : ℤ := l.burst.toNat * kCreditScale

/-- The first number of nanoseconds that supplies all missing credit. -/
def needed (missing : ℤ) : Option ℤ := do
  let sum ← int64 (missing + l.rate.toNat)
  let sum ← int64 (sum - 1)
  return sum.tdiv l.rate.toNat

/-- The body of `Refill`'s loop: the value to exchange for `credit`, if any. -/
def refillBody (elapsed credit : ℤ) : Option (Option ℤ) := do
  let missing ← int64 (l.capacityCredit - credit)
  if missing ≤ 0 then return none
  let needed ← l.needed missing
  let refilled ← if needed ≤ elapsed then some missing else int64 (l.rate.toNat * elapsed)
  let desired ← int64 (credit + refilled)
  return some desired

/-- The body of `Draw`'s loop. -/
def drawBody (want : UInt32) (credit : ℤ) : Option (Option ℤ) := do
  let whole := credit.tdiv kCreditScale
  if whole ≤ 0 then return none
  let take := min whole want.toNat
  let value ← int64 (take * kCreditScale)
  let desired ← int64 (credit - value)
  return some desired

/-- The body of `Return`'s loop, for the credit the tokens are worth. -/
def returnLoop (value credit : ℤ) : Option (Option ℤ) := do
  let room ← int64 (l.capacityCredit - credit)
  let returned := min room value
  if returned ≤ 0 then return none
  let desired ← int64 (credit + returned)
  return some desired

/-- `Return`: it does not enter its loop without tokens. -/
def returnBody (tokens : UInt32) (credit : ℤ) : Option (Option ℤ) :=
  if tokens = 0 then some none
  else (int64 (tokens.toNat * kCreditScale)).bind fun value => l.returnLoop value credit

def body (op : CreditOp) (credit : ℤ) : Option (Option ℤ) :=
  match op with
  | .refill elapsed => l.refillBody elapsed credit
  | .draw want => drawBody want credit
  | .return_ tokens => l.returnBody tokens credit

/-- The body as the decision of a compare-exchange loop. -/
def plan (op : CreditOp) (credit : ℤ) : Cas.Plan ℤ :=
  match l.body op credit with
  | none => .trap
  | some none => .leave
  | some (some desired) => .exchange desired

/-! ## What an exchange moves -/

/-- Tokens a `Draw` takes. -/
def taken (op : CreditOp) (credit : ℤ) : ℤ :=
  match op with
  | .draw want => min (credit / kCreditScale) want.toNat
  | _ => 0

/-- Credit a `Return` hands back. -/
def handedBack (op : CreditOp) (credit : ℤ) : ℤ :=
  match op with
  | .return_ tokens => min (l.capacityCredit - credit) (tokens.toNat * kCreditScale)
  | _ => 0

/-- Credit a `Refill` adds. -/
def refilled (op : CreditOp) (credit : ℤ) : ℤ :=
  match op with
  | .refill elapsed => min (l.capacityCredit - credit) (l.rate.toNat * elapsed)
  | _ => 0

/-- Nanoseconds a `Refill` applies. -/
def nanoseconds : CreditOp → ℤ
  | .refill elapsed => elapsed
  | _ => 0

/-- The credit is within the bucket. -/
def Holds (credit : ℤ) : Prop := 0 ≤ credit ∧ credit ≤ l.capacityCredit

/-- What an exchange does to the credit. -/
structure Exchanges (op : CreditOp) (credit desired : ℤ) : Prop where
  holds : l.Holds desired
  balance : desired + taken op credit * kCreditScale =
    credit + l.refilled op credit + l.handedBack op credit
  supply : l.refilled op credit ≤ l.rate.toNat * nanoseconds op
  taken_nonneg : 0 ≤ taken op credit
  refilled_nonneg : 0 ≤ l.refilled op credit
  handedBack_nonneg : 0 ≤ l.handedBack op credit

lemma scaled_bounds (n : UInt32) :
    0 ≤ (n.toNat : ℤ) * kCreditScale ∧ (n.toNat : ℤ) * kCreditScale < 2 ^ 62 := by
  have hn := n.toNat_lt
  rw [kCreditScale]
  omega

lemma capacity_lt : l.capacityCredit < 2 ^ 62 := (scaled_bounds l.burst).2

lemma rate_lt : (l.rate.toNat : ℤ) < 2 ^ 32 := by
  have hrate := l.rate.toNat_lt
  omega

lemma needed_spec {missing : ℤ} (hlow : 0 ≤ missing) (hhigh : missing < 2 ^ 62) :
    ∃ needed, l.needed missing = some needed ∧
      ∀ elapsed, needed ≤ elapsed ↔ missing ≤ l.rate.toNat * elapsed := by
  have hrate := l.rate_lt
  have hpos : (0 : ℤ) < l.rate.toNat := by exact_mod_cast l.rate_pos
  refine ⟨(missing + l.rate.toNat - 1) / l.rate.toNat, ?_, fun elapsed => ?_⟩
  · rw [needed, int64_eq (by omega) (by omega)]
    dsimp only [bind, Option.bind, pure]
    rw [int64_eq (by omega) (by omega)]
    dsimp only
    rw [tdiv_eq_ediv_of_nonneg (by omega)]
  · rw [← lt_add_one_iff, Int.ediv_lt_iff_lt_mul hpos, add_mul, mul_comm elapsed]
    omega

section
variable {l} {credit : ℤ} (h : l.Holds credit)
include h

lemma refillBody_eq {elapsed : ℤ} (helapsed : 0 < elapsed) :
    l.refillBody elapsed credit = if credit = l.capacityCredit then some none
      else some (some (credit + min (l.capacityCredit - credit) (l.rate.toNat * elapsed))) := by
  obtain ⟨hlow, hhigh⟩ := h
  have hcap := l.capacity_lt
  have hpos : (0 : ℤ) < l.rate.toNat := by exact_mod_cast l.rate_pos
  set missing := l.capacityCredit - credit with hmissing
  rw [refillBody, ← hmissing, int64_eq (by omega) (by omega)]
  by_cases hfull : credit = l.capacityCredit
  · have hgap : missing ≤ 0 := by omega
    simp [hfull, hgap]
  have hgap : 0 < missing := by omega
  obtain ⟨needed, hneeded, hceil⟩ := l.needed_spec hgap.le (by omega)
  simp only [bind, Option.bind, pure, hneeded, if_neg hfull, if_neg (not_le.mpr hgap)]
  by_cases henough : missing ≤ l.rate.toNat * elapsed
  · rw [if_pos ((hceil elapsed).mpr henough), min_eq_left henough, int64_eq (by omega) (by omega)]
  · have hprod : 0 < (l.rate.toNat : ℤ) * elapsed := mul_pos hpos helapsed
    rw [if_neg (fun hle => henough ((hceil elapsed).mp hle)), min_eq_right (by omega),
      int64_eq (by omega) (by omega)]
    dsimp only
    rw [int64_eq (by omega) (by omega)]

lemma drawBody_eq (want : UInt32) : drawBody want credit = if credit < kCreditScale then some none
    else some (some (credit - min (credit / kCreditScale) want.toNat * kCreditScale)) := by
  obtain ⟨hlow, hhigh⟩ := h
  have hcap := l.capacity_lt
  rw [drawBody, tdiv_eq_ediv_of_nonneg hlow]
  by_cases hsmall : credit < kCreditScale
  · have hwhole : credit / kCreditScale ≤ 0 := by
      rw [kCreditScale] at hsmall ⊢
      omega
    simp [hsmall, hwhole]
  have hwhole : 0 < credit / kCreditScale := by
    rw [kCreditScale] at hsmall ⊢
    omega
  have htake : 0 ≤ min (credit / kCreditScale) (want.toNat : ℤ) * kCreditScale ∧
      min (credit / kCreditScale) (want.toNat : ℤ) * kCreditScale ≤ credit := by
    rw [kCreditScale] at hwhole ⊢
    omega
  simp only [bind, Option.bind, pure, if_neg hsmall, if_neg (not_le.mpr hwhole)]
  rw [int64_eq (by omega) (by omega)]
  dsimp only
  rw [int64_eq (by omega) (by omega)]

lemma returnLoop_eq {value : ℤ} (hpos : 0 < value) (hvalue : value < 2 ^ 62) :
    l.returnLoop value credit = if credit = l.capacityCredit then some none
      else some (some (credit + min (l.capacityCredit - credit) value)) := by
  obtain ⟨hlow, hhigh⟩ := h
  have hcap := l.capacity_lt
  rw [returnLoop, int64_eq (by omega) (by omega)]
  dsimp only [bind, Option.bind, pure]
  by_cases hfull : credit = l.capacityCredit
  · rw [if_pos (by omega), if_pos hfull]
  · rw [if_neg (by omega), if_neg hfull, int64_eq (by omega) (by omega)]

lemma returnBody_eq (tokens : UInt32) : l.returnBody tokens credit =
    if tokens = 0 ∨ credit = l.capacityCredit then some none
    else some (some (credit + min (l.capacityCredit - credit) (tokens.toNat * kCreditScale))) := by
  obtain ⟨hnonneg, hvalue⟩ := scaled_bounds tokens
  rw [returnBody]
  by_cases hzero : tokens = 0
  · rw [if_pos hzero, if_pos (.inl hzero)]
  have hpos : 0 < (tokens.toNat : ℤ) * kCreditScale := by
    have hne : tokens.toNat ≠ 0 := by
      rw [← UInt32.toNat_inj] at hzero
      exact hzero
    exact mul_pos (by omega) (by decide)
  rw [if_neg hzero, int64_eq (by omega) (by omega), Option.bind_some, returnLoop_eq h hpos hvalue]
  simp only [hzero, false_or]

/-- The loop leaves the counter when there is nothing to move, and exchanges it otherwise. -/
lemma plan_cases (op : CreditOp) :
    l.plan op credit = .leave ∧
        taken op credit = 0 ∧ l.refilled op credit = 0 ∧ l.handedBack op credit = 0 ∨
      ∃ desired, l.plan op credit = .exchange desired ∧ l.Exchanges op credit desired := by
  have hlow := h.1
  have hhigh := h.2
  rw [plan]
  cases op with
  | refill elapsed =>
    have hprod : 0 < (l.rate.toNat : ℤ) * elapsed.1 :=
      mul_pos (by exact_mod_cast l.rate_pos) elapsed.2
    rw [body, refillBody_eq h elapsed.2]
    split_ifs
    · refine .inl ⟨rfl, rfl, ?_, rfl⟩
      simp only [refilled]
      omega
    · refine .inr ⟨_, rfl, ⟨by omega, by omega⟩, ?_, min_le_right _ _, le_refl _, ?_, le_refl _⟩ <;>
        simp only [taken, refilled, handedBack] <;> omega
  | draw want =>
    rw [body, drawBody_eq h want]
    split_ifs with hsmall
    · refine .inl ⟨rfl, ?_, rfl, rfl⟩
      simp only [taken, kCreditScale] at hsmall ⊢
      omega
    have htake : 0 ≤ min (credit / kCreditScale) (want.toNat : ℤ) ∧
        min (credit / kCreditScale) (want.toNat : ℤ) * kCreditScale ≤ credit := by
      rw [kCreditScale]
      omega
    have hscaled : 0 ≤ min (credit / kCreditScale) (want.toNat : ℤ) * kCreditScale := by
      rw [kCreditScale] at htake ⊢
      omega
    refine .inr ⟨_, rfl, ⟨by omega, by omega⟩, ?_, ?_, htake.1, le_refl _, le_refl _⟩ <;>
      simp only [taken, refilled, handedBack, nanoseconds] <;> omega
  | return_ tokens =>
    have hnonneg := (scaled_bounds tokens).1
    rw [body, returnBody_eq h tokens]
    split_ifs with hnothing
    · refine .inl ⟨rfl, rfl, rfl, ?_⟩
      simp only [handedBack]
      rcases hnothing with rfl | hfull
      · exact min_eq_right (sub_nonneg_of_le hhigh)
      · omega
    · refine .inr ⟨_, rfl, ⟨by omega, by omega⟩, ?_, ?_, le_refl _, le_refl _, ?_⟩ <;>
        simp only [taken, refilled, handedBack, nanoseconds] <;> omega

lemma plan_ne_trap (op : CreditOp) : l.plan op credit ≠ .trap := by
  rcases plan_cases h op with ⟨heq, -⟩ | ⟨desired, heq, -⟩ <;> rw [heq] <;> nofun

lemma plan_exchange {op : CreditOp} {desired : ℤ} (hplan : l.plan op credit = .exchange desired) :
    l.Exchanges op credit desired := by
  rcases plan_cases h op with ⟨heq, -⟩ | ⟨d, heq, hmoves⟩ <;> cases heq.symm.trans hplan
  exact hmoves

end
end AdmissionLimits

/-! ## The admission of a route -/

open AdmissionLimits

/-- The admission of one route, with each call taken as its one exchange. -/
structure GlobalAdmission where
  limits : AdmissionLimits
  credit : ℤ
  holds : limits.Holds credit
  lastRefill : ℤ
  inflight : ℕ := 0

namespace GlobalAdmission

def create (limits : AdmissionLimits) (now : ℤ) : GlobalAdmission where
  limits
  credit := limits.capacityCredit
  holds := ⟨(scaled_bounds limits.burst).1, le_refl _⟩
  lastRefill := now

/-- A loop that is not disturbed. -/
def perform (g : GlobalAdmission) (op : CreditOp) : GlobalAdmission :=
  match hplan : g.limits.plan op g.credit with
  | .exchange desired => { g with credit := desired, holds := (plan_exchange g.holds hplan).1 }
  | _ => g

def refill (g : GlobalAdmission) (now : ℤ) : GlobalAdmission :=
  if h : g.lastRefill < now then
    { g with lastRefill := now }.perform (.refill ⟨now - g.lastRefill, sub_pos_of_lt h⟩)
  else g

/-- `Draw`: the admission and the tokens taken. -/
def draw (g : GlobalAdmission) (want : UInt32) : GlobalAdmission × UInt32 :=
  (g.perform (.draw want), .ofNat (taken (.draw want) g.credit).toNat)

def return_ (g : GlobalAdmission) (tokens : UInt32) : GlobalAdmission := g.perform (.return_ tokens)

/-- `TryAcquireInflight`; `none` when the maximum is reached. -/
def tryAcquireInflight (g : GlobalAdmission) : Option GlobalAdmission :=
  if g.inflight < g.limits.maxInflight.toNat then some { g with inflight := g.inflight + 1 }
  else none

def releaseOne (g : GlobalAdmission) : GlobalAdmission := { g with inflight := g.inflight - 1 }

variable (g : GlobalAdmission)

lemma perform_spec (op : CreditOp) :
    ((g.perform op).limits = g.limits ∧ (g.perform op).lastRefill = g.lastRefill) ∧
      (g.perform op).credit + taken op g.credit * kCreditScale =
        g.credit + g.limits.refilled op g.credit + g.limits.handedBack op g.credit := by
  rw [perform]
  split
  · next desired hplan => exact ⟨⟨rfl, rfl⟩, (plan_exchange g.holds hplan).balance⟩
  next hother =>
  refine ⟨⟨rfl, rfl⟩, ?_⟩
  rcases plan_cases g.holds op with ⟨-, htaken, hrefilled, hback⟩ | ⟨desired, hplan, -⟩
  · rw [htaken, hrefilled, hback]
    omega
  · exact absurd hplan (hother desired)

lemma draw_spec (want : UInt32) : (g.draw want).1.limits = g.limits ∧
    (g.draw want).1.lastRefill = g.lastRefill ∧
    (g.draw want).1.credit + (g.draw want).2.toNat * kCreditScale = g.credit := by
  obtain ⟨⟨hlimits, hlast⟩, hbalance⟩ := g.perform_spec (.draw want)
  refine ⟨hlimits, hlast, ?_⟩
  have hwant := want.toNat_lt
  have hlow := g.holds.1
  have hquot : 0 ≤ g.credit / kCreditScale := ediv_nonneg hlow (by decide)
  have htaken : ((g.draw want).2.toNat : ℤ) = taken (.draw want) g.credit := by
    simp only [draw, taken, UInt32.toNat_ofNat']
    omega
  rw [htaken]
  simp only [refilled, handedBack, add_zero] at hbalance
  exact hbalance

lemma return_spec (tokens : UInt32) : (g.return_ tokens).limits = g.limits ∧
    (g.return_ tokens).lastRefill = g.lastRefill ∧
    (g.return_ tokens).credit ≤ g.credit + tokens.toNat * kCreditScale := by
  obtain ⟨⟨hlimits, hlast⟩, hbalance⟩ := g.perform_spec (.return_ tokens)
  refine ⟨hlimits, hlast, ?_⟩
  simp only [taken, refilled, handedBack] at hbalance
  rw [return_]
  omega

lemma refill_eq (now : ℤ) : (g.refill now).limits = g.limits ∧
    (g.refill now).lastRefill = max g.lastRefill now ∧ (g.refill now).credit =
      min g.limits.capacityCredit
        (g.credit + g.limits.rate.toNat * (max g.lastRefill now - g.lastRefill)) := by
  have hhigh := g.holds.2
  rw [refill]
  split
  · next hlt =>
    obtain ⟨⟨hlimits, hlast⟩, hbalance⟩ := perform_spec { g with lastRefill := now }
      (.refill ⟨now - g.lastRefill, sub_pos_of_lt hlt⟩)
    rw [max_eq_right hlt.le]
    refine ⟨hlimits, hlast, ?_⟩
    simp only [taken, refilled, handedBack] at hbalance
    omega
  · next hge =>
    rw [max_eq_left (not_lt.mp hge), sub_self, mul_zero, add_zero]
    exact ⟨rfl, rfl, (min_eq_right hhigh).symm⟩

end GlobalAdmission
end AegisGate.Resilience
