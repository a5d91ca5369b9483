import AegisGate.Resilience.GlobalAdmission

/-!
# The token bucket

`TokenBucket` of `src/resilience/TokenBucket.cpp` is what a route has without workers to share it
with: one call refills by the time that has passed and takes a token. A `GlobalAdmission` that is
refilled and drawn from by one caller is such a bucket.
-/

namespace AegisGate.Resilience
open AdmissionLimits

/-- The bucket of one worker. -/
structure TokenBucket where
  rate : UInt32
  burst : UInt32
  credit : ℤ
  lastRefill : ℤ
  deriving DecidableEq

namespace TokenBucket

/-- The constructor; `none` is `std::invalid_argument`. -/
def create (rate burst : UInt32) (now : ℤ) : Option TokenBucket :=
  if rate = 0 ∨ burst = 0 then none
  else some { rate, burst, credit := burst.toNat * kCreditScale, lastRefill := now }

/-- What `TryAcquire` does before it looks at the credit; `none` is an overflow. -/
def refill (b : TokenBucket) (now : ℤ) : Option TokenBucket :=
  if b.lastRefill < now then do
    let elapsed := now - b.lastRefill
    let missing ← int64 (b.burst.toNat * kCreditScale - b.credit)
    let sum ← int64 (missing + b.rate.toNat)
    let sum ← int64 (sum - 1)
    let credit ← if sum.tdiv b.rate.toNat ≤ elapsed then some (b.burst.toNat * kCreditScale)
      else (int64 (b.rate.toNat * elapsed)).bind fun gained => int64 (b.credit + gained)
    return { b with credit, lastRefill := now }
  else some b

def tryAcquire (b : TokenBucket) (now : ℤ) : Option (TokenBucket × Bool) :=
  (b.refill now).map fun b =>
    if b.credit < kCreditScale then (b, false)
    else ({ b with credit := b.credit - kCreditScale }, true)

/-- `TryAcquire` at a list of times: what it answers, and the credit after it. -/
def uses (b : TokenBucket) : List ℤ → Option (List (Bool × ℤ))
  | [] => some []
  | now :: times => do
    let (b, granted) ← b.tryAcquire now
    let later ← b.uses times
    return (granted, b.credit) :: later

end TokenBucket

namespace GlobalAdmission
variable (g : GlobalAdmission)

/-- `Refill` and `Draw` of one token at a list of times, with one caller. -/
def uses (g : GlobalAdmission) : List ℤ → List (Bool × ℤ)
  | [] => []
  | now :: times =>
    let (g, tokens) := (g.refill now).draw 1
    (tokens != 0, g.credit) :: g.uses times

def bucket : TokenBucket := ⟨g.limits.rate, g.limits.burst, g.credit, g.lastRefill⟩

lemma bucket_eq {g h : GlobalAdmission} (hlimits : h.limits = g.limits) :
    h.bucket = ⟨g.limits.rate, g.limits.burst, h.credit, h.lastRefill⟩ := by
  rw [bucket, hlimits]

lemma refill_bucket (now : ℤ) : g.bucket.refill now = some (g.refill now).bucket := by
  obtain ⟨hlimits, hlast, hcredit⟩ := g.refill_eq now
  obtain ⟨hlow, hhigh⟩ := g.holds
  have hcap := g.limits.capacity_lt
  have hpos : (0 : ℤ) < g.limits.rate.toNat := by exact_mod_cast g.limits.rate_pos
  rw [bucket_eq hlimits, hlast, hcredit, TokenBucket.refill]
  by_cases hlt : g.lastRefill < now
  · obtain ⟨needed, hneeded, hceil⟩ :=
      g.limits.needed_spec (Int.sub_nonneg_of_le hhigh) (by omega)
    have hprod := Int.mul_pos hpos (Int.sub_pos_of_lt hlt)
    obtain ⟨sum, hsum, hneeded⟩ := Option.bind_eq_some_iff.mp hneeded
    obtain ⟨sum', hsum', ⟨⟩⟩ := Option.bind_eq_some_iff.mp hneeded
    rw [if_pos (show g.bucket.lastRefill < now from hlt), max_eq_right hlt.le]
    dsimp only [bucket]
    rw [show (g.limits.burst.toNat : ℤ) * kCreditScale = g.limits.capacityCredit from rfl,
      int64_eq (by omega) (by omega)]
    simp only [bind, Option.bind, pure, hsum, hsum', hceil]
    by_cases henough : g.limits.capacityCredit - g.credit ≤
      g.limits.rate.toNat * (now - g.lastRefill)
    · rw [if_pos henough, min_eq_left (by omega)]
    · rw [if_neg henough, int64_eq (by omega) (by omega)]
      dsimp only
      rw [int64_eq (by omega) (by omega), min_eq_right (by omega)]
  · rw [if_neg (show ¬ g.bucket.lastRefill < now from hlt), max_eq_left (not_lt.mp hlt),
      Int.sub_self, Int.mul_zero, Int.add_zero, min_eq_right hhigh]
    rfl

lemma tryAcquire_bucket (now : ℤ) : g.bucket.tryAcquire now =
    some (((g.refill now).draw 1).1.bucket, ((g.refill now).draw 1).2 != 0) := by
  rw [TokenBucket.tryAcquire, refill_bucket]
  generalize g.refill now = g
  obtain ⟨hlimits, hlast, hbalance⟩ := g.draw_spec 1
  have hone : (g.draw 1).2 = .ofNat (min (g.credit / 1000000000) 1).toNat := rfl
  have hlow := g.holds.1
  rw [Option.map_some, bucket_eq hlimits, hlast]
  by_cases hsmall : g.credit < kCreditScale
  · have htaken : (g.draw 1).2 = 0 := by
      rw [hone, show min (g.credit / 1000000000) 1 = 0 by rw [kCreditScale] at hsmall; omega]
      rfl
    rw [htaken] at hbalance ⊢
    rw [if_pos (show g.bucket.credit < kCreditScale from hsmall),
      show (g.draw 1).1.credit = g.credit by simpa using hbalance]
    rfl
  · have htaken : (g.draw 1).2 = 1 := by
      rw [hone, show min (g.credit / 1000000000) 1 = 1 by rw [kCreditScale] at hsmall; omega]
      rfl
    rw [htaken, UInt32.toNat_one, Nat.cast_one, Int.one_mul] at hbalance
    rw [if_neg (show ¬ g.bucket.credit < kCreditScale from hsmall), htaken,
      show (g.draw 1).1.credit = g.credit - kCreditScale by omega]
    rfl

lemma uses_bucket (times : List ℤ) : g.bucket.uses times = some (g.uses times) := by
  induction times generalizing g with
  | nil => rfl
  | cons now times ih =>
    rw [TokenBucket.uses, tryAcquire_bucket]
    simp only [bind, Option.bind, ih, pure]
    rfl

lemma refill_refill {tick now : ℤ} (h : tick ≤ now) :
    ((g.refill tick).refill now).bucket = (g.refill now).bucket := by
  obtain ⟨hlimits, hlast, hcredit⟩ := g.refill_eq tick
  obtain ⟨hlimits', hlast', hcredit'⟩ := (g.refill tick).refill_eq now
  obtain ⟨hlimits'', hlast'', hcredit''⟩ := g.refill_eq now
  have hmax : max (max g.lastRefill tick) now = max g.lastRefill now := by omega
  simp only [bucket, hlimits', hlast', hcredit', hlimits, hlast, hcredit, hlimits'', hlast'',
    hcredit'', hmax]
  congr 1
  have hpos : (0 : ℤ) ≤ g.limits.rate.toNat := Int.natCast_nonneg _
  have hrest := Int.mul_nonneg hpos
    (show 0 ≤ max g.lastRefill now - max g.lastRefill tick by omega)
  have hsplit : (g.limits.rate.toNat : ℤ) * (max g.lastRefill now - g.lastRefill) =
      g.limits.rate.toNat * (max g.lastRefill tick - g.lastRefill) +
        g.limits.rate.toNat * (max g.lastRefill now - max g.lastRefill tick) := by
    ring
  omega

/-- **The pool of one caller is a token bucket.** Both answer and hold the same at all times, and
the credit after `d` nanoseconds is the plain minimum, in one tick or in many. -/
theorem refines_tokenBucket (limits : AdmissionLimits) (start : ℤ) :
    (∃ b, TokenBucket.create limits.rate limits.burst start = some b ∧
      ∀ times, b.uses times = some ((create limits start).uses times)) ∧
    (∀ (g : GlobalAdmission) (d : ℕ), g.bucket.refill (g.lastRefill + d) =
        some (g.refill (g.lastRefill + d)).bucket ∧ (g.refill (g.lastRefill + d)).credit =
      min ((g.limits.burst.toNat : ℤ) * 10 ^ 9) (g.credit + g.limits.rate.toNat * d)) ∧
    ∀ (ticks : List ℤ) (now : ℤ), (∀ tick ∈ ticks, tick ≤ now) → ∀ g : GlobalAdmission,
      ((ticks.foldl refill g).refill now).bucket = (g.refill now).bucket ∧
      (ticks.foldlM TokenBucket.refill g.bucket).bind (·.refill now) =
        some (g.refill now).bucket := by
  refine ⟨⟨(create limits start).bucket, ?_, uses_bucket _⟩, fun g d => ⟨refill_bucket _ _, ?_⟩,
    fun ticks now hticks g => ?_⟩
  · have hrate := limits.rate_pos
    have hburst := limits.burst_pos
    refine if_neg ?_
    rintro (hzero | hzero)
    · simp [hzero] at hrate
    · simp [hzero] at hburst
  · rw [(g.refill_eq _).2.2, max_eq_right (by omega), add_sub_cancel_left]
    rfl
  · induction ticks generalizing g with
    | nil => exact ⟨rfl, refill_bucket g now⟩
    | cons tick ticks ih =>
      have htick := hticks tick List.mem_cons_self
      have hrest := ih (fun t ht => hticks t (List.mem_cons_of_mem _ ht)) (g.refill tick)
      rw [g.refill_refill htick] at hrest
      rw [List.foldl_cons, List.foldlM_cons, refill_bucket]
      exact hrest

end GlobalAdmission
end AegisGate.Resilience
