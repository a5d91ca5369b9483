import AegisGate.Lib.Ring

/-!
# The circuit breaker

One breaker guards one route and endpoint. It counts outcomes in ten buckets over a
sliding window, opens when the failure rate reaches a threshold, and lets a quota of
probes through before it closes again.

Instants and durations are nanoseconds of the steady clock, as integers. Counters
keep the width of the source: bucket counts and the half-open counts have 32 bits,
generations and probe identifiers 64.

A breaker is only built from a valid configuration; the structure carries that fact,
so no operation has to check it again.
-/

namespace AegisGate.Resilience
open Lib Function List

/-- A point of the steady clock, in nanoseconds. -/
abbrev TimePoint := ℤ

/-- A duration of the configuration, in nanoseconds. -/
def milliseconds (n : ℕ) : ℤ := n * 1000000

/-- Start-up value object; durations are in milliseconds. -/
structure CircuitBreakerConfig where
  window : ℕ
  minRequests : ℕ
  failureThresholdPermille : ℕ
  openDuration : ℕ
  halfOpenProbes : ℕ
  deriving DecidableEq, Repr

/-- What the constructor accepts; the probe quota is a 32-bit value. -/
def CircuitBreakerConfig.Valid (c : CircuitBreakerConfig) : Prop :=
  0 < c.window ∧ 0 < c.minRequests ∧ 0 < c.failureThresholdPermille ∧
    c.failureThresholdPermille < 1000 ∧ 0 < c.openDuration ∧ 0 < c.halfOpenProbes ∧
    c.halfOpenProbes < 2 ^ 32

instance (c : CircuitBreakerConfig) : Decidable c.Valid :=
  inferInstanceAs (Decidable (0 < c.window ∧ 0 < c.minRequests ∧ 0 < c.failureThresholdPermille ∧
    c.failureThresholdPermille < 1000 ∧ 0 < c.openDuration ∧ 0 < c.halfOpenProbes ∧
    c.halfOpenProbes < 2 ^ 32))

/-- `CircuitBreakerState`. -/
inductive BreakerState
  | closed
  | opened
  | halfOpen
  deriving DecidableEq, Repr

/-- What `Select` answers. -/
inductive Selection
  | allowed
  | rejectedOpen
  | rejectedHalfOpenQuota
  | probe
  deriving DecidableEq, Repr

/-- The license a request receives and hands back with its outcome. -/
structure RequestPermit where
  selection : Selection := .rejectedOpen
  generation : ℕ := 0
  probeId : ℕ := 0
  deriving DecidableEq, Repr

/-- The probes of a cycle: an interval of identifiers. -/
structure HalfOpenCycle where
  generation : ℕ
  probeBase : ℕ
  quota : ℕ
  deriving DecidableEq, Repr

/-- One statistics bucket; `start = 0` marks an unused one. -/
structure Bucket where
  start : TimePoint := 0
  success : ℕ := 0
  failure : ℕ := 0
  deriving DecidableEq, Repr

/-- A bucket by its age. -/
structure BucketSnapshot where
  ageFromExport : ℤ
  success : ℕ
  failure : ℕ
  deriving DecidableEq, Repr

/-- What is exported of a breaker. -/
structure CircuitBreakerSnapshot where
  state : BreakerState := .closed
  buckets : List BucketSnapshot := []
  openRemaining : ℤ := 0
  halfOpenQuota : ℕ := 0
  sourceGeneration : ℕ := 0
  deriving DecidableEq, Repr

def kBucketCount : ℕ := 10

/-- The breaker, with a configuration that the constructor accepted. -/
structure CircuitBreaker where
  config : CircuitBreakerConfig
  valid : config.Valid
  state : BreakerState := .closed
  epoch : TimePoint
  activeStart : TimePoint := 0
  activeIndex : ℕ := 0
  initialized : Bool := false
  buckets : ℕ → Bucket := fun _ => {}
  openUntil : TimePoint := 0
  generation : ℕ := 1
  nextProbeId : ℕ := 1
  pendingProbes : List ℕ := []
  halfOpenIssued : ℕ := 0
  halfOpenCompleted : ℕ := 0

namespace CircuitBreaker

/-- The constructor; `none` is `std::invalid_argument`. -/
def create (config : CircuitBreakerConfig) (now : TimePoint) : Option CircuitBreaker :=
  if h : config.Valid then some { config := config, valid := h, epoch := now } else none

section
variable (b : CircuitBreaker)

/-- The width of a bucket. -/
def bucketDuration : ℤ := milliseconds b.config.window / kBucketCount

/-- One turn of the loop of `AdvanceTo`. -/
def nextBucket : CircuitBreaker :=
  let start := b.activeStart + b.bucketDuration
  let index := (b.activeIndex + 1) % kBucketCount
  { b with
    activeStart := start
    activeIndex := index
    buckets := update b.buckets index { start := start } }

/-- So many turns of the loop. -/
def skipBuckets (b : CircuitBreaker) : ℕ → CircuitBreaker
  | 0 => b
  | n + 1 => b.nextBucket.skipBuckets n

section
variable (now : TimePoint)

/-- A jump past the whole window voids the statistics. -/
def jumpTo : CircuitBreaker :=
  let start := now - (now - b.epoch) % b.bucketDuration
  let index := ((now - b.epoch) / b.bucketDuration).toNat % kBucketCount
  { b with
    activeStart := start
    activeIndex := index
    buckets := update (fun _ => {}) index { start := start } }

/-- The first outcome or selection starts the statistics at the epoch. -/
def startBuckets : CircuitBreaker :=
  if b.initialized then b else
  { b with
    activeStart := b.epoch
    activeIndex := 0
    buckets := update b.buckets 0 { start := b.epoch }
    initialized := true }

/-- `AdvanceTo`: make the bucket of `now` the active one. -/
def advanceTo : CircuitBreaker :=
  if now < b.epoch then b else
  let b := b.startBuckets
  if now < b.activeStart + b.bucketDuration then b else
  let skipped := ((now - b.activeStart) / b.bucketDuration).toNat
  if kBucketCount ≤ skipped then b.jumpTo now else b.skipBuckets skipped

/-- `Aggregate`: successes and failures in the window that ends now. -/
def aggregate : ℕ × ℕ :=
  (range kBucketCount).foldl
    (fun (acc : ℕ × ℕ) i =>
      let bucket := b.buckets i
      if now - milliseconds b.config.window < bucket.start then
        (acc.1 + bucket.success, acc.2 + bucket.failure)
      else acc) (0, 0)

/-- `AdvanceGeneration`: 64 bits, and zero is reserved. -/
def advanceGeneration : CircuitBreaker :=
  let generation := incW 64 b.generation
  { b with generation := if generation = 0 then incW 64 generation else generation }

/-- `Open`. -/
def opens : CircuitBreaker :=
  { b.advanceGeneration with
    state := .opened
    openUntil := now + milliseconds b.config.openDuration
    pendingProbes := []
    halfOpenIssued := 0
    halfOpenCompleted := 0 }

/-- `Close`. -/
def close : CircuitBreaker :=
  { b.advanceGeneration with
    state := .closed
    pendingProbes := []
    halfOpenIssued := 0
    halfOpenCompleted := 0
    buckets := fun _ => {}
    initialized := false
    activeIndex := 0 }

/-- `BeginHalfOpen`: the transition that `Select` makes, with one probe issued. -/
def beginHalfOpen : CircuitBreaker :=
  { b.advanceGeneration with
    state := .halfOpen
    pendingProbes := [b.nextProbeId]
    nextProbeId := incW 64 b.nextProbeId
    halfOpenIssued := 1
    halfOpenCompleted := 0 }

/-- The failure rate has reached the threshold over enough samples. -/
def overThreshold : Bool :=
  let (success, failure) := b.aggregate now
  let total := success + failure
  b.config.minRequests ≤ total && b.config.failureThresholdPermille * total ≤ failure * 1000

/-- `Evaluate`: open on too many failures. -/
def evaluate : CircuitBreaker :=
  if b.overThreshold now then b.opens now else b

/-- Count an outcome in the active bucket. -/
def countOutcome (success : Bool) : CircuitBreaker :=
  let bucket := b.buckets b.activeIndex
  { b with
    buckets := update b.buckets b.activeIndex
      (if success then { bucket with success := incW 32 bucket.success }
       else { bucket with failure := incW 32 bucket.failure }) }

/-- `ConsumeProbe`: `none` when the identifier is not pending. -/
def consumeProbe (probeId : ℕ) : Option CircuitBreaker :=
  if probeId ∈ b.pendingProbes then some { b with pendingProbes := b.pendingProbes.erase probeId }
  else none

/-- `RecordSuccess`. -/
def recordSuccess (permit : RequestPermit) : CircuitBreaker :=
  let b := b.advanceTo now
  if permit.generation ≠ b.generation then b else
  match b.state with
  | .closed =>
    if permit.selection ≠ .allowed then b else (b.countOutcome true).evaluate now
  | .halfOpen =>
    if permit.selection ≠ .probe then b else
    match b.consumeProbe permit.probeId with
    | none => b
    | some b =>
      let b := { b with halfOpenCompleted := incW 32 b.halfOpenCompleted }
      -- Only the full quota closes the breaker.
      if b.halfOpenCompleted = b.config.halfOpenProbes then b.close else b
  | .opened => b

/-- `RecordFailure`. -/
def recordFailure (permit : RequestPermit) : CircuitBreaker :=
  let b := b.advanceTo now
  if permit.generation ≠ b.generation then b else
  match b.state with
  | .closed =>
    if permit.selection ≠ .allowed then b else (b.countOutcome false).evaluate now
  | .halfOpen =>
    if permit.selection ≠ .probe then b else
    match b.consumeProbe permit.probeId with
    | none => b
    | some b => b.opens now
  | .opened => b

/-- `Select`. -/
def select : CircuitBreaker × RequestPermit :=
  let b := b.advanceTo now
  match b.state with
  | .closed => (b, ⟨.allowed, b.generation, 0⟩)
  | .opened =>
    if now < b.openUntil then (b, ⟨.rejectedOpen, b.generation, 0⟩)
    else
      let probeId := b.nextProbeId
      let b := b.beginHalfOpen
      (b, ⟨.probe, b.generation, probeId⟩)
  | .halfOpen =>
    if b.halfOpenIssued < b.config.halfOpenProbes then
      let probeId := b.nextProbeId
      ({ b with
          halfOpenIssued := incW 32 b.halfOpenIssued
          pendingProbes := b.pendingProbes ++ [probeId]
          nextProbeId := incW 64 probeId }, ⟨.probe, b.generation, probeId⟩)
    else (b, ⟨.rejectedHalfOpenQuota, b.generation, 0⟩)

def refusesSelection : Bool :=
  match b.state with
  | .opened => now < b.openUntil
  | .halfOpen => b.config.halfOpenProbes ≤ b.halfOpenIssued
  | .closed => false

/-- The identifiers drawn by a loop of `count` increments of a 64-bit counter. -/
def probeRange (base : ℕ) : ℕ → List ℕ
  | 0 => []
  | n + 1 => base :: probeRange (incW 64 base) n

/-- `BeginFreshHalfOpenCycle`: the whole quota is issued at once. -/
def beginFreshHalfOpenCycle : CircuitBreaker × HalfOpenCycle :=
  let quota := b.config.halfOpenProbes
  let b' : CircuitBreaker := { b.advanceGeneration with
    state := .halfOpen
    pendingProbes := probeRange b.nextProbeId quota
    nextProbeId := (b.nextProbeId + quota) % 2 ^ 64
    halfOpenIssued := quota
    halfOpenCompleted := 0 }
  (b', ⟨b'.generation, b.nextProbeId, quota⟩)

/-! ## Migration -/

/-- `ExportSnapshot`. -/
def exportSnapshot : CircuitBreakerSnapshot :=
  match b.state with
  | .closed =>
    { sourceGeneration := b.generation
      buckets := ((range kBucketCount).map b.buckets).filterMap fun bucket =>
        if bucket.start = 0 ∨ now < bucket.start ∨
            milliseconds b.config.window ≤ now - bucket.start then none
        else some ⟨now - bucket.start, bucket.success, bucket.failure⟩ }
  | .opened =>
    { sourceGeneration := b.generation
      state := .opened
      openRemaining := if now < b.openUntil then b.openUntil - now else 0 }
  | .halfOpen =>
    { sourceGeneration := b.generation
      state := .halfOpen
      halfOpenQuota := b.config.halfOpenProbes }

/-- One exported bucket is added to the bucket that is as many widths back as its age. -/
def importBucket (b : CircuitBreaker) (source : BucketSnapshot) : CircuitBreaker :=
  if source.ageFromExport < 0 ∨ milliseconds b.config.window ≤ source.ageFromExport then b else
  let stepsBack := (source.ageFromExport / b.bucketDuration).toNat
  if kBucketCount ≤ stepsBack then b else
  let index := (kBucketCount - stepsBack) % kBucketCount
  let target := b.buckets index
  let start := if target.start = 0 then now - stepsBack * b.bucketDuration else target.start
  { b with
    buckets := update b.buckets index
      { start := start
        success := (target.success + source.success) % 2 ^ 32
        failure := (target.failure + source.failure) % 2 ^ 32 } }

end

/-- The state every import starts from: no permit of the source is valid in it. -/
def importBase (snapshot : CircuitBreakerSnapshot) (now : TimePoint) : CircuitBreaker :=
  { ({ b with generation := snapshot.sourceGeneration } : CircuitBreaker).advanceGeneration with
    nextProbeId := 1
    pendingProbes := []
    halfOpenIssued := 0
    halfOpenCompleted := 0
    openUntil := 0
    epoch := now
    activeStart := now
    activeIndex := 0
    initialized := true
    buckets := update (fun _ => {}) 0 { start := now } }

/-- `ImportSnapshot`, with the cycle it starts. -/
def importSnapshot (snapshot : CircuitBreakerSnapshot) (now : TimePoint) :
    CircuitBreaker × Option HalfOpenCycle :=
  let b := b.importBase snapshot now
  match snapshot.state with
  | .closed => (snapshot.buckets.foldl (importBucket now) { b with state := .closed }, none)
  | _ =>
    if snapshot.state = .opened ∧ 0 < snapshot.openRemaining then
      ({ b with state := .opened, openUntil := now + snapshot.openRemaining }, none)
    else
      -- A half-open source and an elapsed window both start a fresh cycle.
      let (b, cycle) := b.beginFreshHalfOpenCycle
      (b, some cycle)

end

/-! ## What the moves leave alone -/

/-- Two breakers that differ in their statistics only. -/
structure SameProtection (a b : CircuitBreaker) : Prop where
  config : a.config = b.config
  state : a.state = b.state
  openUntil : a.openUntil = b.openUntil
  generation : a.generation = b.generation
  nextProbeId : a.nextProbeId = b.nextProbeId
  pendingProbes : a.pendingProbes = b.pendingProbes
  halfOpenIssued : a.halfOpenIssued = b.halfOpenIssued
  halfOpenCompleted : a.halfOpenCompleted = b.halfOpenCompleted

namespace SameProtection
variable {a b c : CircuitBreaker}

lemma refl (b : CircuitBreaker) : SameProtection b b := ⟨rfl, rfl, rfl, rfl, rfl, rfl, rfl, rfl⟩

lemma trans (h : SameProtection a b) (k : SameProtection b c) : SameProtection a c :=
  ⟨h.1.trans k.1, h.2.trans k.2, h.3.trans k.3, h.4.trans k.4, h.5.trans k.5, h.6.trans k.6,
    h.7.trans k.7, h.8.trans k.8⟩

end SameProtection

section
variable (b : CircuitBreaker)

lemma skipBuckets_same (n : ℕ) : SameProtection (b.skipBuckets n) b := by
  induction n generalizing b with
  | zero => exact .refl b
  | succ n ih => exact (ih b.nextBucket).trans ⟨rfl, rfl, rfl, rfl, rfl, rfl, rfl, rfl⟩

lemma startBuckets_same : SameProtection b.startBuckets b := by
  unfold startBuckets
  split
  · exact .refl b
  · exact ⟨rfl, rfl, rfl, rfl, rfl, rfl, rfl, rfl⟩

lemma advanceTo_same (now : TimePoint) : SameProtection (b.advanceTo now) b := by
  unfold advanceTo
  have hs := startBuckets_same b
  split
  · exact .refl b
  simp only
  split
  · exact hs
  · split
    · exact SameProtection.trans (b := b.startBuckets) ⟨rfl, rfl, rfl, rfl, rfl, rfl, rfl, rfl⟩ hs
    · exact (skipBuckets_same _ _).trans hs

lemma importBucket_same (now : TimePoint) (b : CircuitBreaker) (source : BucketSnapshot) :
    SameProtection (importBucket now b source) b := by
  unfold importBucket
  split
  · exact .refl b
  · simp only
    split
    · exact .refl b
    · exact ⟨rfl, rfl, rfl, rfl, rfl, rfl, rfl, rfl⟩

lemma foldl_importBucket_same (now : TimePoint) (b : CircuitBreaker)
    (sources : List BucketSnapshot) :
    SameProtection (sources.foldl (importBucket now) b) b := by
  induction sources generalizing b with
  | nil => exact .refl b
  | cons source sources ih => exact (ih _).trans (importBucket_same now b source)

lemma importSnapshot_opened_iff (snapshot : CircuitBreakerSnapshot) (now : TimePoint) :
    (b.importSnapshot snapshot now).1.state = .opened ↔
      snapshot.state = .opened ∧ 0 < snapshot.openRemaining := by
  unfold importSnapshot
  cases hst : snapshot.state with
  | closed =>
    rw [(foldl_importBucket_same _ _ _).state]
    simp
  | opened =>
    by_cases hpos : 0 < snapshot.openRemaining
    · simp [hpos]
    · simp [hpos, beginFreshHalfOpenCycle]
  | halfOpen => simp [beginFreshHalfOpenCycle]

lemma create_some {config : CircuitBreakerConfig} {now : TimePoint} {b : CircuitBreaker}
    (h : create config now = some b) :
    ∃ hvalid : config.Valid, b = { config := config, valid := hvalid, epoch := now } := by
  rw [create] at h
  split at h
  · next hvalid => exact ⟨hvalid, (Option.some.inj h).symm⟩
  · cases h

/-! ## When an outcome opens the breaker -/

/-- One outcome, as `CoordinatorState` reports it. -/
def record (now : TimePoint) (permit : RequestPermit) (success : Bool) : CircuitBreaker :=
  if success then b.recordSuccess now permit else b.recordFailure now permit

/-- The outcome opens the breaker: it belongs to the current epoch and either tips the
failure rate of a closed breaker or is a failed probe of a half-open one. -/
def Trips (now : TimePoint) (permit : RequestPermit) (success : Bool) : Prop :=
  permit.generation = b.generation ∧ match b.state with
    | .closed =>
      permit.selection = .allowed ∧
        ((b.advanceTo now).countOutcome success).overThreshold now
    | .halfOpen => success = false ∧ permit.selection = .probe ∧ permit.probeId ∈ b.pendingProbes
    | .opened => False

/-- The breaker takes an outcome with this permit into account. -/
def Accepts (permit : RequestPermit) : Prop :=
  permit.generation = b.generation ∧ match b.state with
    | .closed => permit.selection = .allowed
    | .halfOpen => permit.selection = .probe ∧ permit.probeId ∈ b.pendingProbes
    | .opened => False

/-- The breaker after a probe of the cycle was taken off the list. -/
def withoutProbe (now : TimePoint) (id : ℕ) : CircuitBreaker :=
  { b.advanceTo now with pendingProbes := b.pendingProbes.erase id }

/-- The breaker after a successful probe, up to the decision to close. -/
def withSuccess (now : TimePoint) (id : ℕ) : CircuitBreaker :=
  { b.withoutProbe now id with halfOpenCompleted := incW 32 b.halfOpenCompleted }

end

/-- What recording an outcome does. -/
inductive Recorded (b : CircuitBreaker) (now : TimePoint) (permit : RequestPermit) :
    Bool → CircuitBreaker → Prop
  | ignored {success : Bool} (h : ¬b.Accepts permit) :
      Recorded b now permit success (b.advanceTo now)
  | counted {success : Bool} (h : b.Accepts permit) (hstate : b.state = .closed) :
      Recorded b now permit success (((b.advanceTo now).countOutcome success).evaluate now)
  | succeeded (h : b.Accepts permit) (hstate : b.state = .halfOpen)
      (hquota : incW 32 b.halfOpenCompleted ≠ b.config.halfOpenProbes) :
      Recorded b now permit true (b.withSuccess now permit.probeId)
  | completed (h : b.Accepts permit) (hstate : b.state = .halfOpen)
      (hquota : incW 32 b.halfOpenCompleted = b.config.halfOpenProbes) :
      Recorded b now permit true (b.withSuccess now permit.probeId).close
  | failed (h : b.Accepts permit) (hstate : b.state = .halfOpen) :
      Recorded b now permit false ((b.withoutProbe now permit.probeId).opens now)

section Record
variable {b : CircuitBreaker} {now : TimePoint} {permit : RequestPermit} {success : Bool}

/-- An outcome that is not accepted only moves the window. -/
lemma record_of_not_accepts (h : ¬b.Accepts permit) :
    b.record now permit success = b.advanceTo now := by
  have ha := advanceTo_same b now
  by_cases hgen : permit.generation = b.generation
  · replace h := fun hsel => h ⟨hgen, hsel⟩
    cases hst : b.state <;> rw [hst] at h <;> cases success <;>
      simp_all [record, recordSuccess, recordFailure, ha.state, ha.generation, consumeProbe,
        ha.pendingProbes]
  · cases success <;> simp [record, recordSuccess, recordFailure, ha.generation, hgen]

/-- **The cases of an outcome.** -/
theorem recorded (b : CircuitBreaker) (now : TimePoint) (permit : RequestPermit) (success : Bool) :
    Recorded b now permit success (b.record now permit success) := by
  have ha := advanceTo_same b now
  by_cases hacc : b.Accepts permit
  swap
  · rw [record_of_not_accepts hacc]
    exact .ignored hacc
  have hg : permit.generation = (b.advanceTo now).generation := hacc.1.trans ha.generation.symm
  have hsel := hacc.2
  cases hst : b.state with
  | closed =>
    have hs : (b.advanceTo now).state = .closed := ha.state.trans hst
    replace hsel : permit.selection = .allowed := by rwa [hst] at hsel
    have hrec : b.record now permit success =
        ((b.advanceTo now).countOutcome success).evaluate now := by
      cases success <;> simp [record, recordSuccess, recordFailure, hg, hs, hsel]
    rw [hrec]
    exact .counted hacc hst
  | halfOpen =>
    have hs : (b.advanceTo now).state = .halfOpen := ha.state.trans hst
    rw [hst] at hsel
    obtain ⟨hsel, hmem⟩ := hsel
    have hconsume : (b.advanceTo now).consumeProbe permit.probeId =
        some (b.withoutProbe now permit.probeId) := by
      rw [consumeProbe, ha.pendingProbes, if_pos hmem, withoutProbe]
    cases success with
    | false =>
      have hrec : b.record now permit false = (b.withoutProbe now permit.probeId).opens now := by
        simp [record, recordFailure, hg, hs, hsel, hconsume]
      rw [hrec]
      exact .failed hacc hst
    | true =>
      have hrec : b.record now permit true =
          if incW 32 b.halfOpenCompleted = b.config.halfOpenProbes then
            (b.withSuccess now permit.probeId).close
          else b.withSuccess now permit.probeId := by
        simp [record, recordSuccess, hg, hs, hsel, hconsume, withSuccess, withoutProbe,
          ha.halfOpenCompleted, ha.config]
      rw [hrec]
      split
      · next hquota => exact .completed hacc hst hquota
      · next hquota => exact .succeeded hacc hst hquota
  | opened =>
    rw [hst] at hsel
    exact hsel.elim

lemma state_evaluate (h : b.state = .closed) :
    (b.evaluate now).state = if b.overThreshold now then .opened else .closed := by
  rw [evaluate]
  split
  · rfl
  · exact h

lemma record_of_opened (h : b.state = .opened) :
    SameProtection (b.record now permit success) b := by
  have hcases := recorded b now permit success
  generalize b.record now permit success = r at hcases ⊢
  cases hcases with
  | ignored => exact advanceTo_same b now
  | counted _ hstate | succeeded _ hstate | completed _ hstate | failed _ hstate =>
    rw [h] at hstate
    cases hstate

lemma record_of_trips (h : b.Trips now permit success) :
    (b.record now permit success).state = .opened ∧
      (b.record now permit success).openUntil = now + milliseconds b.config.openDuration := by
  obtain ⟨hgen, h⟩ := h
  have ha := advanceTo_same b now
  have hcases := recorded b now permit success
  generalize b.record now permit success = r at hcases ⊢
  cases hcases with
  | ignored hno =>
    refine absurd ⟨hgen, ?_⟩ hno
    split at h
    · exact h.1
    · exact h.2
    · exact h
  | counted _ hstate =>
    rw [hstate] at h
    rw [evaluate, if_pos h.2]
    exact ⟨rfl, by simp [opens, countOutcome, ha.config]⟩
  | succeeded _ hstate | completed _ hstate =>
    rw [hstate] at h
    cases h.1
  | failed => exact ⟨rfl, by simp [opens, withoutProbe, ha.config]⟩

lemma record_of_not_trips (hno : b.state ≠ .opened) (h : ¬b.Trips now permit success) :
    (b.record now permit success).state ≠ .opened := by
  have ha := advanceTo_same b now
  have hcases := recorded b now permit success
  generalize b.record now permit success = r at hcases ⊢
  cases hcases with
  | ignored => rwa [ha.state]
  | counted hacc hstate =>
    obtain ⟨hgen, hsel⟩ := hacc
    rw [hstate] at hsel
    have hclosed : ((b.advanceTo now).countOutcome success).state = .closed := ha.state.trans hstate
    rw [state_evaluate hclosed, if_neg]
    · nofun
    · exact fun hover => h ⟨hgen, by rw [hstate]; exact ⟨hsel, hover⟩⟩
  | succeeded _ hstate =>
    rw [withSuccess, withoutProbe, ha.state, hstate]
    nofun
  | completed => nofun
  | failed hacc hstate =>
    obtain ⟨hgen, hprobe⟩ := hacc
    rw [hstate] at hprobe
    exact absurd ⟨hgen, by rw [hstate]; exact ⟨rfl, hprobe⟩⟩ h

end Record

end CircuitBreaker
end AegisGate.Resilience
