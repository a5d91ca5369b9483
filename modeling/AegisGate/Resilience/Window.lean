import AegisGate.Lib.Wheel
import AegisGate.Resilience.BreakerMachine

/-!
# The statistics window

The ten buckets are a wheel. The active bucket starts at `activeStart`, and a bucket that is in
use starts as many widths earlier as it is cells back; the others are blank. That layout is kept
by every call at a time that is not before the last one, and an import of any snapshot begins
with it.
-/

namespace AegisGate.Resilience
open Lib Function

/-- When a call is made; a fresh cycle does not look at the clock. -/
def BreakerCall.time (clock : TimePoint) : BreakerCall → TimePoint
  | .select now | .record now _ _ => now
  | .freshCycle => clock

namespace CircuitBreaker

variable {b : CircuitBreaker} {clock now : TimePoint}

/-! ## Widths -/

lemma window_eq (b : CircuitBreaker) : milliseconds b.config.window = 10 * b.bucketDuration := by
  rw [bucketDuration, milliseconds, kBucketCount]
  omega

lemma bucketDuration_pos (b : CircuitBreaker) : 0 < b.bucketDuration := by
  have hwindow := b.valid.1
  rw [bucketDuration, milliseconds, kBucketCount]
  omega

lemma bucketDuration_congr {a b : CircuitBreaker} (h : a.config = b.config) :
    a.bucketDuration = b.bucketDuration := by rw [bucketDuration, bucketDuration, h]

/-! ## The layout -/

/-- The layout of the buckets at a time that is not before the last call. -/
structure Laid (b : CircuitBreaker) (clock : TimePoint) : Prop where
  epoch : b.epoch ≤ clock
  index : b.activeIndex < kBucketCount
  narrow : ∀ j, (b.buckets j).success < 2 ^ 32 ∧ (b.buckets j).failure < 2 ^ 32
  active : b.initialized →
    b.activeStart ≤ clock ∧ (b.buckets b.activeIndex).start = b.activeStart
  placed : ∀ j < kBucketCount, b.buckets j = {} ∨ b.initialized ∧
    (b.buckets j).start = b.activeStart - back kBucketCount b.activeIndex j * b.bucketDuration

lemma Laid.mono (h : Laid b clock) (hle : clock ≤ now) : Laid b now :=
  ⟨h.epoch.trans hle, h.index, h.narrow,
    fun hinit => ⟨(h.active hinit).1.trans hle, (h.active hinit).2⟩, h.placed⟩

/-- Two breakers with the same buckets, in the same place. -/
structure SameWindow (a b : CircuitBreaker) : Prop where
  config : a.config = b.config
  epoch : a.epoch = b.epoch
  buckets : a.buckets = b.buckets
  initialized : a.initialized = b.initialized
  activeIndex : a.activeIndex = b.activeIndex
  activeStart : a.activeStart = b.activeStart

lemma Laid.congr (h : Laid b clock) {r : CircuitBreaker} (hr : r.SameWindow b) : Laid r clock := by
  constructor
  · rw [hr.epoch]
    exact h.epoch
  · rw [hr.activeIndex]
    exact h.index
  · rw [hr.buckets]
    exact h.narrow
  · rw [hr.initialized, hr.buckets, hr.activeIndex, hr.activeStart]
    exact h.active
  · rw [hr.initialized, hr.buckets, hr.activeIndex, hr.activeStart, bucketDuration_congr hr.config]
    exact h.placed

lemma Laid.start_le (h : Laid b clock) {j : ℕ} (hj : j < kBucketCount) (hused : b.buckets j ≠ {}) :
    (b.buckets j).start ≤ clock := by
  obtain hblank | ⟨hinit, hstart⟩ := h.placed j hj
  · exact absurd hblank hused
  · have hactive := (h.active hinit).1
    have hback : 0 ≤ (back kBucketCount b.activeIndex j : ℤ) * b.bucketDuration :=
      mul_nonneg (Int.natCast_nonneg _) b.bucketDuration_pos.le
    linarith

lemma Laid.start_injective (h : Laid b clock) {j k : ℕ} (hj : j < kBucketCount)
    (hk : k < kBucketCount) (hjused : b.buckets j ≠ {}) (hkused : b.buckets k ≠ {})
    (heq : (b.buckets j).start = (b.buckets k).start) : j = k := by
  obtain hblank | ⟨-, hjstart⟩ := h.placed j hj
  · exact absurd hblank hjused
  obtain hblank | ⟨-, hkstart⟩ := h.placed k hk
  · exact absurd hblank hkused
  rw [hjstart, hkstart, sub_right_inj] at heq
  have hback := mul_right_cancel₀ b.bucketDuration_pos.ne' heq
  exact back_injective hj hk (Int.natCast_inj.mp hback)

/-- What a bucket may be after the window has moved: itself, or empty. -/
def Kept (b b' : CircuitBreaker) : Prop :=
  ∀ j, b'.buckets j = b.buckets j ∨ (b'.buckets j).success = 0 ∧ (b'.buckets j).failure = 0

lemma narrow_of_kept {b' : CircuitBreaker} (h : Laid b clock) (hkept : b.Kept b') (j : ℕ) :
    (b'.buckets j).success < 2 ^ 32 ∧ (b'.buckets j).failure < 2 ^ 32 := by
  rcases hkept j with hsame | ⟨hs, hf⟩
  · rw [hsame]
    exact h.narrow j
  · rw [hs, hf]
    decide

lemma Kept.trans {a b c : CircuitBreaker} (h : a.Kept b) (k : b.Kept c) : a.Kept c := by
  intro j
  rcases k j with hsame | hempty
  · rw [hsame]
    exact h j
  · exact .inr hempty

/-! ## Moving the window -/

lemma buckets_nextBucket (b : CircuitBreaker) (j : ℕ) : b.nextBucket.buckets j =
      if j = b.nextBucket.activeIndex then { start := b.nextBucket.activeStart }
      else b.buckets j := by
  rw [nextBucket]
  dsimp only
  rw [update_apply]

lemma kept_nextBucket (b : CircuitBreaker) : b.Kept b.nextBucket := by
  intro j
  rw [buckets_nextBucket]
  split
  · exact .inr ⟨rfl, rfl⟩
  · exact .inl rfl

lemma Laid.nextBucket (h : Laid b clock) (hinit : b.initialized)
    (hle : b.activeStart + b.bucketDuration ≤ clock) : Laid b.nextBucket clock := by
  refine ⟨h.epoch, Nat.mod_lt _ (by decide), narrow_of_kept h b.kept_nextBucket, fun _ => ⟨hle, ?_⟩,
    fun j hj => ?_⟩
  · rw [buckets_nextBucket, if_pos rfl]
  rw [buckets_nextBucket]
  split
  · next hreached =>
    refine .inr ⟨hinit, ?_⟩
    rw [hreached, back_self]
    simp
  next hother =>
  have hback : back kBucketCount b.nextBucket.activeIndex j =
      back kBucketCount b.activeIndex j + 1 := back_next h.index hj hother
  have hwidth : b.nextBucket.bucketDuration = b.bucketDuration := rfl
  have hactive : b.nextBucket.activeStart = b.activeStart + b.bucketDuration := rfl
  refine (h.placed j hj).imp id fun ⟨_, hstart⟩ => ⟨hinit, ?_⟩
  rw [hstart, hback, hwidth, hactive]
  push_cast
  ring

lemma kept_skipBuckets (b : CircuitBreaker) (n : ℕ) : b.Kept (b.skipBuckets n) := by
  induction n generalizing b with
  | zero => exact fun _ => .inl rfl
  | succ n ih => exact b.kept_nextBucket.trans (ih b.nextBucket)

lemma Laid.skipBuckets (h : Laid b clock) (hinit : b.initialized) {n : ℕ}
    (hle : b.activeStart + n * b.bucketDuration ≤ clock) :
    Laid (b.skipBuckets n) clock ∧ (b.skipBuckets n).initialized := by
  induction n generalizing b with
  | zero => exact ⟨h, hinit⟩
  | succ n ih =>
    have hpos : 0 ≤ (n : ℤ) * b.bucketDuration :=
      mul_nonneg (Int.natCast_nonneg _) b.bucketDuration_pos.le
    push_cast at hle
    rw [add_mul, one_mul] at hle
    have hnext := h.nextBucket hinit (by linarith)
    refine ih hnext hinit ?_
    have hwidth : b.nextBucket.bucketDuration = b.bucketDuration := rfl
    have hactive : b.nextBucket.activeStart = b.activeStart + b.bucketDuration := rfl
    rw [hwidth, hactive]
    linarith

lemma buckets_jumpTo (b : CircuitBreaker) (now : TimePoint) (j : ℕ) : (b.jumpTo now).buckets j =
      if j = (b.jumpTo now).activeIndex then { start := (b.jumpTo now).activeStart } else {} := by
  rw [jumpTo]
  dsimp only
  rw [update_apply]

lemma kept_jumpTo (b : CircuitBreaker) (now : TimePoint) : b.Kept (b.jumpTo now) := by
  intro j
  rw [buckets_jumpTo]
  split <;> exact .inr ⟨rfl, rfl⟩

lemma Laid.jumpTo (h : Laid b now) (hinit : b.initialized) : Laid (b.jumpTo now) now := by
  have hoffset : 0 ≤ (now - b.epoch) % b.bucketDuration :=
    Int.emod_nonneg _ b.bucketDuration_pos.ne'
  have hstart : (b.jumpTo now).activeStart = now - (now - b.epoch) % b.bucketDuration := rfl
  refine ⟨h.epoch, Nat.mod_lt _ (by decide), narrow_of_kept h (b.kept_jumpTo now),
    fun _ => ⟨?_, ?_⟩, fun j _ => ?_⟩
  · linarith
  · rw [buckets_jumpTo, if_pos rfl]
  rw [buckets_jumpTo]
  split
  · next hj =>
    refine .inr ⟨hinit, ?_⟩
    rw [hj, back_self]
    simp
  · exact .inl rfl

lemma startBuckets_of_not (h : b.initialized = false) : b.startBuckets = { b with
      activeStart := b.epoch
      activeIndex := 0
      buckets := fun j => if j = 0 then { start := b.epoch } else b.buckets j
      initialized := true } := by
  simp [startBuckets, h, update_apply, funext_iff]

lemma Laid.startBuckets (h : Laid b clock) :
    Laid b.startBuckets clock ∧ b.startBuckets.initialized ∧ b.Kept b.startBuckets := by
  cases hinit : b.initialized with
  | true =>
    have hstart : b.startBuckets = b := if_pos hinit
    rw [hstart]
    exact ⟨h, hinit, fun _ => .inl rfl⟩
  | false =>
    have hkept : b.Kept b.startBuckets := by
      rw [startBuckets_of_not hinit]
      intro j
      dsimp only
      split
      · exact .inr ⟨rfl, rfl⟩
      · exact .inl rfl
    rw [startBuckets_of_not hinit] at hkept ⊢
    refine ⟨⟨h.epoch, Nat.succ_pos _, narrow_of_kept h hkept, fun _ => ⟨h.epoch, rfl⟩,
      fun j hj => ?_⟩, rfl, hkept⟩
    dsimp only
    split
    · next hzero =>
      refine .inr ⟨rfl, ?_⟩
      rw [hzero, back_self]
      simp
    · -- Before the first outcome all buckets are blank.
      rcases h.placed j hj with hblank | ⟨habs, -⟩
      · exact .inl hblank
      · rw [hinit] at habs
        cases habs

/-- **Moving the window forward**: the layout is kept, the bucket of `now` is the active one, and
a bucket keeps what it holds or loses all of it. -/
theorem Laid.advanceTo (h : Laid b clock) (hle : clock ≤ now) :
    Laid (b.advanceTo now) now ∧ (b.advanceTo now).initialized ∧
    b.Kept (b.advanceTo now) := by
  have hepoch : ¬now < b.epoch := not_lt.mpr (h.epoch.trans hle)
  obtain ⟨hlaid, hinit, hkept⟩ := h.startBuckets
  have hnow := hlaid.mono hle
  rw [CircuitBreaker.advanceTo, if_neg hepoch]
  dsimp only
  split
  · exact ⟨hnow, hinit, hkept⟩
  split
  · exact ⟨hnow.jumpTo hinit, hinit, hkept.trans (kept_jumpTo _ _)⟩
  next hstale _ =>
  have hpos := b.startBuckets.bucketDuration_pos
  have hcount : b.startBuckets.activeStart +
      ((now - b.startBuckets.activeStart) / b.startBuckets.bucketDuration).toNat *
        b.startBuckets.bucketDuration ≤ now := by
    have hquot : 0 ≤ (now - b.startBuckets.activeStart) / b.startBuckets.bucketDuration :=
      Int.ediv_nonneg (by linarith) hpos.le
    have hmul := Int.ediv_mul_le (now - b.startBuckets.activeStart) hpos.ne'
    rw [Int.toNat_of_nonneg hquot]
    linarith
  obtain ⟨hskip, hinit'⟩ := hnow.skipBuckets hinit hcount
  exact ⟨hskip, hinit', hkept.trans (kept_skipBuckets _ _)⟩

lemma epoch_startBuckets (b : CircuitBreaker) : b.startBuckets.epoch = b.epoch := by
  rw [startBuckets]
  split <;> rfl

lemma epoch_skipBuckets (b : CircuitBreaker) (n : ℕ) : (b.skipBuckets n).epoch = b.epoch := by
  induction n generalizing b with
  | zero => rfl
  | succ n ih => exact ih b.nextBucket

lemma epoch_advanceTo (b : CircuitBreaker) (now : TimePoint) :
    (b.advanceTo now).epoch = b.epoch := by
  rw [advanceTo]
  split
  · rfl
  dsimp only
  split
  · exact b.epoch_startBuckets
  · split
    · exact b.epoch_startBuckets
    · exact (epoch_skipBuckets _ _).trans b.epoch_startBuckets

/-! ## The calls -/

lemma buckets_countOutcome (b : CircuitBreaker) (success : Bool) (j : ℕ) :
    (b.countOutcome success).buckets j = if j = b.activeIndex then
        if success then { b.buckets b.activeIndex with
            success := incW 32 (b.buckets b.activeIndex).success }
        else { b.buckets b.activeIndex with
            failure := incW 32 (b.buckets b.activeIndex).failure }
      else b.buckets j := by
  rw [countOutcome]
  dsimp only
  rw [update_apply]

lemma start_countOutcome (b : CircuitBreaker) (success : Bool) (j : ℕ) :
    ((b.countOutcome success).buckets j).start = (b.buckets j).start := by
  rw [buckets_countOutcome]
  split
  · next hj =>
    rw [hj]
    split <;> rfl
  · rfl

lemma Laid.countOutcome (h : Laid b clock) (hinit : b.initialized) (success : Bool) :
    Laid (b.countOutcome success) clock := by
  refine ⟨h.epoch, h.index, fun j => ?_, fun _ => ?_, fun j hj => ?_⟩
  · rw [buckets_countOutcome]
    have hn := h.narrow b.activeIndex
    split
    · split
      · exact ⟨Nat.mod_lt _ (by decide), hn.2⟩
      · exact ⟨hn.1, Nat.mod_lt _ (by decide)⟩
    · exact h.narrow j
  · exact ⟨(h.active hinit).1, (b.start_countOutcome success b.activeIndex).trans
      (h.active hinit).2⟩
  by_cases hactive : j = b.activeIndex
  · refine .inr ⟨hinit, ?_⟩
    have hback : back kBucketCount (b.countOutcome success).activeIndex j = 0 := by
      rw [hactive]
      exact back_self _ _
    have hsame : (b.countOutcome success).activeStart = b.activeStart := rfl
    rw [start_countOutcome, hback, hsame, hactive, (h.active hinit).2]
    simp
  · rw [buckets_countOutcome, if_neg hactive]
    exact h.placed j hj

lemma Laid.opens (h : Laid b clock) (now : TimePoint) : Laid (b.opens now) clock :=
  h.congr ⟨rfl, rfl, rfl, rfl, rfl, rfl⟩

lemma Laid.evaluate (h : Laid b clock) (now : TimePoint) : Laid (b.evaluate now) clock := by
  rw [CircuitBreaker.evaluate]
  split
  · exact h.opens now
  · exact h

lemma Laid.close (h : Laid b clock) : Laid b.close clock :=
  ⟨h.epoch, Nat.succ_pos _, fun _ => ⟨Nat.two_pow_pos 32, Nat.two_pow_pos 32⟩, nofun,
    fun _ _ => .inl rfl⟩

lemma Laid.withoutProbe (h : Laid (b.advanceTo now) clock) (id : ℕ) :
    Laid (b.withoutProbe now id) clock := by
  rw [CircuitBreaker.withoutProbe]
  generalize b.advanceTo now = a at h ⊢
  exact h.congr ⟨rfl, rfl, rfl, rfl, rfl, rfl⟩

lemma Laid.withSuccess (h : Laid (b.advanceTo now) clock) (id : ℕ) :
    Laid (b.withSuccess now id) clock := by
  have hwithout := h.withoutProbe id
  rw [CircuitBreaker.withSuccess]
  generalize b.withoutProbe now id = a at hwithout ⊢
  exact hwithout.congr ⟨rfl, rfl, rfl, rfl, rfl, rfl⟩

lemma Laid.call (h : Laid b clock) {c : BreakerCall} (hle : clock ≤ c.time clock) :
    Laid (b.call c) (c.time clock) := by
  cases c with
  | select now =>
    have ha : Laid (b.advanceTo now) now := (h.advanceTo hle).1
    have hcases := selected b now
    rw [CircuitBreaker.call, BreakerCall.time]
    generalize (b.select now).1 = r, (b.select now).2 = permit at hcases ⊢
    cases hcases with
    | kept => exact ha
    | begun =>
      generalize b.advanceTo now = a at ha ⊢
      exact ha.congr ⟨rfl, rfl, rfl, rfl, rfl, rfl⟩
    | issued =>
      rw [withProbe]
      generalize b.advanceTo now = a at ha ⊢
      exact ha.congr ⟨rfl, rfl, rfl, rfl, rfl, rfl⟩
  | record now permit success =>
    obtain ⟨ha, hinit, -⟩ := h.advanceTo hle
    have hcases := recorded b now permit success
    rw [CircuitBreaker.call, BreakerCall.time]
    generalize b.record now permit success = r at hcases ⊢
    cases hcases with
    | ignored => exact ha
    | counted => exact (ha.countOutcome hinit success).evaluate now
    | succeeded => exact ha.withSuccess permit.probeId
    | completed => exact (ha.withSuccess permit.probeId).close
    | failed => exact (ha.withoutProbe permit.probeId).opens now
  | freshCycle => exact h.congr ⟨rfl, rfl, rfl, rfl, rfl, rfl⟩

/-! ## Where a breaker begins -/

lemma laid_create {config : CircuitBreakerConfig} (h : create config now = some b) :
    Laid b b.epoch := by
  obtain ⟨-, rfl⟩ := create_some h
  exact ⟨le_rfl, Nat.succ_pos _, fun _ => ⟨Nat.two_pow_pos 32, Nat.two_pow_pos 32⟩, nofun,
    fun _ _ => .inl rfl⟩

/-- The index `k` widths before the first one is `k` cells back. -/
lemma back_slot {k : ℕ} (hk : k < kBucketCount) :
    back kBucketCount 0 ((kBucketCount - k) % kBucketCount) = k := by
  revert k
  decide

def slotOf (width : ℤ) (source : BucketSnapshot) : ℕ :=
  (kBucketCount - (source.ageFromExport / width).toNat) % kBucketCount

lemma slotOf_lt (width : ℤ) (source : BucketSnapshot) : slotOf width source < kBucketCount :=
  Nat.mod_lt _ (by decide)

/-- What an exported bucket makes of the one it is added to. -/
def merged (now : TimePoint) (width : ℤ) (source : BucketSnapshot) (target : Bucket) : Bucket where
  start := if target.start = 0 then now - (source.ageFromExport / width).toNat * width
    else target.start
  success := (target.success + source.success) % 2 ^ 32
  failure := (target.failure + source.failure) % 2 ^ 32

def Recent (b : CircuitBreaker) (source : BucketSnapshot) : Prop :=
  0 ≤ source.ageFromExport ∧ source.ageFromExport < milliseconds b.config.window

lemma Recent.steps_lt {source : BucketSnapshot} (h : b.Recent source) :
    (source.ageFromExport / b.bucketDuration).toNat < kBucketCount := by
  have hlt := h.2
  rw [window_eq] at hlt
  have hquot := Int.ediv_lt_of_lt_mul b.bucketDuration_pos hlt
  rw [kBucketCount]
  omega

lemma importBucket_of_recent {source : BucketSnapshot} (h : b.Recent source) :
    importBucket now b source = { b with
      buckets := update b.buckets (slotOf b.bucketDuration source)
        (merged now b.bucketDuration source (b.buckets (slotOf b.bucketDuration source))) } := by
  have hin : ¬(source.ageFromExport < 0 ∨ milliseconds b.config.window ≤ source.ageFromExport) := by
    rw [not_or, not_lt, not_le]
    exact h
  rw [importBucket, if_neg hin]
  rw [if_neg (not_le.mpr h.steps_lt)]
  rfl

lemma importBucket_of_not_recent {source : BucketSnapshot} (h : ¬b.Recent source) :
    importBucket now b source = b := by
  refine if_pos ?_
  by_contra hin
  rw [not_or, not_lt, not_le] at hin
  exact h hin

/-- The breaker of an import between two exported buckets: its grid ends at the import. -/
structure Importing (b : CircuitBreaker) (now : TimePoint) : Prop extends Laid b now where
  init : b.initialized
  first : b.activeIndex = 0
  begins : b.activeStart = now
  anchored : b.epoch = now

lemma Importing.importBucket (h : Importing b now) (source : BucketSnapshot) :
    Importing (importBucket now b source) now := by
  by_cases hrecent : b.Recent source
  · rw [importBucket_of_recent hrecent]
    have hback : back kBucketCount 0 (slotOf b.bucketDuration source) =
        (source.ageFromExport / b.bucketDuration).toNat := back_slot hrecent.steps_lt
    -- A bucket that is in use already starts where this one would.
    have hstart : ∀ target, b.buckets (slotOf b.bucketDuration source) = target →
        (merged now b.bucketDuration source target).start =
          now - (source.ageFromExport / b.bucketDuration).toNat * b.bucketDuration := by
      intro target htarget
      rw [merged]
      split
      · rfl
      · next hused =>
        rcases h.placed _ (slotOf_lt _ _) with hblank | ⟨-, hplaced⟩
        · rw [← htarget] at hused
          exact absurd (congrArg Bucket.start hblank) hused
        · rw [← htarget, hplaced, h.begins, h.first, hback]
    refine ⟨⟨h.epoch, h.index, fun j => ?_, fun _ => ⟨(h.active h.init).1, ?_⟩, fun j hj => ?_⟩,
      h.init, h.first, h.begins, h.anchored⟩
    · dsimp only
      rw [update_apply]
      split
      · exact ⟨Nat.mod_lt _ (by decide), Nat.mod_lt _ (by decide)⟩
      · exact h.narrow j
    · dsimp only
      rw [update_apply]
      split
      · next hslot =>
        have hzero : (source.ageFromExport / b.bucketDuration).toNat = 0 := by
          rw [← hback, ← hslot, h.first, back_self]
        rw [hstart _ rfl, hzero, h.begins]
        simp
      · exact (h.active h.init).2
    dsimp only
    rw [update_apply]
    split
    · next hslot =>
      refine .inr ⟨h.init, ?_⟩
      rw [hstart _ rfl, h.begins, h.first, hslot, hback]
      -- The buckets are not read by the width.
      rfl
    · exact h.placed j hj
  · rw [importBucket_of_not_recent hrecent]
    exact h

lemma Importing.foldl (h : Importing b now) (sources : List BucketSnapshot) :
    Importing (sources.foldl (CircuitBreaker.importBucket now) b) now := by
  induction sources generalizing b with
  | nil => exact h
  | cons source sources ih => exact ih (h.importBucket source)

lemma buckets_importBase (b : CircuitBreaker) (snapshot : CircuitBreakerSnapshot)
    (now : TimePoint) (j : ℕ) :
    (b.importBase snapshot now).buckets j = if j = 0 then { start := now } else {} := by
  rw [importBase]
  dsimp only
  rw [update_apply]

lemma importing_importBase (b : CircuitBreaker) (snapshot : CircuitBreakerSnapshot)
    (now : TimePoint) : Importing (b.importBase snapshot now) now := by
  have hbuckets := buckets_importBase b snapshot now
  refine ⟨⟨le_rfl, Nat.succ_pos _, fun j => ?_, fun _ => ⟨le_rfl, ?_⟩, fun j _ => ?_⟩, rfl, rfl,
    rfl, rfl⟩
  · rw [hbuckets]
    split <;> exact ⟨Nat.two_pow_pos 32, Nat.two_pow_pos 32⟩
  · exact congrArg Bucket.start (hbuckets 0)
  rw [hbuckets]
  split
  · next hzero =>
    refine .inr ⟨rfl, ?_⟩
    rw [hzero]
    have hfirst : (b.importBase snapshot now).activeIndex = 0 := rfl
    have hbegins : (b.importBase snapshot now).activeStart = now := rfl
    rw [hfirst, hbegins, back_self]
    simp
  · exact .inl rfl

lemma laid_importSnapshot (b : CircuitBreaker) (snapshot : CircuitBreakerSnapshot)
    (now : TimePoint) : Laid (b.importSnapshot snapshot now).1 now ∧
      (b.importSnapshot snapshot now).1.epoch = now := by
  have hbase := importing_importBase b snapshot now
  rw [importSnapshot]
  split
  · have hclosed : Importing { b.importBase snapshot now with state := .closed } now :=
      ⟨{ hbase with }, rfl, rfl, rfl, rfl⟩
    have hfold := hclosed.foldl snapshot.buckets
    exact ⟨hfold.toLaid, hfold.anchored⟩
  · split
    · exact ⟨{ hbase with }, rfl⟩
    · exact ⟨{ hbase with }, rfl⟩

end CircuitBreaker
end AegisGate.Resilience
