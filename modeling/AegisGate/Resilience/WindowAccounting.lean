import AegisGate.Resilience.Aging

/-!
# What the window counts

Between two reloads the bucket of a time is a matter of the epoch: the times of one width have one
number. After `AdvanceTo`, by whatever steps or jump, the ten buckets are those of the last ten
numbers, and each holds the outcomes with its number. So `Aggregate` counts a plain log of what was
accepted since the breaker closed.
-/

namespace AegisGate.Resilience
open Lib CircuitBreaker Function List Finset

namespace CircuitBreaker

variable {b r : CircuitBreaker} {log : List Outcome} {a : ℕ} {now clock : TimePoint}

def bucketNumber (b : CircuitBreaker) (t : TimePoint) : ℤ := (t - b.epoch) / b.bucketDuration

/-- How many outcomes of a kind have a bucket's number. -/
def numbered (b : CircuitBreaker) (log : List Outcome) (n : ℤ) (success : Bool) : ℕ :=
  log.countP fun o => b.bucketNumber o.time = n ∧ o.success = success

/-- The buckets are those of the last ten numbers up to `a`, and hold the log. -/
structure Holds (b : CircuitBreaker) (log : List Outcome) (a : ℕ) : Prop where
  initialized : b.initialized
  start : b.activeStart = b.epoch + a * b.bucketDuration
  index : b.activeIndex = a % kBucketCount
  shows : Shows kBucketCount b.activeIndex (fun j => (b.buckets j).count) a
    fun n success => b.numbered log n success % 2 ^ 32
  past : ∀ o ∈ log, b.bucketNumber o.time ≤ a

lemma Holds.index_lt (h : Holds b log a) : b.activeIndex < kBucketCount := by
  rw [h.index]
  exact Nat.mod_lt _ (by decide)

lemma bucketNumber_congr (hconfig : r.config = b.config) (hepoch : r.epoch = b.epoch) :
    r.bucketNumber = b.bucketNumber := by
  funext t
  rw [bucketNumber, bucketNumber, hepoch, bucketDuration_congr hconfig]

lemma Holds.congr (h : Holds b log a) (hr : r.SameWindow b) : Holds r log a := by
  have hnumber := bucketNumber_congr hr.config hr.epoch
  constructor
  · rw [hr.initialized]
    exact h.initialized
  · rw [hr.activeStart, hr.epoch, bucketDuration_congr hr.config]
    exact h.start
  · rw [hr.activeIndex]
    exact h.index
  · simp only [numbered, hnumber, hr.buckets, hr.activeIndex]
    exact h.shows
  · rw [hnumber]
    exact h.past

lemma numbered_of_past {n : ℤ} (h : ∀ o ∈ log, b.bucketNumber o.time < n) (success : Bool) :
    b.numbered log n success = 0 := by
  rw [numbered, countP_eq_zero]
  intro o ho heq
  have hlt := h o ho
  have hnumber := (of_decide_eq_true heq).1
  omega

/-! ## Moving the window -/

lemma Holds.nextBucket (h : Holds b log a) : Holds b.nextBucket log (a + 1) := by
  have hcells : (fun j => (b.nextBucket.buckets j).count) =
      update (fun j => (b.buckets j).count) b.nextBucket.activeIndex
        fun success => b.numbered log (a + 1) success % 2 ^ 32 := by
    funext j success
    rw [buckets_nextBucket, update_apply]
    split
    · dsimp only
      rw [numbered_of_past fun o ho => Int.lt_add_one_of_le (h.past o ho)]
      exact ReloadChain.count_of_empty ⟨rfl, rfl⟩ success
    · rfl
  constructor
  · exact h.initialized
  · have hstart : b.nextBucket.activeStart = b.activeStart + b.bucketDuration := rfl
    have hepoch : b.nextBucket.epoch = b.epoch := rfl
    have hwidth : b.nextBucket.bucketDuration = b.bucketDuration := rfl
    rw [hstart, hepoch, hwidth, h.start]
    push_cast
    ring
  · have hindex : b.nextBucket.activeIndex = (b.activeIndex + 1) % kBucketCount := rfl
    rw [hindex, h.index, Nat.mod_add_mod]
  · rw [hcells]
    exact_mod_cast h.shows.next h.index_lt
  · intro o ho
    have hpast : b.nextBucket.bucketNumber o.time ≤ a := h.past o ho
    push_cast
    omega

lemma Holds.skipBuckets (h : Holds b log a) (n : ℕ) : Holds (b.skipBuckets n) log (a + n) := by
  induction n generalizing b a with
  | zero => exact h
  | succ n ih =>
    have hnext := ih h.nextBucket
    rwa [Nat.add_right_comm, Nat.add_assoc] at hnext

lemma Holds.jumpTo (h : Holds b log a) (hfar : a + kBucketCount ≤ b.bucketNumber now) :
    Holds (b.jumpTo now) log (b.bucketNumber now).toNat := by
  have hnumber : ((b.bucketNumber now).toNat : ℤ) = b.bucketNumber now :=
    Int.toNat_of_nonneg (by omega)
  constructor
  · exact h.initialized
  · have hdivide := Int.emod_add_mul_ediv (now - b.epoch) b.bucketDuration
    have hstart : (b.jumpTo now).activeStart = now - (now - b.epoch) % b.bucketDuration := rfl
    have hepoch : (b.jumpTo now).epoch = b.epoch := rfl
    have hwidth : (b.jumpTo now).bucketDuration = b.bucketDuration := rfl
    rw [hstart, hepoch, hwidth, hnumber, bucketNumber]
    linarith
  · rfl
  · intro j hj
    funext success
    have hindex : (b.jumpTo now).activeIndex < kBucketCount := Nat.mod_lt _ (by decide)
    have hback := back_lt hindex hj
    have hsame : (b.jumpTo now).bucketNumber = b.bucketNumber := rfl
    dsimp only
    rw [buckets_jumpTo, numbered_of_past fun o ho => ?_]
    · split <;> exact ReloadChain.count_of_empty ⟨rfl, rfl⟩ success
    · have hpast := h.past o ho
      rw [hsame]
      omega
  · intro o ho
    have hpast : (b.jumpTo now).bucketNumber o.time ≤ a := h.past o ho
    omega

lemma Holds.skipped (h : Holds b log a) (now : TimePoint) :
    (now - b.activeStart) / b.bucketDuration = b.bucketNumber now - a := by
  rw [h.start, bucketNumber, ← sub_sub, Int.sub_mul_ediv_right _ _ b.bucketDuration_pos.ne']

lemma startBuckets_of_initialized (h : b.initialized) : b.startBuckets = b := if_pos h

/-- However many buckets it skips, `AdvanceTo` makes the bucket of `now` the active one. -/
lemma Holds.advanceTo (h : Holds b log a) (hepoch : b.epoch ≤ now) (hstart : b.activeStart ≤ now) :
    Holds (b.advanceTo now) log (b.bucketNumber now).toNat := by
  have hpos := b.bucketDuration_pos
  set skipped : ℤ := (now - b.activeStart) / b.bucketDuration with hdef
  have hskipped : skipped = b.bucketNumber now - a := h.skipped now
  have hquot : 0 ≤ skipped := Int.ediv_nonneg (sub_nonneg.mpr hstart) hpos.le
  rw [CircuitBreaker.advanceTo, if_neg (not_lt.mpr hepoch),
    startBuckets_of_initialized h.initialized]
  dsimp only
  rw [← hdef]
  split
  · next hwithin =>
    have hzero : skipped = 0 :=
      Int.ediv_eq_zero_of_lt (sub_nonneg.mpr hstart) (sub_lt_iff_lt_add'.mpr hwithin)
    have hsame : (b.bucketNumber now).toNat = a := by omega
    rw [hsame]
    exact h
  · split
    · next hfar => exact h.jumpTo (by omega)
    · have hcount : (b.bucketNumber now).toNat = a + skipped.toNat := by omega
      rw [hcount]
      exact h.skipBuckets _

/-! ## Counting -/

variable {o : Outcome}

lemma Holds.count_countOutcome (h : Holds b log a) (ho : b.bucketNumber o.time = a)
    (success : Bool) :
    ((b.countOutcome o.success).buckets b.activeIndex).count success =
      b.numbered (log ++ [o]) a success % 2 ^ 32 := by
  have hbefore : (b.buckets b.activeIndex).count success = b.numbered log a success % 2 ^ 32 := by
    have hshown := congrFun (h.shows b.activeIndex h.index_lt) success
    rw [back_self] at hshown
    simpa using hshown
  rw [buckets_countOutcome, if_pos rfl, numbered, countP_append, ← numbered]
  by_cases hkind : o.success = success
  · have hone : [o].countP (fun o => b.bucketNumber o.time = a ∧ o.success = success) = 1 := by
      simp [ho, hkind]
    rw [hone, ← Nat.mod_add_mod, ← hbefore, ← hkind]
    cases o.success <;> rfl
  · have hnone : [o].countP (fun o => b.bucketNumber o.time = a ∧ o.success = success) = 0 := by
      simp [hkind]
    rw [hnone, Nat.add_zero, ← hbefore]
    cases hs : o.success <;> cases success <;> first | rfl | exact absurd hs hkind

lemma Holds.countOutcome (h : Holds b log a) (ho : b.bucketNumber o.time = a) :
    Holds (b.countOutcome o.success) (log ++ [o]) a := by
  have hcells : (fun j => ((b.countOutcome o.success).buckets j).count) =
      update (fun j => (b.buckets j).count) b.activeIndex
        fun success => b.numbered (log ++ [o]) a success % 2 ^ 32 := by
    funext j success
    rw [update_apply]
    split
    · next hactive =>
      rw [hactive]
      exact h.count_countOutcome ho success
    · next hother => rw [buckets_countOutcome, if_neg hother]
  have hshown : (fun n success => b.numbered (log ++ [o]) n success % 2 ^ 32) =
      update (fun n success => b.numbered log n success % 2 ^ 32) (a : ℤ)
        fun success => b.numbered (log ++ [o]) a success % 2 ^ 32 := by
    funext n success
    rw [update_apply]
    split
    · next hn => rw [hn]
    · next hn =>
      have hnone : [o].countP (fun o => b.bucketNumber o.time = n ∧ o.success = success) = 0 := by
        simp [ho, Ne.symm hn]
      rw [numbered, countP_append, hnone, Nat.add_zero, ← numbered]
  constructor
  · exact h.initialized
  · exact h.start
  · exact h.index
  · have hwritten := h.shows.write h.index_lt
      fun success => b.numbered (log ++ [o]) a success % 2 ^ 32
    rw [← hcells, ← hshown] at hwritten
    exact hwritten
  · intro p hp
    rcases mem_append.mp hp with hp | hp
    · exact h.past p hp
    · rw [List.mem_singleton.mp hp]
      exact ho.le

/-! ## Totals -/

/-- The bucket of the outcome is one of the last ten. -/
def InWindow (b : CircuitBreaker) (now : TimePoint) (o : Outcome) : Prop :=
  b.bucketNumber now - kBucketCount < b.bucketNumber o.time

instance (b : CircuitBreaker) (now : TimePoint) (o : Outcome) : Decidable (b.InWindow now o) :=
  inferInstanceAs (Decidable (_ < _))

/-- The outcomes in the window. -/
def recent (b : CircuitBreaker) (log : List Outcome) (now : TimePoint) (success : Bool) : ℕ :=
  log.countP fun o => b.InWindow now o ∧ o.success = success

def FewPerBucket (b : CircuitBreaker) (log : List Outcome) : Prop :=
  ∀ n, (log.countP fun o => b.bucketNumber o.time = n) < 2 ^ 32

lemma FewPerBucket.numbered_lt (h : b.FewPerBucket log) (n : ℤ) (success : Bool) :
    b.numbered log n success < 2 ^ 32 := by
  refine (countP_mono_left fun o _ ho => ?_).trans_lt (h n)
  exact decide_eq_true (of_decide_eq_true ho).1

lemma sum_numbered (h : ∀ o ∈ log, b.bucketNumber o.time ≤ b.bucketNumber now) (success : Bool) :
    ∑ k ∈ Finset.range kBucketCount, b.numbered log (b.bucketNumber now - k) success =
      b.recent log now success := by
  have hinjective : ∀ j ∈ Finset.range kBucketCount, ∀ k ∈ Finset.range kBucketCount,
      (b.bucketNumber now - j, success) = (b.bucketNumber now - (k : ℤ), success) → j = k := by
    intro j _ k _ heq
    have hnumber := congrArg Prod.fst heq
    simpa using hnumber
  have hkeys : ∑ k ∈ Finset.range kBucketCount, b.numbered log (b.bucketNumber now - k) success =
      ∑ p ∈ (Finset.range kBucketCount).image fun k : ℕ => (b.bucketNumber now - (k : ℤ), success),
        log.countP fun o => (b.bucketNumber o.time, o.success) = p := by
    rw [Finset.sum_image hinjective]
    simp only [Prod.mk.injEq]
    rfl
  rw [hkeys, ← countP_mem_eq_sum, recent]
  refine List.countP_congr fun o ho => ?_
  have hpast := h o ho
  rw [decide_eq_true_iff, decide_eq_true_iff, InWindow]
  simp only [Finset.mem_image, Finset.mem_range, Prod.mk.injEq]
  constructor
  · rintro ⟨k, hk, hnumber, hkind⟩
    exact ⟨by omega, hkind.symm⟩
  · rintro ⟨hwindow, hkind⟩
    exact ⟨(b.bucketNumber now - b.bucketNumber o.time).toNat, by omega, by omega, hkind.symm⟩

lemma Holds.start_lt (h : Holds b log a) (ha : (a : ℤ) = b.bucketNumber now) (hlaid : Laid b now)
    {j : ℕ} (hj : j < kBucketCount) (hused : b.buckets j ≠ {}) :
    now - milliseconds b.config.window < (b.buckets j).start := by
  obtain hblank | ⟨-, hstart⟩ := hlaid.placed j hj
  · exact absurd hblank hused
  have hpos := b.bucketDuration_pos
  have hwithin : now - b.epoch < (b.bucketNumber now + 1) * b.bucketDuration :=
    Int.lt_ediv_add_one_mul_self _ hpos
  have hback : (back kBucketCount b.activeIndex j : ℤ) ≤ 9 := by
    have hlt := back_lt h.index_lt hj
    rw [kBucketCount] at hlt ⊢
    omega
  have hwidths : (back kBucketCount b.activeIndex j : ℤ) * b.bucketDuration ≤
      9 * b.bucketDuration :=
    mul_le_mul_of_nonneg_right hback hpos.le
  rw [hstart, h.start, ha, window_eq]
  linarith

/-- `Aggregate` adds up all the buckets. -/
lemma Holds.total (h : Holds b log a) (ha : (a : ℤ) = b.bucketNumber now) (hlaid : Laid b now)
    (hfew : b.FewPerBucket log) (success : Bool) :
    (b.total now fun succeeded failed => if success then succeeded else failed) =
      b.recent log now success := by
  calc (b.total now fun succeeded failed => if success then succeeded else failed)
      = ∑ j ∈ range kBucketCount, (b.buckets j).count success := by
        refine sum_congr rfl fun j hj => ?_
        by_cases hblank : b.buckets j = {}
        · rw [hblank, ReloadChain.count_of_empty ⟨rfl, rfl⟩]
          simp
        · exact if_pos (h.start_lt ha hlaid (Finset.mem_range.mp hj) hblank)
    _ = ∑ k ∈ range kBucketCount, b.numbered log (a - k) success % 2 ^ 32 :=
        h.shows.sum h.index_lt fun counts => counts success
    _ = ∑ k ∈ range kBucketCount, b.numbered log (b.bucketNumber now - k) success := by
        rw [ha]
        exact sum_congr rfl fun k _ => Nat.mod_eq_of_lt (hfew.numbered_lt _ _)
    _ = b.recent log now success := sum_numbered (fun o ho => ha ▸ h.past o ho) success

lemma recent_congr (h : r.bucketNumber = b.bucketNumber) (success : Bool) :
    r.recent log now success = b.recent log now success := by
  refine countP_congr fun o _ => ?_
  rw [decide_eq_true_iff, decide_eq_true_iff, InWindow, InWindow, h]

/-- The totals of `Aggregate` are those of the log, by the numbers of any breaker on the grid. -/
lemma Holds.aggregate (h : Holds r log a) (ha : (a : ℤ) = r.bucketNumber now)
    (hlaid : Laid r now) (hgrid : r.bucketNumber = b.bucketNumber) (hfew : b.FewPerBucket log) :
    r.aggregate now = (b.recent log now true, b.recent log now false) := by
  have hfew' : r.FewPerBucket log := by
    rw [FewPerBucket, hgrid]
    exact hfew
  rw [aggregate_eq, ← recent_congr hgrid, ← recent_congr hgrid]
  exact Prod.ext (h.total ha hlaid hfew' true) (h.total ha hlaid hfew' false)

/-! ## Ages -/

lemma bucketNumber_sub (b : CircuitBreaker) (t : TimePoint) (n : ℤ) :
    b.bucketNumber (t - n * b.bucketDuration) = b.bucketNumber t - n := by
  rw [bucketNumber, sub_right_comm, Int.sub_mul_ediv_right _ _ b.bucketDuration_pos.ne']
  rfl

lemma bucketNumber_mono (b : CircuitBreaker) {t u : TimePoint} (h : t ≤ u) :
    b.bucketNumber t ≤ b.bucketNumber u :=
  Int.ediv_le_ediv b.bucketDuration_pos (sub_le_sub_right h _)

lemma inWindow_of_young (h : 10 * (now - o.time) < 9 * milliseconds b.config.window) :
    b.InWindow now o := by
  rw [window_eq] at h
  have hle : now - 9 * b.bucketDuration ≤ o.time := by linarith
  have hnumber := b.bucketNumber_mono hle
  rw [bucketNumber_sub] at hnumber
  rw [InWindow, kBucketCount]
  push_cast
  linarith

lemma not_inWindow_of_old (h : milliseconds b.config.window ≤ now - o.time) :
    ¬b.InWindow now o := by
  rw [window_eq] at h
  have hle : o.time ≤ now - 10 * b.bucketDuration := by linarith
  have hnumber := b.bucketNumber_mono hle
  rw [bucketNumber_sub] at hnumber
  rw [InWindow, kBucketCount]
  push_cast
  linarith

/-! ## Whatever the calls -/

/-- Before the first call after it closed, there is no log; and then the buckets hold it. -/
structure Windowed (b : CircuitBreaker) (log : List Outcome) (clock : TimePoint) : Prop where
  laid : Laid b clock
  held : b.initialized = false ∧ log = [] ∨ ∃ a, Holds b log a

lemma holds_startBuckets (hlaid : Laid b clock) (hinit : b.initialized = false) :
    Holds b.startBuckets [] 0 := by
  rw [startBuckets_of_not hinit]
  refine ⟨rfl, by simp, rfl, fun j hj => ?_, nofun⟩
  funext success
  dsimp only
  split
  · exact ReloadChain.count_of_empty ⟨rfl, rfl⟩ success
  · rcases hlaid.placed j hj with hblank | ⟨habs, -⟩
    · rw [hblank]
      exact ReloadChain.count_of_empty ⟨rfl, rfl⟩ success
    · rw [hinit] at habs
      cases habs

lemma advanceTo_startBuckets (hepoch : b.epoch ≤ now) (hinit : b.initialized = false) :
    b.startBuckets.advanceTo now = b.advanceTo now := by
  have hstarted : b.startBuckets.initialized := by rw [startBuckets_of_not hinit]
  rw [advanceTo, advanceTo, epoch_startBuckets, if_neg (not_lt.mpr hepoch),
    if_neg (not_lt.mpr hepoch), startBuckets_of_initialized hstarted]

/-- `AdvanceTo` from any state a call leaves. -/
lemma Windowed.advanceTo (h : Windowed b log clock) (hle : clock ≤ now) :
    Holds (b.advanceTo now) log (b.bucketNumber now).toNat := by
  have hepoch := h.laid.epoch.trans hle
  rcases h.held with ⟨hinit, rfl⟩ | ⟨a, ha⟩
  · have hstarted := holds_startBuckets h.laid hinit
    have hsame := bucketNumber_congr b.startBuckets_same.config b.epoch_startBuckets
    have hbegins : b.startBuckets.activeStart = b.epoch := by rw [startBuckets_of_not hinit]
    rw [← advanceTo_startBuckets hepoch hinit, ← hsame]
    exact hstarted.advanceTo (b.epoch_startBuckets.trans_le hepoch) (hbegins.trans_le hepoch)
  · exact ha.advanceTo hepoch ((h.laid.active ha.initialized).1.trans hle)

lemma bucketNumber_advanceTo (b : CircuitBreaker) (now : TimePoint) :
    (b.advanceTo now).bucketNumber = b.bucketNumber :=
  bucketNumber_congr (b.advanceTo_same now).config (b.epoch_advanceTo now)

lemma Laid.bucketNumber_toNat (h : Laid b clock) (hle : clock ≤ now) :
    ((b.bucketNumber now).toNat : ℤ) = b.bucketNumber now :=
  Int.toNat_of_nonneg (Int.ediv_nonneg (sub_nonneg.mpr (h.epoch.trans hle)) b.bucketDuration_pos.le)

end CircuitBreaker

/-- The totals at which an outcome opens a closed breaker. -/
def CircuitBreakerConfig.Reached (config : CircuitBreakerConfig) (successes failures : ℕ) : Prop :=
  config.minRequests ≤ successes + failures ∧
    config.failureThresholdPermille * (successes + failures) ≤ 1000 * failures

lemma CircuitBreaker.overThreshold_iff {b : CircuitBreaker} {now : TimePoint}
    {successes failures : ℕ} (h : b.aggregate now = (successes, failures)) :
    b.overThreshold now ↔ b.config.Reached successes failures := by
  rw [overThreshold, h]
  simp [CircuitBreakerConfig.Reached, Nat.mul_comm failures]

namespace ReloadChain
variable {s t : ReloadChain} {b : CircuitBreaker} {c : BreakerCall}

def callStep (s : ReloadChain) (c : BreakerCall) : Option ReloadChain := s.step (.call c)

/-- The breaker holds the outcomes, on the grid it was made with. -/
structure OnGrid (b : CircuitBreaker) (s : ReloadChain) : Prop where
  windowed : s.breaker.Windowed s.outcomes s.clock
  config : s.breaker.config = b.config
  epoch : s.breaker.epoch = b.epoch

lemma OnGrid.bucketNumber (h : OnGrid b s) : s.breaker.bucketNumber = b.bucketNumber :=
  bucketNumber_congr h.config h.epoch

variable {now : TimePoint} {permit : RequestPermit}

/-- `AdvanceTo` stays on the grid, and its bucket is that of the time. -/
lemma OnGrid.advanceTo (h : OnGrid b s) (hnow : s.clock ≤ now) :
    (s.breaker.advanceTo now).Holds s.outcomes (b.bucketNumber now).toNat ∧
      (s.breaker.advanceTo now).bucketNumber = b.bucketNumber ∧
      ((b.bucketNumber now).toNat : ℤ) = b.bucketNumber now := by
  rw [bucketNumber_advanceTo, ← h.bucketNumber]
  exact ⟨h.windowed.advanceTo hnow, rfl, h.windowed.laid.bucketNumber_toNat hnow⟩

lemma OnGrid.step (h : OnGrid b s) (hstep : s.callStep c = some t) : OnGrid b t := by
  rw [callStep, ReloadChain.step] at hstep
  split at hstep
  · cases hstep
  next htime =>
  rw [not_lt] at htime
  cases hstep
  have hlaid := h.windowed.laid.call htime
  have hconfig := (s.breaker.advanceTo_same (c.time s.clock)).config.trans h.config
  have hepoch := (s.breaker.epoch_advanceTo (c.time s.clock)).trans h.epoch
  obtain ⟨hheld, hgrid, hnat⟩ := h.advanceTo htime
  have hcases := s.logged c
  generalize s.breaker.call c = r, s.outcomesAfter c = outcomes at hcases hlaid ⊢
  cases hcases with
  | fresh hr =>
    refine ⟨⟨hlaid, ?_⟩, hr.config.trans h.config, hr.epoch.trans h.epoch⟩
    exact h.windowed.held.imp (And.imp_left hr.initialized.trans)
      (Exists.imp fun a ha => ha.congr hr)
  | kept hr =>
    exact ⟨⟨hlaid, .inr ⟨_, hheld.congr hr⟩⟩, hr.config.trans hconfig, hr.epoch.trans hepoch⟩
  | @counted now permit success r hr =>
    -- The outcome is recorded in the bucket of the time it is recorded at.
    have hnumber : (s.breaker.advanceTo now).bucketNumber now = (b.bucketNumber now).toNat :=
      (congrFun hgrid now).trans hnat.symm
    have hcounted := hheld.countOutcome
      (o := ⟨now, success, (s.breaker.advanceTo now).activeStart⟩) hnumber
    exact ⟨⟨hlaid, .inr ⟨_, hcounted.congr hr⟩⟩, hr.config.trans hconfig, hr.epoch.trans hepoch⟩
  | closed hinit _ hconfig' hepoch' =>
    exact ⟨⟨hlaid, .inl ⟨hinit, rfl⟩⟩, hconfig'.trans h.config, hepoch'.trans h.epoch⟩

lemma onGrid_start {config : CircuitBreakerConfig} {epoch : TimePoint}
    (hb : create config epoch = some b) : OnGrid b (start b) := by
  refine ⟨⟨laid_create hb, .inl ⟨?_, rfl⟩⟩, rfl, rfl⟩
  obtain ⟨-, rfl⟩ := create_some hb
  rfl

/-- What a closed breaker, made as `b`, counts at a time. -/
structure Accounts (b : CircuitBreaker) (s : ReloadChain) (now : TimePoint) : Prop where
  /-- The totals are those of the outcomes in the last ten buckets. -/
  totals : b.FewPerBucket s.outcomes → (s.breaker.advanceTo now).aggregate now =
    (b.recent s.outcomes now true, b.recent s.outcomes now false)
  young : ∀ o ∈ s.outcomes, 10 * (now - o.time) < 9 * milliseconds b.config.window →
    b.InWindow now o
  old : ∀ o ∈ s.outcomes, milliseconds b.config.window ≤ now - o.time → ¬b.InWindow now o
  /-- An outcome that is accepted opens the breaker exactly at these totals. -/
  opens : ∀ permit success t, s.callStep (.record now permit success) = some t →
    s.breaker.Accepts permit → b.FewPerBucket t.outcomes → (t.breaker.state = .opened ↔
      b.config.Reached (b.recent t.outcomes now true) (b.recent t.outcomes now false))
  /-- One that is not accepted changes nothing. -/
  ignores : ∀ permit success t, s.callStep (.record now permit success) = some t →
    ¬s.breaker.Accepts permit → t.breaker.state = .closed ∧ t.outcomes = s.outcomes

lemma OnGrid.totals (h : OnGrid b s) (hnow : s.clock ≤ now) (hfew : b.FewPerBucket s.outcomes) :
    (s.breaker.advanceTo now).aggregate now =
      (b.recent s.outcomes now true, b.recent s.outcomes now false) := by
  obtain ⟨hheld, hgrid, hnat⟩ := h.advanceTo hnow
  refine hheld.aggregate ?_ (h.windowed.laid.advanceTo hnow).1 hgrid hfew
  rw [hgrid, hnat]

lemma OnGrid.totals_countOutcome (h : OnGrid b s) (hnow : s.clock ≤ now) (success : Bool)
    (hfew : b.FewPerBucket (s.outcomes ++
      [⟨now, success, (s.breaker.advanceTo now).activeStart⟩])) :
    ((s.breaker.advanceTo now).countOutcome success).aggregate now =
      (b.recent (s.outcomes ++ [⟨now, success, (s.breaker.advanceTo now).activeStart⟩]) now true,
       b.recent (s.outcomes ++ [⟨now, success, (s.breaker.advanceTo now).activeStart⟩])
         now false) := by
  obtain ⟨hheld, hgrid, hnat⟩ := h.advanceTo hnow
  obtain ⟨hlaid, hinit, -⟩ := h.windowed.laid.advanceTo hnow
  have hnumber : ((b.bucketNumber now).toNat : ℤ) = (s.breaker.advanceTo now).bucketNumber now := by
    rw [hgrid, hnat]
  have hcounted := hheld.countOutcome
    (o := ⟨now, success, (s.breaker.advanceTo now).activeStart⟩) hnumber.symm
  exact hcounted.aggregate hnumber (hlaid.countOutcome hinit success) hgrid hfew

lemma record_of_accepts (now : TimePoint) (hclosed : s.breaker.state = .closed)
    (hacc : s.breaker.Accepts permit) (success : Bool) :
    s.breaker.record now permit success =
        ((s.breaker.advanceTo now).countOutcome success).evaluate now ∧
      s.outcomesAfter (.record now permit success) =
        s.outcomes ++ [⟨now, success, (s.breaker.advanceTo now).activeStart⟩] := by
  constructor
  · have hcases := s.breaker.recorded now permit success
    generalize s.breaker.record now permit success = r at hcases ⊢
    cases hcases with
    | ignored hno => exact absurd hacc hno
    | counted => rfl
    | succeeded _ hstate | completed _ hstate | failed _ hstate =>
      rw [hclosed] at hstate
      cases hstate
  · rw [CircuitBreaker.Accepts, hclosed] at hacc
    rw [outcomesAfter, if_pos hclosed, if_pos hacc]

lemma callStep_record {success : Bool}
    (hstep : s.callStep (.record now permit success) = some t) :
    s.clock ≤ now ∧ t.breaker = s.breaker.record now permit success ∧
      t.outcomes = s.outcomesAfter (.record now permit success) := by
  rw [callStep, ReloadChain.step] at hstep
  obtain ⟨htime, ⟨⟩⟩ := Option.ite_none_left_eq_some.mp hstep
  exact ⟨not_lt.mp htime, rfl, rfl⟩

/-- **What the window counts.** For every configuration and whatever the calls, at times that do not
go back from the epoch: while the breaker is closed its totals are those of the outcomes accepted
since it closed whose bucket is one of the last ten, and they decide about an accepted outcome. -/
theorem accounts_of_run {config : CircuitBreakerConfig} {epoch : TimePoint}
    (hb : create config epoch = some b) {calls : List BreakerCall}
    (hrun : run callStep (start b) calls = some s) (hclosed : s.breaker.state = .closed)
    {now : TimePoint} (hnow : s.clock ≤ now) : Accounts b s now := by
  have h : OnGrid b s := run_invariant (fun u c v (hu : OnGrid b u) hv => hu.step hv)
    (onGrid_start hb) hrun
  refine ⟨h.totals hnow, fun o _ hyoung => inWindow_of_young hyoung,
    fun o _ hold => not_inWindow_of_old hold, ?_, ?_⟩
  · intro permit success t hstep hacc hfew
    obtain ⟨-, hbreaker, houtcomes⟩ := callStep_record hstep
    obtain ⟨hrecord, hlog⟩ := record_of_accepts now hclosed hacc success
    rw [hlog] at houtcomes
    rw [houtcomes] at hfew
    have hstate : ((s.breaker.advanceTo now).countOutcome success).state = .closed :=
      (s.breaker.advanceTo_same now).state.trans hclosed
    have hconfig : ((s.breaker.advanceTo now).countOutcome success).config = b.config :=
      (s.breaker.advanceTo_same now).config.trans h.config
    rw [hbreaker, hrecord, state_evaluate hstate, houtcomes, ← hconfig,
      ← overThreshold_iff (h.totals_countOutcome hnow success hfew)]
    split
    · next hover => exact iff_of_true rfl hover
    · next hunder => exact iff_of_false nofun hunder
  · intro permit success t hstep hacc
    obtain ⟨-, hbreaker, houtcomes⟩ := callStep_record hstep
    have hrecord : s.breaker.record now permit success = _ := record_of_not_accepts hacc
    rw [hbreaker, houtcomes, outcomesAfter_of_not_accepts hacc hrecord, hrecord]
    exact ⟨(s.breaker.advanceTo_same now).state.trans hclosed, rfl⟩

/-- One failure opens the breaker, and one probe closes it; buckets are 100 microseconds wide. -/
def oneFailure : CircuitBreakerConfig := ⟨1, 1, 600, 1, 1⟩

/-- It opens and closes; then a success, and half a window later a failure. -/
def reopened : List BreakerCall :=
  [.record 0 ⟨.allowed, 1, 0⟩ false, .select 1000000, .record 1000000 ⟨.probe, 3, 1⟩ true,
    .record 1000000 ⟨.allowed, 4, 0⟩ true, .record 1500000 ⟨.allowed, 4, 0⟩ false]

/-- The success has left the window when the next failure comes. -/
theorem accounts_of_reopened : ∃ b s, create oneFailure 0 = some b ∧
    run callStep (start b) reopened = some s ∧
    (s.breaker.advanceTo 2000000).aggregate 2000000 = (0, 1) ∧ Accounts b s 2000000 := by
  obtain ⟨b, hb⟩ : ∃ b, create oneFailure 0 = some b := ⟨_, rfl⟩
  obtain ⟨s, hs⟩ : ∃ s, run callStep (start b) reopened = some s := by
    cases hb
    exact ⟨_, rfl⟩
  have hstate : s.breaker.state = .closed ∧ s.clock ≤ 2000000 ∧
      (s.breaker.advanceTo 2000000).aggregate 2000000 = (0, 1) := by
    cases hb
    cases hs
    decide +kernel
  exact ⟨b, s, hb, hs, hstate.2.2, accounts_of_run hb hs hstate.1 hstate.2.1⟩

/-- An outcome with a permit from before the breaker opened, at totals that would open it. -/
theorem not_opened_of_stale : ∃ b s t, create oneFailure 0 = some b ∧
    run callStep (start b) reopened = some s ∧ s.breaker.state = .closed ∧
    s.callStep (.record 2000000 ⟨.allowed, 1, 0⟩ false) = some t ∧ b.FewPerBucket t.outcomes ∧
    (s.breaker.advanceTo 2000000).aggregate 2000000 = (0, 1) ∧
    t.breaker.aggregate 2000000 = (0, 1) ∧ oneFailure.Reached 0 1 ∧ t.breaker.state = .closed := by
  obtain ⟨b, hb⟩ : ∃ b, create oneFailure 0 = some b := ⟨_, rfl⟩
  obtain ⟨s, hs⟩ : ∃ s, run callStep (start b) reopened = some s := by
    cases hb
    exact ⟨_, rfl⟩
  obtain ⟨t, ht⟩ : ∃ t, s.callStep (.record 2000000 ⟨.allowed, 1, 0⟩ false) = some t := by
    cases hb
    cases hs
    exact ⟨_, rfl⟩
  have hstate : s.breaker.state = .closed ∧
      (s.breaker.advanceTo 2000000).aggregate 2000000 = (0, 1) ∧ t.outcomes.length = 2 ∧
      t.breaker.aggregate 2000000 = (0, 1) ∧ t.breaker.state = .closed := by
    cases hb
    cases hs
    cases ht
    decide +kernel
  obtain ⟨hclosed, hbefore, hlength, hafter, hstill⟩ := hstate
  have hfew : b.FewPerBucket t.outcomes := by
    intro n
    refine countP_le_length.trans_lt ?_
    rw [hlength]
    decide
  exact ⟨b, s, t, hb, hs, hclosed, ht, hfew, hbefore, hafter, ⟨by decide, by decide⟩, hstill⟩

end ReloadChain
end AegisGate.Resilience
