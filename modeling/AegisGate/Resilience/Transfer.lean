import AegisGate.Resilience.Window

/-!
# What a migration carries over

A closed breaker is exported as the ages of its recent buckets. The import lays the buckets out
again on a grid that ends at the import: an age is cut down to whole widths and the bucket goes
as many cells back. Two buckets of one breaker are a number of whole widths apart, so that no
two of them meet in one cell, and each arrives with the counts it had.
-/

namespace AegisGate.Resilience
open Lib List

namespace CircuitBreaker

variable {b t : CircuitBreaker} {clock now : TimePoint}

/-! ## Totals -/

section
variable (b : CircuitBreaker)

/-- What `Aggregate` adds up, for any measure of the counts. -/
def total (now : TimePoint) (g : ℕ → ℕ → ℕ) : ℕ :=
  ∑ j ∈ Finset.range kBucketCount, if now - milliseconds b.config.window < (b.buckets j).start then
      g (b.buckets j).success (b.buckets j).failure
    else 0

lemma aggregate_eq (now : TimePoint) :
    b.aggregate now = (b.total now fun success _ => success,
      b.total now fun _ failure => failure) := by
  rw [aggregate, total, total]
  induction kBucketCount with
  | zero => rfl
  | succ n ih =>
    rw [range_succ, foldl_append, ih, Finset.sum_range_succ, Finset.sum_range_succ]
    simp only [foldl_cons, foldl_nil]
    split <;> rfl

/-! ## Export -/

/-- A bucket is in the snapshot. -/
def Exported (now : TimePoint) (j : ℕ) : Prop :=
  (b.buckets j).start ≠ 0 ∧ (b.buckets j).start ≤ now ∧
    now - (b.buckets j).start < milliseconds b.config.window

instance (b : CircuitBreaker) (now : TimePoint) (j : ℕ) : Decidable (b.Exported now j) :=
  inferInstanceAs (Decidable (_ ∧ _ ∧ _))

def snapshotOf (now : TimePoint) (j : ℕ) : BucketSnapshot :=
  ⟨now - (b.buckets j).start, (b.buckets j).success, (b.buckets j).failure⟩

/-- How many buckets ago one began. -/
def steps (now : TimePoint) (j : ℕ) : ℕ :=
  ((now - (b.buckets j).start) / b.bucketDuration).toNat

end

lemma buckets_exportSnapshot (h : b.state = .closed) : (b.exportSnapshot now).buckets =
      ((range kBucketCount).filter fun j => b.Exported now j).map (b.snapshotOf now) := by
  rw [exportSnapshot, h]
  dsimp only
  induction range kBucketCount with
  | nil => rfl
  | cons j l ih =>
    rw [map_cons, filterMap_cons, filter_cons]
    by_cases hexp : b.Exported now j
    · have hin : ¬((b.buckets j).start = 0 ∨ now < (b.buckets j).start ∨
          milliseconds b.config.window ≤ now - (b.buckets j).start) := by
        rw [not_or, not_or, not_lt, not_le]
        exact hexp
      simp only [if_neg hin, decide_eq_true hexp, if_true, map_cons, ih]
      rfl
    have hout : (b.buckets j).start = 0 ∨ now < (b.buckets j).start ∨
        milliseconds b.config.window ≤ now - (b.buckets j).start := by
      by_contra hin
      rw [not_or, not_or, not_lt, not_le] at hin
      exact hexp hin
    simp only [if_pos hout, decide_eq_false hexp, Bool.false_eq_true, if_false, ih]

variable {j : ℕ} {e i : TimePoint}

lemma Exported.recent (h : b.Exported now j) (hconfig : t.config = b.config) :
    t.Recent (b.snapshotOf now j) := by
  refine ⟨sub_nonneg.mpr h.2.1, ?_⟩
  rw [hconfig]
  exact h.2.2

lemma Exported.steps_lt (h : b.Exported now j) : b.steps now j < kBucketCount :=
  (h.recent rfl).steps_lt

lemma Exported.ne_blank (h : b.Exported now j) : b.buckets j ≠ {} :=
  fun hblank => h.1 (congrArg Bucket.start hblank)

lemma Laid.steps_eq (h : Laid b clock) (hle : clock ≤ now) (hj : j < kBucketCount)
    (hused : b.buckets j ≠ {}) :
    b.steps now j =
      ((now - b.activeStart) / b.bucketDuration).toNat + back kBucketCount b.activeIndex j := by
  obtain hblank | ⟨hinit, hstart⟩ := h.placed j hj
  · exact absurd hblank hused
  have hage : now - (b.buckets j).start = now - b.activeStart +
      back kBucketCount b.activeIndex j * b.bucketDuration := by
    rw [hstart]
    ring
  have hactive := (h.active hinit).1
  have hquot : 0 ≤ (now - b.activeStart) / b.bucketDuration :=
    Int.ediv_nonneg (by linarith) b.bucketDuration_pos.le
  rw [steps, hage, Int.add_mul_ediv_right _ _ b.bucketDuration_pos.ne',
    Int.toNat_add hquot (Int.natCast_nonneg _), Int.toNat_natCast]

lemma Laid.slot_injective (h : Laid b clock) (hle : clock ≤ now) {k : ℕ} (hj : j < kBucketCount)
    (hk : k < kBucketCount) (hjexp : b.Exported now j) (hkexp : b.Exported now k)
    (heq : slotOf b.bucketDuration (b.snapshotOf now j) =
      slotOf b.bucketDuration (b.snapshotOf now k)) : j = k := by
  have hsteps : b.steps now j = b.steps now k := by
    rw [← back_slot hjexp.steps_lt, ← back_slot hkexp.steps_lt]
    exact congrArg (back kBucketCount 0) heq
  rw [h.steps_eq hle hj hjexp.ne_blank, h.steps_eq hle hk hkexp.ne_blank] at hsteps
  exact back_injective hj hk (Nat.add_left_cancel hsteps)

lemma Laid.nodup_slots (h : Laid b clock) (hle : clock ≤ now) :
    (((range kBucketCount).filter fun j => b.Exported now j).map (b.snapshotOf now)
      |>.map (slotOf b.bucketDuration)).Nodup := by
  rw [map_map]
  refine (nodup_range.filter _).map_on fun j hj k hk heq => ?_
  obtain ⟨hj, hjexp⟩ := mem_filter.mp hj
  obtain ⟨hk, hkexp⟩ := mem_filter.mp hk
  exact h.slot_injective hle (mem_range.mp hj) (mem_range.mp hk)
    (of_decide_eq_true hjexp) (of_decide_eq_true hkexp) heq

/-! ## Import -/

lemma foldl_importBucket {sources : List BucketSnapshot} (h : ∀ source ∈ sources, t.Recent source) :
    sources.foldl (importBucket now) t = { t with
      buckets := scatter (slotOf t.bucketDuration)
        (merged now t.bucketDuration) sources t.buckets } := by
  induction sources generalizing t with
  | nil => rfl
  | cons source sources ih =>
    rw [foldl_cons, importBucket_of_recent (h source mem_cons_self)]
    exact ih fun s hs => h s (mem_cons_of_mem source hs)

lemma state_importSnapshot (h : b.state = .closed) (e i : TimePoint) :
    (t.importSnapshot (b.exportSnapshot e) i).1.state = .closed := by
  have hstate : (b.exportSnapshot e).state = .closed := by rw [exportSnapshot, h]
  rw [importSnapshot, hstate]
  exact (foldl_importBucket_same _ _ _).state

lemma buckets_importSnapshot (h : b.state = .closed) (hconfig : t.config = b.config)
    (e i : TimePoint) :
    (t.importSnapshot (b.exportSnapshot e) i).1.buckets =
      scatter (slotOf b.bucketDuration) (merged i b.bucketDuration)
        (((range kBucketCount).filter fun j => b.Exported e j).map (b.snapshotOf e))
        (fun j => if j = 0 then { start := i } else {}) := by
  have hstate : (b.exportSnapshot e).state = .closed := by rw [exportSnapshot, h]
  have hbase : (t.importBase (b.exportSnapshot e) i).buckets =
      fun j => if j = 0 then { start := i } else {} :=
    funext (buckets_importBase t (b.exportSnapshot e) i)
  have hwidth : (t.importBase (b.exportSnapshot e) i).bucketDuration = b.bucketDuration :=
    bucketDuration_congr hconfig
  have hrecent : ∀ source ∈ (b.exportSnapshot e).buckets,
      ({ t.importBase (b.exportSnapshot e) i with state := .closed } : CircuitBreaker).Recent
        source := by
    intro source hsource
    rw [buckets_exportSnapshot h] at hsource
    obtain ⟨j, hj, rfl⟩ := mem_map.mp hsource
    exact Exported.recent (of_decide_eq_true (mem_filter.mp hj).2) hconfig
  rw [importSnapshot, hstate]
  rw [foldl_importBucket hrecent, buckets_exportSnapshot h]
  rw [hbase]
  exact congrArg (fun width => scatter (slotOf width) (merged i width) _ _) hwidth

lemma merged_first (h : Laid b clock) (hexp : b.Exported e j) :
    merged i b.bucketDuration (b.snapshotOf e j)
        (if slotOf b.bucketDuration (b.snapshotOf e j) = 0 then { start := i } else {}) =
      ⟨i - b.steps e j * b.bucketDuration, (b.buckets j).success, (b.buckets j).failure⟩ := by
  have hs := Nat.mod_eq_of_lt (h.narrow j).1
  have hf := Nat.mod_eq_of_lt (h.narrow j).2
  split
  · next hslot =>
    -- The cell of the import is the one a bucket arrives in that is not a width old.
    have hzero : b.steps e j = 0 := by
      rw [← back_slot hexp.steps_lt]
      exact (congrArg (back kBucketCount 0) hslot).trans (back_self _ _)
    have hage : ((b.snapshotOf e j).ageFromExport / b.bucketDuration).toNat = 0 := hzero
    rw [merged, hage, hzero]
    simp only [snapshotOf, Nat.zero_add, hs, hf, Int.natCast_zero, zero_mul, sub_zero, ite_self]
  · simp only [merged, snapshotOf, Nat.zero_add, hs, hf, if_true]
    rfl

/-- **Every bucket of the importing breaker**: one that was exported, as many widths back as it
was old, or an empty one. -/
theorem Laid.buckets_transfer (h : Laid b clock) (hclosed : b.state = .closed)
    (hconfig : t.config = b.config) (hle : clock ≤ e) :
    (∀ j < kBucketCount, b.Exported e j → (t.importSnapshot (b.exportSnapshot e) i).1.buckets
          (slotOf b.bucketDuration (b.snapshotOf e j)) =
        ⟨i - b.steps e j * b.bucketDuration, (b.buckets j).success, (b.buckets j).failure⟩) ∧
    (∀ k, (∀ j < kBucketCount, b.Exported e j → slotOf b.bucketDuration (b.snapshotOf e j) ≠ k) →
      (t.importSnapshot (b.exportSnapshot e) i).1.buckets k =
        if k = 0 then { start := i } else {}) := by
  rw [buckets_importSnapshot hclosed hconfig]
  refine ⟨fun j hj hexp => ?_, fun k hk => ?_⟩
  · have hmem : b.snapshotOf e j ∈
        ((range kBucketCount).filter fun j => b.Exported e j).map (b.snapshotOf e) :=
      mem_map_of_mem (mem_filter.mpr ⟨mem_range.mpr hj, decide_eq_true hexp⟩)
    rw [scatter_of_mem (h.nodup_slots hle) hmem]
    exact merged_first h hexp
  · refine scatter_of_notMem fun hmem => ?_
    obtain ⟨source, hsource, rfl⟩ := mem_map.mp hmem
    obtain ⟨j, hj, rfl⟩ := mem_map.mp hsource
    obtain ⟨hj, hexp⟩ := mem_filter.mp hj
    exact hk j (mem_range.mp hj) (of_decide_eq_true hexp) rfl

lemma sum_filter_range (p : ℕ → Prop) [DecidablePred p] (f : ℕ → ℕ) (n : ℕ) :
    (((range n).filter fun j => p j).map f).sum = ∑ j ∈ Finset.range n, if p j then f j else 0 := by
  induction n with
  | zero => rfl
  | succ n ih =>
    rw [range_succ, filter_append, map_append, sum_append, ih, Finset.sum_range_succ]
    by_cases hp : p n <;> simp [hp]

/-- **No bucket is lost or merged**: whatever is measured in the window is the same after the
migration. -/
theorem Laid.total_transfer (h : Laid b clock) (hclosed : b.state = .closed)
    (hconfig : t.config = b.config) (hle : clock ≤ e)
    (hzero : ∀ j < kBucketCount, (b.buckets j).start = 0 → b.buckets j = {}) {g : ℕ → ℕ → ℕ}
    (hg : g 0 0 = 0) : (t.importSnapshot (b.exportSnapshot e) i).1.total i g = b.total e g := by
  obtain ⟨harrived, hempty⟩ := h.buckets_transfer hclosed hconfig hle (i := i)
  have hwindow : milliseconds (t.importSnapshot (b.exportSnapshot e) i).1.config.window =
      10 * b.bucketDuration := by
    rw [(quota_importSnapshot _ _ _).1, hconfig, window_eq]
  -- A bucket that holds anything was exported, so it is inside the window.
  have hin : (t.importSnapshot (b.exportSnapshot e) i).1.total i g =
      ∑ k ∈ Finset.range kBucketCount,
        g ((t.importSnapshot (b.exportSnapshot e) i).1.buckets k).success
          ((t.importSnapshot (b.exportSnapshot e) i).1.buckets k).failure := by
    refine Finset.sum_congr rfl fun k _ => ?_
    by_cases hslot : ∃ j < kBucketCount, b.Exported e j ∧
        slotOf b.bucketDuration (b.snapshotOf e j) = k
    · obtain ⟨j, hj, hexp, rfl⟩ := hslot
      refine if_pos ?_
      rw [harrived j hj hexp, hwindow]
      have hsteps : (b.steps e j : ℤ) * b.bucketDuration ≤ 9 * b.bucketDuration := by
        have hlt := hexp.steps_lt
        rw [kBucketCount] at hlt
        exact mul_le_mul_of_nonneg_right (by omega) b.bucketDuration_pos.le
      have hpos := b.bucketDuration_pos
      linarith
    · rw [hempty k fun j hj hexp heq => hslot ⟨j, hj, hexp, heq⟩]
      split <;> split <;> simp [hg]
  -- A bucket of the source that holds anything is in use, so it is exported if it is counted.
  have hout : b.total e g = ∑ j ∈ Finset.range kBucketCount,
      if b.Exported e j then g (b.buckets j).success (b.buckets j).failure else 0 := by
    refine Finset.sum_congr rfl fun j hj => ?_
    have hj := Finset.mem_range.mp hj
    by_cases hblank : b.buckets j = {}
    · rw [hblank]
      simp [hg]
    · have hstart := (h.start_le hj hblank).trans hle
      refine if_congr ⟨fun hlt => ⟨fun h0 => hblank (hzero j hj h0), hstart, ?_⟩,
        fun hexp => ?_⟩ rfl rfl
      · linarith
      · have := hexp.2.2
        linarith
  rw [hin, hout, ← sum_filter_range, buckets_importSnapshot hclosed hconfig,
    sum_scatter (fun bucket : Bucket => g bucket.success bucket.failure) (h.nodup_slots hle)]
  · rw [map_map]
    refine congrArg sum (map_congr_left fun j hj => ?_)
    have hexp : b.Exported e j := of_decide_eq_true (mem_filter.mp hj).2
    rw [Function.comp_apply, merged_first h hexp]
  · intro source _
    exact Finset.mem_range.mpr (slotOf_lt _ _)
  · intro k
    split <;> exact hg

end CircuitBreaker
end AegisGate.Resilience
