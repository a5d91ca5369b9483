import AegisGate.Resilience.Transfer

/-!
# Migration keeps the protection

A `BreakerHistory` is a breaker under calls at non-decreasing times, with every permit it has
handed out and the number of times its generation changed. Whatever it has been through, a
breaker that imports its export protects as it did, and none of its permits counts there.

Generations run through the non-zero 64-bit values in a circle, so the last part needs a bound
on their number.
-/

namespace AegisGate.Resilience
open Lib CircuitBreaker List

/-- The permits a call hands out; those of a cycle are made from its range. -/
def CircuitBreaker.permits (b : CircuitBreaker) : BreakerCall → List RequestPermit
  | .select now => [(b.select now).2]
  | .record _ _ _ => []
  | .freshCycle =>
    (probeRange b.beginFreshHalfOpenCycle.2.probeBase
      b.beginFreshHalfOpenCycle.2.quota).map fun id =>
        ⟨.probe, b.beginFreshHalfOpenCycle.2.generation, id⟩

/-- A breaker, the time of its last call, the number of its generations after the first, and the
permits it has handed out. -/
structure BreakerHistory where
  breaker : CircuitBreaker
  clock : TimePoint
  changes : ℕ := 0
  permits : List RequestPermit := []

/-! ## Generations -/

/-- The generation after `n` changes. -/
def generationAt (first n : ℕ) : ℕ := 1 + (first - 1 + n) % (2 ^ 64 - 1)

lemma generationAt_zero {first : ℕ} (hpos : 0 < first) (hlt : first < 2 ^ 64) :
    generationAt first 0 = first := by
  rw [generationAt]
  omega

lemma generationAt_add (first n m : ℕ) :
    generationAt (generationAt first n) m = generationAt first (n + m) := by
  rw [generationAt, generationAt, generationAt]
  omega

lemma generationAt_ne {first n m : ℕ} (hlt : n < m) (hround : m < n + (2 ^ 64 - 1)) :
    generationAt first n ≠ generationAt first m := by
  rw [generationAt, generationAt]
  omega

namespace CircuitBreaker

variable {b t : CircuitBreaker} {e i : TimePoint}

lemma advanceGeneration_eq {first n : ℕ} (h : b.generation = generationAt first n) :
    b.advanceGeneration.generation = generationAt first (n + 1) := by
  have hlt : b.generation < 2 ^ 64 := by
    rw [h, generationAt]
    omega
  rw [generation_advanceGeneration hlt, h, generationAt, generationAt]
  split <;> omega

lemma advanceGeneration_pos (b : CircuitBreaker) : 0 < b.advanceGeneration.generation := by
  rw [advanceGeneration]
  dsimp only
  split
  · next hwrap =>
    rw [hwrap]
    decide
  · next hne => exact Nat.pos_of_ne_zero hne

lemma generation_select (b : CircuitBreaker) (now : TimePoint) :
    (b.select now).2.generation = (b.select now).1.generation := by
  rw [select]
  split
  · rfl
  · split <;> rfl
  · split <;> rfl

lemma generation_permits (b : CircuitBreaker) (c : BreakerCall) :
    ∀ p ∈ b.permits c, p.generation = (b.call c).generation := by
  cases c with
  | select now =>
    intro p hp
    rw [mem_singleton.mp hp]
    exact b.generation_select now
  | record now permit success => nofun
  | freshCycle =>
    intro p hp
    obtain ⟨id, -, rfl⟩ := mem_map.mp hp
    rfl

lemma record_of_stale {permit : RequestPermit} (h : permit.generation ≠ b.generation)
    (now : TimePoint) (success : Bool) : b.record now permit success = b.advanceTo now := by
  have hcases := recorded b now permit success
  generalize b.record now permit success = r at hcases ⊢
  cases hcases with
  | ignored => rfl
  | counted hacc | succeeded hacc | completed hacc | failed hacc => exact absurd hacc.1 h

lemma probeRange_eq_range' {base n : ℕ} (h : base + n ≤ 2 ^ 64) :
    probeRange base n = range' base n := by
  induction n generalizing base with
  | zero => rfl
  | succ n ih =>
    rw [probeRange, range'_succ]
    cases n with
    | zero => rfl
    | succ n =>
      have hnext : incW 64 base = base + 1 := by
        rw [incW]
        omega
      rw [hnext, ih (by omega)]

/-! ## What a migration keeps -/

/-- What the importing breaker `m.1`, and the cycle `m.2` the import returns, keep of a breaker
that was exported at `e` and imported at `i`. -/
structure Carried (b : CircuitBreaker) (e i : TimePoint)
    (m : CircuitBreaker × Option HalfOpenCycle) : Prop where
  closed : b.state = .closed → m.1.state = .closed ∧ m.1.aggregate i = b.aggregate e ∧
    ∀ g, g 0 0 = 0 → m.1.total i g = b.total e g
  opened : b.state = .opened → e < b.openUntil →
    m.2 = none ∧ ∀ now, i ≤ now → (m.1.refusesSelection now ↔ now < i + (b.openUntil - e))
  halfOpen : b.state = .halfOpen ∨ b.state = .opened ∧ b.openUntil ≤ e →
    m.1.state = .halfOpen ∧ m.1.halfOpenIssued = b.config.halfOpenProbes ∧
      ∃ cycle, m.2 = some cycle ∧ cycle.generation = m.1.generation ∧
        cycle.quota = b.config.halfOpenProbes ∧
        m.1.pendingProbes = range' cycle.probeBase cycle.quota

lemma importSnapshot_fresh {snapshot : CircuitBreakerSnapshot} (hopen : snapshot.state ≠ .closed)
    (helapsed : ¬(snapshot.state = .opened ∧ 0 < snapshot.openRemaining)) :
    t.importSnapshot snapshot i = ((t.importBase snapshot i).beginFreshHalfOpenCycle.1,
        some (t.importBase snapshot i).beginFreshHalfOpenCycle.2) := by
  rw [importSnapshot]
  split
  · next hclosed => exact absurd hclosed hopen
  · rw [if_neg helapsed]

lemma carried_importSnapshot {clock : TimePoint} (h : Laid b clock) (hle : clock ≤ e)
    (hconfig : t.config = b.config)
    (hzero : ∀ j < kBucketCount, (b.buckets j).start = 0 → b.buckets j = {}) :
    Carried b e i (t.importSnapshot (b.exportSnapshot e) i) := by
  refine ⟨fun hclosed => ?_, fun hopened hlt => ?_, fun hhalf => ?_⟩
  · have htotal (g : ℕ → ℕ → ℕ) (hg : g 0 0 = 0) :=
      h.total_transfer (i := i) hclosed hconfig hle hzero hg
    refine ⟨state_importSnapshot hclosed e i, ?_, htotal⟩
    rw [aggregate_eq, aggregate_eq, htotal _ rfl, htotal _ rfl]
  · have hstate : (b.exportSnapshot e).state = .opened := by rw [exportSnapshot, hopened]
    have hremaining : (b.exportSnapshot e).openRemaining = b.openUntil - e := by
      rw [exportSnapshot, hopened]
      exact if_pos hlt
    have hpos : 0 < b.openUntil - e := sub_pos.mpr hlt
    rw [importSnapshot, hstate, hremaining]
    rw [if_pos ⟨rfl, hpos⟩]
    refine ⟨rfl, fun now _ => ?_⟩
    rw [refusesSelection]
    exact decide_eq_true_iff
  have hopen : (b.exportSnapshot e).state ≠ .closed := by
    rcases hhalf with hhalf | ⟨hopened, -⟩
    · rw [exportSnapshot, hhalf]
      simp
    · rw [exportSnapshot, hopened]
      simp
  have helapsed : ¬((b.exportSnapshot e).state = .opened ∧
      0 < (b.exportSnapshot e).openRemaining) := by
    rcases hhalf with hhalf | ⟨hopened, hle⟩
    · rw [exportSnapshot, hhalf]
      simp
    · rw [exportSnapshot, hopened]
      rw [if_neg (not_lt.mpr hle)]
      exact fun hpos => lt_irrefl _ hpos.2
  rw [importSnapshot_fresh hopen helapsed]
  have hquota : t.config.halfOpenProbes < 2 ^ 32 := t.valid.2.2.2.2.2.2
  refine ⟨rfl, ?_, _, rfl, rfl, ?_, ?_⟩
  · rw [← hconfig]
    rfl
  · rw [← hconfig]
    rfl
  · have hrange : probeRange 1 t.config.halfOpenProbes =
        range' 1 t.config.halfOpenProbes := probeRange_eq_range' (by omega)
    exact hrange

lemma generation_importSnapshot {first n : ℕ} (h : b.generation = generationAt first n) :
    ∃ d, 0 < d ∧ d ≤ 2 ∧ (t.importSnapshot (b.exportSnapshot e) i).1.generation =
      generationAt first (n + d) := by
  have hsource : (b.exportSnapshot e).sourceGeneration = b.generation := by
    rw [exportSnapshot]
    split <;> rfl
  have hbase : (t.importBase (b.exportSnapshot e) i).generation = generationAt first (n + 1) :=
    advanceGeneration_eq (hsource.trans h)
  rw [importSnapshot]
  split
  · exact ⟨1, by decide, by decide, (foldl_importBucket_same _ _ _).generation.trans hbase⟩
  · split
    · exact ⟨1, by decide, by decide, hbase⟩
    · exact ⟨2, by decide, le_rfl, advanceGeneration_eq hbase⟩

end CircuitBreaker

/-! ## Histories -/

namespace BreakerHistory

def step (s : BreakerHistory) (c : BreakerCall) : Option BreakerHistory :=
  if c.time s.clock < s.clock then none else some
    { breaker := s.breaker.call c
      clock := c.time s.clock
      changes := if (s.breaker.call c).generation = s.breaker.generation then s.changes
        else s.changes + 1
      permits := s.permits ++ s.breaker.permits c }

/-- A breaker when it was made; an import may have begun a cycle. -/
def start (b : CircuitBreaker) : BreakerHistory where
  breaker := b
  clock := b.epoch
  permits := b.pendingProbes.map fun id => ⟨.probe, b.generation, id⟩

structure Inv (first : ℕ) (s : BreakerHistory) : Prop where
  laid : s.breaker.Laid s.clock
  generation : s.breaker.generation = generationAt first s.changes
  issued : ∀ p ∈ s.permits, ∃ n ≤ s.changes, p.generation = generationAt first n

variable {s s' u : BreakerHistory} {first : ℕ}

lemma Inv.step (h : Inv first s) {c : BreakerCall} (hs : s.step c = some s') : Inv first s' := by
  rw [BreakerHistory.step] at hs
  obtain ⟨htime, ⟨⟩⟩ := Option.ite_none_left_eq_some.mp hs
  have hlaid := h.laid.call (not_lt.mp htime)
  -- The generation is the one before, or the next.
  have hgen : (s.breaker.call c).generation = generationAt first
      (if (s.breaker.call c).generation = s.breaker.generation then s.changes
        else s.changes + 1) := by
    split
    · next heq => rw [heq, h.generation]
    · next hne =>
      rcases s.breaker.call_generation c with ⟨heq, -⟩ | hadvance
      · exact absurd heq hne
      · rw [hadvance]
        exact advanceGeneration_eq h.generation
  refine ⟨hlaid, hgen, fun p hp => ?_⟩
  rcases mem_append.mp hp with hp | hp
  · obtain ⟨n, hn, heq⟩ := h.issued p hp
    refine ⟨n, ?_, heq⟩
    dsimp only
    split <;> omega
  · exact ⟨_, le_rfl, (s.breaker.generation_permits c p hp).trans hgen⟩

lemma inv_start {b : CircuitBreaker} (hb : BreakerRun.Starts b) : Inv b.generation (start b) := by
  have hlaid : b.Laid b.epoch := by
    cases hb with
    | fresh h => exact laid_create h
    | imported b snapshot now =>
      obtain ⟨hlaid, hepoch⟩ := laid_importSnapshot b snapshot now
      rwa [hepoch]
  have hgen : 0 < b.generation ∧ b.generation < 2 ^ 64 := by
    refine ⟨?_, (BreakerRun.inv_start hb).width⟩
    cases hb with
    | fresh h =>
      obtain ⟨-, rfl⟩ := create_some h
      exact Nat.one_pos
    | imported b snapshot now =>
      have hbase : 0 < (b.importBase snapshot now).generation :=
        advanceGeneration_pos _
      rw [importSnapshot]
      split
      · rwa [(foldl_importBucket_same _ _ _).generation]
      · split
        · exact hbase
        · exact advanceGeneration_pos _
  have hzero := (generationAt_zero hgen.1 hgen.2).symm
  refine ⟨hlaid, hzero, fun p hp => ⟨0, le_rfl, ?_⟩⟩
  obtain ⟨id, -, rfl⟩ := mem_map.mp hp
  exact hzero

/-- **Migration keeps the protection.** However the source was used, the breaker that imports
its export is closed with the same totals, refuses selections for the same time, or runs the
fresh cycle that the import returns. As long as the generations have not gone round, it and
whatever becomes of it have another generation than every permit of the source. -/
theorem migration_protects {b : CircuitBreaker} (hb : BreakerRun.Starts b) {cs : List BreakerCall}
    (hrun : run BreakerHistory.step (start b) cs = some s) {e : TimePoint} (he : s.clock ≤ e)
    (hzero : ∀ j < kBucketCount, (s.breaker.buckets j).start = 0 → s.breaker.buckets j = {})
    {built : TimePoint} {t : CircuitBreaker}
    (ht : create s.breaker.config built = some t) (i : TimePoint) :
    s.breaker.Carried e i (t.importSnapshot (s.breaker.exportSnapshot e) i) ∧
    ∀ ds u, run BreakerHistory.step
        (start (t.importSnapshot (s.breaker.exportSnapshot e) i).1) ds = some u →
      s.changes + u.changes < 2 ^ 64 - 3 →
      ∀ p ∈ s.permits, p.generation ≠ u.breaker.generation ∧
        ∀ now success, u.breaker.record now p success = u.breaker.advanceTo now := by
  have h : Inv b.generation s :=
    run_invariant (fun s c s' (hs : Inv b.generation s) hstep => hs.step hstep) (inv_start hb) hrun
  have hconfig : t.config = s.breaker.config := by
    obtain ⟨-, rfl⟩ := create_some ht
    rfl
  refine ⟨carried_importSnapshot h.laid he hconfig hzero,
    fun ds u hu hround p hp => ?_⟩
  obtain ⟨d, hpos, hle, hgen⟩ :=
    generation_importSnapshot (t := t) (e := e) (i := i) h.generation
  have hlater : Inv (t.importSnapshot (s.breaker.exportSnapshot e) i).1.generation u :=
    run_invariant (fun v c v' (hv : Inv _ v) hstep => hv.step hstep)
      (inv_start (.imported t (s.breaker.exportSnapshot e) i)) hu
  obtain ⟨n, hn, hpermit⟩ := h.issued p hp
  have hne : p.generation ≠ u.breaker.generation := by
    rw [hpermit, hlater.generation, hgen, generationAt_add]
    exact generationAt_ne (by omega) (by omega)
  exact ⟨hne, fun now success => record_of_stale hne now success⟩

/-- A policy with a window of a millisecond and one probe. -/
def oneProbe : CircuitBreakerConfig where
  window := 1
  minRequests := 4
  failureThresholdPermille := 500
  openDuration := 1
  halfOpenProbes := 1

/-- A success and, two widths later, a failure; the export comes half a width after it, and
the import later still. -/
theorem migration_protects_twoOutcomes : ∃ b s t,
    create oneProbe 7 = some b ∧ create oneProbe 7 = some t ∧
      run BreakerHistory.step (start b) [.select 7, .record 9 ⟨.allowed, 1, 0⟩ true,
        .record 200010 ⟨.allowed, 1, 0⟩ false] = some s ∧
      (t.importSnapshot (s.breaker.exportSnapshot 250000) 300000).1.aggregate 300000 = (1, 1) ∧
      ⟨.allowed, 1, 0⟩ ∈ s.permits ∧
      (t.importSnapshot (s.breaker.exportSnapshot 250000) 300000).1.generation ≠ 1 := by
  obtain ⟨b, hb⟩ : ∃ b, create oneProbe 7 = some b := ⟨_, rfl⟩
  obtain ⟨s, hs⟩ : ∃ s, run BreakerHistory.step (start b) [.select 7,
      .record 9 ⟨.allowed, 1, 0⟩ true, .record 200010 ⟨.allowed, 1, 0⟩ false] = some s := by
    cases hb
    exact ⟨_, rfl⟩
  have hfacts : s.clock ≤ 250000 ∧ s.changes = 0 ∧ s.breaker.state = .closed ∧
      s.breaker.config = oneProbe ∧ s.breaker.aggregate 250000 = (1, 1) ∧
      ⟨.allowed, 1, 0⟩ ∈ s.permits ∧
      ∀ j < kBucketCount, (s.breaker.buckets j).start = 0 → s.breaker.buckets j = {} := by
    cases hb
    cases hs
    exact ⟨by decide, rfl, rfl, rfl, by decide, by decide, by decide⟩
  obtain ⟨hclock, hchanges, hclosed, hconfig, htotal, hpermit, hzero⟩ := hfacts
  have ht : create s.breaker.config 7 = some b := hconfig ▸ hb
  obtain ⟨hcarried, hstale⟩ := migration_protects (.fresh hb) hs hclock hzero ht 300000
  refine ⟨b, s, b, hb, hb, hs, (hcarried.closed hclosed).2.1.trans htotal, hpermit, ?_⟩
  have hround : s.changes + 0 < 2 ^ 64 - 3 := by
    rw [hchanges]
    decide
  exact (hstale [] _ rfl hround _ hpermit).1.symm

lemma step_freshCycle (h : s.breaker.generation < 2 ^ 64) : s.step .freshCycle = some
      { breaker := s.breaker.call .freshCycle
        clock := s.clock
        changes := s.changes + 1
        permits := s.permits ++ s.breaker.permits .freshCycle } := by
  have hchange : (s.breaker.call .freshCycle).generation ≠ s.breaker.generation :=
    advanceGeneration_ne h
  rw [step, BreakerCall.time, if_neg (lt_irrefl _), if_neg hchange]

lemma run_freshCycle (n : ℕ) (h : s.breaker.generation < 2 ^ 64) :
    ∃ s', run BreakerHistory.step s (replicate n .freshCycle) = some s' ∧
      s'.changes = s.changes + n ∧ s'.clock = s.clock ∧ s'.breaker.config = s.breaker.config ∧
      s'.breaker.buckets = s.breaker.buckets ∧ (∀ p ∈ s.permits, p ∈ s'.permits) ∧
      (s.breaker.state = .halfOpen → s'.breaker.state = .halfOpen) := by
  induction n generalizing s with
  | zero => exact ⟨s, rfl, rfl, rfl, rfl, rfl, fun _ hp => hp, id⟩
  | succ n ih =>
    obtain ⟨s', hrun, hchanges, hclock, hconfig, hbuckets, hpermits, hstate⟩ :=
      ih (s := { breaker := s.breaker.call .freshCycle
                 clock := s.clock
                 changes := s.changes + 1
                 permits := s.permits ++ s.breaker.permits .freshCycle })
        (advanceGeneration_lt _)
    refine ⟨s', ?_, ?_, hclock, hconfig, hbuckets, fun p hp => ?_, fun _ => hstate rfl⟩
    · rw [replicate_succ, run_cons, step_freshCycle h]
      exact hrun
    · rw [hchanges, Nat.add_assoc, Nat.add_comm 1]
    · exact hpermits p (mem_append_left _ hp)

lemma reopens_of_round {n : ℕ} (hn : n + 3 = 2 ^ 64) : ∃ b s t, create oneProbe 7 = some b ∧
      run BreakerHistory.step (start b) (.freshCycle :: replicate n .freshCycle) = some s ∧
      s.clock ≤ 7 ∧
      (∀ j < kBucketCount, (s.breaker.buckets j).start = 0 → s.breaker.buckets j = {}) ∧
      create s.breaker.config 7 = some t ∧
      ∃ p ∈ s.permits,
        p.generation = (t.importSnapshot (s.breaker.exportSnapshot 7) 7).1.generation ∧
        ((t.importSnapshot (s.breaker.exportSnapshot 7) 7).1.record 7 p false).state = .opened := by
  obtain ⟨b, hb⟩ : ∃ b, create oneProbe 7 = some b := ⟨_, rfl⟩
  have hgen : b.generation = 1 := by
    cases hb
    rfl
  obtain ⟨s₁, hs₁⟩ : ∃ s₁, (start b).step .freshCycle = some s₁ :=
    ⟨_, step_freshCycle (by rw [start, hgen]; decide)⟩
  have hfirst : s₁.changes = 1 ∧ s₁.clock = 7 ∧ s₁.breaker.config = oneProbe ∧
      s₁.breaker.generation < 2 ^ 64 ∧ s₁.breaker.buckets = (fun _ => {}) ∧
      s₁.breaker.state = .halfOpen ∧ ⟨.probe, 2, 1⟩ ∈ s₁.permits := by
    cases hb
    cases hs₁
    exact ⟨rfl, rfl, rfl, by decide, rfl, rfl, by decide⟩
  obtain ⟨hchanges₁, hclock₁, hconfig₁, hlt₁, hbuckets₁, hstate₁, hpermit₁⟩ := hfirst
  obtain ⟨s, hs, hchanges, hclock, hconfig, hbuckets, hpermits, hstate⟩ := run_freshCycle n hlt₁
  have hrun : run BreakerHistory.step (start b) (.freshCycle :: replicate n .freshCycle) =
      some s := by
    rw [run_cons, hs₁]
    exact hs
  have hinv : Inv b.generation s :=
    run_invariant (fun s c s' (hs : Inv b.generation s) hstep => hs.step hstep)
      (inv_start (.fresh hb)) hrun
  have hhalf := hstate hstate₁
  have ht : create s.breaker.config 7 = some b := by
    rw [hconfig, hconfig₁]
    exact hb
  have hopen : (s.breaker.exportSnapshot 7).state = .halfOpen := by
    rw [exportSnapshot, hhalf]
  have hsource : (s.breaker.exportSnapshot 7).sourceGeneration = s.breaker.generation := by
    rw [exportSnapshot, hhalf]
  have hfresh : b.importSnapshot (s.breaker.exportSnapshot 7) 7 =
      ((b.importBase (s.breaker.exportSnapshot 7) 7).beginFreshHalfOpenCycle.1,
        some (b.importBase (s.breaker.exportSnapshot 7) 7).beginFreshHalfOpenCycle.2) :=
    importSnapshot_fresh (by rw [hopen]; simp) (by rw [hopen]; simp)
  have hround : (b.importSnapshot (s.breaker.exportSnapshot 7) 7).1.generation = 2 := by
    rw [hfresh]
    refine (advanceGeneration_eq (advanceGeneration_eq
      (hsource.trans hinv.generation))).trans ?_
    rw [hgen, generationAt, hchanges, hchanges₁]
    omega
  refine ⟨b, s, b, hb, hrun, by rw [hclock, hclock₁], fun j _ _ => ?_, ht, _,
    hpermits _ hpermit₁, hround.symm, ?_⟩
  · rw [hbuckets, hbuckets₁]
  · refine (record_of_trips ⟨hround.symm, ?_⟩).1
    rw [hfresh]
    refine ⟨rfl, rfl, ?_⟩
    cases hb
    exact mem_cons_self

/-- The counterpart without a bound: the failure of an old probe opens the importing breaker. -/
theorem stale_permit_reopens : ∃ b s t, create oneProbe 7 = some b ∧
      run BreakerHistory.step (start b)
        (.freshCycle :: replicate (2 ^ 64 - 3) .freshCycle) = some s ∧ s.clock ≤ 7 ∧
      (∀ j < kBucketCount, (s.breaker.buckets j).start = 0 → s.breaker.buckets j = {}) ∧
      create s.breaker.config 7 = some t ∧
      ∃ p ∈ s.permits,
        p.generation = (t.importSnapshot (s.breaker.exportSnapshot 7) 7).1.generation ∧
        ((t.importSnapshot (s.breaker.exportSnapshot 7) 7).1.record 7 p false).state = .opened :=
  reopens_of_round (by decide)

end BreakerHistory
end AegisGate.Resilience
