import AegisGate.Lib.Transition
import AegisGate.Resilience.HalfOpen

/-!
# The state machine of a breaker

Permits outlive the epoch that issued them, and outcomes arrive late, twice and in any order.
A `BreakerRun` is a breaker with a record of its current cycle that the breaker does not keep:
the probes that were issued, and those that were reported once, as a success or as a failure.
The record is made from the calls and the permits they return alone, so that what the breaker
does can be compared with it.
-/

namespace AegisGate.Resilience
open Lib CircuitBreaker List

/-- The calls that change a breaker. -/
inductive BreakerCall
  | select (now : TimePoint)
  | record (now : TimePoint) (permit : RequestPermit) (success : Bool)
  | freshCycle
  deriving DecidableEq

namespace CircuitBreaker

section
variable (b : CircuitBreaker)

def call : BreakerCall → CircuitBreaker
  | .select now => (b.select now).1
  | .record now permit success => b.record now permit success
  | .freshCycle => b.beginFreshHalfOpenCycle.1

/-- The probes a call hands out. -/
def issues : BreakerCall → List ℕ
  | .select now =>
    if (b.select now).2.selection = .probe then [(b.select now).2.probeId] else []
  | .record _ _ _ => []
  | .freshCycle =>
    probeRange b.beginFreshHalfOpenCycle.2.probeBase b.beginFreshHalfOpenCycle.2.quota

/-! ## Selections -/

/-- The breaker after one more probe of the cycle was issued. -/
def withProbe (now : TimePoint) : CircuitBreaker :=
  { b.advanceTo now with
    halfOpenIssued := incW 32 b.halfOpenIssued
    pendingProbes := b.pendingProbes ++ [b.nextProbeId]
    nextProbeId := incW 64 b.nextProbeId }

/-- How `Select` ends. -/
inductive Selected (b : CircuitBreaker) (now : TimePoint) : CircuitBreaker → RequestPermit → Prop
  | kept {permit : RequestPermit} (h : permit.selection ≠ .probe) :
      Selected b now (b.advanceTo now) permit
  | begun (h : b.state = .opened) : Selected b now (b.advanceTo now).beginHalfOpen
        ⟨.probe, (b.advanceTo now).beginHalfOpen.generation, b.nextProbeId⟩
  | issued (h : b.state = .halfOpen) (hquota : b.halfOpenIssued < b.config.halfOpenProbes) :
      Selected b now (b.withProbe now) ⟨.probe, b.generation, b.nextProbeId⟩

/-- **The cases of a selection.** -/
theorem selected (now : TimePoint) : Selected b now (b.select now).1 (b.select now).2 := by
  have ha := advanceTo_same b now
  cases hst : b.state with
  | closed =>
    rw [select, ha.state.trans hst]
    exact .kept (by simp)
  | opened =>
    rw [select, ha.state.trans hst]
    dsimp only
    split
    · exact .kept (by simp)
    · rw [ha.nextProbeId]
      exact .begun hst
  | halfOpen =>
    have hs : (b.advanceTo now).state = .halfOpen := ha.state.trans hst
    by_cases hquota : b.halfOpenIssued < b.config.halfOpenProbes
    · have hsel : b.select now = (b.withProbe now, ⟨.probe, b.generation, b.nextProbeId⟩) := by
        simp [select, hs, ha.halfOpenIssued, ha.config, hquota, withProbe, ha.pendingProbes,
          ha.nextProbeId, ha.generation]
      rw [hsel]
      exact .issued hst hquota
    · have hsel : b.select now = (b.advanceTo now, ⟨.rejectedHalfOpenQuota, b.generation, 0⟩) := by
        simp [select, hs, ha.halfOpenIssued, ha.config, hquota, ha.generation]
      rw [hsel]
      exact .kept (by simp)

/-! ## Generations -/

lemma generation_advanceGeneration {b : CircuitBreaker} (h : b.generation < 2 ^ 64) :
    b.advanceGeneration.generation = if b.generation + 1 = 2 ^ 64 then 1 else b.generation + 1 := by
  rw [advanceGeneration]
  dsimp only
  rw [incW, incW]
  by_cases hwrap : b.generation + 1 = 2 ^ 64
  · rw [if_pos hwrap, hwrap]
    decide
  · rw [if_neg hwrap, Nat.mod_eq_of_lt (by omega), if_neg (by omega)]

lemma advanceGeneration_ne {b : CircuitBreaker} (h : b.generation < 2 ^ 64) :
    b.advanceGeneration.generation ≠ b.generation := by
  rw [generation_advanceGeneration h]
  split <;> omega

lemma advanceGeneration_lt : b.advanceGeneration.generation < 2 ^ 64 := by
  rw [advanceGeneration]
  split <;> exact Nat.mod_lt _ (by decide)

lemma advanceGeneration_congr {a b : CircuitBreaker} (h : a.generation = b.generation) :
    a.advanceGeneration.generation = b.advanceGeneration.generation := by
  rw [advanceGeneration, advanceGeneration, h]

lemma call_generation (c : BreakerCall) :
    (b.call c).generation = b.generation ∧ (b.call c).state = b.state ∨
      (b.call c).generation = b.advanceGeneration.generation := by
  cases c with
  | select now =>
    have ha := advanceTo_same b now
    have hcases := selected b now
    rw [call]
    generalize (b.select now).1 = r, (b.select now).2 = permit at hcases ⊢
    cases hcases with
    | kept | issued => exact .inl ⟨ha.generation, ha.state⟩
    | begun => exact .inr (advanceGeneration_congr ha.generation)
  | record now permit success =>
    have ha := advanceTo_same b now
    have hcases := recorded b now permit success
    rw [call]
    generalize b.record now permit success = r at hcases ⊢
    cases hcases with
    | ignored | succeeded => exact .inl ⟨ha.generation, ha.state⟩
    | counted =>
      rw [evaluate]
      split
      · exact .inr (advanceGeneration_congr ha.generation)
      · exact .inl ⟨ha.generation, ha.state⟩
    | completed | failed => exact .inr (advanceGeneration_congr ha.generation)
  | freshCycle => exact .inr rfl

end

lemma probeRange_succ {base : ℕ} (hbase : base < 2 ^ 64) (n : ℕ) :
    probeRange base (n + 1) = probeRange base n ++ [(base + n) % 2 ^ 64] := by
  induction n generalizing base with
  | zero =>
    rw [probeRange, probeRange, probeRange, Nat.add_zero, Nat.mod_eq_of_lt hbase]
    rfl
  | succ n ih =>
    have hnext : incW 64 base < 2 ^ 64 := Nat.mod_lt _ (by decide)
    have hlast : (incW 64 base + n) % 2 ^ 64 = (base + (n + 1)) % 2 ^ 64 := by
      rw [incW]
      omega
    rw [probeRange, ih hnext, hlast]
    rfl

lemma length_probeRange (base n : ℕ) : (probeRange base n).length = n := by
  induction n generalizing base with
  | zero => rfl
  | succ n ih => rw [probeRange, length_cons, ih]

end CircuitBreaker

/-! ## The record of a cycle -/

/-- A breaker with the number of generations and probes up to now, the probes issued in the
current generation and those it has heard of. -/
structure BreakerRun where
  breaker : CircuitBreaker
  generations : ℕ
  probes : ℕ
  issued : List ℕ := []
  succeeded : List ℕ := []
  failed : List ℕ := []

namespace BreakerRun

/-- The first outcome of a probe of the current cycle. -/
def Decides (s : BreakerRun) (permit : RequestPermit) : Prop :=
  permit.generation = s.breaker.generation ∧ permit.selection = .probe ∧
    permit.probeId ∈ s.issued ∧ permit.probeId ∉ s.succeeded ∧ permit.probeId ∉ s.failed

instance (s : BreakerRun) (permit : RequestPermit) : Decidable (s.Decides permit) :=
  inferInstanceAs (Decidable (_ ∧ _ ∧ _ ∧ _ ∧ _))

/-- The probes of the cycle that have succeeded, with this call. -/
def succeededWith (s : BreakerRun) : BreakerCall → List ℕ
  | .record _ permit true =>
    if s.Decides permit then s.succeeded ++ [permit.probeId] else s.succeeded
  | _ => s.succeeded

/-- The probes of the cycle that have failed, with this call. -/
def failedWith (s : BreakerRun) : BreakerCall → List ℕ
  | .record _ permit false => if s.Decides permit then s.failed ++ [permit.probeId] else s.failed
  | _ => s.failed

/-- One call. A new generation starts a new record. -/
def step (s : BreakerRun) (c : BreakerCall) : Option BreakerRun :=
  let breaker := s.breaker.call c
  let issued := s.breaker.issues c
  let probes := s.probes + issued.length
  if breaker.generation = s.breaker.generation then
    some { breaker, generations := s.generations, probes, issued := s.issued ++ issued
           succeeded := s.succeededWith c, failed := s.failedWith c }
  else some { breaker, generations := s.generations + 1, probes, issued }

/-- How a run begins: with a fresh breaker, or with the import of any snapshot. -/
inductive Starts : CircuitBreaker → Prop
  | fresh {config : CircuitBreakerConfig} {now : TimePoint} {b : CircuitBreaker}
      (h : create config now = some b) : Starts b
  | imported (b : CircuitBreaker) (snapshot : CircuitBreakerSnapshot) (now : TimePoint) :
      Starts (b.importSnapshot snapshot now).1

def start (b : CircuitBreaker) : BreakerRun where
  breaker := b
  generations := b.generation
  probes := b.nextProbeId - 1
  issued := b.pendingProbes

/-- The cycle of a half-open breaker, against its record. -/
structure Cycle (s : BreakerRun) : Prop where
  range : ∃ base, base + s.issued.length = s.probes + 1 ∧
    s.issued = probeRange (base % 2 ^ 64) s.issued.length
  bound : s.issued.length ≤ s.breaker.config.halfOpenProbes
  issued : s.breaker.halfOpenIssued = s.issued.length
  reported : ∀ id ∈ s.succeeded, id ∈ s.issued
  pending : s.breaker.pendingProbes = s.issued.filter (· ∉ s.succeeded)
  total : s.breaker.pendingProbes.length + s.succeeded.length = s.issued.length
  completed : s.breaker.halfOpenCompleted = s.succeeded.length
  unfinished : s.succeeded.length < s.breaker.config.halfOpenProbes
  unfailed : s.failed = []

/-- The probes of a breaker, against its record. -/
structure Protects (s : BreakerRun) : Prop where
  next : s.breaker.nextProbeId = (s.probes + 1) % 2 ^ 64
  idle : s.breaker.state ≠ .halfOpen → s.breaker.pendingProbes = []
  cycle : s.breaker.state = .halfOpen → Cycle s

structure Inv (s : BreakerRun) : Prop extends Protects s where
  width : s.breaker.generation < 2 ^ 64
  generation : s.generations < 2 ^ 64 → s.breaker.generation = s.generations

variable {s t : BreakerRun} {c : BreakerCall}

lemma Cycle.nodup_issued (h : Cycle s) : s.issued.Nodup := by
  obtain ⟨base, -, hrange⟩ := h.range
  rw [hrange]
  have hquota := s.breaker.valid.2.2.2.2.2.2
  have hbound := h.bound
  exact nodup_probeRange (Nat.mod_lt _ (by decide)) (by omega)

lemma Cycle.accepts_iff (h : Cycle s) (hstate : s.breaker.state = .halfOpen)
    (permit : RequestPermit) : s.breaker.Accepts permit ↔ s.Decides permit := by
  rw [CircuitBreaker.Accepts, hstate, Decides, h.pending, h.unfailed]
  simp

/-! ## One call -/

lemma step_kept (h : (s.breaker.call c).generation = s.breaker.generation) : s.step c = some
      { breaker := s.breaker.call c
        generations := s.generations
        probes := s.probes + (s.breaker.issues c).length
        issued := s.issued ++ s.breaker.issues c
        succeeded := s.succeededWith c
        failed := s.failedWith c } :=
  if_pos h

lemma step_advanced (hwidth : s.breaker.generation < 2 ^ 64)
    (h : (s.breaker.call c).generation = s.breaker.advanceGeneration.generation) :
    s.step c = some
      { breaker := s.breaker.call c
        generations := s.generations + 1
        probes := s.probes + (s.breaker.issues c).length
        issued := s.breaker.issues c } :=
  if_neg (h ▸ advanceGeneration_ne hwidth)

lemma Inv.generation_step (h : Inv s) (ht : s.step c = some t) :
    t.breaker.generation < 2 ^ 64 ∧
    (t.generations < 2 ^ 64 → t.breaker.generation = t.generations) ∧
      (t.generations < 2 ^ 64 → t.breaker.state ≠ s.breaker.state →
        s.breaker.generation < t.breaker.generation) := by
  rcases s.breaker.call_generation c with ⟨hgen, hstate⟩ | hgen
  · rw [step_kept hgen] at ht
    cases ht
    rw [hgen]
    exact ⟨h.width, h.generation, fun _ hne => absurd hstate hne⟩
  rw [step_advanced h.width hgen] at ht
  cases ht
  dsimp only
  rw [hgen]
  have hadvance : s.generations + 1 < 2 ^ 64 →
      s.breaker.advanceGeneration.generation = s.generations + 1 := by
    intro hlt
    have hcount := h.generation (by omega)
    rw [generation_advanceGeneration h.width, if_neg (by omega), hcount]
  refine ⟨advanceGeneration_lt _, hadvance, fun hlt _ => ?_⟩
  rw [hadvance hlt, h.generation (by omega)]
  omega

lemma Protects.same (h : Protects s) (hsame : t.breaker.SameProtection s.breaker)
    (hprobes : t.probes = s.probes)
    (hrecord : s.breaker.state = .halfOpen → t.issued = s.issued ∧ t.succeeded = s.succeeded ∧
      t.failed = s.failed) : Protects t := by
  refine ⟨?_, fun hstate => ?_, fun hstate => ?_⟩
  · rw [hsame.nextProbeId, hprobes, h.next]
  · rw [hsame.state] at hstate
    rw [hsame.pendingProbes, h.idle hstate]
  rw [hsame.state] at hstate
  have hcycle := h.cycle hstate
  obtain ⟨hissued, hsucceeded, hfailed⟩ := hrecord hstate
  refine ⟨?_, ?_, ?_, ?_, ?_, ?_, ?_, ?_, ?_⟩
  · rw [hissued, hprobes]
    exact hcycle.range
  · rw [hissued, hsame.config]
    exact hcycle.bound
  · rw [hissued, hsame.halfOpenIssued]
    exact hcycle.issued
  · rw [hissued, hsucceeded]
    exact hcycle.reported
  · rw [hissued, hsucceeded, hsame.pendingProbes]
    exact hcycle.pending
  · rw [hissued, hsucceeded, hsame.pendingProbes]
    exact hcycle.total
  · rw [hsucceeded, hsame.halfOpenCompleted]
    exact hcycle.completed
  · rw [hsucceeded, hsame.config]
    exact hcycle.unfinished
  · rw [hfailed]
    exact hcycle.unfailed

lemma Protects.of_idle (h : Protects s) (hstate : t.breaker.state ≠ .halfOpen)
    (hpending : t.breaker.pendingProbes = [])
    (hnext : t.breaker.nextProbeId = s.breaker.nextProbeId) (hprobes : t.probes = s.probes) :
    Protects t :=
  ⟨by rw [hnext, hprobes, h.next], fun _ => hpending, fun hhalf => absurd hhalf hstate⟩

/-- A call that begins a cycle with the next `n` probes. -/
lemma protects_of_begun {n : ℕ} (h : s.breaker.nextProbeId = (s.probes + 1) % 2 ^ 64)
    (hprobes : t.probes = s.probes + n)
    (hpos : 0 < t.breaker.config.halfOpenProbes) (hbound : n ≤ t.breaker.config.halfOpenProbes)
    (hissued : t.issued = probeRange s.breaker.nextProbeId n)
    (hcount : t.breaker.halfOpenIssued = n) (hpending : t.breaker.pendingProbes = t.issued)
    (hnext : t.breaker.nextProbeId = (s.breaker.nextProbeId + n) % 2 ^ 64)
    (hcompleted : t.breaker.halfOpenCompleted = 0) (hsucceeded : t.succeeded = [])
    (hfailed : t.failed = []) (hstate : t.breaker.state = .halfOpen) : Protects t := by
  have hlength : t.issued.length = n := by rw [hissued, length_probeRange]
  refine ⟨?_, fun hidle => absurd hstate hidle,
    fun _ => ⟨⟨s.probes + 1, ?_, ?_⟩, ?_, ?_, ?_, ?_, ?_, ?_, ?_, hfailed⟩⟩
  · rw [hnext, hprobes, h]
    omega
  · rw [hlength, hprobes]
    omega
  · rw [hlength, hissued, h]
  · rw [hlength]
    exact hbound
  · rw [hlength, hcount]
  · rw [hsucceeded]
    nofun
  · rw [hpending, hsucceeded]
    simp
  · rw [hpending, hsucceeded]
    rfl
  · rw [hcompleted, hsucceeded]
    rfl
  · rw [hsucceeded]
    exact hpos

lemma Protects.freshCycle (h : Protects s) (hwidth : s.breaker.generation < 2 ^ 64)
    (ht : s.step .freshCycle = some t) : Protects t := by
  rw [step_advanced hwidth rfl] at ht
  cases ht
  exact protects_of_begun h.next (congrArg _ (length_probeRange _ _))
    s.breaker.valid.2.2.2.2.2.1 le_rfl rfl rfl rfl rfl rfl rfl rfl rfl

lemma Protects.withProbe (h : Protects s) (hstate : s.breaker.state = .halfOpen)
    (hquota : s.breaker.halfOpenIssued < s.breaker.config.halfOpenProbes) (now : TimePoint) :
    Protects
      { s with
        breaker := s.breaker.withProbe now
        probes := s.probes + 1
        issued := s.issued ++ [s.breaker.nextProbeId] } := by
  have ha := s.breaker.advanceTo_same now
  have hcycle := h.cycle hstate
  obtain ⟨base, hbase, hrange⟩ := hcycle.range
  have hwidth := s.breaker.valid.2.2.2.2.2.2
  have hnew : s.breaker.nextProbeId = (base % 2 ^ 64 + s.issued.length) % 2 ^ 64 := by
    rw [h.next, ← hbase]
    omega
  have hissued : s.issued ++ [s.breaker.nextProbeId] =
      probeRange (base % 2 ^ 64) (s.issued.length + 1) := by
    rw [probeRange_succ (Nat.mod_lt _ (by decide)), ← hrange, hnew]
  have hlength : (s.issued ++ [s.breaker.nextProbeId]).length = s.issued.length + 1 :=
    length_append
  have hquota' : s.issued.length + 1 ≤ s.breaker.config.halfOpenProbes := by
    rw [← hcycle.issued]
    exact hquota
  -- The new probe is none of those that were issued, so it has not succeeded.
  have hfresh : s.breaker.nextProbeId ∉ s.succeeded := by
    intro hmem
    have hnodup : (probeRange (base % 2 ^ 64) (s.issued.length + 1)).Nodup :=
      nodup_probeRange (Nat.mod_lt _ (by decide)) (by omega)
    rw [← hissued, nodup_append] at hnodup
    exact hnodup.2.2 _ (hcycle.reported _ hmem) _ mem_cons_self rfl
  refine ⟨?_, fun hidle => absurd (ha.state.trans hstate) hidle, fun _ => ⟨⟨base, ?_, ?_⟩, ?_, ?_,
    fun id hid => ?_, ?_, ?_, ?_, ?_, hcycle.unfailed⟩⟩
  · change incW 64 s.breaker.nextProbeId = _
    rw [h.next, incW_mod]
  · rw [hlength]
    exact congrArg (· + 1) hbase
  · rw [hlength, hissued]
  · rw [hlength]
    exact (ha.config ▸ hquota' :)
  · rw [hlength]
    change incW 32 s.breaker.halfOpenIssued = _
    rw [incW, Nat.mod_eq_of_lt (by omega), hcycle.issued]
  · exact mem_append_left _ (hcycle.reported id hid)
  · change s.breaker.pendingProbes ++ [s.breaker.nextProbeId] = _
    rw [filter_append, ← hcycle.pending]
    simp [hfresh]
  · rw [hlength]
    change (s.breaker.pendingProbes ++ [s.breaker.nextProbeId]).length + _ = _
    rw [length_append]
    have htotal := hcycle.total
    simp
    omega
  · exact ha.halfOpenCompleted.trans hcycle.completed
  · exact (ha.config ▸ hcycle.unfinished :)

lemma Protects.withSuccess (h : Protects s) (hstate : s.breaker.state = .halfOpen) {id : ℕ}
    (hmem : id ∈ s.breaker.pendingProbes)
    (hquota : incW 32 s.breaker.halfOpenCompleted ≠ s.breaker.config.halfOpenProbes)
    (now : TimePoint) :
    Protects
      { s with breaker := s.breaker.withSuccess now id, succeeded := s.succeeded ++ [id] } := by
  have ha := s.breaker.advanceTo_same now
  have hcycle := h.cycle hstate
  have hnodup := hcycle.nodup_issued
  have hwidth := s.breaker.valid.2.2.2.2.2.2
  have hunfinished := hcycle.unfinished
  have hcount : incW 32 s.breaker.halfOpenCompleted = (s.succeeded ++ [id]).length := by
    rw [incW, hcycle.completed, Nat.mod_eq_of_lt (by omega), length_append, length_singleton]
  have hissued : id ∈ s.issued := by
    rw [hcycle.pending] at hmem
    exact (mem_filter.mp hmem).1
  refine ⟨ha.nextProbeId.trans h.next, fun hidle => absurd (ha.state.trans hstate) hidle,
    fun _ => ⟨hcycle.range, (ha.config ▸ hcycle.bound :), ha.halfOpenIssued.trans hcycle.issued,
      fun p hp => ?_, ?_, ?_, hcount, ?_, hcycle.unfailed⟩⟩
  · rcases mem_append.mp hp with hp | hp
    · exact hcycle.reported p hp
    · rw [mem_singleton.mp hp]
      exact hissued
  · change s.breaker.pendingProbes.erase id = _
    rw [hcycle.pending, (hnodup.filter _).erase_eq_filter, filter_filter]
    refine filter_congr fun p _ => ?_
    rw [Bool.eq_iff_iff]
    simp [and_comm]
  · change (s.breaker.pendingProbes.erase id).length + (s.succeeded ++ [id]).length =
      s.issued.length
    have hpos := length_pos_of_mem hmem
    have htotal := hcycle.total
    rw [length_erase_of_mem hmem, length_append, length_singleton]
    omega
  · change (s.succeeded ++ [id]).length < (s.breaker.advanceTo now).config.halfOpenProbes
    rw [hcount] at hquota
    rw [ha.config]
    rw [length_append, length_singleton] at hquota ⊢
    omega

lemma Protects.select (h : Protects s) (hwidth : s.breaker.generation < 2 ^ 64)
    {now : TimePoint} (ht : s.step (.select now) = some t) : Protects t := by
  have ha := s.breaker.advanceTo_same now
  have hcases := s.breaker.selected now
  have hcall : s.breaker.call (.select now) = (s.breaker.select now).1 := rfl
  have hissues : s.breaker.issues (.select now) =
    if (s.breaker.select now).2.selection = .probe then [(s.breaker.select now).2.probeId]
    else [] := rfl
  generalize (s.breaker.select now).1 = r, (s.breaker.select now).2 = permit at hcases hcall hissues
  cases hcases with
  | kept hselection =>
    rw [if_neg hselection] at hissues
    rw [step_kept (by rw [hcall, ha.generation]), hcall, hissues] at ht
    cases ht
    exact h.same ha rfl fun _ => ⟨append_nil _, rfl, rfl⟩
  | begun hopened =>
    rw [if_pos rfl] at hissues
    have hgen : (s.breaker.call (.select now)).generation =
        s.breaker.advanceGeneration.generation := by
      rw [hcall]
      exact advanceGeneration_congr ha.generation
    rw [step_advanced hwidth hgen, hcall, hissues] at ht
    cases ht
    have hvalid := ((s.breaker.advanceTo now).beginHalfOpen).valid.2.2.2.2.2.1
    refine protects_of_begun (n := 1) h.next rfl hvalid hvalid rfl rfl ?_ ?_ rfl rfl rfl rfl
    · exact congrArg (fun id => [id]) ha.nextProbeId
    · exact congrArg (incW 64) ha.nextProbeId
  | issued hhalf hquota =>
    rw [if_pos rfl] at hissues
    rw [step_kept (by rw [hcall]; exact ha.generation), hcall, hissues] at ht
    cases ht
    exact h.withProbe hhalf hquota now

lemma Protects.record (h : Protects s) (hwidth : s.breaker.generation < 2 ^ 64)
    {now : TimePoint} {permit : RequestPermit} {success : Bool}
    (ht : s.step (.record now permit success) = some t) : Protects t := by
  have ha := s.breaker.advanceTo_same now
  have hcases := s.breaker.recorded now permit success
  have hcall : s.breaker.call (.record now permit success) =
    s.breaker.record now permit success := rfl
  have hissues : s.breaker.issues (.record now permit success) = [] := rfl
  generalize s.breaker.record now permit success = r at hcases hcall
  cases hcases with
  | ignored hno =>
    rw [step_kept (by rw [hcall, ha.generation]), hcall, hissues] at ht
    cases ht
    refine h.same ha rfl fun hstate => ⟨append_nil _, ?_, ?_⟩
    · rw [(h.cycle hstate).accepts_iff hstate] at hno
      cases success <;> simp [succeededWith, hno]
    · rw [(h.cycle hstate).accepts_iff hstate] at hno
      cases success <;> simp [failedWith, hno]
  | counted hacc hstate =>
    have hpending : s.breaker.pendingProbes = [] := h.idle (by rw [hstate]; simp)
    have hclosed : ((s.breaker.advanceTo now).countOutcome success).state = .closed :=
      ha.state.trans hstate
    have hidle : (((s.breaker.advanceTo now).countOutcome success).evaluate now).state ≠
        .halfOpen := by
      rw [state_evaluate hclosed]
      split <;> simp
    have hnone : (((s.breaker.advanceTo now).countOutcome success).evaluate now).pendingProbes =
        [] := by
      rw [evaluate]
      split
      · rfl
      · exact ha.pendingProbes.trans hpending
    have hnext := (nextProbeId_evaluate
      ((s.breaker.advanceTo now).countOutcome success) now).trans ha.nextProbeId
    rcases s.breaker.call_generation (.record now permit success) with ⟨hgen, -⟩ | hgen
    · rw [step_kept hgen, hcall, hissues] at ht
      cases ht
      exact h.of_idle hidle hnone hnext rfl
    · rw [step_advanced hwidth hgen, hcall, hissues] at ht
      cases ht
      exact h.of_idle hidle hnone hnext rfl
  | succeeded hacc hstate hquota =>
    have hdecides := ((h.cycle hstate).accepts_iff hstate permit).mp hacc
    have hmem : permit.probeId ∈ s.breaker.pendingProbes := by
      rw [CircuitBreaker.Accepts, hstate] at hacc
      exact hacc.2.2
    have hsucceeded : s.succeededWith (.record now permit true) =
        s.succeeded ++ [permit.probeId] := if_pos hdecides
    rw [step_kept (by rw [hcall]; exact ha.generation), hcall, hissues, hsucceeded,
      append_nil] at ht
    cases ht
    exact h.withSuccess hstate hmem hquota now
  | completed | failed =>
    have hgen := congrArg generation hcall
    rw [step_advanced hwidth (hgen.trans (advanceGeneration_congr ha.generation)),
      hcall, hissues] at ht
    cases ht
    exact h.of_idle (by rintro ⟨⟩) rfl ha.nextProbeId rfl

lemma Inv.step (h : Inv s) (ht : s.step c = some t) : Inv t := by
  obtain ⟨hwidth, hgeneration, -⟩ := h.generation_step ht
  refine ⟨?_, hwidth, hgeneration⟩
  cases c with
  | select now => exact h.toProtects.select h.width ht
  | record now permit success => exact h.toProtects.record h.width ht
  | freshCycle => exact h.toProtects.freshCycle h.width ht

lemma inv_start {b : CircuitBreaker} (hb : Starts b) : Inv (start b) := by
  cases hb with
  | fresh h =>
    obtain ⟨-, rfl⟩ := create_some h
    exact ⟨⟨rfl, fun _ => rfl, by rintro ⟨⟩⟩, Nat.one_lt_two_pow (by decide), fun _ => rfl⟩
  | imported b snapshot now =>
    have hnext : (b.importBase snapshot now).nextProbeId = 1 := rfl
    have hgen : (b.importBase snapshot now).generation < 2 ^ 64 :=
      advanceGeneration_lt _
    rw [importSnapshot]
    split
    · have hsame := foldl_importBucket_same now
        { b.importBase snapshot now with state := .closed } snapshot.buckets
      generalize foldl _ _ snapshot.buckets = d at hsame ⊢
      refine ⟨⟨?_, fun _ => hsame.pendingProbes, fun hhalf => ?_⟩,
        hsame.generation.trans_lt hgen, fun _ => rfl⟩
      · change d.nextProbeId = (d.nextProbeId - 1 + 1) % 2 ^ 64
        rw [hsame.nextProbeId.trans hnext]
        rfl
      · cases hsame.state.symm.trans hhalf
    split
    · exact ⟨⟨rfl, fun _ => rfl, by rintro ⟨⟩⟩, hgen, fun _ => rfl⟩
    have hquota := b.valid.2.2.2.2.2
    refine ⟨?_, advanceGeneration_lt _, fun _ => rfl⟩
    refine protects_of_begun (s := ⟨b.importBase snapshot now, 0, 0, [], [], []⟩)
      (n := b.config.halfOpenProbes) rfl ?_ hquota.1 le_rfl rfl rfl rfl rfl rfl rfl rfl rfl
    change (1 + b.config.halfOpenProbes) % 2 ^ 64 - 1 = 0 + b.config.halfOpenProbes
    omega

/-! ## Whole runs -/

structure WellFormed (b : CircuitBreaker) : Prop where
  distinct : b.state = .halfOpen → b.pendingProbes.Nodup
  below : b.state = .halfOpen → ∀ id ∈ b.pendingProbes, id < b.nextProbeId
  total : b.state = .halfOpen → b.pendingProbes.length + b.halfOpenCompleted = b.halfOpenIssued
  quota : b.state = .halfOpen → b.halfOpenIssued ≤ b.config.halfOpenProbes
  idle : b.state ≠ .halfOpen → b.pendingProbes = []

/-- What one call may change. -/
structure Transition (s : BreakerRun) (c : BreakerCall) (t : BreakerRun) : Prop where
  increases : t.breaker.state ≠ s.breaker.state → s.breaker.generation < t.breaker.generation
  /-- Outcomes of another generation, of a probe that is not pending and, in a cycle, of an
  ordinary request move the statistics to the current time and do nothing else. -/
  ignores : ∀ now permit success, c = .record now permit success →
    permit.generation ≠ s.breaker.generation ∨
      permit.selection = .probe ∧ permit.probeId ∉ s.breaker.pendingProbes ∨
      s.breaker.state = .halfOpen ∧ permit.selection ≠ .probe →
    t.breaker = s.breaker.advanceTo now ∧ t.breaker.SameProtection s.breaker
  closes : s.breaker.state = .halfOpen → (t.breaker.state = .closed ↔
    (s.succeededWith c).length = s.breaker.config.halfOpenProbes ∧ s.failedWith c = [])
  reopens : s.breaker.state = .halfOpen → (t.breaker.state = .opened ↔ s.failedWith c ≠ [])
  stays : ∀ now permit success, c = .record now permit success →
    s.breaker.state = .opened → t.breaker.state = .opened

lemma step_breaker (ht : s.step c = some t) : t.breaker = s.breaker.call c := by
  rw [BreakerRun.step] at ht
  split at ht <;> cases ht <;> rfl

lemma Inv.wellFormed (h : Inv s) (hprobes : s.probes + 1 < 2 ^ 64) : WellFormed s.breaker := by
  refine ⟨fun hstate => ?_, fun hstate id hid => ?_, fun hstate => ?_, fun hstate => ?_, h.idle⟩
  · have hcycle := h.cycle hstate
    rw [hcycle.pending]
    exact hcycle.nodup_issued.filter _
  · have hcycle := h.cycle hstate
    obtain ⟨base, hbase, hrange⟩ := hcycle.range
    rw [hcycle.pending] at hid
    have hissued := (mem_filter.mp hid).1
    rw [hrange, mem_probeRange (Nat.mod_lt _ (by decide))] at hissued
    obtain ⟨k, hk, rfl⟩ := hissued
    rw [h.next]
    omega
  · have hcycle := h.cycle hstate
    rw [hcycle.completed, hcycle.issued, hcycle.total]
  · have hcycle := h.cycle hstate
    rw [hcycle.issued]
    exact hcycle.bound

lemma Cycle.ends (h : Cycle s) (hstate : s.breaker.state = .halfOpen) (c : BreakerCall) :
    ((s.breaker.call c).state = .closed ↔
      (s.succeededWith c).length = s.breaker.config.halfOpenProbes ∧ s.failedWith c = []) ∧
    ((s.breaker.call c).state = .opened ↔ s.failedWith c ≠ []) := by
  have hunfinished := h.unfinished
  have hwidth := s.breaker.valid.2.2.2.2.2.2
  have hcount : incW 32 s.breaker.halfOpenCompleted = s.succeeded.length + 1 := by
    rw [incW, h.completed, Nat.mod_eq_of_lt (by omega)]
  -- The cycle goes on, or it ends with the last success or the first failure.
  suffices hends : (s.breaker.call c).state = .halfOpen ∧
        (s.succeededWith c).length ≠ s.breaker.config.halfOpenProbes ∧ s.failedWith c = [] ∨
      (s.breaker.call c).state = .closed ∧
        (s.succeededWith c).length = s.breaker.config.halfOpenProbes ∧ s.failedWith c = [] ∨
      (s.breaker.call c).state = .opened ∧ s.failedWith c ≠ [] by
    rcases hends with ⟨hs, hlength, hfailed⟩ | ⟨hs, hlength, hfailed⟩ | ⟨hs, hfailed⟩
    · simp [hs, hlength, hfailed]
    · simp [hs, hlength, hfailed]
    · simp [hs, hfailed]
  cases c with
  | freshCycle => exact .inl ⟨rfl, hunfinished.ne, h.unfailed⟩
  | select now =>
    refine .inl ⟨?_, hunfinished.ne, h.unfailed⟩
    have ha := s.breaker.advanceTo_same now
    have hcases := s.breaker.selected now
    rw [call]
    generalize (s.breaker.select now).1 = r, (s.breaker.select now).2 = permit at hcases ⊢
    cases hcases with
    | kept | issued => exact ha.state.trans hstate
    | begun => rfl
  | record now permit success =>
    have ha := s.breaker.advanceTo_same now
    have hdecides := h.accepts_iff hstate permit
    have hcases := s.breaker.recorded now permit success
    have hsucceeded : s.breaker.Accepts permit →
        (s.succeededWith (.record now permit true)).length = s.succeeded.length + 1 := by
      intro hacc
      rw [succeededWith, if_pos (hdecides.mp hacc), length_append, length_singleton]
    rw [call]
    generalize s.breaker.record now permit success = r at hcases ⊢
    cases hcases with
    | ignored hno =>
      rw [hdecides] at hno
      refine .inl ⟨ha.state.trans hstate, ?_, ?_⟩
      · cases success <;> simp [succeededWith, hno, hunfinished.ne]
      · cases success <;> simp [failedWith, hno, h.unfailed]
    | counted _ hclosed => cases hstate.symm.trans hclosed
    | succeeded hacc _ hquota =>
      refine .inl ⟨ha.state.trans hstate, ?_, h.unfailed⟩
      rw [hsucceeded hacc, ← hcount]
      exact hquota
    | completed hacc _ hquota =>
      refine .inr (.inl ⟨rfl, ?_, h.unfailed⟩)
      rw [hsucceeded hacc, ← hcount]
      exact hquota
    | failed hacc =>
      refine .inr (.inr ⟨rfl, ?_⟩)
      rw [failedWith, if_pos (hdecides.mp hacc)]
      simp

lemma Inv.transition (h : Inv s) (ht : s.step c = some t) (hgens : t.generations < 2 ^ 64) :
    Transition s c t := by
  have hbreaker := step_breaker ht
  refine ⟨(h.generation_step ht).2.2 hgens, ?_, fun hstate => ?_, fun hstate => ?_, ?_⟩
  · rintro now permit success rfl hstale
    have hcases := s.breaker.recorded now permit success
    rw [call] at hbreaker
    rw [← hbreaker] at hcases
    have hno : ¬s.breaker.Accepts permit := by
      rintro ⟨hgen, hpermit⟩
      rcases hstale with hne | ⟨hprobe, hmem⟩ | ⟨hhalf, hne⟩
      · exact hne hgen
      · cases hstate : s.breaker.state <;> rw [hstate] at hpermit
        · rw [hprobe] at hpermit
          cases hpermit
        · exact hpermit
        · exact hmem hpermit.2
      · rw [hhalf] at hpermit
        exact hne hpermit.1
    have hsame : t.breaker = s.breaker.advanceTo now := by
      generalize t.breaker = r at hcases ⊢
      cases hcases with
      | ignored => rfl
      | counted hacc | succeeded hacc | completed hacc | failed hacc => exact absurd hacc hno
    exact ⟨hsame, hsame ▸ s.breaker.advanceTo_same now⟩
  · rw [hbreaker]
    exact ((h.cycle hstate).ends hstate c).1
  · rw [hbreaker]
    exact ((h.cycle hstate).ends hstate c).2
  · rintro now permit success rfl hstate
    rw [hbreaker]
    exact (record_of_opened hstate).state.trans hstate

/-- **The breaker's state machine.** In every run from a fresh or an imported breaker whose
generation and probe counters do not wrap, the counters agree and every further call is one of
the transitions. -/
theorem sound {b : CircuitBreaker} (hb : Starts b) {calls : List BreakerCall}
    (hrun : run BreakerRun.step (start b) calls = some s) (hprobes : s.probes + 1 < 2 ^ 64) :
    WellFormed s.breaker ∧
      ∀ c t, s.step c = some t → t.generations < 2 ^ 64 → Transition s c t := by
  have h : Inv s := run_invariant (fun u c v (hu : Inv u) hv => hu.step hv) (inv_start hb) hrun
  exact ⟨h.wellFormed hprobes, fun c t ht hgens => h.transition ht hgens⟩

/-- A quota of two, with every failure opening the breaker. -/
def twoProbes : CircuitBreakerConfig := ⟨1000, 1, 1, 1000, 2⟩

/-- A cycle of two probes, one of which has succeeded; the success of the other closes it. -/
theorem sound_twoProbes : ∃ b s, create twoProbes 1 = some b ∧ run BreakerRun.step (start b)
        [.freshCycle, .record 2 ⟨.probe, 2, 1⟩ true, .record 3 ⟨.probe, 2, 1⟩ true] = some s ∧
      WellFormed s.breaker ∧ s.breaker.pendingProbes = [2] ∧
      ∀ t, s.step (.record 4 ⟨.probe, 2, 2⟩ true) = some t → t.generations < 2 ^ 64 →
        s.breaker.generation < t.breaker.generation := by
  obtain ⟨b, hb⟩ : ∃ b, create twoProbes 1 = some b := ⟨_, rfl⟩
  obtain ⟨s, hs⟩ : ∃ s, run BreakerRun.step (start b)
      [.freshCycle, .record 2 ⟨.probe, 2, 1⟩ true, .record 3 ⟨.probe, 2, 1⟩ true] = some s := by
    cases hb
    exact ⟨_, rfl⟩
  have h := sound (.fresh hb) hs (by cases hb; cases hs; decide)
  refine ⟨b, s, hb, hs, h.1, ?_, fun t ht hgens => ?_⟩
  · cases hb
    cases hs
    rfl
  refine (h.2 _ t ht hgens).increases ?_
  have hclosed : (s.breaker.call (.record 4 ⟨.probe, 2, 2⟩ true)).state = .closed := by
    cases hb
    cases hs
    rfl
  have hhalf : s.breaker.state = .halfOpen := by
    cases hb
    cases hs
    rfl
  rw [step_breaker ht, hclosed, hhalf]
  nofun

/-! ## The probe counter -/

lemma run_freshCycle (n : ℕ) (h : Inv s) :
    ∃ t, run BreakerRun.step s (replicate n .freshCycle) = some t ∧ Inv t ∧
      t.breaker.config = s.breaker.config ∧ t.generations = s.generations + n ∧
      t.probes = s.probes + n * s.breaker.config.halfOpenProbes := by
  induction n generalizing s with
  | zero => exact ⟨s, rfl, h, rfl, rfl, by omega⟩
  | succ n ih =>
    obtain ⟨u, hu⟩ : ∃ u, s.step .freshCycle = some u := ⟨_, step_advanced h.width rfl⟩
    have hstep := hu
    rw [step_advanced h.width rfl] at hstep
    have hconfig : u.breaker.config = s.breaker.config := by cases hstep; rfl
    have hgens : u.generations = s.generations + 1 := by cases hstep; rfl
    have hprobes : u.probes = s.probes + s.breaker.config.halfOpenProbes := by
      cases hstep
      exact congrArg (s.probes + ·) (length_probeRange _ _)
    obtain ⟨t, ht, hinv, htconfig, htgens, htprobes⟩ := ih (h.step hu)
    refine ⟨t, ?_, hinv, htconfig.trans hconfig, ?_, ?_⟩
    · rw [replicate_succ, run_cons, hu]
      exact ht
    · rw [htgens, hgens]
      omega
    · rw [htprobes, hprobes, hconfig, Nat.succ_mul]
      omega

def manyProbes : CircuitBreakerConfig := ⟨1000, 1, 1, 1000, 2 ^ 32 - 1⟩

/-- After `2 ^ 32 + 1` cycles with the largest quota the next identifier is zero again, and no
pending probe is below it. -/
theorem pending_above_next : ∃ b s, create manyProbes 1 = some b ∧
      run BreakerRun.step (start b) (replicate (2 ^ 32) .freshCycle ++ [.freshCycle]) = some s ∧
      s.generations < 2 ^ 64 ∧ s.breaker.state = .halfOpen ∧
      ∃ id ∈ s.breaker.pendingProbes, ¬id < s.breaker.nextProbeId := by
  obtain ⟨b, hb⟩ : ∃ b, create manyProbes 1 = some b :=
    ⟨_, dif_pos (by decide)⟩
  have hstart : b.config = manyProbes ∧ b.generation = 1 ∧ b.nextProbeId = 1 := by
    rw [create, dif_pos (by decide)] at hb
    cases hb
    exact ⟨rfl, rfl, rfl⟩
  obtain ⟨hconfig, hgeneration, hnext⟩ := hstart
  obtain ⟨u, hu, hinv, huconfig, hugens, huprobes⟩ :=
    run_freshCycle (2 ^ 32) (inv_start (.fresh hb))
  have hquota : u.breaker.config.halfOpenProbes = 2 ^ 32 - 1 := by
    rw [huconfig]
    change b.config.halfOpenProbes = _
    rw [hconfig]
    rfl
  have hcount : u.probes = 2 ^ 32 * (2 ^ 32 - 1) := by
    rw [huprobes]
    change b.nextProbeId - 1 + 2 ^ 32 * b.config.halfOpenProbes = _
    rw [hnext, hconfig]
    rfl
  obtain ⟨s, hs⟩ : ∃ s, u.step .freshCycle = some s := ⟨_, step_advanced hinv.width rfl⟩
  refine ⟨b, s, hb, ?_, ?_⟩
  · rw [run_append, hu]
    exact (run_cons _ _ _ _).trans (by rw [hs]; rfl)
  rw [step_advanced hinv.width rfl] at hs
  cases hs
  refine ⟨?_, rfl, ?_⟩
  · rw [hugens]
    change b.generation + 2 ^ 32 + 1 < _
    rw [hgeneration]
    decide
  refine ⟨u.breaker.nextProbeId, ?_, ?_⟩
  · change _ ∈ probeRange u.breaker.nextProbeId u.breaker.config.halfOpenProbes
    rw [mem_probeRange (by rw [hinv.next]; exact Nat.mod_lt _ (by decide)), hquota]
    refine ⟨0, by decide, ?_⟩
    rw [hinv.next]
    omega
  · change ¬_ < (u.breaker.nextProbeId + u.breaker.config.halfOpenProbes) % 2 ^ 64
    rw [hinv.next, hquota, hcount]
    decide

end BreakerRun
end AegisGate.Resilience
