import AegisGate.Resilience.CircuitBreaker

/-!
# A half-open cycle

A cycle begins with the whole quota of probes pending. While it lasts, an outcome takes the
probe it belongs to off the list or changes nothing, and every other end of a cycle clears
the list.
-/

namespace AegisGate.Resilience
open Lib List

namespace CircuitBreaker

lemma mem_probeRange {base n id : ℕ} (hbase : base < 2 ^ 64) :
    id ∈ probeRange base n ↔ ∃ k < n, id = (base + k) % 2 ^ 64 := by
  induction n generalizing base with
  | zero => simp [probeRange]
  | succ n ih =>
    have hnext : incW 64 base < 2 ^ 64 := Nat.mod_lt _ (by decide)
    rw [probeRange, mem_cons, ih hnext]
    constructor
    · rintro (rfl | ⟨k, hk, rfl⟩)
      · exact ⟨0, by omega, by omega⟩
      · refine ⟨k + 1, by omega, ?_⟩
        rw [incW]
        omega
    rintro ⟨k, hk, rfl⟩
    cases k with
    | zero => exact .inl (by omega)
    | succ k =>
      refine .inr ⟨k, by omega, ?_⟩
      rw [incW]
      omega

lemma nodup_probeRange {base n : ℕ} (hbase : base < 2 ^ 64) (hn : n ≤ 2 ^ 64) :
    (probeRange base n).Nodup := by
  induction n generalizing base with
  | zero => exact nodup_nil
  | succ n ih =>
    have hnext : incW 64 base < 2 ^ 64 := Nat.mod_lt _ (by decide)
    rw [probeRange, nodup_cons]
    refine ⟨fun hmem => ?_, ih hnext (by omega)⟩
    obtain ⟨k, hk, heq⟩ := (mem_probeRange hnext).mp hmem
    rw [incW] at heq
    omega

/-- The breaker after a call that may have begun a cycle: no cycle runs, or the one that was
returned, with all its probes pending. -/
structure Renewal (b : CircuitBreaker) (cycle : Option HalfOpenCycle) : Prop where
  next : b.nextProbeId < 2 ^ 64
  idle : cycle = none → b.state ≠ .halfOpen
  fresh : ∀ c, cycle = some c → b.generation = c.generation ∧
    b.pendingProbes = probeRange c.probeBase c.quota ∧ c.probeBase < 2 ^ 64 ∧ c.quota < 2 ^ 32

lemma renewal_beginFreshHalfOpenCycle {b : CircuitBreaker} (h : b.nextProbeId < 2 ^ 64) :
    Renewal b.beginFreshHalfOpenCycle.1 (some b.beginFreshHalfOpenCycle.2) := by
  refine ⟨Nat.mod_lt _ (by decide), nofun, ?_⟩
  rintro c ⟨⟩
  exact ⟨rfl, rfl, h, b.valid.2.2.2.2.2.2⟩

lemma renewal_importSnapshot (b : CircuitBreaker) (snapshot : CircuitBreakerSnapshot)
    (now : TimePoint) :
    Renewal (b.importSnapshot snapshot now).1 (b.importSnapshot snapshot now).2 := by
  have hbase : (b.importBase snapshot now).nextProbeId < 2 ^ 64 := by
    show 1 < 2 ^ 64
    decide
  rw [importSnapshot]
  split
  · have hsame := foldl_importBucket_same now
      { b.importBase snapshot now with state := .closed } snapshot.buckets
    refine ⟨hsame.nextProbeId.trans_lt hbase, fun _ => ?_, by simp⟩
    rw [hsame.state]
    simp
  · split
    · exact ⟨hbase, by simp, by simp⟩
    · exact renewal_beginFreshHalfOpenCycle hbase

lemma quota_importSnapshot (b : CircuitBreaker) (snapshot : CircuitBreakerSnapshot)
    (now : TimePoint) :
    (b.importSnapshot snapshot now).1.config = b.config ∧
      ∀ c, (b.importSnapshot snapshot now).2 = some c → c.quota = b.config.halfOpenProbes := by
  rw [importSnapshot]
  split
  · exact ⟨(foldl_importBucket_same now { b.importBase snapshot now with state := .closed }
      snapshot.buckets).config, by simp⟩
  · split
    · exact ⟨rfl, by simp⟩
    · refine ⟨rfl, ?_⟩
      rintro c ⟨⟩
      rfl

section Record
variable {b : CircuitBreaker} {now : TimePoint} {permit : RequestPermit} {success : Bool}

lemma nextProbeId_evaluate (b : CircuitBreaker) (now : TimePoint) :
    (b.evaluate now).nextProbeId = b.nextProbeId := by
  rw [evaluate]
  split <;> rfl

lemma record_halfOpen (h : (b.record now permit success).state = .halfOpen) :
    b.state = .halfOpen ∧ (b.record now permit success).generation = b.generation ∧
      ((b.record now permit success).pendingProbes = b.pendingProbes.erase permit.probeId ∨
        (b.record now permit success).pendingProbes = b.pendingProbes ∧
          ¬(permit.generation = b.generation ∧ permit.selection = .probe ∧
            permit.probeId ∈ b.pendingProbes)) := by
  have ha := advanceTo_same b now
  have hcases := recorded b now permit success
  generalize b.record now permit success = r at hcases h ⊢
  cases hcases with
  | ignored hno =>
    have hstate : b.state = .halfOpen := ha.state.symm.trans h
    rw [Accepts, hstate] at hno
    exact ⟨hstate, ha.generation, .inr ⟨ha.pendingProbes, hno⟩⟩
  | counted _ hstate =>
    -- A closed breaker stays closed or opens.
    have hclosed : ((b.advanceTo now).countOutcome success).state = .closed := ha.state.trans hstate
    rw [state_evaluate hclosed] at h
    split at h <;> cases h
  | succeeded _ hstate => exact ⟨hstate, ha.generation, .inl rfl⟩
  | completed => cases h
  | failed => cases h

lemma kept_record : (b.record now permit success).nextProbeId = b.nextProbeId ∧
    (b.record now permit success).config = b.config := by
  have ha := advanceTo_same b now
  have hcases := recorded b now permit success
  generalize b.record now permit success = r at hcases ⊢
  cases hcases with
  | ignored => exact ⟨ha.nextProbeId, ha.config⟩
  | succeeded | completed | failed =>
    dsimp only [withSuccess, withoutProbe, close, opens, advanceGeneration]
    exact ⟨ha.nextProbeId, ha.config⟩
  | counted =>
    rw [evaluate]
    split <;> exact ⟨ha.nextProbeId, ha.config⟩

end Record
end CircuitBreaker
end AegisGate.Resilience
