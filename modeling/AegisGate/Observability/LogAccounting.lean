import AegisGate.Observability.AsyncLogger

/-!
# Every log record is accounted for

The accepted records are those that the writer has dealt with, those of its batch and those of the
queue. A writer that ends because the logger was stopped has found the queue empty. One that gives
up has not looked: what was accepted since it took its last batch, or before it had tried to open
the file, is never written and never counted, and neither is the record of a call that has found
the writer alive and queues it afterwards.
-/

namespace AegisGate.Observability.AsyncLogger
open Lib List Option Bool Prod AsyncLogger

/-- The records that got an answer. -/
def recordsOf (s : AsyncLogger) (verdict : Verdict) : List LogRecord :=
  (s.calls.filter (·.2 = verdict)).map fst

/-- Every call is accounted for: an accepted record was written to the stream or counted as a
failed write, and a refused one was counted once. -/
structure Accounted (s : AsyncLogger) : Prop where
  accepted : s.recordsOf .accepted = s.processed.map fst
  dropped : s.droppedTotal = (s.recordsOf .full).length
  ioDropped : s.ioDroppedTotal = (s.recordsOf .failed).length + (s.processed.filter (!·.2)).length
  /-- The calls are different. -/
  serial : s.calls.map (·.1.serial) = range s.calls.length

/-- The writer gives up with an empty queue only, and while no call is about to queue. -/
def QueueEmpty (s : AsyncLogger) (e : LogEvent) : Prop :=
  e = .giveUp → s.queue = [] ∧ s.submitting = none

instance (s : AsyncLogger) (e : LogEvent) : Decidable (s.QueueEmpty e) :=
  inferInstanceAs (Decidable (e = .giveUp → s.queue = [] ∧ s.submitting = none))

/-- Every record is somewhere. -/
structure Inv (s : AsyncLogger) : Prop where
  accepted : s.recordsOf .accepted = s.processed.map fst ++ s.phase.batch ++ s.queue
  dropped : s.droppedTotal = (s.recordsOf .full).length
  ioDropped : s.ioDroppedTotal + s.phase.uncounted =
    (s.recordsOf .failed).length + (s.processed.filter (!·.2)).length
  serial : s.calls.map (·.1.serial) = range s.calls.length
  submitting : ∀ record, s.submitting = some record → record.serial = s.calls.length
  closed : s.phase = .exited → s.stopped ∨ s.writerFailed
  returned : s.returned → s.phase = .exited

lemma inv_create (capacity : ℕ) : Inv { capacity } where
  accepted := rfl
  dropped := rfl
  ioDropped := rfl
  serial := rfl
  submitting := nofun
  closed := nofun
  returned := nofun

/-! ## One call -/

variable {s t : AsyncLogger} {record : LogRecord}

/-- How a call of `Submit` ends. -/
inductive SubmitOutcome (s : AsyncLogger) (record : LogRecord) : AsyncLogger → Prop
  | stopped : SubmitOutcome s record { s with calls := s.calls ++ [(record, .stopped)] }
  | failed : SubmitOutcome s record { s with
        ioDroppedTotal := s.ioDroppedTotal + 1
        calls := s.calls ++ [(record, .failed)] }
  | full (overflow : ℕ) : SubmitOutcome s record { s with
        criticalOverflow := overflow
        droppedTotal := s.droppedTotal + 1
        submitting := none
        calls := s.calls ++ [(record, .full)] }
  | accepted (used : ℕ) : SubmitOutcome s record { s with
        criticalUsed := used
        queue := s.queue ++ [record]
        submitting := none
        calls := s.calls ++ [(record, .accepted)] }

lemma submitOutcome_push (s : AsyncLogger) (record : LogRecord) :
    SubmitOutcome s record (s.push record) := by
  rw [push, admitted]
  split
  · split
    · exact .accepted _
    · exact .full _
  · exact .accepted _

/-- A call either ends at its load of `writer_failed_`, or it has seen a logger that is neither
stopped nor failed. -/
lemma submit_cases (s : AsyncLogger) (level : String) :
    SubmitOutcome s ⟨s.calls.length, level⟩ (s.submit level) ∧
        (s.submit level).submitting = s.submitting ∧ (s.submit level).queue = s.queue ∨
      s.stopped = false ∧ s.writerFailed = false ∧
        s.submit level = { s with submitting := some ⟨s.calls.length, level⟩ } := by
  rw [submit]
  split
  · exact .inl ⟨.stopped, rfl, rfl⟩
  next hstopped =>
  split
  · exact .inl ⟨.failed, rfl, rfl⟩
  next hfailed => exact .inr ⟨eq_false_iff.mpr hstopped, eq_false_iff.mpr hfailed, rfl⟩

/-- The end of a call keeps the account, whatever the answer. -/
lemma Inv.outcome (h : Inv s) (hrecord : record.serial = s.calls.length)
    (hnone : t.submitting = none) (ht : SubmitOutcome s record t) : Inv t := by
  have hserial : ∀ verdict, (s.calls ++ [(record, verdict)]).map (·.1.serial) =
      range (s.calls ++ [(record, verdict)]).length := by
    intro verdict
    rw [map_append, h.serial, length_append, length_singleton, range_succ, map_singleton, hrecord]
  have haccepted := h.accepted
  have hdropped := h.dropped
  have hioDropped := h.ioDropped
  rw [recordsOf] at haccepted hdropped hioDropped
  cases ht with
  | stopped | full overflow | accepted used =>
    exact { h with
      accepted := by simp [recordsOf, haccepted]
      dropped := by simp [recordsOf, hdropped]
      ioDropped := by simp [recordsOf, hioDropped]
      serial := hserial _
      submitting := fun _ hsome => absurd (hnone.symm.trans hsome) nofun }
  | failed =>
    exact { h with
      accepted := by simp [recordsOf, haccepted]
      dropped := by simp [recordsOf, hdropped]
      ioDropped := by
        simp only [recordsOf, filter_append, map_append, length_append]
        rw [Nat.add_right_comm, hioDropped]
        simp [Nat.add_right_comm]
      serial := hserial _
      submitting := fun _ hsome => absurd (hnone.symm.trans hsome) nofun }

/-! ## The writer -/

lemma Inv.advance (h : Inv s) (next : WriterPhase) (hold : s.phase ≠ .exited)
    (hnext : next ≠ .exited) (hbatch : next.batch = s.phase.batch)
    (huncounted : next.uncounted = s.phase.uncounted) : Inv { s with phase := next } :=
  { h with
    accepted := by rw [hbatch]; exact h.accepted
    ioDropped := by rw [huncounted]; exact h.ioDropped
    closed := fun hexited => absurd hexited hnext
    returned := fun hreturned => absurd (h.returned hreturned) hold }

lemma Inv.swap (h : Inv s) (hphase : s.phase = .draining) : Inv { s with
      queue := []
      criticalUsed := 0
      phase := if s.queue = [] ∧ s.stopped then .exited else .writing s.queue 0 } := by
  have haccepted := h.accepted
  have hioDropped := h.ioDropped
  rw [hphase] at haccepted hioDropped
  split
  · next hend =>
    exact { h with
      accepted := by simpa [recordsOf, WriterPhase.batch, hend.1] using haccepted
      ioDropped := hioDropped
      closed := fun _ => .inl hend.2
      returned := fun _ => rfl }
  · exact { h with
      accepted := by simpa [recordsOf, WriterPhase.batch] using haccepted
      ioDropped := hioDropped
      closed := nofun
      returned := fun hreturned => by simp [h.returned hreturned] at hphase }

lemma Inv.write (h : Inv s) {record : LogRecord} {batch : List LogRecord} {ioFailures : ℕ}
    (hphase : s.phase = .writing (record :: batch) ioFailures) (good : Bool) :
    Inv { s with
      good
      processed := s.processed ++ [(record, good)]
      phase := .writing batch (ioFailures + if good then 0 else 1) } := by
  have haccepted := h.accepted
  have hioDropped := h.ioDropped
  rw [hphase] at haccepted hioDropped
  rw [WriterPhase.uncounted] at hioDropped
  exact { h with
    accepted := by simpa [recordsOf, WriterPhase.batch] using haccepted
    ioDropped := by
      rw [filter_append, length_append, ← Nat.add_assoc]
      refine Eq.trans ?_ (congrArg (· + _) hioDropped)
      cases good <;> rfl
    closed := nofun
    returned := fun hreturned => by simp [h.returned hreturned] at hphase }

lemma Inv.step {e : LogEvent} (h : Inv s) (ht : s.step e = some t) : Inv t := by
  cases e with
  | submit level =>
    obtain ⟨hfree, ⟨⟩⟩ := ite_none_left_eq_some.mp ht
    rw [not_isSome_iff_eq_none] at hfree
    rcases submit_cases s level with ⟨houtcome, hnone, -⟩ | ⟨-, -, htaken⟩
    · exact h.outcome rfl (hnone.trans hfree) houtcome
    · rw [htaken]
      refine { h with submitting := ?_ }
      rintro record ⟨⟩
      rfl
  | push =>
    obtain ⟨record, hrecord, rfl⟩ := map_eq_some_iff.mp ht
    exact h.outcome (h.submitting record hrecord) rfl (submitOutcome_push s record)
  | stop =>
    obtain ⟨-, ⟨⟩⟩ := ite_none_left_eq_some.mp ht
    exact { h with closed := fun _ => .inl rfl }
  | stopReturn =>
    obtain ⟨hexited, ⟨⟩⟩ := ite_none_right_eq_some.mp ht
    exact { h with returned := fun _ => hexited.2 }
  | openFile ok =>
    rw [AsyncLogger.step] at ht
    split at ht
    · next hphase =>
      cases ht
      cases ok <;> exact h.advance _ (by rw [hphase]; nofun) nofun (by rw [hphase]; rfl)
        (by rw [hphase]; rfl)
    · cases ht
  | swap =>
    rw [AsyncLogger.step] at ht
    split at ht
    · next hphase _ =>
      cases ht
      exact h.swap hphase
    · cases ht
  | write ok =>
    rw [AsyncLogger.step] at ht
    split at ht
    · next hphase =>
      cases ht
      exact h.write hphase _
    · cases ht
  | endBatch flushOk =>
    rw [AsyncLogger.step] at ht
    split at ht
    · next ioFailures hphase =>
      split at ht
      · cases ht
        exact h.advance _ (by rw [hphase]; nofun) nofun (by rw [hphase]; rfl)
          (by rw [hphase]; rfl)
      next hnone =>
      cases ht
      have hzero : ioFailures = 0 := Nat.eq_zero_of_not_pos hnone
      have hgo := h.advance .draining (by rw [hphase]; nofun) nofun
        (by rw [hphase]; rfl) (by rw [hphase, hzero]; rfl)
      exact { hgo with }
    · cases ht
  | count =>
    rw [AsyncLogger.step] at ht
    split at ht
    · next ioFailures hphase =>
      cases ht
      have haccepted := h.accepted
      have hioDropped := h.ioDropped
      rw [hphase] at haccepted hioDropped
      exact { h with
        accepted := haccepted
        ioDropped := hioDropped
        closed := nofun
        returned := fun hreturned => by simp [h.returned hreturned] at hphase }
    · cases ht
  | giveUp =>
    rw [AsyncLogger.step] at ht
    split at ht
    · next hphase =>
      cases ht
      have haccepted := h.accepted
      have hioDropped := h.ioDropped
      rw [hphase] at haccepted hioDropped
      exact { h with
        accepted := haccepted
        ioDropped := hioDropped
        closed := fun _ => .inr rfl
        returned := fun _ => rfl }
    · cases ht

/-! ## Runs -/

/-- A writer that has ended has left nothing in the queue, and no call is about to queue. -/
def Emptied (s : AsyncLogger) : Prop := s.phase = .exited → s.queue = [] ∧ s.submitting = none

lemma emptied_step {e : LogEvent} (h : Inv s) (hempty : s.Emptied) (hclear : s.QueueEmpty e)
    (ht : s.step e = some t) : t.Emptied := by
  cases e with
  | submit level =>
    obtain ⟨-, ⟨⟩⟩ := ite_none_left_eq_some.mp ht
    intro hexited
    rcases submit_cases s level with ⟨houtcome, hnone, hqueue⟩ | ⟨hstopped, hfailed, htaken⟩
    · rw [hnone, hqueue]
      generalize s.submit level = t at hexited houtcome
      cases houtcome <;> exact hempty hexited
    · -- The flags say why the writer has ended, so the call does not get past them.
      rw [htaken] at hexited
      have hclosed := h.closed hexited
      simp [hstopped, hfailed] at hclosed
  | push =>
    obtain ⟨record, hrecord, rfl⟩ := map_eq_some_iff.mp ht
    intro hexited
    have houtcome := submitOutcome_push s record
    generalize s.push record = t at hexited houtcome
    cases houtcome <;> cases hrecord.symm.trans (hempty hexited).2
  | stop =>
    obtain ⟨-, ⟨⟩⟩ := ite_none_left_eq_some.mp ht
    exact hempty
  | stopReturn =>
    obtain ⟨-, ⟨⟩⟩ := ite_none_right_eq_some.mp ht
    exact hempty
  | swap =>
    rw [step] at ht
    split at ht
    · next hnone =>
      cases ht
      exact fun _ => ⟨rfl, hnone⟩
    · cases ht
  | openFile ok =>
    rw [step] at ht
    split at ht
    · cases ht
      cases ok <;> nofun
    · cases ht
  | endBatch flushOk =>
    rw [step] at ht
    split at ht
    · split at ht <;> cases ht <;> nofun
    · cases ht
  | write | count =>
    rw [step] at ht
    split at ht
    · cases ht
      nofun
    · cases ht
  | giveUp =>
    rw [step] at ht
    split at ht
    · cases ht
      exact fun _ => hclear rfl
    · cases ht

lemma Inv.toAccounted (h : Inv s) (hempty : s.Emptied) (hreturned : s.returned) :
    Accounted s := by
  have hexited := h.returned hreturned
  have haccepted := h.accepted
  have hioDropped := h.ioDropped
  rw [hexited] at haccepted hioDropped
  rw [(hempty hexited).1, append_nil] at haccepted
  exact ⟨haccepted.trans (append_nil _), h.dropped, hioDropped, h.serial⟩

/-- **Log accounting.** In every interleaving in which the writer gives up with an empty queue
only, and not between the two halves of a `Submit`: once `Stop` has returned, every call of
`Submit` is accounted for. -/
theorem accounted_of_run (capacity : ℕ) (es : List LogEvent) (s : AsyncLogger)
    (hrun : run step { capacity } es = some s) (hclear : Along step QueueEmpty { capacity } es)
    (hreturned : s.returned) : s.Accounted := by
  have halways := always_of_along (Q := fun s => Inv s ∧ s.Emptied)
    (fun _ _ _ hq hp ht => ⟨hq.1.step ht, emptied_step hq.1 hq.2 hp ht⟩)
    ⟨inv_create capacity, nofun⟩ hclear
  obtain ⟨h, hempty⟩ := halways.final hrun
  exact h.toAccounted hempty hreturned

/-- A write fails, and a record is submitted after the writer has given up. -/
def failingRun : List LogEvent :=
  [.openFile true, .submit "info", .push, .submit "warn", .push, .submit "debug", .push, .swap,
    .write true, .write false, .endBatch true, .count, .giveUp, .submit "error", .stop, .stopReturn]

theorem accounted_of_failingRun :
    ∃ s, run step { capacity := 1 } failingRun = some s ∧ s.Accounted ∧ s.droppedTotal = 1 ∧
      s.ioDroppedTotal = 2 := by
  have hrun : run step { capacity := 1 } failingRun = some _ := rfl
  exact ⟨_, hrun, accounted_of_run 1 failingRun _ hrun (by decide) rfl, rfl, rfl⟩

/-- A record is accepted before the writer finds that it cannot open the file. -/
theorem not_accounted_open :
    ∃ s, run step { capacity := 1 }
        [.submit "info", .push, .openFile false, .giveUp, .stop, .stopReturn] = some s ∧
      s.returned ∧ s.calls = [(⟨0, "info"⟩, .accepted)] ∧ s.processed = [] ∧
      s.droppedTotal = 0 ∧ s.ioDroppedTotal = 0 ∧ ¬ s.Accounted := by
  refine ⟨_, rfl, rfl, rfl, rfl, rfl, rfl, fun h => ?_⟩
  have haccepted := h.accepted
  revert haccepted
  decide

end AegisGate.Observability.AsyncLogger
