import AegisGate.Lib.EventFd
import AegisGate.Observability.AsyncLogger

/-!
# The writer does not sleep

The constructor makes the wake descriptor non-blocking, and a read of it that fails ends the inner
loop of `WriterLoop` as one that succeeds does. With nothing to read the writer goes on to swap an
empty queue, flushes the stream and reads again. The iterations are bounded by the wakes and the
reads that find none.
-/

namespace AegisGate.Observability
open Lib Option

/-- The logger with its wake descriptor; `wakes`, `iterations` and `idle`, the reads that found no
wake, are history variables. -/
structure WriterLoop where
  logger : AsyncLogger
  wakeFd : EventFd := {}
  /-- Calls that have left the lock and have still to write to the descriptor. -/
  owed : ℕ := 0
  /-- The writer has read in this iteration. -/
  awake : Bool := false
  wakes : ℕ := 0
  iterations : ℕ := 0
  idle : ℕ := 0

inductive WakeEvent
  | log (e : LogEvent)
  /-- The write of a `Submit` or a `Stop`. -/
  | wake
  /-- The read at the start of an iteration, which does not block. -/
  | read
  deriving DecidableEq

/-- A `Submit` that queues its record writes a wake, and so does the first `Stop`. -/
def AsyncLogger.owes (s : AsyncLogger) : LogEvent → ℕ
  | .push => if s.submitting.any fun r => (s.admitted r).2 = .accepted then 1 else 0
  | .stop => if s.stopped then 0 else 1
  | _ => 0

namespace WriterLoop

def step (w : WriterLoop) : WakeEvent → Option WriterLoop
  | .log e =>
    if e = .swap ∧ w.awake = false then none
    else (w.logger.step e).map fun logger =>
      { w with logger, owed := w.owed + w.logger.owes e, awake := w.awake && decide (e ≠ .swap) }
  | .wake =>
    if w.owed = 0 then none
    else some { w with owed := w.owed - 1, wakeFd := w.wakeFd.write, wakes := w.wakes + 1 }
  | .read =>
    if w.logger.phase = .draining ∧ w.awake = false then
      some { w with
        wakeFd := w.wakeFd.read
        awake := true
        iterations := w.iterations + 1
        idle := w.idle + if w.wakeFd.Pending then 0 else 1 }
    else none

/-- The read finds a wake, or it is the first that does not. -/
def IdlesOnce (w : WriterLoop) (e : WakeEvent) : Prop := e = .read → w.wakeFd.Pending ∨ w.idle = 0

instance (w : WriterLoop) (e : WakeEvent) : Decidable (w.IdlesOnce e) :=
  inferInstanceAs (Decidable (e = .read → w.wakeFd.Pending ∨ w.idle = 0))

/-- The wakes that were written and at most one idle read cover the iterations and a wake that is
still to be read. -/
def Covered (w : WriterLoop) : Prop :=
  w.iterations + (if w.wakeFd.Pending then 1 else 0) ≤ w.idle + w.wakes ∧ w.idle ≤ 1

lemma Covered.step {w w' : WriterLoop} {e : WakeEvent} (h : w.Covered) (honce : w.IdlesOnce e)
    (hstep : w.step e = some w') : w'.Covered := by
  rw [Covered] at h
  cases e with
  | log e =>
    obtain ⟨-, hstep⟩ := ite_none_left_eq_some.mp hstep
    obtain ⟨logger, -, rfl⟩ := map_eq_some_iff.mp hstep
    exact h
  | wake =>
    obtain ⟨-, ⟨⟩⟩ := ite_none_left_eq_some.mp hstep
    simp only [Covered, EventFd.pending_write, if_true]
    omega
  | read =>
    obtain ⟨-, ⟨⟩⟩ := ite_none_right_eq_some.mp hstep
    have hread := honce rfl
    simp only [Covered, EventFd.not_pending_read, if_false]
    by_cases hpending : w.wakeFd.Pending
    · rw [if_pos hpending] at h ⊢
      omega
    · have hfirst := hread.resolve_left hpending
      rw [if_neg hpending] at h ⊢
      omega

/-- **The iterations are bounded by the wakes**, and one more, in every run in which at most one
read finds no wake. -/
theorem iterations_le {capacity : ℕ} {es : List WakeEvent} {w : WriterLoop}
    (honce : Along step IdlesOnce { logger := { capacity } } es)
    (hrun : run step { logger := { capacity } } es = some w) : w.iterations ≤ 1 + w.wakes := by
  have hstart : Covered { logger := { capacity } } := ⟨Nat.le_refl 0, Nat.zero_le 1⟩
  have h := (always_of_along (fun _ _ _ hs hp ht => Covered.step hs hp ht) hstart honce).final hrun
  rw [Covered] at h
  omega

/-- One turn of the writer without anything to do. -/
def idleTurn : List WakeEvent := [.read, .log .swap, .log (.endBatch true)]

/-- The writer goes round once, then a record is submitted and it takes it. -/
theorem iterations_le_submitted :
    ∃ w, run step { logger := { capacity := 1 } } (.log (.openFile true) :: idleTurn ++
        [.log (.submit "info"), .log .push, .wake, .read, .log .swap]) = some w ∧
      w.iterations = 2 ∧ w.iterations ≤ 1 + w.wakes := by
  have hrun : run step { logger := { capacity := 1 } } (.log (.openFile true) :: idleTurn ++
    [.log (.submit "info"), .log .push, .wake, .read, .log .swap]) = some _ := rfl
  exact ⟨_, hrun, rfl, iterations_le (by decide) hrun⟩

/-- Without any call the writer goes round, here twice. -/
theorem not_iterations_le_idle :
    ∃ w, run step { logger := { capacity := 1 } } (.log (.openFile true) :: idleTurn ++ idleTurn) =
      some w ∧ ¬ w.iterations ≤ 1 + w.wakes :=
  ⟨_, rfl, by decide⟩

end WriterLoop
end AegisGate.Observability
