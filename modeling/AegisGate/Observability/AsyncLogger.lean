import AegisGate.Lib.Transition

/-!
# The log writer

`Submit` puts a record into a bounded queue; a writer thread swaps the queue for an empty one and
writes the batch to a stream. When the file cannot be opened or a write fails, the writer counts
the records of the batch that were not written, sets `writer_failed_` and ends. `Submit` counts
what it refuses.

Every critical section and every atomic access of `src/observability/AsyncLogger.cpp` is one event,
and so is each write to the stream: a list of events is an interleaving of any number of callers
with the writer. `Submit` is two events. The writer sets `writer_failed_` without the lock, so it
may do so after a call has loaded the flag and before that call has queued its record; the other
critical sections wait for the call. The stream stays bad once it is bad. The wake descriptor is
left out: it does not block, so the writer never waits.

`calls` and `processed` are history variables: the calls of `Submit` with their answers, in the
order they took the lock, and the records the writer has dealt with.
-/

namespace AegisGate.Observability
open Lib

/-- A record, as far as `Submit` reads it; calls are numbered. -/
structure LogRecord where
  serial : ℕ
  level : String
  deriving DecidableEq

def LogRecord.isCritical (r : LogRecord) : Bool := r.level = "warn" || r.level = "error"

/-- What became of a call of `Submit`; it returns `true` if it is `accepted`. -/
inductive Verdict
  | accepted
  /-- The queue is full. -/
  | full
  /-- The writer has failed. -/
  | failed
  | stopped
  deriving DecidableEq

inductive WriterPhase
  | opening
  /-- Before it swaps the queue. -/
  | draining
  /-- Records to be written, and `io_failures`. -/
  | writing (batch : List LogRecord) (ioFailures : ℕ)
  /-- A batch has failed. -/
  | counting (ioFailures : ℕ)
  /-- Before it sets `writer_failed_`. -/
  | givingUp
  | exited
  deriving DecidableEq

def WriterPhase.batch : WriterPhase → List LogRecord
  | .writing batch _ => batch
  | _ => []

/-- The failures the writer has still to count. -/
def WriterPhase.uncounted : WriterPhase → ℕ
  | .writing _ ioFailures | .counting ioFailures => ioFailures
  | _ => 0

/-- Room kept for warnings and errors. -/
def kCriticalSlots : ℕ := 16

/-- The queue, the counters and the writer. -/
structure AsyncLogger where
  capacity : ℕ
  queue : List LogRecord := []
  criticalUsed : ℕ := 0
  stopped : Bool := false
  writerFailed : Bool := false
  droppedTotal : ℕ := 0
  ioDroppedTotal : ℕ := 0
  criticalOverflow : ℕ := 0
  /-- The record of a `Submit` that has the lock and has found `writer_failed_` false. -/
  submitting : Option LogRecord := none
  phase : WriterPhase := .opening
  /-- `ofs.good()`. -/
  good : Bool := true
  /-- The `Stop` that set `stopped_` has joined the writer and returned. -/
  returned : Bool := false
  calls : List (LogRecord × Verdict) := []
  /-- The records the writer has dealt with, and whether they were written. -/
  processed : List (LogRecord × Bool) := []

/-- The critical sections, and the steps of the writer. -/
inductive LogEvent
  /-- `Submit` takes the lock and loads `writer_failed_`. -/
  | submit (level : String)
  /-- The rest of the critical section of `Submit`. -/
  | push
  /-- The critical section of `Stop`. -/
  | stop
  | stopReturn
  | openFile (ok : Bool)
  | swap
  /-- The next record of the batch. -/
  | write (ok : Bool)
  /-- The end of the batch, with a flush. -/
  | endBatch (flushOk : Bool)
  | count
  | giveUp
  deriving DecidableEq

namespace AsyncLogger

/-- `Submit` up to its load of `writer_failed_`, where it may be refused. -/
def submit (s : AsyncLogger) (level : String) : AsyncLogger :=
  let record : LogRecord := ⟨s.calls.length, level⟩
  if s.stopped then { s with calls := s.calls ++ [(record, .stopped)] }
  else if s.writerFailed then
    { s with ioDroppedTotal := s.ioDroppedTotal + 1, calls := s.calls ++ [(record, .failed)] }
  else { s with submitting := some record }

/-- The test of the capacity and its answer; critical records have slots of their own. -/
def admitted (s : AsyncLogger) (record : LogRecord) : AsyncLogger × Verdict :=
  if s.capacity ≤ s.queue.length then
    if record.isCritical && s.criticalUsed < kCriticalSlots then
      ({ s with criticalUsed := s.criticalUsed + 1, queue := s.queue ++ [record] }, .accepted)
    else
      ({ s with
        criticalOverflow := s.criticalOverflow + if record.isCritical then 1 else 0
        droppedTotal := s.droppedTotal + 1 }, .full)
  else ({ s with queue := s.queue ++ [record] }, .accepted)

/-- The rest of the critical section of `Submit`. -/
def push (s : AsyncLogger) (record : LogRecord) : AsyncLogger :=
  let answer := s.admitted record
  { answer.1 with submitting := none, calls := s.calls ++ [(record, answer.2)] }

def step (s : AsyncLogger) : LogEvent → Option AsyncLogger
  | .submit level => if s.submitting.isSome then none else some (s.submit level)
  | .push => s.submitting.map s.push
  | .stop => if s.submitting.isSome then none else some { s with stopped := true }
  | .stopReturn =>
    if s.stopped ∧ s.phase = .exited then some { s with returned := true } else none
  | .openFile ok =>
    match s.phase with
    | .opening => some { s with phase := if ok then .draining else .givingUp }
    | _ => none
  | .swap =>
    match s.phase, s.submitting with
    | .draining, none =>
      some { s with
        queue := []
        criticalUsed := 0
        phase := if s.queue = [] ∧ s.stopped then .exited else .writing s.queue 0 }
    | _, _ => none
  | .write ok =>
    match s.phase with
    | .writing (record :: batch) ioFailures =>
      let good := s.good && ok
      some { s with
        good
        processed := s.processed ++ [(record, good)]
        phase := .writing batch (ioFailures + if good then 0 else 1) }
    | _ => none
  | .endBatch flushOk =>
    match s.phase with
    | .writing [] ioFailures =>
      if 0 < ioFailures then some { s with phase := .counting ioFailures }
      else some { s with good := s.good && flushOk, phase := .draining }
    | _ => none
  | .count =>
    match s.phase with
    | .counting ioFailures =>
      some { s with ioDroppedTotal := s.ioDroppedTotal + ioFailures, phase := .givingUp }
    | _ => none
  | .giveUp =>
    match s.phase with
    | .givingUp => some { s with writerFailed := true, phase := .exited }
    | _ => none

end AsyncLogger

end AegisGate.Observability
