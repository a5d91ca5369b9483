import AegisGate.Lib.EventFd
import AegisGate.Lib.Transition

/-!
# The task queue of a worker

A worker is a thread with an event loop. Any thread posts tasks to it: they are queued under a
mutex, up to a capacity, and an `eventfd` wakes the loop. One task beyond the capacity is the
shutdown task. `HandleWake` runs on the worker thread: it reads the counter, runs the queued tasks
until it finds the queue empty, then the shutdown task, and then decides whether to quit.

Every critical section of `src/runtime/WorkerRuntime.cpp` is one event, and so are the return of a
task and the read of the counter: a list of events is an interleaving of any number of callers
with the worker thread. A task may itself post tasks; these are events while it runs. The thread
is created in the same event as `Start` tests that the worker is not stopped.

`accepted`, `executed`, `refused` and `closed` are history variables: no branch reads them.
-/

namespace AegisGate.Runtime
open Lib

/-- The four ways to post. -/
inductive PostKind
  | plain
  | withLoop
  /-- `PostFd`; `none` is a negative descriptor. -/
  | fd (descriptor : Option ℕ)
  | shutdown
  deriving DecidableEq

/-- `PostFd` owns a descriptor. -/
def PostKind.hasDescriptor : PostKind → Bool
  | .fd (some _) => true
  | _ => false

structure PostCall where
  serial : ℕ
  kind : PostKind
  deriving DecidableEq

/-- A call of `PostShutdown`. -/
def PostCall.isShutdown (c : PostCall) : Bool := c.kind = .shutdown

inductive WorkerPhase
  /-- Not started. -/
  | created
  /-- `Run` has not yet registered the loop. -/
  | starting
  /-- In the loop, outside of `HandleWake`. -/
  | waiting
  /-- In `DrainQueue`, before it locks. -/
  | draining
  /-- `DrainQueue` runs a task. -/
  | executing
  /-- `DrainQueue` has returned. -/
  | drained
  /-- `DrainShutdownTask` runs the shutdown task. -/
  | executingShutdown
  /-- `DrainShutdownTask` has returned. -/
  | deciding
  /-- `Quit` was called. -/
  | quitting
  /-- `Run` has closed the wake descriptor. -/
  | exited
  deriving DecidableEq

def WorkerPhase.inLoop : WorkerPhase → Bool
  | .waiting | .draining | .executing | .drained | .executingShutdown | .deciding => true
  | _ => false

structure WorkerRuntime where
  taskCapacity : ℕ
  /-- `none` is a closed descriptor. -/
  wakeFd : Option EventFd := some {}
  tasks : List PostCall := []
  shutdownTask : Option PostCall := none
  running : Bool := false
  started : Bool := false
  stopping : Bool := false
  phase : WorkerPhase := .created
  nextSerial : ℕ := 0
  accepted : List PostCall := []
  executed : List PostCall := []
  refused : List PostCall := []
  /-- The calls of `PostFd` that have closed their descriptor. -/
  closed : List PostCall := []

namespace WorkerRuntime

section
variable (s : WorkerRuntime)

/-- `WakeLocked`: `none` if the write fails. -/
def wakeLocked (fails : Bool) : Option WorkerRuntime :=
  match s.wakeFd with
  | none => none
  | some fd => if fails then none else some { s with wakeFd := some fd.write }

/-- `PostTask`, with its answer. -/
def postTask (call : PostCall) (fails : Bool) : WorkerRuntime × Bool :=
  if !s.started then (s, false)
  else if s.stopping || !s.running then (s, false)
  else if s.taskCapacity ≤ s.tasks.length then (s, false)
  else match { s with tasks := s.tasks ++ [call] }.wakeLocked fails with
    | some s => (s, true)
    -- The task is popped again.
    | none => (s, false)

/-- `PostShutdown`, with its answer. -/
def postShutdown (call : PostCall) (fails : Bool) : WorkerRuntime × Bool :=
  if !s.started || !s.running || s.stopping || s.shutdownTask.isSome then (s, false)
  else match { s with shutdownTask := some call }.wakeLocked fails with
    | some s => (s, true)
    | none => (s, false)

/-- `Post`, `PostWithLoop`, `PostFd` and `PostShutdown`; an empty function is not callable. -/
def attempt (call : PostCall) (callable fails : Bool) : WorkerRuntime × Bool :=
  if !callable then (s, false)
  else match call.kind with
    | .shutdown => s.postShutdown call fails
    | .fd none => (s, false)
    | _ => s.postTask call fails

/-- The call returns; `PostFd` closes the descriptor of a refused call. -/
def answer (call : PostCall) : WorkerRuntime × Bool → WorkerRuntime
  | (s, true) => { s with accepted := s.accepted ++ [call] }
  | (s, false) => { s with
      refused := s.refused ++ [call]
      closed := s.closed ++ if call.kind.hasDescriptor then [call] else [] }

def post (kind : PostKind) (callable fails : Bool) : WorkerRuntime :=
  let call : PostCall := ⟨s.nextSerial, kind⟩
  answer call ({ s with nextSerial := s.nextSerial + 1 }.attempt call callable fails)

/-- The first part of `Stop`. -/
def stop (fails : Bool) : WorkerRuntime :=
  let s := { s with stopping := true }
  (s.wakeLocked fails).getD s

def WakePending : Prop := ∃ fd ∈ s.wakeFd, fd.Pending

end

instance (s : WorkerRuntime) : Decidable s.WakePending :=
  match h : s.wakeFd with
  | none => .isFalse (by rw [WakePending, h]; nofun)
  | some fd => decidable_of_iff fd.Pending (by rw [WakePending, h]; simp)

end WorkerRuntime

/-- The calls, and the steps of the thread. -/
inductive WorkerEvent
  | start
  /-- `Run` registers the loop. -/
  | ready
  /-- A call, whether its function is callable, and whether the write to the wake descriptor
  fails. -/
  | post (kind : PostKind) (callable fails : Bool)
  | stop (fails : Bool)
  /-- The second part of `Stop`: the thread has ended, or there is none. -/
  | join
  /-- `HandleWake` reads the counter. -/
  | handleWake
  | takeTask
  | finishTask
  | takeShutdown
  | finishShutdown
  /-- The end of `HandleWake`. -/
  | decide
  /-- The end of `Run`. -/
  | exitLoop
  deriving DecidableEq

/-- A call of `PostShutdown`. -/
def WorkerEvent.isPostShutdown : WorkerEvent → Bool
  | .post .shutdown _ _ => true
  | _ => false

/-- The steps of `HandleWake`. -/
def WorkerEvent.isWorker : WorkerEvent → Bool
  | .handleWake | .takeTask | .finishTask | .takeShutdown | .finishShutdown | .decide => true
  | _ => false

namespace WorkerRuntime

def step (s : WorkerRuntime) : WorkerEvent → Option WorkerRuntime
  | .start =>
    -- `Start` throws if the worker was started or stopped before.
    if s.started || s.stopping then some s
    else some { s with started := true, phase := .starting }
  | .ready =>
    if s.phase = .starting then some { s with running := true, phase := .waiting } else none
  | .post kind callable fails => some (s.post kind callable fails)
  | .stop fails => some (s.stop fails)
  | .join =>
    if s.stopping ∧ (s.phase = .created ∨ s.phase = .exited) then some { s with wakeFd := none }
    else none
  | .handleWake =>
    if s.phase = .waiting ∧ s.WakePending then
      some { s with wakeFd := s.wakeFd.map EventFd.read, phase := .draining }
    else none
  | .takeTask =>
    if s.phase = .draining then
      match s.tasks with
      | [] => some { s with phase := .drained }
      | call :: tasks =>
        some { s with tasks, executed := s.executed ++ [call], phase := .executing }
    else none
  | .finishTask => if s.phase = .executing then some { s with phase := .draining } else none
  | .takeShutdown =>
    if s.phase = .drained then
      match s.shutdownTask with
      | none => some { s with phase := .deciding }
      | some call =>
        some { s with
          shutdownTask := none
          executed := s.executed ++ [call]
          phase := .executingShutdown }
    else none
  | .finishShutdown =>
    if s.phase = .executingShutdown then some { s with phase := .deciding } else none
  | .decide =>
    if s.phase = .deciding then
      if s.stopping ∧ s.tasks = [] ∧ s.shutdownTask = none then
        some { s with phase := .quitting }
      else some { s with phase := .waiting }
    else none
  | .exitLoop =>
    if s.phase = .quitting then
      some { s with running := false, wakeFd := none, phase := .exited }
    else none

section
variable {s : WorkerRuntime} {call : PostCall}

lemma step_takeTask_nil (hphase : s.phase = .draining) (htasks : s.tasks = []) :
    s.step .takeTask = some { s with phase := .drained } := by
  rw [step, if_pos hphase, htasks]

lemma step_takeTask_cons {tasks : List PostCall} (hphase : s.phase = .draining)
    (htasks : s.tasks = call :: tasks) :
    s.step .takeTask =
      some { s with tasks, executed := s.executed ++ [call], phase := .executing } := by
  rw [step, if_pos hphase, htasks]

lemma step_finishTask (hphase : s.phase = .executing) :
    s.step .finishTask = some { s with phase := .draining } := if_pos hphase

lemma step_takeShutdown_none (hphase : s.phase = .drained) (hnone : s.shutdownTask = none) :
    s.step .takeShutdown = some { s with phase := .deciding } := by
  rw [step, if_pos hphase, hnone]

lemma step_takeShutdown_some (hphase : s.phase = .drained) (hsome : s.shutdownTask = some call) :
    s.step .takeShutdown = some { s with
      shutdownTask := none
      executed := s.executed ++ [call]
      phase := .executingShutdown } := by
  rw [step, if_pos hphase, hsome]

lemma step_finishShutdown (hphase : s.phase = .executingShutdown) :
    s.step .finishShutdown = some { s with phase := .deciding } := if_pos hphase

lemma step_decide_waiting (hphase : s.phase = .deciding)
    (hgo : ¬ (s.stopping ∧ s.tasks = [] ∧ s.shutdownTask = none)) :
    s.step .decide = some { s with phase := .waiting } := by
  rw [step, if_pos hphase, if_neg hgo]

end

end WorkerRuntime

end AegisGate.Runtime
