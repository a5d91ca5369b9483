import AegisGate.Config.Loader
import AegisGate.Lib.EventFd
import AegisGate.Lib.Load
import AegisGate.Lib.Transition

/-!
# The reload controller

`Request` starts a thread that reads and parses the configuration file, or, while there is one,
sets a flag. The thread queues its result and tests the flag in one critical section: it parses
once more if there was another request meanwhile, and ends otherwise. `Drain` takes the queue on
the control loop, which an `eventfd` wakes, and the gateway uses the newest result.

Every critical section of `src/runtime/ReloadController.cpp` is one event; so are the start and
the end of a read, and the reset of the counter in `Drain`. Threads are kept when they have ended,
and every event of a thread names it. Creating a thread and writing to the wake descriptor
succeed.

`clock`, `requests`, `files`, `published` and `picked` are history variables. The clock counts
events.
-/

namespace AegisGate.Runtime
open Lib Config

/-- A parse, with the time its read of the file started. -/
structure ReloadResult where
  candidate : Except String Config
  sequence : ℕ := 0
  readStart : ℕ

inductive ParserPhase
  /-- Before the read. -/
  | fresh
  | reading (start : ℕ)
  /-- Before the critical section. -/
  | parsed (result : ReloadResult)
  /-- The loop has ended. -/
  | done

def ParserPhase.isActive : ParserPhase → Bool
  | .done => false
  | _ => true

/-- `ReadFile` and `LoadFromYaml`; `none` is a file that cannot be opened. -/
def parseFile : Option (Except String Node) → Except String Config
  | none => .error "failed to open configuration file"
  | some document => loadFromYaml document

/-- The controller and its parser threads. -/
structure ReloadController where
  results : List ReloadResult := []
  threads : List ParserPhase := []
  wakeFd : EventFd := {}
  nextSequence : ℕ := 1
  stopping : Bool := false
  parsing : Bool := false
  pending : Bool := false
  /-- `Drain` has reset the counter and not yet taken the queue. -/
  draining : Bool := false
  clock : ℕ := 0
  /-- When a request was answered with `true`. -/
  requests : List ℕ := []
  /-- What the reads that have ended returned, with the time each one started. -/
  files : List (ℕ × Option (Except String Node)) := []
  /-- All results that were queued. -/
  published : List ReloadResult := []
  /-- The result that the gateway took from each `Drain`. -/
  picked : List ReloadResult := []

/-- What can happen; `thread` is the place of a thread in the list. -/
inductive ReloadEvent
  | request
  | beginRead (thread : ℕ)
  /-- The read and the parse end. -/
  | parse (thread : ℕ) (file : Option (Except String Node))
  | publish (thread : ℕ)
  /-- `Drain` resets the counter. -/
  | drainRead
  /-- `Drain` takes the queue. -/
  | drainSwap
  /-- The critical section of `Stop`. -/
  | stop

namespace ReloadController

section
variable (s : ReloadController)

def request : ReloadController :=
  if s.stopping then s
  else
    let s := { s with requests := s.requests ++ [s.clock] }
    if s.parsing then { s with pending := true }
    else { s with parsing := true, threads := s.threads ++ [.fresh] }

/-- A result gets its number and is queued, with a wake. -/
def enqueue (result : ReloadResult) : ReloadController :=
  { s with
    nextSequence := s.nextSequence + 1
    results := s.results ++ [{ result with sequence := s.nextSequence }]
    published := s.published ++ [{ result with sequence := s.nextSequence }]
    wakeFd := s.wakeFd.write }

/-- The critical section of `ParseLoop`. -/
def publish (thread : ℕ) (result : ReloadResult) : ReloadController :=
  let s := if s.stopping then s else s.enqueue result
  if s.pending && !s.stopping then
    { s with pending := false, threads := s.threads.set thread .fresh }
  else { s with pending := false, parsing := false, threads := s.threads.set thread .done }

lemma stopping_publish (thread : ℕ) (result : ReloadResult) :
    (s.publish thread result).stopping = s.stopping := by
  rw [publish]
  split <;> split <;> rfl

lemma requests_publish (thread : ℕ) (result : ReloadResult) :
    (s.publish thread result).requests = s.requests := by
  rw [publish]
  split <;> split <;> rfl

def apply : ReloadEvent → Option ReloadController
  | .request => some s.request
  | .beginRead thread =>
    match s.threads[thread]? with
    | some .fresh => some { s with threads := s.threads.set thread (.reading s.clock) }
    | _ => none
  | .parse thread file =>
    match s.threads[thread]? with
    | some (.reading start) =>
      let result := { candidate := parseFile file, readStart := start }
      some { s with
        threads := s.threads.set thread (.parsed result)
        files := s.files ++ [(start, file)] }
    | _ => none
  | .publish thread =>
    match s.threads[thread]? with
    | some (.parsed result) => some (s.publish thread result)
    | _ => none
  | .drainRead =>
    if s.draining then none else some { s with wakeFd := s.wakeFd.read, draining := true }
  | .drainSwap =>
    if s.draining then
      -- `HandleReloadResults` takes the last one.
      some { s with
        results := []
        draining := false
        picked := s.picked ++ s.results.getLast?.toList }
    else none
  | .stop => some { s with stopping := true, pending := false }

def step (e : ReloadEvent) : Option ReloadController :=
  (s.apply e).map fun t => { t with clock := s.clock + 1 }

end

end ReloadController

end AegisGate.Runtime
