import AegisGate.Config
import AegisGate.Lib.Transition
import AegisGate.Runtime.RuntimeGeneration

/-!
# Reload and the retirement pipeline

A reload publishes a new generation and retires the previous one. What follows is driven by
events in the gateway's mailbox: when the last lease is gone the control loop asks every worker
for its balance; when all have answered it stops the checkers and starts a reaper; when the
reaper is done the generation is forgotten.

A `Gateway` is the control loop with everything that runs beside it: requests that take and
release leases, callbacks that are about to post, the workers' tasks and the reaper threads.
A call of `RequestReload` is one step. `HandleGenerationEvents` is not: the events it drained
are handled one by one, and the workers are asked one by one, while the other threads go on.

Generations are addresses. The preparation of a candidate is its outcome: each of its stages may
fail or throw. `Log` is left out, and so is the wake-up of the mailbox's descriptor.
-/

/-! ## The mailbox -/

namespace AegisGate.Runtime

/-- What an event reports. -/
inductive GenerationMailbox.Kind
  | lastRequestLeaseReleased
  | workerBalancesReturned
  | reaperFinished
  deriving DecidableEq, Repr

/-- An event about a generation. -/
structure GenerationMailbox.Event where
  kind : Kind
  generation : ℕ
  deriving DecidableEq, Repr

/-- `GenerationMailbox`, with its default capacity. -/
structure GenerationMailbox where
  capacity : ℕ := 16
  events : List GenerationMailbox.Event := []
  closed : Bool := false

/-- `Post`; `none` is the result false. -/
def GenerationMailbox.post (m : GenerationMailbox) (event : GenerationMailbox.Event) :
    Option GenerationMailbox :=
  if m.closed ∨ m.capacity ≤ m.events.length then none
  else some { m with events := m.events ++ [event] }

/-- The constructor of a generation: one admission for every route. -/
def RuntimeGeneration.ofConfig (version : ℕ) (config : Config) : RuntimeGeneration :=
  { version, admissions := List.range config.routes.length, workers := config.workers }

end AegisGate.Runtime

/-! ## The gateway -/

namespace AegisGate
open Lib AegisGate.Runtime Function List RuntimeGeneration

namespace Gateway

/-- `Gateway::Lifecycle`, from the end of `Start` on. -/
inductive Lifecycle
  | running
  | stopped
  deriving DecidableEq, Repr

/-- An entry of `retiring_generations_`. -/
structure RetiringGeneration where
  generation : ℕ
  returnedWorkerBalances : ℕ := 0
  deriving DecidableEq

/-- `retiring_generations_`, by version. -/
abbrev Retiring := AList fun _ : ℕ => RetiringGeneration

/-- `retiring_generations_.find`. -/
def Retiring.find (retiring : Retiring) (version : ℕ) : Option RetiringGeneration :=
  retiring.lookup version

/-- The steps of the pipeline that are taken once for a generation. -/
inductive Action
  /-- `RequestWorkerBalanceReturn`. -/
  | returnBalances (generation : ℕ)
  /-- `StopCheckers`. -/
  | stopCheckers (generation : ℕ)
  /-- The reaper thread starts. -/
  | reap (generation : ℕ)
  deriving DecidableEq, Repr

end Gateway

/-- The gateway and what runs beside its control loop. -/
structure Gateway where
  lifecycle : Gateway.Lifecycle := .running
  /-- The generations by address, those published so far below `published`. -/
  heap : ℕ → RuntimeGeneration
  configs : ℕ → Config
  published : ℕ := 1
  /-- `current_generation_`. -/
  current : ℕ := 0
  /-- `worker_shared_->current_generation`. -/
  workerCurrent : ℕ := 0
  /-- The configuration of `routes_`. -/
  routes : Config
  /-- Which entries of `worker_datas_` are set. -/
  workerDatas : List Bool
  mailbox : GenerationMailbox := {}
  retiring : Gateway.Retiring := ∅
  workersStopped : Bool := false
  /-- The events `HandleGenerationEvents` has drained and not handled yet. -/
  batch : List GenerationMailbox.Event := []
  /-- The generation and the next worker of a `RequestWorkerBalanceReturn` in progress. -/
  asking : Option (ℕ × ℕ) := none
  /-- The tasks in the workers' queues: the worker and the generation. -/
  tasks : List (ℕ × ℕ) := []
  /-- The generations whose last lease is about to be posted. -/
  notifying : List ℕ := []
  /-- The reaper threads. -/
  reapers : List ℕ := []
  actions : List Gateway.Action := []
  /-- The calls of `ReturnGenerationLeaseBalance`: the worker and the generation. -/
  returned : List (ℕ × ℕ) := []
  /-- Some `Post` has returned false. -/
  refused : Bool := false
  /-- `std::terminate` was called. -/
  terminated : Bool := false

namespace Gateway

/-- How a stage of a preparation ends. -/
inductive Outcome
  | ok
  | failed
  | threw
  deriving DecidableEq, Repr

/-- The preparation of a candidate: the constructor of the generation and the calls on the two
coordinators. -/
structure Preparation where
  construct : Outcome := .ok
  startPrepared : Outcome := .ok
  exportProtection : Outcome := .ok
  importProtection : Outcome := .ok
  activate : Outcome := .ok
  deriving DecidableEq

/-- The preparation reaches its end without a failure and without an exception. -/
def Preparation.succeeds (p : Preparation) : Bool :=
  [p.construct, p.startPrepared, p.exportProtection, p.importProtection, p.activate].all
    (· == .ok)

/-- Generations that may retire at once. -/
def kMaxRetiringGenerations : ℕ := 2

variable (w : Gateway)

/-- Change a generation in place. -/
def setGeneration (g : ℕ) (generation : RuntimeGeneration) : Gateway :=
  { w with heap := update w.heap g generation }

/-- A `Post` whose result is ignored. -/
def post (event : GenerationMailbox.Event) : Gateway :=
  match w.mailbox.post event with
  | none => { w with refused := true }
  | some mailbox => { w with mailbox }

/-- A `Post` guarded by `std::terminate`. -/
def postOrTerminate (event : GenerationMailbox.Event) : Gateway :=
  match w.mailbox.post event with
  | none => { w with refused := true, terminated := true }
  | some mailbox => { w with mailbox }

/-- `StartRetirementReaper`. -/
def startRetirementReaper (g : ℕ) : Gateway :=
  match (w.heap g).beginReaping with
  | none => w
  | some (generation, _) =>
    { w.setGeneration g generation with
      reapers := w.reapers ++ [g]
      actions := w.actions ++ [.reap g] }

/-- `StopCheckers`, `NotifyCheckersStopped` and the reaper. -/
def stopCheckers (g : ℕ) : Gateway :=
  let w : Gateway := { w with actions := w.actions ++ [.stopCheckers g] }
  match (w.heap g).notifyCheckersStopped with
  | none => w
  | some (generation, _) => (w.setGeneration g generation).startRetirementReaper g

/-- `RequestWorkerBalanceReturn`, up to its loop. -/
def requestWorkerBalanceReturn (g : ℕ) : Gateway :=
  let w : Gateway := { w with actions := w.actions ++ [.returnBalances g] }
  if w.workersStopped ∨ w.workerDatas = [] then w.stopCheckers g
  else { w with asking := some (g, 0) }

/-- One turn of the loop of `RequestWorkerBalanceReturn`; `accepted` is the answer of
`PostWithLoop`. -/
def askWorker (g index : ℕ) (accepted : Bool) : Gateway :=
  let next : Gateway := { w with
    asking := if index + 1 < w.workerDatas.length then some (g, index + 1) else none }
  match w.workerDatas[index]? with
  | some true =>
    if accepted then { next with tasks := w.tasks ++ [(index, g)] }
    else { w with terminated := true }
  | _ => next.post ⟨.workerBalancesReturned, g⟩

/-- `HandleGenerationEvents` for one event. -/
def handleEvent (event : GenerationMailbox.Event) : Gateway :=
  let g := event.generation
  let version := (w.heap g).version
  match Retiring.find w.retiring version with
  | none => w
  | some entry => match event.kind with
    | .lastRequestLeaseReleased => w.requestWorkerBalanceReturn g
    | .workerBalancesReturned =>
      let returned := entry.returnedWorkerBalances + 1
      let w : Gateway := { w with
        retiring := w.retiring.insert version { entry with returnedWorkerBalances := returned } }
      if returned = w.workerDatas.length then w.stopCheckers g else w
    | .reaperFinished =>
      { w.setGeneration g (w.heap g).markRetired.1 with retiring := w.retiring.erase version }

/-- `RetireGeneration`. A generation without a lease is posted before `BeginRetirement`
returns. -/
def retireGeneration (g : ℕ) : Gateway :=
  let version := (w.heap g).version
  if version ∈ w.retiring then w
  else match (w.heap g).beginRetirement with
    | none => w
    | some (generation, calls) =>
      let w : Gateway := { w.setGeneration g generation with
        retiring := w.retiring.insert version { generation := g } }
      if .lastLease ∈ calls then w.postOrTerminate ⟨.lastRequestLeaseReleased, g⟩ else w

/-- The publication of a prepared candidate: the route table and both pointers. -/
def publish (candidate : Config) : Gateway :=
  let replacement := ofConfig ((w.heap w.current).version + 1) candidate
  { w with
    heap := update w.heap w.published replacement
    configs := update w.configs w.published candidate
    published := w.published + 1
    routes := candidate
    current := w.published
    workerCurrent := w.published }

/-- `RequestReload` on the control loop, with its result. -/
def requestReload (candidate : Config) (p : Preparation) : Gateway × Bool :=
  if w.lifecycle ≠ .running then (w, false)
  else if candidate.workers ≠ (w.heap w.current).workers then (w, false)
  else if kMaxRetiringGenerations ≤ w.retiring.keys.length then (w, false)
  else if p.succeeds = false then (w, false)
  else ((w.publish candidate).retireGeneration w.current, true)

/-- What the threads of the process do. -/
inductive Event
  | requestReload (candidate : Config) (p : Preparation)
  /-- A worker takes a lease of a generation it has loaded. -/
  | acquire (g : ℕ)
  /-- A lease is released, up to its callback. -/
  | release (g : ℕ)
  /-- The callback of the last lease posts. -/
  | notify (index : ℕ)
  /-- `HandleGenerationEvents` drains the mailbox. -/
  | drain
  /-- `HandleGenerationEvents` handles the next event. -/
  | handle
  /-- `RequestWorkerBalanceReturn` asks the next worker. -/
  | ask (accepted : Bool)
  /-- A worker runs a task of `RequestWorkerBalanceReturn`. -/
  | runTask (index : ℕ)
  /-- A reaper has stopped its coordinator and posts. -/
  | finishReaper (index : ℕ)
  /-- The destructor begins. -/
  | stop
  /-- The destructor has joined the workers. -/
  | stopWorkers

/-- The control loop waits. -/
def idle : Bool := w.batch.isEmpty && w.asking.isNone

/-- The state after an event; `none` when it cannot happen. -/
def step (w : Gateway) (e : Event) : Option Gateway :=
  if w.terminated then none
  else match e with
  | .requestReload candidate p => if w.idle then some (w.requestReload candidate p).1 else none
  | .acquire g =>
    if g < w.published then (w.heap g).tryAcquireRequestLease.map (w.setGeneration g) else none
  | .release g =>
    if g < w.published then
      (w.heap g).releaseRequestLease.map fun (generation, calls) =>
        { w.setGeneration g generation with
          notifying := w.notifying ++ replicate (calls.count .lastLease) g }
    else none
  | .notify index =>
    (w.notifying[index]?).map fun g =>
      { w with notifying := w.notifying.eraseIdx index }.postOrTerminate
        ⟨.lastRequestLeaseReleased, g⟩
  | .drain =>
    if w.idle then
      some { w with batch := w.mailbox.events, mailbox := { w.mailbox with events := [] } }
    else none
  | .handle =>
    match w.asking, w.batch with
    | none, event :: batch => some ({ w with batch }.handleEvent event)
    | _, _ => none
  | .ask accepted => w.asking.map fun (g, index) => w.askWorker g index accepted
  | .runTask index =>
    (w.tasks[index]?).map fun (worker, g) =>
      { w with
        tasks := w.tasks.eraseIdx index
        returned := w.returned ++ [(worker, g)] }.postOrTerminate ⟨.workerBalancesReturned, g⟩
  | .finishReaper index =>
    (w.reapers[index]?).map fun g =>
      { w with reapers := w.reapers.eraseIdx index }.postOrTerminate ⟨.reaperFinished, g⟩
  | .stop => if w.idle then some { w with lifecycle := .stopped } else none
  | .stopWorkers =>
    if w.idle ∧ w.lifecycle = .stopped ∧ w.tasks = [] then
      some { w with
        workerDatas := w.workerDatas.map fun _ => false
        workersStopped := true }
    else none

/-- The gateway as it starts. -/
def create (config : Config) : Gateway where
  heap := update (fun _ => ofConfig 0 config) 0
    (ofConfig 1 config)
  configs := fun _ => config
  routes := config
  workerDatas := replicate config.workers.toNat true

end Gateway
end AegisGate
