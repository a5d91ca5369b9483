import AegisGate.Health.CoordinatorState
import AegisGate.Net.TimerQueue

/-!
# The coordinator loop

The coordinator thread owns the breakers and the timers that move an open breaker to
half-open. `arm_timers` remembers, for each route and endpoint, the identifier of the
pending arm timer, or zero.

A `World` is a coordinator with the last reading of its clock. An event is one
activation of the loop: recording one outcome, one round of the timer loop, a health
result, a publication, or what the health checkers and the refill tick do with the
timer queue, which is left open except that they cancel only timers of their own.
Every reading of the clock that the code takes is an input of the event, and
readings never decrease.
-/

namespace AegisGate.Health
open Lib Resilience Net Option

/-- What a timer of the coordinator loop does when it fires. -/
inductive TimerCallback
  /-- The callback of `ScheduleArm`. -/
  | arm (route endpoint : ℕ)
  /-- A timer of a health checker or of the refill tick. -/
  | other (owner : ℕ)
  deriving DecidableEq, Repr

inductive Lifecycle
  | prepared
  | active
  | stopping
  | stopped
  deriving DecidableEq, Repr

structure LoopData where
  timers : TimerQueue TimerCallback := {}
  armTimers : Grid ℕ

def LoopData.setArm (data : LoopData) (route endpoint identifier : ℕ) : LoopData :=
  { data with armTimers := data.armTimers.update route endpoint fun _ => identifier }

/-- The coordinator, the snapshot it shows and its loop. -/
structure Coordinator where
  state : CoordinatorState
  snapshot : HealthCircuitSnapshot := {}
  loopData : Option LoopData := none
  lifecycle : Lifecycle := .active
  runtimeStarted : Bool := false

namespace Coordinator

section
variable (c : Coordinator)

/-- The state is shown to the workers. -/
def publish : Coordinator :=
  let (state, snapshot) := c.state.buildSnapshot
  { c with state := state, snapshot := snapshot }

/-- The constructor; `none` is an exception of a breaker or of `CapacityForRoute`. -/
def create (config : Config) (now : Instant) : Option Coordinator := do
  let state ← CoordinatorState.create config now
  let _ ← (config.routes.filter fun route => route.circuitBreaker.isSome).mapM
    fun (route : Config.Route) =>
      OutcomeChannel.capacityForRoute route.maxInflight.toNat route.retryBudget.toNat
  pure ({ state := state } : Coordinator).publish

/-- `OnLoopInit`: no arm timer is pending. -/
def onLoopInit : Coordinator :=
  { c with
    loopData := some
      { armTimers := c.state.config.routes.map fun route => route.endpoints.map fun _ => 0 } }

/-- `StartPrepared`; `none` is `std::logic_error`. -/
def startPrepared : Option Coordinator :=
  if c.runtimeStarted ∨ c.lifecycle ≠ .active then none
  else some { c.onLoopInit with lifecycle := .prepared, runtimeStarted := true }

/-- `Activate`: it starts the health checkers and the refill tick, whose timers are
left to the events of the loop. -/
def activate : Option Coordinator :=
  if c.lifecycle ≠ .prepared ∨ c.loopData.isNone then none
  else some { c with lifecycle := .active }

def start : Option Coordinator := c.startPrepared.bind activate

/-- `ImportProtectionSnapshotAndWait`, when its task runs before the timeout. -/
def importProtectionSnapshotAndWait (snapshot : ProtectionSnapshot)
    (now : Instant) : Option Coordinator :=
  if c.lifecycle ≠ .prepared then none
  else some ({ c with state := c.state.importProtectionSnapshot snapshot now } :
    Coordinator).publish

/-- `ExportProtectionSnapshotAndWait`, when its task runs before the timeout. -/
def exportProtectionSnapshotAndWait (now : Instant) : Option ProtectionSnapshot :=
  if c.lifecycle = .prepared ∨ c.lifecycle = .active then
    some (c.state.exportProtectionSnapshot now)
  else none

/-- `ScheduleArm`, with the readings taken by itself and by `ScheduleAfter`. The
outer `none` is the exception of an exhausted timer counter. -/
def scheduleArm (route endpoint : ℕ) (now scheduleNow : Instant) : Option Coordinator :=
  match c.loopData.bind fun data =>
    (data.armTimers.cell route endpoint).map fun id => (data, id) with
  | none => some c
  | some (data, timerId) =>
    let timers := if timerId ≠ 0 then (data.timers.cancel timerId).1 else data.timers
    let disarmed := ({ data with timers := timers } : LoopData).setArm route endpoint 0
    match c.state.openUntil route endpoint with
    | none => some { c with loopData := some disarmed }
    | some openUntil =>
      if openUntil ≤ now then some { c with loopData := some disarmed }
      else
        (timers.scheduleAfter scheduleNow (openUntil - now) (.arm route endpoint)).map
          fun (timers, id) =>
            { c with loopData := some (({ data with timers := timers } : LoopData).setArm
                route endpoint id) }

def recordResultDirect (result : AttemptResult) (now armNow scheduleNow : Instant) :
    Option Coordinator :=
  let c := { c with state := c.state.recordResult result now }
  if c.state.isOpen result.routeIndex result.endpointIndex then
    c.scheduleArm result.routeIndex result.endpointIndex armNow scheduleNow
  else some c

/-- The callback of an arm timer, which reads the clock before it decides. -/
def armCallback (route endpoint : ℕ) (firedAt armNow scheduleNow : Instant) : Option Coordinator :=
  let c := { c with
    loopData := c.loopData.map fun (data : LoopData) => data.setArm route endpoint 0 }
  match c.state.isOpen route endpoint, c.state.openUntil route endpoint with
  | true, some openUntil =>
    -- The timer can fire before the window has elapsed: re-arm.
    if firedAt < openUntil then c.scheduleArm route endpoint armNow scheduleNow
    else some ({ c with state := c.state.armHalfOpen route endpoint firedAt } : Coordinator).publish
  | _, _ => some c.publish

end

/-! ## What the life-cycle calls do -/

section Lifecycle
variable {c c' : Coordinator}

lemma create_some {config : Config} {now : Instant} (h : Coordinator.create config now = some c) :
    ∃ state, CoordinatorState.create config now = some state ∧
      c = ({ state := state } : Coordinator).publish := by
  simp only [Coordinator.create, bind_eq_bind, pure_def, bind_eq_some_iff,
    some.injEq] at h
  obtain ⟨state, hstate, -, -, rfl⟩ := h
  exact ⟨state, hstate, rfl⟩

lemma startPrepared_some (h : c.startPrepared = some c') :
    c' = { c.onLoopInit with lifecycle := .prepared, runtimeStarted := true } := by
  unfold startPrepared at h
  split at h <;> cases h
  rfl

lemma activate_some (h : c.activate = some c') : c' = { c with lifecycle := .active } := by
  unfold activate at h
  split at h <;> cases h
  rfl

lemma importProtectionSnapshotAndWait_some {snapshot : ProtectionSnapshot} {now : Instant}
    (h : c.importProtectionSnapshotAndWait snapshot now = some c') :
    c' = publish { c with state := c.state.importProtectionSnapshot snapshot now } := by
  unfold importProtectionSnapshotAndWait at h
  split at h <;> cases h
  rfl

end Lifecycle

/-! ## The loop -/

/-- One activation of the loop, with the readings of the clock it takes. -/
inductive Event
  /-- An outcome was drained, or a result task runs. -/
  | record (result : AttemptResult) (now armNow scheduleNow : Instant)
  /-- One round of `HandleReadable`, which was entered at `now`. -/
  | fire (now firedAt armNow scheduleNow : Instant)
  | recordHealth (route endpoint : ℕ) (healthy : Bool)
  | publish
  /-- A health checker or the refill tick schedules a timer. -/
  | schedule (owner : ℕ) (now : Instant) (delay : ℤ)
  /-- A health checker cancels a timer of its own. -/
  | cancel (identifier : ℕ)
  /-- Time passes. -/
  | advance (now : Instant)
  deriving DecidableEq, Repr

/-- A coordinator and the last reading of its clock. -/
structure World where
  coordinator : Coordinator
  clock : Instant

/-- A timer of the loop fires. -/
def runCallback (c : Coordinator) (firedAt armNow scheduleNow : Instant) :
    TimerCallback → Option Coordinator
  | .arm route endpoint => c.armCallback route endpoint firedAt armNow scheduleNow
  | .other _ => some c

/-- One activation of the loop; `none` if the clock would run backwards, no such timer
is due, or an exception ends the loop. -/
def step (w : World) : Event → Option World
  | .record result now armNow scheduleNow =>
    if w.clock ≤ now ∧ now ≤ armNow ∧ armNow ≤ scheduleNow then
      (w.coordinator.recordResultDirect result now armNow scheduleNow).map fun c =>
        ⟨c, scheduleNow⟩
    else none
  | .fire now firedAt armNow scheduleNow =>
    if now ≤ firedAt ∧ w.clock ≤ firedAt ∧ firedAt ≤ armNow ∧ armNow ≤ scheduleNow then
      w.coordinator.loopData.bind fun data =>
        (data.timers.popDue now).bind fun (callback, _, timers) =>
          (runCallback { w.coordinator with loopData := some { data with timers := timers } }
            firedAt armNow scheduleNow callback).map fun c => ⟨c, scheduleNow⟩
    else none
  | .recordHealth route endpoint healthy =>
    let c := w.coordinator
    some { w with
      coordinator := publish { c with state := c.state.recordHealth route endpoint healthy } }
  | .publish => some { w with coordinator := w.coordinator.publish }
  | .schedule owner now delay =>
    if w.clock ≤ now then
      w.coordinator.loopData.bind fun data =>
        (data.timers.scheduleAfter now delay (.other owner)).map fun (timers, _) =>
          ⟨{ w.coordinator with loopData := some { data with timers := timers } }, now⟩
    else none
  | .cancel identifier =>
    w.coordinator.loopData.bind fun data =>
      if data.timers.timers.any fun t => t.1.2 == identifier && t.2 matches .arm .. then none
      else some { w with coordinator := { w.coordinator with
        loopData := some { data with timers := (data.timers.cancel identifier).1 } } }
  | .advance now => if w.clock ≤ now then some { w with clock := now } else none

end Coordinator
end AegisGate.Health
