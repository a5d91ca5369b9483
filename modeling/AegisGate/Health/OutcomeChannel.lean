import AegisGate.Lib.Ring
import AegisGate.Lib.Transition

/-!
# The outcome channel of a route

A worker reserves one result slot before it connects an accounted attempt. The
reservation is either published, which enqueues the outcome into a ring and wakes
the coordinator, or finalized without a result, which returns the credit. The
coordinator loop is the only consumer and returns one credit per outcome.

Every atomic access of `src/health/OutcomeChannel.cpp` is one event here, so a list
of events is one interleaving of any number of workers with the coordinator loop:
`TryReserve` is its load of `accepting`, its load of `available` and its
compare-exchanges; `Enqueue` is the head increment, the overflow test, the value
write and the ready store; one round of `DrainOnCoordinatorLoop` is the ready test
with the value read, the two writes that clear the slot, the tail increment, the
callback and the credit.

The counters `head`, `tail` and `available` are 32 bits wide. `claims`,
`tailCount`, `consumed`, `credited`, `nextSerial` and `returned` are history
variables: no branch of the model reads them.
-/

namespace AegisGate.Health
open Lib

/-- The license a worker hands back with an attempt outcome. -/
structure AttemptPermit where
  probe : Bool := false
  generation : ℕ := 0
  probeId : ℕ := 0
  deriving DecidableEq, Repr, Inhabited

/-- The terminal outcome of one accounted attempt. -/
structure AttemptResult where
  routeIndex : ℕ := 0
  endpointIndex : ℕ := 0
  permit : AttemptPermit := {}
  success : Bool := false
  deriving DecidableEq, Repr, Inhabited

namespace OutcomeChannel

def kMaxOutcomeCapacity : ℕ := 1048576

/-- `CapacityForRoute`: the product is formed in 64 bits, where it cannot wrap;
`none` is the exception for a zero or excessive capacity. -/
def capacityForRoute (maxInflight retryBudget : ℕ) : Option ℕ :=
  let attempts := maxInflight * (retryBudget + 1)
  if attempts = 0 ∨ kMaxOutcomeCapacity < attempts then none else some attempts

/-- One ring slot: a payload guarded by its ready flag. -/
structure Slot where
  value : AttemptResult := {}
  ready : Bool := false
  deriving DecidableEq, Repr

/-- The state shared between the channel and its outstanding reservations. -/
structure State where
  accepting : Bool := true
  available : ℕ
  head : ℕ := 0
  tail : ℕ := 0
  rejected : ℕ := 0
  capacity : ℕ
  slots : ℕ → Slot := fun _ => {}

/-- The constructor; `none` is `std::invalid_argument`. -/
def State.create (capacity : ℕ) : Option State :=
  if capacity = 0 ∨ kMaxOutcomeCapacity < capacity then none
  else some { available := capacity, capacity := capacity }

/-- `pending()`: outcomes claimed and not yet dequeued. -/
def State.pending (s : State) : ℕ := subW 32 s.head s.tail

/-- How far the `Enqueue` call of a claimed outcome has come. -/
inductive Stage
  /-- `head` was incremented. -/
  | claimed
  /-- The overflow test passed. -/
  | checked
  /-- The value was assigned. -/
  | written
  /-- The ready flag was stored. -/
  | ready
  deriving DecidableEq, Repr

/-- A `Publish` call that has not returned. -/
inductive PublishCall
  /-- `finalized_` is set and `Enqueue` has not yet incremented `head`. -/
  | begun (result : AttemptResult)
  /-- `claimed` is the 32-bit value fetched from `head`; `ticket` is how many
  claims preceded it. -/
  | enqueuing (ticket claimed : ℕ) (result : AttemptResult) (stage : Stage)
  deriving DecidableEq, Repr

/-- A reservation object. `serial` records which successful `TryReserve` its credit
comes from. -/
structure Reservation where
  hasState : Bool := false
  finalized : Bool := false
  publishing : Option PublishCall := none
  serial : ℕ := 0
  deriving DecidableEq, Repr

/-- The object holds a credit. -/
def Reservation.live (r : Reservation) : Bool := r.hasState && !r.finalized

/-- A `TryReserve` call that has not returned. -/
inductive ReserveCall
  /-- `accepting` was read as true. -/
  | accepted
  /-- The loop holds a positive `current`. -/
  | loaded (current : ℕ)
  deriving DecidableEq, Repr

/-- Where the coordinator stands inside one round of `DrainOnCoordinatorLoop`. -/
inductive Drain
  | idle
  | loaded (index : ℕ) (result : AttemptResult)
  | unready (index : ℕ) (result : AttemptResult)
  | reset (result : AttemptResult)
  | advanced (result : AttemptResult)
  | consumed
  deriving DecidableEq, Repr

/-- History of one claim of `head`. -/
structure Claim where
  result : AttemptResult
  serial : ℕ
  stage : Stage
  deriving DecidableEq, Repr

/-- The channel, every reservation object and call, and the history. A destroyed
object or a finished call is `none`. -/
structure World where
  chan : State
  objects : List (Option Reservation) := []
  calls : List (Option ReserveCall) := []
  drain : Drain := .idle
  aborted : Bool := false
  claims : List Claim := []
  tailCount : ℕ := 0
  consumed : List AttemptResult := []
  credited : ℕ := 0
  nextSerial : ℕ := 0
  returned : List ℕ := []

def World.init (s : State) : World := { chan := s }

/-- One atomic access of a worker or of the coordinator loop. -/
inductive Event
  | beginStopping
  | construct
  | reserve
  | reserveLoad (call : ℕ)
  | reserveSwap (call : ℕ) (spurious : Bool)
  | moveConstruct (source : ℕ)
  | moveAssign (target source : ℕ)
  | publish (object : ℕ) (result : AttemptResult)
  | claim (object : ℕ)
  | check (object : ℕ)
  | write (object : ℕ)
  | ready (object : ℕ)
  | cancel (object : ℕ)
  | destroy (object : ℕ)
  | drainLoad
  | drainUnready
  | drainReset
  | drainAdvance
  | drainConsume
  | drainCredit
  deriving DecidableEq, Repr

namespace World

section
variable (w : World)

/-- The object at an index, if it was constructed and not destroyed. -/
def object (i : ℕ) : Option Reservation := (w.objects[i]?).join

/-- An object no call is running on; only such an object is moved or destroyed. -/
def quiet (i : ℕ) : Option Reservation :=
  (w.object i).filter fun o => o.publishing.isNone

/-- The `publishing` call of an object. -/
def publishCall (i : ℕ) : Option (Reservation × PublishCall) :=
  (w.object i).bind fun o => o.publishing.map fun p => (o, p)

/-- `rejected.fetch_add(1)`, and the call returns `nullopt`. -/
def reject (i : ℕ) : World :=
  { w with
    chan := { w.chan with rejected := incW 64 w.chan.rejected }
    calls := w.calls.set i none }

/-- The load of `available` into `current` and the test of the `while` loop. -/
def reload (i : ℕ) : World :=
  if w.chan.available = 0 then w.reject i
  else { w with calls := w.calls.set i (some (.loaded w.chan.available)) }

/-- The credit part of `Finalize`. -/
def giveBack (o : Reservation) : World :=
  if o.live then
    { w with
      chan := { w.chan with available := incW 32 w.chan.available }
      returned := w.returned ++ [o.serial] }
  else w

/-- `Finalize` leaves an object without state. -/
def emptied (o : Reservation) : Reservation := { o with hasState := false, finalized := true }

/-- A move from another object. -/
def takeOver (o source : Reservation) : Reservation :=
  { o with hasState := source.hasState, finalized := source.finalized, serial := source.serial }

/-- Overwrite the slot `claimed % capacity`. -/
def setSlot (index : ℕ) (s : Slot) : World :=
  { w with chan := { w.chan with slots := Function.update w.chan.slots index s } }

/-- Record the stage a claim has reached, in its object and in the history. -/
def setStage (i : ℕ) (o : Reservation) (ticket claimed : ℕ) (r : AttemptResult)
    (stage : Stage) : World :=
  { w with
    objects := w.objects.set i
      (some { o with publishing := some (.enqueuing ticket claimed r stage) })
    claims := w.claims.modify ticket fun c => { c with stage := stage } }

end

end World

open World

/-- One step of the interleaving. After `std::terminate` nothing happens any more;
`none` otherwise means that the event's call is not at that point. -/
def step (w : World) (e : Event) : Option World :=
  if w.aborted then none else
  match e with
  | .beginStopping => some { w with chan := { w.chan with accepting := false } }
  | .construct => some { w with objects := w.objects ++ [some {}] }
  | .reserve =>
    if w.chan.accepting then some { w with calls := w.calls ++ [some .accepted] }
    else some { w with chan := { w.chan with rejected := incW 64 w.chan.rejected } }
  | .reserveLoad i =>
    match (w.calls[i]?).join with
    | some .accepted => some (w.reload i)
    | _ => none
  | .reserveSwap i spurious =>
    match (w.calls[i]?).join with
    | some (.loaded current) =>
      if spurious = false ∧ w.chan.available = current then
        some { w with
          chan := { w.chan with available := current - 1 }
          calls := w.calls.set i none
          objects := w.objects ++ [some { hasState := true, serial := w.nextSerial }]
          nextSerial := w.nextSerial + 1 }
      else some (w.reload i)
    | _ => none
  | .moveConstruct i =>
    (w.quiet i).map fun o =>
      { w with objects := w.objects.set i (some (emptied o)) ++ [some (takeOver {} o)] }
  | .moveAssign i j =>
    (w.quiet i).bind fun o => (w.quiet j).map fun p =>
      -- Self-assignment returns at once.
      if i = j then w else
      { w.giveBack o with
        objects := (w.objects.set i (some (takeOver o p))).set j (some (emptied p)) }
  | .publish i r =>
    (w.quiet i).map fun o =>
      if o.live then
        { w with objects :=
            w.objects.set i (some { o with finalized := true, publishing := some (.begun r) }) }
      else w
  | .claim i =>
    match w.publishCall i with
    | some (o, .begun r) =>
      some { w with
        chan := { w.chan with head := incW 32 w.chan.head }
        objects := w.objects.set i (some { o with
          publishing := some (.enqueuing w.claims.length w.chan.head r .claimed) })
        claims := w.claims ++ [⟨r, o.serial, .claimed⟩] }
    | _ => none
  | .check i =>
    match w.publishCall i with
    | some (o, .enqueuing t c r .claimed) =>
      if w.chan.capacity ≤ subW 32 c w.chan.tail then some { w with aborted := true }
      else some (w.setStage i o t c r .checked)
    | _ => none
  | .write i =>
    match w.publishCall i with
    | some (o, .enqueuing t c r .checked) =>
      let index := c % w.chan.capacity
      some ((w.setSlot index { w.chan.slots index with value := r }).setStage i o t c r .written)
    | _ => none
  | .ready i =>
    match w.publishCall i with
    | some (o, .enqueuing t c _ .written) =>
      let index := c % w.chan.capacity
      let w' := w.setSlot index { w.chan.slots index with ready := true }
      some { w' with
        objects := w.objects.set i (some { o with publishing := none })
        claims := w.claims.modify t fun c => { c with stage := .ready } }
    | _ => none
  | .cancel i =>
    (w.quiet i).map fun o =>
      { w.giveBack o with objects := w.objects.set i (some (emptied o)) }
  | .destroy i => (w.quiet i).map fun o => { w.giveBack o with objects := w.objects.set i none }
  | .drainLoad =>
    let index := w.chan.tail % w.chan.capacity
    if w.drain = .idle ∧ (w.chan.slots index).ready then
      some { w with drain := .loaded index (w.chan.slots index).value }
    else none
  | .drainUnready =>
    match w.drain with
    | .loaded index r =>
      some { w.setSlot index { w.chan.slots index with ready := false } with
        drain := .unready index r }
    | _ => none
  | .drainReset =>
    match w.drain with
    | .unready index r =>
      some { w.setSlot index { w.chan.slots index with value := {} } with drain := .reset r }
    | _ => none
  | .drainAdvance =>
    match w.drain with
    | .reset r =>
      some { w with
        chan := { w.chan with tail := incW 32 w.chan.tail }
        tailCount := w.tailCount + 1
        drain := .advanced r }
    | _ => none
  | .drainConsume =>
    match w.drain with
    | .advanced r => some { w with consumed := w.consumed ++ [r], drain := .consumed }
    | _ => none
  | .drainCredit =>
    match w.drain with
    | .consumed =>
      some { w with
        chan := { w.chan with available := incW 32 w.chan.available }
        returned := w.returned ++ ((w.claims[w.credited]?).map Claim.serial).toList
        credited := w.credited + 1
        drain := .idle }
    | _ => none

end OutcomeChannel
end AegisGate.Health
