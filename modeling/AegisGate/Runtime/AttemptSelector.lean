import AegisGate.Health.CoordinatorState

/-!
# Attempts, probes and outcomes

A worker selects an endpoint from a published snapshot. For an endpoint with a breaker the
attempt gets a permit, from the cycle's slot object when the breaker is half-open, and a
reservation in the outcome channel of its route. When the attempt ends the reservation is
published with an outcome, or given back without one; the coordinator drains what was
published into the breaker.

A `Traffic` is the coordinator's state with every snapshot it has published, the outcome
channels, the permits that were taken and the attempts that hold a reservation. The selector is
`src/runtime/AttemptSelector.cpp`; how an attempt ends is `src/proxy/ProxyTransaction.cpp`.
`Select` goes through its candidates; for each of them taking the permit is one event and the
reservation another. The snapshot is any that was published, since a worker keeps the one it
loaded. A channel is here the queue of what was published and not drained, with its credits.
-/

namespace AegisGate.Runtime
open Lib Resilience Health

structure RouteChannel where
  accepting : Bool := true
  available : ℕ
  queue : List AttemptResult := []

/-- An attempt that holds an outcome reservation. -/
structure Attempt where
  route : ℕ
  endpoint : ℕ
  permit : AttemptPermit
  finished : Bool := false
  deriving DecidableEq

def Attempt.outcome (a : Attempt) (success : Bool) : AttemptResult :=
  { routeIndex := a.route, endpointIndex := a.endpoint, permit := a.permit, success }

inductive Terminal
  /-- `HandleUpstream` with `kSuccess`, and the status of the response. -/
  | success (status : ℕ)
  /-- `HandleUpstream` with a failure: the attempt is retried, or the request fails. -/
  | failure (retried committed : Bool)
  /-- `FinishGatewayTimeout`. -/
  | timeout (committed : Bool)
  /-- `HandleClientAbort`. -/
  | abort
  /-- The transaction is destroyed with the callbacks that held it. -/
  | destroyed
  deriving DecidableEq

/-- The outcome the end of an attempt publishes, if it publishes one. -/
def Terminal.outcome (clientAlive : Bool) : Terminal → Option Bool
  | .success status => if clientAlive then some (decide (status < 500)) else none
  | .failure true _ => if clientAlive then some false else none
  | .failure false committed => if committed || clientAlive then some false else none
  | .timeout committed => if committed || clientAlive then some false else none
  | .abort | .destroyed => none

/-- The coordinator, the channels and the attempts. -/
structure Traffic where
  state : CoordinatorState
  active : Bool := true
  published : List HealthCircuitSnapshot := []
  channels : ℕ → Option RouteChannel := fun _ => none
  /-- The attempts that have their permit, and no reservation yet. -/
  claims : List Attempt := []
  attempts : List Attempt := []

namespace Traffic

section
variable (w : Traffic)

def updateChannel (route : ℕ) (f : RouteChannel → RouteChannel) : Traffic :=
  { w with channels := Function.update w.channels route ((w.channels route).map f) }

/-- `ReserveOutcome` succeeds. -/
def reservable (route : ℕ) : Bool :=
  w.active && (w.channels route).any fun c => c.accepting && decide (0 < c.available)

/-- The snapshot lets an endpoint be chosen. -/
def eligible (snapshot : HealthCircuitSnapshot) (route endpoint : ℕ) : Bool :=
  (snapshot.endpoints.cell route endpoint).any fun decision =>
    decision.healthy && decision.breakerState != .opened &&
      !(decision.breakerState == .halfOpen && !w.state.probeAvailable route endpoint)

/-- The permit of an attempt: a probe of the current cycle, or an ordinary one. -/
def takePermit (snapshot : HealthCircuitSnapshot) (route endpoint : ℕ)
    (decision : EndpointDecision) : Traffic × Option AttemptPermit :=
  if decision.breakerState = .halfOpen then
    let (state, claimed) := w.state.claimProbe route endpoint snapshot
    ({ w with state }, claimed)
  else (w, some { generation := decision.generation })

/-- The rest of `MakeSelection` for a permit: the reservation. -/
def reserve (route endpoint : ℕ) (permit : AttemptPermit) : Traffic × Bool :=
  if w.reservable route then
    ({ w.updateChannel route fun c => { c with available := c.available - 1 } with
        attempts := w.attempts ++ [{ route, endpoint, permit }] }, true)
  else (w, false)

/-- `MakeSelection`; the flag says whether there is a selection. -/
def makeSelection (snapshot : HealthCircuitSnapshot) (route endpoint : ℕ) : Traffic × Bool :=
  match snapshot.endpoints.cell route endpoint with
  | none => (w, false)
  | some decision =>
    -- Without a breaker there is no link and nothing to account.
    if decision.generation = 0 then (w, true)
    else match w.takePermit snapshot route endpoint decision with
      | (w, none) => (w, false)
      | (w, some permit) => w.reserve route endpoint permit

/-- `MakeSelection` up to the reservation, for an endpoint with a breaker. `Eligible` was asked
before: what it has seen of the probes may be over. -/
def claim (snapshot : HealthCircuitSnapshot) (route endpoint : ℕ) : Option Traffic :=
  (snapshot.endpoints.cell route endpoint).bind fun decision =>
    if decision.healthy && decision.breakerState != .opened && decision.generation != 0 then
      match w.takePermit snapshot route endpoint decision with
      | (w, none) => some w
      | (w, some permit) => some { w with claims := w.claims ++ [{ route, endpoint, permit }] }
    else none

/-- The reservation of an attempt is published. -/
def publishOutcome (index : ℕ) (a : Attempt) (success : Bool) : Traffic :=
  { w.updateChannel a.route fun c => { c with queue := c.queue ++ [a.outcome success] } with
    attempts := w.attempts.eraseIdx index }

/-- The reservation of an attempt is finalized without a result. -/
def giveBack (index : ℕ) (a : Attempt) : Traffic :=
  { w.updateChannel a.route fun c => { c with available := c.available + 1 } with
    attempts := w.attempts.eraseIdx index }

/-- The end of an attempt. An abort or the destructor resets the link; any other end without
an outcome leaves the reservation with the finished transaction. -/
def finish (index : ℕ) (a : Attempt) (terminal : Terminal) (clientAlive : Bool) : Traffic :=
  match terminal.outcome clientAlive with
  | some success => w.publishOutcome index a success
  | none =>
    if terminal = .abort ∨ terminal = .destroyed then w.giveBack index a
    else { w with attempts := w.attempts.set index { a with finished := true } }

/-- `BuildSnapshot` and its publication. -/
def publish : Traffic :=
  { w with state := w.state.buildSnapshot.1, published := w.published ++ [w.state.buildSnapshot.2] }

/-- One round of `DrainOnCoordinatorLoop`. -/
def drain (route : ℕ) (now : TimePoint) : Option Traffic :=
  match w.channels route with
  | none => none
  | some c => match c.queue with
    | [] => none
    | result :: queue =>
      some { w.updateChannel route fun c => { c with queue, available := c.available + 1 } with
        state := w.state.recordResult result now }

/-- What the coordinator loop and the workers do. -/
inductive Event
  /-- The arm timer of an endpoint fires. -/
  | arm (route endpoint : ℕ) (now : TimePoint)
  | importProtection (snapshot : ProtectionSnapshot) (now : TimePoint)
  | recordHealth (route endpoint : ℕ) (healthy : Bool)
  | publish
  | drain (route : ℕ) (now : TimePoint)
  /-- The coordinator stops accepting reservations. -/
  | stop
  /-- A worker takes the permit for a candidate, with the snapshot it loaded. -/
  | claim (snapshot route endpoint : ℕ)
  /-- It reserves an outcome slot; a permit that gets none is dropped. -/
  | reserve (claim : ℕ)
  /-- An attempt ends. -/
  | finish (attempt : ℕ) (terminal : Terminal) (clientAlive : Bool)
  /-- The transaction of a finished attempt drops its link. -/
  | drop (attempt : ℕ)

/-- The state after an event; `none` when the event cannot happen. -/
def step : Event → Option Traffic
  | .arm route endpoint now => some { w with state := w.state.armHalfOpen route endpoint now }
  | .importProtection snapshot now =>
    some { w with state := w.state.importProtectionSnapshot snapshot now }
  | .recordHealth route endpoint healthy =>
    some { w with state := w.state.recordHealth route endpoint healthy }
  | .publish => some w.publish
  | .drain route now => w.drain route now
  | .stop => some { w with active := false }
  | .claim snapshot route endpoint =>
    (w.published[snapshot]?).bind fun snapshot => w.claim snapshot route endpoint
  | .reserve index =>
    (w.claims[index]?).map fun a =>
      ({ w with claims := w.claims.eraseIdx index }.reserve a.route a.endpoint a.permit).1
  | .finish index terminal clientAlive =>
    match w.attempts[index]? with
    | none => none
    | some a => if a.finished then none else some (w.finish index a terminal clientAlive)
  | .drop index =>
    match w.attempts[index]? with
    | none => none
    | some a => if a.finished then some (w.giveBack index a) else none

end

/-- The constructor: a fresh coordinator with its first snapshot, and a channel for every
route with a breaker. -/
def create (config : Config) (now : TimePoint) : Option Traffic :=
  (CoordinatorState.create config now).map fun state =>
    ({ state
       channels := fun route => (config.routes[route]?).bind fun (rc : Config.Route) =>
        if rc.circuitBreaker.isSome then
          (OutcomeChannel.capacityForRoute rc.maxInflight.toNat rc.retryBudget.toNat).map
            fun available => { available }
        else none } : Traffic).publish

end Traffic
end AegisGate.Runtime
