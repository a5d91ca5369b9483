import AegisGate.Config
import AegisGate.Health.OutcomeChannel

/-!
# What a proxy transaction holds

A transaction holds the global in-flight reservation and the metric handle of its
request, one active-endpoint slot and one outcome reservation per upstream attempt, and
emits one log record. Each is a move-only guard or guarded by a flag, so releasing it a
second time does nothing. The operations below are the places of
`src/proxy/ProxyTransaction.cpp` that release or emit one of them.

`trace` is the history of the transaction, newest first: what it released or emitted,
and the points of its life the statements refer to. No branch reads it.
-/

namespace AegisGate.Proxy
open Health

/-- The terminal result of an upstream exchange. -/
inductive UpstreamResult
  | success
  | connectError
  | writeError
  | readError
  | eof
  | protocolError
  | unsupported
  deriving DecidableEq, Repr

/-- The reason a request's metric and log record carry. -/
inductive TerminalReason
  | none
  | clientGone
  | clientAbort
  | coordinatorOverloaded
  | noHealthyEndpoint
  | committedTruncated
  | upstreamFailure
  | timeout
  deriving DecidableEq, Repr

/-- One entry of a transaction's history. Attempts are numbered from `0`. -/
inductive Effect
  /-- The attempt provider was called. -/
  | providerCalled
  /-- `Execute` was called for the attempt. -/
  | started (attempt : ℕ)
  /-- The exchange of the attempt ended; `status` is that of the response head the
  upstream sent, when it sent one. -/
  | delivered (attempt : ℕ) (result : UpstreamResult) (status : Option ℕ)
  /-- A deadline ended the running attempt. -/
  | timedOut (attempt : ℕ)
  /-- A client abort ended the running attempt. -/
  | aborted (attempt : ℕ)
  /-- `downstream_response_committed_` was set. -/
  | committed
  /-- `finished_` was set. -/
  | ended
  | inflightReleased
  | metricCompleted (status : ℕ) (upstream : Option Config.Endpoint) (reason : TerminalReason)
  | logged (status : ℕ) (reason : TerminalReason) (retries : ℕ)
  | activeAcquired (attempt : ℕ)
  | activeReleased (attempt : ℕ)
  /-- The attempt came with an outcome reservation for this route, endpoint and permit. -/
  | reserved (attempt routeIndex endpointIndex : ℕ) (permit : AttemptPermit)
  | published (attempt : ℕ) (result : AttemptResult)
  /-- The outcome reservation was finalized without a result. -/
  | cancelled (attempt : ℕ)
  deriving DecidableEq

namespace Effect

def isMetric : Effect → Bool
  | metricCompleted .. => true
  | _ => false

def isLog : Effect → Bool
  | logged .. => true
  | _ => false

/-- The entry opens the outcome reservation of the attempt. -/
def opens (attempt : ℕ) : Effect → Bool
  | reserved k .. => k == attempt
  | _ => false

/-- The entry finalizes the outcome reservation of the attempt. -/
def finalizes (attempt : ℕ) : Effect → Bool
  | published k _ => k == attempt
  | cancelled k => k == attempt
  | _ => false

end Effect

/-- The breaker link of one attempt. `attempt` records which one it was installed for;
`finalized` is that of its outcome reservation. -/
structure BreakerLink where
  attempt : ℕ
  routeIndex : ℕ
  endpointIndex : ℕ
  permit : AttemptPermit
  finalized : Bool := false
  deriving DecidableEq

def BreakerLink.outcome (link : BreakerLink) (success : Bool) : AttemptResult :=
  { routeIndex := link.routeIndex, endpointIndex := link.endpointIndex, permit := link.permit
    success }

/-- The guards a transaction owns, with its history. -/
structure Ledger where
  reservation : Bool := true
  metricRequest : Bool := false
  hasLogCallback : Bool := true
  isLogged : Bool := false
  activeReservation : Option ℕ := none
  breakerLink : Option BreakerLink := none
  attemptAccounted : Bool := false
  trace : List Effect := []

namespace Ledger

section
variable (l : Ledger)

def emit (e : Effect) : Ledger := { l with trace := e :: l.trace }

/-- `reservation_.reset()`. -/
def releaseReservation : Ledger :=
  if l.reservation then { l with reservation := false }.emit .inflightReleased else l

/-- `active_reservation_.Release()`. -/
def releaseActive : Ledger :=
  match l.activeReservation with
  | none => l
  | some attempt => { l with activeReservation := none }.emit (.activeReleased attempt)

/-- The move assignment of a new attempt's slot. -/
def acquireActive (attempt : ℕ) : Ledger :=
  { l.releaseActive with activeReservation := some attempt }.emit (.activeAcquired attempt)

/-- `metric_request_.Complete`. -/
def completeMetric (status : ℕ) (upstream : Option Config.Endpoint)
    (reason : TerminalReason) : Ledger :=
  if l.metricRequest then
    { l with metricRequest := false }.emit (.metricCompleted status upstream reason)
  else l

def logTerminal (status : ℕ) (reason : TerminalReason) (retries : ℕ) : Ledger :=
  if l.isLogged || !l.hasLogCallback then l
  else { l with isLogged := true }.emit (.logged status reason retries)

/-- `Reservation::Publish` through the link. -/
def publish (link : BreakerLink) (success : Bool) : Ledger :=
  if link.finalized then l
  else { l with breakerLink := some { link with finalized := true } }.emit
    (.published link.attempt (link.outcome success))

/-- `AccountSuccess` and `AccountFailure`. -/
def account (success : Bool) : Ledger :=
  match l.breakerLink with
  | none => l
  | some link =>
    if l.attemptAccounted then l
    else { l with attemptAccounted := true }.publish link success

/-- `breaker_link_.reset()`: the destructor of the reservation finalizes it. -/
def resetLink : Ledger :=
  match l.breakerLink with
  | none => l
  | some link =>
    if link.finalized then { l with breakerLink := none }
    else { l with breakerLink := none }.emit (.cancelled link.attempt)

/-- The installation of a selection's link for an attempt, over the reset link. -/
def installLink (attempt : ℕ) : Option (ℕ × ℕ × AttemptPermit) → Ledger
  | none => l
  | some (routeIndex, endpointIndex, permit) =>
    { l with breakerLink := some { attempt, routeIndex, endpointIndex, permit } }.emit
      (.reserved attempt routeIndex endpointIndex permit)

end

end Ledger
end AegisGate.Proxy
