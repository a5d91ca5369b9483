import AegisGate.Net.ClientConnection
import AegisGate.Net.TimerQueue
import AegisGate.Proxy.Ledger

/-!
# One proxied request

`ProxyTransaction` answers one request of a paused client connection through upstream
attempts. Its handlers are callbacks: of the upstream exchange the pool runs for it, of
the client connection, of its deadlines, and of the tasks it defers to the end of the
epoll batch. An `Exchange` is the transaction with everything these handlers touch, and
each handler of `src/proxy/ProxyTransaction.cpp` is a function on it.

The callbacks may run inside one another: an attempt may end inside `StartUpstream`, and
a write to the client may report the loss of the client to the transaction that writes.
What the environment contributes to a handler is an argument: the provider's decision,
how `Execute` goes, the clock readings, the kernel's answers to `send`.

The transaction is the one the second `Start` overload creates, over a pool; the
overload with a connection of its own has neither provider, breaker nor deadlines.
Responses are streamed, so the buffered response that comes with a result is the
default one: `Reset` empties it and only the buffered parser fills it.
-/

namespace AegisGate.Proxy
open Http Net Health Option

/-- `net::UpstreamProgress`. -/
inductive UpstreamProgress
  | connected
  | requestWritten
  | firstByte
  | responseHeader
  deriving DecidableEq, Repr

/-- Timeouts in milliseconds, the retry budget and the static retry candidates. -/
structure UpstreamPolicy where
  connectTimeout : ℕ := 5000
  firstByteTimeout : ℕ := 5000
  totalTimeout : ℕ := 30000
  retryBudget : ℕ := 1
  retryEndpoints : List Config.Endpoint := []

/-- A choice of the provider: the endpoint and, on a route with a breaker, the route
index, endpoint index and permit of the link. -/
structure AttemptSelection where
  endpoint : Config.Endpoint
  link : Option (ℕ × ℕ × AttemptPermit) := none

/-- What the provider answers. -/
structure AttemptDecision where
  selection : Option AttemptSelection
  coordinatorOverloaded : Bool := false

/-- The results `UpstreamConnection::Start` can report before it returns: it does not read,
so there is no success among them. -/
inductive StartFailure
  | connectError
  | writeError
  | protocolError
  deriving DecidableEq, Repr

/-- The result that is reported. -/
def StartFailure.result : StartFailure → UpstreamResult
  | connectError => .connectError
  | writeError => .writeError
  | protocolError => .protocolError

/-- How a call of `Execute` ends. -/
inductive StartOutcome
  /-- The exchange runs. -/
  | pending
  /-- The exchange ended inside `Start`. -/
  | failed (failure : StartFailure)
  /-- `std::invalid_argument` or `std::system_error`. -/
  | raised
  deriving DecidableEq, Repr

/-- What the environment contributes to one `StartUpstream`: the clock reading for the
connect deadline, the provider's decision, the progress reported inside `Execute` with
the clock readings it leads to, and how `Execute` ends. -/
structure Launch where
  now : Instant := 0
  decision : AttemptDecision
  progress : List (UpstreamProgress × Instant) := []
  outcome : StartOutcome := .pending

/-- The callbacks the shared timer queue holds. -/
inductive Deadline
  /-- The connect or first-byte deadline, with the generation it captured. -/
  | attempt (generation : ℕ)
  | total
  /-- A timer of somebody else. -/
  | other
  deriving DecidableEq, Repr

/-- A task the transaction queued for the end of the batch. -/
inductive Deferred
  | retry
  /-- The cancellation of `HandleClientAbort`; the flag says whether it captured a
  connection. -/
  | cancel (connection : Bool)
  deriving DecidableEq, Repr

/-- A call the transaction made on its client connection. -/
inductive ClientCall
  | sendResponse (response : HttpResponse)
  | beginResponse (head : HttpResponseHead)
  | writeResponseBody (bytes : Bytes)
  | finishResponse
  | abortResponse
  /-- The connection threw. -/
  | refused
  deriving DecidableEq

/-- The exchange the pool runs for the transaction: whether `state_` is `kReading`, the
head once it was reported, and the backpressure pause. -/
structure Upstream where
  reading : Bool := false
  head : Option HttpResponseHead := none
  readingPaused : Bool := false

/-- `UpstreamConnection::PauseReading`. -/
def Upstream.pauseReading (u : Upstream) : Upstream :=
  if u.reading then { u with readingPaused := true } else u

/-- `UpstreamConnection::ResumeReading`; the read it may continue with is the callbacks
that follow. -/
def Upstream.resumeReading (u : Upstream) : Upstream :=
  if u.reading && u.readingPaused then { u with readingPaused := false } else u

/-- The transaction. `attempts` counts the attempts started; no branch reads it. -/
structure ProxyTransaction where
  method : Bytes
  policy : UpstreamPolicy := {}
  hasProvider : Bool := true
  hasTimers : Bool := true
  hasMetrics : Bool := true
  endpoint : Option Config.Endpoint := none
  ledger : Ledger := {}
  coordinatorOverloaded : Bool := false
  activeConnection : Bool := false
  connectTimer : ℕ := 0
  firstByteTimer : ℕ := 0
  totalTimer : ℕ := 0
  generation : ℕ := 0
  retries : ℕ := 0
  downstreamResponseCommitted : Bool := false
  upstreamReadPaused : Bool := false
  finished : Bool := false
  responseHead : HttpResponseHead := {}
  attempts : ℕ := 0

/-- The transaction with what its handlers touch. `calls` is the history of its calls on
the client, newest first. -/
structure Exchange where
  tx : ProxyTransaction
  client : ClientConnection
  timers : TimerQueue Deadline := {}
  upstream : Option Upstream := none
  deferred : List Deferred := []
  gatewayUp : Bool := true
  destroyed : Bool := false
  calls : List ClientCall := []

/-- The arguments a transaction is constructed with; the flags say which of the optional
ones are there. -/
structure TransactionConfig where
  method : Bytes
  endpoint : Config.Endpoint
  policy : UpstreamPolicy := {}
  hasProvider : Bool := true
  hasReservation : Bool := true
  hasTimers : Bool := true
  hasMetrics : Bool := true
  hasLogCallback : Bool := true

namespace ProxyTransaction

/-- The constructor over a pool. -/
def create (config : TransactionConfig) : ProxyTransaction where
  method := config.method
  policy := config.policy
  hasProvider := config.hasProvider
  hasTimers := config.hasTimers
  hasMetrics := config.hasMetrics
  endpoint := some config.endpoint
  ledger := { reservation := config.hasReservation, hasLogCallback := config.hasLogCallback }

section
variable (t : ProxyTransaction)

/-- A different candidate exists: the search of `HasRetryAlternative` and `StartRetry`. -/
def retryAlternative : Option Config.Endpoint :=
  match t.endpoint with
  | none => none
  | some endpoint => t.policy.retryEndpoints.find? fun candidate =>
    candidate.address != endpoint.address || candidate.port != endpoint.port

/-- The failures of a connection. -/
def retryableResult : UpstreamResult → Bool
  | .connectError | .writeError | .readError | .eof => true
  | _ => false

/-- The methods that may be repeated. -/
def retryableMethod : Bool :=
  t.method == ascii "GET" || t.method == ascii "HEAD"

/-- `RetryableFailure`. -/
def retryableFailure (result : UpstreamResult) : Bool :=
  !t.downstreamResponseCommitted && t.retries == 0 && t.policy.retryBudget != 0
    && t.retryableMethod && retryableResult result
    && (t.hasProvider || t.retryAlternative.isSome)

/-- The reason that `FinishNoEndpoint` reports. -/
def noEndpointReason : TerminalReason :=
  if t.coordinatorOverloaded then .coordinatorOverloaded else .noHealthyEndpoint

/-- The status of a completed response: the committed head's, or the buffered one's. -/
def responseStatus (response : HttpResponse) : ℕ :=
  if t.downstreamResponseCommitted then t.responseHead.status else response.status

/-- The number of the current attempt. -/
def attempt : ℕ := t.attempts - 1

end

end ProxyTransaction

namespace Exchange

section
variable (x : Exchange)

/-- Change the ledger. -/
def book (f : Ledger → Ledger) : Exchange :=
  { x with tx := { x.tx with ledger := f x.tx.ledger } }

/-- Set `finished_` and, in all handlers but the one of a success, advance the
generation. -/
def end_ (generations : ℕ) : Exchange :=
  { x with tx := { x.tx with
      finished := true, generation := x.tx.generation + generations
      ledger := x.tx.ledger.emit .ended } }

/-! ## Deadlines -/

/-- Cancel a timer, if one is recorded. -/
def cancelTimer (identifier : ℕ) : Exchange :=
  if identifier = 0 then x else { x with timers := (x.timers.cancel identifier).1 }

/-- `CancelAttemptDeadlines`. -/
def cancelAttemptDeadlines : Exchange :=
  if !x.gatewayUp || !x.tx.hasTimers then x
  else
    let x' := (x.cancelTimer x.tx.connectTimer).cancelTimer x.tx.firstByteTimer
    { x' with tx := { x'.tx with connectTimer := 0, firstByteTimer := 0 } }

/-- `CancelDeadlines`. -/
def cancelDeadlines : Exchange :=
  if !x.gatewayUp || !x.tx.hasTimers then x
  else
    let x' := x.cancelAttemptDeadlines.cancelTimer x.tx.totalTimer
    { x' with tx := { x'.tx with totalTimer := 0 } }

/-- Schedule a callback of the transaction; `none` is an exception of the queue. -/
def schedule (now : Instant) (milliseconds : ℕ) (callback : Deadline) : Option (Exchange × ℕ) :=
  (x.timers.scheduleAfter now (milliseconds * 1000000 : ℕ) callback).map fun (timers, identifier) =>
    ({ x with timers }, identifier)

/-- `ArmConnectDeadline`. -/
def armConnectDeadline (now : Instant) : Option Exchange :=
  if !x.tx.hasTimers then some x
  else ((x.cancelTimer x.tx.connectTimer).schedule now x.tx.policy.connectTimeout
      (.attempt x.tx.generation)).map fun (x, identifier) =>
    { x with tx := { x.tx with connectTimer := identifier } }

/-- `ArmFirstByteDeadline`. -/
def armFirstByteDeadline (now : Instant) : Option Exchange :=
  if !x.tx.hasTimers then some x
  else (x.schedule now x.tx.policy.firstByteTimeout (.attempt x.tx.generation)).map
    fun (x, identifier) => { x with tx := { x.tx with firstByteTimer := identifier } }

/-- `ArmTotalDeadline`. -/
def armTotalDeadline (now : Instant) : Option Exchange :=
  if !x.tx.hasTimers then some x
  else (x.schedule now x.tx.policy.totalTimeout .total).map fun (x, identifier) =>
    { x with tx := { x.tx with totalTimer := identifier } }

/-! ## The client's callbacks -/

/-- `ClearClientStreamCallbacks`. -/
def clearClientStreamCallbacks : Exchange :=
  if x.client.alive then { x with client := x.client.clearStreamCallbacks } else x

/-- `client_->AbortResponse()` after the callbacks were cleared, while the client lives. -/
def abortClient : Exchange :=
  if x.client.alive then
    { x with client := x.client.clearStreamCallbacks.close, calls := .abortResponse :: x.calls }
  else x

/-- Record that a client abort ended the running attempt, if one was running. -/
def noteAborted : Exchange :=
  if x.upstream.isSome then x.book (·.emit (.aborted x.tx.attempt)) else x

/-- `HandleClientAbort`. -/
def handleClientAbort : Exchange :=
  if x.tx.finished then x
  else
    let status := if x.tx.downstreamResponseCommitted then x.tx.responseHead.status else 502
    let x := ((x.noteAborted.end_ 1).cancelDeadlines).book fun l =>
      ((l.releaseReservation.releaseActive.resetLink).completeMetric status x.tx.endpoint
        .none).logTerminal status .clientAbort x.tx.retries
    let x := x.abortClient
    { x with deferred := x.deferred ++ [.cancel x.tx.activeConnection] }

/-- `PauseUpstreamReading`. -/
def pauseUpstreamReading : Exchange :=
  if x.tx.upstreamReadPaused then x
  else
    let x := { x with tx := { x.tx with upstreamReadPaused := true } }
    if x.tx.activeConnection then { x with upstream := x.upstream.map Upstream.pauseReading } else x

/-- `ResumeUpstreamReading`. -/
def resumeUpstreamReading : Exchange :=
  if x.tx.finished || !x.gatewayUp || !x.tx.upstreamReadPaused then x
  else
    let x := { x with tx := { x.tx with upstreamReadPaused := false } }
    if x.tx.activeConnection then { x with upstream := x.upstream.map Upstream.resumeReading }
    else x

/-- Run the callback that a notice of the client asks for. -/
def deliver : Option Notice → Exchange
  | none => x
  | some .writeDrained => x.resumeUpstreamReading
  | some .requestAbort => x.handleClientAbort

/-- `client_->SendResponse(response)` with its exceptions caught. -/
def sendResponse (x : Exchange) (response : HttpResponse) (answers : List SendResult) : Exchange :=
  match x.client.sendResponse response answers with
  | none => { x with calls := .refused :: x.calls }
  | some (client, notice) =>
    { x with client, calls := .sendResponse response :: x.calls }.deliver notice

/-- A response of the gateway itself. -/
def gatewayResponse (status : ℕ) (reason : String) : HttpResponse :=
  { status, reason := ascii reason }

/-! ## Terminal handlers -/

/-- `FinishNoEndpoint`. -/
def finishNoEndpoint (answers : List SendResult) : Exchange :=
  if x.tx.finished then x
  else
    let reason := x.tx.noEndpointReason
    let x := ((x.end_ 1).cancelDeadlines).book fun l =>
      (l.releaseReservation.completeMetric 503 none reason).logTerminal 503 reason x.tx.retries
    if !x.client.alive then x
    else x.clearClientStreamCallbacks.sendResponse
      (gatewayResponse 503 "Service Unavailable") answers

/-- The common end of `FinishFailure` and `FinishGatewayTimeout`: the guards are released
and the client gets the status, or the end of a response it already has the head of. A
committed response is accounted before the client is looked at, an uncommitted one only
while the client lives. -/
def concludeFailure (response : HttpResponse) (truncated reason : TerminalReason)
    (answers : List SendResult) : Exchange :=
  if x.tx.downstreamResponseCommitted then
    (x.book fun l =>
      ((l.completeMetric response.status x.tx.endpoint .none).account false).logTerminal
        response.status truncated x.tx.retries).abortClient
  else
    let x := x.book fun l => (l.completeMetric response.status x.tx.endpoint .none).logTerminal
      response.status reason x.tx.retries
    if !x.client.alive then x
    else (x.clearClientStreamCallbacks.book (·.account false)).sendResponse response answers

/-- `FinishFailure`. -/
def finishFailure (answers : List SendResult) : Exchange :=
  if x.tx.finished then x
  else (((x.end_ 1).cancelDeadlines).book (·.releaseReservation.releaseActive)).concludeFailure
    (gatewayResponse 502 "Bad Gateway") .committedTruncated .upstreamFailure answers

/-- Record that a deadline ended the running attempt, if one was running. -/
def noteTimedOut : Exchange :=
  if x.upstream.isSome then x.book (·.emit (.timedOut x.tx.attempt)) else x

/-- `pool_->Cancel(active_connection_)` and `active_connection_ = nullptr`. -/
def cancelActive : Exchange :=
  { x with
    upstream := if x.tx.activeConnection then none else x.upstream
    tx := { x.tx with activeConnection := false } }

/-- `FinishGatewayTimeout`. -/
def finishGatewayTimeout (answers : List SendResult) : Exchange :=
  if x.tx.finished then x
  else
    let x := ((x.noteTimedOut.end_ 1).cancelDeadlines).book (·.releaseReservation.releaseActive)
    x.cancelActive.concludeFailure (gatewayResponse 504 "Gateway Timeout") .timeout .timeout answers

/-- `HandleDeadline`. -/
def handleDeadline (generation : ℕ) (answers : List SendResult) : Exchange :=
  if x.tx.finished || generation != x.tx.generation then x else x.finishGatewayTimeout answers

/-! ## The upstream's callbacks -/

/-- `client_->FinishResponse()` with its exceptions caught. -/
def finishResponse (x : Exchange) : Exchange :=
  match x.client.finishResponse with
  | none => { x with calls := .refused :: x.calls }
  | some client => { x with client, calls := .finishResponse :: x.calls }

/-- `CompleteMetric` and `LogTerminal` for a successful exchange. -/
def recordSuccess (response : HttpResponse) (reason : TerminalReason) : Exchange :=
  x.book fun l => (l.completeMetric (x.tx.responseStatus response) x.tx.endpoint .none).logTerminal
    (x.tx.responseStatus response) reason x.tx.retries

/-- `AccountFailure` for a response with status 500 or above, `AccountSuccess` otherwise. -/
def accountResponse (response : HttpResponse) : Exchange :=
  x.book (·.account (decide (x.tx.responseStatus response < 500)))

/-- The end of `HandleUpstream` for a successful exchange, once the guards are released. -/
def concludeSuccess (response : HttpResponse) (answers : List SendResult) : Exchange :=
  if !x.client.alive then x.recordSuccess response .clientGone
  else if x.tx.downstreamResponseCommitted then
    (x.finishResponse.recordSuccess response .none).accountResponse response
  else ((x.recordSuccess response .none).accountResponse response).sendResponse
    { response with headers := stripHopByHopHeaders response.headers } answers

/-- The part of `HandleUpstream` after the retry decision for a successful exchange. -/
def handleSuccess (response : HttpResponse) (answers : List SendResult) : Exchange :=
  (((x.end_ 0).cancelDeadlines).book (·.releaseReservation.releaseActive)).concludeSuccess
    response answers

/-- `active_connection_ = nullptr`. -/
def detach : Exchange := { x with tx := { x.tx with activeConnection := false } }

/-- The retry branch of `HandleUpstream`: the failed attempt is accounted while the client
lives, and its replacement starts after the batch. -/
def queueRetry : Exchange :=
  let x := if x.client.alive then x.book (·.releaseActive.account false)
    else x.book (·.releaseActive)
  { x with deferred := x.deferred ++ [.retry] }

/-- `HandleUpstream`. -/
def handleUpstream (result : UpstreamResult) (response : HttpResponse)
    (answers : List SendResult) : Exchange :=
  if x.tx.finished then x
  else if x.tx.retryableFailure result then x.detach.queueRetry
  else if result != .success then x.detach.finishFailure answers
  else x.detach.handleSuccess response answers

/-- The commit of a head: the retry window closes here. -/
def commitHead (head : HttpResponseHead) : Exchange :=
  { x with tx := { x.tx with
      responseHead := head, downstreamResponseCommitted := true
      ledger := x.tx.ledger.emit .committed } }

/-- `client_->BeginResponse(head)`; an exception is an abort. -/
def beginResponse (x : Exchange) (head : HttpResponseHead) (answers : List SendResult) : Exchange :=
  match x.client.beginResponse head answers with
  | none => { x with calls := .refused :: x.calls }.handleClientAbort
  | some (client, notice) =>
    { x with client, calls := .beginResponse head :: x.calls }.deliver notice

/-- `HandleResponseHead`. -/
def handleResponseHead (head : HttpResponseHead) (answers : List SendResult) : Exchange :=
  if x.tx.finished || !x.gatewayUp then x
  else
    let head := { head with headers := stripHopByHopHeaders head.headers }
    let x := x.commitHead head
    if !x.client.alive then x.handleClientAbort else x.beginResponse head answers

/-- `HandleResponseBody`; `none` when it would use a destroyed client, to which no worker comes
(`body_of_reaps`). The flag is what the sink returns: whether the bytes were taken. -/
def handleResponseBody (bytes : Bytes) (answers : List SendResult) : Option (Exchange × Bool) :=
  if x.tx.finished || !x.gatewayUp then some (x, false)
  else if !x.client.alive then none
  else match x.client.writeResponseBody bytes answers with
    | none => some ({ x with calls := .refused :: x.calls }.handleClientAbort, false)
    | some (client, notice, atHighWatermark) =>
      let x := { x with client, calls := .writeResponseBody bytes :: x.calls }.deliver notice
      some (if atHighWatermark then x.pauseUpstreamReading else x, true)

/-- The connection can report this progress. It leaves the state in which it writes before it
reports that the request is written, so it reports that once. -/
def reports (progress : UpstreamProgress) : Bool :=
  x.upstream.any fun u => progress != .requestWritten || !u.reading

/-- The state change of a connection that reports progress: with the request written it
starts to read. -/
def advanceUpstream (progress : UpstreamProgress) : Exchange :=
  if progress = .requestWritten then
    { x with upstream := x.upstream.map ({ · with reading := true }) }
  else x

/-- `HandleProgress`. -/
def handleProgress (progress : UpstreamProgress) (now : Instant) : Option Exchange :=
  if x.tx.finished || !x.gatewayUp then some x
  else match progress with
    | .connected =>
      let x := if x.tx.hasTimers then x.cancelTimer x.tx.connectTimer else x
      some { x with tx := { x.tx with connectTimer := 0 } }
    | .requestWritten => x.armFirstByteDeadline now
    | .firstByte =>
      let x := if x.tx.hasTimers then x.cancelTimer x.tx.firstByteTimer else x
      some { x with tx := { x.tx with firstByteTimer := 0 } }
    | .responseHeader => some x

/-! ## Attempts -/

/-- The start of `StartUpstream`: the previous attempt's deadlines and link are dropped
and the generation advances. -/
def beginAttempt : Exchange :=
  let x := x.cancelAttemptDeadlines
  { x with tx := { x.tx with
      generation := x.tx.generation + 1, coordinatorOverloaded := false
      ledger := x.tx.ledger.resetLink } }

/-- The provider's part of `StartUpstream`; the flag says whether there is an attempt to
start. -/
def selectAttempt (decision : AttemptDecision) : Exchange × Bool :=
  if x.tx.hasProvider then
    let x := x.book (·.emit .providerCalled)
    match decision.selection with
    | none => ({ x with tx := { x.tx with
        coordinatorOverloaded := decision.coordinatorOverloaded } }, false)
    | some selection =>
      ({ x with tx := { x.tx with
          endpoint := some selection.endpoint
          ledger := { (x.tx.ledger.installLink x.tx.attempts selection.link).acquireActive
            x.tx.attempts with attemptAccounted := false } } }, true)
  else
    ({ x with tx := { x.tx with ledger := { x.tx.ledger with attemptAccounted := false } } }, true)

/-- The progress callbacks that run inside `Execute`. -/
def reportProgress (x : Exchange) : List (UpstreamProgress × Instant) → Option Exchange
  | [] => some x
  | (progress, now) :: rest =>
    if x.reports progress then
      ((x.advanceUpstream progress).handleProgress progress now).bind (reportProgress · rest)
    else none

/-- Record the result of the running attempt, with the status of the head it was preceded
by. The pool forgets the exchange before it runs the callback. -/
def noteDelivered (result : UpstreamResult) : Exchange :=
  let status := (x.upstream.bind Upstream.head).map HttpResponseHead.status
  { x.book (·.emit (.delivered x.tx.attempt result status)) with upstream := none }

/-- The pool makes an exchange for the attempt. -/
def openUpstream : Exchange :=
  { x with
    upstream := some {}
    tx := { x.tx with
      attempts := x.tx.attempts + 1, ledger := x.tx.ledger.emit (.started x.tx.attempts) } }

/-- How `Execute` ends. -/
def endExecute (outcome : StartOutcome) (answers : List SendResult) : Exchange :=
  match outcome with
  | .pending => { x with tx := { x.tx with activeConnection := true } }
  | .failed failure =>
    ((x.noteDelivered failure.result).handleUpstream failure.result {} answers).detach
  | .raised => (x.noteDelivered .connectError).handleUpstream .connectError {} answers

/-- `Execute` as `StartUpstream` calls it. -/
def execute (launch : Launch) (answers : List SendResult) : Option Exchange :=
  (x.openUpstream.reportProgress launch.progress).map (·.endExecute launch.outcome answers)

/-- `StartUpstream`. -/
def startUpstream (launch : Launch) (answers : List SendResult) : Option (Exchange × Bool) :=
  if !x.gatewayUp then some (x, false)
  else match x.beginAttempt.selectAttempt launch.decision with
    | (x, false) => some (x, false)
    | (x, true) => ((x.armConnectDeadline launch.now).bind (·.execute launch answers)).map (·, true)

/-- The replacement attempt of `StartRetry`: it counts as a retry once `StartUpstream` has
returned. -/
def startReplacement (launch : Launch) (answers : List SendResult) : Option (Exchange × Bool) :=
  (x.startUpstream launch answers).map fun (x, started) =>
    (if started then { x with tx := { x.tx with retries := x.tx.retries + 1 } } else x, started)

/-- `StartRetry`. -/
def startRetry (launch : Launch) (answers : List SendResult) : Option (Exchange × Bool) :=
  if x.tx.hasProvider then x.startReplacement launch answers
  else match x.tx.retryAlternative with
    | none => some (x, false)
    | some next =>
      { x with tx := { x.tx with endpoint := some next } }.startReplacement launch answers

/-- The task that `HandleUpstream` queued for a retry. -/
def runRetry (launch : Launch) (answers : List SendResult) : Option Exchange :=
  if x.tx.finished then some x
  else (x.startRetry launch answers).map fun (x, started) =>
    if started then x else x.finishFailure answers

/-- `Begin`, with the clock reading of the total deadline. -/
def begin_ (now : Instant) (launch : Launch) (answers : List SendResult) : Option Exchange :=
  if !x.gatewayUp then some (x.end_ 0)
  else
    let x := { x.book ({ · with metricRequest := x.tx.hasMetrics }) with
      client := x.client.setStreamCallbacks }
    (x.armTotalDeadline now).bind fun x => (x.startUpstream launch answers).map
      fun (x, started) => if started then x else x.finishNoEndpoint answers

/-! ## The life of a transaction -/

/-- An event between handlers. Every list of them is one interleaving of the callbacks of
the upstream, the client, the timers and the deferred tasks. -/
inductive Event
  | progress (p : UpstreamProgress) (now : Instant)
  | head (head : HttpResponseHead) (answers : List SendResult)
  | body (bytes : Bytes) (answers : List SendResult)
  | result (r : UpstreamResult) (answers : List SendResult)
  /-- One round of the timer loop. -/
  | fire (now : Instant) (answers : List SendResult)
  /-- Somebody else schedules a timer in the shared queue. -/
  | scheduleOther (deadline : Instant)
  /-- Somebody else cancels a timer of theirs. -/
  | cancelOther (identifier : ℕ)
  /-- The next deferred task runs; the launch is for a retry. -/
  | runDeferred (launch : Launch) (answers : List SendResult)
  /-- `EPOLLOUT` on the client. -/
  | clientWritable (answers : List SendResult)
  /-- `EPOLLERR`, `EPOLLHUP` or `EPOLLRDHUP` on the paused client. -/
  | clientTerminal (answers : List SendResult)
  /-- The client connection object is destroyed. -/
  | clientDestroyed
  /-- The gateway's lifetime token expires. -/
  | gatewayExpired
  /-- The pool gives up the exchange without a callback, as `CancelAll` does; the
  callbacks held the last references to the transaction. -/
  | dropped
  /-- The last reference to the transaction goes away. -/
  | destroyed

/-- `HandleRead` of the paused client: its peer is gone. -/
def clientTerminal (answers : List SendResult) : Exchange :=
  let (client, notice) := x.client.notifyRequestAbort
  let x := { x with client }.deliver notice
  let x := { x with client := { x.client with closeAfterWrite := true } }
  if x.client.writing then
    let (client, notice) := x.client.handleWrite answers
    { x with client }.deliver notice
  else x

/-- The callback of a timer. -/
def runDeadline (answers : List SendResult) : Deadline → Exchange
  | .attempt generation => x.handleDeadline generation answers
  | .total => x.finishGatewayTimeout answers
  | .other => x

/-- The destructor: every guard releases what it still holds. -/
def destroy : Exchange :=
  { x.book fun l => { l.releaseReservation.releaseActive.resetLink with
      metricRequest := false } with destroyed := true }

/-- The state after an event; `none` when the event cannot happen. An exchange reports
once that its request is written, its head once, body bytes and a success only after its
head, and nothing after its result. The transaction is referenced by the callbacks of its
exchange and by a queued retry. -/
def step (event : Event) : Option Exchange :=
  if x.destroyed then none
  else match event with
    | .progress p now =>
      if x.reports p then (x.advanceUpstream p).handleProgress p now else none
    | .head head answers =>
      match x.upstream with
      | some u =>
        if u.head.isSome then none
        else some ({ x with upstream := some { u with head := some head } }.handleResponseHead
          head answers)
      | none => none
    | .body bytes answers =>
      if (x.upstream.bind Upstream.head).isSome then
        (x.handleResponseBody bytes answers).map Prod.fst
      else none
    | .result r answers =>
      if x.upstream.isNone || (r = .success && (x.upstream.bind Upstream.head).isNone) then none
      else some ((x.noteDelivered r).handleUpstream r {} answers)
    | .fire now answers => (x.timers.popDue now).map fun (callback, _, timers) =>
      { x with timers }.runDeadline answers callback
    | .scheduleOther deadline => (x.timers.scheduleAt deadline .other).map fun (timers, _) =>
      { x with timers }
    | .cancelOther identifier =>
      if x.timers.timers.any fun t => t.1.2 == identifier && t.2 == .other then
        some { x with timers := (x.timers.cancel identifier).1 }
      else none
    | .runDeferred launch answers =>
      match x.deferred with
      | [] => none
      | .retry :: rest => { x with deferred := rest }.runRetry launch answers
      | .cancel connection :: rest =>
        some { x with deferred := rest, upstream := if connection then none else x.upstream }
    | .clientWritable answers =>
      if x.client.alive then
        let (client, notice) := x.client.handleWrite answers
        some ({ x with client }.deliver notice)
      else none
    | .clientTerminal answers =>
      if x.client.alive && x.client.valid && x.client.readingPaused then
        some (x.clientTerminal answers)
      else none
    | .clientDestroyed =>
      if x.client.alive then some { x with client := { x.client.close with alive := false } }
      else none
    | .gatewayExpired => some { x with gatewayUp := false }
    | .dropped => if x.upstream.isSome then some { x with upstream := none }.destroy else none
    | .destroyed =>
      if x.upstream.isNone && !x.deferred.contains .retry then some x.destroy else none

end

/-- `Start`: the transaction is constructed and begins. -/
def start (config : TransactionConfig) (client : ClientConnection) (timers : TimerQueue Deadline)
    (gatewayUp : Bool) (now : Instant) (launch : Launch) (answers : List SendResult) :
    Option Exchange :=
  ({ tx := .create config, client, timers, gatewayUp } : Exchange).begin_ now launch answers

/-- A view of a handler that does nothing once the transaction is finished. -/
lemma view_unfinished {α : Type} (view : Exchange → α) {x y : Exchange} {c : α}
    (h : ¬x.tx.finished → view y = c) :
    view (if x.tx.finished then x else y) = if x.tx.finished then view x else c := by
  split
  · rfl
  · next hfin => exact h hfin

/-! ## What the deadlines and the pauses change -/

/-- Only timers, the pause and what the exchange does apart from its head may differ. -/
structure Unseen (x y : Exchange) : Prop where
  head : y.upstream.map Upstream.head = x.upstream.map Upstream.head
  rest : y = { x with
    upstream := y.upstream, timers := y.timers
    tx := { x.tx with
      connectTimer := y.tx.connectTimer, firstByteTimer := y.tx.firstByteTimer
      totalTimer := y.tx.totalTimer, upstreamReadPaused := y.tx.upstreamReadPaused } }

namespace Unseen
variable {x y z : Exchange} {now : Instant}

lemma refl (x : Exchange) : Unseen x x := ⟨rfl, rfl⟩

lemma trans (h : Unseen x y) (h' : Unseen y z) : Unseen x z where
  head := h'.head.trans h.head
  rest := h'.rest.trans (by rw [h.rest])

lemma cancelTimer (x : Exchange) (identifier : ℕ) : Unseen x (x.cancelTimer identifier) := by
  rw [Exchange.cancelTimer]
  split
  · exact .refl x
  · exact ⟨rfl, rfl⟩

lemma cancelAttemptDeadlines (x : Exchange) : Unseen x x.cancelAttemptDeadlines := by
  rw [Exchange.cancelAttemptDeadlines]
  split
  · exact .refl x
  · exact ((cancelTimer x _).trans (cancelTimer _ _)).trans ⟨rfl, rfl⟩

lemma cancelDeadlines (x : Exchange) : Unseen x x.cancelDeadlines := by
  rw [Exchange.cancelDeadlines]
  split
  · exact .refl x
  · exact ((cancelAttemptDeadlines x).trans (cancelTimer _ _)).trans ⟨rfl, rfl⟩

lemma schedule {milliseconds identifier : ℕ} {callback : Deadline}
    (h : x.schedule now milliseconds callback = some (y, identifier)) : Unseen x y := by
  obtain ⟨r, -, ⟨⟩⟩ := map_eq_some_iff.mp h
  exact ⟨rfl, rfl⟩

lemma armConnectDeadline (h : x.armConnectDeadline now = some y) : Unseen x y := by
  rw [Exchange.armConnectDeadline] at h
  split at h
  · cases h
    exact .refl x
  · obtain ⟨⟨z, identifier⟩, hz, rfl⟩ := map_eq_some_iff.mp h
    exact ((cancelTimer x _).trans (schedule hz)).trans ⟨rfl, rfl⟩

lemma armFirstByteDeadline (h : x.armFirstByteDeadline now = some y) : Unseen x y := by
  rw [Exchange.armFirstByteDeadline] at h
  split at h
  · cases h
    exact .refl x
  · obtain ⟨⟨z, identifier⟩, hz, rfl⟩ := map_eq_some_iff.mp h
    exact (schedule hz).trans ⟨rfl, rfl⟩

lemma armTotalDeadline (h : x.armTotalDeadline now = some y) : Unseen x y := by
  rw [Exchange.armTotalDeadline] at h
  split at h
  · cases h
    exact .refl x
  · obtain ⟨⟨z, identifier⟩, hz, rfl⟩ := map_eq_some_iff.mp h
    exact (schedule hz).trans ⟨rfl, rfl⟩

lemma of_upstream (x : Exchange) {f : Upstream → Upstream} (hf : ∀ u, (f u).head = u.head) :
    Unseen x { x with upstream := x.upstream.map f } := by
  refine ⟨?_, rfl⟩
  simp only [map_map, Function.comp_def, hf]

lemma advanceUpstream (x : Exchange) (p : UpstreamProgress) : Unseen x (x.advanceUpstream p) := by
  rw [Exchange.advanceUpstream]
  split
  · exact of_upstream x fun _ => rfl
  · exact .refl x

lemma handleProgress {p : UpstreamProgress} (h : x.handleProgress p now = some y) :
    Unseen x y := by
  have hcancel : ∀ identifier, Unseen x
      (if x.tx.hasTimers then x.cancelTimer identifier else x) := by
    intro identifier
    split
    · exact cancelTimer x identifier
    · exact .refl x
  unfold Exchange.handleProgress at h
  split at h
  · cases h
    exact .refl x
  cases p with
  | connected | firstByte =>
    cases h
    exact (hcancel _).trans ⟨rfl, rfl⟩
  | requestWritten => exact armFirstByteDeadline h
  | responseHeader =>
    cases h
    exact .refl x

lemma reportProgress {reports : List (UpstreamProgress × Instant)}
    (h : x.reportProgress reports = some y) : Unseen x y := by
  induction reports generalizing x with
  | nil =>
    cases h
    exact .refl _
  | cons report rest ih =>
    obtain ⟨_, h⟩ := ite_none_right_eq_some.mp h
    obtain ⟨z, hz, hrest⟩ := bind_eq_some_iff.mp h
    exact ((advanceUpstream _ report.1).trans (handleProgress hz)).trans (ih hrest)

lemma pauseUpstreamReading (x : Exchange) : Unseen x x.pauseUpstreamReading := by
  have hhead : ∀ u : Upstream, u.pauseReading.head = u.head := by
    intro u
    rw [Upstream.pauseReading]
    split <;> rfl
  rw [Exchange.pauseUpstreamReading]
  split
  · exact .refl x
  · dsimp only
    split
    · have hpaused : Unseen x { x with tx := { x.tx with upstreamReadPaused := true } } :=
        ⟨rfl, rfl⟩
      exact hpaused.trans (of_upstream _ hhead)
    · exact ⟨rfl, rfl⟩

lemma resumeUpstreamReading (x : Exchange) : Unseen x x.resumeUpstreamReading := by
  have hhead : ∀ u : Upstream, u.resumeReading.head = u.head := by
    intro u
    rw [Upstream.resumeReading]
    split <;> rfl
  rw [Exchange.resumeUpstreamReading]
  split
  · exact .refl x
  · dsimp only
    split
    · have hresumed : Unseen x { x with tx := { x.tx with upstreamReadPaused := false } } :=
        ⟨rfl, rfl⟩
      exact hresumed.trans (of_upstream _ hhead)
    · exact ⟨rfl, rfl⟩

end Unseen

end Exchange
end AegisGate.Proxy
