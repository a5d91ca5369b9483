import AegisGate.Proxy.ProxyTransaction

/-!
# The life cycle of a transaction

A coarser view of an exchange: what the transaction holds, which attempt runs, whether
a retry is queued, whether a response is committed and whether the client object still
exists. Deadlines, bytes and the pause of the upstream are left out, so most handlers
do nothing here and each of the others is one function.

`step_next` says that every step of an exchange is a step of its life cycle. The
statements about retries, outcomes and guards are proved on life cycles.
-/

namespace AegisGate.Proxy
open Http Net Health ClientConnection Option

/-- The view. `running` is the exchange of the current attempt, with the status of its
head once the head was reported; `queued` and `cancels` count the queued retries and
cancellations. -/
structure Lifecycle where
  tx : ProxyTransaction
  running : Option (Option ℕ)
  queued : ℕ
  cancels : ℕ
  alive : Bool
  gatewayUp : Bool
  destroyed : Bool

/-- The fields of a transaction the view does not keep: deadlines and the pause. -/
def ProxyTransaction.coarse (t : ProxyTransaction) : ProxyTransaction :=
  { t with
    connectTimer := 0, firstByteTimer := 0, totalTimer := 0, generation := 0
    upstreamReadPaused := false }

/-- The task is a cancellation. -/
def Deferred.isCancel : Deferred → Bool
  | .cancel _ => true
  | .retry => false

/-- The view of an exchange. -/
def Exchange.lifecycle (x : Exchange) : Lifecycle where
  tx := x.tx.coarse
  running := x.upstream.map fun u => u.head.map HttpResponseHead.status
  queued := x.deferred.count .retry
  cancels := x.deferred.countP Deferred.isCancel
  alive := x.client.alive
  gatewayUp := x.gatewayUp
  destroyed := x.destroyed

namespace Lifecycle

section
variable (c : Lifecycle)

/-- Change the ledger. -/
def book (f : Ledger → Ledger) : Lifecycle :=
  { c with tx := { c.tx with ledger := f c.tx.ledger } }

/-- Set `finished_`. -/
def end_ : Lifecycle :=
  { c with tx := { c.tx with finished := true, ledger := c.tx.ledger.emit .ended } }

/-- Record how the running attempt ended, if one was running. -/
def note (effect : ℕ → Effect) : Lifecycle :=
  if c.running.isSome then c.book (·.emit (effect c.tx.attempt)) else c

/-- What `HandleClientAbort` releases and logs. -/
def settleAbort (l : Ledger) : Ledger :=
  let status := if c.tx.downstreamResponseCommitted then c.tx.responseHead.status else 502
  ((l.releaseReservation.releaseActive.resetLink).completeMetric status c.tx.endpoint
    .none).logTerminal status .clientAbort c.tx.retries

/-- `HandleClientAbort`. -/
def abort : Lifecycle :=
  if c.tx.finished then c
  else { ((c.note .aborted).end_).book c.settleAbort with cancels := c.cancels + 1 }

/-- The common end of `FinishFailure` and `FinishGatewayTimeout`. -/
def conclude (status : ℕ) (truncated reason : TerminalReason) : Lifecycle :=
  if c.tx.downstreamResponseCommitted then
    c.book fun l => ((l.completeMetric status c.tx.endpoint .none).account false).logTerminal
      status truncated c.tx.retries
  else
    let c := c.book fun l => (l.completeMetric status c.tx.endpoint .none).logTerminal
      status reason c.tx.retries
    if c.alive then c.book (·.account false) else c

/-- `FinishFailure`. -/
def fail : Lifecycle :=
  if c.tx.finished then c
  else (c.end_.book (·.releaseReservation.releaseActive)).conclude 502
    .committedTruncated .upstreamFailure

/-- The running exchange is cancelled. -/
def cancelActive : Lifecycle :=
  { c with
    running := if c.tx.activeConnection then none else c.running
    tx := { c.tx with activeConnection := false } }

/-- `FinishGatewayTimeout`. -/
def timeout (c : Lifecycle) : Lifecycle :=
  if c.tx.finished then c
  else ((((c.note .timedOut).end_).book
    (·.releaseReservation.releaseActive)).cancelActive).conclude 504 .timeout .timeout

/-- `FinishNoEndpoint`. -/
def noEndpoint : Lifecycle :=
  if c.tx.finished then c
  else c.end_.book fun l =>
    (l.releaseReservation.completeMetric 503 none c.tx.noEndpointReason).logTerminal 503
      c.tx.noEndpointReason c.tx.retries

/-- The end of a successful request; a response that was not committed has the default
status. -/
def concludeSuccess : Lifecycle :=
  let record := fun reason => c.book fun l =>
    (l.completeMetric (c.tx.responseStatus {}) c.tx.endpoint .none).logTerminal
      (c.tx.responseStatus {}) reason c.tx.retries
  if c.alive then (record .none).book (·.account (decide (c.tx.responseStatus {} < 500)))
  else record .clientGone

/-- `HandleUpstream` after a success. -/
def succeed : Lifecycle :=
  (c.end_.book (·.releaseReservation.releaseActive)).concludeSuccess

/-- `active_connection_ = nullptr`. -/
def detach : Lifecycle := { c with tx := { c.tx with activeConnection := false } }

/-- What a retryable failure does to the guards. -/
def settleRetry (l : Ledger) : Ledger :=
  if c.alive then l.releaseActive.account false else l.releaseActive

/-- `HandleUpstream` after a retryable failure. -/
def queueRetry : Lifecycle :=
  { c.book c.settleRetry with queued := c.queued + 1 }

/-- The result of an exchange reaches the transaction. -/
def result (r : UpstreamResult) : Lifecycle :=
  if c.tx.finished then c
  else if c.tx.retryableFailure r then c.detach.queueRetry
  else if r != .success then c.detach.fail
  else c.detach.succeed

/-- Record the result of the exchange, which is over. -/
def noteDelivered (r : UpstreamResult) : Lifecycle :=
  { c.book (·.emit (.delivered c.tx.attempt r c.running.join)) with running := none }

/-- The head is committed to the client. -/
def commitHead (head : HttpResponseHead) : Lifecycle :=
  { c with tx := { c.tx with
      responseHead := head, downstreamResponseCommitted := true
      ledger := c.tx.ledger.emit .committed } }

/-- The head reaches the transaction, which commits it while the gateway is up. -/
def handleHead (head : HttpResponseHead) : Lifecycle :=
  if c.tx.finished || !c.gatewayUp then c
  else c.commitHead { head with headers := stripHopByHopHeaders head.headers }

/-- The exchange has reported its head. -/
def noteHead (head : HttpResponseHead) : Lifecycle :=
  { c with running := some (some head.status) }

/-- `StartUpstream` drops the link of the previous attempt. -/
def beginAttempt : Lifecycle :=
  { c with tx := { c.tx with coordinatorOverloaded := false, ledger := c.tx.ledger.resetLink } }

/-- The provider decides; the flag says whether there is an attempt. -/
def selectAttempt (decision : AttemptDecision) : Lifecycle × Bool :=
  if c.tx.hasProvider then
    let c := c.book (·.emit .providerCalled)
    match decision.selection with
    | none => ({ c with tx := { c.tx with
        coordinatorOverloaded := decision.coordinatorOverloaded } }, false)
    | some selection =>
      ({ c with tx := { c.tx with
          endpoint := some selection.endpoint
          ledger := { (c.tx.ledger.installLink c.tx.attempts selection.link).acquireActive
            c.tx.attempts with attemptAccounted := false } } }, true)
  else
    ({ c with tx := { c.tx with ledger := { c.tx.ledger with attemptAccounted := false } } }, true)

/-- The exchange of a new attempt starts. -/
def openUpstream : Lifecycle :=
  { c with
    running := some none
    tx := { c.tx with
      attempts := c.tx.attempts + 1, ledger := c.tx.ledger.emit (.started c.tx.attempts) } }

/-- How `Execute` ends. -/
def endExecute : StartOutcome → Lifecycle
  | .pending => { c with tx := { c.tx with activeConnection := true } }
  | .failed failure => ((c.noteDelivered failure.result).result failure.result).detach
  | .raised => (c.noteDelivered .connectError).result .connectError

/-- `StartUpstream`. -/
def startUpstream (launch : Launch) : Lifecycle × Bool :=
  if !c.gatewayUp then (c, false)
  else match c.beginAttempt.selectAttempt launch.decision with
    | (c, false) => (c, false)
    | (c, true) => (c.openUpstream.endExecute launch.outcome, true)

/-- The replacement attempt of `StartRetry`, which counts as a retry. -/
def startReplacement (launch : Launch) : Lifecycle × Bool :=
  match c.startUpstream launch with
  | (c, true) => ({ c with tx := { c.tx with retries := c.tx.retries + 1 } }, true)
  | (c, false) => (c, false)

/-- A retry counts once `StartUpstream` has returned. -/
def countRetry : Lifecycle := { c with tx := { c.tx with retries := c.tx.retries + 1 } }

/-- `StartRetry`. -/
def startRetry (launch : Launch) : Lifecycle × Bool :=
  if c.tx.hasProvider then c.startReplacement launch
  else match c.tx.retryAlternative with
    | none => (c, false)
    | some next => { c with tx := { c.tx with endpoint := some next } }.startReplacement launch

/-- The retry that was queued. -/
def runRetry (launch : Launch) : Lifecycle :=
  if c.tx.finished then c
  else match c.startRetry launch with
    | (c, true) => c
    | (c, false) => c.fail

/-- `Begin`. -/
def begin_ (launch : Launch) : Lifecycle :=
  if !c.gatewayUp then c.end_
  else match (c.book ({ · with metricRequest := c.tx.hasMetrics })).startUpstream launch with
    | (c, true) => c
    | (c, false) => c.noEndpoint

/-- The destructor. -/
def destroy : Lifecycle :=
  { c.book fun l => { l.releaseReservation.releaseActive.resetLink with
      metricRequest := false } with destroyed := true }

@[simp] lemma finished_abort : c.abort.tx.finished := by
  unfold abort
  split
  · assumption
  · rfl

@[simp] lemma finished_conclude (status : ℕ) (truncated reason : TerminalReason) :
    (c.conclude status truncated reason).tx.finished = c.tx.finished := by
  unfold conclude
  split
  · rfl
  · dsimp only
    split <;> rfl

@[simp] lemma finished_fail : c.fail.tx.finished := by
  unfold fail
  split
  · assumption
  · rw [finished_conclude]
    rfl

@[simp] lemma finished_timeout : c.timeout.tx.finished := by
  unfold timeout
  split
  · assumption
  · rw [finished_conclude]
    rfl

@[simp] lemma finished_noEndpoint : c.noEndpoint.tx.finished := by
  unfold noEndpoint
  split
  · assumption
  · rfl

@[simp] lemma finished_succeed : c.succeed.tx.finished := by
  unfold succeed concludeSuccess
  split <;> rfl

lemma running_conclude (status : ℕ) (truncated reason : TerminalReason) :
    (c.conclude status truncated reason).running = c.running := by
  rw [conclude]
  split
  · rfl
  · dsimp only
    split <;> rfl

lemma running_fail : c.fail.running = c.running := by
  rw [fail]
  split
  · rfl
  · exact running_conclude _ _ _ _

lemma running_succeed : c.succeed.running = c.running := by
  rw [succeed, concludeSuccess]
  split <;> rfl

lemma abort_abort : c.abort.abort = c.abort := by
  rw [abort, if_pos (finished_abort c)]

/-- What the handlers leave to the surroundings: whether the client exists, whether the
gateway runs, whether the transaction was destroyed. -/
def env : Bool × Bool × Bool := (c.alive, c.gatewayUp, c.destroyed)

@[simp] lemma env_book (f : Ledger → Ledger) : (c.book f).env = c.env := rfl

@[simp] lemma env_end_ : c.end_.env = c.env := rfl

@[simp] lemma env_detach : c.detach.env = c.env := rfl

@[simp] lemma env_cancelActive : c.cancelActive.env = c.env := rfl

@[simp] lemma env_queueRetry : c.queueRetry.env = c.env := rfl

@[simp] lemma env_note (effect : ℕ → Effect) : (c.note effect).env = c.env := by
  unfold note
  split <;> rfl

@[simp] lemma env_abort : c.abort.env = c.env := by
  unfold abort
  split
  · rfl
  · exact (env_end_ (c.note .aborted)).trans (env_note c _)

@[simp] lemma env_conclude (status : ℕ) (truncated reason : TerminalReason) :
    (c.conclude status truncated reason).env = c.env := by
  unfold conclude
  split
  · rfl
  · dsimp only
    split <;> rfl

@[simp] lemma env_fail : c.fail.env = c.env := by
  unfold fail
  split
  · rfl
  · rw [env_conclude, env_book, env_end_]

@[simp] lemma env_timeout : c.timeout.env = c.env := by
  unfold timeout
  split
  · rfl
  · rw [env_conclude, env_cancelActive, env_book, env_end_, env_note]

@[simp] lemma env_noEndpoint : c.noEndpoint.env = c.env := by
  unfold noEndpoint
  split <;> rfl

@[simp] lemma env_succeed : c.succeed.env = c.env := by
  unfold succeed concludeSuccess
  split
  · rw [env_book, env_book, env_book, env_end_]
  · rw [env_book, env_book, env_end_]

@[simp] lemma env_result (r : UpstreamResult) : (c.result r).env = c.env := by
  unfold result
  split
  · rfl
  · split
    · rw [env_queueRetry, env_detach]
    · split
      · rw [env_fail, env_detach]
      · rw [env_succeed, env_detach]

@[simp] lemma env_handleHead (head : HttpResponseHead) : (c.handleHead head).env = c.env := by
  unfold handleHead
  split <;> rfl

@[simp] lemma env_endExecute (outcome : StartOutcome) : (c.endExecute outcome).env = c.env := by
  cases outcome with
  | pending => rfl
  | failed failure | raised => exact env_result _ _

@[simp] lemma env_startUpstream (launch : Launch) : (c.startUpstream launch).1.env = c.env := by
  have hselect : (c.beginAttempt.selectAttempt launch.decision).1.env = c.env := by
    unfold selectAttempt
    split
    · split <;> rfl
    · rfl
  unfold startUpstream
  split
  · rfl
  split
  · next heq =>
    rw [heq] at hselect
    exact hselect
  · next heq =>
    rw [heq] at hselect
    exact (env_endExecute _ _).trans hselect

variable {c} in
/-- A retry is `StartUpstream`, perhaps at another endpoint, and counts if it starts an attempt. -/
lemma runRetry_eq (hfin : c.tx.finished = false) (launch : Launch) : c.runRetry launch = c.fail ∨
    ∃ endpoint, let r := startUpstream { c with tx := { c.tx with endpoint } } launch
      c.runRetry launch = if r.2 then r.1.countRetry else r.1.fail := by
  have hreplace : ∀ b : Lifecycle, c.startRetry launch = b.startReplacement launch →
      c.runRetry launch = if (b.startUpstream launch).2 then
        (b.startUpstream launch).1.countRetry else (b.startUpstream launch).1.fail := by
    intro b hb
    rw [runRetry, if_neg (by simp [hfin]), hb, startReplacement]
    rcases b.startUpstream launch with ⟨d, - | -⟩ <;> rfl
  by_cases hprovider : c.tx.hasProvider
  · exact .inr ⟨c.tx.endpoint, hreplace c (if_pos hprovider)⟩
  cases hnext : c.tx.retryAlternative with
  | none => simp [runRetry, hfin, startRetry, hprovider, hnext]
  | some next =>
    exact .inr ⟨some next, hreplace _ (by rw [startRetry, if_neg hprovider, hnext])⟩

@[simp] lemma env_runRetry (launch : Launch) : (c.runRetry launch).env = c.env := by
  cases hfin : c.tx.finished with
  | true => rw [runRetry, if_pos hfin]
  | false =>
    rcases runRetry_eq hfin launch with heq | ⟨endpoint, heq⟩ <;> rw [heq]
    · exact env_fail c
    have hstart := env_startUpstream { c with tx := { c.tx with endpoint } } launch
    split
    · exact hstart
    · exact (env_fail _).trans hstart

@[simp] lemma env_begin_ (launch : Launch) : (c.begin_ launch).env = c.env := by
  have hstart :
      ((c.book ({ · with metricRequest := c.tx.hasMetrics })).startUpstream launch).1.env =
        c.env := env_startUpstream _ launch
  unfold begin_
  split
  · rfl
  · split <;> next heq => rw [heq] at hstart; simpa using hstart

end

end Lifecycle

/-! ## The handlers on the view -/

namespace Exchange
open Lifecycle

lemma Unseen.lifecycle {x y : Exchange} (h : Unseen x y) : y.lifecycle = x.lifecycle := by
  have hrunning := congrArg (Option.map (Option.map HttpResponseHead.status)) h.head
  rw [Option.map_map, Option.map_map] at hrunning
  rw [h.rest]
  exact congrArg (fun r => { x.lifecycle with running := r }) hrunning

section
variable (x : Exchange) (answers : List SendResult)

@[simp] lemma lifecycle_book (f : Ledger → Ledger) :
    (x.book f).lifecycle = x.lifecycle.book f := rfl

@[simp] lemma lifecycle_end_ (generations : ℕ) :
    (x.end_ generations).lifecycle = x.lifecycle.end_ := rfl

@[simp] lemma lifecycle_cancelDeadlines : x.cancelDeadlines.lifecycle = x.lifecycle :=
  (Unseen.cancelDeadlines x).lifecycle

@[simp] lemma lifecycle_clearClientStreamCallbacks :
    x.clearClientStreamCallbacks.lifecycle = x.lifecycle := by
  unfold clearClientStreamCallbacks
  split <;> rfl

@[simp] lemma lifecycle_abortClient : x.abortClient.lifecycle = x.lifecycle := by
  unfold abortClient
  split
  · simp only [lifecycle, alive_close]
    rfl
  · rfl

@[simp] lemma lifecycle_noteAborted : x.noteAborted.lifecycle = x.lifecycle.note .aborted := by
  unfold noteAborted note
  simp only [lifecycle, isSome_map]
  split <;> rfl

@[simp] lemma lifecycle_noteTimedOut : x.noteTimedOut.lifecycle = x.lifecycle.note .timedOut := by
  unfold noteTimedOut note
  simp only [lifecycle, isSome_map]
  split <;> rfl

lemma lifecycle_queueCancel (connection : Bool) :
    { x with deferred := x.deferred ++ [Deferred.cancel connection] }.lifecycle =
      { x.lifecycle with cancels := x.lifecycle.cancels + 1 } := by
  simp [lifecycle, Deferred.isCancel]

lemma lifecycle_handleClientAbort : x.handleClientAbort.lifecycle = x.lifecycle.abort := by
  unfold handleClientAbort
  refine view_unfinished lifecycle fun _ => ?_
  rw [lifecycle_queueCancel]
  simp only [lifecycle_abortClient, lifecycle_book, lifecycle_cancelDeadlines, lifecycle_end_,
    lifecycle_noteAborted]
  have hcancels : (x.lifecycle.note .aborted).cancels = x.lifecycle.cancels := by
    unfold note
    split <;> rfl
  rw [← hcancels]
  rfl

lemma lifecycle_deliver (notice : Option Notice) : (x.deliver notice).lifecycle = x.lifecycle ∨
      (x.deliver notice).lifecycle = x.lifecycle.abort := by
  cases notice with
  | none => exact .inl rfl
  | some n =>
    cases n with
    | writeDrained => exact .inl (Unseen.resumeUpstreamReading x).lifecycle
    | requestAbort => exact .inr (lifecycle_handleClientAbort x)

@[simp] lemma finished_clearClientStreamCallbacks :
    x.clearClientStreamCallbacks.tx.finished = x.tx.finished :=
  congrArg (fun c : Lifecycle => c.tx.finished) (lifecycle_clearClientStreamCallbacks x)

variable {x}

lemma deliver_of_finished (hfin : x.tx.finished) (notice : Option Notice) :
    x.deliver notice = x := by
  cases notice with
  | none => rfl
  | some n =>
    cases n with
    | writeDrained => simp [deliver, resumeUpstreamReading, hfin]
    | requestAbort => simp [deliver, handleClientAbort, hfin]

lemma lifecycle_client {client : ClientConnection} {calls : List ClientCall}
    (halive : client.alive = x.client.alive) :
    { x with client, calls }.lifecycle = x.lifecycle := by
  simp [lifecycle, halive]

lemma lifecycle_sendResponse (hfin : x.tx.finished) (response : HttpResponse) :
    (x.sendResponse response answers).lifecycle = x.lifecycle := by
  unfold sendResponse
  cases h : x.client.sendResponse response answers with
  | none => rfl
  | some result =>
    obtain ⟨client, notice⟩ := result
    dsimp only
    rw [deliver_of_finished (by exact hfin)]
    exact lifecycle_client (alive_sendResponse h)

lemma lifecycle_concludeFailure (hfin : x.tx.finished) (response : HttpResponse)
    (truncated reason : TerminalReason) :
    (x.concludeFailure response truncated reason answers).lifecycle =
      x.lifecycle.conclude response.status truncated reason := by
  unfold concludeFailure
  split
  next hcommit =>
    refine .trans ?_ (if_pos hcommit).symm
    simp only [lifecycle_abortClient, lifecycle_book]
    rfl
  next hcommit =>
    refine .trans ?_ (if_neg hcommit).symm
    cases halive : x.client.alive with
    | false =>
      rw [if_pos (by simpa [book] using halive), if_neg (by simpa [book, lifecycle])]
      rfl
    | true =>
      rw [if_neg (by simpa [book] using halive), if_pos (by simpa [book, lifecycle])]
      rw [lifecycle_sendResponse]
      · simp only [lifecycle_book, lifecycle_clearClientStreamCallbacks]
        rfl
      · simpa [clearClientStreamCallbacks, book, halive] using hfin

lemma finished_cancelDeadlines_end_ (generations : ℕ) (f : Ledger → Ledger) :
    (((x.end_ generations).cancelDeadlines).book f).tx.finished := by
  show (((x.end_ generations).cancelDeadlines).book f).lifecycle.tx.finished
  rw [lifecycle_book, lifecycle_cancelDeadlines]
  rfl

lemma lifecycle_finishFailure : (x.finishFailure answers).lifecycle = x.lifecycle.fail := by
  unfold finishFailure
  refine view_unfinished lifecycle fun _ => ?_
  rw [lifecycle_concludeFailure]
  · simp only [lifecycle_book, lifecycle_cancelDeadlines, lifecycle_end_]
    rfl
  · exact finished_cancelDeadlines_end_ 1 _

lemma lifecycle_finishNoEndpoint :
    (x.finishNoEndpoint answers).lifecycle = x.lifecycle.noEndpoint := by
  unfold finishNoEndpoint
  refine view_unfinished lifecycle fun _ => ?_
  dsimp only
  split
  · simp only [lifecycle_book, lifecycle_cancelDeadlines, lifecycle_end_]
    rfl
  · rw [lifecycle_sendResponse, lifecycle_clearClientStreamCallbacks]
    · simp only [lifecycle_book, lifecycle_cancelDeadlines, lifecycle_end_]
      rfl
    · rw [finished_clearClientStreamCallbacks]
      exact finished_cancelDeadlines_end_ 1 _

@[simp] lemma lifecycle_cancelActive : x.cancelActive.lifecycle = x.lifecycle.cancelActive := by
  unfold cancelActive Lifecycle.cancelActive
  by_cases hconn : x.tx.activeConnection
  · simp only [hconn, if_true]
    rw [if_pos (by exact hconn)]
    rfl
  · simp only [hconn, if_false, Bool.false_eq_true]
    rw [if_neg (by exact hconn)]
    rfl

lemma lifecycle_finishGatewayTimeout :
    (x.finishGatewayTimeout answers).lifecycle = x.lifecycle.timeout := by
  unfold finishGatewayTimeout
  refine view_unfinished lifecycle fun _ => ?_
  rw [lifecycle_concludeFailure]
  · simp only [lifecycle_cancelActive, lifecycle_book, lifecycle_cancelDeadlines,
      lifecycle_end_, lifecycle_noteTimedOut]
    rfl
  · exact finished_cancelDeadlines_end_ (x := x.noteTimedOut) 1
      (·.releaseReservation.releaseActive)

lemma lifecycle_handleDeadline (generation : ℕ) :
    (x.handleDeadline generation answers).lifecycle = x.lifecycle ∨
      (x.handleDeadline generation answers).lifecycle = x.lifecycle.timeout := by
  unfold handleDeadline
  split
  · exact .inl rfl
  · exact .inr (lifecycle_finishGatewayTimeout answers)

@[simp] lemma lifecycle_finishResponse : x.finishResponse.lifecycle = x.lifecycle := by
  unfold finishResponse
  cases h : x.client.finishResponse with
  | none => rfl
  | some client => exact lifecycle_client (alive_finishResponse h)

lemma lifecycle_concludeSuccess (hfin : x.tx.finished) :
    (x.concludeSuccess {} answers).lifecycle = x.lifecycle.concludeSuccess := by
  unfold concludeSuccess Lifecycle.concludeSuccess
  cases halive : x.client.alive with
  | false =>
    rw [if_pos (by rfl), if_neg (by simp [lifecycle, halive])]
    rfl
  | true =>
    rw [if_neg (by simp), if_pos (show x.lifecycle.alive from halive)]
    split
    · have hlife := lifecycle_finishResponse (x := x)
      rw [← hlife]
      rfl
    · rw [lifecycle_sendResponse answers (by exact hfin)]
      rfl

lemma lifecycle_handleSuccess : (x.handleSuccess {} answers).lifecycle = x.lifecycle.succeed := by
  unfold handleSuccess succeed
  rw [lifecycle_concludeSuccess]
  · simp
  · exact finished_cancelDeadlines_end_ 0 _

lemma lifecycle_queueRetry : x.queueRetry.lifecycle = x.lifecycle.queueRetry := by
  have hsettle : x.lifecycle.settleRetry = fun l =>
      if x.client.alive then l.releaseActive.account false else l.releaseActive := rfl
  unfold queueRetry Lifecycle.queueRetry
  rw [hsettle]
  cases x.client.alive with
  | true | false =>
    simp [lifecycle, Lifecycle.book, book, Deferred.isCancel]
    rfl

lemma lifecycle_handleUpstream (r : UpstreamResult) :
    (x.handleUpstream r {} answers).lifecycle = x.lifecycle.result r := by
  unfold handleUpstream
  refine view_unfinished lifecycle fun _ => ?_
  split
  next hretry => exact lifecycle_queueRetry.trans (if_pos hretry).symm
  next hretry =>
    refine .trans ?_ (if_neg hretry).symm
    split
    · exact lifecycle_finishFailure answers
    · exact lifecycle_handleSuccess answers

lemma lifecycle_noteDelivered (r : UpstreamResult) :
    (x.noteDelivered r).lifecycle = x.lifecycle.noteDelivered r := by
  unfold noteDelivered Lifecycle.noteDelivered
  have hstatus : (x.upstream.bind Upstream.head).map HttpResponseHead.status =
      x.lifecycle.running.join := by
    simp only [lifecycle]
    cases x.upstream <;> rfl
  rw [hstatus]
  rfl

lemma lifecycle_handleResponseHead (head : HttpResponseHead) :
    (x.handleResponseHead head answers).lifecycle = x.lifecycle.handleHead head ∨
      (x.handleResponseHead head answers).lifecycle = (x.lifecycle.handleHead head).abort := by
  unfold handleResponseHead
  split
  next hskip => exact .inl (if_pos hskip).symm
  next hskip =>
    rw [show x.lifecycle.handleHead head = _ from if_neg hskip]
    dsimp only
    split
    · exact .inr (lifecycle_handleClientAbort _)
    unfold beginResponse
    split
    · exact .inr (lifecycle_handleClientAbort _)
    next client notice h =>
    rcases lifecycle_deliver _ notice with hd | hd <;> rw [hd]
    · exact .inl (lifecycle_client (alive_beginResponse h))
    · right
      rw [lifecycle_client (alive_beginResponse h)]
      rfl

variable {y : Exchange} {now : Instant} {launch : Launch}

lemma lifecycle_handleResponseBody {bytes : Bytes} {taken : Bool}
    (h : x.handleResponseBody bytes answers = some (y, taken)) :
    y.lifecycle = x.lifecycle ∨ y.lifecycle = x.lifecycle.abort := by
  unfold handleResponseBody at h
  split at h
  · cases h
    exact .inl rfl
  obtain ⟨-, h⟩ := ite_none_left_eq_some.mp h
  split at h
  · cases h
    exact .inr (lifecycle_handleClientAbort _)
  next client notice high hw =>
  simp only [some.injEq, Prod.mk.injEq] at h
  rw [← h.1]
  have halive := alive_writeResponseBody hw
  have hd := lifecycle_deliver
    { x with client, calls := .writeResponseBody bytes :: x.calls } notice
  rw [lifecycle_client halive] at hd
  split
  · rwa [(Unseen.pauseUpstreamReading _).lifecycle]
  · exact hd

lemma lifecycle_beginAttempt : x.beginAttempt.lifecycle = x.lifecycle.beginAttempt := by
  rw [← (Unseen.cancelAttemptDeadlines x).lifecycle]
  rfl

lemma lifecycle_selectAttempt (decision : AttemptDecision) :
    ((x.selectAttempt decision).1.lifecycle, (x.selectAttempt decision).2) =
      x.lifecycle.selectAttempt decision := by
  unfold selectAttempt
  split
  next hprovider =>
    refine .trans ?_ (if_pos hprovider).symm
    cases decision.selection <;> rfl
  next hprovider => exact (if_neg hprovider).symm

lemma lifecycle_endExecute (outcome : StartOutcome) :
    (x.endExecute outcome answers).lifecycle = x.lifecycle.endExecute outcome := by
  cases outcome with
  | pending => rfl
  | failed failure =>
    have h := lifecycle_handleUpstream answers (x := x.noteDelivered failure.result) failure.result
    rw [lifecycle_noteDelivered] at h
    show _ = ((x.lifecycle.noteDelivered failure.result).result failure.result).detach
    rw [← h]
    rfl
  | raised =>
    have h := lifecycle_handleUpstream answers (x := x.noteDelivered .connectError) .connectError
    rw [lifecycle_noteDelivered] at h
    exact h

lemma lifecycle_execute (h : x.execute launch answers = some y) :
    y.lifecycle = x.lifecycle.openUpstream.endExecute launch.outcome := by
  obtain ⟨z, hz, rfl⟩ := map_eq_some_iff.mp h
  rw [lifecycle_endExecute, (Unseen.reportProgress hz).lifecycle]
  rfl

lemma lifecycle_startUpstream {started : Bool}
    (h : x.startUpstream launch answers = some (y, started)) :
    (y.lifecycle, started) = x.lifecycle.startUpstream launch := by
  unfold startUpstream at h
  split at h
  next hdown =>
    cases h
    exact (if_pos hdown).symm
  next hdown =>
    refine .trans ?_ (if_neg hdown).symm
    rw [← lifecycle_beginAttempt, ← lifecycle_selectAttempt]
    cases hsel : x.beginAttempt.selectAttempt launch.decision with
    | mk z go =>
      rw [hsel] at h
      cases go with
      | false =>
        cases h
        rfl
      | true =>
        obtain ⟨w, hw, ⟨⟩⟩ := map_eq_some_iff.mp h
        obtain ⟨v, hv, hexec⟩ := bind_eq_some_iff.mp hw
        rw [lifecycle_execute answers hexec, (Unseen.armConnectDeadline hv).lifecycle]

lemma lifecycle_startReplacement {started : Bool}
    (h : x.startReplacement launch answers = some (y, started)) :
    (y.lifecycle, started) = x.lifecycle.startReplacement launch := by
  obtain ⟨⟨z, go⟩, hz, heq⟩ := map_eq_some_iff.mp h
  have hup := lifecycle_startUpstream answers hz
  unfold Lifecycle.startReplacement
  rw [← hup]
  cases go <;> (cases heq; rfl)

lemma lifecycle_startRetry {started : Bool}
    (h : x.startRetry launch answers = some (y, started)) :
    (y.lifecycle, started) = x.lifecycle.startRetry launch := by
  unfold startRetry at h
  split at h
  next hprovider => exact (lifecycle_startReplacement answers h).trans (if_pos hprovider).symm
  next hprovider =>
    refine .trans ?_ (if_neg hprovider).symm
    have halt : x.lifecycle.tx.retryAlternative = x.tx.retryAlternative := rfl
    rw [halt]
    cases hnext : x.tx.retryAlternative with
    | none =>
      rw [hnext] at h
      cases h
      rfl
    | some next =>
      rw [hnext] at h
      exact lifecycle_startReplacement answers h

lemma lifecycle_runRetry (h : x.runRetry launch answers = some y) :
    y.lifecycle = x.lifecycle.runRetry launch := by
  unfold runRetry at h
  split at h
  next hfin =>
    cases h
    exact (if_pos hfin).symm
  next hfin =>
    refine .trans ?_ (if_neg hfin).symm
    obtain ⟨⟨z, started⟩, hz, rfl⟩ := map_eq_some_iff.mp h
    rw [← lifecycle_startRetry answers hz]
    cases started with
    | true => rfl
    | false => exact lifecycle_finishFailure answers

lemma lifecycle_begin_ (h : x.begin_ now launch answers = some y) :
    y.lifecycle = x.lifecycle.begin_ launch := by
  unfold begin_ at h
  split at h
  next hdown =>
    cases h
    exact (if_pos hdown).symm
  next hdown =>
    refine .trans ?_ (if_neg hdown).symm
    obtain ⟨z, hz, hrest⟩ := bind_eq_some_iff.mp h
    obtain ⟨⟨w, started⟩, hw, rfl⟩ := map_eq_some_iff.mp hrest
    have hlife := (Unseen.armTotalDeadline hz).lifecycle
    have hup := lifecycle_startUpstream answers hw
    rw [hlife] at hup
    have hbook : { x.book ({ · with metricRequest := x.tx.hasMetrics }) with
        client := x.client.setStreamCallbacks }.lifecycle =
        x.lifecycle.book ({ · with metricRequest := x.lifecycle.tx.hasMetrics }) := rfl
    rw [hbook] at hup
    rw [← hup]
    cases started with
    | true => rfl
    | false => exact lifecycle_finishNoEndpoint answers

end
end Exchange

/-! ## Steps of the view -/

/-- What one event does to a transaction. -/
inductive Lifecycle.Next (c : Lifecycle) : Exchange.Event → Lifecycle → Prop
  | quiet (e : Exchange.Event) : Next c e c
  | head (h : HttpResponseHead) (answers : List SendResult) (hrun : c.running = some none) :
      Next c (.head h answers) ((c.noteHead h).handleHead h)
  | headAbort (h : HttpResponseHead) (answers : List SendResult) (hrun : c.running = some none) :
      Next c (.head h answers) ((c.noteHead h).handleHead h).abort
  | abort (e : Exchange.Event) : Next c e c.abort
  | result (r : UpstreamResult) (answers : List SendResult) (hrun : c.running.isSome)
      (hhead : r = .success → c.running.join.isSome) :
      Next c (.result r answers) ((c.noteDelivered r).result r)
  | timeout (now : Instant) (answers : List SendResult) : Next c (.fire now answers) c.timeout
  | retry (launch : Launch) (answers : List SendResult) {n : ℕ} (hqueued : c.queued = n + 1) :
      Next c (.runDeferred launch answers) ({ c with queued := n }.runRetry launch)
  | cancelled (launch : Launch) (answers : List SendResult) (running : Option (Option ℕ)) {n : ℕ}
      (hrun : running = none ∨ running = c.running) (hcancels : c.cancels = n + 1) :
      Next c (.runDeferred launch answers) { c with running, cancels := n }
  | clientDestroyed : Next c .clientDestroyed { c with alive := false }
  | gatewayExpired : Next c .gatewayExpired { c with gatewayUp := false }
  | dropped (hrun : c.running.isSome) : Next c .dropped { c with running := none }.destroy
  | destroyed (hrun : c.running = none) (hqueued : c.queued = 0) : Next c .destroyed c.destroy

lemma Lifecycle.Next.env {c d : Lifecycle} {e : Exchange.Event} (h : c.Next e d) :
    d.env = c.env ∨ (e = .clientDestroyed ∧ d = { c with alive := false }) ∨
      (e = .gatewayExpired ∧ d = { c with gatewayUp := false }) ∨
      (e = .dropped ∧ d = { c with running := none }.destroy) ∨
      (e = .destroyed ∧ d = c.destroy ∧ c.running = none ∧ c.queued = 0) := by
  cases h with
  | quiet => exact .inl rfl
  | head head answers hrun => exact .inl (env_handleHead _ _)
  | headAbort head answers hrun => exact .inl ((env_abort _).trans (env_handleHead _ _))
  | abort => exact .inl (env_abort c)
  | result r answers hrun hhead => exact .inl (env_result _ r)
  | timeout now answers => exact .inl (env_timeout c)
  | retry launch answers hqueued => exact .inl (env_runRetry _ launch)
  | cancelled launch answers running hrun hcancels => exact .inl rfl
  | clientDestroyed => exact .inr (.inl ⟨rfl, rfl⟩)
  | gatewayExpired => exact .inr (.inr (.inl ⟨rfl, rfl⟩))
  | dropped hrun => exact .inr (.inr (.inr (.inl ⟨rfl, rfl⟩)))
  | destroyed hrun hqueued => exact .inr (.inr (.inr (.inr ⟨rfl, rfl, hrun, hqueued⟩)))

namespace Exchange
variable {x y : Exchange} {e : Event}

lemma lifecycle_deliver_again {c : Lifecycle} (hx : x.lifecycle = c ∨ x.lifecycle = c.abort)
    (notice : Option Notice) :
    (x.deliver notice).lifecycle = c ∨ (x.deliver notice).lifecycle = c.abort := by
  rcases lifecycle_deliver x notice with hd | hd <;> rw [hd]
  · exact hx
  · rcases hx with hx | hx <;> rw [hx]
    · exact .inr rfl
    · exact .inr (Lifecycle.abort_abort c)

lemma lifecycle_clientTerminal (answers : List SendResult) :
    (x.clientTerminal answers).lifecycle = x.lifecycle ∨
      (x.clientTerminal answers).lifecycle = x.lifecycle.abort := by
  have hfirst := lifecycle_deliver_again (c := x.lifecycle)
    (x := { x with client := x.client.notifyRequestAbort.1 })
    (.inl (lifecycle_client (by simp))) x.client.notifyRequestAbort.2
  unfold clientTerminal
  dsimp only
  generalize { x with client := x.client.notifyRequestAbort.1 }.deliver
    x.client.notifyRequestAbort.2 = z at hfirst ⊢
  have hclose : { z with client := { z.client with closeAfterWrite := true } }.lifecycle =
      z.lifecycle := rfl
  split
  · apply lifecycle_deliver_again
    rw [lifecycle_client (x := { z with client := { z.client with closeAfterWrite := true } })
      (by simp)]
    exact hfirst
  · exact hfirst

section
variable {answers : List SendResult}

lemma next_head {u : Upstream} (hu : x.upstream = some u) (hhead : ¬ u.head.isSome)
    (head : HttpResponseHead) : x.lifecycle.Next (.head head answers)
      ({ x with upstream := some { u with head := some head } }.handleResponseHead head
        answers).lifecycle := by
  have hrun : x.lifecycle.running = some none := by
    simp only [lifecycle, hu, map_some]
    cases hh : u.head with
    | none => rfl
    | some _ => simp [hh] at hhead
  rcases lifecycle_handleResponseHead answers
    (x := { x with upstream := some { u with head := some head } }) head with hd | hd
  · exact hd ▸ .head head answers hrun
  · exact hd ▸ .headAbort head answers hrun

lemma next_result {r : UpstreamResult} (hguard : ¬ (x.upstream.isNone ||
      (r = .success && (x.upstream.bind Upstream.head).isNone))) :
    x.lifecycle.Next (.result r answers)
      ((x.noteDelivered r).handleUpstream r {} answers).lifecycle := by
  rw [lifecycle_handleUpstream, lifecycle_noteDelivered]
  simp only [Bool.or_eq_true, Bool.and_eq_true, decide_eq_true_eq, not_or, not_and] at hguard
  refine .result r answers ?_ fun hr => ?_
  · simpa [lifecycle, isSome_iff_ne_none] using hguard.1
  have hhead := hguard.2 hr
  cases hu : x.upstream with
  | none => simp [hu] at hhead
  | some u =>
    cases hh : u.head with
    | none => simp [hu, hh] at hhead
    | some head => simp [lifecycle, hu, hh]

lemma next_fire (now : Instant) (callback : Deadline) :
    x.lifecycle.Next (.fire now answers) (x.runDeadline answers callback).lifecycle := by
  cases callback with
  | attempt generation =>
    rcases lifecycle_handleDeadline answers (x := x) generation with hd | hd
    · exact hd ▸ .quiet _
    · exact hd ▸ .timeout now answers
  | total => exact lifecycle_finishGatewayTimeout answers (x := x) ▸ .timeout now answers
  | other => exact .quiet _

lemma next_retry {launch : Launch} {rest : List Deferred} (hrest : x.deferred = .retry :: rest)
    (h : { x with deferred := rest }.runRetry launch answers = some y) :
    x.lifecycle.Next (.runDeferred launch answers) y.lifecycle := by
  rw [lifecycle_runRetry answers h]
  have hlife : { x with deferred := rest }.lifecycle =
      { x.lifecycle with queued := rest.count .retry } := by
    simp [lifecycle, hrest, Deferred.isCancel]
  rw [hlife]
  refine .retry launch answers ?_
  simp [lifecycle, hrest]

lemma next_cancelled (launch : Launch) {connection : Bool} {rest : List Deferred}
    (hrest : x.deferred = .cancel connection :: rest) :
    x.lifecycle.Next (.runDeferred launch answers)
      { x with
        deferred := rest, upstream := if connection then none else x.upstream }.lifecycle := by
  have hlife : { x with deferred := rest, upstream := if connection then none
      else x.upstream }.lifecycle = { x.lifecycle with
        running := if connection then none else x.lifecycle.running
        cancels := rest.countP Deferred.isCancel } := by
    cases connection <;> simp [lifecycle, hrest]
  rw [hlife]
  refine .cancelled launch answers _ ?_ ?_
  · cases connection
    · exact .inr rfl
    · exact .inl rfl
  · simp [lifecycle, hrest, List.countP_cons, Deferred.isCancel]

end

/-- **The exchange refines its life cycle.** -/
theorem step_next (h : x.step e = some y) :
    x.destroyed = false ∧ x.lifecycle.Next e y.lifecycle := by
  obtain ⟨hlive, h⟩ := ite_none_left_eq_some.mp h
  refine ⟨by simpa using hlive, ?_⟩
  cases e with
  | progress p now =>
    obtain ⟨-, h⟩ := ite_none_right_eq_some.mp h
    rw [((Unseen.advanceUpstream x p).trans (.handleProgress h)).lifecycle]
    exact .quiet _
  | head head answers =>
    dsimp only at h
    split at h
    · next u hu =>
      obtain ⟨hhead, ⟨⟩⟩ := ite_none_left_eq_some.mp h
      exact next_head hu hhead head
    · cases h
  | body bytes answers =>
    obtain ⟨-, h⟩ := ite_none_right_eq_some.mp h
    obtain ⟨⟨z, taken⟩, hz, rfl⟩ := map_eq_some_iff.mp h
    rcases lifecycle_handleResponseBody answers hz with hd | hd <;> rw [hd]
    · exact .quiet _
    · exact .abort _
  | result r answers =>
    obtain ⟨hguard, ⟨⟩⟩ := ite_none_left_eq_some.mp h
    exact next_result hguard
  | fire now answers =>
    obtain ⟨⟨callback, i, timers⟩, -, rfl⟩ := map_eq_some_iff.mp h
    exact next_fire (x := { x with timers }) now callback
  | scheduleOther deadline =>
    obtain ⟨⟨timers, i⟩, -, rfl⟩ := map_eq_some_iff.mp h
    exact .quiet _
  | cancelOther identifier =>
    obtain ⟨-, ⟨⟩⟩ := ite_none_right_eq_some.mp h
    exact .quiet _
  | runDeferred launch answers =>
    dsimp only at h
    split at h
    · cases h
    · next hrest => exact next_retry hrest h
    · next hrest =>
      cases h
      exact next_cancelled launch hrest
  | clientWritable answers =>
    dsimp only at h
    obtain ⟨-, ⟨⟩⟩ := ite_none_right_eq_some.mp h
    rcases lifecycle_deliver_again (c := x.lifecycle)
      (x := { x with client := (x.client.handleWrite answers).1 })
      (.inl (lifecycle_client (by simp))) (x.client.handleWrite answers).2 with hd | hd <;> rw [hd]
    · exact .quiet _
    · exact .abort _
  | clientTerminal answers =>
    obtain ⟨-, ⟨⟩⟩ := ite_none_right_eq_some.mp h
    rcases lifecycle_clientTerminal (x := x) answers with hd | hd <;> rw [hd]
    · exact .quiet _
    · exact .abort _
  | clientDestroyed =>
    obtain ⟨-, ⟨⟩⟩ := ite_none_right_eq_some.mp h
    exact .clientDestroyed
  | gatewayExpired =>
    cases h
    exact .gatewayExpired
  | dropped =>
    obtain ⟨hrun, ⟨⟩⟩ := ite_none_right_eq_some.mp h
    exact .dropped (by simpa [lifecycle] using hrun)
  | destroyed =>
    obtain ⟨hguard, ⟨⟩⟩ := ite_none_right_eq_some.mp h
    simp only [Bool.and_eq_true, isNone_iff_eq_none, Bool.not_eq_true',
      List.contains_eq_mem, decide_eq_false_iff_not] at hguard
    exact .destroyed (by simp [lifecycle, hguard.1])
      (by simpa [lifecycle, List.count_eq_zero] using hguard.2)

end Exchange
end AegisGate.Proxy
