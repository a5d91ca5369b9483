import AegisGate.Net.ClientStream
import AegisGate.Proxy.ProxyTransaction

/-!
# What the client sees of a transaction

The other view of an `Exchange`: the client connection, the calls made on it, and the two
flags that decide them. Deadlines, guards and the choice of an endpoint do not show here,
so a handler is silent, or ends the request in one of five ways.
-/

namespace AegisGate.Proxy
open Http Net Exchange Option Bool

/-- The view. -/
structure Downstream where
  client : ClientConnection
  calls : List ClientCall := []
  committed : Bool := false
  finished : Bool := false
  gatewayUp : Bool := true

/-- The view of an exchange. -/
def Exchange.downstream (x : Exchange) : Downstream where
  client := x.client
  calls := x.calls
  committed := x.tx.downstreamResponseCommitted
  finished := x.tx.finished
  gatewayUp := x.gatewayUp

namespace Downstream

section
variable (d : Downstream)

/-- Set `finished_`. -/
def finish : Downstream := { d with finished := true }

/-- `ClearClientStreamCallbacks`. -/
def clear : Downstream :=
  if d.client.alive then { d with client := d.client.clearStreamCallbacks } else d

/-- `AbortResponse` of a living client. -/
def abortClient : Downstream :=
  if d.client.alive then
    { d with client := d.client.clearStreamCallbacks.close, calls := .abortResponse :: d.calls }
  else d

/-- `HandleClientAbort`. -/
def abort : Downstream := if d.finished then d else d.finish.abortClient

/-- A notice of the connection; a drained queue changes nothing here. -/
def deliver : Option Notice → Downstream
  | some .requestAbort => d.abort
  | _ => d

/-- `SendResponse` with its exceptions caught. -/
def send (response : HttpResponse) (answers : List SendResult) : Downstream :=
  match d.client.sendResponse response answers with
  | none => { d with calls := .refused :: d.calls }
  | some (client, notice) =>
    { d with client, calls := .sendResponse response :: d.calls }.deliver notice

/-- The end of a request without a complete answer of the upstream's. -/
def conclude (response : HttpResponse) (answers : List SendResult) : Downstream :=
  if d.committed then d.abortClient
  else if !d.client.alive then d
  else d.clear.send response answers

/-- `FinishFailure`. -/
def fail (answers : List SendResult) : Downstream :=
  if d.finished then d
  else d.finish.conclude (gatewayResponse 502 "Bad Gateway") answers

/-- `FinishGatewayTimeout`. -/
def timeout (answers : List SendResult) : Downstream :=
  if d.finished then d
  else d.finish.conclude (gatewayResponse 504 "Gateway Timeout") answers

/-- `FinishNoEndpoint`. -/
def noEndpoint (answers : List SendResult) : Downstream :=
  if d.finished then d
  else if !d.client.alive then d.finish
  else d.finish.clear.send (gatewayResponse 503 "Service Unavailable") answers

/-- `FinishResponse` with its exceptions caught. -/
def finishResponse (d : Downstream) : Downstream :=
  match d.client.finishResponse with
  | none => { d with calls := .refused :: d.calls }
  | some client => { d with client, calls := .finishResponse :: d.calls }

/-- The end of a request whose exchange was complete. -/
def succeed (answers : List SendResult) : Downstream :=
  if !d.client.alive then d.finish
  else if d.committed then d.finish.finishResponse
  else d.finish.send { ({} : HttpResponse) with
    headers := stripHopByHopHeaders ({} : HttpResponse).headers } answers

/-- `BeginResponse`; an exception is an abort. -/
def beginResponse (d : Downstream) (head : HttpResponseHead) (answers : List SendResult) :
    Downstream :=
  match d.client.beginResponse head answers with
  | none => { d with calls := .refused :: d.calls }.abort
  | some (client, notice) =>
    { d with client, calls := .beginResponse head :: d.calls }.deliver notice

/-- `HandleResponseHead`. -/
def handleHead (head : HttpResponseHead) (answers : List SendResult) : Downstream :=
  if d.finished || !d.gatewayUp then d
  else if !d.client.alive then { d with committed := true }.abort
  else { d with committed := true }.beginResponse
    { head with headers := stripHopByHopHeaders head.headers } answers

/-- `HandleResponseBody`. -/
def handleBody (bytes : Bytes) (answers : List SendResult) : Option Downstream :=
  if d.finished || !d.gatewayUp then some d
  else if !d.client.alive then none
  else match d.client.writeResponseBody bytes answers with
    | none => some { d with calls := .refused :: d.calls }.abort
    | some (client, notice, _) =>
      some ({ d with client, calls := .writeResponseBody bytes :: d.calls }.deliver notice)

/-- `EPOLLOUT` on the client. -/
def writable (answers : List SendResult) : Downstream :=
  { d with client := (d.client.handleWrite answers).1 }.deliver (d.client.handleWrite answers).2

/-- The peer of the paused client is gone. -/
def clientTerminal (answers : List SendResult) : Downstream :=
  let d := { d with client := d.client.notifyRequestAbort.1 }.deliver d.client.notifyRequestAbort.2
  let d := { d with client := { d.client with closeAfterWrite := true } }
  if d.client.writing then d.writable answers else d

lemma gatewayUp_abortClient : d.abortClient.gatewayUp = d.gatewayUp := by
  rw [abortClient]
  split <;> rfl

lemma finished_abortClient : d.abortClient.finished = d.finished := by
  rw [abortClient]
  split <;> rfl

lemma alive_abortClient : d.abortClient.client.alive = d.client.alive := by
  rw [abortClient]
  split
  · exact ClientConnection.alive_close _
  · rfl

lemma finished_abort : d.abort.finished := by
  rw [abort]
  split
  · assumption
  · exact finished_abortClient d.finish

end

/-- The steps of the view. -/
inductive Next (d : Downstream) : Exchange.Event → Downstream → Prop
  | quiet (e : Exchange.Event) : Next d e d
  | head (head : HttpResponseHead) (answers : List SendResult) :
      Next d (.head head answers) (d.handleHead head answers)
  | body (bytes : Bytes) (answers : List SendResult) {d' : Downstream}
      (h : d.handleBody bytes answers = some d') : Next d (.body bytes answers) d'
  | fail (e : Exchange.Event) (answers : List SendResult) : Next d e (d.fail answers)
  | timeout (e : Exchange.Event) (answers : List SendResult) : Next d e (d.timeout answers)
  | success (answers : List SendResult) (hfin : d.finished = false) :
      Next d (.result .success answers) (d.succeed answers)
  | writable (answers : List SendResult) (halive : d.client.alive) :
      Next d (.clientWritable answers) (d.writable answers)
  | terminal (answers : List SendResult) (halive : d.client.alive)
      (hvalid : d.client.valid) : Next d (.clientTerminal answers) (d.clientTerminal answers)
  | clientDestroyed : Next d .clientDestroyed
      { d with client := { d.client.close with alive := false } }
  | gatewayExpired : Next d .gatewayExpired { d with gatewayUp := false }

end Downstream

/-! ## The handlers on the view -/

namespace Exchange

lemma Unseen.downstream {x y : Exchange} (h : Unseen x y) : y.downstream = x.downstream := by
  rw [h.rest]
  rfl

section
variable (x : Exchange) (answers : List SendResult)

@[simp] lemma downstream_book (f : Ledger → Ledger) : (x.book f).downstream = x.downstream := rfl

@[simp] lemma downstream_end_ (generations : ℕ) :
    (x.end_ generations).downstream = x.downstream.finish := rfl

@[simp] lemma downstream_detach : x.detach.downstream = x.downstream := rfl

@[simp] lemma downstream_cancelDeadlines : x.cancelDeadlines.downstream = x.downstream :=
  (Unseen.cancelDeadlines x).downstream

@[simp] lemma downstream_clearClientStreamCallbacks :
    x.clearClientStreamCallbacks.downstream = x.downstream.clear := by
  rw [clearClientStreamCallbacks, Downstream.clear]
  show downstream _ = if x.client.alive then _ else _
  split <;> rfl

@[simp] lemma downstream_abortClient : x.abortClient.downstream = x.downstream.abortClient := by
  rw [abortClient, Downstream.abortClient]
  show downstream _ = if x.client.alive then _ else _
  split <;> rfl

@[simp] lemma downstream_noteAborted : x.noteAborted.downstream = x.downstream := by
  rw [noteAborted]
  split <;> rfl

@[simp] lemma downstream_noteTimedOut : x.noteTimedOut.downstream = x.downstream := by
  rw [noteTimedOut]
  split <;> rfl

@[simp] lemma downstream_handleClientAbort :
    x.handleClientAbort.downstream = x.downstream.abort := by
  rw [handleClientAbort, Downstream.abort]
  refine view_unfinished downstream fun _ => ?_
  show (Exchange.abortClient _).downstream = _
  simp

@[simp] lemma downstream_deliver (notice : Option Notice) :
    (x.deliver notice).downstream = x.downstream.deliver notice := by
  cases notice with
  | none => rfl
  | some notice =>
    cases notice with
    | writeDrained => exact (Unseen.resumeUpstreamReading x).downstream
    | requestAbort => exact downstream_handleClientAbort x

@[simp] lemma downstream_sendResponse (response : HttpResponse) :
    (x.sendResponse response answers).downstream = x.downstream.send response answers := by
  rw [sendResponse, Downstream.send]
  show downstream _ = match x.client.sendResponse response answers with
    | none => _
    | some (client, notice) => _
  cases x.client.sendResponse response answers with
  | none => rfl
  | some r => exact downstream_deliver _ _

lemma downstream_concludeFailure (response : HttpResponse) (truncated reason : TerminalReason) :
    (x.concludeFailure response truncated reason answers).downstream =
      x.downstream.conclude response answers := by
  rw [concludeFailure, Downstream.conclude]
  show downstream _ = if x.tx.downstreamResponseCommitted then _ else
    if !x.client.alive then _ else _
  split
  · exact downstream_abortClient _
  · show downstream (if !x.client.alive then _ else _) = _
    split
    · rfl
    · exact (downstream_sendResponse _ _ _).trans
        (congrArg (Downstream.send · response answers) (downstream_clearClientStreamCallbacks _))

@[simp] lemma downstream_finishFailure :
    (x.finishFailure answers).downstream = x.downstream.fail answers := by
  rw [finishFailure, Downstream.fail]
  refine view_unfinished downstream fun _ => ?_
  rw [downstream_concludeFailure]
  simp

@[simp] lemma downstream_finishGatewayTimeout :
    (x.finishGatewayTimeout answers).downstream = x.downstream.timeout answers := by
  rw [finishGatewayTimeout, Downstream.timeout]
  refine view_unfinished downstream fun _ => ?_
  rw [downstream_concludeFailure]
  show Downstream.conclude (downstream ((x.noteTimedOut.end_ 1).cancelDeadlines)) _ answers = _
  simp

@[simp] lemma downstream_finishNoEndpoint :
    (x.finishNoEndpoint answers).downstream = x.downstream.noEndpoint answers := by
  rw [finishNoEndpoint, Downstream.noEndpoint]
  refine view_unfinished downstream fun _ => ?_
  have hclient : ((x.end_ 1).cancelDeadlines).client = x.client :=
    congrArg Downstream.client (downstream_cancelDeadlines (x.end_ 1))
  show downstream (if !((x.end_ 1).cancelDeadlines).client.alive then _ else _) =
    if !x.client.alive then _ else _
  rw [hclient]
  split
  · exact downstream_cancelDeadlines (x.end_ 1)
  · simp

@[simp] lemma downstream_finishResponse :
    x.finishResponse.downstream = x.downstream.finishResponse := by
  rw [finishResponse, Downstream.finishResponse]
  show downstream _ = match x.client.finishResponse with
    | none => _
    | some client => _
  cases x.client.finishResponse <;> rfl

lemma downstream_concludeSuccess (hfin : x.tx.finished) :
    (x.concludeSuccess {} answers).downstream = x.downstream.succeed answers := by
  have hfinish : x.downstream.finish = x.downstream := by
    show { x.downstream with finished := true } = _
    rw [← hfin]
    rfl
  rw [concludeSuccess, Downstream.succeed, hfinish]
  show downstream _ = if !x.client.alive then _ else
    if x.tx.downstreamResponseCommitted then _ else _
  split
  · rfl
  · split
    · exact downstream_finishResponse x
    · exact downstream_sendResponse _ _ _

lemma downstream_handleSuccess :
    (x.handleSuccess {} answers).downstream = x.downstream.succeed answers := by
  have hrelease : (((x.end_ 0).cancelDeadlines).book
      (·.releaseReservation.releaseActive)).downstream = x.downstream.finish := by simp
  rw [handleSuccess, downstream_concludeSuccess _ _ (congrArg Downstream.finished hrelease),
    hrelease]
  rfl

lemma downstream_handleUpstream (r : UpstreamResult) :
    (x.handleUpstream r {} answers).downstream = x.downstream ∨
      (x.handleUpstream r {} answers).downstream = x.downstream.fail answers ∧ r ≠ .success ∨
      (x.handleUpstream r {} answers).downstream = x.downstream.succeed answers ∧
        x.tx.finished = false ∧ r = .success := by
  rw [handleUpstream]
  split
  · exact .inl rfl
  next hfin =>
  split
  · refine .inl ?_
    show downstream { (if x.client.alive then _ else _ : Exchange) with
      deferred := _ } = _
    split <;> rfl
  · split
    · next hr => exact .inr (.inl ⟨downstream_finishFailure _ _, by simpa using hr⟩)
    · next hr =>
      exact .inr (.inr ⟨downstream_handleSuccess _ _, eq_false_iff.mpr hfin,
        by simpa using hr⟩)

lemma downstream_beginResponse (head : HttpResponseHead) :
    (x.beginResponse head answers).downstream = x.downstream.beginResponse head answers := by
  rw [beginResponse, Downstream.beginResponse]
  show downstream _ = match x.client.beginResponse head answers with
    | none => _
    | some (client, notice) => _
  cases x.client.beginResponse head answers with
  | none => exact downstream_handleClientAbort _
  | some r => exact downstream_deliver _ _

lemma downstream_handleResponseHead (head : HttpResponseHead) :
    (x.handleResponseHead head answers).downstream = x.downstream.handleHead head answers := by
  rw [handleResponseHead, Downstream.handleHead]
  show downstream _ = if x.tx.finished || !x.gatewayUp then _ else
    if !x.client.alive then _ else _
  split
  · rfl
  · show downstream (if !x.client.alive then _ else _) = _
    split
    · exact downstream_handleClientAbort _
    · exact downstream_beginResponse _ _ _

variable {x answers} {y : Exchange} {now : Instant}

lemma downstream_handleResponseBody {bytes : Bytes} {taken : Bool}
    (h : x.handleResponseBody bytes answers = some (y, taken)) :
    x.downstream.handleBody bytes answers = some y.downstream := by
  rw [handleResponseBody] at h
  rw [Downstream.handleBody]
  show (if x.tx.finished || !x.gatewayUp then some x.downstream else
    if !x.client.alive then none else
    match x.client.writeResponseBody bytes answers with
    | none => _
    | some (client, notice, _) => _) = _
  by_cases hdone : (x.tx.finished || !x.gatewayUp)
  · rw [if_pos hdone] at h ⊢
    cases h
    rfl
  rw [if_neg hdone] at h ⊢
  by_cases hdead : (!x.client.alive)
  · rw [if_pos hdead] at h
    cases h
  rw [if_neg hdead] at h ⊢
  cases hwrite : x.client.writeResponseBody bytes answers with
  | none =>
    rw [hwrite] at h
    cases h
    exact congrArg some
      (downstream_handleClientAbort { x with calls := .refused :: x.calls }).symm
  | some r =>
    rw [hwrite] at h
    obtain ⟨client, notice, high⟩ := r
    simp only [some.injEq, Prod.mk.injEq] at h
    rw [← h.1]
    refine congrArg some (Eq.symm ?_)
    refine Eq.trans ?_ (downstream_deliver
      { x with client, calls := .writeResponseBody bytes :: x.calls } notice)
    split
    · exact (Unseen.pauseUpstreamReading _).downstream
    · rfl

lemma downstream_failed (x : Exchange) {r : UpstreamResult} (hr : r ≠ .success) :
    ((x.noteDelivered r).handleUpstream r {} answers).downstream = x.downstream ∨
      ((x.noteDelivered r).handleUpstream r {} answers).downstream = x.downstream.fail answers := by
  rcases downstream_handleUpstream (x.noteDelivered r) answers r with h | ⟨h, -⟩ | ⟨-, -, h⟩
  · exact .inl h
  · exact .inr h
  · exact absurd h hr

variable {launch : Launch}

/-- `Execute` is silent, or its failure ends the request. -/
lemma downstream_execute (h : x.execute launch answers = some y) :
    y.downstream = x.downstream ∨ y.downstream = x.downstream.fail answers := by
  obtain ⟨z, hz, rfl⟩ := map_eq_some_iff.mp h
  have hsame : z.downstream = x.downstream := (Unseen.reportProgress hz).downstream
  rw [← hsame]
  cases launch.outcome with
  | pending => exact .inl rfl
  | failed failure => exact downstream_failed z (by cases failure <;> exact nofun)
  | raised => exact downstream_failed z nofun

lemma downstream_selectAttempt (x : Exchange) (decision : AttemptDecision) :
    (x.beginAttempt.selectAttempt decision).1.downstream = x.downstream := by
  have hbegin : x.beginAttempt.downstream = x.downstream :=
    (Unseen.cancelAttemptDeadlines x).downstream
  rw [selectAttempt]
  split
  · split <;> exact hbegin
  · exact hbegin

/-- `StartUpstream` is silent unless the attempt it starts ends the request. -/
lemma downstream_startUpstream {started : Bool}
    (h : x.startUpstream launch answers = some (y, started)) :
    y.downstream = x.downstream ∨ started ∧ y.downstream = x.downstream.fail answers := by
  rw [startUpstream] at h
  split at h
  · cases h
    exact .inl rfl
  have hselect := downstream_selectAttempt x launch.decision
  split at h
  · next z heq =>
    rw [heq] at hselect
    cases h
    exact .inl hselect
  next z heq =>
  rw [heq] at hselect
  obtain ⟨w, hw, hpair⟩ := map_eq_some_iff.mp h
  obtain ⟨v, hv, hexec⟩ := bind_eq_some_iff.mp hw
  cases hpair
  have hsame : v.downstream = x.downstream :=
    (Unseen.armConnectDeadline hv).downstream.trans hselect
  rw [← hsame]
  exact (downstream_execute hexec).imp id fun hfail => ⟨rfl, hfail⟩

lemma downstream_startReplacement {started : Bool}
    (h : x.startReplacement launch answers = some (y, started)) :
    y.downstream = x.downstream ∨ started ∧ y.downstream = x.downstream.fail answers := by
  obtain ⟨⟨z, flag⟩, hz, hpair⟩ := map_eq_some_iff.mp h
  simp only [Prod.mk.injEq] at hpair
  obtain ⟨rfl, rfl⟩ := hpair
  have hcount : (if flag then { z with tx := { z.tx with retries := z.tx.retries + 1 } }
      else z).downstream = z.downstream := by
    split <;> rfl
  rw [hcount]
  exact downstream_startUpstream hz

lemma downstream_runRetry (h : x.runRetry launch answers = some y) :
    y.downstream = x.downstream ∨ y.downstream = x.downstream.fail answers := by
  rw [runRetry] at h
  split at h
  · cases h
    exact .inl rfl
  obtain ⟨⟨z, flag⟩, hz, rfl⟩ := map_eq_some_iff.mp h
  have hretry : z.downstream = x.downstream ∨
      flag ∧ z.downstream = x.downstream.fail answers := by
    rw [startRetry] at hz
    split at hz
    · exact downstream_startReplacement hz
    split at hz
    · cases hz
      exact .inl rfl
    · next endpoint _ =>
      exact downstream_startReplacement
        (x := { x with tx := { x.tx with endpoint := some endpoint } }) hz
  cases flag with
  | true => exact hretry.imp id And.right
  | false =>
    refine .inr ((downstream_finishFailure z answers).trans ?_)
    rw [hretry.resolve_right nofun]

lemma downstream_begin_ (hup : x.gatewayUp) (h : x.begin_ now launch answers = some y) :
    let d := { x.downstream with client := x.client.setStreamCallbacks }
    y.downstream = d ∨ y.downstream = d.fail answers ∨ y.downstream = d.noEndpoint answers := by
  rw [begin_, if_neg (by simp [hup])] at h
  obtain ⟨z, hz, hstart⟩ := bind_eq_some_iff.mp h
  obtain ⟨⟨w, started⟩, hw, rfl⟩ := map_eq_some_iff.mp hstart
  have hsame := (Unseen.armTotalDeadline hz).downstream
  have hcases := downstream_startUpstream hw
  rw [hsame] at hcases
  cases started with
  | true => exact hcases.imp id fun hfail => .inl hfail.2
  | false =>
    refine .inr (.inr ((downstream_finishNoEndpoint w answers).trans ?_))
    rw [hcases.resolve_right nofun]
    rfl

lemma downstream_clientTerminal (x : Exchange) (answers : List SendResult) :
    (x.clientTerminal answers).downstream = x.downstream.clientTerminal answers := by
  have hfirst := downstream_deliver { x with client := x.client.notifyRequestAbort.1 }
    x.client.notifyRequestAbort.2
  rw [clientTerminal, Downstream.clientTerminal]
  dsimp only
  rw [show ({ x.downstream with client := x.downstream.client.notifyRequestAbort.1 } :
    Downstream).deliver x.downstream.client.notifyRequestAbort.2 = _ from hfirst.symm]
  generalize ({ x with client := x.client.notifyRequestAbort.1 } : Exchange).deliver
    x.client.notifyRequestAbort.2 = z
  show downstream (if z.client.writing then _ else _) = if z.client.writing then _ else _
  split
  · exact downstream_deliver _ _
  · rfl

lemma downstream_runDeadline (x : Exchange) (answers : List SendResult) (callback : Deadline) :
    (x.runDeadline answers callback).downstream = x.downstream ∨
      (x.runDeadline answers callback).downstream = x.downstream.timeout answers := by
  cases callback with
  | attempt generation =>
    rw [runDeadline, handleDeadline]
    split
    · exact .inl rfl
    · exact .inr (downstream_finishGatewayTimeout x answers)
  | total => exact .inr (downstream_finishGatewayTimeout x answers)
  | other => exact .inl rfl

/-- **The exchange refines its client side.** -/
theorem step_downstream {e : Event} (h : x.step e = some y) : x.downstream.Next e y.downstream := by
  unfold step at h
  split at h
  · cases h
  cases e with
  | progress p now =>
    obtain ⟨-, h⟩ := ite_none_right_eq_some.mp h
    rw [((Unseen.advanceUpstream x p).trans (.handleProgress h)).downstream]
    exact .quiet _
  | head head answers =>
    dsimp only at h
    split at h
    · obtain ⟨-, ⟨⟩⟩ := ite_none_left_eq_some.mp h
      rw [downstream_handleResponseHead]
      exact .head head answers
    · cases h
  | body bytes answers =>
    obtain ⟨-, h⟩ := ite_none_right_eq_some.mp h
    obtain ⟨⟨z, taken⟩, hz, rfl⟩ := map_eq_some_iff.mp h
    exact .body bytes answers (downstream_handleResponseBody hz)
  | result r answers =>
    obtain ⟨-, ⟨⟩⟩ := ite_none_left_eq_some.mp h
    rcases downstream_handleUpstream (x.noteDelivered r) answers r with
      heq | ⟨heq, -⟩ | ⟨heq, hfin, rfl⟩
    · rw [heq]
      exact .quiet _
    · rw [heq]
      exact .fail _ answers
    · rw [heq]
      exact .success answers hfin
  | fire now answers =>
    obtain ⟨⟨callback, identifier, timers⟩, -, rfl⟩ := map_eq_some_iff.mp h
    rcases downstream_runDeadline { x with timers } answers callback with heq | heq
    · rw [heq]
      exact .quiet _
    · rw [heq]
      exact .timeout _ answers
  | scheduleOther deadline =>
    obtain ⟨r, -, rfl⟩ := map_eq_some_iff.mp h
    exact .quiet _
  | cancelOther identifier | dropped | destroyed =>
    obtain ⟨-, ⟨⟩⟩ := ite_none_right_eq_some.mp h
    exact .quiet _
  | runDeferred launch answers =>
    dsimp only at h
    split at h
    · cases h
    · rcases downstream_runRetry h with heq | heq
      · rw [heq]
        exact .quiet _
      · rw [heq]
        exact .fail _ answers
    · cases h
      exact .quiet _
  | clientWritable answers =>
    obtain ⟨halive, ⟨⟩⟩ := ite_none_right_eq_some.mp h
    rw [downstream_deliver]
    exact .writable answers halive
  | clientTerminal answers =>
    obtain ⟨hopen, ⟨⟩⟩ := ite_none_right_eq_some.mp h
    simp only [and_eq_true] at hopen
    rw [downstream_clientTerminal]
    exact .terminal answers hopen.1.1 hopen.1.2
  | clientDestroyed =>
    obtain ⟨-, ⟨⟩⟩ := ite_none_right_eq_some.mp h
    exact .clientDestroyed
  | gatewayExpired =>
    cases h
    exact .gatewayExpired

end
end Exchange
end AegisGate.Proxy
