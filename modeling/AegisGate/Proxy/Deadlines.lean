import AegisGate.Proxy.Lifecycle

/-!
# The deadlines of a transaction

The view of an exchange that `Lifecycle` leaves out: the shared timer queue, the three timers
the transaction has recorded, and the generation its callbacks capture. The handlers arm and
cancel timers in eight places; here they are one function each, and every terminal handler is
`conclude`.

`unwritten` is what bounds the number of first-byte deadlines: the running exchange has not
reported yet that its request is written.
-/

namespace AegisGate.Proxy
open Http Net Health Option

/-- The view. -/
structure Deadlines where
  timers : TimerQueue Deadline
  connectTimer : ℕ
  firstByteTimer : ℕ
  totalTimer : ℕ
  generation : ℕ
  attempts : ℕ
  finished : Bool
  hasTimers : Bool
  gatewayUp : Bool
  unwritten : Bool

/-- The view of an exchange. -/
def Exchange.deadlines (x : Exchange) : Deadlines where
  timers := x.timers
  connectTimer := x.tx.connectTimer
  firstByteTimer := x.tx.firstByteTimer
  totalTimer := x.tx.totalTimer
  generation := x.tx.generation
  attempts := x.tx.attempts
  finished := x.tx.finished
  hasTimers := x.tx.hasTimers
  gatewayUp := x.gatewayUp
  unwritten := x.upstream.any fun u => !u.reading

namespace Deadlines

section
variable (d : Deadlines)

/-- Cancel a timer, if one is recorded. -/
def cancelTimer (identifier : ℕ) : Deadlines :=
  if identifier = 0 then d else { d with timers := (d.timers.cancel identifier).1 }

/-- `CancelAttemptDeadlines`. -/
def cancelAttemptDeadlines : Deadlines :=
  if !d.gatewayUp || !d.hasTimers then d
  else
    { (d.cancelTimer d.connectTimer).cancelTimer d.firstByteTimer with
      connectTimer := 0, firstByteTimer := 0 }

/-- `CancelDeadlines`. -/
def cancelDeadlines : Deadlines :=
  if !d.gatewayUp || !d.hasTimers then d
  else { d.cancelAttemptDeadlines.cancelTimer d.totalTimer with totalTimer := 0 }

/-- Set `finished_` and advance the generation. -/
def end_ (generations : ℕ) : Deadlines :=
  { d with finished := true, generation := d.generation + generations }

/-- A terminal handler. -/
def conclude (generations : ℕ) : Deadlines :=
  if d.finished then d else (d.end_ generations).cancelDeadlines

/-- Arm the connect deadline at an instant; `none` is an exception of the queue. -/
def armConnectDeadline (instant : Instant) : Option Deadlines :=
  if !d.hasTimers then some d
  else ((d.cancelTimer d.connectTimer).timers.scheduleAt instant (.attempt d.generation)).map
    fun (timers, identifier) => { d with timers, connectTimer := identifier }

/-- `ArmFirstByteDeadline`. -/
def armFirstByteDeadline (instant : Instant) : Option Deadlines :=
  if !d.hasTimers then some d
  else (d.timers.scheduleAt instant (.attempt d.generation)).map
    fun (timers, identifier) => { d with timers, firstByteTimer := identifier }

/-- `ArmTotalDeadline`. -/
def armTotalDeadline (instant : Instant) : Option Deadlines :=
  if !d.hasTimers then some d
  else (d.timers.scheduleAt instant .total).map
    fun (timers, identifier) => { d with timers, totalTimer := identifier }

/-- Whether the running exchange has its request written changes with this report. -/
def advance (progress : UpstreamProgress) : Deadlines :=
  if progress = .requestWritten then { d with unwritten := false } else d

/-- A report of the running exchange, with the instant of the deadline it may arm. -/
def handleProgress (progress : UpstreamProgress) (instant : Instant) : Option Deadlines :=
  if d.finished || !d.gatewayUp then some d
  else match progress with
    | .connected =>
      some { (if d.hasTimers then d.cancelTimer d.connectTimer else d) with connectTimer := 0 }
    | .requestWritten => d.armFirstByteDeadline instant
    | .firstByte =>
      some { (if d.hasTimers then d.cancelTimer d.firstByteTimer else d) with firstByteTimer := 0 }
    | .responseHeader => some d

/-- A report that the running exchange can make. -/
def report (progress : UpstreamProgress) (instant : Instant) : Option Deadlines :=
  if progress = .requestWritten ∧ d.unwritten = false then none
  else (d.advance progress).handleProgress progress instant

/-- The progress inside `Execute`. -/
def reportProgress (d : Deadlines) : List (UpstreamProgress × Instant) → Option Deadlines
  | [] => some d
  | (progress, instant) :: rest => (d.report progress instant).bind (reportProgress · rest)

/-- The start of `StartUpstream`. -/
def beginAttempt : Deadlines :=
  { d.cancelAttemptDeadlines with generation := d.generation + 1 }

/-- A new exchange, with its request to be written. -/
def openUpstream : Deadlines :=
  { d with attempts := d.attempts + 1, unwritten := true }

/-- The exchange of the transaction may be gone. -/
def Fades (d d' : Deadlines) : Prop :=
  ∃ u, (u = true → d.unwritten = true) ∧ d' = { d with unwritten := u }

/-- What the handlers do that arm nothing: the transaction goes on, or it ends. -/
def Settles (d d' : Deadlines) : Prop :=
  d.Fades d' ∨ d.finished = false ∧ ∃ generations, (d.conclude generations).Fades d'

/-- `StartUpstream` with an attempt to start. -/
def Attempts (d d' : Deadlines) : Prop :=
  ∃ instant d₁ reports d₂, d.gatewayUp ∧
    d.beginAttempt.armConnectDeadline instant = some d₁ ∧
    d₁.openUpstream.reportProgress reports = some d₂ ∧ d₂.Settles d'

/-- The callback of a due timer, which is off the queue. -/
def Fires (d' : Deadlines) : Deadline → Prop
  | .attempt generation =>
    if d.finished || generation != d.generation then d' = d else (d.conclude 1).Fades d'
  | .total => (d.conclude 1).Fades d'
  | .other => d' = d

/-- The steps of the view. -/
inductive Next (d : Deadlines) : Exchange.Event → Deadlines → Prop
  | settles {d' : Deadlines} (e : Exchange.Event) (h : d.Settles d') : Next d e d'
  | progress {d' : Deadlines} (p : UpstreamProgress) (now instant : Instant)
      (h : d.report p instant = some d') : Next d (.progress p now) d'
  | fire {d' : Deadlines} (now : Instant) (answers : List SendResult) {callback : Deadline}
      {identifier : ℕ} {timers : TimerQueue Deadline}
      (hpop : d.timers.popDue now = some (callback, identifier, timers))
      (h : { d with timers }.Fires d' callback) : Next d (.fire now answers) d'
  | scheduleOther (deadline : Instant) {timers : TimerQueue Deadline} {identifier : ℕ}
      (h : d.timers.scheduleAt deadline .other = some (timers, identifier)) :
      Next d (.scheduleOther deadline) { d with timers }
  | cancelOther (identifier : ℕ) (h : d.timers.Pending identifier .other) :
      Next d (.cancelOther identifier) { d with timers := (d.timers.cancel identifier).1 }
  | retry {d' : Deadlines} (launch : Launch) (answers : List SendResult)
      (hfin : d.finished = false) (h : d.Attempts d') : Next d (.runDeferred launch answers) d'
  | noRetry {d' : Deadlines} (launch : Launch) (answers : List SendResult)
      (hfin : d.finished = false) (hup : d.gatewayUp)
      (h : (d.beginAttempt.conclude 1).Fades d') : Next d (.runDeferred launch answers) d'
  | gatewayExpired : Next d .gatewayExpired { d with gatewayUp := false }

lemma Fades.refl : d.Fades d := ⟨d.unwritten, id, rfl⟩

lemma Settles.refl (d : Deadlines) : d.Settles d := .inl (.refl d)

lemma Settles.conclude (d : Deadlines) (generations : ℕ) :
    d.Settles (d.conclude generations) := by
  cases hfin : d.finished with
  | true =>
    rw [Deadlines.conclude, if_pos hfin]
    exact .refl d
  | false => exact .inr ⟨hfin, generations, .refl _⟩

lemma cancelTimer_eq (identifier : ℕ) :
    ∃ timers, d.cancelTimer identifier = { d with timers } := by
  rw [cancelTimer]
  split
  · exact ⟨d.timers, rfl⟩
  · exact ⟨_, rfl⟩

lemma cancelAttemptDeadlines_eq : ∃ timers connectTimer firstByteTimer,
    d.cancelAttemptDeadlines = { d with timers, connectTimer, firstByteTimer } := by
  rw [cancelAttemptDeadlines]
  split
  · exact ⟨_, _, _, rfl⟩
  · obtain ⟨t₁, h₁⟩ := cancelTimer_eq d d.connectTimer
    obtain ⟨t₂, h₂⟩ := cancelTimer_eq { d with timers := t₁ } d.firstByteTimer
    rw [h₁, h₂]
    exact ⟨t₂, 0, 0, rfl⟩

lemma cancelDeadlines_eq : ∃ timers connectTimer firstByteTimer totalTimer,
    d.cancelDeadlines = { d with timers, connectTimer, firstByteTimer, totalTimer } := by
  rw [cancelDeadlines]
  split
  · exact ⟨_, _, _, _, rfl⟩
  · obtain ⟨t₁, c, f, h₁⟩ := cancelAttemptDeadlines_eq d
    obtain ⟨t₂, h₂⟩ := cancelTimer_eq
      { d with timers := t₁, connectTimer := c, firstByteTimer := f } d.totalTimer
    rw [h₁, h₂]
    exact ⟨t₂, c, f, 0, rfl⟩

@[simp] lemma finished_conclude (n : ℕ) : (d.conclude n).finished := by
  rw [conclude]
  split
  · assumption
  · obtain ⟨_, _, _, _, h⟩ := cancelDeadlines_eq (d.end_ n)
    rw [h]
    rfl

lemma cancelDeadlines_unwritten (u : Bool) :
    { d with unwritten := u }.cancelDeadlines = { d.cancelDeadlines with unwritten := u } := by
  simp only [cancelDeadlines, cancelAttemptDeadlines, cancelTimer]
  split_ifs <;> rfl

lemma conclude_unwritten (u : Bool) (n : ℕ) :
    { d with unwritten := u }.conclude n = { d.conclude n with unwritten := u } := by
  rw [conclude, conclude]
  split
  · rfl
  · exact cancelDeadlines_unwritten (d.end_ n) u

end

variable {d d₁ d₂ : Deadlines}

lemma Fades.trans (h : d.Fades d₁) (k : d₁.Fades d₂) : d.Fades d₂ := by
  obtain ⟨u, hu, rfl⟩ := h
  obtain ⟨v, hv, rfl⟩ := k
  exact ⟨v, fun h => hu (hv h), rfl⟩

lemma Fades.conclude (h : d.Fades d₁) (n : ℕ) : (d.conclude n).Fades (d₁.conclude n) := by
  obtain ⟨u, hu, rfl⟩ := h
  obtain hunwritten : (d.conclude n).unwritten = d.unwritten := by
    rw [conclude]
    split
    · rfl
    · obtain ⟨_, _, _, _, h⟩ := cancelDeadlines_eq (d.end_ n)
      rw [h]
      rfl
  exact ⟨u, fun h => hunwritten.trans (hu h), conclude_unwritten d u n⟩

lemma Fades.finished (h : d.Fades d₁) : d₁.finished = d.finished := by
  obtain ⟨u, hu, rfl⟩ := h
  rfl

lemma Settles.trans (h : d.Settles d₁) (k : d₁.Settles d₂) : d.Settles d₂ := by
  rcases h with h | ⟨hfin, n, h⟩
  · rcases k with k | ⟨hfin, n, k⟩
    · exact .inl (h.trans k)
    · exact .inr ⟨h.finished ▸ hfin, n, (h.conclude n).trans k⟩
  · rcases k with k | ⟨hfin', _, _⟩
    · exact .inr ⟨hfin, n, h.trans k⟩
    · rw [h.finished, finished_conclude] at hfin'
      cases hfin'

end Deadlines

/-! ## The handlers on the view -/

namespace Exchange
open Deadlines

section
variable (x : Exchange) (answers : List SendResult)

@[simp] lemma deadlines_book (f : Ledger → Ledger) : (x.book f).deadlines = x.deadlines := rfl

@[simp] lemma deadlines_end_ (n : ℕ) : (x.end_ n).deadlines = x.deadlines.end_ n := rfl

@[simp] lemma deadlines_cancelTimer (identifier : ℕ) :
    (x.cancelTimer identifier).deadlines = x.deadlines.cancelTimer identifier := by
  rw [cancelTimer, Deadlines.cancelTimer]
  split <;> rfl

@[simp] lemma deadlines_cancelAttemptDeadlines :
    x.cancelAttemptDeadlines.deadlines = x.deadlines.cancelAttemptDeadlines := by
  rw [cancelAttemptDeadlines]
  split
  next h => exact (if_pos h).symm
  next h =>
    refine .trans ?_ (if_neg h).symm
    have hcancel : ((x.cancelTimer x.tx.connectTimer).cancelTimer x.tx.firstByteTimer).deadlines =
        (x.deadlines.cancelTimer x.tx.connectTimer).cancelTimer x.tx.firstByteTimer := by
      rw [deadlines_cancelTimer, deadlines_cancelTimer]
    exact congrArg (fun d : Deadlines => { d with connectTimer := 0, firstByteTimer := 0 }) hcancel

@[simp] lemma deadlines_cancelDeadlines :
    x.cancelDeadlines.deadlines = x.deadlines.cancelDeadlines := by
  rw [cancelDeadlines]
  split
  next h => exact (if_pos h).symm
  next h =>
    refine .trans ?_ (if_neg h).symm
    have hcancel : (x.cancelAttemptDeadlines.cancelTimer x.tx.totalTimer).deadlines =
        x.deadlines.cancelAttemptDeadlines.cancelTimer x.tx.totalTimer := by
      rw [deadlines_cancelTimer, deadlines_cancelAttemptDeadlines]
    exact congrArg (fun d : Deadlines => { d with totalTimer := 0 }) hcancel

@[simp] lemma deadlines_clearClientStreamCallbacks :
    x.clearClientStreamCallbacks.deadlines = x.deadlines := by
  rw [clearClientStreamCallbacks]
  split <;> rfl

@[simp] lemma deadlines_abortClient : x.abortClient.deadlines = x.deadlines := by
  rw [abortClient]
  split <;> rfl

@[simp] lemma deadlines_noteAborted : x.noteAborted.deadlines = x.deadlines := by
  rw [noteAborted]
  split <;> rfl

@[simp] lemma deadlines_noteTimedOut : x.noteTimedOut.deadlines = x.deadlines := by
  rw [noteTimedOut]
  split <;> rfl

lemma deadlines_handleClientAbort : x.handleClientAbort.deadlines = x.deadlines.conclude 1 := by
  rw [handleClientAbort]
  refine view_unfinished deadlines fun _ => ?_
  have hcancel : ((x.noteAborted.end_ 1).cancelDeadlines).deadlines =
      (x.deadlines.end_ 1).cancelDeadlines := by simp
  rw [← hcancel]
  exact deadlines_abortClient _

@[simp] lemma deadlines_resumeUpstreamReading :
    x.resumeUpstreamReading.deadlines = x.deadlines := by
  have hreading : ∀ u : Upstream, u.resumeReading.reading = u.reading := by
    intro u
    rw [Upstream.resumeReading]
    split <;> rfl
  rw [resumeUpstreamReading]
  split
  · rfl
  · dsimp only
    split
    · simp [deadlines, any_map, hreading]
    · rfl

@[simp] lemma deadlines_pauseUpstreamReading :
    x.pauseUpstreamReading.deadlines = x.deadlines := by
  have hreading : ∀ u : Upstream, u.pauseReading.reading = u.reading := by
    intro u
    rw [Upstream.pauseReading]
    split <;> rfl
  rw [pauseUpstreamReading]
  split
  · rfl
  · dsimp only
    split
    · simp [deadlines, any_map, hreading]
    · rfl

variable {x}

lemma deadlines_deliver {d : Deadlines} (h : x.deadlines = d) (notice : Option Notice) :
    d.Settles (x.deliver notice).deadlines := by
  subst h
  cases notice with
  | none => exact .refl _
  | some n =>
    cases n with
    | writeDrained =>
      rw [deliver, deadlines_resumeUpstreamReading]
      exact .refl _
    | requestAbort =>
      rw [deliver, deadlines_handleClientAbort]
      exact .conclude _ 1

lemma deadlines_sendResponse (hfin : x.tx.finished) (response : HttpResponse) :
    (x.sendResponse response answers).deadlines = x.deadlines := by
  rw [sendResponse]
  cases h : x.client.sendResponse response answers with
  | none => rfl
  | some result =>
    dsimp only
    rw [deliver_of_finished (by exact hfin)]
    rfl

lemma deadlines_concludeFailure (hfin : x.tx.finished) (response : HttpResponse)
    (truncated reason : TerminalReason) :
    (x.concludeFailure response truncated reason answers).deadlines = x.deadlines := by
  rw [concludeFailure]
  split
  · rw [deadlines_abortClient, deadlines_book]
  dsimp only
  split
  · rfl
  rw [deadlines_sendResponse]
  · rw [deadlines_book, deadlines_clearClientStreamCallbacks, deadlines_book]
  · have hclear := finished_clearClientStreamCallbacks (x.book fun l =>
      (l.completeMetric response.status x.tx.endpoint .none).logTerminal response.status reason
        x.tx.retries)
    exact hclear.trans hfin

lemma deadlines_finishFailure : (x.finishFailure answers).deadlines = x.deadlines.conclude 1 := by
  rw [finishFailure]
  refine view_unfinished deadlines fun _ => ?_
  rw [deadlines_concludeFailure answers (finished_cancelDeadlines_end_ 1 _)]
  simp

lemma deadlines_finishNoEndpoint :
    (x.finishNoEndpoint answers).deadlines = x.deadlines.conclude 1 := by
  rw [finishNoEndpoint]
  refine view_unfinished deadlines fun _ => ?_
  dsimp only
  split
  · simp
  · rw [deadlines_sendResponse, deadlines_clearClientStreamCallbacks]
    · simp
    · rw [finished_clearClientStreamCallbacks]
      exact finished_cancelDeadlines_end_ 1 _

lemma deadlines_cancelActive : x.deadlines.Fades x.cancelActive.deadlines := by
  refine ⟨x.cancelActive.deadlines.unwritten, fun h => ?_, rfl⟩
  by_cases hactive : x.tx.activeConnection
  · simp [cancelActive, deadlines, hactive] at h
  · simpa [cancelActive, deadlines, hactive] using h

lemma deadlines_finishGatewayTimeout :
    (x.deadlines.conclude 1).Fades (x.finishGatewayTimeout answers).deadlines := by
  rw [finishGatewayTimeout, conclude]
  by_cases hfin : x.tx.finished
  · rw [if_pos hfin, if_pos (show x.deadlines.finished from hfin)]
    exact .refl _
  rw [if_neg hfin, if_neg (show ¬x.deadlines.finished from hfin)]
  rw [deadlines_concludeFailure answers]
  · have hcancel : (((x.noteTimedOut.end_ 1).cancelDeadlines).book
        (·.releaseReservation.releaseActive)).deadlines =
        (x.deadlines.end_ 1).cancelDeadlines := by simp
    rw [← hcancel]
    exact deadlines_cancelActive
  · exact finished_cancelDeadlines_end_ (x := x.noteTimedOut) 1 (·.releaseReservation.releaseActive)

lemma deadlines_runDeadline (callback : Deadline) :
    x.deadlines.Fires (x.runDeadline answers callback).deadlines callback := by
  cases callback with
  | attempt generation =>
    rw [Fires, runDeadline, handleDeadline]
    show if x.tx.finished || generation != x.tx.generation then _ else _
    split
    · rfl
    · exact deadlines_finishGatewayTimeout answers
  | total => exact deadlines_finishGatewayTimeout answers
  | other => rfl

@[simp] lemma deadlines_finishResponse : x.finishResponse.deadlines = x.deadlines := by
  rw [finishResponse]
  split <;> rfl

lemma deadlines_concludeSuccess (hfin : x.tx.finished) (response : HttpResponse) :
    (x.concludeSuccess response answers).deadlines = x.deadlines := by
  rw [concludeSuccess]
  split
  · rfl
  · split
    · exact deadlines_finishResponse
    · exact deadlines_sendResponse (x := (x.recordSuccess response .none).accountResponse response)
        answers hfin _

lemma deadlines_handleSuccess (hfin : x.tx.finished = false) (response : HttpResponse) :
    (x.handleSuccess response answers).deadlines = x.deadlines.conclude 0 := by
  rw [handleSuccess, deadlines_concludeSuccess answers (finished_cancelDeadlines_end_ 0 _),
    conclude, if_neg (show ¬x.deadlines.finished by simpa [deadlines] using hfin)]
  simp

@[simp] lemma deadlines_queueRetry : x.queueRetry.deadlines = x.deadlines := by
  rw [queueRetry]
  cases x.client.alive <;> rfl

lemma deadlines_handleUpstream (r : UpstreamResult) (response : HttpResponse) :
    x.deadlines.Settles (x.handleUpstream r response answers).deadlines := by
  have hdetach : x.detach.deadlines = x.deadlines := rfl
  rw [handleUpstream, ← hdetach]
  by_cases hfin : x.tx.finished
  · rw [if_pos hfin]
    exact .refl _
  rw [if_neg hfin]
  split
  · rw [deadlines_queueRetry]
    exact .refl _
  · split
    · rw [deadlines_finishFailure]
      exact .conclude _ 1
    · rw [deadlines_handleSuccess answers (by simpa [detach] using hfin)]
      exact .conclude _ 0

lemma deadlines_noteDelivered (r : UpstreamResult) :
    x.deadlines.Fades (x.noteDelivered r).deadlines :=
  ⟨false, nofun, rfl⟩

lemma deadlines_handleResponseHead (head : HttpResponseHead) :
    x.deadlines.Settles (x.handleResponseHead head answers).deadlines := by
  rw [handleResponseHead]
  split
  · exact .refl _
  dsimp only
  split
  · rw [deadlines_handleClientAbort]
    exact .conclude _ 1
  · rw [beginResponse]
    split
    · rw [deadlines_handleClientAbort]
      exact .conclude _ 1
    · exact deadlines_deliver (d := x.deadlines) (by rfl) _

variable {y : Exchange} {now : Instant} {launch : Launch}

lemma deadlines_handleResponseBody {bytes : Bytes} {taken : Bool}
    (h : x.handleResponseBody bytes answers = some (y, taken)) :
    x.deadlines.Settles y.deadlines := by
  rw [handleResponseBody] at h
  split at h
  · cases h
    exact .refl _
  obtain ⟨-, h⟩ := ite_none_left_eq_some.mp h
  split at h
  · cases h
    rw [deadlines_handleClientAbort]
    exact .conclude _ 1
  simp only [some.injEq, Prod.mk.injEq] at h
  rw [← h.1]
  split
  · rw [deadlines_pauseUpstreamReading]
    exact deadlines_deliver (d := x.deadlines) (by rfl) _
  · exact deadlines_deliver (d := x.deadlines) (by rfl) _

/-- Arming on an exchange is arming on its view. -/
lemma deadlines_arm {z : Exchange} {ms : ℕ} {callback : Deadline} {set : Exchange × ℕ → Exchange}
    {arm : TimerQueue Deadline × ℕ → Deadlines}
    (h : (if !x.tx.hasTimers then some x else (z.schedule now ms callback).map set) = some y)
    (hset : ∀ timers identifier,
      (set ({ z with timers }, identifier)).deadlines = arm (timers, identifier)) :
    ∃ instant, (if !x.deadlines.hasTimers then some x.deadlines
      else (z.timers.scheduleAt instant callback).map arm) = some y.deadlines := by
  split at h
  next htimers =>
    cases h
    exact ⟨now, if_pos htimers⟩
  next htimers =>
    obtain ⟨⟨z', identifier⟩, hz, rfl⟩ := map_eq_some_iff.mp h
    obtain ⟨⟨timers, i⟩, hschedule, ⟨⟩⟩ := map_eq_some_iff.mp hz
    obtain ⟨-, hschedule⟩ := ite_none_left_eq_some.mp hschedule
    refine ⟨now + (ms * 1000000 : ℕ), (if_neg htimers).trans ?_⟩
    rw [hschedule, map_some, hset]

lemma deadlines_armConnectDeadline (h : x.armConnectDeadline now = some y) :
    ∃ instant, x.deadlines.armConnectDeadline instant = some y.deadlines := by
  have hcancel : (x.deadlines.cancelTimer x.deadlines.connectTimer).timers =
      (x.cancelTimer x.tx.connectTimer).timers :=
    congrArg Deadlines.timers (deadlines_cancelTimer x x.tx.connectTimer).symm
  obtain ⟨t, ht⟩ : ∃ t, x.cancelTimer x.tx.connectTimer = { x with timers := t } := by
    rw [cancelTimer]
    split
    · exact ⟨x.timers, rfl⟩
    · exact ⟨_, rfl⟩
  simp only [Deadlines.armConnectDeadline, hcancel]
  refine deadlines_arm h fun timers identifier => ?_
  rw [ht]
  rfl

lemma deadlines_armFirstByteDeadline (h : x.armFirstByteDeadline now = some y) :
    ∃ instant, x.deadlines.armFirstByteDeadline instant = some y.deadlines :=
  deadlines_arm h fun _ _ => rfl

lemma deadlines_armTotalDeadline (h : x.armTotalDeadline now = some y) :
    ∃ instant, x.deadlines.armTotalDeadline instant = some y.deadlines :=
  deadlines_arm h fun _ _ => rfl

lemma deadlines_advanceUpstream (p : UpstreamProgress) :
    (x.advanceUpstream p).deadlines = x.deadlines.advance p := by
  rw [advanceUpstream, advance]
  split
  · cases hu : x.upstream <;> simp [deadlines, hu]
  · rfl

lemma deadlines_handleProgress {p : UpstreamProgress} (h : x.handleProgress p now = some y) :
    ∃ instant, x.deadlines.handleProgress p instant = some y.deadlines := by
  have hcancel : ∀ identifier, (if x.tx.hasTimers then x.cancelTimer identifier
      else x).deadlines = if x.deadlines.hasTimers then x.deadlines.cancelTimer identifier
        else x.deadlines := by
    intro identifier
    rw [← deadlines_cancelTimer]
    exact apply_ite deadlines _ _ _
  unfold handleProgress at h
  by_cases hskip : (x.tx.finished || !x.gatewayUp)
  · rw [if_pos hskip] at h
    cases h
    exact ⟨now, if_pos hskip⟩
  rw [if_neg hskip] at h
  simp only [Deadlines.handleProgress,
    if_neg (show ¬(x.deadlines.finished || !x.deadlines.gatewayUp) from hskip)]
  cases p with
  | connected =>
    cases h
    refine ⟨now, congrArg some ?_⟩
    exact congrArg (fun d : Deadlines => { d with connectTimer := 0 })
      (hcancel x.tx.connectTimer).symm
  | requestWritten => exact deadlines_armFirstByteDeadline h
  | firstByte =>
    cases h
    refine ⟨now, congrArg some ?_⟩
    exact congrArg (fun d : Deadlines => { d with firstByteTimer := 0 })
      (hcancel x.tx.firstByteTimer).symm
  | responseHeader =>
    cases h
    exact ⟨now, rfl⟩

lemma deadlines_report {p : UpstreamProgress} (hreports : x.reports p)
    (h : (x.advanceUpstream p).handleProgress p now = some y) :
    ∃ instant, x.deadlines.report p instant = some y.deadlines := by
  obtain ⟨instant, h⟩ := deadlines_handleProgress h
  rw [deadlines_advanceUpstream] at h
  refine ⟨instant, ?_⟩
  rw [report, if_neg, h]
  rintro ⟨rfl, hwritten⟩
  simp [deadlines] at hwritten
  simp [reports, hwritten] at hreports

lemma deadlines_reportProgress {reports : List (UpstreamProgress × Instant)}
    (h : x.reportProgress reports = some y) :
    ∃ reports', x.deadlines.reportProgress reports' = some y.deadlines := by
  induction reports generalizing x with
  | nil =>
    cases h
    exact ⟨[], rfl⟩
  | cons head rest ih =>
    obtain ⟨hreports, h⟩ := ite_none_right_eq_some.mp h
    obtain ⟨z, hz, hrest⟩ := bind_eq_some_iff.mp h
    obtain ⟨instant, hinstant⟩ := deadlines_report hreports hz
    obtain ⟨reports', hreports'⟩ := ih hrest
    refine ⟨(head.1, instant) :: reports', ?_⟩
    rw [Deadlines.reportProgress, hinstant]
    exact hreports'

lemma deadlines_beginAttempt : x.beginAttempt.deadlines = x.deadlines.beginAttempt := by
  have hgeneration : x.cancelAttemptDeadlines.tx.generation = x.tx.generation := by
    obtain ⟨_, _, _, h⟩ := cancelAttemptDeadlines_eq x.deadlines
    rw [← deadlines_cancelAttemptDeadlines] at h
    exact congrArg generation h
  rw [beginAttempt, Deadlines.beginAttempt, ← deadlines_cancelAttemptDeadlines]
  rw [← show x.cancelAttemptDeadlines.tx.generation = x.deadlines.generation from hgeneration]
  rfl

lemma deadlines_selectAttempt (decision : AttemptDecision) :
    (x.selectAttempt decision).1.deadlines = x.deadlines := by
  rw [selectAttempt]
  split
  · split <;> rfl
  · rfl

lemma deadlines_endExecute (outcome : StartOutcome) :
    x.deadlines.Settles (x.endExecute outcome answers).deadlines := by
  cases outcome with
  | pending => exact .refl _
  | failed failure =>
    exact Settles.trans (.inl (deadlines_noteDelivered failure.result))
      (deadlines_handleUpstream answers failure.result {})
  | raised =>
    exact Settles.trans (.inl (deadlines_noteDelivered .connectError))
      (deadlines_handleUpstream answers .connectError {})

/-- What `StartUpstream` does to the deadlines. -/
lemma deadlines_startUpstream {started : Bool}
    (h : x.startUpstream launch answers = some (y, started)) :
    started ∧ x.deadlines.Attempts y.deadlines ∨
      started = false ∧ (x.gatewayUp = false ∧ y.deadlines = x.deadlines ∨
        x.gatewayUp ∧ y.deadlines = x.deadlines.beginAttempt) := by
  rw [startUpstream] at h
  by_cases hdown : (!x.gatewayUp)
  · rw [if_pos hdown] at h
    cases h
    exact .inr ⟨rfl, .inl ⟨by simpa using hdown, rfl⟩⟩
  rw [if_neg hdown] at h
  have hup : x.gatewayUp := by simpa using hdown
  have hselect := deadlines_selectAttempt (x := x.beginAttempt) launch.decision
  rw [deadlines_beginAttempt] at hselect
  cases hsel : x.beginAttempt.selectAttempt launch.decision with
  | mk z go =>
    rw [hsel] at h hselect
    cases go with
    | false =>
      cases h
      exact .inr ⟨rfl, .inr ⟨hup, hselect⟩⟩
    | true =>
      obtain ⟨w, hw, ⟨⟩⟩ := map_eq_some_iff.mp h
      obtain ⟨v, hv, hexec⟩ := bind_eq_some_iff.mp hw
      obtain ⟨v', hv', rfl⟩ := map_eq_some_iff.mp hexec
      obtain ⟨instant, harm⟩ := deadlines_armConnectDeadline hv
      obtain ⟨reports, hreports⟩ := deadlines_reportProgress hv'
      rw [hselect] at harm
      exact .inl ⟨rfl, instant, _, reports, _, hup, harm, hreports,
      deadlines_endExecute answers _⟩

lemma deadlines_startReplacement {started : Bool}
    (h : x.startReplacement launch answers = some (y, started)) :
    ∃ z, x.startUpstream launch answers = some (z, started) ∧ y.deadlines = z.deadlines := by
  obtain ⟨⟨z, go⟩, hz, heq⟩ := map_eq_some_iff.mp h
  cases go <;> cases heq <;> exact ⟨z, hz, rfl⟩

lemma deadlines_runRetry (hfin : x.tx.finished = false) (h : x.runRetry launch answers = some y) :
    x.deadlines.Attempts y.deadlines ∨ y.deadlines = x.deadlines.conclude 1 ∨
      x.gatewayUp ∧ y.deadlines = x.deadlines.beginAttempt.conclude 1 := by
  rw [runRetry, if_neg (by simp [hfin])] at h
  obtain ⟨⟨z, started⟩, hz, rfl⟩ := map_eq_some_iff.mp h
  have hstart : (started = false ∧ z.deadlines = x.deadlines) ∨
      ∃ x' z' : Exchange, x'.deadlines = x.deadlines ∧
          x'.startUpstream launch answers = some (z', started) ∧
        z.deadlines = z'.deadlines := by
    rw [startRetry] at hz
    split at hz
    · obtain ⟨z', hz', heq⟩ := deadlines_startReplacement answers hz
      exact .inr ⟨x, z', rfl, hz', heq⟩
    · split at hz
      · cases hz
        exact .inl ⟨rfl, rfl⟩
      · obtain ⟨z', hz', heq⟩ := deadlines_startReplacement answers hz
        exact .inr ⟨_, z', by rfl, hz', heq⟩
  dsimp only
  rcases hstart with ⟨rfl, heq⟩ | ⟨x', z', hx', hz', heq⟩
  · right
    left
    rw [if_neg (by simp), deadlines_finishFailure, heq]
  have hup : x'.gatewayUp = x.gatewayUp := congrArg Deadlines.gatewayUp hx'
  rcases deadlines_startUpstream answers hz' with
    ⟨rfl, hattempts⟩ | ⟨rfl, ⟨_, hsame⟩ | ⟨hlive, hbegin⟩⟩
  · left
    rw [if_pos rfl, heq, ← hx']
    exact hattempts
  · right
    left
    rw [if_neg (by simp), deadlines_finishFailure, heq, hsame, hx']
  · right
    right
    rw [if_neg (by simp), deadlines_finishFailure, heq, hbegin, hx']
    exact ⟨hup ▸ hlive, rfl⟩

/-- `Begin`: the total deadline is armed, then the first attempt is started or the transaction
ends. -/
lemma deadlines_begin_ (hup : x.gatewayUp) (h : x.begin_ now launch answers = some y) :
    ∃ instant d, x.deadlines.armTotalDeadline instant = some d ∧
      (d.Attempts y.deadlines ∨ y.deadlines = d.beginAttempt.conclude 1) := by
  rw [begin_, if_neg (by simp [hup])] at h
  obtain ⟨z, hz, hrest⟩ := bind_eq_some_iff.mp h
  obtain ⟨⟨v, started⟩, hv, rfl⟩ := map_eq_some_iff.mp hrest
  obtain ⟨instant, harm⟩ := deadlines_armTotalDeadline hz
  refine ⟨instant, z.deadlines, harm, ?_⟩
  have hzup : z.gatewayUp := by
    have hlife := congrArg Lifecycle.gatewayUp (Unseen.armTotalDeadline hz).lifecycle
    exact hlife.trans hup
  dsimp only
  rcases deadlines_startUpstream answers hv with ⟨rfl, hattempts⟩ | ⟨rfl, ⟨hdown, _⟩ | ⟨_, hbegin⟩⟩
  · exact .inl hattempts
  · rw [hzup] at hdown
    cases hdown
  · right
    rw [if_neg (by simp), deadlines_finishNoEndpoint, hbegin]

lemma deadlines_clientTerminal : x.deadlines.Settles (x.clientTerminal answers).deadlines := by
  rw [clientTerminal]
  dsimp only
  have hfirst : x.deadlines.Settles ({ x with client := x.client.notifyRequestAbort.1 }.deliver
      x.client.notifyRequestAbort.2).deadlines := deadlines_deliver (d := x.deadlines) (by rfl) _
  generalize { x with client := x.client.notifyRequestAbort.1 }.deliver
    x.client.notifyRequestAbort.2 = z at hfirst ⊢
  split
  · exact hfirst.trans (deadlines_deliver (d := z.deadlines) (by rfl) _)
  · exact hfirst

/-- **The exchange refines its deadlines.** -/
theorem step_deadlines {e : Event} (h : x.step e = some y) : x.deadlines.Next e y.deadlines := by
  obtain ⟨_, h⟩ := ite_none_left_eq_some.mp h
  cases e with
  | progress p now =>
    obtain ⟨hreports, h⟩ := ite_none_right_eq_some.mp h
    obtain ⟨instant, h⟩ := deadlines_report hreports h
    exact .progress p now instant h
  | head head answers =>
    dsimp only at h
    split at h
    next u hu =>
      obtain ⟨_, ⟨⟩⟩ := ite_none_left_eq_some.mp h
      have hsame : { x with upstream := some { u with head := some head } }.deadlines =
          x.deadlines := by simp [deadlines, hu]
      rw [← hsame]
      exact .settles _ (deadlines_handleResponseHead answers head)
    · cases h
  | body bytes answers =>
    obtain ⟨_, h⟩ := ite_none_right_eq_some.mp h
    obtain ⟨⟨z, taken⟩, hz, rfl⟩ := map_eq_some_iff.mp h
    exact .settles _ (deadlines_handleResponseBody answers hz)
  | result r answers =>
    obtain ⟨_, ⟨⟩⟩ := ite_none_left_eq_some.mp h
    exact .settles _ (.trans (.inl (deadlines_noteDelivered r))
      (deadlines_handleUpstream answers r {}))
  | fire now answers =>
    obtain ⟨⟨callback, identifier, timers⟩, hpop, rfl⟩ := map_eq_some_iff.mp h
    exact .fire now answers hpop (deadlines_runDeadline (x := { x with timers }) answers callback)
  | scheduleOther deadline =>
    obtain ⟨⟨timers, identifier⟩, hschedule, rfl⟩ := map_eq_some_iff.mp h
    exact .scheduleOther deadline hschedule
  | cancelOther identifier =>
    obtain ⟨hany, ⟨⟩⟩ := ite_none_right_eq_some.mp h
    obtain ⟨t, ht, heq⟩ := List.any_eq_true.mp hany
    simp only [Bool.and_eq_true, beq_iff_eq] at heq
    obtain ⟨⟨deadline, i⟩, callback⟩ := t
    obtain ⟨rfl, rfl⟩ := heq
    exact .cancelOther i ⟨deadline, ht⟩
  | runDeferred launch answers =>
    dsimp only at h
    split at h
    · cases h
    next rest hrest =>
      cases hfin : x.tx.finished with
      | true =>
        rw [runRetry, if_pos hfin] at h
        cases h
        exact .settles _ (.refl _)
      | false =>
        rcases deadlines_runRetry answers (x := { x with deferred := rest }) hfin h with
          hattempts | hend | ⟨hup, hend⟩
        · exact .retry launch answers hfin hattempts
        · rw [hend]
          exact .settles _ (.conclude _ 1)
        · rw [hend]
          exact .noRetry launch answers hfin hup (.refl _)
    next connection rest hrest =>
      cases h
      refine .settles _ (.inl ⟨_, ?_, rfl⟩)
      cases connection <;> simp [deadlines]
  | clientWritable answers =>
    obtain ⟨_, ⟨⟩⟩ := ite_none_right_eq_some.mp h
    exact .settles _ (deadlines_deliver (d := x.deadlines) (by rfl) _)
  | clientTerminal answers =>
    obtain ⟨_, ⟨⟩⟩ := ite_none_right_eq_some.mp h
    exact .settles _ (deadlines_clientTerminal answers)
  | clientDestroyed | destroyed =>
    obtain ⟨_, ⟨⟩⟩ := ite_none_right_eq_some.mp h
    exact .settles _ (.refl _)
  | gatewayExpired =>
    cases h
    exact .gatewayExpired
  | dropped =>
    obtain ⟨_, ⟨⟩⟩ := ite_none_right_eq_some.mp h
    exact .settles _ (.inl ⟨false, nofun, rfl⟩)

end
end Exchange
end AegisGate.Proxy
