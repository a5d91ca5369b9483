import AegisGate.Http.RequestParser
import AegisGate.Lib.Transition
import AegisGate.Net.ClientStream

/-!
# A client connection with its requests

`ClientConnection` together with its input: the bytes that were received, the parser, and the
requests it delivers. The request callback is always the last thing a function does, also where
`HandleWrite`, `FinishResponse` and `ResumeReading` call each other, so a step ends with it and
the calls of the handler are steps of their own. The two stream callbacks are not: `HandleWrite`
and `HandleRead` go on after them, and a handler may call the connection from inside one. What
is left to do is then a frame of `stack`.

A method that throws keeps what it has done so far, so the four response calls are written in a
monad with exceptions over the state, in the order of the source. An index `k` names the handler
that calls; it and `exchanges` are history that no branch reads.

The request callback is set. `recv` and `send` calls answered by `EINTR` are no answers.
-/

namespace AegisGate.Net
open Http Lib List Prod

/-- A call of a request handler on the connection. -/
inductive ResponseCall
  | sendResponse (response : HttpResponse)
  | beginResponse (head : HttpResponseHead)
  | writeResponseBody (bytes : Bytes)
  | finishResponse
  deriving DecidableEq

/-- The bytes a call queues; `none` if they do not serialize. -/
def ResponseCall.wire : ResponseCall → Option Bytes
  | .sendResponse response => response.serialize
  | .beginResponse head => head.serialize
  | .writeResponseBody bytes => some bytes
  | .finishResponse => some []

/-- How far the answer to a request is. -/
inductive Phase
  | waiting
  | streaming
  | done
  deriving DecidableEq, Repr

/-- A handler sends one response, or begins one, writes its body and finishes it. -/
def Phase.next : Phase → ResponseCall → Option Phase
  | .waiting, .sendResponse _ => some .done
  | .waiting, .beginResponse _ => some .streaming
  | .streaming, .writeResponseBody _ => some .streaming
  | .streaming, .finishResponse => some .done
  | _, _ => none

/-- A response with the bytes of one more call. -/
def ResponseCall.append (response : Bytes) (call : ResponseCall) : Option Bytes :=
  call.wire.map (response ++ ·)

/-- A delivered request and the accepted calls of its handler: they lead to `phase`, and `response`
is what they serialize to. -/
structure Exchange where
  request : HttpRequest
  calls : List ResponseCall := []
  phase : Phase := .waiting
  response : Bytes := []
  follows : calls.foldlM Phase.next .waiting = some phase := by rfl
  serializes : calls.foldlM ResponseCall.append [] = some response := by rfl

/-- The calls are a whole answer. -/
def Exchange.Complete (x : Exchange) : Prop :=
  (∃ response, x.calls = [.sendResponse response]) ∨
    ∃ (head : HttpResponseHead) (bodies : List Bytes), x.calls =
      .beginResponse head :: (bodies.map .writeResponseBody ++ [.finishResponse])

/-- Record a call that did not throw. -/
def Exchange.record (x : Exchange) (call : ResponseCall) : Exchange :=
  match hphase : x.phase.next call, hwire : ResponseCall.append x.response call with
  | some phase, some response =>
    { request := x.request, calls := x.calls ++ [call], phase, response
      follows := by rw [foldlM_append, x.follows]; simp [hphase]
      serializes := by rw [foldlM_append, x.serializes]; simp [hwire] }
  | _, _ => x

/-- Where a function goes on after a stream callback. -/
inductive Frame
  /-- `HandleWrite`, to wait for `EPOLLOUT`. -/
  | enableWriting
  /-- `HandleWrite`, to close after a failed `send`. -/
  | close
  /-- `HandleRead` on a connection whose reading is paused. -/
  | hangUp
  deriving DecidableEq, Repr

/-- The kernel's answer to one `recv`. -/
inductive RecvResult
  | data (first : UInt8) (rest : Bytes)
  /-- The peer has closed. -/
  | eof
  /-- `EAGAIN`. -/
  | again
  /-- Any other error. -/
  | failed
  deriving DecidableEq, Repr

/-- The exceptions of the response calls. -/
inductive Thrown
  | logicError
  | invalidArgument
  deriving DecidableEq, Repr

/-- The connection. `readInterest` is whether `EPOLLIN` is registered. -/
structure Pipeline where
  conn : ClientConnection := {}
  input : Bytes := []
  parser : HttpRequestParser := {}
  readInterest : Bool := true
  stack : List Frame := []
  exchanges : List Exchange := []

namespace Pipeline

/-! ## Reading -/

section
variable (s : Pipeline)

/-- `Close`. -/
def close (s : Pipeline) : Pipeline :=
  { s with conn := s.conn.close, readInterest := !s.conn.valid && s.readInterest }

/-- `DeliverParsedRequest`, up to the callback. -/
def deliverParsedRequest : Pipeline :=
  { s with
    readInterest := false
    conn := { s.conn with
      readingPaused := true
      closeAfterWrite := containsConnectionClose (s.parser.request.header (ascii "connection")) }
    exchanges := s.exchanges ++ [{ request := s.parser.request }] }

/-- `parser_.Parse(input_)`. -/
def parse (s : Pipeline) : Pipeline :=
  { s with parser := (s.parser.parse s.input).1, input := (s.parser.parse s.input).2 }

/-- `ResumeReading`, after the guard and the flags. -/
def readBuffered : Pipeline :=
  if s.input.isEmpty then { s with readInterest := true }
  else
    let s := s.parse
    match s.parser.result with
    | .needMoreData => { s with readInterest := true }
    | .complete => s.deliverParsedRequest
    | .error | .unsupported => s.close

/-- `ResumeReading`. -/
def resumeReading (s : Pipeline) : Pipeline :=
  if !s.conn.valid || !s.conn.readingPaused || s.conn.writing then s
  else { s with parser := s.parser.reset, conn := s.conn.resumeReading }.readBuffered

/-- The loop over `recv`. When the answers run out there is nothing more to read. -/
def receive (s : Pipeline) : List RecvResult → Pipeline
  | [] | .again :: _ => s
  | .eof :: _ | .failed :: _ => s.close
  | .data first rest :: answers =>
    let s := { s with input := s.input ++ first :: rest }.parse
    match s.parser.result with
    | .needMoreData => s.receive answers
    | .complete => s.deliverParsedRequest
    | .error | .unsupported => s.close

/-! ## Writing -/

/-- The bytes the kernel has taken, and those left. -/
def transmit (accepted rest : Bytes) : Pipeline :=
  { s with conn := { s.conn with output := rest, sent := s.conn.sent ++ accepted } }

/-- `EnableWriting`. -/
def enableWriting : Pipeline :=
  { s with conn := { s.conn with writeInterest := true } }

/-- Run a stream callback, if there is one to run, and go on after it. -/
def notify (notice : Option Notice) (frame : Frame) (rest : Pipeline → Pipeline) : Pipeline :=
  match notice with
  | none => rest s
  | some _ => { s with stack := frame :: s.stack }

/-- `HandleWrite`, when the queue is empty. -/
def drained : Pipeline :=
  let s := { s with conn := { s.conn with writing := false, writeInterest := false } }
  -- The drain callback is the last thing this branch does.
  if s.conn.responseCommitted && !s.conn.responseFinished then s
  else if s.conn.closeAfterWrite then s.close
  else s.resumeReading

/-- `HandleWrite`. -/
def handleWrite (answers : List SendResult) : Pipeline :=
  if !s.conn.valid || !s.conn.writing then s
  else
    let wasAboveLow := decide (s.conn.flowControl.lowWatermark < s.conn.queuedResponseBytes)
    let (accepted, rest, result) := drain answers s.conn.output
    let s := s.transmit accepted rest
    match result with
    | .again => s.notify (s.conn.notifyDrainedIfBelowLow wasAboveLow) .enableWriting enableWriting
    | .failed =>
      let (conn, notice) := s.conn.notifyRequestAbort
      { s with conn }.notify notice .close close
    | .drained => s.drained

/-- `HandleRead` on a connection whose reading is paused, after the abort callback. -/
def hangUp (answers : List SendResult) : Pipeline :=
  let s := { s with conn := { s.conn with closeAfterWrite := true } }
  if s.conn.writing then s.handleWrite answers else s

/-- `HandleRead`. -/
def handleRead (recvs : List RecvResult) (answers : List SendResult) : Pipeline :=
  if !s.conn.valid then s
  else if s.conn.readingPaused then
    let (conn, notice) := s.conn.notifyRequestAbort
    { s with conn }.notify notice .hangUp fun s => s.hangUp answers
  else s.receive recvs

/-- What is left to do after a stream callback. -/
def resume (answers : List SendResult) : Frame → Pipeline
  | .enableWriting => s.enableWriting
  | .close => s.close
  | .hangUp => s.hangUp answers

/-! ## The response calls -/

/-- A method that may throw. -/
abbrev Method := ExceptT Thrown (StateM Pipeline)

/-- A call is accepted; only the history changes. -/
def record (s : Pipeline) (k : ℕ) (call : ResponseCall) : Pipeline :=
  { s with exchanges := s.exchanges.modify k fun x => x.record call }

/-- `output_.Append` and `writing_ = true`. -/
def queue (bytes : Bytes) : Pipeline :=
  { s with conn := { s.conn with output := s.conn.output ++ bytes, writing := true } }

/-- `close_after_write_ = close_after_write_ || ...`. -/
def wantClose (headers : Headers) : Pipeline :=
  { s with conn := { s.conn with
      closeAfterWrite := s.conn.closeAfterWrite || headersWantClose headers } }

/-- `response_committed_ = true`. -/
def commit : Pipeline := { s with conn := { s.conn with responseCommitted := true } }

/-- `response_finished_ = true`. -/
def finish : Pipeline := { s with conn := { s.conn with responseFinished := true } }

/-- `SendResponse`. -/
def sendResponse (k : ℕ) (response : HttpResponse) (answers : List SendResult) : Method Unit := do
  if !(← get).conn.acceptsResponse then throw .logicError
  match response.serialize with
  | none => throw .invalidArgument
  | some serialized =>
    modify fun s => s.record k (.sendResponse response)
    modify fun s => s.queue serialized
    modify fun s => s.wantClose response.headers
    modify fun s => s.handleWrite answers

/-- `BeginResponse`. -/
def beginResponse (k : ℕ) (head : HttpResponseHead) (answers : List SendResult) : Method Unit := do
  if !(← get).conn.acceptsResponse then throw .logicError
  match head.serialize with
  | none => throw .invalidArgument
  | some serialized =>
    modify fun s => s.record k (.beginResponse head)
    modify fun s => s.queue serialized
    modify commit
    modify fun s => s.wantClose head.headers
    modify fun s => s.handleWrite answers

/-- The test of `WriteResponseBody` and `FinishResponse`. -/
def acceptsBody : Bool :=
  s.conn.valid && s.conn.responseCommitted && !s.conn.responseFinished

/-- `WriteResponseBody`. Its answer is that of a call during which no stream callback calls the
connection. -/
def writeResponseBody (k : ℕ) (bytes : Bytes) (answers : List SendResult) : Method Bool := do
  if !(← get).acceptsBody then throw .logicError
  modify fun s => s.record k (.writeResponseBody bytes)
  if bytes.isEmpty then return false
  modify fun s => s.queue bytes
  modify fun s => s.handleWrite answers
  let c := (← get).conn
  return decide (c.flowControl.highWatermark ≤ c.queuedResponseBytes)

/-- `FinishResponse`. -/
def finishResponse (k : ℕ) : Method Unit := do
  if !(← get).acceptsBody then throw .logicError
  modify fun s => s.record k .finishResponse
  modify finish
  if !(← get).conn.writing then
    if (← get).conn.closeAfterWrite then modify close else modify resumeReading

/-- A response call in a state: what it throws, if anything, and the state it leaves. -/
def perform (k : ℕ) (answers : List SendResult) : ResponseCall → Except Thrown Unit × Pipeline
  | .sendResponse response => (sendResponse k response answers).run s
  | .beginResponse head => (beginResponse k head answers).run s
  | .writeResponseBody bytes =>
    (((writeResponseBody k bytes answers).run s).1.map fun _ => (),
      ((writeResponseBody k bytes answers).run s).2)
  | .finishResponse => (finishResponse k).run s

/-! ## Interleavings -/

/-- What happens to a connection. -/
inductive Event
  | handleRead (recvs : List RecvResult) (answers : List SendResult)
  | handleWrite (answers : List SendResult)
  /-- A call of the handler of the `k`-th request. -/
  | call (k : ℕ) (call : ResponseCall) (answers : List SendResult)
  /-- A stream callback returns. -/
  | returned (answers : List SendResult)
  /-- `Close` or `AbortResponse`, by the owner or a handler. -/
  | close
  | setStreamCallbacks
  | clearStreamCallbacks

/-- One step. The loop handles an event of the socket only when no callback is running; a
handler keeps to the calls of its response. -/
def step : Event → Option Pipeline
  | .handleRead recvs answers => if s.stack.isEmpty then some (s.handleRead recvs answers) else none
  | .handleWrite answers => if s.stack.isEmpty then some (s.handleWrite answers) else none
  | .call k call answers => s.exchanges[k]?.bind fun x =>
    if (x.phase.next call).isSome then some (s.perform k answers call).2 else none
  | .returned answers =>
    match s.stack with
    | [] => none
    | frame :: rest => some ({ s with stack := rest }.resume answers frame)
  | .close => some s.close
  | .setStreamCallbacks => some { s with conn := s.conn.setStreamCallbacks }
  | .clearStreamCallbacks => some { s with conn := s.conn.clearStreamCallbacks }

end

/-! ## The calls without the monad -/

lemma run_get_bind {α : Type} (f : Pipeline → Method α) (s : Pipeline) :
    ExceptT.run (do f (← get)) s = (f s).run s := rfl

section
variable (k : ℕ) (answers : List SendResult) (s : Pipeline)

lemma run_sendResponse (response : HttpResponse) : (sendResponse k response answers).run s =
      if !s.conn.acceptsResponse then (.error .logicError, s)
      else match response.serialize with
        | none => (.error .invalidArgument, s)
        | some serialized => (.ok (), (((s.record k (.sendResponse response)).queue
            serialized).wantClose response.headers).handleWrite answers) := by
  rw [sendResponse, run_get_bind]
  generalize s.conn.acceptsResponse = accepts
  cases accepts with
  | false => rfl
  | true => cases response.serialize <;> rfl

lemma run_beginResponse (head : HttpResponseHead) : (beginResponse k head answers).run s =
      if !s.conn.acceptsResponse then (.error .logicError, s)
      else match head.serialize with
        | none => (.error .invalidArgument, s)
        | some serialized => (.ok (), (((s.record k (.beginResponse head)).queue
            serialized).commit.wantClose head.headers).handleWrite answers) := by
  rw [beginResponse, run_get_bind]
  generalize s.conn.acceptsResponse = accepts
  cases accepts with
  | false => rfl
  | true => cases head.serialize <;> rfl

lemma run_writeResponseBody (bytes : Bytes) : (writeResponseBody k bytes answers).run s =
      if !s.acceptsBody then (.error .logicError, s)
      else if bytes.isEmpty then (.ok false, s.record k (.writeResponseBody bytes))
      else
        let t := ((s.record k (.writeResponseBody bytes)).queue bytes).handleWrite answers
        (.ok (decide (t.conn.flowControl.highWatermark ≤ t.conn.queuedResponseBytes)), t) := by
  rw [writeResponseBody, run_get_bind]
  generalize s.acceptsBody = accepts
  cases accepts with
  | false => rfl
  | true => cases bytes <;> rfl

lemma run_finishResponse : (finishResponse k).run s =
      if !s.acceptsBody then (.error .logicError, s)
      else if s.conn.writing then (.ok (), (s.record k .finishResponse).finish)
      else if s.conn.closeAfterWrite then (.ok (), (s.record k .finishResponse).finish.close)
      else (.ok (), (s.record k .finishResponse).finish.resumeReading) := by
  rw [finishResponse, run_get_bind]
  generalize s.acceptsBody = accepts
  cases accepts with
  | false => rfl
  | true =>
    change ExceptT.run (if !s.conn.writing then do
      if (← get).conn.closeAfterWrite then modify close else modify resumeReading
        else pure () : Method Unit) ((s.record k .finishResponse).finish) = _
    cases s.conn.writing with
    | true => rfl
    | false =>
      change ExceptT.run (if s.conn.closeAfterWrite then modify close else modify resumeReading :
        Method Unit) ((s.record k .finishResponse).finish) = _
      cases s.conn.closeAfterWrite <;> rfl

end

/-! ## The response side alone -/

lemma notify_cases (s : Pipeline) (notice : Option Notice) (frame : Frame)
    (rest : Pipeline → Pipeline) : s.notify notice frame rest = rest s ∨
      s.notify notice frame rest = { s with stack := frame :: s.stack } := by
  cases notice with
  | none => exact .inl rfl
  | some _ => exact .inr rfl

lemma drained_conn (s : Pipeline) : ∃ u : Pipeline, u.conn =
        (let c := { s.conn with writing := false, writeInterest := false }
        if c.responseCommitted && !c.responseFinished then c
        else if c.closeAfterWrite then c.close else c.resumeReading) ∧
      (s.drained = u ∨ s.drained = u.readBuffered) := by
  rw [drained]
  dsimp only
  split
  · exact ⟨_, rfl, .inl rfl⟩
  split
  · exact ⟨_, rfl, .inl rfl⟩
  · rw [resumeReading, ClientConnection.resumeReading]
    split
    · exact ⟨_, rfl, .inl rfl⟩
    · exact ⟨_, rfl, .inr rfl⟩

/-- If no callback calls the connection, `HandleWrite` leaves its response side as
`ClientConnection.handleWrite` says: at once, when the callback returns, or before the buffered
input is read. -/
lemma handleWrite_conn (s : Pipeline) (answers : List SendResult) :
    ∃ u : Pipeline, u.conn = (s.conn.handleWrite answers).1 ∧
      (s.handleWrite answers = u ∨ s.handleWrite answers = u.readBuffered ∨
        ∃ (frame : Frame) (v : Pipeline),
          s.handleWrite answers = { v with stack := frame :: v.stack } ∧
          v.resume [] frame = u) := by
  rw [handleWrite, ClientConnection.handleWrite]
  split
  · exact ⟨s, rfl, .inl rfl⟩
  rcases drain answers s.conn.output with ⟨accepted, rest, result⟩
  cases result with
  | again =>
    refine ⟨(s.transmit accepted rest).enableWriting, rfl, ?_⟩
    obtain hat | hlater := notify_cases (s.transmit accepted rest) _ .enableWriting enableWriting
    · exact .inl hat
    · exact .inr (.inr ⟨.enableWriting, _, hlater, rfl⟩)
  | failed =>
    refine ⟨({ s.transmit accepted rest with
      conn := (s.transmit accepted rest).conn.notifyRequestAbort.1 } : Pipeline).close, rfl, ?_⟩
    obtain hat | hlater := notify_cases { s.transmit accepted rest with
      conn := (s.transmit accepted rest).conn.notifyRequestAbort.1 } _ .close close
    · exact .inl hat
    · exact .inr (.inr ⟨.close, _, hlater, rfl⟩)
  | drained =>
    obtain ⟨u, hu, hdrained⟩ := drained_conn (s.transmit accepted rest)
    refine ⟨u, hu.trans ?_, hdrained.imp_right .inl⟩
    rw [apply_ite fst, apply_ite fst]
    rfl

end Pipeline
end AegisGate.Net
