import AegisGate.Http.Response

/-!
# The response side of a client connection

`ClientConnection` owns the socket a request came from and the queue of response
bytes. While a request is being answered its reading is paused and the connection
accepts either one buffered response or one streamed one. The functions follow
`src/net/ClientConnection.cpp`; the kernel's answers to the `send` calls are
arguments, and a call answered by `EINTR` is not an answer.

The two stream callbacks belong to the proxy transaction. A function here returns the
`Notice` it would deliver, and the owner runs the callback. The source runs the abort
callback just before the `Close()` that follows it and the drain callback just before
`EnableWriting()`. The abort callback touches the connection only through
`ClearStreamCallbacks` and `Close`. The drain callback may write more bytes; if that empties
the queue, `EPOLLOUT` stays registered in the source and a writable event does nothing.

`sent` records the bytes the kernel accepted; no branch reads it.
-/

namespace AegisGate.Net
open Http Option

/-- The hysteresis bounds of the write queue. The constructor throws unless
`0 < low < high`, so the bounds are part of the value. -/
structure StreamFlowControl where
  highWatermark : ℕ := 256 * 1024
  lowWatermark : ℕ := 128 * 1024
  low_pos : 0 < lowWatermark := by decide
  low_lt_high : lowWatermark < highWatermark := by decide

/-- The kernel's answer to one `send`. -/
inductive SendResult
  /-- Between one byte and all of them were accepted: `count + 1`, capped. -/
  | sent (count : ℕ)
  /-- `EAGAIN`. -/
  | again
  /-- Any other error. -/
  | failed
  deriving DecidableEq, Repr

/-- How the loop over `send` ended. -/
inductive DrainResult
  | drained
  | again
  | failed
  deriving DecidableEq, Repr

/-- The loop over `send`: the bytes accepted, the bytes left, and how it ended. When the
answers run out the socket is full. -/
def drain : List SendResult → Bytes → Bytes × Bytes × DrainResult
  | _, [] => ([], [], .drained)
  | [], output => ([], output, .again)
  | .again :: _, output => ([], output, .again)
  | .failed :: _, output => ([], output, .failed)
  | .sent count :: answers, output =>
    let (sent, rest, result) := drain answers (output.drop (count + 1))
    (output.take (count + 1) ++ sent, rest, result)

/-- A callback to the transaction. -/
inductive Notice
  | writeDrained
  | requestAbort
  deriving DecidableEq, Repr

/-- The connection. `valid` is `socket_.Valid()`, `alive` the lifetime token, and
`writeInterest` whether `EPOLLOUT` is registered. -/
structure ClientConnection where
  flowControl : StreamFlowControl := {}
  valid : Bool := true
  alive : Bool := true
  readingPaused : Bool := false
  writing : Bool := false
  closeAfterWrite : Bool := false
  responseCommitted : Bool := false
  responseFinished : Bool := false
  abortFired : Bool := false
  hasDrainedCallback : Bool := false
  hasAbortCallback : Bool := false
  writeInterest : Bool := false
  output : Bytes := []
  sent : Bytes := []

namespace ClientConnection

section
variable (c : ClientConnection)

def queuedResponseBytes : ℕ := c.output.length

/-- `Close`: the channel is disabled and the descriptor closed. -/
def close : ClientConnection :=
  if c.valid then { c with valid := false, writeInterest := false } else c

def clearStreamCallbacks : ClientConnection :=
  { c with hasDrainedCallback := false, hasAbortCallback := false }

/-- `SetWriteDrainedCallback` and `SetRequestAbortCallback`. -/
def setStreamCallbacks : ClientConnection :=
  { c with hasDrainedCallback := true, hasAbortCallback := true }

/-- `NotifyRequestAbort`: at most once in the life of the connection. -/
def notifyRequestAbort : ClientConnection × Option Notice :=
  if c.abortFired then (c, none)
  else ({ c with abortFired := true }, if c.hasAbortCallback then some .requestAbort else none)

def notifyDrainedIfBelowLow (wasAboveLow : Bool) : Option Notice :=
  if !c.responseCommitted || c.responseFinished || !wasAboveLow
      || decide (c.flowControl.lowWatermark < c.queuedResponseBytes) then none
  else if c.hasDrainedCallback then some .writeDrained else none

/-- `ResumeReading` up to the delivery of the next request, which starts a cycle of its
own. -/
def resumeReading : ClientConnection :=
  if !c.valid || !c.readingPaused || c.writing then c
  else { c with responseCommitted := false, responseFinished := false, readingPaused := false }

def handleWrite (answers : List SendResult) : ClientConnection × Option Notice :=
  if !c.valid || !c.writing then (c, none)
  else
    let wasAboveLow := decide (c.flowControl.lowWatermark < c.queuedResponseBytes)
    let (accepted, rest, result) := drain answers c.output
    let c := { c with output := rest, sent := c.sent ++ accepted }
    match result with
    | .again => ({ c with writeInterest := true }, c.notifyDrainedIfBelowLow wasAboveLow)
    | .failed =>
      let (c, notice) := c.notifyRequestAbort
      (c.close, notice)
    | .drained =>
      let c := { c with writing := false, writeInterest := false }
      if c.responseCommitted && !c.responseFinished then
        (c, c.notifyDrainedIfBelowLow wasAboveLow)
      else if c.closeAfterWrite then (c.close, none)
      else (c.resumeReading, none)

/-- The connection takes a response: a request was delivered and nothing answers it
yet. -/
def acceptsResponse : Bool :=
  c.valid && c.readingPaused && !c.writing && !c.responseCommitted && !c.responseFinished

/-- A response that is sent whole. -/
def sendResponse (response : HttpResponse) (answers : List SendResult) :
    Option (ClientConnection × Option Notice) :=
  if !c.acceptsResponse then none
  else response.serialize.map fun serialized =>
    { c with
      output := c.output ++ serialized, writing := true
      closeAfterWrite :=
        c.closeAfterWrite || headersWantClose response.headers }.handleWrite answers

/-- The head of a streamed response. -/
def beginResponse (head : HttpResponseHead) (answers : List SendResult) :
    Option (ClientConnection × Option Notice) :=
  if !c.acceptsResponse then none
  else head.serialize.map fun serialized =>
    { c with
      output := c.output ++ serialized, writing := true, responseCommitted := true
      closeAfterWrite := c.closeAfterWrite || headersWantClose head.headers }.handleWrite answers

/-- `WriteResponseBody`; the flag says whether the queue is at or above the high
watermark. -/
def writeResponseBody (bytes : Bytes) (answers : List SendResult) :
    Option (ClientConnection × Option Notice × Bool) :=
  if !c.valid || !c.responseCommitted || c.responseFinished then none
  else if bytes.isEmpty then some (c, none, false)
  else
    let (c, notice) := { c with output := c.output ++ bytes, writing := true }.handleWrite answers
    some (c, notice, decide (c.flowControl.highWatermark ≤ c.queuedResponseBytes))

/-- The streamed body is complete. -/
def finishResponse : Option ClientConnection :=
  if !c.valid || !c.responseCommitted || c.responseFinished then none
  else
    let c := { c with responseFinished := true }
    some (if c.writing then c else if c.closeAfterWrite then c.close else c.resumeReading)

end

/-! ## What no call changes

The lifetime token belongs to the object, and the watermarks to its construction. -/

section
variable (c : ClientConnection) (answers : List SendResult)

@[simp] lemma alive_close : c.close.alive = c.alive := by
  unfold close
  split <;> rfl

@[simp] lemma alive_notifyRequestAbort : c.notifyRequestAbort.1.alive = c.alive := by
  unfold notifyRequestAbort
  split <;> rfl

@[simp] lemma alive_resumeReading : c.resumeReading.alive = c.alive := by
  unfold resumeReading
  split <;> rfl

@[simp] lemma alive_handleWrite : (c.handleWrite answers).1.alive = c.alive := by
  unfold handleWrite
  split
  · rfl
  dsimp only
  cases (drain answers c.output).2.2 with
  | again => rfl
  | failed => simp
  | drained =>
    dsimp only
    split
    · rfl
    · split <;> simp

variable {c answers} {d : ClientConnection} {notice : Option Notice}

/-- What a `SendResponse` or `BeginResponse` that does not throw does. -/
lemma exists_of_accepted {wire : Option Bytes} {queue : Bytes → ClientConnection}
    (h : (if !c.acceptsResponse then none else wire.map fun serialized =>
      (queue serialized).handleWrite answers) = some (d, notice)) :
    c.acceptsResponse ∧ ∃ serialized, wire = some serialized ∧
      (queue serialized).handleWrite answers = (d, notice) := by
  obtain ⟨hok, h⟩ := ite_none_left_eq_some.mp h
  exact ⟨by simpa using hok, map_eq_some_iff.mp h⟩

lemma alive_sendResponse {response : HttpResponse}
    (h : c.sendResponse response answers = some (d, notice)) : d.alive = c.alive := by
  obtain ⟨-, serialized, -, heq⟩ := exists_of_accepted h
  exact (congrArg (·.1.alive) heq).symm.trans (alive_handleWrite _ answers)

lemma alive_beginResponse {head : HttpResponseHead}
    (h : c.beginResponse head answers = some (d, notice)) : d.alive = c.alive := by
  obtain ⟨-, serialized, -, heq⟩ := exists_of_accepted h
  exact (congrArg (·.1.alive) heq).symm.trans (alive_handleWrite _ answers)

lemma alive_writeResponseBody {bytes : Bytes} {high : Bool}
    (h : c.writeResponseBody bytes answers = some (d, notice, high)) : d.alive = c.alive := by
  obtain ⟨-, h⟩ := ite_none_left_eq_some.mp h
  split at h
  · cases h
    rfl
  · simp only [some.injEq, Prod.mk.injEq] at h
    rw [← h.1]
    simp

lemma alive_finishResponse (h : c.finishResponse = some d) : d.alive = c.alive := by
  obtain ⟨-, h⟩ := ite_none_left_eq_some.mp h
  simp only [some.injEq] at h
  rw [← h]
  split
  · rfl
  · split <;> simp

end

end ClientConnection
end AegisGate.Net
