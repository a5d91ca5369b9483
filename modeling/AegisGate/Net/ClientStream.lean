import AegisGate.Net.ClientConnection

/-!
# A client connection while its request is answered

A request is delivered to a connection that waits: reading is paused and nothing is
queued. A streamed response takes it through a stretch in which the head is accepted,
body chunks follow, and the queue drains as the peer reads. Between the calls and events
of that stretch the connection is registered for writing exactly while bytes are queued,
and a failing `send` is reported before the connection closes.
-/

namespace AegisGate.Net
open Http Option Bool List ClientConnection

/-- The loop over `send` neither loses nor reorders bytes. -/
lemma drain_spec (answers : List SendResult) (output : Bytes) :
    (drain answers output).1 ++ (drain answers output).2.1 = output ∧
      ((drain answers output).2.2 = .drained → (drain answers output).2.1 = []) ∧
      ((drain answers output).2.2 = .again → (drain answers output).2.1 ≠ []) := by
  induction answers generalizing output with
  | nil => cases output <;> simp [drain]
  | cons answer answers ih =>
    cases output with
    | nil => simp [drain]
    | cons b output =>
      cases answer with
      | again => simp [drain]
      | failed => simp [drain]
      | sent count => simpa [drain, (ih _).1] using (ih (output.drop count)).2

namespace ClientConnection

/-- A delivered request that nothing answers yet. -/
structure Awaiting (c : ClientConnection) : Prop where
  accepts : c.acceptsResponse
  abortFired : c.abortFired = false
  output : c.output = []

/-- The head of a response was accepted and the response has not ended. -/
structure Committed (c : ClientConnection) : Prop where
  valid : c.valid
  paused : c.readingPaused
  committed : c.responseCommitted
  unfinished : c.responseFinished = false
  abortFired : c.abortFired = false

/-- The same between calls: `EPOLLOUT` is awaited exactly while bytes are queued. -/
structure Streaming (c : ClientConnection) : Prop extends Committed c where
  idle : c.writing = false → c.output = []
  busy : c.writing → c.output ≠ [] ∧ c.writeInterest

/-- Both callbacks are set. -/
def wired (c : ClientConnection) : Bool := c.hasDrainedCallback && c.hasAbortCallback

lemma wired_iff {c : ClientConnection} :
    c.wired ↔ c.hasDrainedCallback ∧ c.hasAbortCallback := by
  simp [wired]

lemma Awaiting.valid {c : ClientConnection} (h : c.Awaiting) : c.valid := by
  have haccepts := h.accepts
  simp only [acceptsResponse, and_eq_true] at haccepts
  exact haccepts.1.1.1.1

lemma Awaiting.writing {c : ClientConnection} (h : c.Awaiting) : c.writing = false := by
  have haccepts := h.accepts
  simp only [acceptsResponse, and_eq_true] at haccepts
  simpa using haccepts.1.1.2

/-! ## The write loop -/

section
variable (c : ClientConnection) (answers : List SendResult)

@[simp] lemma flowControl_close : c.close.flowControl = c.flowControl := by
  rw [close]
  split <;> rfl

@[simp] lemma sent_close : c.close.sent = c.sent := by
  rw [close]
  split <;> rfl

@[simp] lemma output_close : c.close.output = c.output := by
  rw [close]
  split <;> rfl

@[simp] lemma valid_close : c.close.valid = false := by
  rw [close]
  split
  · rfl
  · next h => simpa using h

lemma handleWrite_queue : ((c.handleWrite answers).1.flowControl = c.flowControl) ∧
    ((c.handleWrite answers).1.sent ++ (c.handleWrite answers).1.output = c.sent ++ c.output) ∧
    (c.handleWrite answers).1.output.length ≤ c.output.length := by
  rw [handleWrite]
  split
  · exact ⟨rfl, rfl, Nat.le_refl _⟩
  rcases hdrain : drain answers c.output with ⟨accepted, rest, result⟩
  have happend : accepted ++ rest = c.output := by
    simpa [hdrain] using (drain_spec answers c.output).1
  have hqueue : c.sent ++ accepted ++ rest = c.sent ++ c.output := by
    rw [append_assoc, happend]
  have hlength : rest.length ≤ c.output.length := by
    rw [← happend, length_append]
    omega
  cases result with
  | again => exact ⟨rfl, hqueue, hlength⟩
  | failed =>
    simp only [notifyRequestAbort]
    split <;> simp [hqueue, hlength]
  | drained =>
    dsimp only
    split
    · exact ⟨rfl, hqueue, hlength⟩
    · split
      · simp [hqueue, hlength]
      · rw [resumeReading]
        split <;> exact ⟨rfl, hqueue, hlength⟩

end

variable {c d : ClientConnection} {answers : List SendResult} {notice : Option Notice}

lemma Committed.handleWrite (h : c.Committed) (hwriting : c.writing)
    (heq : c.handleWrite answers = (d, notice)) :
    d.wired = c.wired ∧ d.alive = c.alive ∧
    (d.Streaming ∧ notice = d.notifyDrainedIfBelowLow
        (decide (c.flowControl.lowWatermark < c.queuedResponseBytes)) ∨
      d.valid = false ∧ d.abortFired ∧
        notice = if c.hasAbortCallback then some .requestAbort else none) := by
  have hrest := (drain_spec answers c.output).2
  rcases hdrain : drain answers c.output with ⟨accepted, rest, result⟩
  rw [hdrain] at hrest
  rw [ClientConnection.handleWrite, if_neg (by simp [h.valid, hwriting]), hdrain] at heq
  cases result with
  | again =>
    cases heq
    refine ⟨rfl, rfl, .inl ⟨⟨{ h with },
      fun hidle => ?_, fun _ => ⟨hrest.2 rfl, rfl⟩⟩, rfl⟩⟩
    exact absurd (hidle.symm.trans hwriting) (by simp)
  | failed =>
    simp only [notifyRequestAbort, h.abortFired, false_eq_true, if_false] at heq
    cases heq
    refine ⟨?_, by simp, .inr ⟨valid_close _, ?_, rfl⟩⟩ <;>
      · rw [close]
        split <;> rfl
  | drained =>
    dsimp only at heq
    rw [if_pos (by simp [h.committed, h.unfinished])] at heq
    cases heq
    exact ⟨rfl, rfl, .inl ⟨⟨{ h with },
      fun _ => hrest.1 rfl, nofun⟩, rfl⟩⟩

/-! ## The calls of a transaction -/

lemma notifyDrainedIfBelowLow_ne (c : ClientConnection) (wasAboveLow : Bool) :
    c.notifyDrainedIfBelowLow wasAboveLow ≠ some .requestAbort := by
  rw [notifyDrainedIfBelowLow]
  split
  · simp
  · split <;> simp

/-- How a write of a committed response ends: the connection streams on, or it reports the
failure and closes. -/
structure Written (c d : ClientConnection) (notice : Option Notice) : Prop where
  wired : d.wired = c.wired
  alive : d.alive = c.alive
  ends : d.Streaming ∧ notice ≠ some .requestAbort ∨ d.valid = false ∧ d.abortFired ∧
      notice = if c.hasAbortCallback then some .requestAbort else none

lemma Committed.written (h : c.Committed) (hwriting : c.writing)
    (heq : c.handleWrite answers = (d, notice)) : Written c d notice := by
  obtain ⟨hwired, halive, hends⟩ := h.handleWrite hwriting heq
  refine ⟨hwired, halive, hends.imp (fun hok => ⟨hok.1, ?_⟩) id⟩
  rw [hok.2]
  exact notifyDrainedIfBelowLow_ne _ _

/-- `BeginResponse` on a waiting connection, for a head that can be serialized. -/
lemma Awaiting.beginResponse (h : c.Awaiting) {head : HttpResponseHead}
    (heq : c.beginResponse head answers = some (d, notice)) :
    Written c d notice := by
  obtain ⟨haccepts, serialized, -, hwrite⟩ := exists_of_accepted heq
  simp only [acceptsResponse, and_eq_true, not_eq_true'] at haccepts
  have hwritten := Committed.written
    (by exact ⟨h.valid, haccepts.1.1.1.2, rfl, haccepts.2, h.abortFired⟩) (by rfl) hwrite
  exact { hwritten with }

/-- `WriteResponseBody` on a streaming connection does not throw. -/
lemma Streaming.writeResponseBody (h : c.Streaming) (bytes : Bytes) (answers : List SendResult) :
    ∃ d notice high, c.writeResponseBody bytes answers = some (d, notice, high) ∧
      Written c d notice := by
  rw [ClientConnection.writeResponseBody, if_neg (by simp [h.valid, h.committed, h.unfinished])]
  by_cases hempty : bytes.isEmpty
  · rw [if_pos hempty]
    exact ⟨c, none, false, rfl, rfl, rfl, .inl ⟨h, nofun⟩⟩
  rw [if_neg hempty]
  have hcommitted : Committed { c with output := c.output ++ bytes, writing := true } :=
    { h with }
  rcases hwrite : handleWrite
    { c with output := c.output ++ bytes, writing := true } answers with ⟨d, notice⟩
  have hwritten := hcommitted.written rfl hwrite
  exact ⟨d, notice, _, rfl, hwritten.wired, hwritten.alive, hwritten.ends⟩

def enqueue (c : ClientConnection) (bytes : Bytes) : ClientConnection :=
  { c with output := c.output ++ bytes, writing := true }

/-- What `WriteResponseBody` returns for bytes there are. -/
lemma Streaming.writeResponseBody_eq (h : c.Streaming) {bytes : Bytes} (hne : bytes ≠ [])
    (heq : (c.enqueue bytes).handleWrite answers = (d, notice)) :
    c.writeResponseBody bytes answers =
      some (d, notice, decide (d.flowControl.highWatermark ≤ d.queuedResponseBytes)) := by
  rw [ClientConnection.writeResponseBody,
    if_neg (by simp [h.valid, h.committed, h.unfinished]), if_neg (by simp [hne])]
  rw [enqueue] at heq
  rw [heq]

/-- `EPOLLOUT` on a streaming connection. -/
lemma Streaming.handleWrite (h : c.Streaming) (answers : List SendResult) :
    Written c (c.handleWrite answers).1 (c.handleWrite answers).2 := by
  by_cases hwriting : c.writing
  · exact h.toCommitted.written hwriting rfl
  · rw [ClientConnection.handleWrite, if_pos (by simp [hwriting])]
    exact ⟨rfl, rfl, .inl ⟨h, nofun⟩⟩

/-- `SendResponse` on a waiting connection does not throw for a response that can be
serialized. -/
lemma sendResponse_of_accepts (haccepts : c.acceptsResponse) {response : HttpResponse}
    (hserialize : response.serialize.isSome) (answers : List SendResult) :
    ∃ d notice, c.sendResponse response answers = some (d, notice) := by
  obtain ⟨serialized, hserialized⟩ := isSome_iff_exists.mp hserialize
  rw [sendResponse, if_neg (by simp [haccepts]), hserialized]
  exact ⟨_, _, rfl⟩

lemma Awaiting.handleWrite (h : c.Awaiting) (answers : List SendResult) :
    c.handleWrite answers = (c, none) := by
  rw [ClientConnection.handleWrite, if_pos (by simp [h.writing])]

/-- `FinishResponse` on a streaming connection does not throw. -/
lemma Streaming.finishResponse (h : c.Streaming) : ∃ d, c.finishResponse = some d := by
  rw [ClientConnection.finishResponse, if_neg (by simp [h.valid, h.committed, h.unfinished])]
  exact ⟨_, rfl⟩

/-- `FinishResponse` writes nothing. -/
lemma finishResponse_queue (heq : c.finishResponse = some d) :
    d.flowControl = c.flowControl ∧ d.sent = c.sent ∧ d.output = c.output := by
  rw [finishResponse] at heq
  obtain ⟨-, heq⟩ := ite_none_left_eq_some.mp heq
  simp only [some.injEq] at heq
  rw [← heq]
  split
  · exact ⟨rfl, rfl, rfl⟩
  · split
    · simp
    · rw [resumeReading]
      split <;> exact ⟨rfl, rfl, rfl⟩

end ClientConnection
end AegisGate.Net
