import AegisGate.Net.ResponseInvariant

/-!
# Responses in the order of the requests

What a connection has sent and what it has queued are together the responses in the order of the
requests, and only the last of them can be incomplete. A request is delivered when nothing is
queued, and a response call that the last request does not wait for throws.
-/

namespace AegisGate.Net
open Http Lib Option

namespace Pipeline
variable {s t : Pipeline} {answers : List SendResult}

/-! ## Deliveries -/

/-- No request was delivered, or one that waits for its response. -/
def Delivers (n : ℕ) (t : Pipeline) : Prop :=
  t.exchanges.length = n ∨
    t.conn.valid ∧ ∃ x, t.exchanges.getLast? = some x ∧ x.phase = .waiting

lemma delivers_deliverParsedRequest (n : ℕ) (hvalid : s.conn.valid) :
    Delivers n s.deliverParsedRequest :=
  .inr ⟨hvalid, _, List.getLast?_concat, rfl⟩

lemma delivers_readBuffered (hvalid : s.conn.valid) :
    Delivers s.exchanges.length s.readBuffered := by
  rw [readBuffered]
  split
  · exact .inl rfl
  dsimp only
  split
  · exact .inl rfl
  · exact delivers_deliverParsedRequest _ hvalid
  · exact .inl rfl
  · exact .inl rfl

lemma delivers_resumeReading (s : Pipeline) : Delivers s.exchanges.length s.resumeReading := by
  rw [resumeReading]
  split
  · exact .inl rfl
  next hguard =>
  refine delivers_readBuffered (s := { s with
    parser := s.parser.reset, conn := s.conn.resumeReading }) ?_
  simp only [Bool.or_eq_true, Bool.not_eq_true', not_or, Bool.not_eq_false] at hguard
  rw [ClientConnection.resumeReading]
  split <;> exact hguard.1.1

lemma delivers_receive (hvalid : s.conn.valid) (recvs : List RecvResult) :
    Delivers s.exchanges.length (s.receive recvs) := by
  induction recvs generalizing s with
  | nil => exact .inl rfl
  | cons answer recvs ih =>
    cases answer with
    | again | eof | failed => exact .inl rfl
    | data first rest =>
      rw [receive]
      split
      · exact ih (s := ({ s with input := s.input ++ first :: rest } : Pipeline).parse) hvalid
      · exact delivers_deliverParsedRequest _ hvalid
      · exact .inl rfl
      · exact .inl rfl

lemma delivers_notify {n : ℕ} {notice : Option Notice} {frame : Frame}
    {rest : Pipeline → Pipeline} (hn : s.exchanges.length = n) (hrest : Delivers n (rest s)) :
    Delivers n (s.notify notice frame rest) := by
  cases notice with
  | none => exact hrest
  | some _ => exact .inl hn

lemma delivers_handleWrite (s : Pipeline) (answers : List SendResult) :
    Delivers s.exchanges.length (s.handleWrite answers) := by
  rw [handleWrite]
  split
  · exact .inl rfl
  rcases drain answers s.conn.output with ⟨accepted, rest, result⟩
  dsimp only
  cases result with
  | again | failed => exact delivers_notify rfl (.inl rfl)
  | drained =>
    rw [drained]
    dsimp only
    split
    · exact .inl rfl
    · split
      · exact .inl rfl
      · exact delivers_resumeReading { s.transmit accepted rest with
          conn := { (s.transmit accepted rest).conn with
            writing := false, writeInterest := false } }

lemma delivers_hangUp (s : Pipeline) (answers : List SendResult) :
    Delivers s.exchanges.length (s.hangUp answers) := by
  rw [hangUp]
  split
  · exact delivers_handleWrite { s with conn := { s.conn with closeAfterWrite := true } } answers
  · exact .inl rfl

lemma delivers_of_record (k : ℕ) (call : ResponseCall)
    (h : Delivers (s.record k call).exchanges.length t) : Delivers s.exchanges.length t := by
  rwa [show (s.record k call).exchanges.length = s.exchanges.length from
    List.length_modify _ _ _] at h

lemma delivers_perform (s : Pipeline) (k : ℕ) (answers : List SendResult) (call : ResponseCall) :
    Delivers s.exchanges.length (s.perform k answers call).2 := by
  cases call with
  | sendResponse response =>
    rw [perform, run_sendResponse]
    split
    · exact .inl rfl
    · cases response.serialize with
      | none => exact .inl rfl
      | some serialized => exact delivers_of_record k _ (delivers_handleWrite _ answers)
  | beginResponse head =>
    rw [perform, run_beginResponse]
    split
    · exact .inl rfl
    · cases head.serialize with
      | none => exact .inl rfl
      | some serialized => exact delivers_of_record k _ (delivers_handleWrite _ answers)
  | writeResponseBody bytes =>
    rw [perform, run_writeResponseBody]
    split
    · exact .inl rfl
    · split
      · exact delivers_of_record k _ (.inl rfl)
      · exact delivers_of_record k _ (delivers_handleWrite _ answers)
  | finishResponse =>
    rw [perform, run_finishResponse]
    split
    · exact .inl rfl
    · split
      · exact delivers_of_record k _ (.inl rfl)
      · split
        · exact delivers_of_record k _ (.inl rfl)
        · exact delivers_of_record k _ (delivers_resumeReading _)

lemma delivers_step {e : Event} (hstep : step s e = some t) : Delivers s.exchanges.length t := by
  cases e with
  | handleRead recvs answers =>
    obtain ⟨-, ⟨⟩⟩ := ite_none_right_eq_some.mp hstep
    rw [handleRead]
    split
    · exact .inl rfl
    next hvalid =>
    split
    · exact delivers_notify rfl
        (delivers_hangUp { s with conn := s.conn.notifyRequestAbort.1 } answers)
    · rw [Bool.not_eq_true, Bool.not_eq_false'] at hvalid
      exact delivers_receive hvalid recvs
  | handleWrite answers =>
    obtain ⟨-, ⟨⟩⟩ := ite_none_right_eq_some.mp hstep
    exact delivers_handleWrite s answers
  | call k call answers =>
    obtain ⟨x, -, hstep⟩ := bind_eq_some_iff.mp hstep
    obtain ⟨-, ⟨⟩⟩ := ite_none_right_eq_some.mp hstep
    exact delivers_perform s k answers call
  | returned answers =>
    rw [step] at hstep
    split at hstep
    · cases hstep
    · next frame rest _ =>
      cases hstep
      cases frame with
      | enableWriting | close => exact .inl rfl
      | hangUp => exact delivers_hangUp { s with stack := rest } answers
  | close | setStreamCallbacks | clearStreamCallbacks =>
    cases hstep
    exact .inl rfl

/-! ## Whole runs -/

/-- A call that the connection expects: the last request waits for it, and it serializes. -/
def Accepts (s : Pipeline) (call : ResponseCall) : Prop :=
  s.conn.valid ∧ call.wire.isSome ∧
    ∃ x, s.exchanges.getLast? = some x ∧ (x.phase.next call).isSome

/-- The condition a call checks. -/
def guard (s : Pipeline) : ResponseCall → Bool
  | .sendResponse _ | .beginResponse _ => s.conn.acceptsResponse
  | .writeResponseBody _ | .finishResponse => s.acceptsBody

lemma perform_throws {call : ResponseCall} (h : ¬(s.guard call ∧ call.wire.isSome))
    (k : ℕ) (answers : List SendResult) : ∃ e, s.perform k answers call = (.error e, s) := by
  cases hguard : s.guard call with
  | false =>
    refine ⟨.logicError, ?_⟩
    cases call with
    | sendResponse response =>
      rw [perform, run_sendResponse, show s.conn.acceptsResponse = false from hguard]
      rfl
    | beginResponse head =>
      rw [perform, run_beginResponse, show s.conn.acceptsResponse = false from hguard]
      rfl
    | writeResponseBody bytes =>
      rw [perform, run_writeResponseBody, show s.acceptsBody = false from hguard]
      rfl
    | finishResponse =>
      rw [perform, run_finishResponse, show s.acceptsBody = false from hguard]
      rfl
  | true =>
    refine ⟨.invalidArgument, ?_⟩
    have hwire : call.wire = none := by simpa [hguard] using h
    cases call with
    | sendResponse response =>
      rw [perform, run_sendResponse, show s.conn.acceptsResponse from hguard,
        show response.serialize = none from hwire]
      rfl
    | beginResponse head =>
      rw [perform, run_beginResponse, show s.conn.acceptsResponse from hguard,
        show head.serialize = none from hwire]
      rfl
    | writeResponseBody | finishResponse => cases hwire

lemma Inv.guard_iff (h : s.Inv) (call : ResponseCall) : s.guard call ↔
    s.conn.valid ∧ ∃ x, s.exchanges.getLast? = some x ∧
    (x.phase.next call).isSome := by
  have hnext : ∀ p : Phase, (p.next call).isSome ↔ match call with
      | .sendResponse _ | .beginResponse _ => p = .waiting
      | .writeResponseBody _ | .finishResponse => p = .streaming := by
    intro p
    cases call <;> cases p <;> simp [Phase.next]
  simp only [hnext]
  cases call with
  | sendResponse | beginResponse => exact h.acceptsResponse_iff
  | writeResponseBody | finishResponse => exact h.acceptsBody_iff

lemma Inv.throws (h : s.Inv) {call : ResponseCall} (hnot : ¬s.Accepts call) (k : ℕ)
    (answers : List SendResult) : ∃ e, s.perform k answers call = (.error e, s) := by
  refine perform_throws (fun hok => hnot ?_) k answers
  obtain ⟨hvalid, hx⟩ := (h.guard_iff call).mp hok.1
  exact ⟨hvalid, hok.2, hx⟩

lemma Inv.of_delivers (h : t.Inv) {n : ℕ} (hd : Delivers n t) (hlt : n < t.exchanges.length) :
    t.conn.output = [] ∧ t.conn.responseCommitted = false ∧ t.conn.responseFinished = false := by
  obtain hsame | ⟨hvalid, x, hx, hwaiting⟩ := hd
  · omega
  obtain hr | ⟨init, y, hxs, -, hidle, hphase⟩ := h.serving hvalid
  · cases hwaiting.symm.trans (hr.done x (List.mem_of_getLast? hx))
  · rw [hxs, List.getLast?_concat] at hx
    cases hx
    rw [hwaiting] at hphase
    exact ⟨hidle hphase.1, hphase.2⟩

/-- Responses are sent in the order of the requests. -/
structure InOrder (s : Pipeline) : Prop where
  /-- Every request but the last has its complete response, -/
  complete : ∀ x ∈ s.exchanges.dropLast, x.Complete
  /-- and these responses were sent. -/
  sent : s.exchanges.dropLast.flatMap Exchange.response <+: s.conn.sent
  /-- What was sent and what is queued are the responses, request by request. -/
  queued : s.conn.sent ++ s.conn.output = s.exchanges.flatMap Exchange.response
  /-- Only a close cuts the last response short: an open connection has sent or is writing
  what the handlers have queued, -/
  flushed : s.conn.valid → s.conn.writing = false → s.conn.output = []
  /-- and it reads on only after the last response is complete. -/
  answered : s.conn.valid → s.conn.readingPaused = false → ∀ x ∈ s.exchanges, x.Complete
  /-- A request is delivered when nothing is queued and every response is complete. -/
  delivered : ∀ e t, step s e = some t → s.exchanges.length < t.exchanges.length →
    t.conn.output = [] ∧ t.conn.responseCommitted = false ∧ t.conn.responseFinished = false ∧
      ∀ x ∈ t.exchanges.dropLast, x.Complete
  /-- A call in a wrong state, or one that does not serialize, throws and changes nothing. -/
  throws : ∀ k answers call, ¬s.Accepts call → ∃ e, s.perform k answers call = (.error e, s)

lemma Inv.inOrder (h : s.Inv) : s.InOrder where
  complete x hx := Exchange.complete_of_done (h.earlier x hx)
  sent := h.covered
  queued := h.bytes
  flushed hvalid hwriting := by
    obtain hr | ⟨-, -, -, -, hidle, -⟩ := h.serving hvalid
    · exact hr.output
    · exact hidle hwriting
  answered hvalid hpaused x hx := by
    obtain hr | ⟨-, -, -, hpaused', -, -⟩ := h.serving hvalid
    · exact Exchange.complete_of_done (hr.done x hx)
    · cases hpaused'.symm.trans hpaused
  delivered e t hstep hlt := by
    have ht := h.step hstep
    obtain ⟨houtput, hcommitted, hfinished⟩ := ht.of_delivers (delivers_step hstep) hlt
    exact ⟨houtput, hcommitted, hfinished, fun x hx => Exchange.complete_of_done (ht.earlier x hx)⟩
  throws k answers _ hnot := h.throws hnot k answers

/-- **Response ordering.** In every run of a connection, responses are sent in the order of the
requests. -/
theorem inOrder_of_run {flowControl : StreamFlowControl} {es : List Event}
    (hrun : run step { conn := { flowControl := flowControl } } es = some s) : s.InOrder :=
  Inv.inOrder (run_invariant (fun _ _ _ hs hstep => hs.step hstep) (inv_init flowControl) hrun)

/-- Two pipelined requests in one read. The first is answered at once and in two parts, which
delivers the second from the buffer; that one is streamed. -/
def twoRequests : List Event :=
  [.handleRead [.data 71 (ascii "ET / HTTP/1.1\r\n\r\nGET /b HTTP/1.1\r\n\r\n")] [],
    .call 0 (.sendResponse {}) [.sent 3, .again], .handleWrite [.sent 99],
    .call 1 (.beginResponse { contentLength := some 1 }) [.sent 99],
    .call 1 (.writeResponseBody [120]) [.again], .call 1 .finishResponse [],
    .handleWrite [.sent 99]]

theorem inOrder_of_run_twoRequests : ∃ s, run step {} twoRequests = some s ∧ s.InOrder ∧
      s.conn.sent = ascii "HTTP/1.1 200 OK\r\nContent-Length: 0\r\n\r\n" ++
        ascii "HTTP/1.1 200 OK\r\nContent-Length: 1\r\n\r\nx" ∧
      s.exchanges.map (fun x => x.request.target) = [ascii "/", ascii "/b"] := by
  obtain ⟨s, hs⟩ : ∃ s, run step {} twoRequests = some s := ⟨_, rfl⟩
  refine ⟨s, hs, inOrder_of_run hs, ?_, ?_⟩
  · cases hs
    decide +kernel
  · cases hs
    decide +kernel

end Pipeline
end AegisGate.Net
