import AegisGate.Net.Pipeline

/-!
# The response side of a pipelined connection

An open connection either reads, with every response complete and nothing queued, or it answers
the last request it has delivered. Which of the two, and how far the answer is, can be told from
five flags; that they agree with the calls the handlers have made is the invariant. It holds
between steps, inside stream callbacks included.
-/

namespace AegisGate.Net
open Http Lib ClientConnection List Option Exchange

/-- The bytes and the flags of the response side. -/
structure ResponseSide where
  sent : Bytes
  output : Bytes
  valid : Bool
  paused : Bool
  writing : Bool
  committed : Bool
  finished : Bool

/-- The response side of a connection. -/
def ClientConnection.side (c : ClientConnection) : ResponseSide where
  sent := c.sent
  output := c.output
  valid := c.valid
  paused := c.readingPaused
  writing := c.writing
  committed := c.responseCommitted
  finished := c.responseFinished

variable {v : ResponseSide} {xs init : List Exchange} {x : Exchange}

/-- Every response is complete and nothing is queued. -/
structure Reading (v : ResponseSide) (xs : List Exchange) : Prop where
  paused : v.paused = false
  writing : v.writing = false
  committed : v.committed = false
  finished : v.finished = false
  output : v.output = []
  done : ∀ x ∈ xs, x.phase = .done

/-- The flags while a request is answered. A complete response is still being written. -/
def Answering (v : ResponseSide) : Phase → Prop
  | .waiting => v.writing = false ∧ v.committed = false ∧ v.finished = false
  | .streaming => v.committed ∧ v.finished = false
  | .done => v.writing ∧ v.committed = v.finished

lemma Answering.unique {p q : Phase} (hp : Answering v p) (hq : Answering v q) : p = q := by
  cases p <;> cases q <;> simp_all [Answering]

/-- What a valid connection is doing. -/
inductive Serving (v : ResponseSide) (xs : List Exchange) : Prop
  | reading (h : Reading v xs)
  | answering (init : List Exchange) (x : Exchange) (hxs : xs = init ++ [x])
      (paused : v.paused) (idle : v.writing = false → v.output = [])
      (h : Answering v x.phase)

/-- What was sent and queued, in the order of the requests. -/
structure History (v : ResponseSide) (xs : List Exchange) : Prop where
  bytes : v.sent ++ v.output = xs.flatMap response
  earlier : ∀ x ∈ xs.dropLast, x.phase = .done
  covered : xs.dropLast.flatMap response <+: v.sent

structure Ordered (v : ResponseSide) (xs : List Exchange) : Prop extends History v xs where
  serving : v.valid → Serving v xs

/-! ## The history -/

variable {p : Phase}

lemma Exchange.record_of_next {call : ResponseCall} {bytes : Bytes}
    (hnext : x.phase.next call = some p) (hwire : call.wire = some bytes) :
    (x.record call).phase = p ∧ (x.record call).response = x.response ++ bytes := by
  have happend : ResponseCall.append x.response call = some (x.response ++ bytes) := by
    rw [ResponseCall.append, hwire, map_some]
  rw [record]
  split
  · next hq hr =>
    cases hnext.symm.trans hq
    cases happend.symm.trans hr
    exact ⟨rfl, rfl⟩
  · next hnone => exact (hnone p _ hnext happend).elim

lemma calls_of_streaming {calls : List ResponseCall}
    (h : calls.foldlM Phase.next .streaming = some .done) :
    ∃ bodies : List Bytes, calls = bodies.map .writeResponseBody ++ [.finishResponse] := by
  induction calls with
  | nil => cases h
  | cons call calls ih =>
    cases call with
    | sendResponse | beginResponse => cases h
    | writeResponseBody bytes =>
      obtain ⟨bodies, rfl⟩ := ih h
      exact ⟨bytes :: bodies, rfl⟩
    | finishResponse =>
      cases calls with
      | nil => exact ⟨[], rfl⟩
      | cons call calls => cases call <;> cases h

lemma Exchange.complete_of_done (h : x.phase = .done) : x.Complete := by
  have hfollows := x.follows
  rw [h] at hfollows
  rw [Exchange.Complete]
  cases hcalls : x.calls with
  | nil =>
    rw [hcalls] at hfollows
    cases hfollows
  | cons call calls =>
    rw [hcalls] at hfollows
    cases call with
    | sendResponse response =>
      cases calls with
      | nil => exact .inl ⟨response, rfl⟩
      | cons call calls => cases call <;> cases hfollows
    | beginResponse head =>
      obtain ⟨bodies, rfl⟩ := calls_of_streaming hfollows
      exact .inr ⟨head, bodies, rfl⟩
    | writeResponseBody | finishResponse => cases hfollows

lemma History.last_of_open (h : History v (init ++ [x])) {k : ℕ} {y : Exchange}
    (hk : (init ++ [x])[k]? = some y) (hopen : y.phase ≠ .done) : k = init.length ∧ y = x := by
  have hearlier := h.earlier
  rw [dropLast_concat] at hearlier
  by_cases hlt : k < init.length
  · rw [getElem?_append_left hlt] at hk
    exact absurd (hearlier y (mem_of_getElem? hk)) hopen
  · rw [getElem?_append_right (Nat.le_of_not_lt hlt), getElem?_singleton] at hk
    obtain ⟨hzero, ⟨⟩⟩ := ite_none_right_eq_some.mp hk
    exact ⟨by omega, rfl⟩

lemma History.transmit (h : History v xs) {accepted rest : Bytes}
    (hsplit : accepted ++ rest = v.output) :
    History { v with output := rest, sent := v.sent ++ accepted } xs where
  bytes := by
    rw [← h.bytes, ← hsplit, append_assoc]
  earlier := h.earlier
  covered := h.covered.trans (prefix_append _ _)

lemma History.queue (h : History v (init ++ [x])) {call : ResponseCall} {bytes : Bytes}
    (hnext : x.phase.next call = some p) (hwire : call.wire = some bytes) :
    History { v with output := v.output ++ bytes } (init ++ [x.record call]) where
  bytes := by
    have hbytes := h.bytes
    rw [flatMap_append] at hbytes ⊢
    simp only [flatMap_singleton, (record_of_next hnext hwire).2] at hbytes ⊢
    rw [← append_assoc, hbytes, append_assoc]
  earlier := by
    have := h.earlier
    rwa [dropLast_concat] at this ⊢
  covered := by
    have := h.covered
    rwa [dropLast_concat] at this ⊢

lemma History.record (h : History v (init ++ [x])) {call : ResponseCall}
    (hnext : x.phase.next call = some p) (hwire : call.wire = some []) :
    History v (init ++ [x.record call]) := by
  have hqueue := h.queue hnext hwire
  rwa [append_nil] at hqueue

lemma History.deliver (h : History v xs) (hr : Reading v xs) (request : HttpRequest) :
    Ordered { v with paused := true } (xs ++ [{ request := request }]) where
  bytes := by
    rw [flatMap_append, ← h.bytes]
    exact (append_nil _).symm
  earlier := by
    rw [dropLast_concat]
    exact hr.done
  covered := by
    have hsent : xs.flatMap response = v.sent := by
      rw [← h.bytes, hr.output, append_nil]
    rw [dropLast_concat]
    exact ⟨[], (append_nil _).trans hsent⟩
  serving _ := .answering xs _ rfl rfl (fun _ => hr.output) ⟨hr.writing, hr.committed, hr.finished⟩

lemma History.closed (h : History v xs) : Ordered { v with valid := false } xs :=
  ⟨{ h with }, nofun⟩

lemma ClientConnection.side_close (c : ClientConnection) :
    c.close.side = { c.side with valid := false } := by
  rw [ClientConnection.close]
  split
  · rfl
  · next hvalid =>
    rw [Bool.not_eq_true] at hvalid
    rw [side, hvalid]

lemma ClientConnection.side_notifyRequestAbort (c : ClientConnection) :
    c.notifyRequestAbort.1.side = c.side := by
  rw [notifyRequestAbort]
  split <;> rfl

namespace Pipeline
variable {s t : Pipeline} {answers : List SendResult}

def Inv (s : Pipeline) : Prop := Ordered s.conn.side s.exchanges

/-! ## Reading -/

lemma inv_close (h : History s.conn.side s.exchanges) : s.close.Inv := by
  change Ordered s.conn.close.side s.exchanges
  rw [side_close]
  exact h.closed

lemma Inv.readBuffered (h : s.Inv) (hr : Reading s.conn.side s.exchanges) :
    s.readBuffered.Inv := by
  rw [Pipeline.readBuffered]
  split
  · exact h
  dsimp only
  split
  · exact h
  · exact h.deliver hr _
  · exact inv_close h.toHistory
  · exact inv_close h.toHistory

lemma inv_resumeReading (h : History s.conn.side s.exchanges) (hvalid : s.conn.valid)
    (hpaused : s.conn.readingPaused) (hwriting : s.conn.writing = false)
    (houtput : s.conn.output = []) (hdone : ∀ x ∈ s.exchanges, x.phase = .done) :
    s.resumeReading.Inv := by
  have hguard : (!s.conn.valid || !s.conn.readingPaused || s.conn.writing) = false := by
    rw [hvalid, hpaused, hwriting]
    rfl
  have hconn : s.conn.resumeReading = { s.conn with
      responseCommitted := false, responseFinished := false, readingPaused := false } := by
    rw [ClientConnection.resumeReading, hguard]
    rfl
  rw [Pipeline.resumeReading, hguard, hconn]
  have hr : Reading { s.conn with
      responseCommitted := false, responseFinished := false, readingPaused := false }.side
        s.exchanges := ⟨rfl, hwriting, rfl, rfl, houtput, hdone⟩
  exact Inv.readBuffered ⟨{ h with }, fun _ => .reading hr⟩ hr

lemma Inv.receive (h : s.Inv) (hr : Reading s.conn.side s.exchanges) (recvs : List RecvResult) :
    (s.receive recvs).Inv := by
  induction recvs generalizing s with
  | nil => exact h
  | cons answer recvs ih =>
    cases answer with
    | again => exact h
    | eof | failed => exact inv_close h.toHistory
    | data first rest =>
      rw [Pipeline.receive]
      split
      · exact ih h hr
      · exact h.deliver hr _
      · exact inv_close h.toHistory
      · exact inv_close h.toHistory

/-! ## Writing -/

lemma Inv.abortFired (h : s.Inv) : ({ s with conn := s.conn.notifyRequestAbort.1 }).Inv := by
  change Ordered s.conn.notifyRequestAbort.1.side s.exchanges
  rw [side_notifyRequestAbort]
  exact h

lemma Inv.notify (h : s.Inv) {notice : Option Notice} {frame : Frame} {rest : Pipeline → Pipeline}
    (hrest : (rest s).Inv) : (s.notify notice frame rest).Inv := by
  cases notice with
  | none => exact hrest
  | some _ => exact h

lemma inv_drained (h : History s.conn.side s.exchanges) (hvalid : s.conn.valid)
    (hpaused : s.conn.readingPaused) (hwriting : s.conn.writing)
    (houtput : s.conn.output = []) (hxs : s.exchanges = init ++ [x])
    (hphase : Answering s.conn.side x.phase) : s.drained.Inv := by
  rw [Pipeline.drained]
  cases hx : x.phase with
  | waiting =>
    rw [hx] at hphase
    cases hphase.1.symm.trans hwriting
  | streaming =>
    rw [hx] at hphase
    obtain ⟨hcommitted, hfinished⟩ : s.conn.responseCommitted ∧
      s.conn.responseFinished = false := hphase
    have hopen : (s.conn.responseCommitted && !s.conn.responseFinished) := by
      rw [hcommitted, hfinished]
      rfl
    rw [if_pos hopen]
    refine ⟨{ h with }, fun _ => ?_⟩
    refine .answering init x hxs hpaused (fun _ => houtput) ?_
    rw [hx]
    exact ⟨hcommitted, hfinished⟩
  | done =>
    rw [hx] at hphase
    have hflags : s.conn.responseCommitted = s.conn.responseFinished := hphase.2
    have hdone : ∀ y ∈ s.exchanges, y.phase = .done := by
      intro y hy
      have hearlier := h.earlier
      rw [hxs] at hy hearlier
      rw [dropLast_concat] at hearlier
      obtain hy | hy := mem_append.mp hy
      · exact hearlier y hy
      · rw [mem_singleton.mp hy, hx]
    have hended : ¬(s.conn.responseCommitted && !s.conn.responseFinished) := by
      rw [hflags, Bool.and_not_self]
      exact Bool.false_ne_true
    rw [if_neg hended]
    split
    · exact inv_close { h with }
    · exact inv_resumeReading { h with } hvalid hpaused rfl houtput hdone

lemma Inv.handleWrite (h : s.Inv) (answers : List SendResult) : (s.handleWrite answers).Inv := by
  rw [Pipeline.handleWrite]
  split
  · exact h
  next hguard =>
  simp only [Bool.or_eq_true, Bool.not_eq_true', not_or, Bool.not_eq_false] at hguard
  obtain ⟨hvalid, hwriting⟩ := hguard
  rcases hdrain : drain answers s.conn.output with ⟨accepted, rest, result⟩
  have hsplit : accepted ++ rest = s.conn.output := by
    simpa [hdrain] using (drain_spec answers s.conn.output).1
  have hhistory : History (s.transmit accepted rest).conn.side s.exchanges :=
    h.toHistory.transmit hsplit
  obtain hr | ⟨init, x, hxs, hpaused, hidle, hphase⟩ := h.serving hvalid
  · cases hr.writing.symm.trans hwriting
  have hphase' : Answering (s.transmit accepted rest).conn.side x.phase := by
    cases hx : x.phase <;> rw [hx] at hphase <;> exact hphase
  have hinv : (s.transmit accepted rest).Inv := by
    refine ⟨hhistory, fun _ => .answering init x hxs hpaused (fun hw => ?_) hphase'⟩
    cases hw.symm.trans hwriting
  cases result with
  | again => exact hinv.notify hinv
  | failed => exact hinv.abortFired.notify (inv_close hinv.abortFired.toHistory)
  | drained =>
    have hrest : rest = [] := by
      have := (drain_spec answers s.conn.output).2.1
      simpa [hdrain] using this
    exact inv_drained hhistory hvalid hpaused hwriting hrest hxs hphase'

lemma Inv.hangUp (h : s.Inv) (answers : List SendResult) : (s.hangUp answers).Inv := by
  rw [Pipeline.hangUp]
  have hinv : ({ s with conn := { s.conn with closeAfterWrite := true } }).Inv := h
  split
  · exact hinv.handleWrite answers
  · exact hinv

lemma Inv.handleRead (h : s.Inv) (recvs : List RecvResult) (answers : List SendResult) :
    (s.handleRead recvs answers).Inv := by
  rw [Pipeline.handleRead]
  split
  · exact h
  next hvalid =>
  split
  · exact h.abortFired.notify (h.abortFired.hangUp answers)
  · next hpaused =>
    rw [Bool.not_eq_true, Bool.not_eq_false'] at hvalid
    obtain hr | ⟨init, x, hxs, hpaused', -, -⟩ := h.serving hvalid
    · exact h.receive hr recvs
    · exact absurd hpaused' hpaused

lemma Inv.resume (h : s.Inv) (answers : List SendResult) (frame : Frame) :
    (s.resume answers frame).Inv := by
  cases frame with
  | enableWriting => exact h
  | close => exact inv_close h.toHistory
  | hangUp => exact h.hangUp answers

/-! ## The response calls -/

variable {k : ℕ} {p : Phase}

lemma Inv.answering_iff (h : s.Inv) (hopen : p ≠ .done) :
    s.conn.valid ∧ s.conn.readingPaused ∧ Answering s.conn.side p ↔
      s.conn.valid ∧ ∃ x, s.exchanges.getLast? = some x ∧ x.phase = p := by
  constructor
  · rintro ⟨hvalid, hpaused, hp⟩
    obtain hr | ⟨init, x, hxs, -, -, hphase⟩ := h.serving hvalid
    · cases hr.paused.symm.trans hpaused
    · exact ⟨hvalid, x, by rw [hxs, getLast?_concat], hphase.unique hp⟩
  · rintro ⟨hvalid, x, hx, rfl⟩
    obtain hr | ⟨init, y, hxs, hpaused, -, hphase⟩ := h.serving hvalid
    · exact absurd (hr.done x (mem_of_getLast? hx)) hopen
    · rw [hxs, getLast?_concat] at hx
      cases hx
      exact ⟨hvalid, hpaused, hphase⟩

lemma Inv.acceptsResponse_iff (h : s.Inv) : s.conn.acceptsResponse ↔
    s.conn.valid ∧ ∃ x, s.exchanges.getLast? = some x ∧ x.phase = .waiting := by
  rw [← h.answering_iff (p := .waiting) nofun]
  simp [acceptsResponse, Answering, side, and_assoc]

lemma Inv.acceptsBody_iff (h : s.Inv) : s.acceptsBody ↔
    s.conn.valid ∧ ∃ x, s.exchanges.getLast? = some x ∧ x.phase = .streaming := by
  -- A connection that reads has not committed a response.
  have hpaused : s.conn.valid → s.conn.responseCommitted → s.conn.readingPaused := by
    intro hvalid hcommitted
    obtain hr | ⟨-, -, -, hpaused, -, -⟩ := h.serving hvalid
    · cases hr.committed.symm.trans hcommitted
    · exact hpaused
  rw [← h.answering_iff (p := .streaming) nofun]
  simp only [Pipeline.acceptsBody, Bool.and_eq_true, Bool.not_eq_true', Answering, side]
  tauto

lemma ne_done_of_next {call : ResponseCall} (h : x.phase.next call = some p) :
    x.phase ≠ .done := by
  intro hx
  rw [hx] at h
  cases call <;> cases h

lemma Inv.current (h : s.Inv) (hvalid : s.conn.valid) (hk : s.exchanges[k]? = some x)
    (hopen : x.phase ≠ .done) :
    s.conn.readingPaused ∧ (s.conn.writing = false → s.conn.output = []) ∧
      Answering s.conn.side x.phase ∧
      ∃ init, s.exchanges = init ++ [x] ∧ ∀ call, (s.record k call).exchanges =
        init ++ [x.record call] := by
  obtain hr | ⟨init, y, hxs, hpaused, hidle, hphase⟩ := h.serving hvalid
  · exact absurd (hr.done x (mem_of_getElem? hk)) hopen
  have hhistory := h.toHistory
  rw [hxs] at hk hhistory
  obtain ⟨rfl, rfl⟩ := hhistory.last_of_open hk hopen
  refine ⟨hpaused, hidle, hphase, init, hxs, fun call => ?_⟩
  rw [Pipeline.record]
  rw [hxs]
  simp [modify_eq_set_getElem?]

lemma Inv.queued (h : s.Inv) (hvalid : s.conn.valid) (hk : s.exchanges[k]? = some x)
    {call : ResponseCall} {bytes : Bytes} (hnext : x.phase.next call = some p)
    (hwire : call.wire = some bytes) {committed : Bool}
    (hside : t.conn.side = { s.conn.side with
      output := s.conn.output ++ bytes, writing := true, committed := committed })
    (hexchanges : t.exchanges = (s.record k call).exchanges)
    (hphase : Answering { s.conn.side with
      output := s.conn.output ++ bytes, writing := true, committed := committed } p) : t.Inv := by
  obtain ⟨hpaused, -, -, init, hxs, hrecord⟩ := h.current hvalid hk (ne_done_of_next hnext)
  have hhistory := h.toHistory
  rw [hxs] at hhistory
  rw [Inv, hside, hexchanges, hrecord]
  obtain ⟨hbytes, hearlier, hcovered⟩ := hhistory.queue hnext hwire
  refine ⟨⟨hbytes, hearlier, hcovered⟩, fun _ => ?_⟩
  refine .answering init (x.record call) rfl hpaused nofun ?_
  rw [(record_of_next hnext hwire).1]
  exact hphase

lemma Inv.sendResponse (h : s.Inv) {response : HttpResponse} (hk : s.exchanges[k]? = some x)
    (hnext : x.phase.next (.sendResponse response) = some p) (answers : List SendResult) :
    ((Pipeline.sendResponse k response answers).run s).2.Inv := by
  rw [run_sendResponse]
  split
  · exact h
  next haccepts =>
  simp only [acceptsResponse, Bool.not_eq_true', Bool.not_eq_false, Bool.and_eq_true] at haccepts
  obtain ⟨⟨⟨⟨hvalid, -⟩, -⟩, hcommitted⟩, hfinished⟩ := haccepts
  cases hserialize : response.serialize with
  | none => exact h
  | some serialized =>
    obtain rfl : p = .done := by
      cases hx : x.phase <;> rw [hx] at hnext <;> cases hnext
      rfl
    refine Inv.handleWrite ?_ answers
    exact h.queued hvalid hk hnext hserialize rfl rfl ⟨rfl, hcommitted.trans hfinished.symm⟩

lemma Inv.beginResponse (h : s.Inv) {head : HttpResponseHead} (hk : s.exchanges[k]? = some x)
    (hnext : x.phase.next (.beginResponse head) = some p) (answers : List SendResult) :
    ((Pipeline.beginResponse k head answers).run s).2.Inv := by
  rw [run_beginResponse]
  split
  · exact h
  next haccepts =>
  simp only [acceptsResponse, Bool.not_eq_true', Bool.not_eq_false, Bool.and_eq_true] at haccepts
  obtain ⟨⟨⟨⟨hvalid, -⟩, -⟩, -⟩, hfinished⟩ := haccepts
  cases hserialize : head.serialize with
  | none => exact h
  | some serialized =>
    obtain rfl : p = .streaming := by
      cases hx : x.phase <;> rw [hx] at hnext <;> cases hnext
      rfl
    refine Inv.handleWrite ?_ answers
    exact h.queued hvalid hk hnext hserialize rfl rfl ⟨rfl, hfinished⟩

lemma Inv.writeResponseBody (h : s.Inv) {bytes : Bytes} (hk : s.exchanges[k]? = some x)
    (hnext : x.phase.next (.writeResponseBody bytes) = some p) (answers : List SendResult) :
    ((Pipeline.writeResponseBody k bytes answers).run s).2.Inv := by
  rw [run_writeResponseBody]
  split
  · exact h
  next haccepts =>
  simp only [Pipeline.acceptsBody, Bool.not_eq_true', Bool.not_eq_false,
    Bool.and_eq_true] at haccepts
  obtain ⟨⟨hvalid, hcommitted⟩, hfinished⟩ := haccepts
  obtain rfl : p = .streaming := by
    cases hx : x.phase <;> rw [hx] at hnext <;> cases hnext
    rfl
  split
  · next hempty =>
    obtain ⟨hpaused, hidle, -, init, hxs, hrecord⟩ := h.current hvalid hk (ne_done_of_next hnext)
    have hhistory := h.toHistory
    rw [hxs] at hhistory
    rw [isEmpty_iff.mp hempty] at hnext ⊢
    change Ordered s.conn.side (s.record k _).exchanges
    rw [hrecord]
    refine ⟨hhistory.record hnext rfl, fun _ => .answering init _ rfl hpaused hidle ?_⟩
    rw [(record_of_next hnext rfl).1]
    exact ⟨hcommitted, hfinished⟩
  · refine Inv.handleWrite ?_ answers
    exact h.queued hvalid hk hnext rfl rfl rfl ⟨hcommitted, hfinished⟩

lemma Inv.finishResponse (h : s.Inv) (hk : s.exchanges[k]? = some x)
    (hnext : x.phase.next .finishResponse = some p) :
    ((Pipeline.finishResponse k).run s).2.Inv := by
  rw [run_finishResponse]
  split
  · exact h
  next haccepts =>
  simp only [Pipeline.acceptsBody, Bool.not_eq_true', Bool.not_eq_false,
    Bool.and_eq_true] at haccepts
  obtain ⟨⟨hvalid, hcommitted⟩, hfinished⟩ := haccepts
  obtain rfl : p = .done := by
    cases hx : x.phase <;> rw [hx] at hnext <;> cases hnext
    rfl
  obtain ⟨hpaused, hidle, -, init, hxs, hrecord⟩ := h.current hvalid hk (ne_done_of_next hnext)
  have hhistory : History s.conn.side (init ++ [x.record .finishResponse]) :=
    (hxs ▸ h.toHistory : History s.conn.side (init ++ [x])).record hnext rfl
  have hfinish : History (s.record k .finishResponse).finish.conn.side
      (s.record k .finishResponse).finish.exchanges := by
    change History _ (s.record k .finishResponse).exchanges
    rw [hrecord]
    exact { hhistory with }
  split
  · next hwriting =>
    refine ⟨hfinish, fun _ => .answering init _ (hrecord _) hpaused ?_ ?_⟩
    · intro hidle'
      cases hidle'.symm.trans hwriting
    · rw [(record_of_next hnext rfl).1]
      exact ⟨hwriting, hcommitted⟩
  next hwriting =>
  rw [Bool.not_eq_true] at hwriting
  split
  · exact inv_close hfinish
  refine inv_resumeReading hfinish hvalid hpaused hwriting (hidle hwriting) ?_
  change ∀ y ∈ (s.record k .finishResponse).exchanges, _
  rw [hrecord]
  intro y hy
  obtain hy | hy := mem_append.mp hy
  · exact hhistory.earlier y (by rwa [dropLast_concat])
  · rw [mem_singleton.mp hy, (record_of_next hnext rfl).1]

lemma Inv.perform (h : s.Inv) {call : ResponseCall} (hk : s.exchanges[k]? = some x)
    (hnext : x.phase.next call = some p) (answers : List SendResult) :
    (s.perform k answers call).2.Inv := by
  cases call with
  | sendResponse response => exact h.sendResponse hk hnext answers
  | beginResponse head => exact h.beginResponse hk hnext answers
  | writeResponseBody bytes => exact h.writeResponseBody hk hnext answers
  | finishResponse => exact h.finishResponse hk hnext

lemma Inv.step {e : Event} (h : s.Inv) (hstep : Pipeline.step s e = some t) : t.Inv := by
  cases e with
  | handleRead recvs answers =>
    obtain ⟨-, ⟨⟩⟩ := ite_none_right_eq_some.mp hstep
    exact h.handleRead recvs answers
  | handleWrite answers =>
    obtain ⟨-, ⟨⟩⟩ := ite_none_right_eq_some.mp hstep
    exact h.handleWrite answers
  | call k call answers =>
    obtain ⟨x, hk, hstep⟩ := bind_eq_some_iff.mp hstep
    obtain ⟨hnext, ⟨⟩⟩ := ite_none_right_eq_some.mp hstep
    obtain ⟨p, hp⟩ := isSome_iff_exists.mp hnext
    exact h.perform hk hp answers
  | returned answers =>
    rw [Pipeline.step] at hstep
    split at hstep
    · cases hstep
    · next frame rest _ =>
      cases hstep
      exact Inv.resume (s := { s with stack := rest }) h answers frame
  | close =>
    cases hstep
    exact inv_close h.toHistory
  | setStreamCallbacks | clearStreamCallbacks =>
    cases hstep
    exact h

lemma inv_init (flowControl : StreamFlowControl) :
    Inv { conn := { flowControl := flowControl } } where
  bytes := rfl
  earlier := nofun
  covered := prefix_rfl
  serving _ := .reading ⟨rfl, rfl, rfl, rfl, rfl, nofun⟩

end Pipeline
end AegisGate.Net
