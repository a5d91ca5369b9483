import AegisGate.Proxy.Downstream

/-!
# How a client is answered

A client whose transaction runs waits for its response or is in the middle of one. When
the transaction ends, the client that still exists has got one complete response, or its
connection was closed: under a response that had begun, or because the connection itself
failed.
-/

namespace AegisGate.Proxy
open Http Net ClientConnection Downstream

/-- The calls of a response that has begun, newest first: a head, and body chunks after
it. -/
def streamed : List ClientCall → Bool
  | [.beginResponse _] => true
  | .writeResponseBody _ :: rest => streamed rest
  | _ => false

/-- The client side of a running transaction: nothing was called, or a response has
begun. -/
structure Serving (d : Downstream) : Prop where
  wired : d.client.wired
  waiting : d.committed = false → d.client.Awaiting ∧ d.calls = []
  streaming : d.committed → d.client.Streaming ∧ streamed d.calls

lemma Serving.valid {d : Downstream} (h : Serving d) : d.client.valid := by
  cases hcommitted : d.committed with
  | false =>
    have haccepts := (h.waiting hcommitted).1.accepts
    simp only [acceptsResponse, Bool.and_eq_true] at haccepts
    exact haccepts.1.1.1.1
  | true => exact (h.streaming hcommitted).1.valid

/-- What the client was told. -/
inductive Answered (d : Downstream) : Prop
  /-- One response, sent whole. -/
  | whole (response : HttpResponse) (hcalls : d.calls = [.sendResponse response])
      (hcommitted : d.committed = false)
  /-- One response, streamed to its end. -/
  | streamed (rest : List ClientCall) (hcalls : d.calls = .finishResponse :: rest)
      (hrest : streamed rest) (hcommitted : d.committed)
  /-- The connection was closed, under a committed response or because it failed; a call
  that threw has written nothing. -/
  | closed (rest : List ClientCall) (hcalls : d.calls = .abortResponse :: rest)
      (hrest : rest = [] ∨ rest = [.refused] ∨ streamed rest)
      (hvalid : d.client.valid = false)
      (hwhy : d.committed ∨ d.client.abortFired)

lemma Answered.client {d : Downstream} (h : Answered d) {c : ClientConnection}
    (hclosed : d.client.valid = false → c.valid = false ∧ (d.client.abortFired → c.abortFired)) :
    Answered { d with client := c } := by
  cases h with
  | whole response hcalls hcommitted => exact .whole response hcalls hcommitted
  | streamed rest hcalls hrest hcommitted => exact .streamed rest hcalls hrest hcommitted
  | closed rest hcalls hrest hvalid hwhy =>
    exact .closed rest hcalls hrest (hclosed hvalid).1 (hwhy.imp id (hclosed hvalid).2)

namespace Downstream

/-- The client side of a transaction whose gateway is up, for a client that exists. -/
structure Inv (d : Downstream) : Prop where
  gatewayUp : d.gatewayUp
  serving : d.finished = false → d.client.alive → Serving d
  answered : d.finished → d.client.alive → Answered d

variable {d : Downstream} {answers : List SendResult}

/-! ## The ends of a request -/

lemma inv_of_answered (hup : d.gatewayUp) (hfin : d.finished)
    (hanswered : d.client.alive → Answered d) : Inv d :=
  ⟨hup, fun hf => absurd (hfin.symm.trans hf) nofun, fun _ => hanswered⟩

lemma deliver_of_finished (hfin : d.finished) (notice : Option Notice) :
    d.deliver notice = d := by
  cases notice with
  | none => rfl
  | some notice =>
    cases notice with
    | writeDrained => rfl
    | requestAbort => exact if_pos hfin

lemma answered_abortClient (halive : d.client.alive)
    (hrest : d.calls = [] ∨ d.calls = [.refused] ∨ streamed d.calls)
    (hwhy : d.committed ∨ d.client.abortFired) : Answered d.abortClient := by
  rw [abortClient, if_pos halive]
  refine .closed d.calls rfl hrest (valid_close _) (hwhy.imp id fun hfired => ?_)
  rw [close]
  split <;> exact hfired

lemma inv_abort (hup : d.gatewayUp) (hfin : d.finished = false)
    (hrest : d.calls = [] ∨ d.calls = [.refused] ∨ streamed d.calls)
    (hwhy : d.committed ∨ d.client.abortFired) : Inv d.abort := by
  rw [abort, if_neg (by simp [hfin])]
  refine inv_of_answered ((gatewayUp_abortClient _).trans hup) (finished_abortClient _)
    fun halive => ?_
  rw [alive_abortClient] at halive
  exact answered_abortClient halive hrest hwhy

lemma answered_send (hfin : d.finished) (hcommitted : d.committed = false)
    (haccepts : d.client.acceptsResponse) (hcalls : d.calls = []) {response : HttpResponse}
    (hserialize : response.serialize.isSome) (answers : List SendResult) :
    Answered (d.send response answers) ∧
      (d.send response answers).gatewayUp = d.gatewayUp ∧
      (d.send response answers).finished := by
  obtain ⟨client, notice, hsend⟩ :=
    sendResponse_of_accepts haccepts hserialize answers
  rw [send, hsend]
  dsimp only
  rw [deliver_of_finished (by exact hfin)]
  exact ⟨.whole response (by rw [hcalls]) hcommitted, rfl, hfin⟩

lemma Inv.conclude (h : Inv d) (hfin : d.finished = false) {response : HttpResponse}
    (hserialize : response.serialize.isSome) : Inv (d.finish.conclude response answers) := by
  rw [Downstream.conclude]
  split
  · next hcommitted =>
    refine inv_of_answered ((gatewayUp_abortClient _).trans h.gatewayUp) (finished_abortClient _)
      fun halive => ?_
    rw [alive_abortClient] at halive
    exact answered_abortClient halive
      (.inr (.inr ((h.serving hfin halive).streaming hcommitted).2)) (.inl hcommitted)
  next hcommitted =>
  split
  · next hdead => exact inv_of_answered h.gatewayUp rfl fun halive => by simp [halive] at hdead
  next hdead =>
  have halive : d.client.alive := by simpa [finish] using hdead
  have hserving := h.serving hfin halive
  obtain ⟨hawaiting, hcalls⟩ := hserving.waiting (Bool.eq_false_iff.mpr hcommitted)
  have hclear : d.finish.clear =
      { d.finish with client := d.client.clearStreamCallbacks } := if_pos halive
  obtain ⟨hanswered, hup, hdone⟩ := answered_send
    (d := { d.finish with client := d.client.clearStreamCallbacks }) rfl
    (Bool.eq_false_iff.mpr hcommitted) hawaiting.accepts hcalls hserialize answers
  rw [hclear]
  exact inv_of_answered (hup.trans h.gatewayUp) hdone fun _ => hanswered

lemma Inv.fail (h : Inv d) : Inv (d.fail answers) := by
  rw [Downstream.fail]
  split
  · exact h
  · next hfin => exact h.conclude (Bool.eq_false_iff.mpr hfin) (by decide)

lemma Inv.timeout (h : Inv d) : Inv (d.timeout answers) := by
  rw [Downstream.timeout]
  split
  · exact h
  · next hfin => exact h.conclude (Bool.eq_false_iff.mpr hfin) (by decide)

lemma Inv.noEndpoint (h : Inv d) (hcommitted : d.committed = false) :
    Inv (d.noEndpoint answers) := by
  rw [Downstream.noEndpoint]
  split
  · exact h
  next hfin =>
  have hend : Inv (d.finish.conclude
      (Exchange.gatewayResponse 503 "Service Unavailable") answers) :=
    h.conclude (Bool.eq_false_iff.mpr hfin) (by decide)
  rw [Downstream.conclude, if_neg (by simp [finish, hcommitted])] at hend
  exact hend

lemma Inv.succeed (h : Inv d) (hfin : d.finished = false) : Inv (d.succeed answers) := by
  rw [Downstream.succeed]
  split
  · next hdead =>
    refine inv_of_answered h.gatewayUp rfl fun halive => ?_
    rw [show d.client.alive from halive] at hdead
    cases hdead
  next hdead =>
  have halive : d.client.alive := by simpa using hdead
  have hserving := h.serving hfin halive
  split
  · next hcommitted =>
    obtain ⟨hstreaming, hcalls⟩ := hserving.streaming hcommitted
    obtain ⟨client, hclient⟩ := hstreaming.finishResponse
    rw [finishResponse, show d.finish.client.finishResponse = some client from hclient]
    exact inv_of_answered h.gatewayUp rfl fun _ => .streamed d.calls rfl hcalls hcommitted
  next hcommitted =>
  obtain ⟨hawaiting, hcalls⟩ := hserving.waiting (Bool.eq_false_iff.mpr hcommitted)
  have hserialize : ({ ({} : HttpResponse) with
      headers := stripHopByHopHeaders ({} : HttpResponse).headers }).serialize.isSome := by
    decide
  obtain ⟨hanswered, hup, hdone⟩ := answered_send (d := d.finish) rfl
    (Bool.eq_false_iff.mpr hcommitted) hawaiting.accepts hcalls hserialize answers
  exact inv_of_answered (hup.trans h.gatewayUp) hdone fun _ => hanswered

/-! ## Steps -/

lemma inv_written {c : ClientConnection} {notice : Option Notice}
    (hwritten : ClientConnection.Written c d.client notice) (hwired : c.wired)
    (hup : d.gatewayUp) (hfin : d.finished = false) (hcommitted : d.committed)
    (hcalls : streamed d.calls) : Inv (d.deliver notice) := by
  rcases hwritten.ends with ⟨hstreaming, hnotice⟩ | ⟨-, hfired, hnotice⟩
  · have hquiet : d.deliver notice = d := by
      rw [deliver]
      exact hnotice
    rw [hquiet]
    refine ⟨hup, fun _ _ => ⟨hwritten.wired.trans hwired, fun huncommitted => ?_,
      fun _ => ⟨hstreaming, hcalls⟩⟩, fun hf => ?_⟩
    · rw [hcommitted] at huncommitted
      cases huncommitted
    · rw [hfin] at hf
      cases hf
  · rw [hnotice, if_pos (ClientConnection.wired_iff.mp hwired).2]
    exact inv_abort hup hfin (.inr (.inr hcalls)) (.inl hcommitted)

lemma Inv.handleHead (h : Inv d) {head : HttpResponseHead}
    (hearly : d.finished = false → d.committed = false) : Inv (d.handleHead head answers) := by
  rw [Downstream.handleHead]
  split
  · exact h
  next hgo =>
  have hfin : d.finished = false := by
    simp only [Bool.or_eq_true, not_or, Bool.not_eq_true] at hgo
    exact hgo.1
  split
  · next hdead =>
    rw [abort, if_neg (by simp [hfin]), abortClient, if_neg (by simpa [finish] using hdead)]
    refine inv_of_answered h.gatewayUp rfl fun halive => ?_
    rw [show d.client.alive from halive] at hdead
    cases hdead
  next hdead =>
  have hserving := h.serving hfin (by simpa using hdead)
  obtain ⟨hawaiting, hcalls⟩ := hserving.waiting (hearly hfin)
  rw [beginResponse]
  split
  · exact inv_abort h.gatewayUp hfin (.inr (.inl (by rw [hcalls]))) (.inl rfl)
  · next client notice hbegin =>
    refine inv_written (hawaiting.beginResponse hbegin) hserving.wired h.gatewayUp hfin rfl ?_
    rw [hcalls]
    rfl

lemma Inv.handleBody (h : Inv d) {bytes : Bytes} {d' : Downstream}
    (hlate : d.finished = false → d.committed)
    (heq : d.handleBody bytes answers = some d') : Inv d' := by
  rw [Downstream.handleBody] at heq
  split at heq
  · cases heq
    exact h
  next hgo =>
  have hfin : d.finished = false := by
    simp only [Bool.or_eq_true, not_or, Bool.not_eq_true] at hgo
    exact hgo.1
  obtain ⟨hdead, heq⟩ := Option.ite_none_left_eq_some.mp heq
  have hserving := h.serving hfin (by simpa using hdead)
  obtain ⟨hstreaming, hcalls⟩ := hserving.streaming (hlate hfin)
  obtain ⟨client, notice, high, hwrite, hwritten⟩ := hstreaming.writeResponseBody bytes answers
  rw [hwrite] at heq
  cases heq
  exact inv_written hwritten hserving.wired h.gatewayUp hfin (hlate hfin) hcalls

lemma Inv.writable (h : Inv d) (halive : d.client.alive) : Inv (d.writable answers) := by
  by_cases hfin : d.finished
  · rw [Downstream.writable, deliver_of_finished (by exact hfin)]
    refine inv_of_answered h.gatewayUp hfin fun _ =>
      (h.answered hfin halive).client fun hvalid => ?_
    rw [handleWrite, if_pos (by simp [hvalid])]
    exact ⟨hvalid, id⟩
  have hfin' : d.finished = false := Bool.eq_false_iff.mpr hfin
  have hserving := h.serving hfin' halive
  rw [Downstream.writable]
  by_cases hcommitted : d.committed
  · obtain ⟨hstreaming, hcalls⟩ := hserving.streaming hcommitted
    exact inv_written (hstreaming.handleWrite answers) hserving.wired h.gatewayUp hfin'
      hcommitted hcalls
  · rw [(hserving.waiting (Bool.eq_false_iff.mpr hcommitted)).1.handleWrite]
    exact h

lemma Inv.notifyRequestAbort (h : Inv d) (halive : d.client.alive)
    (hvalid : d.client.valid) :
    let d' := { d with client := d.client.notifyRequestAbort.1 }.deliver
      d.client.notifyRequestAbort.2
    Inv d' ∧ d'.finished ∧ d'.client.alive := by
  by_cases hfin : d.finished
  · rw [deliver_of_finished (by exact hfin)]
    exact ⟨inv_of_answered h.gatewayUp hfin fun _ => (h.answered hfin halive).client
      fun hinvalid => absurd (hinvalid.symm.trans hvalid) nofun, hfin,
      (alive_notifyRequestAbort _).trans halive⟩
  have hfin' : d.finished = false := Bool.eq_false_iff.mpr hfin
  have hserving := h.serving hfin' halive
  have hfired : d.client.abortFired = false ∧
      (d.calls = [] ∨ d.calls = [.refused] ∨ streamed d.calls) := by
    by_cases hcommitted : d.committed
    · obtain ⟨hstreaming, hcalls⟩ := hserving.streaming hcommitted
      exact ⟨hstreaming.abortFired, .inr (.inr hcalls)⟩
    · obtain ⟨hawaiting, hcalls⟩ := hserving.waiting (Bool.eq_false_iff.mpr hcommitted)
      exact ⟨hawaiting.abortFired, .inl hcalls⟩
  rw [ClientConnection.notifyRequestAbort, if_neg (by simp [hfired.1]),
    if_pos (ClientConnection.wired_iff.mp hserving.wired).2]
  refine ⟨inv_abort h.gatewayUp hfin' hfired.2 (.inr rfl), ?_⟩
  rw [deliver, abort, if_neg (by exact hfin), finished_abortClient, alive_abortClient]
  exact ⟨rfl, halive⟩

lemma Inv.closeAfterWrite (h : Inv d) (hfin : d.finished) :
    Inv { d with client := { d.client with closeAfterWrite := true } } :=
  inv_of_answered h.gatewayUp hfin fun halive =>
    (h.answered hfin halive).client fun hvalid => ⟨hvalid, id⟩

lemma Inv.clientTerminal (h : Inv d) (halive : d.client.alive)
    (hvalid : d.client.valid) : Inv (d.clientTerminal answers) := by
  obtain ⟨hinv, hfin, halive'⟩ := h.notifyRequestAbort halive hvalid
  rw [Downstream.clientTerminal]
  split
  · exact (hinv.closeAfterWrite hfin).writable halive'
  · exact hinv.closeAfterWrite hfin

lemma Inv.next {e : Exchange.Event} {d' : Downstream} (h : Inv d) (hup : e ≠ .gatewayExpired)
    (hearly : ∀ head answers, e = .head head answers → d.finished = false → d.committed = false)
    (hlate : ∀ bytes answers, e = .body bytes answers → d.finished = false → d.committed)
    (hnext : d.Next e d') : Inv d' := by
  cases hnext with
  | quiet => exact h
  | head head answers => exact h.handleHead (hearly head answers rfl)
  | body bytes answers heq => exact h.handleBody (hlate bytes answers rfl) heq
  | fail _ answers => exact h.fail
  | timeout _ answers => exact h.timeout
  | success answers hfin => exact h.succeed hfin
  | writable answers halive => exact h.writable halive
  | terminal answers halive hvalid => exact h.clientTerminal halive hvalid
  | clientDestroyed => exact ⟨h.gatewayUp, nofun, nofun⟩
  | gatewayExpired => exact absurd rfl hup

/-! ## After the end -/

lemma calls_of_finished {e : Exchange.Event} {d' : Downstream} (hfin : d.finished)
    (hnext : d.Next e d') : d'.calls = d.calls := by
  cases hnext with
  | quiet => rfl
  | head head answers => rw [handleHead, if_pos (by simp [hfin])]
  | body bytes answers heq =>
    rw [handleBody, if_pos (by simp [hfin])] at heq
    cases heq
    rfl
  | fail _ answers => rw [fail, if_pos hfin]
  | timeout _ answers => rw [timeout, if_pos hfin]
  | success answers hunfinished =>
    rw [hfin] at hunfinished
    cases hunfinished
  | writable answers halive => rw [writable, deliver_of_finished (by exact hfin)]
  | terminal answers halive hvalid =>
    rw [clientTerminal, deliver_of_finished (by exact hfin)]
    split
    · rw [writable, deliver_of_finished (by exact hfin)]
    · rfl
  | clientDestroyed => rfl
  | gatewayExpired => rfl

end Downstream
end AegisGate.Proxy
