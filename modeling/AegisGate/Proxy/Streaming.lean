import AegisGate.Proxy.Relay
import AegisGate.Proxy.Retry

/-!
# The streamed body

What the client gets after the head is what the upstream sent after the head: no byte is
lost, duplicated or reordered, and a complete exchange relays the declared length. The
upstream is paused only while the client's queue is above the low watermark and the client
is registered for writing, so a drain is still due; and the queue is bounded by the
watermark or the head, and one chunk.
-/

namespace AegisGate.Proxy
open Lib Http Net Exchange Downstream ClientConnection List Option Bool Lifecycle HttpResponseParser

/-- The body bytes of the calls made on a client, newest call first. -/
def bodyOf : List ClientCall → Bytes
  | [] => []
  | .writeResponseBody bytes :: rest => bodyOf rest ++ bytes
  | _ :: rest => bodyOf rest

/-- What a relay is measured against: the bytes the client had accepted before, the
serialized head, the length of the body, and the watermarks. -/
structure Terms where
  before : Bytes
  head : Bytes
  length : ℕ
  flow : StreamFlowControl

/-- The bound on a queue to which nothing more is written. -/
def Terms.bound (t : Terms) : ℕ := max t.flow.highWatermark t.head.length

/-- The client side of a relay: sent and queued bytes are the head and the body so far, and
the queue is bounded. -/
structure Carried (t : Terms) (d : Downstream) : Prop where
  alive : d.client.alive
  committed : d.committed
  gatewayUp : d.gatewayUp
  flow : d.client.flowControl = t.flow
  bytes : d.client.sent ++ d.client.output = t.before ++ t.head ++ bodyOf d.calls
  queue : d.client.output.length ≤ t.bound + 64 * 1024

/-- Two states of a client connection with the same bytes, the second with no longer queue. -/
structure SameBytes (c d : ClientConnection) : Prop where
  alive : d.alive = c.alive
  flow : d.flowControl = c.flowControl
  bytes : d.sent ++ d.output = c.sent ++ c.output
  queue : d.output.length ≤ c.output.length

lemma SameBytes.refl (c : ClientConnection) : SameBytes c c := ⟨rfl, rfl, rfl, le_rfl⟩

lemma sameBytes_close (c : ClientConnection) : SameBytes c c.close := by
  refine ⟨alive_close c, flowControl_close c, ?_, ?_⟩
  · rw [sent_close, output_close]
  · rw [output_close]

lemma sameBytes_handleWrite (c : ClientConnection) (answers : List SendResult) :
    SameBytes c (c.handleWrite answers).1 := by
  obtain ⟨hflow, hbytes, hqueue⟩ := handleWrite_queue c answers
  exact ⟨alive_handleWrite c answers, hflow, hbytes, hqueue⟩

lemma sameBytes_notifyRequestAbort (c : ClientConnection) :
    SameBytes c c.notifyRequestAbort.1 := by
  rw [notifyRequestAbort]
  split <;> exact ⟨rfl, rfl, rfl, le_rfl⟩

lemma sameBytes_finishResponse {c d : ClientConnection} (h : c.finishResponse = some d) :
    SameBytes c d := by
  obtain ⟨hflow, hsent, houtput⟩ := finishResponse_queue h
  refine ⟨alive_finishResponse h, hflow, ?_, ?_⟩
  · rw [hsent, houtput]
  · rw [houtput]

/-- A step of the client's side that writes no body bytes. -/
structure Quiet (d d' : Downstream) : Prop extends SameBytes d.client d'.client where
  committed : d'.committed = d.committed
  gatewayUp : d'.gatewayUp = d.gatewayUp
  body : bodyOf d'.calls = bodyOf d.calls

namespace Quiet
variable {d d' d'' : Downstream} {answers : List SendResult}

lemma refl (d : Downstream) : Quiet d d := ⟨.refl _, rfl, rfl, rfl⟩

lemma trans (h : Quiet d d') (h' : Quiet d' d'') : Quiet d d'' where
  alive := h'.alive.trans h.alive
  flow := h'.flow.trans h.flow
  bytes := h'.bytes.trans h.bytes
  queue := h'.queue.trans h.queue
  committed := h'.committed.trans h.committed
  gatewayUp := h'.gatewayUp.trans h.gatewayUp
  body := h'.body.trans h.body

lemma of_client {c : ClientConnection} (h : SameBytes d.client c) :
    Quiet d { d with client := c } :=
  ⟨h, rfl, rfl, rfl⟩

lemma finish (d : Downstream) : Quiet d d.finish := ⟨.refl _, rfl, rfl, rfl⟩

lemma abortClient (d : Downstream) : Quiet d d.abortClient := by
  rw [Downstream.abortClient]
  split
  · have hclose := sameBytes_close d.client.clearStreamCallbacks
    exact ⟨{ hclose with }, rfl, rfl, rfl⟩
  · exact .refl d

lemma abort (d : Downstream) : Quiet d d.abort := by
  rw [Downstream.abort]
  split
  · exact .refl d
  · exact (finish d).trans (.abortClient _)

lemma deliver (d : Downstream) (notice : Option Notice) : Quiet d (d.deliver notice) := by
  rcases notice with - | - | -
  · exact .refl d
  · exact .refl d
  · exact .abort d

lemma writable (d : Downstream) (answers : List SendResult) : Quiet d (d.writable answers) :=
  (of_client (sameBytes_handleWrite d.client answers)).trans (.deliver _ _)

lemma clientTerminal (d : Downstream) (answers : List SendResult) :
    Quiet d (d.clientTerminal answers) := by
  have hnotify := (of_client (sameBytes_notifyRequestAbort d.client)).trans
    (.deliver _ d.client.notifyRequestAbort.2)
  rw [Downstream.clientTerminal]
  have hclosing : ∀ d : Downstream,
      Quiet d { d with client := { d.client with closeAfterWrite := true } } :=
    fun _ => of_client ⟨rfl, rfl, rfl, le_rfl⟩
  split
  · exact (hnotify.trans (hclosing _)).trans (.writable _ answers)
  · exact hnotify.trans (hclosing _)

lemma conclude (h : d.committed) (response : HttpResponse) :
    Quiet d (d.finish.conclude response answers) := by
  rw [Downstream.conclude, if_pos (by exact h)]
  exact (finish d).trans (.abortClient _)

lemma fail (h : d.committed) : Quiet d (d.fail answers) := by
  rw [Downstream.fail]
  split
  · exact .refl d
  · exact .conclude h _

lemma timeout (h : d.committed) : Quiet d (d.timeout answers) := by
  rw [Downstream.timeout]
  split
  · exact .refl d
  · exact .conclude h _

lemma succeed (halive : d.client.alive) (h : d.committed) :
    Quiet d (d.succeed answers) := by
  rw [Downstream.succeed, if_neg (by simp [halive]), if_pos h, Downstream.finishResponse]
  split
  · exact ⟨.refl _, rfl, rfl, rfl⟩
  · next client hclient => exact ⟨sameBytes_finishResponse hclient, rfl, rfl, rfl⟩

lemma handleUpstream {x : Exchange} (halive : x.client.alive)
    (h : x.downstream.committed) (r : UpstreamResult) (answers : List SendResult) :
    Quiet x.downstream (x.handleUpstream r {} answers).downstream := by
  rcases downstream_handleUpstream x answers r with heq | ⟨heq, -⟩ | ⟨heq, -⟩ <;> rw [heq]
  · exact .refl _
  · exact .fail h
  · exact .succeed halive h

end Quiet

lemma Carried.quiet {t : Terms} {d d' : Downstream} (h : Carried t d) (hq : Quiet d d') :
    Carried t d' where
  alive := hq.alive.trans h.alive
  committed := hq.committed.trans h.committed
  gatewayUp := hq.gatewayUp.trans h.gatewayUp
  flow := hq.flow.trans h.flow
  bytes := by
    rw [hq.bytes, hq.body]
    exact h.bytes
  queue := hq.queue.trans h.queue

/-! ## The sink -/

/-- The three objects of an unfinished relay: the client streams, the two pause flags agree,
and the queue decides between them. -/
structure Flowing (t : Terms) (x : Exchange) : Prop where
  client : x.client.Streaming
  wired : x.client.wired
  active : x.tx.activeConnection
  upstream : ∃ u, x.upstream = some u ∧ u.reading ∧ u.readingPaused = x.tx.upstreamReadPaused
  paused : x.tx.upstreamReadPaused → t.flow.lowWatermark < x.client.queuedResponseBytes
  running : x.tx.upstreamReadPaused = false → x.client.queuedResponseBytes ≤ t.bound

namespace Exchange
variable {t : Terms} {x y : Exchange} {answers : List SendResult} {bytes : Bytes}

lemma isSome_upstream (x : Exchange) : x.upstream.isSome = x.lifecycle.running.isSome := by
  simp [lifecycle]

lemma isSome_upstream_abort (x : Exchange) :
    x.handleClientAbort.upstream.isSome = x.upstream.isSome := by
  rw [isSome_upstream, isSome_upstream, lifecycle_handleClientAbort, Lifecycle.abort]
  split
  · rfl
  · rw [Lifecycle.note]
    split <;> rfl

lemma isSome_upstream_pause (x : Exchange) :
    x.pauseUpstreamReading.upstream.isSome = x.upstream.isSome := by
  rw [isSome_upstream, isSome_upstream, (Unseen.pauseUpstreamReading x).lifecycle]

lemma finished_handleUpstream (hcarried : Carried t x.downstream) (result : UpstreamResult)
    (answers : List SendResult) :
    (x.handleUpstream result {} answers).tx.finished ∧
      (x.handleUpstream result {} answers).upstream.isSome = x.upstream.isSome := by
  have hlife := lifecycle_handleUpstream (x := x) answers result
  have hretry : ¬x.lifecycle.tx.retryableFailure result := fun hretry => by
    have huncommitted := (retryableFailure_spec hretry).1
    rw [show x.lifecycle.tx.downstreamResponseCommitted from hcarried.committed]
      at huncommitted
    cases huncommitted
  have hend : (x.lifecycle.result result).tx.finished ∧
      (x.lifecycle.result result).running = x.lifecycle.running := by
    rw [Lifecycle.result]
    by_cases hfin : x.lifecycle.tx.finished
    · rw [if_pos hfin]
      exact ⟨hfin, rfl⟩
    · rw [if_neg hfin, if_neg hretry]
      split
      · exact ⟨by simp, running_fail _⟩
      · exact ⟨by simp, running_succeed _⟩
  rw [← hlife] at hend
  refine ⟨hend.1, ?_⟩
  rw [isSome_upstream, isSome_upstream, hend.2]

lemma flowing_pause (hclient : x.client.Streaming) (hwired : x.client.wired)
    (hactive : x.tx.activeConnection)
    (hupstream : ∃ u, x.upstream = some u ∧ u.reading)
    (hrun : x.tx.upstreamReadPaused = false)
    (hhigh : t.flow.highWatermark ≤ x.client.queuedResponseBytes) :
    Flowing t x.pauseUpstreamReading := by
  obtain ⟨u, hu, hreading⟩ := hupstream
  rw [pauseUpstreamReading, if_neg (by simp [hrun]), if_pos (by exact hactive)]
  refine ⟨hclient, hwired, hactive, ⟨{ u with readingPaused := true }, ?_, hreading, rfl⟩,
    fun _ => t.flow.low_lt_high.trans_le hhigh, by simp⟩
  rw [hu, map_some, Upstream.pauseReading, if_pos hreading]

lemma isSome_upstream_deliver (x : Exchange) (notice : Option Notice) :
    (x.deliver notice).upstream.isSome = x.upstream.isSome := by
  cases notice with
  | none => rfl
  | some notice =>
    cases notice with
    | requestAbort => exact isSome_upstream_abort x
    | writeDrained =>
      rw [isSome_upstream, isSome_upstream]
      exact congrArg (·.running.isSome) (Unseen.resumeUpstreamReading x).lifecycle

lemma deliver_written {c : ClientConnection} {notice : Option Notice}
    (h : ClientConnection.Written c x.client notice) (hwired : c.wired)
    (hrun : x.tx.upstreamReadPaused = false) :
    x.client.Streaming ∧ x.deliver notice = x ∨
      (x.deliver notice).downstream = x.downstream.abort := by
  rcases h.ends with ⟨hstreaming, hnotice⟩ | ⟨-, -, hnotice⟩
  · refine .inl ⟨hstreaming, ?_⟩
    cases notice with
    | none => rfl
    | some notice =>
      cases notice with
      | requestAbort => exact absurd rfl hnotice
      | writeDrained => exact if_pos (by simp [hrun])
  · rw [if_pos (wired_iff.mp hwired).2] at hnotice
    rw [hnotice]
    exact .inr (downstream_handleClientAbort x)

lemma sink_flowing (hcarried : Carried t x.downstream) (hfin : x.tx.finished = false)
    (hflow : Flowing t x) (hrun : x.tx.upstreamReadPaused = false) (hne : bytes ≠ [])
    (hlen : bytes.length ≤ 64 * 1024) (answers : List SendResult) :
    ∃ y, x.handleResponseBody bytes answers = some (y, true) ∧ Carried t y.downstream ∧
      bodyOf y.calls = bodyOf x.calls ++ bytes ∧ y.upstream.isSome ∧
      (y.tx.finished = false → Flowing t y) := by
  rcases hwrite : (x.client.enqueue bytes).handleWrite answers with ⟨d, notice⟩
  have hsame := sameBytes_handleWrite (x.client.enqueue bytes) answers
  rw [hwrite] at hsame
  have hwritten : ClientConnection.Written (x.client.enqueue bytes) d notice := by
    have hc := hflow.client
    exact ClientConnection.Committed.written
      { hc with } rfl hwrite
  set z : Exchange := { x with client := d, calls := .writeResponseBody bytes :: x.calls } with hz
  -- The chunk is in the queue, whatever the write loop made of it.
  have hcarried' : Carried t z.downstream := by
    refine ⟨hsame.alive.trans hcarried.alive, hcarried.committed, hcarried.gatewayUp,
      hsame.flow.trans hcarried.flow, ?_, ?_⟩
    · calc d.sent ++ d.output = x.client.sent ++ (x.client.output ++ bytes) := hsame.bytes
        _ = x.client.sent ++ x.client.output ++ bytes := (append_assoc _ _ _).symm
        _ = t.before ++ t.head ++ bodyOf x.calls ++ bytes := congrArg (· ++ bytes) hcarried.bytes
        _ = t.before ++ t.head ++ (bodyOf x.calls ++ bytes) := append_assoc _ _ _
    · have hqueue : d.output.length ≤ (x.client.output ++ bytes).length := hsame.queue
      have hbefore : x.client.output.length ≤ t.bound := hflow.running hrun
      rw [length_append] at hqueue
      show d.output.length ≤ _
      omega
  have hbody : x.handleResponseBody bytes answers =
      some (if decide (d.flowControl.highWatermark ≤ d.queuedResponseBytes) then
        (z.deliver notice).pauseUpstreamReading else z.deliver notice, true) := by
    rw [handleResponseBody,
      if_neg (by simp [hfin, show x.gatewayUp from hcarried.gatewayUp]),
      if_neg (by simp [show x.client.alive from hcarried.alive]),
      hflow.client.writeResponseBody_eq hne hwrite]
  rw [show d.flowControl = t.flow from hcarried'.flow] at hbody
  refine ⟨_, hbody, ?_⟩
  have hupstream := isSome_upstream_deliver z notice
  obtain ⟨u, hu, hreading, hsync⟩ := hflow.upstream
  rw [show z.upstream = some u from hu] at hupstream
  rcases deliver_written (x := z) hwritten hflow.wired hrun with ⟨hstreaming, hquiet⟩ | habort
  · rw [hquiet] at hupstream ⊢
    have hwired : z.client.wired := hwritten.wired.trans hflow.wired
    by_cases hhigh : t.flow.highWatermark ≤ d.queuedResponseBytes
    · rw [if_pos (by simpa using hhigh)]
      refine ⟨?_, ?_, ?_, fun _ =>
        flowing_pause hstreaming hwired hflow.active ⟨u, hu, hreading⟩ hrun hhigh⟩
      · rw [(Unseen.pauseUpstreamReading z).downstream]
        exact hcarried'
      · exact congrArg (fun d => bodyOf d.calls) (Unseen.pauseUpstreamReading z).downstream
      · rw [isSome_upstream_pause]
        exact hupstream
    rw [if_neg (by simpa using hhigh)]
    refine ⟨hcarried', rfl, hupstream, fun _ => ⟨hstreaming, hwired, hflow.active,
      ⟨u, hu, hreading, hsync⟩, fun hpaused => absurd (hrun.symm.trans hpaused) (by simp),
      fun _ => ?_⟩⟩
    have hbound : t.flow.highWatermark ≤ t.bound := le_max_left _ _
    show d.queuedResponseBytes ≤ _
    omega
  · -- The write failed: the transaction aborts, with the chunk in the client's queue.
    set y : Exchange := if decide (t.flow.highWatermark ≤ d.queuedResponseBytes) then
      (z.deliver notice).pauseUpstreamReading else z.deliver notice with hy
    have hdown : y.downstream = z.downstream.abort := by
      rw [hy]
      split
      · rw [(Unseen.pauseUpstreamReading _).downstream, habort]
      · exact habort
    have hq : Quiet z.downstream y.downstream := hdown ▸ .abort _
    refine ⟨hcarried'.quiet hq, hq.body, ?_, fun hunfinished => ?_⟩
    · rw [hy]
      split
      · rw [isSome_upstream_pause]
        exact hupstream
      · exact hupstream
    · have hfinished : y.tx.finished :=
        (congrArg finished hdown).trans (finished_abort _)
      rw [hfinished] at hunfinished
      cases hunfinished

lemma flowing_resume (hflow : Flowing t x) (hfin : x.tx.finished = false)
    (hup : x.gatewayUp) (hpaused : x.tx.upstreamReadPaused)
    {d : ClientConnection} (hclient : d.Streaming) (hwired : d.wired)
    (hlow : d.queuedResponseBytes ≤ t.flow.lowWatermark) :
    Flowing t ({ x with client := d }.resumeUpstreamReading) := by
  obtain ⟨u, hu, hreading, hsync⟩ := hflow.upstream
  rw [resumeUpstreamReading, if_neg (by simp [hfin, hup, hpaused]), if_pos (by exact hflow.active)]
  refine ⟨hclient, hwired, hflow.active, ⟨{ u with readingPaused := false }, ?_, hreading, rfl⟩,
    (by simp), fun _ => ?_⟩
  · rw [hu, map_some, Upstream.resumeReading, if_pos (by simp [hreading, hsync, hpaused])]
  · have hbound : t.flow.highWatermark ≤ t.bound := le_max_left _ _
    have hlt := t.flow.low_lt_high
    show d.queuedResponseBytes ≤ _
    omega

/-- `EPOLLOUT` on the client of a flowing relay: it flows on, and a queue that fell to the
low watermark ends the pause; or the write failed and the transaction is finished. -/
lemma writable_flowing (hcarried : Carried t x.downstream) (hfin : x.tx.finished = false)
    (hflow : Flowing t x) {d : ClientConnection} {notice : Option Notice}
    (hwrite : x.client.handleWrite answers = (d, notice)) :
    (({ x with client := d }.deliver notice).tx.finished = false →
      Flowing t ({ x with client := d }.deliver notice)) := by
  intro hunfinished
  by_cases hwriting : x.client.writing
  · have hsame := sameBytes_handleWrite x.client answers
    rw [hwrite] at hsame
    obtain ⟨hwired, -, ⟨hstreaming, hnotice⟩ | ⟨-, -, hnotice⟩⟩ :=
      hflow.client.toCommitted.handleWrite hwriting hwrite
    · have hwired' : d.wired := hwired.trans hflow.wired
      have hdflow : d.flowControl = t.flow := hsame.flow.trans hcarried.flow
      rw [show x.client.flowControl = t.flow from hcarried.flow] at hnotice
      by_cases hpaused : x.tx.upstreamReadPaused
      · -- The queue was above the low watermark, so the notice tells where it is now.
        rw [decide_eq_true (hflow.paused hpaused), notifyDrainedIfBelowLow,
          hstreaming.committed, hstreaming.unfinished, hdflow] at hnotice
        by_cases hlow : t.flow.lowWatermark < d.queuedResponseBytes
        · rw [if_pos (by simpa using hlow)] at hnotice
          rw [hnotice]
          exact ⟨hstreaming, hwired', hflow.active, hflow.upstream, fun _ => hlow,
            fun hrun => absurd (hpaused.symm.trans hrun) (by simp)⟩
        · rw [if_neg (by simpa using hlow), if_pos (wired_iff.mp hwired').1] at hnotice
          rw [hnotice]
          exact flowing_resume hflow hfin hcarried.gatewayUp hpaused hstreaming hwired' (by omega)
      · -- Nothing is paused: a notice changes nothing.
        have hrun := eq_false_iff.mpr hpaused
        have hquiet : { x with client := d }.deliver notice = { x with client := d } := by
          rcases notice with - | - | -
          · rfl
          · exact if_pos (by simp [hrun])
          · exact absurd hnotice.symm (notifyDrainedIfBelowLow_ne _ _)
        rw [hquiet]
        refine ⟨hstreaming, hwired', hflow.active, hflow.upstream,
          fun hpaused' => absurd hpaused' hpaused, fun _ => ?_⟩
        exact hsame.queue.trans (hflow.running hrun)
    · rw [hnotice, if_pos (wired_iff.mp hflow.wired).2] at hunfinished
      have hfinished : ({ x with client := d }.handleClientAbort).tx.finished :=
        (congrArg finished (downstream_handleClientAbort _)).trans
          (finished_abort _)
      exact absurd (hfinished.symm.trans hunfinished) (by simp)
  · rw [handleWrite, if_pos (by simp [hwriting])] at hwrite
    cases hwrite
    exact hflow

lemma finished_deliver {d : Downstream} (hfin : d.finished) (notice : Option Notice) :
    (d.deliver notice).finished := by
  rcases notice with - | - | -
  · exact hfin
  · exact hfin
  · exact finished_abort d

lemma finished_clientTerminal {d : Downstream}
    (habort : d.finished = false → d.client.notifyRequestAbort.2 = some .requestAbort) :
    ¬(d.clientTerminal answers).finished = false := by
  have hnotified : ({ d with client := d.client.notifyRequestAbort.1 }.deliver
      d.client.notifyRequestAbort.2).finished := by
    by_cases hfin : d.finished
    · apply finished_deliver
      exact hfin
    · rw [habort (eq_false_iff.mpr hfin)]
      exact finished_abort _
  rw [Downstream.clientTerminal]
  split
  · rw [writable, finished_deliver (by exact hnotified)]
    simp
  · simp [hnotified]

lemma finished_timeout {d : Downstream} (hcarried : Carried t d) :
    ¬(d.timeout answers).finished = false := by
  rw [Downstream.timeout]
  split
  · next hfin => simp [hfin]
  · rw [Downstream.conclude, if_pos (by exact hcarried.committed), finished_abortClient]
    rintro ⟨⟩

lemma isSome_running_timeout {c : Lifecycle} (h : c.timeout.running.isSome) :
    c.running.isSome := by
  rw [Lifecycle.timeout] at h
  split at h
  · exact h
  rw [Lifecycle.running_conclude, Lifecycle.cancelActive] at h
  have hnote : (c.note .timedOut).running = c.running := by
    rw [Lifecycle.note]
    split <;> rfl
  split at h
  · cases h
  · rw [← hnote]
    exact h

/-- An exchange whose head is due: the request was written, and the client waits for the
transaction that nothing has paused. -/
structure Ready (x : Exchange) : Prop where
  unfinished : x.tx.finished = false
  gatewayUp : x.gatewayUp
  alive : x.client.alive
  client : x.client.Awaiting
  wired : x.client.wired
  calls : x.calls = []
  active : x.tx.activeConnection
  running : x.tx.upstreamReadPaused = false
  upstream : ∃ u, x.upstream = some u ∧ u.reading ∧ u.readingPaused = false

/-- The head that goes to the client. -/
def committedHead (head : HttpResponseHead) : HttpResponseHead :=
  { head with headers := stripHopByHopHeaders head.headers }

def withHead (c : ClientConnection) (head : HttpResponseHead) (serialized : Bytes) :
    ClientConnection :=
  { c with
    output := c.output ++ serialized, writing := true, responseCommitted := true
    closeAfterWrite := c.closeAfterWrite || headersWantClose head.headers }

lemma head_flowing (h : x.Ready) {head : HttpResponseHead}
    (hserialize : (committedHead head).serialize = some t.head)
    (hbefore : t.before = x.client.sent) (hflow : t.flow = x.client.flowControl)
    (answers : List SendResult) :
    Carried t (x.handleResponseHead head answers).downstream ∧
      bodyOf (x.handleResponseHead head answers).calls = [] ∧
      (x.handleResponseHead head answers).upstream.isSome ∧
      ((x.handleResponseHead head answers).tx.finished = false →
        Flowing t (x.handleResponseHead head answers) ∧
          (x.handleResponseHead head answers).tx.upstreamReadPaused = false) := by
  rcases hwrite : (withHead x.client (committedHead head) t.head).handleWrite answers
    with ⟨d, notice⟩
  have hbegin : x.client.beginResponse (committedHead head) answers = some (d, notice) := by
    rw [ClientConnection.beginResponse, if_neg (by simp [h.client.accepts]), hserialize, map_some]
    exact congrArg some hwrite
  have hwritten := h.client.beginResponse hbegin
  have hsame := sameBytes_handleWrite (withHead x.client (committedHead head) t.head) answers
  rw [hwrite] at hsame
  set z : Exchange := { x.commitHead (committedHead head) with
    client := d, calls := [.beginResponse (committedHead head)] } with hz
  have heq : x.handleResponseHead head answers = z.deliver notice := by
    rw [handleResponseHead, if_neg (by simp [h.unfinished, h.gatewayUp])]
    rw [if_neg (by simp [commitHead, h.alive]), beginResponse]
    erw [hbegin]
    show deliver { x.commitHead (committedHead head) with
      client := d, calls := .beginResponse (committedHead head) :: x.calls } notice = _
    rw [h.calls]
  have hqueue : d.output.length ≤ t.head.length := by
    have hle : d.output.length ≤ (x.client.output ++ t.head).length := hsame.queue
    rwa [h.client.output] at hle
  have hbound : t.head.length ≤ t.bound := le_max_right _ _
  have hcarried : Carried t z.downstream := by
    refine ⟨hsame.alive.trans h.alive, rfl, h.gatewayUp, hsame.flow.trans hflow.symm, ?_, ?_⟩
    · have hbytes : d.sent ++ d.output = x.client.sent ++ (x.client.output ++ t.head) := hsame.bytes
      show d.sent ++ d.output = t.before ++ t.head ++ []
      rw [hbytes, h.client.output, hbefore, nil_append, append_nil]
    · show d.output.length ≤ _
      omega
  obtain ⟨u, hu, hreading, hpaused⟩ := h.upstream
  have hq : Quiet z.downstream (z.deliver notice).downstream :=
    downstream_deliver z notice ▸ .deliver _ _
  rw [heq]
  refine ⟨hcarried.quiet hq, hq.body, ?_, fun hunfinished => ?_⟩
  · rw [isSome_upstream_deliver, show z.upstream = some u from hu]
    rfl
  rcases deliver_written (x := z) hwritten h.wired h.running with ⟨hstreaming, hquiet⟩ | habort
  · rw [hquiet]
    exact ⟨⟨hstreaming, hwritten.wired.trans h.wired, h.active,
      ⟨u, hu, hreading, hpaused.trans h.running.symm⟩,
      fun hpaused => absurd (h.running.symm.trans hpaused) (by simp), fun _ => hqueue.trans hbound⟩,
      h.running⟩
  · have hfinished : (z.deliver notice).tx.finished :=
      (congrArg finished habort).trans (finished_abort _)
    exact absurd (hfinished.symm.trans hunfinished) (by simp)

end Exchange

/-! ## The read loop -/

namespace Relay

/-- What was received is the body relayed and what is buffered,
and what is relayed and what the parser expects make up the declared length. -/
structure Balanced (t : Terms) (r : Relay) : Prop where
  carried : Carried t r.exchange.downstream
  parser : r.parser.Expecting
  received : r.received = bodyOf r.exchange.calls ++ r.input
  length : (bodyOf r.exchange.calls).length + r.parser.remainingBody = t.length

/-- Between the iterations of the read loop: while the exchange lives its body is not
complete, and an unfinished relay flows. -/
structure Inv (t : Terms) (r : Relay) : Prop extends Balanced t r where
  live : r.exchange.upstream.isSome → r.parser.bodyComplete = false
  success : r.ended = some .success → r.parser.bodyComplete
  flowing : r.exchange.tx.finished = false → Flowing t r.exchange

/-- Between events: nothing is buffered unless the transaction is finished, and never more
than one chunk. -/
structure Rest (t : Terms) (r : Relay) : Prop extends Inv t r where
  idle : r.exchange.tx.finished = false → r.input = []
  small : r.input.length ≤ 64 * 1024

variable {t : Terms} {r : Relay} {answers : List SendResult}

lemma Balanced.quiet (h : Balanced t r) {y : Exchange} {ended : Option UpstreamResult}
    (hq : Quiet r.exchange.downstream y.downstream) :
    Balanced t { r with exchange := y, ended := ended } where
  carried := h.carried.quiet hq
  parser := h.parser
  received := h.received.trans (congrArg (· ++ r.input) hq.body.symm)
  length := (congrArg (fun b : Bytes => b.length + _) hq.body).trans h.length

/-- `Finish` with a failure, or with a success when the body is complete. -/
lemma Balanced.finish (h : Balanced t r) {result : UpstreamResult}
    (hsuccess : result = .success → r.parser.bodyComplete)
    (hsmall : r.input.length ≤ 64 * 1024) : Rest t (r.finish result) := by
  have hcarried : Carried t (r.exchange.noteDelivered result).downstream := h.carried
  obtain ⟨hfin, hnone⟩ := finished_handleUpstream hcarried result []
  have hq := Quiet.handleUpstream hcarried.alive hcarried.committed result []
  refine ⟨⟨h.quiet hq, fun hsome => absurd (hnone.symm.trans hsome) nofun,
    fun heq => hsuccess (some.inj heq), ?_⟩, ?_, hsmall⟩
  · exact fun hunfinished => absurd (hfin.symm.trans hunfinished) nofun
  · exact fun hunfinished => absurd (hfin.symm.trans hunfinished) nofun

lemma Inv.pauseReading (h : Inv t r) (hfin : r.exchange.tx.finished) :
    Inv t r.pauseReading :=
  { h with
    live := fun hsome => h.live (by simpa [Relay.pauseReading] using hsome)
    flowing := fun hunfinished => absurd (hfin.symm.trans hunfinished) nofun }

/-- `ConsumeStreamingInput` with something buffered and reading not paused. Afterwards
nothing is buffered, or the transaction is finished. -/
lemma Inv.consumeStreamingInput (h : Inv t r) (hsome : r.exchange.upstream.isSome)
    (hrun : r.exchange.tx.finished = false → r.exchange.tx.upstreamReadPaused = false)
    (hne : r.input ≠ []) (hlen : r.input.length ≤ 64 * 1024) (answers : List SendResult) :
    ∃ r' go, r.consumeStreamingInput answers = some (r', go) ∧ Rest t r' ∧
      (go → r'.input = [] ∧ r'.exchange.upstream.isSome) := by
  have hopen := h.live hsome
  obtain ⟨hresult, hremaining⟩ := h.parser.open_ hopen
  have htake : 0 < min r.parser.remainingBody r.input.length := by
    have hpos := length_pos_of_ne_nil hne
    omega
  rw [Relay.consumeStreamingInput, if_neg (by simp [hopen]), consumeBody,
    if_neg (by simp [h.parser.headers]), if_neg (by simp [hresult, hopen]), if_neg (by omega)]
  by_cases hfin : r.exchange.tx.finished
  · -- A finished transaction declines the chunk, and the connection stops reading.
    have hdeclined : r.exchange.handleResponseBody
        (r.input.take (min r.parser.remainingBody r.input.length)) answers =
          some (r.exchange, false) := by
      rw [handleResponseBody, if_pos (by simp [hfin])]
    rw [hdeclined]
    refine ⟨r.pauseReading, false, ?_, ⟨h.pauseReading hfin,
      fun hunfinished => absurd (hfin.symm.trans hunfinished) (by simp), hlen⟩, by simp⟩
    simp only [map_some, Bool.not_false, if_true, afterConsume]
    rw [if_neg (by simp), if_pos (by simpa using hne)]
  have hfin' : r.exchange.tx.finished = false := Bool.eq_false_iff.mpr hfin
  set take := min r.parser.remainingBody r.input.length with hdef
  have hlength : (r.input.take take).length = take := by
    rw [length_take]
    omega
  have hchunk : r.input.take take ≠ [] := by
    intro heq
    rw [heq] at hlength
    simp at hlength
    omega
  obtain ⟨y, hsink, hcarried, hbody, hyupstream, hyflowing⟩ := sink_flowing
    h.carried hfin' (h.flowing hfin') (hrun hfin') hchunk (by omega) answers
  obtain ⟨hparser, hremaining', hcomplete⟩ := h.parser.retrieve hopen take
  rw [hsink]
  simp only [map_some, Bool.not_true, Bool.false_eq_true, if_false]
  set r' : Relay := { r with
    parser := r.parser.retrieve take, input := r.input.drop take, exchange := y } with hr'
  have hbalanced : Balanced t r' := by
    refine ⟨hcarried, hparser, ?_, ?_⟩
    · rw [h.received, hbody, append_assoc, take_append_drop]
    · rw [hbody, hremaining', length_append, hlength, ← h.length]
      omega
  rw [afterConsume]
  by_cases hdone : (r.parser.retrieve take).result = .complete
  · rw [if_pos hdone]
    refine ⟨_, _, rfl, hbalanced.finish (fun _ => hcomplete.mp hdone) ?_, by simp⟩
    rw [length_drop]
    omega
  · -- More of the body is expected, so all that was buffered is taken.
    have hincomplete : (r.parser.retrieve take).bodyComplete = false :=
      Bool.eq_false_iff.mpr fun hclosed => hdone (hcomplete.mpr hclosed)
    have hmore := (hparser.open_ hincomplete).2
    have hdrained : r'.input = [] := by
      rw [drop_eq_nil_iff]
      omega
    rw [if_neg hdone, if_neg (by simp [hdrained])]
    refine ⟨r', true, rfl, ⟨⟨hbalanced, fun _ => hincomplete, ?_, hyflowing⟩, fun _ => hdrained,
      by rw [hdrained]; exact Nat.zero_le _⟩, fun _ => ⟨hdrained, hyupstream⟩⟩
    intro hended
    have hclosed := h.success hended
    rw [hopen] at hclosed
    cases hclosed

lemma readingPaused_of_flowing (h : Flowing t r.exchange) :
    r.readingPaused = r.exchange.tx.upstreamReadPaused := by
  obtain ⟨u, hu, -, hsync⟩ := h.upstream
  rw [readingPaused, hu]
  exact hsync

lemma Inv.running (h : Inv t r) (hrun : r.readingPaused = false)
    (hfin : r.exchange.tx.finished = false) : r.exchange.tx.upstreamReadPaused = false :=
  (readingPaused_of_flowing (h.flowing hfin)).symm.trans hrun

lemma Inv.append (h : Inv t r) (bytes : Bytes) : Inv t (r.append bytes) := by
  refine { h with received := ?_ }
  show r.received ++ bytes = bodyOf r.exchange.calls ++ (r.input ++ bytes)
  rw [h.received, append_assoc]

lemma Inv.readLoop (h : Inv t r) (hsome : r.exchange.upstream.isSome)
    (hinput : r.input = []) (results : List (RecvResult × List SendResult)) :
    ∃ r', r.readLoop results = some r' ∧ Rest t r' := by
  have hrest : Rest t r := ⟨h, fun _ => hinput, by rw [hinput]; exact Nat.zero_le _⟩
  induction results generalizing r with
  | nil => exact ⟨r, rfl, hrest⟩
  | cons answer results ih =>
    obtain ⟨result, answers⟩ := answer
    unfold Relay.readLoop
    by_cases hpaused : r.readingPaused
    · rw [if_pos hpaused]
      exact ⟨r, rfl, hrest⟩
    rw [if_neg hpaused]
    cases result with
    | again => exact ⟨r, rfl, hrest⟩
    | eof | failed => exact ⟨_, rfl, h.toBalanced.finish nofun hrest.small⟩
    | data chunk =>
      have hchunk : (r.append chunk.1).input = chunk.1 := by
        show r.input ++ chunk.1 = chunk.1
        rw [hinput, nil_append]
      obtain ⟨r', go, heq, hr', hgo⟩ := (h.append chunk.1).consumeStreamingInput
        hsome (h.running (eq_false_iff.mpr hpaused))
        (by rw [hchunk]; exact chunk.2.1) (by rw [hchunk]; exact chunk.2.2) answers
      dsimp only
      rw [heq]
      cases go with
      | false => exact ⟨r', rfl, hr'⟩
      | true =>
        obtain ⟨hempty, hsome'⟩ := hgo rfl
        exact ih hr'.toInv hsome' hempty hr'

lemma Inv.handleStreamingRead (h : Inv t r) (hsome : r.exchange.upstream.isSome)
    (hsmall : r.input.length ≤ 64 * 1024) (hidle : r.readingPaused →
      r.exchange.tx.finished = false → r.input = [])
    (residual : List SendResult) (results : List (RecvResult × List SendResult)) :
    ∃ r', r.handleStreamingRead residual results = some r' ∧ Rest t r' := by
  rw [Relay.handleStreamingRead]
  by_cases hpaused : r.readingPaused
  · rw [if_pos hpaused]
    exact ⟨r, rfl, h, hidle hpaused, hsmall⟩
  rw [if_neg hpaused]
  by_cases hempty : r.input.isEmpty
  · rw [if_pos hempty]
    exact h.readLoop hsome (isEmpty_iff.mp hempty) results
  rw [if_neg hempty]
  obtain ⟨r', go, heq, hr', hgo⟩ := h.consumeStreamingInput hsome
    (h.running (eq_false_iff.mpr hpaused)) (by simpa using hempty) hsmall residual
  rw [heq]
  cases go with
  | false => exact ⟨r', rfl, hr'⟩
  | true =>
    obtain ⟨hdrained, hsome'⟩ := hgo rfl
    exact hr'.toInv.readLoop hsome' hdrained results

lemma Rest.exchange (h : Rest t r) {y : Exchange} (hq : Quiet r.exchange.downstream y.downstream)
    (hsome : y.upstream.isSome → r.exchange.upstream.isSome)
    (hfin : y.tx.finished = false → r.exchange.tx.finished = false ∧ Flowing t y) :
    Rest t { r with exchange := y } where
  toBalanced := h.quiet hq
  live hy := h.live (hsome hy)
  success := h.success
  flowing hy := (hfin hy).2
  idle hy := h.idle (hfin hy).1
  small := h.small

/-- `HandleWrite` of the client. -/
lemma Rest.handleClientWrite (h : Rest t r) (answers residual : List SendResult)
    (results : List (RecvResult × List SendResult)) :
    ∃ r', r.handleClientWrite answers residual results = some r' ∧ Rest t r' := by
  rcases hwrite : r.exchange.client.handleWrite answers with ⟨d, notice⟩
  set y := { r.exchange with client := d }.deliver notice with hy
  have hdown : y.downstream = r.exchange.downstream.writable answers := by
    rw [hy, downstream_deliver, writable]
    show _ = deliver { r.exchange.downstream with
      client := (r.exchange.client.handleWrite answers).1 }
        (r.exchange.client.handleWrite answers).2
    rw [hwrite]
    rfl
  have hsome := isSome_upstream_deliver { r.exchange with client := d } notice
  have hrest := h.exchange (y := y) (hdown ▸ .writable _ answers) (fun hy' => hsome ▸ hy')
  rw [Relay.handleClientWrite, hwrite]
  dsimp only
  rw [← hy]
  by_cases hfin : r.exchange.tx.finished
  · -- A finished transaction has no callbacks to run.
    have hquiet : y = { r.exchange with client := d } := by
      rcases notice with - | - | -
      · rfl
      · exact if_pos (by simp [hfin])
      · exact if_pos hfin
    refine ⟨{ r with exchange := y }, if_neg ?_, hrest ?_⟩ <;> rw [hquiet]
    · show ¬(r.readingPaused && !r.readingPaused && !r.input.isEmpty)
      cases r.readingPaused <;> simp
    · exact fun hunfinished => absurd (hfin.symm.trans hunfinished) nofun
  have hfin' := eq_false_iff.mpr hfin
  exact ⟨{ r with exchange := y }, if_neg (by simp [h.idle hfin']), hrest fun hunfinished =>
    ⟨hfin', writable_flowing h.carried hfin' (h.flowing hfin') hwrite hunfinished⟩⟩

lemma Rest.clientTerminal (h : Rest t r) (answers : List SendResult) :
    Rest t { r with exchange := r.exchange.clientTerminal answers } := by
  have hdown := downstream_clientTerminal r.exchange answers
  refine h.exchange (hdown ▸ .clientTerminal _ answers) ?_ ?_
  · intro hsome
    rw [isSome_upstream] at hsome ⊢
    rcases lifecycle_clientTerminal (x := r.exchange) answers with heq | heq
    · rwa [heq] at hsome
    · rw [heq, ← lifecycle_handleClientAbort, ← isSome_upstream,
        isSome_upstream_abort, isSome_upstream] at hsome
      exact hsome
  intro hunfinished
  have hfin : (r.exchange.downstream.clientTerminal answers).finished = false :=
    (congrArg finished hdown).symm.trans hunfinished
  have habort : r.exchange.tx.finished = false → r.exchange.client.notifyRequestAbort.2 =
      some .requestAbort := by
    intro hfin'
    have hflow := h.flowing hfin'
    rw [notifyRequestAbort, if_neg (by simp [hflow.client.abortFired])]
    exact if_pos (wired_iff.mp hflow.wired).2
  exact absurd hfin (finished_clientTerminal habort)

lemma Rest.deadline (h : Rest t r) (answers : List SendResult) :
    Rest t { r with exchange := r.exchange.finishGatewayTimeout answers } := by
  have hdown := downstream_finishGatewayTimeout r.exchange answers
  refine h.exchange (hdown ▸ .timeout h.carried.committed) ?_ ?_
  · intro hsome
    rw [isSome_upstream, lifecycle_finishGatewayTimeout] at hsome
    rw [isSome_upstream]
    exact isSome_running_timeout hsome
  · intro hunfinished
    have hfin : (r.exchange.downstream.timeout answers).finished = false :=
      (congrArg finished hdown).symm.trans hunfinished
    exact absurd hfin (finished_timeout h.carried)

lemma isSome_of_reading (h : r.reading) : r.exchange.upstream.isSome := by
  rw [reading] at h
  cases hu : r.exchange.upstream with
  | none =>
    rw [hu] at h
    cases h
  | some u => rfl

lemma Rest.step (h : Rest t r) {r' : Relay} {e : Event} (hstep : r.step e = some r') :
    Rest t r' := by
  rw [Relay.step.eq_def] at hstep
  cases e with
  | readable residual results =>
    obtain ⟨hreading, hread⟩ := ite_none_right_eq_some.mp hstep
    have hsome : r.exchange.upstream.isSome := isSome_of_reading hreading
    obtain ⟨r₁, heq, hr₁⟩ := h.toInv.handleStreamingRead hsome h.small (fun _ => h.idle)
      residual results
    cases heq.symm.trans hread
    exact hr₁
  | writable answers residual results =>
    obtain ⟨-, hwrite⟩ := ite_none_right_eq_some.mp hstep
    obtain ⟨r₁, heq, hr₁⟩ := h.handleClientWrite answers residual results
    cases heq.symm.trans hwrite
    exact hr₁
  | clientTerminal answers =>
    obtain ⟨-, hr'⟩ := ite_none_right_eq_some.mp hstep
    cases hr'
    exact h.clientTerminal answers
  | deadline answers =>
    cases hstep
    exact h.deadline answers

/-! ## The contract -/

/-- What a relay is measured against when its head is committed. -/
def terms (x : Exchange) (parsed : ParsedHeader) (serialized : Bytes) : Terms where
  before := x.client.sent
  head := serialized
  length := bodyLength (x.tx.method == ascii "HEAD") parsed
  flow := x.client.flowControl

/-- The head the parser reports for the request of the transaction. -/
def reportedHead (x : Exchange) (parsed : ParsedHeader) : HttpResponseHead :=
  (({ responseToHead := x.tx.method == ascii "HEAD" } :
    HttpResponseParser).parseHeaders parsed).head

lemma rest_commit {x : Exchange} (hx : x.Ready) {parsed : ParsedHeader} {serialized rest : Bytes}
    (hserialize : (committedHead (reportedHead x parsed)).serialize = some serialized)
    (hrest : rest.length ≤ 64 * 1024) (answers residual : List SendResult)
    (results : List (RecvResult × List SendResult)) :
    ∃ r, commit x parsed rest answers residual results = some r ∧
      Rest (terms x parsed serialized) r := by
  set parser :=
    ({ responseToHead := x.tx.method == ascii "HEAD" } : HttpResponseParser).parseHeaders parsed
    with hparser
  set t := terms x parsed serialized with ht
  obtain ⟨u, hu, hreading, hpaused⟩ := hx.upstream
  have hnoted : (noteHead x parser.head).Ready := by
    refine ⟨hx.unfinished, hx.gatewayUp, hx.alive, hx.client, hx.wired, hx.calls, hx.active,
      hx.running, { u with head := some parser.head }, ?_, hreading, hpaused⟩
    rw [noteHead, hu]
    rfl
  have hhead : (committedHead parser.head).serialize = some t.head := hserialize
  obtain ⟨hcarried, hbody, hsome, hflowing⟩ :=
    head_flowing hnoted hhead rfl rfl answers
  set r : Relay :=
    { exchange := (noteHead x parser.head).handleResponseHead parser.head answers
      parser, input := rest, received := rest } with hr
  have hexpecting : parser.Expecting := expecting_parseHeaders _ _
  have hbalanced : Balanced t r := by
    refine ⟨hcarried, hexpecting, ?_, ?_⟩
    · rw [hbody]
      rfl
    · show (bodyOf r.exchange.calls).length + parser.remainingBody = t.length
      rw [hbody, hparser, remainingBody_parseHeaders]
      exact Nat.zero_add _
  by_cases hdone : parser.bodyComplete
  · exact ⟨r.finish .success, if_pos hdone, hbalanced.finish (fun _ => hdone) hrest⟩
  have hinv : Inv t r :=
    ⟨hbalanced, fun _ => eq_false_iff.mpr hdone, nofun, fun hfin => (hflowing hfin).1⟩
  have hunpaused : r.readingPaused → r.exchange.tx.finished = false → r.input = [] := by
    intro hpaused hfin
    rw [readingPaused_of_flowing (hflowing hfin).1] at hpaused
    exact absurd ((hflowing hfin).2.symm.trans hpaused) nofun
  obtain ⟨r', heq, hr'⟩ := hinv.handleStreamingRead hsome hrest hunpaused residual results
  exact ⟨r', (if_neg hdone).trans heq, hr'⟩

/-- What the client gets, and when reading pauses. -/
structure Flows (t : Terms) (r : Relay) : Prop where
  /-- What was written after the head is the body, in the order in which it was relayed. -/
  bytes : r.exchange.client.sent ++ r.exchange.client.output =
    t.before ++ t.head ++ bodyOf r.exchange.calls
  /-- While the transaction runs, the body is all that was received. -/
  current : r.exchange.tx.finished = false → bodyOf r.exchange.calls = r.received
  /-- When it is finished, the body is a first part of it. -/
  inOrder : bodyOf r.exchange.calls <+: r.received
  /-- A successful exchange relays the declared length. -/
  complete : r.ended = some .success → (bodyOf r.exchange.calls).length = t.length
  /-- A pause ends: the queue is above the low watermark, and `EPOLLOUT` is awaited. -/
  paused : r.exchange.tx.finished = false → r.readingPaused →
    t.flow.lowWatermark < r.exchange.client.queuedResponseBytes ∧
      r.exchange.client.writeInterest
  bounded : r.exchange.client.queuedResponseBytes ≤
    max t.flow.highWatermark t.head.length + 64 * 1024
  /-- No handler throws. -/
  defined : (r.reading → ∀ residual results, (r.step (.readable residual results)).isSome) ∧
    (r.exchange.client.alive → ∀ answers residual results,
      (r.step (.writable answers residual results)).isSome)

lemma Rest.flows (h : Rest t r) : Flows t r where
  bytes := h.carried.bytes
  current hfin := by
    rw [h.received, h.idle hfin, append_nil]
  inOrder := ⟨r.input, h.received.symm⟩
  complete hended := by
    rw [← h.length, h.parser.closed (h.success hended), Nat.add_zero]
  paused hfin hpaused := by
    have hflow := h.flowing hfin
    have hlow := hflow.paused ((readingPaused_of_flowing hflow).symm.trans hpaused)
    -- Bytes are queued, so the client is registered for writing.
    have hwriting : r.exchange.client.writing := by
      rw [← not_eq_false]
      intro hidle
      rw [queuedResponseBytes, hflow.client.idle hidle] at hlow
      exact Nat.not_lt_zero _ hlow
    exact ⟨hlow, (hflow.client.busy hwriting).2⟩
  bounded := h.carried.queue
  defined := by
    constructor
    · intro hreading residual results
      obtain ⟨r', heq, -⟩ := h.toInv.handleStreamingRead (isSome_of_reading hreading) h.small
        (fun _ => h.idle) residual results
      rw [Relay.step, if_pos hreading, heq]
      rfl
    · intro halive answers residual results
      obtain ⟨r', heq, -⟩ := h.handleClientWrite answers residual results
      rw [Relay.step, if_pos halive, heq]
      rfl

/-- **The streaming relay.** A head that is due is committed, and the contract holds in
every state of every run after the commit. -/
theorem flows_of_commit {x : Exchange} (hx : x.Ready) {parsed : ParsedHeader}
    {serialized rest : Bytes}
    (hserialize : (Exchange.committedHead (reportedHead x parsed)).serialize = some serialized)
    (hrest : rest.length ≤ 64 * 1024) (answers residual : List SendResult)
    (results : List (RecvResult × List SendResult)) (es : List Event) :
    ∃ r, commit x parsed rest answers residual results = some r ∧
      Always step (Flows (terms x parsed serialized)) r es := by
  obtain ⟨r, heq, hr⟩ := rest_commit hx hserialize hrest answers residual results
  refine ⟨r, heq, always_mono (fun _ => Rest.flows) ?_⟩
  refine always_of_along ?_ hr (along_of_all (P := fun _ _ => True) (fun _ _ => trivial) r es)
  exact fun s e s' hs _ hstep => hs.step hstep

def writtenLaunch : Launch :=
  { decision := candidate, progress := [(.connected, 0), (.requestWritten, 0)] }

theorem flows_of_commit_threeBytes : ∃ x serialized r,
    start getRequest waitingClient {} true 0 writtenLaunch [] = some x ∧
      (Exchange.committedHead
        (reportedHead x { hasContentLength := true, contentLength := 3 })).serialize =
        some serialized ∧
      commit x { hasContentLength := true, contentLength := 3 } [97] [.again] [.again] [] = some r ∧
      Always step (Flows (terms x { hasContentLength := true, contentLength := 3 } serialized)) r
        [.writable [.sent 99] [] [], .readable [] [(.data ⟨[98, 99], by decide⟩, [.sent 99])]] := by
  obtain ⟨x, hx⟩ : ∃ x, start getRequest waitingClient {} true 0
      writtenLaunch [] = some x := ⟨_, rfl⟩
  have hready : x.Ready := by
    cases hx
    exact ⟨rfl, rfl, rfl, ⟨rfl, rfl, rfl⟩, rfl, rfl, rfl, rfl, _, rfl, rfl, rfl⟩
  obtain ⟨serialized, hserialize⟩ : ∃ serialized, (committedHead (reportedHead x
      { hasContentLength := true, contentLength := 3 })).serialize = some serialized := by
    cases hx
    exact ⟨_, rfl⟩
  have hrest : ([97] : Bytes).length ≤ 64 * 1024 := by decide
  obtain ⟨r, hr, hflows⟩ := flows_of_commit hready hserialize hrest [.again] [.again] []
    [.writable [.sent 99] [] [], .readable [] [(.data ⟨[98, 99], by decide⟩, [.sent 99])]]
  exact ⟨x, serialized, r, hx, hserialize, hr, hflows⟩

end Relay
end AegisGate.Proxy
