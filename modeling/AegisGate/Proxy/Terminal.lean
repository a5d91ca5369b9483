import AegisGate.Proxy.Answer
import AegisGate.Proxy.Guards
import AegisGate.Proxy.Retry

/-!
# The single end of a transaction

Five handlers can end a request, and they are reached from the callbacks of the upstream,
of the client, of the deadlines and of the tasks deferred to the end of a batch. While the
gateway is up a request ends once: its guards are released, its client is answered, and
whatever is called afterwards finds `finished_` set.

An unfinished transaction always has an attempt that runs or a retry that is queued, so it
is not destroyed before it ends.
-/

namespace AegisGate.Proxy
open Lib Http Net Effect Option Lifecycle

/-- The contract of a state of a transaction started with this configuration. -/
structure SingleTerminal (config : TransactionConfig) (x : Exchange) : Prop where
  /-- `finished_` is set once. -/
  ended : x.tx.ledger.trace.countP (· == .ended) = x.tx.finished.toNat
  /-- It is set before the transaction goes away, and until then something is pending. -/
  atEnd : x.destroyed → x.tx.finished
  pending : x.tx.finished = false → x.upstream.isSome ∨ .retry ∈ x.deferred
  inflight : x.tx.ledger.trace.countP (· == .inflightReleased) =
    (config.hasReservation && x.tx.finished).toNat
  metric : x.tx.ledger.trace.countP isMetric = (config.hasMetrics && x.tx.finished).toNat
  log : x.tx.ledger.trace.countP isLog = (config.hasLogCallback && x.tx.finished).toNat
  /-- An attempt takes one slot, and gives it back once. -/
  active : ∀ k, x.tx.ledger.trace.countP (· == .activeAcquired k) ≤ 1 ∧
    x.tx.ledger.trace.countP (· == .activeReleased k) +
      (x.tx.ledger.activeReservation == some k).toNat =
        x.tx.ledger.trace.countP (· == .activeAcquired k)
  /-- Nothing is held after the end. -/
  released : x.tx.finished → x.tx.ledger.reservation = false ∧
    x.tx.ledger.metricRequest = false ∧ x.tx.ledger.activeReservation = none
  serving : x.tx.finished = false → x.client.alive → Serving x.downstream
  answered : x.tx.finished → x.client.alive → Answered x.downstream

/-- An attempt was started or the provider called. -/
def Effect.isLaunch : Effect → Bool
  | providerCalled | started _ => true
  | _ => false

/-- A finished transaction stays finished; it starts no attempt, does not call the provider
and makes no call on its client. -/
def Silent (x : Exchange) (e : Exchange.Event) : Prop :=
  x.tx.finished → ∀ y, x.step e = some y → y.tx.finished ∧ y.calls = x.calls ∧
    y.tx.ledger.trace.countP isLaunch = x.tx.ledger.trace.countP isLaunch

namespace Lifecycle

/-- The course of an unfinished transaction: an attempt runs or a retry is queued, and a
response is committed exactly when the running exchange has reported its head. -/
structure OnCourse (c : Lifecycle) : Prop where
  going : c.tx.finished = false → c.running.isSome ∨ c.queued ≠ 0
  committed : c.tx.finished = false →
    (c.tx.downstreamResponseCommitted ↔ c.running.join.isSome)

variable {c d : Lifecycle}

lemma onCourse_of_finished (hfin : c.tx.finished) : OnCourse c where
  going hf := absurd (hfin.symm.trans hf) (by simp)
  committed hf := absurd (hfin.symm.trans hf) (by simp)

lemma OnCourse.congr (h : OnCourse c) (hfin : d.tx.finished = c.tx.finished)
    (hcommit : d.tx.downstreamResponseCommitted = c.tx.downstreamResponseCommitted)
    (hrun : d.running = c.running) (hqueued : d.queued = c.queued) : OnCourse d := by
  constructor <;> rw [hfin, hrun]
  · rw [hqueued]
    exact h.going
  · rw [hcommit]
    exact h.committed

lemma onCourse_result (c : Lifecycle) (r : UpstreamResult) :
    OnCourse ((c.noteDelivered r).result r) := by
  rcases result_cases (c.noteDelivered r) r with hfin | ⟨-, hretry, heq⟩
  · exact onCourse_of_finished hfin
  · have hcommit := (retryableFailure_spec hretry).1
    rw [heq]
    refine ⟨fun _ => .inr (Nat.succ_ne_zero _), fun _ => ?_⟩
    show (c.noteDelivered r).tx.downstreamResponseCommitted ↔ none.isSome
    rw [hcommit]
    simp

lemma onCourse_endExecute (hcommit : d.tx.downstreamResponseCommitted = false)
    (outcome : StartOutcome) : OnCourse (d.openUpstream.endExecute outcome) := by
  cases outcome with
  | pending =>
    refine ⟨fun _ => .inl rfl, fun _ => ?_⟩
    show d.tx.downstreamResponseCommitted ↔ (some none).join.isSome
    rw [hcommit]
    simp
  | failed failure => exact (onCourse_result _ _).congr rfl rfl rfl rfl
  | raised => exact onCourse_result _ _

lemma OnCourse.runRetry (h : OnCourse c) (hretry : RetryInv c) {n : ℕ}
    (hqueued : c.queued = n + 1) (launch : Launch) :
    OnCourse ({ c with queued := n }.runRetry launch) := by
  by_cases hfin : c.tx.finished
  · rw [Lifecycle.runRetry, if_pos (by exact hfin)]
    exact onCourse_of_finished hfin
  have hfin' : c.tx.finished = false := Bool.eq_false_iff.mpr hfin
  have hrun : c.running = none := (hretry.queued hfin' (by omega)).2.1
  have hcommit : c.tx.downstreamResponseCommitted = false := by
    have hiff := h.committed hfin'
    rw [hrun] at hiff
    simpa using hiff
  rcases runRetry_cases (c := { c with queued := n }) hfin' launch with
    ⟨d, heq, -⟩ | ⟨d, heq, hs, -⟩
  · rw [heq]
    exact onCourse_of_finished (by simp)
  · rw [heq]
    exact (onCourse_endExecute (hs.committed.trans hcommit) launch.outcome).congr rfl rfl rfl rfl

lemma onCourse_handleHead (hup : c.gatewayUp) (head : HttpResponseHead) :
    OnCourse ((c.noteHead head).handleHead head) := by
  rw [handleHead]
  split
  · next hskip =>
    refine onCourse_of_finished ?_
    simpa [noteHead, hup] using hskip
  · exact ⟨fun _ => .inl rfl, fun _ => by simp [commitHead, noteHead]⟩

lemma OnCourse.next {e : Exchange.Event} (h : OnCourse c) (hretry : RetryInv c)
    (hup : c.gatewayUp) (hkept : e ≠ .dropped) (hnext : c.Next e d) : OnCourse d := by
  cases hnext with
  | quiet => exact h
  | head head answers hrun => exact onCourse_handleHead hup head
  | headAbort head answers hrun | abort | timeout now answers =>
    exact onCourse_of_finished (by simp)
  | result r answers hrun hhead => exact onCourse_result c r
  | retry launch answers hqueued => exact h.runRetry hretry hqueued launch
  | cancelled launch answers running hrun hcancels =>
    exact onCourse_of_finished (hretry.cancels (by omega))
  | clientDestroyed | gatewayExpired | destroyed hrun hqueued => exact h.congr rfl rfl rfl rfl
  | dropped hrun => exact absurd rfl hkept

lemma onCourse_begin {config : TransactionConfig}
    (hc : c.tx = (ProxyTransaction.create config).coarse) (launch : Launch) :
    OnCourse (c.begin_ launch) := by
  rcases begin_cases c launch with ⟨d, heq, -, hfin⟩ | ⟨d, heq, hs⟩
  · rw [heq]
    exact onCourse_of_finished hfin
  · rw [heq]
    exact onCourse_endExecute (hs.committed.trans (by rw [hc]; rfl)) launch.outcome

/-- What holds of the life cycle in every state while the gateway is up. -/
structure TerminalInv (config : TransactionConfig) (c : Lifecycle) : Prop where
  gatewayUp : c.gatewayUp
  gone : c.destroyed → c.tx.finished
  retry : RetryInv c
  course : OnCourse c
  guards : GuardInv config c

lemma TerminalInv.next {config : TransactionConfig} {e : Exchange.Event}
    (h : TerminalInv config c) (hlive : c.destroyed = false) (hup : e ≠ .gatewayExpired)
    (hkept : e ≠ .dropped) (hnext : c.Next e d) : TerminalInv config d := by
  have hend : c.running = none → c.queued = 0 → c.tx.finished := by
    intro hrun hqueued
    by_contra hfin
    rcases h.course.going (Bool.eq_false_iff.mpr hfin) with hsome | hne
    · rw [hrun] at hsome
      cases hsome
    · exact hne hqueued
  have hrest : RetryInv d ∧ OnCourse d ∧ GuardInv config d :=
    ⟨h.retry.next hnext, h.course.next h.retry h.gatewayUp hkept hnext,
      h.guards.next hkept (fun _ => hend) hnext⟩
  suffices hd : d.gatewayUp ∧ (d.destroyed → d.tx.finished) from
    ⟨hd.1, hd.2, hrest.1, hrest.2.1, hrest.2.2⟩
  rcases hnext.env with henv | ⟨-, rfl⟩ | ⟨rfl, -⟩ | ⟨rfl, -⟩ |
    ⟨-, rfl, hrun, hqueued⟩
  · refine ⟨(congrArg (·.2.1) henv).trans h.gatewayUp, fun hd => ?_⟩
    have hsame : d.destroyed = c.destroyed := congrArg (·.2.2) henv
    rw [hsame, hlive] at hd
    cases hd
  · refine ⟨h.gatewayUp, fun hd => ?_⟩
    rw [show c.destroyed from hd] at hlive
    cases hlive
  · exact absurd rfl hup
  · exact absurd rfl hkept
  · exact ⟨h.gatewayUp, fun _ => hend hrun hqueued⟩

end Lifecycle

/-! ## After the end -/

lemma launches_releaseReservation (l : Ledger) :
    l.releaseReservation.trace.countP isLaunch = l.trace.countP isLaunch := by
  rw [Ledger.releaseReservation]
  split <;> rfl

lemma launches_releaseActive (l : Ledger) :
    l.releaseActive.trace.countP isLaunch = l.trace.countP isLaunch := by
  rw [Ledger.releaseActive]
  split <;> rfl

lemma launches_resetLink (l : Ledger) :
    l.resetLink.trace.countP isLaunch = l.trace.countP isLaunch := by
  rw [Ledger.resetLink]
  split
  · rfl
  · split <;> rfl

lemma Lifecycle.launches_of_finished {c d : Lifecycle} {e : Exchange.Event}
    (hfin : c.tx.finished) (hnext : c.Next e d) : d.tx.finished ∧
      d.tx.ledger.trace.countP isLaunch = c.tx.ledger.trace.countP isLaunch := by
  have hhead : ∀ head, (c.noteHead head).handleHead head = c.noteHead head := fun head => by
    rw [handleHead, if_pos (by simp [noteHead, hfin])]
  have hdestroy : c.destroy.tx.ledger.trace.countP isLaunch = c.tx.ledger.trace.countP isLaunch :=
    (launches_resetLink _).trans ((launches_releaseActive _).trans (launches_releaseReservation _))
  cases hnext with
  | quiet => exact ⟨hfin, rfl⟩
  | head head answers hrun =>
    rw [hhead]
    exact ⟨hfin, rfl⟩
  | headAbort head answers hrun =>
    rw [hhead, abort, if_pos (by exact hfin)]
    exact ⟨hfin, rfl⟩
  | abort =>
    rw [abort, if_pos hfin]
    exact ⟨hfin, rfl⟩
  | result r answers hrun hrest =>
    rw [result, if_pos (by exact hfin)]
    exact ⟨hfin, rfl⟩
  | timeout now answers =>
    rw [timeout, if_pos hfin]
    exact ⟨hfin, rfl⟩
  | retry launch answers hqueued =>
    rw [runRetry, if_pos (by exact hfin)]
    exact ⟨hfin, rfl⟩
  | cancelled launch answers running hrun hcancels => exact ⟨hfin, rfl⟩
  | clientDestroyed => exact ⟨hfin, rfl⟩
  | gatewayExpired => exact ⟨hfin, rfl⟩
  | dropped hrun | destroyed hrun hqueued => exact ⟨hfin, hdestroy⟩

namespace Exchange
variable {config : TransactionConfig} {client : ClientConnection} {timers : TimerQueue Deadline}
  {now : Instant} {launch : Launch} {answers : List SendResult} {x y : Exchange} {es : List Event}

lemma silent (x : Exchange) (e : Event) : Silent x e := by
  intro hfin y hstep
  obtain ⟨hfin', hlaunches⟩ := launches_of_finished (c := x.lifecycle) hfin
    (step_next hstep).2
  exact ⟨hfin', Downstream.calls_of_finished (d := x.downstream) hfin (step_downstream hstep),
    hlaunches⟩

/-! ## Runs -/

lemma running_of_head {head : HttpResponseHead} (h : x.step (.head head answers) = some y) :
    x.lifecycle.running = some none := by
  obtain ⟨-, h⟩ := ite_none_left_eq_some.mp h
  dsimp only at h
  split at h
  · next u hu =>
    obtain ⟨hnone, h⟩ := ite_none_left_eq_some.mp h
    simpa [lifecycle, hu] using hnone
  · cases h

lemma running_of_body {bytes : Bytes} (h : x.step (.body bytes answers) = some y) :
    x.lifecycle.running.join.isSome := by
  obtain ⟨-, h⟩ := ite_none_left_eq_some.mp h
  obtain ⟨hsome, h⟩ := ite_none_right_eq_some.mp h
  cases hu : x.upstream with
  | none =>
    rw [hu] at hsome
    cases hsome
  | some u => simpa [lifecycle, hu] using hsome

lemma singleTerminal_of_inv (h : x.lifecycle.TerminalInv config) (hclient : x.downstream.Inv) :
    SingleTerminal config x := by
  have hconserved : x.tx.ledger.Conserved config.hasReservation config.hasMetrics x.tx.attempts
      x.tx.finished.toNat := h.guards.conserved
  have hguards : x.tx.ledger.reservation = (config.hasReservation && !x.tx.finished) ∧
      x.tx.ledger.metricRequest = (config.hasMetrics && !x.tx.finished) ∧
      x.tx.ledger.isLogged = (config.hasLogCallback && x.tx.finished) ∧
      (x.tx.finished → x.tx.ledger.activeReservation = none) := by
    cases hfin : x.tx.finished with
    | false =>
      obtain ⟨active, heq⟩ := h.guards.held hfin
      refine ⟨?_, ?_, ?_, nofun⟩
      · exact (congrArg Guards.reservation heq).trans (Bool.and_true _).symm
      · exact (congrArg Guards.metricRequest heq).trans (Bool.and_true _).symm
      · exact (congrArg Guards.isLogged heq).trans (Bool.and_false _).symm
    | true =>
      have heq := h.guards.clear hfin
      refine ⟨?_, ?_, ?_, fun _ => congrArg Guards.active heq⟩
      · exact (congrArg Guards.reservation heq).trans (Bool.and_false _).symm
      · exact (congrArg Guards.metricRequest heq).trans (Bool.and_false _).symm
      · exact (congrArg Guards.isLogged heq).trans (Bool.and_true _).symm
  obtain ⟨hreservation, hmetric, hlogged, hactive⟩ := hguards
  constructor
  case ended => exact hconserved.ended
  case atEnd => exact h.gone
  case pending =>
    intro hfin
    refine (h.course.going hfin).imp (fun hrun => ?_) fun hqueued => ?_
    · simpa [lifecycle] using hrun
    · exact List.count_pos_iff.mp (Nat.pos_of_ne_zero hqueued)
  case inflight =>
    have hcount := hconserved.inflight
    rw [hreservation] at hcount
    revert hcount
    cases config.hasReservation <;> cases x.tx.finished <;> simp
  case metric =>
    have hcount := hconserved.metric
    rw [hmetric] at hcount
    revert hcount
    cases config.hasMetrics <;> cases x.tx.finished <;> simp
  case log => rw [hconserved.log, hlogged]
  case active => exact fun k => ⟨hconserved.once k, hconserved.active k⟩
  case released =>
    intro hfin
    rw [hreservation, hmetric, hfin]
    exact ⟨Bool.and_false _, Bool.and_false _, hactive hfin⟩
  case serving => exact hclient.serving
  case answered => exact hclient.answered

lemma inv_start (hclient : client.Awaiting)
    (hstart : start config client timers true now launch answers = some x) :
    x.lifecycle.TerminalInv config ∧ x.downstream.Inv := by
  have hbegin := lifecycle_begin_ answers hstart
  constructor
  · have henv : x.lifecycle.env = (client.alive, true, false) := by
      rw [hbegin]
      exact env_begin_ _ launch
    refine ⟨congrArg (·.2.1) henv, fun hgone => ?_, ?_, ?_, ?_⟩
    · rw [show x.lifecycle.destroyed = false from congrArg (·.2.2) henv] at hgone
      cases hgone
    · rw [hbegin]
      exact retryInv_begin rfl rfl rfl launch
    · rw [hbegin]
      exact onCourse_begin rfl launch
    · rw [hbegin]
      exact guardInv_begin rfl rfl launch
  have hfresh : Downstream.Inv { client := client.setStreamCallbacks } :=
    ⟨rfl, fun _ _ => ⟨rfl, fun _ => ⟨{ hclient with },
      rfl⟩, nofun⟩, nofun⟩
  rcases downstream_begin_ (x := { tx := .create config, client, timers }) rfl hstart with
    heq | heq | heq
  · rw [heq]
    exact hfresh
  · rw [heq]
    exact hfresh.fail
  · rw [heq]
    exact hfresh.noEndpoint rfl

lemma inv_step {e : Event} (h : x.lifecycle.TerminalInv config ∧ x.downstream.Inv)
    (hup : e ≠ .gatewayExpired) (hkept : e ≠ .dropped) (hstep : x.step e = some y) :
    y.lifecycle.TerminalInv config ∧ y.downstream.Inv := by
  obtain ⟨hlive, hnext⟩ := step_next hstep
  refine ⟨h.1.next hlive hup hkept hnext, h.2.next hup ?_ ?_ (step_downstream hstep)⟩
  · intro head answers heq hfin
    subst heq
    have hiff := h.1.course.committed hfin
    rw [running_of_head hstep] at hiff
    have huncommitted : x.lifecycle.tx.downstreamResponseCommitted = false := by simpa using hiff
    exact huncommitted
  · intro bytes answers heq hfin
    subst heq
    exact (h.1.course.committed hfin).mpr (running_of_body hstep)

/-- **The single terminal.** While the gateway is up, every state of every run keeps the
contract, and a finished transaction is silent. An exchange that is `dropped` never calls back, so
its transaction has no terminal: `CancelAll` drops all exchanges when the gateway goes down, and a
stale `Cancel` of `Worker` drops one by mistake. -/
theorem singleTerminal (hclient : client.Awaiting)
    (hstart : start config client timers true now launch answers = some x)
    (hup : ∀ e ∈ es, e ≠ .gatewayExpired ∧ e ≠ .dropped) :
    Always step (SingleTerminal config) x es ∧ Along step Silent x es := by
  refine ⟨?_, along_of_all silent x es⟩
  have hrun := always_of_along (fun _ _ _ hs he hstep => inv_step hs he.1 he.2 hstep)
    (inv_start hclient hstart) (along_of_forall hup x)
  exact always_mono (fun y hy => singleTerminal_of_inv hy.1 hy.2) hrun

theorem singleTerminal_retryThenAnswer :
    ∃ x, start getRequest waitingClient {} true 0 { decision := candidate } [] = some x ∧
      Always step (SingleTerminal getRequest) x [.result .connectError [],
        .runDeferred { decision := candidate } [], .head { contentLength := some 0 } [],
        .result .success [], .clientTerminal []] ∧
      Along step Silent x [.result .connectError [], .runDeferred { decision := candidate } [],
        .head { contentLength := some 0 } [], .result .success [], .clientTerminal []] := by
  obtain ⟨x, hx⟩ := exists_start
  exact ⟨x, hx, singleTerminal ⟨rfl, rfl, rfl⟩ hx (by simp)⟩

/-! ## Bytes for a client that is gone -/

/-- The worker is up, and it destroys the clients that are closed: `ReapClosedClients` gets those
whose close callback ran. At its shutdown it gives up all exchanges before it destroys the rest. -/
def Reaps (x : Exchange) (e : Event) : Prop :=
  e ≠ .gatewayExpired ∧ e ≠ .dropped ∧ (e = .clientDestroyed → x.client.valid = false)

/-- **Body bytes find their client** under such a worker: a client is closed after the end of its
transaction, so `HandleResponseBody` never comes to use one that was destroyed. -/
theorem body_of_reaps (hclient : client.Awaiting) (halive : client.alive)
    (hstart : start config client timers true now launch answers = some x)
    (hreaps : Along step Reaps x es) :
    Always step (fun y => ∀ bytes answers, (y.handleResponseBody bytes answers).isSome)
      x es := by
  have hinit : x.client.alive := by
    have henv := congrArg (·.env.1) (lifecycle_begin_ answers hstart)
    exact (henv.trans (congrArg Prod.fst (env_begin_ _ launch))).trans halive
  have hrun : Always step (fun y => (y.lifecycle.TerminalInv config ∧ y.downstream.Inv) ∧
      (y.tx.finished = false → y.client.alive)) x es := by
    refine always_of_along ?_ ⟨inv_start hclient hstart, fun _ => hinit⟩ hreaps
    rintro s e t ⟨hs, hfound⟩ ⟨hup, hkept, hclosed⟩ hstep
    refine ⟨inv_step hs hup hkept hstep, fun hfin => ?_⟩
    have hbefore : s.tx.finished = false := by
      by_contra hfinished
      have hstays := (silent s e (Bool.not_eq_false _ ▸ hfinished) t hstep).1
      rw [hfin] at hstays
      cases hstays
    rcases (step_next hstep).2.env with
      henv | ⟨rfl, -⟩ | ⟨rfl, -⟩ | ⟨rfl, -⟩ | ⟨-, hdestroy, -⟩
    · exact (congrArg Prod.fst henv).trans (hfound hbefore)
    · have hvalid := (hs.2.serving hbefore (hfound hbefore)).valid
      rw [show s.downstream.client.valid = false from hclosed rfl] at hvalid
      cases hvalid
    · exact absurd rfl hup
    · exact absurd rfl hkept
    · exact (congrArg alive hdestroy).trans (hfound hbefore)
  refine always_mono (fun y hy bytes answers => ?_) hrun
  rw [handleResponseBody]
  split
  · rfl
  next hgoes =>
  have hfin : y.tx.finished = false := by
    rw [Bool.or_eq_true, not_or] at hgoes
    exact Bool.eq_false_iff.mpr hgoes.1
  rw [if_neg (by simp [hy.2 hfin])]
  split <;> rfl

end Exchange
end AegisGate.Proxy
