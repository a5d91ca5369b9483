import AegisGate.Proxy.Lifecycle

/-!
# How many attempts a request makes

`RetryableFailure` asks for `retries_ == 0`, and `StartRetry` counts the retry after
`StartUpstream` has returned. A replacement attempt that fails inside `StartUpstream`
is therefore judged with the counter still at zero, and a third attempt is queued: with
a retry budget of one a request can start three attempts.

The bound holds in every run in which no replacement attempt fails that way. What makes
a second attempt admissible holds in every run: the method is `GET` or `HEAD`, the last
result was a connection-level failure, and no head was committed.
-/

namespace AegisGate.Proxy
open Lib Http Net Health ProxyTransaction Bool List Lifecycle

namespace Effect

def isMilestone : Effect → Bool
  | started _ | delivered .. | committed => true
  | _ => false

def isStarted : Effect → Bool
  | started _ => true
  | _ => false

end Effect

namespace Ledger

/-- The milestones of the history, newest first. -/
def journal (l : Ledger) : List Effect := l.trace.filter Effect.isMilestone

section
variable (l : Ledger)

lemma journal_emit (e : Effect) :
    (l.emit e).journal = if e.isMilestone then e :: l.journal else l.journal := by
  simp only [journal, emit, filter_cons]

@[simp] lemma journal_releaseReservation : l.releaseReservation.journal = l.journal := by
  unfold releaseReservation
  split
  · exact journal_emit _ _
  · rfl

@[simp] lemma journal_releaseActive : l.releaseActive.journal = l.journal := by
  unfold releaseActive
  split
  · rfl
  · exact journal_emit _ _

@[simp] lemma journal_acquireActive (attempt : ℕ) :
    (l.acquireActive attempt).journal = l.journal :=
  (journal_emit _ _).trans (journal_releaseActive l)

@[simp] lemma journal_completeMetric (status : ℕ) (upstream : Option Config.Endpoint)
    (reason : TerminalReason) : (l.completeMetric status upstream reason).journal = l.journal := by
  unfold completeMetric
  split
  · exact journal_emit _ _
  · rfl

@[simp] lemma journal_logTerminal (status : ℕ) (reason : TerminalReason) (retries : ℕ) :
    (l.logTerminal status reason retries).journal = l.journal := by
  unfold logTerminal
  split
  · rfl
  · exact journal_emit _ _

@[simp] lemma journal_publish (link : BreakerLink) (success : Bool) :
    (l.publish link success).journal = l.journal := by
  unfold publish
  split
  · rfl
  · exact journal_emit _ _

@[simp] lemma journal_account (success : Bool) : (l.account success).journal = l.journal := by
  unfold account
  split
  · rfl
  · split
    · rfl
    · exact journal_publish _ _ _

@[simp] lemma journal_resetLink : l.resetLink.journal = l.journal := by
  unfold resetLink
  split
  · rfl
  · split
    · rfl
    · exact journal_emit _ _

@[simp] lemma journal_installLink (attempt : ℕ) (link : Option (ℕ × ℕ × AttemptPermit)) :
    (l.installLink attempt link).journal = l.journal := by
  unfold installLink
  split
  · rfl
  · exact journal_emit _ _

end
end Ledger

/-! ## The course of a transaction -/

namespace Lifecycle

/-- What only a new attempt, a result or a commit changes. -/
structure SameCourse (c d : Lifecycle) : Prop where
  journal : d.tx.ledger.journal = c.tx.ledger.journal
  attempts : d.tx.attempts = c.tx.attempts
  retries : d.tx.retries = c.tx.retries
  method : d.tx.method = c.tx.method
  budget : d.tx.policy.retryBudget = c.tx.policy.retryBudget
  hasProvider : d.tx.hasProvider = c.tx.hasProvider
  committed : d.tx.downstreamResponseCommitted = c.tx.downstreamResponseCommitted

namespace SameCourse
variable {c d e : Lifecycle}

lemma refl (c : Lifecycle) : SameCourse c c := ⟨rfl, rfl, rfl, rfl, rfl, rfl, rfl⟩

lemma trans (h : SameCourse c d) (k : SameCourse d e) : SameCourse c e where
  journal := k.journal.trans h.journal
  attempts := k.attempts.trans h.attempts
  retries := k.retries.trans h.retries
  method := k.method.trans h.method
  budget := k.budget.trans h.budget
  hasProvider := k.hasProvider.trans h.hasProvider
  committed := k.committed.trans h.committed

lemma of_tx (h : SameCourse c d) (htx : e.tx = d.tx) : SameCourse c e := by
  refine h.trans ?_
  constructor <;> rw [htx]

lemma book (c : Lifecycle) {f : Ledger → Ledger} (hf : ∀ l, (f l).journal = l.journal) :
    SameCourse c (c.book f) := ⟨hf _, rfl, rfl, rfl, rfl, rfl, rfl⟩

lemma end_ (c : Lifecycle) : SameCourse c c.end_ :=
  ⟨Ledger.journal_emit _ _, rfl, rfl, rfl, rfl, rfl, rfl⟩

lemma note (c : Lifecycle) {effect : ℕ → Effect} (heffect : ∀ k, (effect k).isMilestone = false) :
    SameCourse c (c.note effect) := by
  unfold Lifecycle.note
  split
  · refine book c fun l => ?_
    rw [Ledger.journal_emit, heffect]
    rfl
  · exact refl c

lemma conclude (c : Lifecycle) (status : ℕ) (truncated reason : TerminalReason) :
    SameCourse c (c.conclude status truncated reason) := by
  unfold Lifecycle.conclude
  split
  · exact book c fun l => by simp
  · dsimp only
    split
    · exact (book c fun l => by simp).trans (book _ fun l => by simp)
    · exact book c fun l => by simp

lemma release (c : Lifecycle) : SameCourse c (c.end_.book (·.releaseReservation.releaseActive)) :=
  (end_ c).trans (book _ fun l => by simp)

lemma abort (c : Lifecycle) : SameCourse c c.abort := by
  unfold Lifecycle.abort
  split
  · exact refl c
  · have hsettle : ∀ l, (c.settleAbort l).journal = l.journal := fun l => by
      simp [settleAbort]
    exact (((note c fun _ => rfl).trans (end_ _)).trans (book _ hsettle)).of_tx rfl

lemma fail (c : Lifecycle) : SameCourse c c.fail := by
  unfold Lifecycle.fail
  split
  · exact refl c
  · exact (release c).trans (conclude _ _ _ _)

lemma timeout (c : Lifecycle) : SameCourse c c.timeout := by
  unfold Lifecycle.timeout
  split
  · exact refl c
  · refine SameCourse.trans ?_ (conclude _ _ _ _)
    exact ((note c fun _ => rfl).trans (release _)).trans ⟨rfl, rfl, rfl, rfl, rfl, rfl, rfl⟩

lemma noEndpoint (c : Lifecycle) : SameCourse c c.noEndpoint := by
  unfold Lifecycle.noEndpoint
  split
  · exact refl c
  · exact (end_ c).trans (book _ fun l => by simp)

lemma succeed (c : Lifecycle) : SameCourse c c.succeed := by
  refine (release c).trans ?_
  unfold Lifecycle.succeed Lifecycle.concludeSuccess
  split
  · exact (book _ fun l => by simp).trans (book _ fun l => by simp)
  · exact book _ fun l => by simp

lemma detach (c : Lifecycle) : SameCourse c c.detach := ⟨rfl, rfl, rfl, rfl, rfl, rfl, rfl⟩

lemma queueRetry (c : Lifecycle) : SameCourse c c.queueRetry := by
  have hsettle : ∀ l, (c.settleRetry l).journal = l.journal := by
    intro l
    unfold settleRetry
    split <;> simp
  exact (book c hsettle).of_tx rfl

lemma result (c : Lifecycle) (r : UpstreamResult) : SameCourse c (c.result r) := by
  unfold Lifecycle.result
  split
  · exact refl c
  · split
    · exact (detach c).trans (queueRetry _)
    · split
      · exact (detach c).trans (fail _)
      · exact (detach c).trans (succeed _)

lemma destroy (c : Lifecycle) : SameCourse c c.destroy :=
  (book c (f := fun l => { l.releaseReservation.releaseActive.resetLink with
    metricRequest := false }) fun l => by
      show l.releaseReservation.releaseActive.resetLink.journal = _
      simp).trans ⟨rfl, rfl, rfl, rfl, rfl, rfl, rfl⟩

lemma beginAttempt (c : Lifecycle) : SameCourse c c.beginAttempt :=
  ⟨Ledger.journal_resetLink _, rfl, rfl, rfl, rfl, rfl, rfl⟩

lemma selectAttempt (c : Lifecycle) (decision : AttemptDecision) :
    SameCourse c (c.selectAttempt decision).1 := by
  unfold Lifecycle.selectAttempt
  split
  · have hcall : SameCourse c (c.book (·.emit .providerCalled)) :=
      book c fun l => Ledger.journal_emit _ _
    split
    · exact hcall.trans ⟨rfl, rfl, rfl, rfl, rfl, rfl, rfl⟩
    · next selection _ =>
      refine hcall.trans ⟨?_, rfl, rfl, rfl, rfl, rfl, rfl⟩
      show (Ledger.acquireActive _ _).journal = _
      simp
  · exact ⟨rfl, rfl, rfl, rfl, rfl, rfl, rfl⟩

end SameCourse
end Lifecycle

/-! ## The statement -/

/-- The newest result in the journal. -/
def lastResult (journal : List Effect) : Option UpstreamResult :=
  journal.findSome? fun
    | .delivered _ result _ => some result
    | _ => none

/-- The policy allows another attempt. -/
def MayRetry (method : Bytes) (journal : List Effect) : Prop :=
  (method = ascii "GET" ∨ method = ascii "HEAD") ∧ Effect.committed ∉ journal ∧
    ∃ result, lastResult journal = some result ∧ retryableResult result

/-- Every attempt but the first was started where another attempt may follow. -/
def RetriesJustified (method : Bytes) : List Effect → Prop
  | [] => True
  | .started _ :: earlier =>
    ((∃ k, Effect.started k ∈ earlier) → MayRetry method earlier) ∧ RetriesJustified method earlier
  | _ :: earlier => RetriesJustified method earlier

/-- The bound on the attempts of a request, and what justifies each of them. -/
def RetryBound (x : Exchange) : Prop :=
  x.tx.ledger.journal.countP Effect.isStarted ≤ 1 + x.tx.policy.retryBudget ∧
    RetriesJustified x.tx.method x.tx.ledger.journal

/-- The attempt fails inside `StartUpstream` with a failure that may be retried. -/
def StartOutcome.failsAtOnce : StartOutcome → Bool
  | .pending => false
  | .failed failure => retryableResult failure.result
  | .raised => true

/-- If the event starts a replacement attempt, the attempt does not fail retryably inside
`StartUpstream`. The deferred tasks of an unfinished transaction are retries. -/
def DelayedFailure (x : Exchange) (e : Exchange.Event) : Prop :=
  ∀ launch answers, e = .runDeferred launch answers → x.tx.finished = false →
    launch.decision.selection.isSome → launch.outcome.failsAtOnce = false

namespace Lifecycle

structure RetryInv (c : Lifecycle) : Prop where
  count : c.tx.ledger.journal.countP Effect.isStarted = c.tx.attempts
  justified : RetriesJustified c.tx.method c.tx.ledger.journal
  committed : Effect.committed ∈ c.tx.ledger.journal → c.tx.downstreamResponseCommitted
  cancels : c.cancels ≠ 0 → c.tx.finished
  /-- No retry is queued while an attempt runs. -/
  running : c.tx.finished = false → c.running.isSome → c.queued = 0
  /-- At most one retry is queued, and it may run. -/
  queued : c.tx.finished = false → c.queued ≠ 0 → c.queued = 1 ∧ c.running = none ∧
    c.tx.policy.retryBudget ≠ 0 ∧ MayRetry c.tx.method c.tx.ledger.journal

variable {c d : Lifecycle}

lemma RetryInv.finish (h : RetryInv c) (hs : SameCourse c d) (hfin : d.tx.finished) :
    RetryInv d where
  count := by rw [hs.journal, hs.attempts]; exact h.count
  justified := by rw [hs.journal, hs.method]; exact h.justified
  committed := by rw [hs.journal, hs.committed]; exact h.committed
  cancels := fun _ => hfin
  running := fun hf => by simp [hfin] at hf
  queued := fun hf => by simp [hfin] at hf

lemma retryableFailure_spec {t : ProxyTransaction} {r : UpstreamResult}
    (h : t.retryableFailure r) :
    t.downstreamResponseCommitted = false ∧ t.retries = 0 ∧ t.policy.retryBudget ≠ 0 ∧
      (t.method = ascii "GET" ∨ t.method = ascii "HEAD") ∧
      retryableResult r := by
  simp only [retryableFailure, retryableMethod, and_eq_true,
    not_eq_true', beq_iff_eq, bne_iff_ne, ne_eq, or_eq_true] at h
  obtain ⟨⟨⟨⟨⟨hopen, hretries⟩, hbudget⟩, hmethod⟩, hresult⟩, -⟩ := h
  exact ⟨hopen, hretries, hbudget, hmethod, hresult⟩

/-- A result ends the request, or it queues a retry. -/
lemma result_cases (c : Lifecycle) (r : UpstreamResult) : (c.result r).tx.finished ∨
    c.tx.finished = false ∧ c.tx.retryableFailure r ∧ c.result r = c.detach.queueRetry := by
  rw [result]
  split
  · next hfin => exact .inl hfin
  next hfin =>
  split
  · next hretry => exact .inr ⟨eq_false_iff.mpr hfin, hretry, rfl⟩
  · split <;> exact .inl (by simp)

lemma journal_noteDelivered (c : Lifecycle) (r : UpstreamResult) :
    (c.noteDelivered r).tx.ledger.journal =
      .delivered c.tx.attempt r c.running.join :: c.tx.ledger.journal := rfl

lemma journal_openUpstream (c : Lifecycle) :
    c.openUpstream.tx.ledger.journal = .started c.tx.attempts :: c.tx.ledger.journal := rfl

lemma RetryInv.noteDelivered (h : RetryInv c) (hrun : c.running.isSome) (r : UpstreamResult) :
    RetryInv (c.noteDelivered r) :=
  { h with
    committed := fun hmem => by
      rw [journal_noteDelivered] at hmem
      exact h.committed (by simpa using hmem)
    running := fun _ hsome => by cases hsome
    queued := fun hf hq => absurd (h.running hf hrun) hq }

lemma RetryInv.result (h : RetryInv c) (hrun : c.running.isSome) (r : UpstreamResult) :
    RetryInv ((c.noteDelivered r).result r) := by
  have hd := h.noteDelivered hrun r
  have hcourse := SameCourse.result (c.noteDelivered r) r
  rcases result_cases (c.noteDelivered r) r with hfin | ⟨hfin, hretry, heq⟩
  · exact hd.finish hcourse hfin
  · obtain ⟨hopen, -, hbudget, hmethod, hresult⟩ := retryableFailure_spec hretry
    have hmay : MayRetry (c.noteDelivered r).tx.method (c.noteDelivered r).tx.ledger.journal := by
      refine ⟨hmethod, fun hmem => ?_, r, rfl, hresult⟩
      rw [hd.committed hmem] at hopen
      cases hopen
    have hqueued : c.queued = 0 := h.running hfin hrun
    rw [heq] at hcourse ⊢
    exact {
      count := by rw [hcourse.journal, hcourse.attempts]; exact hd.count
      justified := by rw [hcourse.journal, hcourse.method]; exact hd.justified
      committed := by rw [hcourse.journal, hcourse.committed]; exact hd.committed
      cancels := hd.cancels
      running := fun _ hsome => by cases hsome
      queued := fun _ _ => by
        rw [hcourse.journal, hcourse.method, hcourse.budget]
        refine ⟨?_, rfl, hbudget, hmay⟩
        show c.queued + 1 = 1
        rw [hqueued] }

lemma RetryInv.openUpstream (h : RetryInv c) (hfin : c.tx.finished = false)
    (hqueued : c.queued = 0)
    (hmay : c.tx.attempts ≠ 0 → MayRetry c.tx.method c.tx.ledger.journal) :
    RetryInv c.openUpstream where
  count := by
    rw [journal_openUpstream, countP_cons_of_pos (by rfl), h.count]
    rfl
  justified := by
    refine ⟨fun hex => hmay ?_, h.justified⟩
    obtain ⟨k, hk⟩ := hex
    rw [← h.count]
    exact (countP_pos_iff.mpr ⟨_, hk, rfl⟩).ne'
  committed := fun hmem => by
    rw [journal_openUpstream] at hmem
    exact h.committed (by simpa using hmem)
  cancels := fun hc => by
    rw [h.cancels hc] at hfin
    cases hfin
  running := fun _ _ => hqueued
  queued := fun _ hq => absurd hqueued hq

/-- The end of `Execute` keeps the invariant. -/
lemma RetryInv.endExecute (h : RetryInv c) (hrun : c.running.isSome) (outcome : StartOutcome) :
    RetryInv (c.endExecute outcome) := by
  cases outcome with
  | pending => exact { h with }
  | failed failure =>
    have hr := h.result hrun failure.result
    exact { hr with }
  | raised => exact h.result hrun .connectError

/-- What `StartUpstream` leaves alone while it chooses an endpoint. -/
structure SameState (c d : Lifecycle) : Prop extends SameCourse c d where
  finished : d.tx.finished = c.tx.finished
  running : d.running = c.running
  queued : d.queued = c.queued
  cancels : d.cancels = c.cancels
  alive : d.alive = c.alive

lemma SameState.trans {e : Lifecycle} (h : SameState c d) (k : SameState d e) : SameState c e where
  toSameCourse := h.toSameCourse.trans k.toSameCourse
  finished := k.finished.trans h.finished
  running := k.running.trans h.running
  queued := k.queued.trans h.queued
  cancels := k.cancels.trans h.cancels
  alive := k.alive.trans h.alive

lemma SameState.endpoint (c : Lifecycle) (endpoint : Option Config.Endpoint) :
    SameState c { c with tx := { c.tx with endpoint } } :=
  ⟨⟨rfl, rfl, rfl, rfl, rfl, rfl, rfl⟩, rfl, rfl, rfl, rfl, rfl⟩

lemma SameState.select (c : Lifecycle) (decision : AttemptDecision) :
    SameState c (c.beginAttempt.selectAttempt decision).1 := by
  refine ⟨(SameCourse.beginAttempt c).trans (.selectAttempt _ decision), ?_, ?_, ?_, ?_, ?_⟩ <;>
    · unfold selectAttempt
      split
      · split <;> rfl
      · rfl

/-- An attempt that is started: the state in which `Execute` begins. -/
lemma startUpstream_cases (c : Lifecycle) (launch : Launch) :
    (∃ d, c.startUpstream launch = (d, false) ∧ SameCourse c d) ∨
    ∃ d, c.startUpstream launch = (d.openUpstream.endExecute launch.outcome, true) ∧
      SameState c d ∧ (c.tx.hasProvider → launch.decision.selection.isSome) := by
  unfold startUpstream
  split
  · exact .inl ⟨c, rfl, SameCourse.refl c⟩
  have hs := SameState.select c launch.decision
  split
  · next d heq =>
    rw [heq] at hs
    exact .inl ⟨d, rfl, hs.toSameCourse⟩
  next d heq =>
  rw [heq] at hs
  refine .inr ⟨d, rfl, hs, fun hprovider => ?_⟩
  unfold selectAttempt at heq
  rw [if_pos (show c.beginAttempt.tx.hasProvider from hprovider)] at heq
  split at heq
  · cases heq
  · next selection hsel => simp [hsel]

lemma RetryInv.course (h : RetryInv c) (hs : SameState c d) : RetryInv d where
  count := by rw [hs.journal, hs.attempts]; exact h.count
  justified := by rw [hs.journal, hs.method]; exact h.justified
  committed := by rw [hs.journal, hs.committed]; exact h.committed
  cancels := by rw [hs.cancels, hs.finished]; exact h.cancels
  running := by rw [hs.finished, hs.running, hs.queued]; exact h.running
  queued := by
    rw [hs.finished, hs.running, hs.queued, hs.budget, hs.method, hs.journal]
    exact h.queued

lemma runRetry_cases (hfin : c.tx.finished = false) (launch : Launch) :
    (∃ d, c.runRetry launch = d.fail ∧ SameCourse c d) ∨
    ∃ d, c.runRetry launch = (d.openUpstream.endExecute launch.outcome).countRetry ∧
      SameState c d ∧ (c.tx.hasProvider → launch.decision.selection.isSome) := by
  rcases runRetry_eq hfin launch with heq | ⟨endpoint, heq⟩
  · exact .inl ⟨c, heq, .refl c⟩
  rcases startUpstream_cases { c with tx := { c.tx with endpoint } } launch with
    ⟨d, hd, hs⟩ | ⟨d, hd, hs, hsel⟩ <;> rw [hd] at heq
  · exact .inl ⟨d, heq, (SameState.endpoint c endpoint).toSameCourse.trans hs⟩
  · exact .inr ⟨d, heq, (SameState.endpoint c endpoint).trans hs, hsel⟩

lemma RetryInv.dequeue (h : RetryInv c) {n : ℕ} (hqueued : c.queued = n + 1)
    (hfin : c.tx.finished = false) :
    n = 0 ∧ RetryInv { c with queued := n } ∧ c.tx.policy.retryBudget ≠ 0 ∧
      MayRetry c.tx.method c.tx.ledger.journal := by
  obtain ⟨hone, -, hbudget, hmay⟩ := h.queued hfin (by omega)
  obtain rfl : n = 0 := by omega
  exact ⟨rfl, { h with running := fun _ _ => rfl, queued := fun _ hq => absurd rfl hq },
    hbudget, hmay⟩

lemma RetryInv.runRetry (h : RetryInv c) {n : ℕ} (hqueued : c.queued = n + 1) (launch : Launch) :
    RetryInv ({ c with queued := n }.runRetry launch) := by
  by_cases hfin : c.tx.finished
  · rw [Lifecycle.runRetry, if_pos (by exact hfin)]
    exact h.finish ((SameCourse.refl c).of_tx rfl) hfin
  have hfin' : c.tx.finished = false := eq_false_iff.mpr hfin
  obtain ⟨rfl, hb, -, hmay⟩ := h.dequeue hqueued hfin'
  rcases runRetry_cases (c := { c with queued := 0 }) hfin' launch with
    ⟨d, heq, hs⟩ | ⟨d, heq, hs, -⟩
  · rw [heq]
    exact hb.finish (hs.trans (.fail d)) (by simp)
  rw [heq]
  have hstart : RetryInv (d.openUpstream.endExecute launch.outcome) := by
    refine RetryInv.endExecute ?_ rfl launch.outcome
    refine (hb.course hs).openUpstream (hs.finished.trans hfin') hs.queued fun _ => ?_
    rw [hs.method, hs.journal]
    exact hmay
  exact { hstart with }

lemma retryInv_of_fresh (hjournal : c.tx.ledger.journal = []) (hattempts : c.tx.attempts = 0)
    (hqueued : c.queued = 0) (hcancels : c.cancels = 0) : RetryInv c where
  count := by rw [hjournal, hattempts]; rfl
  justified := by rw [hjournal]; trivial
  committed := by simp [hjournal]
  cancels := fun hc => absurd hcancels hc
  running := fun _ _ => hqueued
  queued := fun _ hq => absurd hqueued hq

lemma begin_cases (c : Lifecycle) (launch : Launch) :
    (∃ d, c.begin_ launch = d ∧ SameCourse c d ∧ d.tx.finished) ∨
    ∃ d, c.begin_ launch = d.openUpstream.endExecute launch.outcome ∧ SameState c d := by
  unfold begin_
  split
  · exact .inl ⟨_, rfl, .end_ c, rfl⟩
  have hbook : SameCourse c (c.book ({ · with metricRequest := c.tx.hasMetrics })) :=
    .book c fun _ => rfl
  rcases startUpstream_cases (c.book ({ · with metricRequest := c.tx.hasMetrics })) launch with
    ⟨d, heq, hs⟩ | ⟨d, heq, hs, -⟩
  · rw [heq]
    exact .inl ⟨_, rfl, (hbook.trans hs).trans (.noEndpoint d), by simp⟩
  · rw [heq]
    exact .inr ⟨d, rfl, SameState.trans ⟨hbook, rfl, rfl, rfl, rfl, rfl⟩ hs⟩

lemma retryInv_begin {config : TransactionConfig} (hc : c.tx = (create config).coarse)
    (hqueued : c.queued = 0) (hcancels : c.cancels = 0) (launch : Launch) :
    RetryInv (c.begin_ launch) := by
  have hinv : RetryInv c := retryInv_of_fresh (by rw [hc]; rfl) (by rw [hc]; rfl) hqueued hcancels
  rcases begin_cases c launch with ⟨d, heq, hs, hfin⟩ | ⟨d, heq, hs⟩
  · rw [heq]
    exact hinv.finish hs hfin
  rw [heq]
  refine RetryInv.endExecute ?_ rfl launch.outcome
  refine (hinv.course hs).openUpstream ?_ (hs.queued.trans hqueued) fun hne => ?_
  · rw [hs.finished, hc]
    rfl
  · exact absurd (hs.attempts.trans (by rw [hc]; rfl)) hne

lemma RetryInv.noteHead (h : RetryInv c) (hrun : c.running = some none) (head : HttpResponseHead) :
    RetryInv ((c.noteHead head).handleHead head) := by
  have hquiet : RetryInv (c.noteHead head) :=
    { h with
      running := fun hf _ => h.running hf (by simp [hrun])
      queued := fun hf hq => absurd (h.running hf (by simp [hrun])) hq }
  unfold handleHead
  split
  · exact hquiet
  · exact { hquiet with
      committed := fun _ => rfl
      queued := fun hf hq => absurd (h.running hf (by simp [hrun])) hq }

lemma RetryInv.next {e : Exchange.Event} (h : RetryInv c) (hnext : c.Next e d) : RetryInv d := by
  cases hnext with
  | quiet => exact h
  | head head answers hrun => exact h.noteHead hrun head
  | headAbort head answers hrun => exact (h.noteHead hrun head).finish (.abort _) (by simp)
  | abort => exact h.finish (.abort c) (by simp)
  | result r answers hrun _ => exact h.result hrun r
  | timeout now answers => exact h.finish (.timeout c) (by simp)
  | retry launch answers hqueued => exact h.runRetry hqueued launch
  | cancelled launch answers running _ hcancels =>
    exact h.finish ((SameCourse.refl c).of_tx rfl) (h.cancels (by omega))
  | clientDestroyed | gatewayExpired => exact { h with }
  | dropped hrun =>
    have h' : RetryInv { c with running := none } :=
      { h with running := nofun, queued := fun hf hq => absurd (h.running hf hrun) hq }
    exact h'.course ⟨.destroy _, rfl, rfl, rfl, rfl, rfl⟩
  | destroyed hrun hqueued => exact h.course ⟨.destroy c, rfl, rfl, rfl, rfl, rfl⟩

/-! ## The bound -/

/-- The counter of retries keeps up with the attempts. -/
structure Bounded (c : Lifecycle) : Prop where
  hasProvider : c.tx.hasProvider
  attempts : c.tx.attempts ≤ 1 + c.tx.policy.retryBudget
  counted : c.tx.finished = false → c.tx.attempts = 1 + c.tx.retries
  fresh : c.tx.finished = false → c.queued ≠ 0 → c.tx.retries = 0

lemma Bounded.finish (h : Bounded c) (hs : SameCourse c d) (hfin : d.tx.finished) :
    Bounded d where
  hasProvider := hs.hasProvider.trans h.hasProvider
  attempts := by rw [hs.attempts, hs.budget]; exact h.attempts
  counted := fun hf => by simp [hfin] at hf
  fresh := fun hf => by simp [hfin] at hf

lemma Bounded.course (h : Bounded c) (hs : SameCourse c d)
    (hfin : d.tx.finished = c.tx.finished) (hqueued : d.queued = c.queued) : Bounded d where
  hasProvider := hs.hasProvider.trans h.hasProvider
  attempts := by rw [hs.attempts, hs.budget]; exact h.attempts
  counted := by rw [hfin, hs.attempts, hs.retries]; exact h.counted
  fresh := by rw [hfin, hqueued, hs.retries]; exact h.fresh

/-- An attempt that does not fail retryably inside `Execute` runs on or ends the request. -/
lemma endExecute_cases (c : Lifecycle) {outcome : StartOutcome}
    (h : outcome.failsAtOnce = false) :
    outcome = .pending ∨ (c.endExecute outcome).tx.finished := by
  cases outcome with
  | pending => exact .inl rfl
  | raised => cases h
  | failed failure =>
    rcases result_cases (c.noteDelivered failure.result) failure.result with hfin | ⟨-, hretry, -⟩
    · exact .inr hfin
    · cases h.symm.trans (retryableFailure_spec hretry).2.2.2.2

lemma Bounded.result (h : Bounded c) (r : UpstreamResult) :
    Bounded ((c.noteDelivered r).result r) := by
  have hcourse := SameCourse.result (c.noteDelivered r) r
  have hd : Bounded (c.noteDelivered r) := { h with }
  rcases result_cases (c.noteDelivered r) r with hfin | ⟨hfin, hretry, -⟩
  · exact hd.finish hcourse hfin
  · obtain ⟨-, hretries, -⟩ := retryableFailure_spec hretry
    refine ⟨hcourse.hasProvider.trans h.hasProvider, ?_, fun _ => ?_, fun _ _ => ?_⟩
    · rw [hcourse.attempts, hcourse.budget]
      exact h.attempts
    · rw [hcourse.attempts, hcourse.retries]
      exact h.counted hfin
    · rw [hcourse.retries]
      exact hretries

/-- The end of `Execute` does not count anything. -/
lemma endExecute_counts (c : Lifecycle) (outcome : StartOutcome) :
    (c.endExecute outcome).tx.attempts = c.tx.attempts ∧
      (c.endExecute outcome).tx.retries = c.tx.retries ∧
      (c.endExecute outcome).tx.policy.retryBudget = c.tx.policy.retryBudget ∧
      (c.endExecute outcome).tx.hasProvider = c.tx.hasProvider := by
  cases outcome with
  | pending => exact ⟨rfl, rfl, rfl, rfl⟩
  | failed failure =>
    have h := SameCourse.result (c.noteDelivered failure.result) failure.result
    exact ⟨h.attempts, h.retries, h.budget, h.hasProvider⟩
  | raised =>
    have h := SameCourse.result (c.noteDelivered .connectError) .connectError
    exact ⟨h.attempts, h.retries, h.budget, h.hasProvider⟩

lemma Bounded.fields (h : Bounded c) (htx : d.tx = c.tx) (hqueued : d.queued = c.queued) :
    Bounded d := h.course ((SameCourse.refl c).of_tx htx) (by rw [htx]) hqueued

lemma Bounded.runRetry (h : Bounded c) (hinv : RetryInv c) {n : ℕ} (hqueued : c.queued = n + 1)
    {launch : Launch} (hslow : c.tx.finished = false → launch.decision.selection.isSome →
      launch.outcome.failsAtOnce = false) : Bounded ({ c with queued := n }.runRetry launch) := by
  have hrest := hinv.runRetry hqueued launch
  by_cases hfin : c.tx.finished
  · rw [Lifecycle.runRetry, if_pos (by exact hfin)]
    exact h.finish ((SameCourse.refl c).of_tx rfl) hfin
  have hfin' : c.tx.finished = false := eq_false_iff.mpr hfin
  obtain ⟨rfl, -, hbudget, -⟩ := hinv.dequeue hqueued hfin'
  have hretries := h.fresh hfin' (by omega)
  have hattempts := h.counted hfin'
  rcases runRetry_cases (c := { c with queued := 0 }) hfin' launch with
    ⟨d, heq, hs⟩ | ⟨d, heq, hs, hsel⟩
  · rw [heq]
    have hdequeued : SameCourse c { c with queued := 0 } := (SameCourse.refl c).of_tx rfl
    exact h.finish (hdequeued.trans (hs.trans (.fail d))) (by simp)
  rw [heq] at hrest ⊢
  obtain ⟨hca, hcr, hcb, hcp⟩ := endExecute_counts d.openUpstream launch.outcome
  have hopen : d.openUpstream.tx.attempts = c.tx.attempts + 1 :=
    congrArg (· + 1) hs.attempts
  have hsame : d.openUpstream.tx.retries = c.tx.retries := hs.retries
  have hpolicy : d.openUpstream.tx.policy.retryBudget = c.tx.policy.retryBudget := hs.budget
  refine ⟨hcp.trans (hs.hasProvider.trans h.hasProvider), ?_, fun _ => ?_, fun hunfin hq => ?_⟩
  · rw [countRetry, hca, hcb, hopen, hpolicy]
    omega
  · show _ = 1 + ((d.openUpstream.endExecute launch.outcome).tx.retries + 1)
    rw [countRetry, hca, hcr, hopen, hsame]
    omega
  · -- Nothing is queued: the attempt runs, or it ended the request.
    rcases endExecute_cases d.openUpstream (hslow hfin' (hsel h.hasProvider)) with hp | hp
    · exact absurd (hrest.running hunfin (by rw [hp]; rfl)) hq
    · exact absurd (hp.symm.trans hunfin) (by simp)

lemma Bounded.next {e : Exchange.Event} (h : Bounded c) (hinv : RetryInv c)
    (hslow : ∀ launch answers, e = .runDeferred launch answers → c.tx.finished = false →
      launch.decision.selection.isSome → launch.outcome.failsAtOnce = false)
    (hnext : c.Next e d) : Bounded d := by
  have hhead : ∀ head : HttpResponseHead, Bounded ((c.noteHead head).handleHead head) := by
    intro head
    unfold handleHead
    split
    · exact h.fields rfl rfl
    · exact { h with }
  cases hnext with
  | quiet => exact h
  | head head answers hrun => exact hhead head
  | headAbort head answers hrun => exact (hhead head).finish (.abort _) (by simp)
  | abort => exact h.finish (.abort c) (by simp)
  | result r answers hrun _ => exact h.result r
  | timeout now answers => exact h.finish (.timeout c) (by simp)
  | retry launch answers hqueued => exact h.runRetry hinv hqueued (hslow launch answers rfl)
  | cancelled launch answers running _ hcancels | clientDestroyed | gatewayExpired =>
    exact h.fields rfl rfl
  | dropped hrun =>
    have h' : Bounded { c with running := none } := h.fields rfl rfl
    exact h'.course (.destroy _) rfl rfl
  | destroyed hrun hqueued => exact h.course (.destroy c) rfl rfl

lemma bounded_begin {config : TransactionConfig} (hprovider : config.hasProvider)
    (hc : c.tx = (create config).coarse) (launch : Launch) :
    Bounded (c.begin_ launch) := by
  have hattempts : c.tx.attempts = 0 := by rw [hc]; rfl
  have hretries : c.tx.retries = 0 := by rw [hc]; rfl
  have hprov : c.tx.hasProvider := by rw [hc]; exact hprovider
  rcases begin_cases c launch with ⟨d, heq, hs, hfin⟩ | ⟨d, heq, hs⟩
  · rw [heq]
    refine ⟨hs.hasProvider.trans hprov, ?_, fun hf => ?_, fun hf => ?_⟩
    · rw [hs.attempts, hattempts]
      omega
    · simp [hfin] at hf
    · simp [hfin] at hf
  rw [heq]
  obtain ⟨hca, hcr, hcb, hcp⟩ := endExecute_counts d.openUpstream launch.outcome
  have hone : d.openUpstream.tx.attempts = 1 := congrArg (· + 1) (hs.attempts.trans hattempts)
  have hzero : d.openUpstream.tx.retries = 0 := hs.retries.trans hretries
  refine ⟨hcp.trans (hs.hasProvider.trans hprov), ?_, fun _ => ?_, fun _ _ => ?_⟩
  · rw [hca, hone]
    omega
  · rw [hca, hcr, hone, hzero]
  · rw [hcr, hzero]

end Lifecycle

/-! ## Runs -/

namespace Exchange
variable {config : TransactionConfig} {client : ClientConnection} {timers : TimerQueue Deadline}
  {gatewayUp : Bool} {now : Instant} {launch : Launch} {answers : List SendResult} {x : Exchange}
  {es : List Event}

/-- **The retry bound.** In every run in which no replacement attempt fails retryably inside
`StartUpstream`, every state has at most `1 + retry_budget` attempts, and each but the
first was started for a `GET` or `HEAD`, after a connection-level failure and before any
commit. -/
theorem retryBound_of_delayedFailures (hprovider : config.hasProvider)
    (hstart : start config client timers gatewayUp now launch answers = some x)
    (hslow : Along step DelayedFailure x es) : Always step RetryBound x es := by
  have hinit : x.lifecycle.RetryInv ∧ x.lifecycle.Bounded := by
    rw [lifecycle_begin_ answers hstart]
    exact ⟨retryInv_begin rfl rfl rfl launch,
      bounded_begin hprovider rfl launch⟩
  have hrun : Always step (fun y => y.lifecycle.RetryInv ∧ y.lifecycle.Bounded) x es := by
    refine always_of_along ?_ hinit hslow
    intro s e t hs hp hst
    have hnext := (step_next hst).2
    exact ⟨hs.1.next hnext, hs.2.next hs.1 hp hnext⟩
  refine always_mono ?_ hrun
  intro y hy
  refine ⟨?_, hy.1.justified⟩
  rw [show y.tx.ledger.journal.countP Effect.isStarted = y.tx.attempts from hy.1.count]
  exact hy.2.attempts

/-- A `GET` request with a retry budget of one, a provider that always has a candidate, and a
client that waits for its response. -/
def getRequest : TransactionConfig := { method := ascii "GET", endpoint := Config.localEndpoint }

def candidate : AttemptDecision := { selection := some { endpoint := Config.localEndpoint } }

def waitingClient : ClientConnection := { readingPaused := true }

lemma exists_start :
    ∃ x, start getRequest waitingClient {} true 0 { decision := candidate } [] = some x := ⟨_, rfl⟩

theorem retryBound_of_delayedFailures_oneRetry :
    ∃ x, start getRequest waitingClient {} true 0 { decision := candidate } [] = some x ∧
      Always step RetryBound x
        [.result .connectError [], .runDeferred { decision := candidate } []] := by
  obtain ⟨x, hx⟩ := exists_start
  refine ⟨x, hx, retryBound_of_delayedFailures rfl hx ?_⟩
  intro s _
  refine ⟨fun _ _ h => Event.noConfusion h, fun t _ => ⟨?_, trivial⟩⟩
  intro launch answers h _ _
  cases h
  rfl

/-- The first attempt fails after it was started; the replacement fails inside
`StartUpstream`, where `retries_` is still zero; the third attempt starts. -/
theorem retryBound_fails_threeAttempts :
    ∃ x y, start getRequest waitingClient {} true 0 { decision := candidate } [] = some x ∧
      run step x
        [.result .connectError [],
          .runDeferred { decision := candidate, outcome := .failed .connectError } [],
          .runDeferred { decision := candidate } []] = some y ∧
      ¬RetryBound y :=
  ⟨_, _, rfl, rfl, fun h => absurd h.1 (by decide)⟩

end Exchange
end AegisGate.Proxy
