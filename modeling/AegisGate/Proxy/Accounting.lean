import AegisGate.Proxy.Retry
import AegisGate.Proxy.Tally

/-!
# What a transaction reports about its attempts

Each attempt on a route with a breaker comes with an outcome reservation and a permit.
The terminal handlers publish its result or let the reservation go, and the link and the
one-shot flag are overwritten at each retry.

`Accounted` is the contract: every reservation is finalized once, a published result is
that of its own attempt, and it rests on how the attempt ended. It holds in every run as
long as the gateway is up when a head with status 500 or above arrives. Once the gateway
is down `HandleResponseHead` drops the head, and `HandleUpstream` then takes the status
of the exchange from the buffered response, which a streamed exchange leaves at its
default of 200: a bodyless 503 is published as a success.
-/

namespace AegisGate.Proxy
open Lib Http Net Health Ledger Effect ProxyTransaction List Option Bool Lifecycle

/-- The contract, on the history of a transaction. -/
structure Accounted (x : Exchange) : Prop where
  /-- A reservation is opened once per attempt and finalized at most once. -/
  atMostOnce : ∀ k, x.tx.ledger.trace.countP (finalizes k) ≤
    x.tx.ledger.trace.countP (opens k) ∧ x.tx.ledger.trace.countP (opens k) ≤ 1
  /-- Once the transaction is gone every reservation was finalized. -/
  exactlyOnce : x.destroyed → ∀ k, x.tx.ledger.trace.countP (finalizes k) =
    x.tx.ledger.trace.countP (opens k)
  own : ∀ k result, published k result ∈ x.tx.ledger.trace →
    reserved k result.routeIndex result.endpointIndex result.permit ∈ x.tx.ledger.trace
  evidence : ∀ k result, published k result ∈ x.tx.ledger.trace →
    Evidence x.tx.ledger.trace k result.success
  aborted : ∀ k result, aborted k ∈ x.tx.ledger.trace →
    published k result ∉ x.tx.ledger.trace

/-- If the event is a head for an unfinished transaction whose gateway is down, its status
is below 500. -/
def HeadsSeen (x : Exchange) (e : Exchange.Event) : Prop :=
  ∀ head answers, e = .head head answers → x.tx.finished = false → x.gatewayUp = false →
    head.status < 500

namespace Lifecycle

def tally (c : Lifecycle) : Tally := c.tx.ledger.tally

structure AccInv (c : Lifecycle) : Prop where
  sound : c.tally.Sound c.tx.attempts
  cancels : c.cancels ≠ 0 → c.tx.finished
  aborted : ∀ k, aborted k ∈ c.tally.outcomes → c.tx.finished
  /-- Nothing was reported about the running attempt. -/
  running : c.tx.finished = false → c.running.isSome → c.tally.accounted = false ∧
    ∀ result, published c.tx.attempt result ∉ c.tally.outcomes
  /-- Between attempts nothing is committed, and the last attempt was accounted for. -/
  waiting : c.tx.finished = false → c.running = none → c.tx.downstreamResponseCommitted = false ∧
    (c.alive → c.tally.link = none ∨ c.tally.accounted)
  early : c.tx.finished = false → c.running = some none → c.tx.downstreamResponseCommitted = false
  /-- The status of the running exchange is the committed one, or below 500. -/
  head : c.tx.finished = false → ∀ status, c.running = some (some status) →
    (c.tx.downstreamResponseCommitted ∧ c.tx.responseHead.status = status) ∨
      (c.tx.downstreamResponseCommitted = false ∧ status < 500)

variable {c d : Lifecycle}

lemma accInv_of_finished (hsound : c.tally.Sound c.tx.attempts) (hfin : c.tx.finished) :
    AccInv c where
  sound := hsound
  cancels := fun _ => hfin
  aborted := fun _ _ => hfin
  running := fun hf => by simp [hfin] at hf
  waiting := fun hf => by simp [hfin] at hf
  early := fun hf => by simp [hfin] at hf
  head := fun hf => by simp [hfin] at hf

/-! ## The handlers on the tally -/

@[simp] lemma tally_book (c : Lifecycle) (f : Ledger → Ledger) :
    (c.book f).tally = (f c.tx.ledger).tally := rfl

lemma tally_note (c : Lifecycle) (effect : ℕ → Effect) (h : ∀ k, (effect k).isOutcome) :
    (c.note effect).tally =
      if c.running.isSome then c.tally.emit (effect c.tx.attempt) else c.tally := by
  unfold note
  split
  · rw [tally_book, tally_emit, h]
    rfl
  · rfl

lemma tally_conclude (c : Lifecycle) (status : ℕ) (truncated reason : TerminalReason) :
    (c.conclude status truncated reason).tally =
      if c.tx.downstreamResponseCommitted || c.alive then c.tally.account false else c.tally := by
  unfold conclude
  by_cases hcommit : c.tx.downstreamResponseCommitted
  · rw [if_pos hcommit, if_pos (by simp [hcommit]), tally_book]
    simp only [tally_logTerminal, tally_account, tally_completeMetric]
    rfl
  rw [if_neg hcommit, eq_false_iff.mpr hcommit]
  by_cases halive : c.alive
  · rw [if_pos (by exact halive), if_pos (by simpa using halive), tally_book]
    simp only [book, tally_account, tally_logTerminal, tally_completeMetric]
    rfl
  · rw [if_neg (by exact halive), if_neg (by simpa using halive), tally_book]
    simp only [tally_logTerminal, tally_completeMetric]
    rfl

lemma tally_release (c : Lifecycle) :
    (c.end_.book (·.releaseReservation.releaseActive)).tally = c.tally := by
  rw [tally_book, tally_releaseActive, tally_releaseReservation]
  exact tally_emit _ _

lemma tally_abort (hfin : c.tx.finished = false) :
    c.abort.tally = (c.note .aborted).tally.resetLink := by
  unfold abort
  rw [if_neg (by simp [hfin])]
  show (c.settleAbort (c.note .aborted).end_.tx.ledger).tally = _
  simp only [settleAbort, tally_logTerminal, tally_completeMetric,
    tally_resetLink, tally_releaseActive, tally_releaseReservation]
  exact congrArg Tally.resetLink (tally_emit _ _)

lemma tally_fail (hfin : c.tx.finished = false) : c.fail.tally =
      if c.tx.downstreamResponseCommitted || c.alive then c.tally.account false else c.tally := by
  unfold fail
  rw [if_neg (by simp [hfin]), tally_conclude, tally_release]
  rfl

lemma tally_timeout (hfin : c.tx.finished = false) : c.timeout.tally =
      if c.tx.downstreamResponseCommitted || c.alive then (c.note .timedOut).tally.account false
      else (c.note .timedOut).tally := by
  have hnote : (c.note .timedOut).tx.downstreamResponseCommitted =
      c.tx.downstreamResponseCommitted ∧ (c.note .timedOut).alive = c.alive := by
    unfold note
    split <;> exact ⟨rfl, rfl⟩
  unfold timeout
  rw [if_neg (by simp [hfin]), tally_conclude]
  show (if (c.note .timedOut).tx.downstreamResponseCommitted || (c.note .timedOut).alive then _
    else _) = _
  rw [hnote.1, hnote.2]
  show (if _ then (((c.note .timedOut).end_.book (·.releaseReservation.releaseActive)).tally.account
    false) else ((c.note .timedOut).end_.book (·.releaseReservation.releaseActive)).tally) = _
  rw [tally_release]

lemma tally_noEndpoint : c.noEndpoint.tally = c.tally := by
  unfold noEndpoint
  split
  · rfl
  · rw [tally_book]
    simp only [tally_logTerminal, tally_completeMetric, tally_releaseReservation]
    exact tally_emit _ _

lemma tally_succeed (c : Lifecycle) : c.succeed.tally =
      if c.alive then c.tally.account (decide (c.tx.responseStatus {} < 500)) else c.tally := by
  unfold succeed concludeSuccess
  by_cases halive : c.alive
  · rw [if_pos (by exact halive), if_pos halive, tally_book, tally_account]
    simp only [book, tally_logTerminal, tally_completeMetric]
    exact congrArg (Tally.account · _) (tally_release c)
  · rw [if_neg (by exact halive), if_neg halive, tally_book, tally_logTerminal,
      tally_completeMetric]
    exact tally_release c

lemma tally_queueRetry (c : Lifecycle) :
    c.queueRetry.tally = if c.alive then c.tally.account false else c.tally := by
  show (c.settleRetry c.tx.ledger).tally = _
  unfold settleRetry
  split <;> simp [tally]

/-! ## The invariant -/

variable {t : Tally} {success : Bool} {r : UpstreamResult}

lemma sound_account {n : ℕ} (h : t.Sound n)
    (hlive : t.accounted = false → Evidence t.outcomes (n - 1) success ∧
      aborted (n - 1) ∉ t.outcomes) : (t.account success).Sound n := by
  refine h.account fun link hlink hflag _ => ?_
  have hnum := (h.link link hlink).1
  have hattempt : n - 1 = link.attempt := by omega
  exact hattempt ▸ hlive hflag

lemma account_settles (t : Tally) (success : Bool) :
    (t.account success).link = none ∨ (t.account success).accounted := by
  unfold Tally.account
  cases hlink : t.link with
  | none => exact .inl hlink
  | some link =>
    right
    dsimp only
    split
    · assumption
    · unfold Tally.publish
      split <;> rfl

lemma account_of_settled (h : t.link = none ∨ t.accounted) (success : Bool) :
    t.account success = t := by
  unfold Tally.account
  rcases h with h | h
  · rw [h]
  · cases hlink : t.link with
    | none => rfl
    | some link => simp [h]

lemma AccInv.not_aborted (h : AccInv c) (hfin : c.tx.finished = false) (k : ℕ) :
    Effect.aborted k ∉ c.tally.outcomes := fun hmem => by
  rw [h.aborted k hmem] at hfin
  cases hfin

lemma AccInv.abort (h : AccInv c) : AccInv c.abort := by
  by_cases hfin : c.tx.finished
  · rw [Lifecycle.abort, if_pos hfin]
    exact h
  have hfin' := eq_false_iff.mpr hfin
  refine accInv_of_finished ?_ (finished_abort c)
  rw [(SameCourse.abort c).attempts, tally_abort hfin']
  apply Tally.Sound.resetLink
  rw [tally_note c _ fun _ => rfl]
  split
  · next hrun =>
    refine h.sound.emit (fun _ => rfl) (fun _ => rfl) fun k result heq => ?_
    cases heq
    exact (h.running hfin' hrun).2 result
  · exact h.sound

lemma AccInv.timeout (h : AccInv c) : AccInv c.timeout := by
  by_cases hfin : c.tx.finished
  · rw [Lifecycle.timeout, if_pos hfin]
    exact h
  have hfin' := Bool.eq_false_iff.mpr hfin
  refine accInv_of_finished ?_ (finished_timeout c)
  rw [(SameCourse.timeout c).attempts, tally_timeout hfin', tally_note c _ fun _ => rfl]
  by_cases hrun : c.running.isSome
  · rw [if_pos hrun]
    have hsound : (c.tally.emit (.timedOut c.tx.attempt)).Sound c.tx.attempts :=
      h.sound.emit (fun _ => rfl) (fun _ => rfl) nofun
    split
    · refine sound_account hsound fun _ => ⟨.inr mem_cons_self, fun hmem => ?_⟩
      exact h.not_aborted hfin' _ (by simpa [Tally.emit] using hmem)
    · exact hsound
  rw [if_neg hrun]
  obtain ⟨hcommit, hsettled⟩ := h.waiting hfin' (by simpa using hrun)
  rw [hcommit, Bool.false_or]
  split
  · next halive =>
    rw [account_of_settled (hsettled halive)]
    exact h.sound
  · exact h.sound

lemma mem_account_aborted {k : ℕ} :
    aborted k ∈ (t.account success).outcomes ↔ aborted k ∈ t.outcomes := by
  unfold Tally.account
  cases t.link with
  | none => rfl
  | some link =>
    dsimp only
    split
    · rfl
    · unfold Tally.publish
      split
      · rfl
      · simp [Tally.emit]

lemma tally_noteDelivered (c : Lifecycle) (r : UpstreamResult) :
    (c.noteDelivered r).tally = c.tally.emit (.delivered c.tx.attempt r c.running.join) := rfl

lemma AccInv.sound_noteDelivered (h : AccInv c) (r : UpstreamResult) :
    (c.noteDelivered r).tally.Sound c.tx.attempts :=
  h.sound.emit (fun _ => rfl) (fun _ => rfl) nofun

lemma AccInv.delivered (h : AccInv c) (hfin : c.tx.finished = false) (r : UpstreamResult)
    (hev : Evidence (c.noteDelivered r).tally.outcomes c.tx.attempt success) :
    ((c.noteDelivered r).tally.account success).Sound c.tx.attempts := by
  refine sound_account (h.sound_noteDelivered r) fun _ => ⟨hev, fun hmem => ?_⟩
  rw [tally_noteDelivered] at hmem
  exact h.not_aborted hfin _ (by simpa [Tally.emit] using hmem)

lemma evidence_of_failure (c : Lifecycle) (hr : r ≠ .success) :
    Evidence (c.noteDelivered r).tally.outcomes c.tx.attempt false :=
  .inl ⟨r, c.running.join, mem_cons_self, .inl hr⟩

lemma AccInv.queueRetry (h : AccInv c) (hfin : c.tx.finished = false)
    (hretry : c.tx.retryableFailure r) : AccInv (c.noteDelivered r).detach.queueRetry := by
  have hcommit : c.tx.downstreamResponseCommitted = false := by
    by_contra hc
    simp [retryableFailure, eq_true_of_not_eq_false hc] at hretry
  have hr : r ≠ .success := by
    rintro rfl
    simp [retryableFailure, retryableResult] at hretry
  have htally : (c.noteDelivered r).detach.queueRetry.tally =
      if c.alive then (c.noteDelivered r).tally.account false else (c.noteDelivered r).tally :=
    tally_queueRetry _
  refine ⟨?_, h.cancels, fun k hk => ?_, fun _ hrun => Bool.noConfusion hrun,
    fun _ _ => ⟨hcommit, fun halive => ?_⟩, by rintro _ ⟨⟩, by rintro _ _ ⟨⟩⟩
  · rw [htally]
    split
    · exact h.delivered hfin r (evidence_of_failure c hr)
    · exact h.sound_noteDelivered r
  · refine absurd ?_ (h.not_aborted hfin k)
    have hk' : Effect.aborted k ∈ (c.noteDelivered r).tally.outcomes := by
      rw [htally] at hk
      split at hk
      · exact mem_account_aborted.mp hk
      · exact hk
    simpa [tally_noteDelivered, Tally.emit] using hk'
  · rw [htally, if_pos (by exact halive)]
    exact account_settles _ _

lemma AccInv.evidence_of_success (h : AccInv c) (hfin : c.tx.finished = false)
    (hhead : c.running.join.isSome) :
    Evidence (c.noteDelivered .success).tally.outcomes c.tx.attempt
      (decide (c.tx.responseStatus {} < 500)) := by
  obtain ⟨status, hstatus⟩ := isSome_iff_exists.mp hhead
  have hrun : c.running = some (some status) := by
    cases hc : c.running with
    | none => simp [hc] at hstatus
    | some inner => rw [hc, join_some] at hstatus; rw [hstatus]
  have hmem : Effect.delivered c.tx.attempt .success (some status) ∈
      (c.noteDelivered .success).tally.outcomes := by
    rw [tally_noteDelivered, hstatus]
    exact mem_cons_self
  rcases h.head hfin status hrun with ⟨hcommit, hseen⟩ | ⟨hcommit, hlt⟩
  · have hresponse : c.tx.responseStatus {} = status := by
      simp [responseStatus, hcommit, hseen]
    rw [hresponse]
    by_cases hlt : status < 500
    · rw [decide_eq_true hlt]
      exact ⟨status, hlt, hmem⟩
    · rw [decide_eq_false hlt]
      exact .inl ⟨.success, some status, hmem, .inr ⟨status, rfl, by omega⟩⟩
  · have hresponse : c.tx.responseStatus {} = 200 := by
      simp [responseStatus, hcommit]
    rw [hresponse]
    exact ⟨status, hlt, hmem⟩

lemma AccInv.result (h : AccInv c) (hhead : r = .success → c.running.join.isSome) :
    AccInv ((c.noteDelivered r).result r) := by
  by_cases hfin : (c.noteDelivered r).tx.finished
  · rw [Lifecycle.result, if_pos hfin]
    exact accInv_of_finished (h.sound_noteDelivered r) hfin
  have hfin' : c.tx.finished = false := eq_false_iff.mpr hfin
  rw [Lifecycle.result, if_neg hfin]
  split
  · next hretry => exact h.queueRetry hfin' hretry
  split
  · next hr =>
    have hr' : r ≠ .success := by simpa using hr
    refine accInv_of_finished ?_ (finished_fail _)
    rw [(SameCourse.fail _).attempts, tally_fail (by exact hfin')]
    split
    · exact h.delivered hfin' r (evidence_of_failure c hr')
    · exact h.sound_noteDelivered r
  next hr =>
  obtain rfl : r = .success := by simpa using hr
  refine accInv_of_finished ?_ (finished_succeed _)
  rw [(SameCourse.succeed _).attempts, tally_succeed]
  split
  · exact h.delivered hfin' .success (h.evidence_of_success hfin' (hhead rfl))
  · exact h.sound_noteDelivered .success

/-! ## Attempts -/

lemma link_resetLink (t : Tally) : t.resetLink.link = none := by
  unfold Tally.resetLink
  cases hlink : t.link with
  | none => exact hlink
  | some link =>
    dsimp only
    split <;> rfl

lemma mem_resetLink {e : Effect} (he : ∀ k, e ≠ .cancelled k) :
    e ∈ t.resetLink.outcomes ↔ e ∈ t.outcomes := by
  unfold Tally.resetLink
  cases t.link with
  | none => rfl
  | some link =>
    dsimp only
    split
    · rfl
    · simp [Tally.emit, he]

lemma mem_installLink {attempt : ℕ} {data : Option (ℕ × ℕ × AttemptPermit)} {e : Effect}
    (hopen : ∀ k, e.opens k = false) :
    e ∈ (t.installLink attempt data).outcomes ↔ e ∈ t.outcomes := by
  cases data with
  | none => rfl
  | some data =>
    refine ⟨fun hmem => ?_, mem_cons_of_mem _⟩
    rcases mem_cons.mp hmem with rfl | hold
    · simpa [opens] using hopen attempt
    · exact hold

lemma not_published_of_unstarted {n k : ℕ} (h : t.Sound n) (hk : n ≤ k) (result : AttemptResult) :
    published k result ∉ t.outcomes := by
  intro hmem
  have hres := h.own k result hmem
  have hpos : 0 < t.outcomes.countP (opens k) :=
    countP_pos_iff.mpr ⟨_, hres, by simp [opens]⟩
  rw [h.opened k hk] at hpos
  exact absurd hpos (lt_irrefl 0)

lemma select_tally (c : Lifecycle) (decision : AttemptDecision) :
    let d := c.beginAttempt.selectAttempt decision
    (d.2 = false → d.1.tally = c.tally.resetLink) ∧
      (d.2 → ∃ data, d.1.tally =
        { c.tally.resetLink.installLink c.tx.attempts data with accounted := false }) := by
  have hbegin : c.beginAttempt.tally = c.tally.resetLink := tally_resetLink _
  unfold selectAttempt
  split
  · have hcall : (c.beginAttempt.tx.ledger.emit .providerCalled).tally = c.tally.resetLink :=
      (tally_emit _ _).trans hbegin
    split
    · exact ⟨fun _ => hcall, fun h => Bool.noConfusion h⟩
    next selection _ =>
    refine ⟨fun h => Bool.noConfusion h, fun _ => ⟨selection.link, ?_⟩⟩
    show { (acquireActive _ _).tally with accounted := false } = _
    rw [tally_acquireActive, tally_installLink]
    exact congrArg (fun t : Tally =>
      { t.installLink c.tx.attempts selection.link with accounted := false }) hcall
  · exact ⟨fun h => Bool.noConfusion h, fun _ =>
      ⟨none, congrArg (fun t : Tally => { t with accounted := false }) hbegin⟩⟩

lemma accInv_openUpstream (hsound : c.tally.Sound c.tx.attempts)
    (hcancels : c.cancels ≠ 0 → c.tx.finished)
    (haborted : ∀ k, aborted k ∉ c.tally.outcomes)
    (hcommit : c.tx.downstreamResponseCommitted = false) (hd : SameState c d)
    {data : Option (ℕ × ℕ × AttemptPermit)} (htally : d.tally =
      { c.tally.resetLink.installLink c.tx.attempts data with accounted := false }) :
    AccInv d.openUpstream := by
  have hopen : d.openUpstream.tally = d.tally := tally_emit _ _
  have hreset := hsound.resetLink
  have hattempts : d.openUpstream.tx.attempts = c.tx.attempts + 1 := by
    rw [← hd.attempts]
    rfl
  refine ⟨?_, ?_, fun k hk => ?_, fun _ _ => ⟨?_, fun result hpub => ?_⟩, nofun, fun _ _ => ?_,
    nofun⟩
  · rw [hopen, htally, hattempts]
    exact (hreset.installLink (link_resetLink _) data).flag false
  · intro hne
    exact hd.finished.trans (hcancels (hd.cancels ▸ hne))
  · rw [hopen, htally] at hk
    exact absurd ((mem_resetLink (by simp)).mp ((mem_installLink fun _ => rfl).mp hk)) (haborted k)
  · rw [hopen, htally]
  · rw [hopen, htally] at hpub
    have hnum : d.openUpstream.tx.attempt = c.tx.attempts := by
      rw [ProxyTransaction.attempt, hattempts]
      rfl
    rw [hnum] at hpub
    exact not_published_of_unstarted hreset le_rfl result ((mem_installLink fun _ => rfl).mp hpub)
  · exact hd.committed.trans hcommit

lemma AccInv.endExecute (h : AccInv c) (outcome : StartOutcome) :
    AccInv (c.endExecute outcome) := by
  cases outcome with
  | pending => exact { h with }
  | failed failure =>
    have hr := h.result (r := failure.result) fun heq => by cases failure <;> cases heq
    exact { hr with }
  | raised => exact h.result nofun

/-- `StartUpstream` between attempts: it starts one, or it drops the old link, or the
gateway is down. -/
lemma accInv_startUpstream (hsound : c.tally.Sound c.tx.attempts)
    (hcancels : c.cancels ≠ 0 → c.tx.finished)
    (haborted : ∀ k, aborted k ∉ c.tally.outcomes)
    (hcommit : c.tx.downstreamResponseCommitted = false) (launch : Launch) :
    (∃ d, c.startUpstream launch = (d, false) ∧ SameState c d ∧
      (d.tally = c.tally ∨ d.tally = c.tally.resetLink)) ∨
    ∃ d, c.startUpstream launch = (d, true) ∧ AccInv d := by
  unfold startUpstream
  split
  · exact .inl ⟨c, rfl, .endpoint c c.tx.endpoint, .inl rfl⟩
  have hsame := SameState.select c launch.decision
  obtain ⟨hnone, hsome⟩ := select_tally c launch.decision
  split
  · next d heq =>
    rw [heq] at hsame hnone
    exact .inl ⟨d, rfl, hsame, .inr (hnone rfl)⟩
  · next d heq =>
    rw [heq] at hsame hsome
    obtain ⟨data, htally⟩ := hsome rfl
    exact .inr ⟨_, rfl,
      (accInv_openUpstream hsound hcancels haborted hcommit hsame htally).endExecute _⟩

lemma AccInv.noReplacement (h : AccInv c) (hfin : c.tx.finished = false)
    (hrun : c.running = none) (hd : SameState c d)
    (htally : d.tally = c.tally ∨ d.tally = c.tally.resetLink) : AccInv d.fail := by
  obtain ⟨hcommit, hsettled⟩ := h.waiting hfin hrun
  have hsound : d.tally.Sound d.tx.attempts := by
    rw [hd.attempts]
    rcases htally with heq | heq <;> rw [heq]
    · exact h.sound
    · exact h.sound.resetLink
  refine accInv_of_finished ?_ (finished_fail d)
  rw [(SameCourse.fail _).attempts, tally_fail (hd.finished.trans hfin), hd.committed, hcommit,
    hd.alive]
  cases halive : c.alive with
  | false => exact hsound
  | true =>
    have hdone : d.tally.link = none ∨ d.tally.accounted := by
      rcases htally with heq | heq <;> rw [heq]
      · exact hsettled halive
      · exact .inl (link_resetLink _)
    rw [Bool.false_or, if_pos rfl, account_of_settled hdone]
    exact hsound

lemma AccInv.runRetry (h : AccInv c) (hrun : c.tx.finished = false → c.running = none)
    (launch : Launch) : AccInv (c.runRetry launch) := by
  cases hfin : c.tx.finished with
  | true =>
    rw [Lifecycle.runRetry, if_pos hfin]
    exact h
  | false =>
    rcases runRetry_eq hfin launch with heq | ⟨endpoint, heq⟩ <;> rw [heq]
    · exact h.noReplacement hfin (hrun hfin) (.endpoint c c.tx.endpoint) (.inl rfl)
    rcases accInv_startUpstream (c := { c with tx := { c.tx with endpoint } }) h.sound h.cancels
        (h.not_aborted hfin) (h.waiting hfin (hrun hfin)).1 launch with
      ⟨d, hd, hsame, htally⟩ | ⟨d, hd, hinv⟩ <;> rw [hd]
    · exact h.noReplacement hfin (hrun hfin) ((SameState.endpoint c endpoint).trans hsame) htally
    · exact { hinv with }

lemma accInv_begin {config : TransactionConfig}
    (hc : c.tx = (create config).coarse) (hcancels : c.cancels = 0)
    (launch : Launch) : AccInv (c.begin_ launch) := by
  have hempty : c.tally = { link := none, accounted := false, outcomes := [] } := by
    rw [tally, hc]
    rfl
  have hsound : c.tally.Sound c.tx.attempts := hempty ▸ Tally.sound_empty
  unfold begin_
  split
  · exact accInv_of_finished hsound rfl
  rcases accInv_startUpstream (c := c.book ({ · with metricRequest := c.tx.hasMetrics })) hsound
      (fun hne => absurd hcancels hne)
      (fun k hk => by
        have hmem : aborted k ∈ c.tally.outcomes := hk
        rw [hempty] at hmem
        exact not_mem_nil hmem)
      (by rw [book, hc]; rfl) launch with
    ⟨d, heq, hd, htally⟩ | ⟨d, heq, hd⟩
  · rw [heq]
    refine accInv_of_finished ?_ (finished_noEndpoint d)
    rw [tally_noEndpoint, (SameCourse.noEndpoint d).attempts, hd.attempts]
    rcases htally with h | h <;> rw [h]
    · exact hsound
    · exact hsound.resetLink
  · rw [heq]
    exact hd

/-! ## Steps -/

lemma AccInv.noteHead (h : AccInv c) (hrun : c.running = some none) {head : HttpResponseHead}
    (hseen : c.tx.finished = false → c.gatewayUp = false → head.status < 500) :
    AccInv ((c.noteHead head).handleHead head) := by
  unfold handleHead
  have hopen := fun hfin => h.running hfin (by rw [hrun]; rfl)
  split
  · next hskip =>
    refine ⟨h.sound, h.cancels, h.aborted, fun hfin _ => hopen hfin, nofun, nofun, ?_⟩
    intro hfin status heq
    cases heq
    refine .inr ⟨h.early hfin hrun, hseen hfin ?_⟩
    have hdown : c.tx.finished ∨ c.gatewayUp = false := by
      simpa [Lifecycle.noteHead] using hskip
    exact hdown.resolve_left (by rw [show c.tx.finished = false from hfin]; exact nofun)
  have htally : ((c.noteHead head).commitHead
      { head with headers := stripHopByHopHeaders head.headers }).tally = c.tally :=
    tally_emit _ _
  refine ⟨?_, h.cancels, ?_, ?_, nofun, nofun, ?_⟩
  · rw [htally]
    exact h.sound
  · rw [htally]
    exact h.aborted
  · intro hfin _
    rw [htally]
    exact hopen hfin
  · intro _ status heq
    cases heq
    exact .inl ⟨rfl, rfl⟩

lemma tally_destroy (c : Lifecycle) : c.destroy.tally = c.tally.resetLink := by
  show (Ledger.tally { c.tx.ledger.releaseReservation.releaseActive.resetLink with
    metricRequest := false }) = _
  show (resetLink _).tally = _
  rw [tally_resetLink, tally_releaseActive, tally_releaseReservation]
  rfl

/-- What holds in every state: the tally is sound, a transaction that can still act keeps
the invariant, and one that is gone holds no reservation. -/
structure AccState (c : Lifecycle) : Prop where
  sound : c.tally.Sound c.tx.attempts
  live : c.destroyed = false → AccInv c
  gone : c.destroyed → c.tally.link = none

lemma AccInv.state (h : AccInv c) (hlive : c.destroyed = false) : AccState c where
  sound := h.sound
  live := fun _ => h
  gone := fun hgone => by simp [hlive] at hgone

lemma AccState.destroy (h : c.tally.Sound c.tx.attempts) : AccState c.destroy where
  sound := by
    rw [tally_destroy]
    exact h.resetLink
  live := nofun
  gone := fun _ => by rw [tally_destroy, link_resetLink]

lemma AccState.next {e : Exchange.Event} (hstate : AccState c) (hlive : c.destroyed = false)
    (hretry : RetryInv c) (hseen : ∀ head answers, e = .head head answers →
      c.tx.finished = false → c.gatewayUp = false → head.status < 500)
    (hnext : c.Next e d) : AccState d := by
  have h := hstate.live hlive
  have hcalm : d.env = c.env → AccInv d → AccState d := fun henv hd =>
    hd.state ((congrArg (·.2.2) henv).trans hlive)
  cases hnext with
  | quiet => exact hstate
  | head head answers hrun => exact hcalm (by simp; rfl) (h.noteHead hrun (hseen head answers rfl))
  | headAbort head answers hrun =>
    exact hcalm (by simp; rfl) (h.noteHead hrun (hseen head answers rfl)).abort
  | abort => exact hcalm (by simp) h.abort
  | result r answers hrun hhead => exact hcalm (by simp; rfl) (h.result hhead)
  | timeout now answers => exact hcalm (by simp) h.timeout
  | @retry launch answers n hqueued =>
    have hwaiting : AccInv { c with queued := n } := { h with }
    exact hcalm (by simp; rfl)
      (hwaiting.runRetry (fun hfin => (hretry.queued hfin (by omega)).2.1) launch)
  | cancelled launch answers running _ hcancels =>
    exact hcalm rfl (accInv_of_finished h.sound (h.cancels (by omega)))
  | clientDestroyed =>
    exact AccInv.state
      { h with waiting := fun hfin hrun => ⟨(h.waiting hfin hrun).1, nofun⟩ } hlive
  | gatewayExpired => exact AccInv.state { h with } hlive
  | dropped hrun | destroyed hrun hqueued => exact AccState.destroy h.sound

end Lifecycle
/-! ## Runs -/

lemma countP_outcomes (l : Ledger) {p : Effect → Bool}
    (hp : ∀ e, p e → e.isOutcome) :
    l.tally.outcomes.countP p = l.trace.countP p := by
  rw [Ledger.tally, countP_filter]
  refine countP_congr fun e _ => ?_
  simpa using hp e

lemma isOutcome_of_finalizes {k : ℕ} (e : Effect) (h : e.finalizes k) :
    e.isOutcome := by
  cases e <;> first | rfl | cases h

lemma isOutcome_of_opens {k : ℕ} (e : Effect) (h : e.opens k) : e.isOutcome := by
  cases e <;> first | rfl | cases h

namespace Exchange
variable {config : TransactionConfig} {client : ClientConnection} {timers : TimerQueue Deadline}
  {gatewayUp : Bool} {now : Instant} {launch : Launch} {answers : List SendResult} {x : Exchange}
  {es : List Event}

lemma accounted_of_state (h : x.lifecycle.AccState) : Accounted x := by
  have hsound : x.tx.ledger.tally.Sound x.tx.attempts := h.sound
  have hmem : ∀ e : Effect, e.isOutcome →
      (e ∈ x.tx.ledger.tally.outcomes ↔ e ∈ x.tx.ledger.trace) := fun e he => by
    simp [Ledger.tally, he]
  have hsub : x.tx.ledger.tally.outcomes ⊆ x.tx.ledger.trace := fun e he =>
    mem_of_mem_filter he
  have hfinal := fun k => countP_outcomes x.tx.ledger (isOutcome_of_finalizes (k := k))
  have hopens := fun k => countP_outcomes x.tx.ledger (isOutcome_of_opens (k := k))
  refine ⟨fun k => ?_, fun hgone k => ?_, fun k result hpub => ?_, fun k result hpub => ?_,
    fun k result habort hpub => ?_⟩
  · rw [← hfinal, ← hopens]
    have hbalance := hsound.balance k
    exact ⟨by omega, hsound.once k⟩
  · have hlink : x.tx.ledger.tally.link = none := h.gone hgone
    have hclosed : x.tx.ledger.tally.isOpen k = false := by
      rw [Tally.isOpen, hlink]
      rfl
    have hbalance := hsound.balance k
    rw [hclosed] at hbalance
    rw [← hfinal, ← hopens]
    exact hbalance
  · exact hsub (hsound.own k result ((hmem _ rfl).mpr hpub))
  · exact (hsound.evidence k result ((hmem _ rfl).mpr hpub)).mono hsub
  · exact hsound.aborted k result ((hmem _ rfl).mpr habort) ((hmem _ rfl).mpr hpub)

/-- **Attempt accounting.** In every run in which no head from 500 on is passed over because
the gateway is down, every state keeps the contract. -/
theorem accounted_of_headsSeen
    (hstart : start config client timers gatewayUp now launch answers = some x)
    (hseen : Along step HeadsSeen x es) : Always step Accounted x es := by
  have hinit : x.lifecycle.RetryInv ∧ x.lifecycle.AccState := by
    rw [lifecycle_begin_ answers hstart]
    refine ⟨retryInv_begin rfl rfl rfl launch, ?_⟩
    exact (accInv_begin rfl rfl launch).state
      (congrArg (·.2.2) (env_begin_ _ launch))
  have hrun : Always step (fun y => y.lifecycle.RetryInv ∧ y.lifecycle.AccState) x es := by
    refine always_of_along ?_ hinit hseen
    intro s e t hs hp hst
    obtain ⟨hlive, hnext⟩ := step_next hst
    exact ⟨hs.1.next hnext, hs.2.next hlive hs.1 hp hnext⟩
  exact always_mono (fun y hy => accounted_of_state hy.2) hrun

/-- A candidate on a route with a breaker, and a response of each kind without a body. -/
def permittedCandidate : AttemptDecision :=
  { selection := some { endpoint := Config.localEndpoint, link := some (0, 0, {}) } }

def unavailableHead : HttpResponseHead :=
  { status := 503, reason := ascii "Service Unavailable", contentLength := some 0 }

theorem accounted_of_headsSeen_unavailable :
    ∃ x, start getRequest waitingClient {} true 0 { decision := permittedCandidate } [] = some x ∧
      Always step Accounted x [.head unavailableHead [], .result .success []] := by
  obtain ⟨x, hx, hup⟩ : ∃ x, start getRequest waitingClient {} true 0
      { decision := permittedCandidate } [] = some x ∧ x.gatewayUp := ⟨_, rfl, rfl⟩
  refine ⟨x, hx, accounted_of_headsSeen hx fun t _ => ⟨fun _ _ _ _ hdown => ?_, fun _ _ =>
    ⟨fun _ _ h => Event.noConfusion h, trivial⟩⟩⟩
  rw [hup] at hdown
  cases hdown

/-- The gateway goes down while the attempt runs; the 503 is passed over and the attempt is
published as a success. -/
theorem accounted_fails_gatewayDown :
    ∃ x y, start getRequest waitingClient {} true 0 { decision := permittedCandidate } [] = some x ∧
      run step x [.gatewayExpired, .head unavailableHead [], .result .success []] = some y ∧
      ¬Accounted y := by
  obtain ⟨x, y, hx, hy, hpub, hall⟩ : ∃ x y,
      start getRequest waitingClient {} true 0 { decision := permittedCandidate } [] = some x ∧
      run step x [.gatewayExpired, .head unavailableHead [], .result .success []] = some y ∧
      published 0 { routeIndex := 0, endpointIndex := 0, permit := {}, success := true } ∈
        y.tx.ledger.trace ∧
      ∀ status < 500, delivered 0 .success (some status) ∉ y.tx.ledger.trace :=
    ⟨_, _, rfl, rfl, by decide, by decide +kernel⟩
  refine ⟨x, y, hx, hy, fun h => ?_⟩
  obtain ⟨status, hlt, hmem⟩ := h.evidence _ _ hpub
  exact hall status hlt hmem

end Exchange
end AegisGate.Proxy
