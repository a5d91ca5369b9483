import AegisGate.Proxy.Deadlines
import AegisGate.Proxy.Retry

/-!
# Which attempt a deadline ends

`StartUpstream` advances the generation and the number of attempts together, so the deadlines
of attempt `k` carry the generation `k + 1`, and a stale one is ignored. A retryable failure,
however, leaves both the timers and the generation of its attempt as they are until the
deferred retry runs at the end of the batch. A connect or first-byte deadline handled in
between passes the checks of `HandleDeadline`: it ends a transaction whose attempt is over and
whose retry is queued.

Every deadline that is handled while no retry is queued ends a running attempt.
-/

namespace AegisGate.Proxy
open Lib Http Net Health Option Bool List Lifecycle

/-! ## The generation counts the attempts -/

namespace Deadlines

/-- The generation of an unfinished transaction is the number of its attempts. -/
def Counted (d : Deadlines) : Prop := d.finished = false → d.generation = d.attempts

variable {d d' : Deadlines}

lemma counted_of_finished (hfin : d.finished) : Counted d := by
  intro hunfinished
  rw [hfin] at hunfinished
  cases hunfinished

lemma counted_fades_conclude {n : ℕ} (h : (d.conclude n).Fades d') : Counted d' := by
  refine counted_of_finished ?_
  rw [h.finished, finished_conclude]

lemma Counted.settles (h : Counted d) (hd : d.Settles d') : Counted d' := by
  rcases hd with ⟨u, _, rfl⟩ | ⟨_, n, hd⟩
  · exact h
  · exact counted_fades_conclude hd

lemma Counted.report (h : Counted d) {p : UpstreamProgress} {instant : Instant}
    (hreport : d.report p instant = some d') : Counted d' := by
  obtain ⟨_, hreport⟩ := ite_none_left_eq_some.mp hreport
  have hadvance : Counted (d.advance p) := by
    rw [Deadlines.advance]
    split <;> exact h
  generalize d.advance p = c at hreport hadvance
  unfold Deadlines.handleProgress at hreport
  split at hreport
  · cases hreport
    exact hadvance
  have hcancel : ∀ identifier, Counted (if c.hasTimers then c.cancelTimer identifier else c) := by
    intro identifier
    split
    · obtain ⟨timers, heq⟩ := cancelTimer_eq c identifier
      rw [heq]
      exact hadvance
    · exact hadvance
  cases p with
  | connected =>
    cases hreport
    exact hcancel c.connectTimer
  | requestWritten =>
    simp only [armFirstByteDeadline] at hreport
    split at hreport
    · cases hreport
      exact hadvance
    · obtain ⟨_, _, rfl⟩ := map_eq_some_iff.mp hreport
      exact hadvance
  | firstByte =>
    cases hreport
    exact hcancel c.firstByteTimer
  | responseHeader =>
    cases hreport
    exact hadvance

lemma Counted.reportProgress (h : Counted d) {reports : List (UpstreamProgress × Instant)}
    (hreports : d.reportProgress reports = some d') : Counted d' := by
  induction reports generalizing d with
  | nil =>
    cases hreports
    exact h
  | cons head rest ih =>
    obtain ⟨c, hc, hrest⟩ := bind_eq_some_iff.mp hreports
    exact ih (h.report hc) hrest

lemma Counted.attempts (h : Counted d) (hfin : d.finished = false) (hd : d.Attempts d') :
    Counted d' := by
  obtain ⟨instant, d₁, reports, d₂, _, harm, hreports, hsettles⟩ := hd
  obtain ⟨timers, connectTimer, firstByteTimer, hbegin⟩ := cancelAttemptDeadlines_eq d
  have hopen : Counted d₁.openUpstream := by
    intro _
    rw [beginAttempt, hbegin, armConnectDeadline] at harm
    split at harm
    · cases harm
      exact congrArg (· + 1) (h hfin)
    · obtain ⟨_, _, rfl⟩ := map_eq_some_iff.mp harm
      exact congrArg (· + 1) (h hfin)
  exact (hopen.reportProgress hreports).settles hsettles

lemma Counted.next {e : Exchange.Event} (h : Counted d) (hnext : d.Next e d') : Counted d' := by
  cases hnext with
  | settles _ hd => exact h.settles hd
  | progress p now instant hreport => exact h.report hreport
  | @fire _ now answers callback identifier timers hpop hfires =>
    cases callback with
    | attempt generation =>
      rw [Fires] at hfires
      split at hfires
      · rw [hfires]
        exact h
      · exact counted_fades_conclude hfires
    | total => exact counted_fades_conclude hfires
    | other =>
      cases hfires
      exact h
  | scheduleOther deadline hschedule => exact h
  | cancelOther identifier hpending => exact h
  | retry launch answers hfin hd => exact h.attempts hfin hd
  | noRetry launch answers hfin _ hd => exact counted_fades_conclude hd
  | gatewayExpired => exact h

end Deadlines

/-! ## Results of attempts -/

namespace Lifecycle

/-- The results in the history of an unfinished transaction are those of past attempts, or
of the last one. -/
def PastResults (c : Lifecycle) : Prop :=
  c.tx.finished = false → ∀ k result status,
    Effect.delivered k result status ∈ c.tx.ledger.journal → k < c.tx.attempts

structure Awaited (c : Lifecycle) : Prop where
  past : PastResults c
  /-- The running attempt has no result yet. -/
  running : c.tx.finished = false → c.running.isSome → c.tx.attempts ≠ 0 ∧
    ∀ result status, Effect.delivered c.tx.attempt result status ∉ c.tx.ledger.journal
  /-- An attempt runs, or a retry is queued. -/
  going : c.tx.finished = false → c.destroyed = false → c.running.isSome ∨ c.queued ≠ 0

variable {c d : Lifecycle}

lemma PastResults.course (h : PastResults c) (hs : SameState c d) : PastResults d := by
  rw [PastResults, hs.finished, hs.journal, hs.attempts]
  exact h

lemma awaited_of_finished (hfin : c.tx.finished) : Awaited c where
  past hf := by simp [hfin] at hf
  running hf := by simp [hfin] at hf
  going hf := by simp [hfin] at hf

lemma Awaited.result (h : Awaited c) (hrun : c.running.isSome) (r : UpstreamResult) :
    Awaited ((c.noteDelivered r).result r) := by
  rcases result_cases (c.noteDelivered r) r with hfin | ⟨hfin, -, heq⟩
  · exact awaited_of_finished hfin
  · have hcourse := SameCourse.result (c.noteDelivered r) r
    rw [heq] at hcourse ⊢
    refine ⟨fun _ k result status hk => ?_, fun _ hsome => Bool.noConfusion hsome,
      fun _ _ => .inr (Nat.succ_ne_zero _)⟩
    rw [hcourse.journal, journal_noteDelivered] at hk
    rw [hcourse.attempts]
    rcases mem_cons.mp hk with heq | hk
    · cases heq
      exact Nat.sub_lt (Nat.pos_of_ne_zero (h.running hfin hrun).1) one_pos
    · exact h.past hfin k result status hk

lemma awaited_openUpstream (h : PastResults c) : Awaited c.openUpstream := by
  have hpast : c.tx.finished = false → ∀ k result status,
      Effect.delivered k result status ∈ c.openUpstream.tx.ledger.journal → k < c.tx.attempts := by
    intro hfin k result status hk
    rw [journal_openUpstream] at hk
    exact h hfin k result status (by simpa using hk)
  refine ⟨fun hfin k result status hk => Nat.lt_succ_of_lt (hpast hfin k result status hk),
    fun hfin _ => ⟨Nat.succ_ne_zero _, fun result status hk => ?_⟩, fun _ _ => .inl rfl⟩
  exact lt_irrefl c.tx.attempts (hpast hfin _ result status hk)

lemma Awaited.endExecute (h : Awaited c) (hrun : c.running.isSome) (outcome : StartOutcome) :
    Awaited (c.endExecute outcome) := by
  cases outcome with
  | pending => exact { h with }
  | failed failure =>
    have hr := h.result hrun failure.result
    exact { hr with }
  | raised => exact h.result hrun .connectError

lemma awaited_runRetry (h : PastResults c) (launch : Launch) : Awaited (c.runRetry launch) := by
  cases hfin : c.tx.finished with
  | true =>
    rw [runRetry, if_pos hfin]
    exact awaited_of_finished hfin
  | false =>
    rcases runRetry_cases hfin launch with ⟨d, heq, _⟩ | ⟨d, heq, hs, _⟩
    · rw [heq]
      exact awaited_of_finished (finished_fail d)
    · rw [heq]
      have hrun := (awaited_openUpstream (h.course hs)).endExecute rfl launch.outcome
      exact { hrun with }

lemma awaited_begin (h : PastResults c) (launch : Launch) : Awaited (c.begin_ launch) := by
  rcases begin_cases c launch with ⟨d, heq, _, hfin⟩ | ⟨d, heq, hs⟩
  · rw [heq]
    exact awaited_of_finished hfin
  · rw [heq]
    exact (awaited_openUpstream (h.course hs)).endExecute rfl launch.outcome

lemma Awaited.noteHead (h : Awaited c) (hrun : c.running = some none) (head : HttpResponseHead) :
    Awaited ((c.noteHead head).handleHead head) := by
  have hsome : c.running.isSome := by
    rw [hrun]
    rfl
  rw [handleHead]
  split
  · exact ⟨h.past, fun hfin _ => h.running hfin hsome, fun _ _ => .inl rfl⟩
  · -- the commit is a milestone, but not a result
    have hmem : ∀ {k result status}, Effect.delivered k result status ∈
        Effect.committed :: c.tx.ledger.journal →
        Effect.delivered k result status ∈ c.tx.ledger.journal := by simp
    refine ⟨fun hfin k result status hk => h.past hfin k result status (hmem hk),
      fun hfin _ => ⟨(h.running hfin hsome).1, fun result status hk => ?_⟩, fun _ _ => .inl rfl⟩
    exact (h.running hfin hsome).2 result status (hmem hk)

lemma Awaited.next {e : Exchange.Event} (h : Awaited c) (hinv : RetryInv c)
    (hnext : c.Next e d) : Awaited d := by
  cases hnext with
  | quiet => exact h
  | head head answers hrun => exact h.noteHead hrun head
  | headAbort head answers hrun => exact awaited_of_finished (finished_abort _)
  | abort => exact awaited_of_finished (finished_abort c)
  | result r answers hrun _ => exact h.result hrun r
  | timeout now answers => exact awaited_of_finished (finished_timeout c)
  | retry launch answers hqueued => exact awaited_runRetry (by exact h.past) launch
  | cancelled launch answers running _ hcancels =>
    exact awaited_of_finished (hinv.cancels (by omega))
  | clientDestroyed | gatewayExpired => exact { h with }
  | dropped hrun =>
    have hpast : PastResults { c with running := none } := h.past
    exact ⟨hpast.course ⟨.destroy _, rfl, rfl, rfl, rfl, rfl⟩,
      fun _ hsome => Bool.noConfusion hsome, fun _ hdestroyed => Bool.noConfusion hdestroyed⟩
  | destroyed hrun hqueued =>
    refine ⟨h.past.course ⟨.destroy c, rfl, rfl, rfl, rfl, rfl⟩, fun _ hsome => ?_,
      fun _ hdestroyed => Bool.noConfusion hdestroyed⟩
    rw [show c.destroy.running = none from hrun] at hsome
    cases hsome

end Lifecycle

/-! ## Runs -/

namespace Exchange

/-- No deadline of the current attempt is handled while its retry is queued. -/
def Undisturbed (x : Exchange) (e : Event) : Prop :=
  ∀ now answers identifier timers, e = .fire now answers →
    x.timers.popDue now = some (.attempt x.tx.generation, identifier, timers) →
    x.tx.finished = false → Deferred.retry ∉ x.deferred

/-- A deadline of the attempt `generation - 1` that ends the transaction ends the current
attempt, which is running: it has no result, and no retry is queued. -/
def EndsRunning (x : Exchange) (e : Event) : Prop :=
  ∀ now answers generation identifier timers y, e = .fire now answers →
    x.timers.popDue now = some (.attempt generation, identifier, timers) → x.step e = some y →
    x.tx.finished = false → y.tx.finished →
    generation ≠ 0 ∧ x.tx.attempt = generation - 1 ∧ x.upstream.isSome ∧
      (∀ result status, Effect.delivered x.tx.attempt result status ∉ x.tx.ledger.trace) ∧
      Deferred.retry ∉ x.deferred

/-- What a deadline callback relies on. -/
structure AttemptInv (x : Exchange) : Prop where
  counted : x.deadlines.Counted
  retry : x.lifecycle.RetryInv
  awaited : x.lifecycle.Awaited

lemma AttemptInv.next {x y : Exchange} {e : Event} (h : AttemptInv x)
    (hstep : x.step e = some y) : AttemptInv y :=
  have hnext := (step_next hstep).2
  ⟨h.counted.next (step_deadlines hstep), h.retry.next hnext, h.awaited.next h.retry hnext⟩

/-- The deadlines of the current attempt end the transaction, and no others. -/
lemma finished_fire_iff {x y : Exchange} {now : Instant} {answers : List SendResult}
    {generation identifier : ℕ} {timers : TimerQueue Deadline}
    (hpop : x.timers.popDue now = some (.attempt generation, identifier, timers))
    (hstep : x.step (.fire now answers) = some y) (hfin : x.tx.finished = false) :
    y.tx.finished ↔ generation = x.tx.generation := by
  obtain ⟨_, hstep⟩ := ite_none_left_eq_some.mp hstep
  dsimp only at hstep
  rw [hpop] at hstep
  cases hstep
  dsimp only
  by_cases hgeneration : generation = x.tx.generation
  · refine iff_of_true ?_ hgeneration
    have hend := finished_timeout ({ x with timers } : Exchange).lifecycle
    rw [← lifecycle_finishGatewayTimeout answers] at hend
    have hhandled : ({ x with timers } : Exchange).runDeadline answers (.attempt generation) =
        ({ x with timers } : Exchange).finishGatewayTimeout answers := by
      simp [runDeadline, handleDeadline, hfin, hgeneration]
    rw [hhandled]
    exact hend
  · refine iff_of_false ?_ hgeneration
    have hignored : ({ x with timers } : Exchange).runDeadline answers (.attempt generation) =
        { x with timers } := by simp [runDeadline, handleDeadline, hgeneration]
    rw [hignored, hfin]
    exact false_ne_true

lemma AttemptInv.endsRunning {x : Exchange} {e : Event} (h : AttemptInv x)
    (he : Undisturbed x e) : EndsRunning x e := by
  rintro now answers generation identifier timers y rfl hpop hstep hfin hend
  obtain rfl := (finished_fire_iff hpop hstep hfin).mp hend
  have hqueued := he now answers identifier timers rfl hpop hfin
  have hlive : x.destroyed = false := (step_next hstep).1
  have hrun : x.lifecycle.running.isSome := by
    refine (h.awaited.going hfin hlive).resolve_right fun hne => hne ?_
    exact count_eq_zero.mpr hqueued
  obtain ⟨hattempts, hundelivered⟩ := h.awaited.running hfin hrun
  have hcounted : x.tx.generation = x.tx.attempts := h.counted hfin
  refine ⟨?_, ?_, ?_, fun result status hk => ?_, hqueued⟩
  · rw [hcounted]
    exact hattempts
  · rw [hcounted]
    rfl
  · simpa [lifecycle] using hrun
  · exact hundelivered result status (mem_filter.mpr ⟨hk, rfl⟩)

lemma undisturbed_of_endsRunning {x y : Exchange} {e : Event} (hstep : x.step e = some y)
    (h : EndsRunning x e) : Undisturbed x e := by
  rintro now answers identifier timers rfl hpop hfin
  have hend := (finished_fire_iff hpop hstep hfin).mpr rfl
  exact (h now answers _ identifier timers y rfl hpop hstep hfin hend).2.2.2.2

variable {config : TransactionConfig} {client : ClientConnection} {timers : TimerQueue Deadline}
  {gatewayUp : Bool} {now : Instant} {launch : Launch} {answers : List SendResult} {x : Exchange}
  {es : List Event}

section
variable (hstart : start config client timers gatewayUp now launch answers = some x)
include hstart

lemma counted_start : x.deadlines.Counted := by
  cases gatewayUp with
  | false =>
    cases hstart
    exact Deadlines.counted_of_finished rfl
  | true =>
    obtain ⟨instant, d, harm, hbegin⟩ := deadlines_begin_ answers rfl hstart
    have hd : d.Counted ∧ d.finished = false := by
      rw [Deadlines.armTotalDeadline] at harm
      split at harm
      · cases harm
        exact ⟨fun _ => rfl, rfl⟩
      · obtain ⟨_, _, rfl⟩ := map_eq_some_iff.mp harm
        exact ⟨fun _ => rfl, rfl⟩
    rcases hbegin with hattempts | hend
    · exact hd.1.attempts hd.2 hattempts
    · rw [hend]
      exact Deadlines.counted_of_finished (Deadlines.finished_conclude _ 1)

lemma attemptInv_start : AttemptInv x := by
  refine ⟨counted_start hstart, ?_, ?_⟩
  · rw [lifecycle_begin_ answers hstart]
    exact retryInv_begin rfl rfl rfl launch
  · rw [lifecycle_begin_ answers hstart]
    refine awaited_begin (fun _ k result status hk => ?_) launch
    cases hk

/-- **A deadline ends only a running attempt** in a run exactly when no deadline of an attempt is
handled while its retry is queued. -/
theorem endsRunning_iff_undisturbed :
    Along step EndsRunning x es ↔ Along step Undisturbed x es := by
  have hinv := attemptInv_start hstart
  clear hstart
  induction es generalizing x with
  | nil => exact Iff.rfl
  | cons e es ih =>
    refine forall₂_congr fun y hy => and_congr ?_ (ih (hinv.next hy))
    exact ⟨undisturbed_of_endsRunning hy, hinv.endsRunning⟩

end

/-- The first attempt fails, its replacement is ended by its connect deadline. -/
theorem endsRunning_replacement :
    ∃ x, start getRequest waitingClient {} true 0 { decision := candidate } [] = some x ∧
      Along step EndsRunning x [.result .connectError [],
        .runDeferred { decision := candidate, now := 10 } [], .fire 5000000010 []] := by
  obtain ⟨x, hx⟩ := exists_start
  refine ⟨x, hx, (endsRunning_iff_undisturbed hx).mpr ?_⟩
  have hidle : ((x.step (.result .connectError [])).bind
      (step · (.runDeferred { decision := candidate, now := 10 } []))).map (·.deferred) =
        some [] := by
    cases hx
    decide +kernel
  intro y hy
  refine ⟨nofun, fun z hz => ⟨nofun, fun w hw => ⟨fun _ _ _ _ _ _ _ => ?_, trivial⟩⟩⟩
  rw [hy, bind_some, hz] at hidle
  have hempty : z.deferred = [] := some.inj hidle
  simp [hempty]

/-- The connect attempt fails when its deadline is due, and the timer descriptor is another
ready event of the batch: the transaction ends while its retry is queued. -/
theorem endsRunning_fails_queuedRetry :
    ∃ x y, start getRequest waitingClient {} true 0 { decision := candidate } [] = some x ∧
      x.step (.result .connectError []) = some y ∧ Deferred.retry ∈ y.deferred ∧
      ¬EndsRunning y (.fire 5000000000 []) := by
  have hrun : ((start getRequest waitingClient {} true 0 { decision := candidate } []).bind
      (step · (.result .connectError []))).map (fun y => (y.deferred, y.tx.finished,
        (y.timers.popDue 5000000000).map fun due => (due.1, due.2.1),
        (y.step (.fire 5000000000 [])).map (·.tx.finished))) =
      some ([.retry], false, some (.attempt 1, 2), some true) := by decide +kernel
  obtain ⟨y, hy, hfacts⟩ := map_eq_some_iff.mp hrun
  obtain ⟨x, hx, hstep⟩ := bind_eq_some_iff.mp hy
  simp only [Prod.mk.injEq, map_eq_some_iff] at hfacts
  obtain ⟨hdeferred, hfin, ⟨⟨callback, identifier, timers⟩, hpop, rfl, rfl⟩, z, hz, hend⟩ := hfacts
  have hqueued : Deferred.retry ∈ y.deferred := by simp [hdeferred]
  refine ⟨x, y, hx, hstep, hqueued, fun h => ?_⟩
  exact (h 5000000000 [] 1 2 timers z rfl hpop hz hfin hend).2.2.2.2 hqueued

end Exchange
end AegisGate.Proxy
