import AegisGate.Proxy.Lifecycle

/-!
# The guards of a transaction

A transaction holds its place among the requests in flight, the handle of its metric, its
log record, and for each attempt a slot of the endpoint's active count. Each of them is
released or emitted once, by whichever handler ends the request.

What is held plus what the history says was released is conserved by every operation of
the ledger, so it only remains to see that an unfinished transaction holds its guards and
a finished one holds none.
-/

namespace AegisGate.Proxy
open Http Health Ledger

def Effect.isGuard : Effect → Bool
  | ended | inflightReleased | metricCompleted .. | logged .. | activeAcquired _
  | activeReleased _ => true
  | _ => false

/-- What releases at the end of a request. -/
structure Guards where
  reservation : Bool
  metricRequest : Bool
  hasLogCallback : Bool
  isLogged : Bool
  active : Option ℕ
  deriving DecidableEq

namespace Ledger

def guards (l : Ledger) : Guards where
  reservation := l.reservation
  metricRequest := l.metricRequest
  hasLogCallback := l.hasLogCallback
  isLogged := l.isLogged
  active := l.activeReservation

/-- Held and released add up: `ended` counts the ends, `hasReservation` and `hasMetrics` say
what there was to release, and attempts below `started` have been started. -/
structure Conserved (l : Ledger) (hasReservation hasMetrics : Bool) (started ended : ℕ) : Prop where
  ended : l.trace.countP (· == .ended) = ended
  inflight : l.trace.countP (· == .inflightReleased) + l.reservation.toNat = hasReservation.toNat
  metric : l.trace.countP Effect.isMetric + l.metricRequest.toNat = hasMetrics.toNat
  log : l.trace.countP Effect.isLog = l.isLogged.toNat
  active : ∀ k, l.trace.countP (· == .activeReleased k) + (l.activeReservation == some k).toNat =
    l.trace.countP (· == .activeAcquired k)
  once : ∀ k, l.trace.countP (· == .activeAcquired k) ≤ 1
  fresh : ∀ k, started ≤ k → l.trace.countP (· == .activeAcquired k) = 0

section
variable (l : Ledger)

@[simp] lemma guards_emit (e : Effect) : (l.emit e).guards = l.guards := rfl

@[simp] lemma guards_releaseReservation :
    l.releaseReservation.guards = { l.guards with reservation := false } := by
  rw [releaseReservation]
  split
  · rfl
  · next h => simp [guards, h]

@[simp] lemma guards_releaseActive :
    l.releaseActive.guards = { l.guards with active := none } := by
  rw [releaseActive]
  split
  · next h => simp [guards, h]
  · rfl

@[simp] lemma guards_acquireActive (attempt : ℕ) :
    (l.acquireActive attempt).guards = { l.guards with active := some attempt } := by
  have h := guards_releaseActive l
  simp only [guards, Guards.mk.injEq] at h
  simp [acquireActive, guards, emit, h]

@[simp] lemma guards_completeMetric (status : ℕ) (upstream : Option Config.Endpoint)
    (reason : TerminalReason) :
    (l.completeMetric status upstream reason).guards =
    { l.guards with metricRequest := false } := by
  rw [completeMetric]
  split
  · rfl
  · next h => simp [guards, h]

@[simp] lemma guards_logTerminal (status : ℕ) (reason : TerminalReason) (retries : ℕ) :
    (l.logTerminal status reason retries).guards =
      { l.guards with isLogged := l.guards.isLogged || l.guards.hasLogCallback } := by
  rw [logTerminal]
  split <;> cases hlogged : l.isLogged <;> cases hcallback : l.hasLogCallback <;>
    simp_all [guards, emit]

@[simp] lemma guards_account (success : Bool) : (l.account success).guards = l.guards := by
  rw [account]
  split
  · rfl
  · split
    · rfl
    · rw [publish]
      split <;> rfl

@[simp] lemma guards_resetLink : l.resetLink.guards = l.guards := by
  rw [resetLink]
  split
  · rfl
  · split <;> rfl

@[simp] lemma guards_installLink (attempt : ℕ) (link : Option (ℕ × ℕ × AttemptPermit)) :
    (l.installLink attempt link).guards = l.guards := by
  cases link <;> rfl

end

/-! ## Conservation -/

namespace Conserved
variable {l : Ledger} {hasReservation hasMetrics : Bool} {started ended : ℕ}

section
variable (h : Conserved l hasReservation hasMetrics started ended)
include h

lemma congr {l' : Ledger} (hguards : l'.guards = l.guards) (htrace : l'.trace = l.trace) :
    Conserved l' hasReservation hasMetrics started ended := by
  simp only [guards, Guards.mk.injEq] at hguards
  obtain ⟨hreservation, hmetric, -, hlogged, hactive⟩ := hguards
  constructor <;> rw [htrace]
  · exact h.ended
  · rw [hreservation]
    exact h.inflight
  · rw [hmetric]
    exact h.metric
  · rw [hlogged]
    exact h.log
  · rw [hactive]
    exact h.active
  · exact h.once
  · exact h.fresh

lemma entry {m : Ledger} {e : Effect} (htrace : m.trace = e :: l.trace)
    (hinflight : (e == .inflightReleased).toNat + m.reservation.toNat = l.reservation.toNat)
    (hmetric : e.isMetric.toNat + m.metricRequest.toNat = l.metricRequest.toNat)
    (hlog : m.isLogged.toNat = l.isLogged.toNat + e.isLog.toNat)
    (hactive : ∀ k, (e == .activeReleased k).toNat + (m.activeReservation == some k).toNat =
      (l.activeReservation == some k).toNat + (e == .activeAcquired k).toNat)
    (hfresh : ∀ k, e = .activeAcquired k → started = k) :
    Conserved m hasReservation hasMetrics (started + (e == .activeAcquired started).toNat)
      (ended + (e == .ended).toNat) := by
  have hcount : ∀ p : Effect → Bool, m.trace.countP p = l.trace.countP p + (p e).toNat := by
    intro p
    rw [htrace, List.countP_cons]
    cases p e <;> rfl
  have hother : ∀ k, k ≠ started → (e == .activeAcquired k) = false := by
    intro k hk
    rw [beq_eq_false_iff_ne]
    exact fun heq => hk (hfresh k heq).symm
  refine ⟨?_, ?_, ?_, ?_, fun k => ?_, fun k => ?_, fun k hk => ?_⟩
  · rw [hcount, h.ended]
  · rw [hcount, Nat.add_assoc, hinflight]
    exact h.inflight
  · rw [hcount, Nat.add_assoc, hmetric]
    exact h.metric
  · rw [hcount, hlog, h.log]
  · rw [hcount, hcount, ← h.active k, Nat.add_assoc, hactive k]
    omega
  · rw [hcount]
    by_cases hk : k = started
    · rw [h.fresh k (by omega)]
      cases e == .activeAcquired k <;> decide
    · rw [hother k hk]
      exact h.once k
  rw [hcount]
  by_cases heq : k = started
  · -- The attempt is counted only if it is not the one just started.
    rw [h.fresh k (by omega), heq]
    rw [heq] at hk
    omega
  · rw [hother k heq]
    exact h.fresh k (by omega)

lemma emit {e : Effect}
    (he : e.isGuard = false) : Conserved (l.emit e) hasReservation hasMetrics started ended := by
  have hne : ∀ a : Effect, a.isGuard → (e == a) = false := by
    intro a ha
    rw [beq_eq_false_iff_ne]
    intro heq
    rw [heq, ha] at he
    cases he
  have hmetric : e.isMetric = false := by cases e <;> first | rfl | cases he
  have hlog : e.isLog = false := by cases e <;> first | rfl | cases he
  have hentry := h.entry (m := l.emit e) rfl (by rw [hne _ rfl]; exact Nat.zero_add _)
    (by rw [hmetric]; exact Nat.zero_add _) (by rw [hlog]; rfl)
    (fun k => by rw [hne _ rfl, hne _ rfl]; exact Nat.add_comm _ _)
    (fun k heq => by rw [heq] at he; cases he)
  rw [hne _ rfl, hne _ rfl] at hentry
  exact hentry

lemma end_ : Conserved (l.emit .ended) hasReservation hasMetrics started (ended + 1) :=
  h.entry (e := .ended) rfl (Nat.zero_add _) (Nat.zero_add _) rfl (fun _ => Nat.add_comm _ _) nofun

lemma releaseReservation :
    Conserved l.releaseReservation hasReservation hasMetrics started ended := by
  rw [Ledger.releaseReservation]
  split
  · next hheld =>
    exact h.entry (e := .inflightReleased) rfl (by rw [hheld]; rfl) (Nat.zero_add _) rfl
      (fun _ => Nat.add_comm _ _) nofun
  · exact h

lemma releaseActive : Conserved l.releaseActive hasReservation hasMetrics started ended := by
  rw [Ledger.releaseActive]
  split
  · exact h
  · next attempt hheld =>
    refine h.entry (e := .activeReleased attempt) rfl (Nat.zero_add _) (Nat.zero_add _) rfl
      (fun k => ?_) nofun
    by_cases heq : attempt = k <;> simp [Ledger.emit, hheld, heq, beq_eq_decide]

lemma acquireActive :
    Conserved (l.acquireActive started) hasReservation hasMetrics (started + 1) ended := by
  have hreleased := h.releaseActive
  have hnone : l.releaseActive.activeReservation = none :=
    congrArg Guards.active (guards_releaseActive l)
  have hentry := hreleased.entry
    (m := l.acquireActive started) (e := .activeAcquired started) rfl (Nat.zero_add _)
    (Nat.zero_add _) rfl
    (fun k => by
      by_cases heq : started = k <;>
        simp [Ledger.acquireActive, Ledger.emit, hnone, heq, beq_eq_decide])
    (fun k heq => by cases heq; rfl)
  simpa [beq_eq_decide] using hentry

lemma succ : Conserved l hasReservation hasMetrics (started + 1) ended :=
  { h with fresh := fun k hk => h.fresh k (by omega) }

lemma completeMetric (status : ℕ) (upstream : Option Config.Endpoint) (reason : TerminalReason) :
    Conserved (l.completeMetric status upstream reason) hasReservation hasMetrics
      started ended := by
  rw [Ledger.completeMetric]
  split
  · next hheld =>
    exact h.entry (e := .metricCompleted status upstream reason) rfl (Nat.zero_add _)
      (by rw [hheld]; rfl) rfl (fun _ => Nat.add_comm _ _) nofun
  · exact h

lemma logTerminal (status : ℕ) (reason : TerminalReason) (retries : ℕ) :
    Conserved (l.logTerminal status reason retries) hasReservation hasMetrics started ended := by
  rw [Ledger.logTerminal]
  split
  · exact h
  next hopen =>
  have hlogged : l.isLogged = false := by
    simp only [Bool.or_eq_true, not_or, Bool.not_eq_true] at hopen
    exact hopen.1
  exact h.entry (e := .logged status reason retries) rfl (Nat.zero_add _) (Nat.zero_add _)
    (by rw [hlogged]; rfl) (fun _ => Nat.add_comm _ _) nofun

lemma account (success : Bool) :
    Conserved (l.account success) hasReservation hasMetrics started ended := by
  rw [Ledger.account]
  split
  · exact h
  split
  · exact h
  rw [publish]
  split
  · exact h.congr rfl rfl
  · apply Conserved.emit
    · exact h.congr rfl rfl
    · rfl

lemma resetLink : Conserved l.resetLink hasReservation hasMetrics started ended := by
  rw [Ledger.resetLink]
  split
  · exact h
  · split
    · exact h.congr rfl rfl
    · apply Conserved.emit
      · exact h.congr rfl rfl
      · rfl

lemma installLink (attempt : ℕ) (link : Option (ℕ × ℕ × AttemptPermit)) :
    Conserved (l.installLink attempt link) hasReservation hasMetrics started ended := by
  cases link with
  | none => exact h
  | some link =>
    apply Conserved.emit
    · exact h.congr rfl rfl
    · rfl

end

end Conserved
end Ledger

/-! ## Transactions -/

namespace Lifecycle

/-- An unfinished transaction holds its guards; a finished one has released them and holds
none. -/
structure GuardInv (config : TransactionConfig) (c : Lifecycle) : Prop where
  conserved : c.tx.ledger.Conserved config.hasReservation config.hasMetrics c.tx.attempts
    c.tx.finished.toNat
  held : c.tx.finished = false → ∃ active, c.tx.ledger.guards =
    ⟨config.hasReservation, config.hasMetrics, config.hasLogCallback, false, active⟩
  clear : c.tx.finished → c.tx.ledger.guards =
    ⟨false, false, config.hasLogCallback, config.hasLogCallback, none⟩

/-- The request has ended, and its metric and log record are due. -/
structure Ending (config : TransactionConfig) (c : Lifecycle) : Prop where
  finished : c.tx.finished
  conserved : c.tx.ledger.Conserved config.hasReservation config.hasMetrics c.tx.attempts 1
  guards : c.tx.ledger.guards = ⟨false, config.hasMetrics, config.hasLogCallback, false, none⟩

variable {config : TransactionConfig} {c d : Lifecycle}

lemma GuardInv.congr (h : GuardInv config c) (hledger : d.tx.ledger = c.tx.ledger)
    (hattempts : d.tx.attempts = c.tx.attempts) (hfin : d.tx.finished = c.tx.finished) :
    GuardInv config d := by
  constructor <;> rw [hledger]
  · rw [hattempts, hfin]
    exact h.conserved
  · rw [hfin]
    exact h.held
  · rw [hfin]
    exact h.clear

lemma GuardInv.book (h : GuardInv config c) {f : Ledger → Ledger}
    (hguards : (f c.tx.ledger).guards = c.tx.ledger.guards)
    (hconserved : (f c.tx.ledger).Conserved config.hasReservation config.hasMetrics c.tx.attempts
      c.tx.finished.toNat) : GuardInv config (c.book f) where
  conserved := hconserved
  held hfin := by
    obtain ⟨active, heq⟩ := h.held hfin
    exact ⟨active, hguards.trans heq⟩
  clear hfin := hguards.trans (h.clear hfin)

lemma GuardInv.emit (h : GuardInv config c) {e : Effect} (he : e.isGuard = false) :
    GuardInv config (c.book (·.emit e)) :=
  h.book rfl (h.conserved.emit he)

lemma GuardInv.note (h : GuardInv config c) {effect : ℕ → Effect}
    (heffect : ∀ k, (effect k).isGuard = false) : GuardInv config (c.note effect) := by
  rw [Lifecycle.note]
  split
  · exact h.emit (heffect _)
  · exact h

lemma finished_note (c : Lifecycle) (effect : ℕ → Effect) :
    (c.note effect).tx.finished = c.tx.finished := by
  rw [note]
  split <;> rfl

lemma GuardInv.release (h : GuardInv config c) (hfin : c.tx.finished = false) :
    Ending config (c.end_.book (·.releaseReservation.releaseActive)) where
  finished := rfl
  conserved := by
    have hconserved := h.conserved
    rw [hfin] at hconserved
    exact hconserved.end_.releaseReservation.releaseActive
  guards := by
    obtain ⟨active, heq⟩ := h.held hfin
    show (Ledger.emit _ _).releaseReservation.releaseActive.guards = _
    rw [guards_releaseActive, guards_releaseReservation, guards_emit, heq]

lemma Ending.settle (h : Ending config c) {f : Ledger → Ledger}
    (hconserved : (f c.tx.ledger).Conserved config.hasReservation config.hasMetrics c.tx.attempts 1)
    (hguards : (f c.tx.ledger).guards = { c.tx.ledger.guards with
      metricRequest := false, isLogged := c.tx.ledger.guards.isLogged ||
        c.tx.ledger.guards.hasLogCallback }) : GuardInv config (c.book f) where
  conserved := by
    show (f c.tx.ledger).Conserved _ _ _ c.tx.finished.toNat
    rw [h.finished]
    exact hconserved
  held hfin := absurd (h.finished.symm.trans hfin) (by simp)
  clear _ := by
    show (f c.tx.ledger).guards = _
    rw [hguards, h.guards]
    simp

lemma Ending.conclude (h : Ending config c) (status : ℕ) (truncated reason : TerminalReason) :
    GuardInv config (c.conclude status truncated reason) := by
  rw [Lifecycle.conclude]
  split
  · exact h.settle (((h.conserved.completeMetric _ _ _).account _).logTerminal _ _ _) (by simp)
  have hsettled := h.settle (f := fun l =>
      (l.completeMetric status c.tx.endpoint .none).logTerminal status reason c.tx.retries)
    ((h.conserved.completeMetric _ _ _).logTerminal _ _ _) (by simp)
  dsimp only
  split
  · exact hsettled.book (guards_account _ _) (hsettled.conserved.account _)
  · exact hsettled

section
variable (h : GuardInv config c)
include h

lemma GuardInv.abort : GuardInv config c.abort := by
  rw [Lifecycle.abort]
  split
  · exact h
  next hfin =>
  have hfin' : (c.note .aborted).tx.finished = false :=
    (finished_note c _).trans (Bool.eq_false_iff.mpr hfin)
  have hnote : GuardInv config (c.note .aborted) := h.note fun _ => rfl
  have hend := hnote.release hfin'
  have hsettled : GuardInv config (((c.note .aborted).end_).book c.settleAbort) :=
    hend.settle (f := fun l => (l.resetLink.completeMetric _ c.tx.endpoint .none).logTerminal _
      .clientAbort c.tx.retries) ((hend.conserved.resetLink.completeMetric _ _ _).logTerminal _ _ _)
      (by simp)
  exact hsettled.congr rfl rfl rfl

lemma GuardInv.fail : GuardInv config c.fail := by
  rw [Lifecycle.fail]
  split
  · exact h
  · next hfin => exact (h.release (Bool.eq_false_iff.mpr hfin)).conclude _ _ _

lemma GuardInv.timeout : GuardInv config c.timeout := by
  rw [Lifecycle.timeout]
  split
  · exact h
  next hfin =>
  have hnote : GuardInv config (c.note .timedOut) := h.note fun _ => rfl
  have hend := hnote.release ((finished_note c _).trans (Bool.eq_false_iff.mpr hfin))
  have hcancel : Ending config (((c.note .timedOut).end_).book
      (·.releaseReservation.releaseActive)).cancelActive :=
    { hend with }
  exact hcancel.conclude _ _ _

lemma GuardInv.noEndpoint
    (hactive : c.tx.ledger.activeReservation = none) : GuardInv config c.noEndpoint := by
  rw [Lifecycle.noEndpoint]
  split
  · exact h
  next hfin =>
  have hfin' : c.tx.finished = false := Bool.eq_false_iff.mpr hfin
  have hconserved := h.conserved
  rw [hfin'] at hconserved
  obtain ⟨active, heq⟩ := h.held hfin'
  have hnone : active = none := (congrArg Guards.active heq).symm.trans hactive
  have hend : Ending config (c.end_.book (·.releaseReservation)) := by
    refine ⟨rfl, hconserved.end_.releaseReservation, ?_⟩
    show (Ledger.emit _ _).releaseReservation.guards = _
    rw [guards_releaseReservation, guards_emit, heq, hnone]
  exact hend.settle (f := fun l => (l.completeMetric 503 none c.tx.noEndpointReason).logTerminal
    503 c.tx.noEndpointReason c.tx.retries)
    ((hend.conserved.completeMetric _ _ _).logTerminal _ _ _) (by simp)

lemma GuardInv.succeed (hfin : c.tx.finished = false) : GuardInv config c.succeed := by
  have hend := h.release hfin
  have hrecord : ∀ reason, GuardInv config ((c.end_.book (·.releaseReservation.releaseActive)).book
      fun l => (l.completeMetric (c.tx.responseStatus {}) c.tx.endpoint .none).logTerminal
        (c.tx.responseStatus {}) reason c.tx.retries) := fun reason =>
    hend.settle ((hend.conserved.completeMetric _ _ _).logTerminal _ _ _) (by simp)
  rw [Lifecycle.succeed, concludeSuccess]
  split
  · have hr := hrecord .none
    exact hr.book (guards_account _ _) (hr.conserved.account _)
  · exact hrecord .clientGone

lemma GuardInv.queueRetry (hfin : c.tx.finished = false) : GuardInv config c.queueRetry := by
  obtain ⟨active, heq⟩ := h.held hfin
  have hreleased : c.tx.ledger.releaseActive.guards =
      ⟨config.hasReservation, config.hasMetrics, config.hasLogCallback, false, none⟩ := by
    rw [guards_releaseActive, heq]
  have hguards : (c.settleRetry c.tx.ledger).guards =
      ⟨config.hasReservation, config.hasMetrics, config.hasLogCallback, false, none⟩ := by
    rw [settleRetry]
    split
    · exact (guards_account _ _).trans hreleased
    · exact hreleased
  refine ⟨?_, fun _ => ⟨none, hguards⟩, fun hf => absurd (hfin.symm.trans hf) (by simp)⟩
  show (c.settleRetry c.tx.ledger).Conserved _ _ c.tx.attempts c.tx.finished.toNat
  rw [settleRetry]
  split
  · exact h.conserved.releaseActive.account _
  · exact h.conserved.releaseActive

lemma GuardInv.result (r : UpstreamResult) : GuardInv config ((c.noteDelivered r).result r) := by
  have hnote : GuardInv config (c.noteDelivered r) :=
    (h.emit (e := .delivered c.tx.attempt r c.running.join) rfl).congr rfl rfl rfl
  have hdetach : GuardInv config (c.noteDelivered r).detach := hnote.congr rfl rfl rfl
  rw [Lifecycle.result]
  split
  · exact hnote
  next hfin =>
  split
  · exact hdetach.queueRetry (Bool.eq_false_iff.mpr hfin)
  · split
    · exact hdetach.fail
    · exact hdetach.succeed (Bool.eq_false_iff.mpr hfin)

lemma GuardInv.endExecute (outcome : StartOutcome) : GuardInv config (c.endExecute outcome) := by
  cases outcome with
  | pending => exact h.congr rfl rfl rfl
  | failed failure => exact (h.result failure.result).congr rfl rfl rfl
  | raised => exact h.result .connectError

end

lemma guardInv_openUpstream (hfin : d.tx.finished = false)
    (hconserved : d.tx.ledger.Conserved config.hasReservation config.hasMetrics
      (d.tx.attempts + 1) 0)
    (hguards : ∃ active, d.tx.ledger.guards =
      ⟨config.hasReservation, config.hasMetrics, config.hasLogCallback, false, active⟩) :
    GuardInv config d.openUpstream where
  conserved := by
    show (d.tx.ledger.emit _).Conserved _ _ (d.tx.attempts + 1) d.tx.finished.toNat
    rw [hfin]
    exact hconserved.emit rfl
  held _ := hguards
  clear hf := absurd (hfin.symm.trans hf) (by simp)

/-- `StartUpstream` of an unfinished transaction starts an attempt, or leaves the active slot
alone. -/
lemma GuardInv.startUpstream (h : GuardInv config c) (hfin : c.tx.finished = false)
    (launch : Launch) :
    (∃ d, c.startUpstream launch = (d, false) ∧ GuardInv config d ∧
      d.tx.ledger.activeReservation = c.tx.ledger.activeReservation) ∨
    ∃ d, c.startUpstream launch = (d, true) ∧ GuardInv config d := by
  have hconserved := h.conserved
  rw [hfin] at hconserved
  obtain ⟨active, heq⟩ := h.held hfin
  rw [Lifecycle.startUpstream]
  split
  · exact .inl ⟨c, rfl, h, rfl⟩
  rw [selectAttempt]
  by_cases hprovider : c.beginAttempt.tx.hasProvider
  · rw [if_pos hprovider]
    -- The provider is asked, on a ledger without the previous link.
    have hcall : (c.tx.ledger.resetLink.emit .providerCalled).Conserved config.hasReservation
        config.hasMetrics c.tx.attempts 0 := hconserved.resetLink.emit rfl
    have hguards : (c.tx.ledger.resetLink.emit .providerCalled).guards = c.tx.ledger.guards :=
      (guards_emit _ _).trans (guards_resetLink _)
    cases launch.decision.selection with
    | none =>
      refine .inl ⟨_, rfl, ?_, congrArg Guards.active hguards⟩
      refine ⟨?_, fun _ => ⟨active, hguards.trans heq⟩,
        fun hf => absurd (hfin.symm.trans hf) (by simp)⟩
      show Ledger.Conserved _ _ _ c.tx.attempts c.tx.finished.toNat
      rw [hfin]
      exact hcall
    | some selection =>
      refine .inr ⟨_, rfl, GuardInv.endExecute ?_ _⟩
      apply guardInv_openUpstream
      · exact hfin
      · exact (hcall.installLink c.tx.attempts selection.link).acquireActive.congr rfl rfl
      refine ⟨some c.tx.attempts, ?_⟩
      show (acquireActive _ _).guards = _
      rw [guards_acquireActive, guards_installLink]
      show { (c.tx.ledger.resetLink.emit .providerCalled).guards with
        active := some c.tx.attempts } = _
      rw [hguards, heq]
  rw [if_neg hprovider]
  have hguards : c.tx.ledger.resetLink.guards = c.tx.ledger.guards := guards_resetLink _
  refine .inr ⟨_, rfl, GuardInv.endExecute ?_ _⟩
  apply guardInv_openUpstream
  · exact hfin
  · exact hconserved.resetLink.succ.congr rfl rfl
  · exact ⟨active, hguards.trans heq⟩

lemma GuardInv.runRetry (h : GuardInv config c) (launch : Launch) :
    GuardInv config (c.runRetry launch) := by
  cases hfin : c.tx.finished with
  | true =>
    rw [Lifecycle.runRetry, if_pos hfin]
    exact h
  | false =>
    rcases runRetry_eq hfin launch with heq | ⟨endpoint, heq⟩ <;> rw [heq]
    · exact h.fail
    have hb : GuardInv config { c with tx := { c.tx with endpoint } } := h.congr rfl rfl rfl
    rcases hb.startUpstream hfin launch with ⟨d, heq, hd, -⟩ | ⟨d, heq, hd⟩ <;> rw [heq]
    · exact hd.fail
    · exact hd.congr rfl rfl rfl

lemma guardInv_begin (hc : c.tx = (ProxyTransaction.create config).coarse)
    (hup : c.gatewayUp) (launch : Launch) : GuardInv config (c.begin_ launch) := by
  have hfin : c.tx.finished = false := by rw [hc]; rfl
  have hinit : GuardInv config (c.book ({ · with metricRequest := c.tx.hasMetrics })) := by
    refine ⟨?_, fun _ => ⟨none, ?_⟩, fun hf => absurd (hfin.symm.trans hf) (by simp)⟩
    · show Ledger.Conserved { c.tx.ledger with metricRequest := c.tx.hasMetrics } _ _ c.tx.attempts
        c.tx.finished.toNat
      rw [hc]
      constructor <;> simp [ProxyTransaction.create, ProxyTransaction.coarse]
    · show guards { c.tx.ledger with metricRequest := c.tx.hasMetrics } = _
      rw [hc]
      rfl
  rw [begin_, if_neg (by simp [hup])]
  rcases hinit.startUpstream hfin launch with ⟨d, heq, hd, hactive⟩ | ⟨d, heq, hd⟩
  · rw [heq]
    refine hd.noEndpoint (hactive.trans ?_)
    show c.tx.ledger.activeReservation = none
    rw [hc]
    rfl
  · rw [heq]
    exact hd

lemma GuardInv.handleHead (h : GuardInv config c) (head : HttpResponseHead) :
    GuardInv config (c.handleHead head) := by
  rw [Lifecycle.handleHead]
  split
  · exact h
  · exact (h.emit (e := .committed) rfl).congr rfl rfl rfl

lemma GuardInv.destroy (h : GuardInv config c) (hfin : c.tx.finished) :
    GuardInv config c.destroy := by
  have hclear := h.clear hfin
  have hguards : guards { c.tx.ledger.releaseReservation.releaseActive.resetLink with
      metricRequest := false } = c.tx.ledger.guards := by
    show { (resetLink _).guards with metricRequest := false } = _
    rw [guards_resetLink, guards_releaseActive, guards_releaseReservation,
      hclear]
  have hconserved := h.conserved.releaseReservation.releaseActive.resetLink
  have hbook : GuardInv config (c.book fun l =>
      { l.releaseReservation.releaseActive.resetLink with metricRequest := false }) := by
    refine h.book hguards (hconserved.congr ?_ rfl)
    rw [hguards, guards_resetLink, guards_releaseActive,
      guards_releaseReservation, hclear]
  exact hbook.congr rfl rfl rfl

lemma GuardInv.next {e : Exchange.Event} (h : GuardInv config c) (hkept : e ≠ .dropped)
    (hend : e = .destroyed → c.running = none → c.queued = 0 → c.tx.finished)
    (hnext : c.Next e d) : GuardInv config d := by
  have hhead : ∀ head, GuardInv config (c.noteHead head) := fun head => h.congr rfl rfl rfl
  cases hnext with
  | quiet => exact h
  | head head answers hrun => exact (hhead head).handleHead head
  | headAbort head answers hrun => exact ((hhead head).handleHead head).abort
  | abort => exact h.abort
  | result r answers hrun hhead => exact h.result r
  | timeout now answers => exact h.timeout
  | @retry launch answers n hqueued =>
    have hdequeued : GuardInv config { c with queued := n } := h.congr rfl rfl rfl
    exact hdequeued.runRetry launch
  | cancelled launch answers running hrun hcancels | clientDestroyed | gatewayExpired =>
    exact h.congr rfl rfl rfl
  | dropped hrun => exact absurd rfl hkept
  | destroyed hrun hqueued => exact h.destroy (hend rfl hrun hqueued)

end Lifecycle
end AegisGate.Proxy
