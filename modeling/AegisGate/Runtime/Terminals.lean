import AegisGate.Proxy.Accounting
import AegisGate.Runtime.AttemptSelector

/-!
# The ends of an attempt

`Terminal` says how an attempt ends and which outcome it publishes. Here these are the
handlers of a proxy transaction: each of them leaves the breaker link as its terminal says.
-/

namespace AegisGate.Proxy
open Health AegisGate.Runtime Net Lifecycle

def Tally.settle (t : Tally) : Option Bool → Tally
  | some success => t.account success
  | none => t

/-- The end of the attempt that the result of its exchange is. -/
def Lifecycle.terminal (c : Lifecycle) (r : UpstreamResult) : Terminal :=
  if r = .success then .success (c.tx.responseStatus {})
  else .failure (c.tx.retryableFailure r) c.tx.downstreamResponseCommitted

namespace Lifecycle
variable {c : Lifecycle}

lemma tally_result (hfin : c.tx.finished = false) (r : UpstreamResult) :
    (c.result r).tally = c.tally.settle ((c.terminal r).outcome c.alive) := by
  have hdetach : c.detach.tally = c.tally := rfl
  rw [result, if_neg (by simp [hfin])]
  by_cases hretry : c.tx.retryableFailure r
  · have hr : r ≠ .success := by
      rintro rfl
      simp [ProxyTransaction.retryableFailure, ProxyTransaction.retryableResult] at hretry
    rw [if_pos hretry, tally_queueRetry, terminal, if_neg hr, hretry, hdetach]
    show (if c.alive then _ else _) = Tally.settle _ (if c.alive then _ else _)
    split <;> rfl
  rw [if_neg hretry]
  by_cases hr : r = .success
  · rw [if_neg (by simp [hr]), tally_succeed, terminal, if_pos hr, hdetach]
    show (if c.alive then _ else _) = Tally.settle _ (if c.alive then _ else _)
    split <;> rfl
  · rw [if_pos (by simpa using hr), tally_fail (by exact hfin), terminal, if_neg hr,
      Bool.eq_false_iff.mpr hretry, hdetach]
    show (if c.tx.downstreamResponseCommitted || c.alive then _ else _) =
      Tally.settle _ (if c.tx.downstreamResponseCommitted || c.alive then _ else _)
    split <;> rfl

lemma tally_timeout_settle (hfin : c.tx.finished = false) :
    c.timeout.tally = (c.note .timedOut).tally.settle
      ((Terminal.timeout c.tx.downstreamResponseCommitted).outcome c.alive) := by
  rw [tally_timeout hfin]
  show _ = Tally.settle _ (if c.tx.downstreamResponseCommitted || c.alive then _ else _)
  split <;> rfl

end Lifecycle

namespace Exchange
variable {x : Exchange} (answers : List SendResult)

/-- `HandleUpstream` ends the attempt as its terminal says. -/
lemma tally_handleUpstream (hfin : x.tx.finished = false) (r : UpstreamResult) :
    (x.handleUpstream r {} answers).tx.ledger.tally =
      x.tx.ledger.tally.settle ((x.lifecycle.terminal r).outcome x.client.alive) :=
  (congrArg tally (lifecycle_handleUpstream answers r)).trans
    (tally_result hfin r)

/-- `FinishGatewayTimeout` ends the attempt as its terminal says. -/
lemma tally_finishGatewayTimeout (hfin : x.tx.finished = false) :
    (x.finishGatewayTimeout answers).tx.ledger.tally = (x.lifecycle.note .timedOut).tally.settle
        ((Terminal.timeout x.tx.downstreamResponseCommitted).outcome x.client.alive) :=
  (congrArg tally (lifecycle_finishGatewayTimeout answers)).trans
    (tally_timeout_settle hfin)

/-- `HandleClientAbort` publishes nothing and resets the link. -/
lemma tally_handleClientAbort (hfin : x.tx.finished = false) :
    x.handleClientAbort.tx.ledger.tally = ((x.lifecycle.note .aborted).tally.settle
      (Terminal.abort.outcome x.client.alive)).resetLink :=
  (congrArg tally (lifecycle_handleClientAbort x)).trans (tally_abort hfin)

end Exchange
end AegisGate.Proxy
