import AegisGate.Lib.Ring
import AegisGate.Lib.Transition

/-!
# Event dispatch

The events of an epoll batch are older than what its callbacks do, so `EventLoop` finds the channel
of an event by the token of its registration, and runs deferred tasks when the batch is over. The
calls of callbacks and tasks are events here. A channel is an address; one that is destroyed or
has no interest left is removed. `queued` and `executed` are history.
-/

namespace AegisGate.Net
open Lib Function Option

/-- What a channel knows of its registration. -/
structure Channel where
  added : Bool := false
  token : ℕ := 0

/-- `draining` are the tasks taken after a batch; `waiting` is `epoll_wait`. -/
structure EventLoop where
  registrations : ℕ → Option ℕ := fun _ => none
  channels : ℕ → Channel := fun _ => {}
  nextToken : ℕ := 1
  waiting : Bool := true
  deferredTasks : List ℕ := []
  draining : Option (List ℕ) := none
  queued : List ℕ := []
  executed : List ℕ := []

namespace EventLoop

/-- `UpdateChannel` with the answer of `epoll_ctl`; `none` is `std::overflow_error`. -/
def updateChannel (l : EventLoop) (channel : ℕ) (accepted : Bool) : Option EventLoop :=
  if (l.channels channel).added then some l
  else if l.nextToken = 0 then none
  else
    let token := l.nextToken
    some { l with
      nextToken := incW 64 token
      registrations := update l.registrations token (if accepted then some channel else none)
      channels := update l.channels channel (if accepted then ⟨true, token⟩ else {}) }

def removeChannel (l : EventLoop) (channel : ℕ) : EventLoop :=
  if (l.channels channel).added then
    { l with
      registrations := update l.registrations (l.channels channel).token none
      channels := update l.channels channel {} }
  else l

inductive Event
  | update (channel : ℕ) (accepted : Bool)
  | remove (channel : ℕ)
  | wake
  | queue (task : ℕ)
  | endBatch
  | runTask

def step (l : EventLoop) : Event → Option EventLoop
  | .update channel accepted => l.updateChannel channel accepted
  | .remove channel => some (l.removeChannel channel)
  | .wake => if l.waiting then some { l with waiting := false } else none
  | .queue task =>
    if l.waiting then none
    else
      some { l with deferredTasks := l.deferredTasks ++ [task], queued := l.queued ++ [task] }
  | .endBatch =>
    if !l.waiting && l.draining.isNone then some { l with draining := some [] } else none
  | .runTask =>
    match l.draining, l.deferredTasks with
    | none, _ => none
    | some (task :: rest), _ =>
      some { l with draining := some rest, executed := l.executed ++ [task] }
    | some [], [] => some { l with draining := none, waiting := true }
    | some [], tasks => some { l with draining := some tasks, deferredTasks := [] }

/-- The token of a registration that has ended, or failed. -/
def Retired (l : EventLoop) (token : ℕ) : Prop :=
  (token < l.nextToken ∨ l.nextToken = 0) ∧ l.registrations token = none

structure Inv (l : EventLoop) : Prop where
  /-- An event goes to the channel whose registration carries its token. -/
  current : ∀ token channel, l.registrations token = some channel ↔
    l.channels channel = ⟨true, token⟩
  unused : ∀ token, l.nextToken ≠ 0 → l.nextToken ≤ token → l.registrations token = none
  bounded : l.nextToken < 2 ^ 64
  /-- Every task runs once, in order, before the loop waits. -/
  tasks : l.queued = l.executed ++ l.draining.getD [] ++ l.deferredTasks
  done : l.waiting → l.draining = none ∧ l.deferredTasks = []

variable {l l' : EventLoop}

lemma Inv.updateChannel (h : Inv l) {channel : ℕ} {accepted : Bool}
    (hstep : l.updateChannel channel accepted = some l') :
    Inv l' ∧ ∀ token, l.Retired token → l'.Retired token := by
  rw [EventLoop.updateChannel] at hstep
  split at hstep
  · cases hstep
    exact ⟨h, fun _ => id⟩
  next hadded =>
  obtain ⟨hnext, ⟨⟩⟩ := ite_none_left_eq_some.mp hstep
  have hfree := h.unused _ hnext le_rfl
  have hold : ∀ token, l.registrations token ≠ some channel := fun token heq =>
    hadded (by rw [(h.current token channel).mp heq])
  have hwrap : incW 64 l.nextToken = 0 ∨ incW 64 l.nextToken = l.nextToken + 1 := by
    have := h.bounded
    rw [incW]
    omega
  refine ⟨⟨fun token c => ?_, fun token hne hle => ?_, Nat.mod_lt _ (by decide), h.tasks, h.done⟩,
    ?_⟩
  · have := h.current token c
    have := h.current l.nextToken c
    cases accepted <;> grind [update_apply]
  · grind [update_apply, h.unused token]
  · rintro token ⟨hissued, hnone⟩
    exact ⟨by grind, by grind [update_apply]⟩

lemma Inv.removeChannel (h : Inv l) (channel : ℕ) : Inv (l.removeChannel channel) ∧
    ∀ token, l.Retired token → (l.removeChannel channel).Retired token := by
  rw [EventLoop.removeChannel]
  split
  next hadded =>
    have hold := (h.current (l.channels channel).token channel).mpr (by rw [← hadded])
    refine ⟨⟨fun token c => ?_, fun token hne hle => ?_, h.bounded, h.tasks, h.done⟩, ?_⟩
    · have := h.current token c
      have := h.current token channel
      grind [update_apply]
    · grind [update_apply, h.unused token]
    · rintro token ⟨hissued, hnone⟩
      exact ⟨hissued, by grind [update_apply]⟩
  · exact ⟨h, fun _ => id⟩

lemma Inv.step (h : Inv l) {e : Event} (hstep : l.step e = some l') :
    Inv l' ∧ ∀ token, l.Retired token → l'.Retired token := by
  cases e with
  | update channel accepted => exact h.updateChannel hstep
  | remove channel =>
    cases hstep
    exact h.removeChannel channel
  | queue task =>
    obtain ⟨hbusy, ⟨⟩⟩ := ite_none_left_eq_some.mp hstep
    refine ⟨{ h with tasks := ?_, done := fun hwaiting => absurd hwaiting hbusy }, fun _ => id⟩
    show l.queued ++ [task] = _
    rw [h.tasks, List.append_assoc]
  | wake | endBatch | runTask =>
    have htasks := h.tasks
    have hdone := h.done
    simp only [EventLoop.step] at hstep
    split at hstep <;> cases hstep <;>
      exact ⟨{ h with tasks := by simp_all, done := by simp_all }, fun _ => id⟩

/-- **Event dispatch.** In every state of every run a token finds the channel whose registration
carries it, one whose registration has ended finds none ever after, and the tasks are in order. -/
theorem dispatch (es : List Event) : Always step (fun l => Inv l ∧ ∀ token, l.Retired token →
    ∀ es', Always step (·.Retired token) l es') {} es := by
  have hinit : Inv {} := ⟨by simp, by simp, by decide, rfl, by simp⟩
  refine always_iff_prefix.mpr fun pre _ l _ hrun => ?_
  have h : Inv l := run_invariant (fun l e l' h hstep => (h.step hstep).1) hinit hrun
  refine ⟨h, fun token hretired es' => always_iff_prefix.mpr fun pre' _ l' _ hrun' => ?_⟩
  refine (run_invariant (I := fun l => Inv l ∧ l.Retired token) ?_ ⟨h, hretired⟩ hrun').2
  exact fun l e l' h hstep => (h.1.step hstep).imp_right fun hkeeps => hkeeps token h.2

end EventLoop
end AegisGate.Net
