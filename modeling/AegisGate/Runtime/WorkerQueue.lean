import AegisGate.Runtime.WorkerRuntime

/-!
# Every accepted task runs once

The tasks that were accepted are those that were executed, in order, and those that are queued.
The loop quits with empty queues only, after `Stop`, and nothing is accepted from then on. While
the worker waits, a task in a queue comes with a pending wake: so the worker by itself executes all
that was accepted.

The shutdown task is different. It is taken in another critical section than the one that found
the queue empty. A task and then the shutdown task may both be posted in between; the shutdown
task then runs first.
-/

namespace AegisGate.Runtime.WorkerRuntime
open Lib List Option

/-! ## One call -/

inductive PostOutcome (s : WorkerRuntime) (call : PostCall) : WorkerRuntime → Prop
  | accepted (fd : EventFd) (hcall : call.isShutdown = false) (hrunning : s.running)
      (hstopping : s.stopping = false) :
      PostOutcome s call { s with
        nextSerial := s.nextSerial + 1
        tasks := s.tasks ++ [call]
        wakeFd := some fd.write
        accepted := s.accepted ++ [call] }
  | acceptedShutdown (fd : EventFd) (hcall : call.isShutdown) (hrunning : s.running)
      (hstopping : s.stopping = false) (hnone : s.shutdownTask = none) :
      PostOutcome s call { s with
        nextSerial := s.nextSerial + 1
        shutdownTask := some call
        wakeFd := some fd.write
        accepted := s.accepted ++ [call] }
  | refused : PostOutcome s call { s with
        nextSerial := s.nextSerial + 1
        refused := s.refused ++ [call]
        closed := s.closed ++ if call.kind.hasDescriptor then [call] else [] }

variable {s t : WorkerRuntime} {c : PostCall} {e : WorkerEvent}

lemma wakeLocked_eq_some {fails : Bool} (h : s.wakeLocked fails = some t) :
    ∃ fd : EventFd, t = { s with wakeFd := some fd.write } := by
  unfold wakeLocked at h
  split at h
  · cases h
  · next fd _ =>
    obtain ⟨-, h⟩ := ite_none_left_eq_some.mp h
    exact ⟨fd, (some.inj h).symm⟩

lemma answer_postTask {call : PostCall} (hcall : call.isShutdown = false) (fails : Bool) :
    PostOutcome s call
      (answer call ({ s with nextSerial := s.nextSerial + 1 }.postTask call fails)) := by
  rw [postTask]
  split
  · exact .refused
  split
  · exact .refused
  next hopen =>
  split
  · exact .refused
  split
  · next t hwake =>
    obtain ⟨fd, rfl⟩ := wakeLocked_eq_some hwake
    simp only [Bool.or_eq_true, Bool.not_eq_eq_eq_not, Bool.not_true, not_or, Bool.not_eq_true,
      Bool.not_eq_false] at hopen
    exact .accepted fd hcall hopen.2 hopen.1
  · exact .refused

lemma answer_postShutdown {call : PostCall} (hcall : call.isShutdown) (fails : Bool) :
    PostOutcome s call
      (answer call ({ s with nextSerial := s.nextSerial + 1 }.postShutdown call fails)) := by
  rw [postShutdown]
  split
  · exact .refused
  next hopen =>
  split
  · next t hwake =>
    obtain ⟨fd, rfl⟩ := wakeLocked_eq_some hwake
    simp only [Bool.or_eq_true, Bool.not_eq_eq_eq_not, Bool.not_true, not_or, Bool.not_eq_true,
      Bool.not_eq_false, isSome_eq_false_iff, isNone_iff_eq_none] at hopen
    exact .acceptedShutdown fd hcall hopen.1.1.2 hopen.1.2 hopen.2
  · exact .refused

lemma postOutcome_post (s : WorkerRuntime) (kind : PostKind) (callable fails : Bool) :
    PostOutcome s ⟨s.nextSerial, kind⟩ (s.post kind callable fails) := by
  rw [post, attempt]
  split
  · exact .refused
  split
  · next hkind => exact answer_postShutdown (by simpa [PostCall.isShutdown] using hkind) fails
  · exact .refused
  · next hkind _ => exact answer_postTask (by simpa [PostCall.isShutdown] using hkind) fails

/-! ## The invariant -/

/-- A wake must be pending: what is queued has been overlooked by the `HandleWake` that runs, if
one does. -/
def WakeOwed (s : WorkerRuntime) : Prop :=
  match s.phase with
  | .waiting | .executingShutdown | .deciding => s.tasks ≠ [] ∨ s.shutdownTask ≠ none
  | .drained => s.tasks ≠ []
  | _ => False

structure Handled (s : WorkerRuntime) : Prop where
  /-- Ordinary tasks are executed once each, in the order they were accepted. -/
  ordinary : s.accepted.filter (!·.isShutdown) = s.executed.filter (!·.isShutdown) ++ s.tasks
  /-- So are shutdown tasks. -/
  shutdown : s.accepted.filter (·.isShutdown) =
    s.executed.filter (·.isShutdown) ++ s.shutdownTask.toList
  /-- A call is accepted or refused, and only once. -/
  nodup : (s.accepted ++ s.refused).Nodup
  /-- `PostFd` has closed the descriptors of the calls it refused, each once. -/
  closed : s.closed = s.refused.filter (·.kind.hasDescriptor)
  /-- The loop quits after `Stop` and with empty queues. -/
  quit : s.phase = .quitting ∨ s.phase = .exited →
    s.stopping ∧ s.tasks = [] ∧ s.shutdownTask = none
  /-- A wake is pending for what is queued. -/
  wake : s.WakeOwed → s.WakePending

structure WorkerInv (s : WorkerRuntime) : Prop extends Handled s where
  serial : ∀ c ∈ s.accepted ++ s.refused, c.serial < s.nextSerial
  idle : s.running = false → s.tasks = [] ∧ s.shutdownTask = none
  unready : s.phase = .created ∨ s.phase = .starting → s.running = false
  unstarted : s.started = false → s.phase = .created

lemma workerInv_create (taskCapacity : ℕ) : WorkerInv { taskCapacity } where
  ordinary := rfl
  shutdown := rfl
  nodup := nodup_nil
  closed := rfl
  quit := by simp
  wake := by rintro ⟨⟩
  serial := by simp
  idle := fun _ => ⟨rfl, rfl⟩
  unready := fun _ => rfl
  unstarted := fun _ => rfl

lemma wakePending_write {fd : EventFd} (h : s.wakeFd = some fd.write) :
    s.WakePending := ⟨fd.write, h, fd.pending_write⟩

section
variable (h : WorkerInv s)
include h

lemma WorkerInv.fresh {call : PostCall} (hcall : call.serial = s.nextSerial) :
    call ∉ s.accepted ++ s.refused :=
  fun hmem => Nat.lt_irrefl _ (hcall ▸ h.serial call hmem)

lemma WorkerInv.post {call : PostCall} (hcall : call.serial = s.nextSerial)
    (ht : PostOutcome s call t) : WorkerInv t := by
  have hnodup := nodup_cons.mpr ⟨h.fresh hcall, h.nodup⟩
  have hserial : ∀ c ∈ call :: (s.accepted ++ s.refused), c.serial < s.nextSerial + 1 :=
    forall_mem_cons.mpr
      ⟨hcall ▸ Nat.lt_succ_self _, fun c hc => Nat.lt_succ_of_lt (h.serial c hc)⟩
  have hperm : (s.accepted ++ [call] ++ s.refused).Perm (call :: (s.accepted ++ s.refused)) := by
    rw [append_assoc]
    exact perm_middle
  cases ht with
  | accepted fd hkind hrunning hstopping =>
    exact { h with
      ordinary := by simp [filter_append, h.ordinary, hkind]
      shutdown := by simp [filter_append, h.shutdown, hkind]
      nodup := hperm.nodup_iff.mpr hnodup
      quit := fun hphase => absurd (h.quit hphase).1 (by simp [hstopping])
      wake := fun _ => wakePending_write rfl
      serial := fun c hc => hserial c (hperm.mem_iff.mp hc)
      idle := fun hfalse => by simp [hrunning] at hfalse }
  | acceptedShutdown fd hkind hrunning hstopping hnone =>
    exact { h with
      ordinary := by simp [filter_append, h.ordinary, hkind]
      shutdown := by simp [filter_append, h.shutdown, hkind, hnone]
      nodup := hperm.nodup_iff.mpr hnodup
      quit := fun hphase => absurd (h.quit hphase).1 (by simp [hstopping])
      wake := fun _ => wakePending_write rfl
      serial := fun c hc => hserial c (hperm.mem_iff.mp hc)
      idle := fun hfalse => by simp [hrunning] at hfalse }
  | refused =>
    have hperm' : (s.accepted ++ (s.refused ++ [call])).Perm
        (call :: (s.accepted ++ s.refused)) := by
      rw [← append_assoc]
      exact perm_append_singleton _ _
    exact { h with
      nodup := hperm'.nodup_iff.mpr hnodup
      closed := by simp [filter_append, filter_cons, h.closed]
      serial := fun c hc => hserial c (hperm'.mem_iff.mp hc) }

lemma WorkerInv.stop (fails : Bool) : WorkerInv (s.stop fails) := by
  have hstopping : WorkerInv { s with stopping := true } :=
    { h with quit := fun hphase => ⟨rfl, (h.quit hphase).2⟩ }
  rw [WorkerRuntime.stop]
  cases hwake : ({ s with stopping := true } : WorkerRuntime).wakeLocked fails with
  | none => exact hstopping
  | some t =>
    obtain ⟨fd, rfl⟩ := wakeLocked_eq_some hwake
    exact { hstopping with wake := fun _ => wakePending_write rfl }

lemma WorkerInv.isShutdown_of_tasks (hc : c ∈ s.tasks) : c.isShutdown = false := by
  have hmem : c ∈ s.accepted.filter (!·.isShutdown) := by
    rw [h.ordinary]
    exact mem_append_right _ hc
  simpa using (mem_filter.mp hmem).2

lemma WorkerInv.advance (hold : s.phase.inLoop) (next : WorkerPhase)
    (hnext : next.inLoop)
    (hwake : ({ s with phase := next } : WorkerRuntime).WakeOwed → s.WakePending) :
    WorkerInv { s with phase := next } :=
  { h with
    quit := by rintro (rfl | rfl) <;> cases hnext
    wake := hwake
    unready := by rintro (rfl | rfl) <;> cases hnext
    unstarted := fun hstarted => by simp [h.unstarted hstarted, WorkerPhase.inLoop] at hold }

lemma WorkerInv.start (hopen : s.started = false) :
    WorkerInv { s with started := true, phase := .starting } :=
  { h with
    quit := by simp
    wake := by rintro ⟨⟩
    unready := fun _ => h.unready (.inl (h.unstarted hopen))
    unstarted := by simp }

lemma WorkerInv.ready (hphase : s.phase = .starting) :
    WorkerInv { s with running := true, phase := .waiting } := by
  obtain ⟨htasks, hshutdown⟩ := h.idle (h.unready (.inr hphase))
  exact { h with
    quit := by simp
    wake := fun howed => absurd howed (by simp [WakeOwed, htasks, hshutdown])
    idle := by simp
    unready := by simp
    unstarted := fun hstarted => by simp [h.unstarted hstarted] at hphase }

lemma WorkerInv.runTask (hphase : s.phase = .draining) {call : PostCall} {tasks : List PostCall}
    (htasks : s.tasks = call :: tasks) :
    WorkerInv { s with tasks, executed := s.executed ++ [call], phase := .executing } := by
  have hcall := h.isShutdown_of_tasks (htasks ▸ mem_cons_self)
  exact { h.advance (by rw [hphase]; rfl) .executing rfl (by rintro ⟨⟩) with
    ordinary := by simp [h.ordinary, htasks, filter_append, hcall]
    shutdown := by simp [h.shutdown, filter_append, hcall]
    quit := by simp
    wake := by rintro ⟨⟩
    idle := fun hrunning => by simp [(h.idle hrunning).1] at htasks }

/-- What is queued after `DrainQueue` has returned was posted since. -/
lemma WorkerInv.wake_of_drained (hphase : s.phase = .drained) (htasks : s.tasks ≠ []) :
    s.WakePending :=
  h.wake (by simpa [WakeOwed, hphase] using htasks)

lemma WorkerInv.runShutdown (hphase : s.phase = .drained) {call : PostCall}
    (hsome : s.shutdownTask = some call) :
    WorkerInv { s with
      shutdownTask := none, executed := s.executed ++ [call], phase := .executingShutdown } := by
  have hcall : call.isShutdown := by
    have hmem : call ∈ s.accepted.filter (·.isShutdown) := by
      rw [h.shutdown, hsome]
      simp
    exact (mem_filter.mp hmem).2
  exact { h with
    ordinary := by simp [h.ordinary, filter_append, hcall]
    shutdown := by simp [h.shutdown, hsome, filter_append, hcall]
    quit := by simp
    wake := fun howed => h.wake_of_drained hphase (by simpa [WakeOwed] using howed)
    idle := fun hrunning => by simp [(h.idle hrunning).2] at hsome
    unready := by simp
    unstarted := fun hstarted => by simp [h.unstarted hstarted] at hphase }

lemma WorkerInv.quits (hphase : s.phase = .deciding)
    (hquit : s.stopping ∧ s.tasks = [] ∧ s.shutdownTask = none) :
    WorkerInv { s with phase := .quitting } :=
  { h with
    quit := fun _ => hquit
    wake := by rintro ⟨⟩
    unready := by simp
    unstarted := fun hstarted => by simp [h.unstarted hstarted] at hphase }

lemma WorkerInv.exits (hphase : s.phase = .quitting) :
    WorkerInv { s with running := false, wakeFd := none, phase := .exited } :=
  { h with
    quit := fun _ => h.quit (.inl hphase)
    wake := by rintro ⟨⟩
    idle := fun _ => (h.quit (.inl hphase)).2
    unready := by simp
    unstarted := fun hstarted => by simp [h.unstarted hstarted] at hphase }

lemma WorkerInv.join (hphase : s.phase = .created ∨ s.phase = .exited) :
    WorkerInv { s with wakeFd := none } := by
  have howed : ¬ s.WakeOwed := by
    rcases hphase with hphase | hphase <;> simp [WakeOwed, hphase]
  exact { h with wake := fun h => absurd h howed }

lemma WorkerInv.step (ht : s.step e = some t) : WorkerInv t := by
  cases e with
  | start =>
    rw [WorkerRuntime.step] at ht
    split at ht
    · cases ht
      exact h
    · next hopen =>
      cases ht
      rw [Bool.not_eq_true, Bool.or_eq_false_iff] at hopen
      exact h.start hopen.1
  | ready =>
    obtain ⟨hphase, ⟨⟩⟩ := ite_none_right_eq_some.mp ht
    exact h.ready hphase
  | post kind callable fails =>
    cases ht
    exact h.post rfl (postOutcome_post s kind callable fails)
  | stop fails =>
    cases ht
    exact h.stop fails
  | join =>
    obtain ⟨⟨-, hphase⟩, ⟨⟩⟩ := ite_none_right_eq_some.mp ht
    exact h.join hphase
  | handleWake =>
    obtain ⟨⟨hphase, -⟩, ⟨⟩⟩ := ite_none_right_eq_some.mp ht
    exact { h.advance (by rw [hphase]; rfl) .draining rfl (by rintro ⟨⟩) with wake := by rintro ⟨⟩ }
  | takeTask =>
    obtain ⟨hphase, ht⟩ := ite_none_right_eq_some.mp ht
    split at ht
    · next htasks =>
      cases ht
      exact h.advance (by rw [hphase]; rfl) _ rfl fun howed => absurd htasks howed
    · next htasks =>
      cases ht
      exact h.runTask hphase htasks
  | finishTask =>
    obtain ⟨hphase, ⟨⟩⟩ := ite_none_right_eq_some.mp ht
    exact h.advance (by rw [hphase]; rfl) _ rfl (by rintro ⟨⟩)
  | takeShutdown =>
    obtain ⟨hphase, ht⟩ := ite_none_right_eq_some.mp ht
    split at ht
    · next hnone =>
      cases ht
      exact h.advance (by rw [hphase]; rfl) _ rfl fun howed =>
        h.wake_of_drained hphase (by simpa [WakeOwed, hnone] using howed)
    · next hsome =>
      cases ht
      exact h.runShutdown hphase hsome
  | finishShutdown =>
    obtain ⟨hphase, ⟨⟩⟩ := ite_none_right_eq_some.mp ht
    exact h.advance (by rw [hphase]; rfl) _ rfl fun howed =>
      h.wake (by simpa [WakeOwed, hphase] using howed)
  | decide =>
    obtain ⟨hphase, ht⟩ := ite_none_right_eq_some.mp ht
    split at ht
    · next hquit =>
      cases ht
      exact h.quits hphase hquit
    · cases ht
      exact h.advance (by rw [hphase]; rfl) _ rfl fun howed =>
        h.wake (by simpa [WakeOwed, hphase] using howed)
  | exitLoop =>
    obtain ⟨hphase, ⟨⟩⟩ := ite_none_right_eq_some.mp ht
    exact h.exits hphase

/-! ## What was accepted and what was executed -/

lemma WorkerInv.mem_accepted (hc : c ∈ s.executed) : c ∈ s.accepted := by
  cases hkind : c.isShutdown with
  | true =>
    have hmem : c ∈ s.accepted.filter (·.isShutdown) := by
      rw [h.shutdown]
      exact mem_append_left _ (mem_filter.mpr ⟨hc, hkind⟩)
    exact mem_of_mem_filter hmem
  | false =>
    have hmem : c ∈ s.accepted.filter (!·.isShutdown) := by
      rw [h.ordinary]
      exact mem_append_left _ (mem_filter.mpr ⟨hc, by rw [hkind]; rfl⟩)
    exact mem_of_mem_filter hmem

lemma WorkerInv.not_mem_of_refused (hc : c ∈ s.refused) : c ∉ s.executed :=
  fun hexecuted => (nodup_append.mp h.nodup).2.2 c (h.mem_accepted hexecuted) c hc rfl

lemma WorkerInv.mem_executed (htasks : s.tasks = []) (hc : c ∈ s.accepted)
    (hkind : c.isShutdown = false) : c ∈ s.executed := by
  have hmem : c ∈ s.accepted.filter (!·.isShutdown) :=
    mem_filter.mpr ⟨hc, by rw [hkind]; rfl⟩
  rw [h.ordinary, htasks, append_nil] at hmem
  exact mem_of_mem_filter hmem

lemma WorkerInv.slot (hc : s.shutdownTask = some c) :
    c ∈ s.accepted ∧ c.isShutdown ∧ c ∉ s.executed := by
  have hshutdown := h.shutdown
  rw [hc, toList_some] at hshutdown
  have hmem : c ∈ s.accepted.filter (·.isShutdown) := by
    rw [hshutdown]
    exact mem_append_right _ mem_cons_self
  obtain ⟨haccepted, hkind⟩ := mem_filter.mp hmem
  have hnodup : (s.accepted.filter (·.isShutdown)).Nodup :=
    (nodup_append.mp h.nodup).1.filter _
  rw [hshutdown] at hnodup
  refine ⟨haccepted, hkind, fun hexecuted => ?_⟩
  exact (nodup_append.mp hnodup).2.2 c (mem_filter.mpr ⟨hexecuted, hkind⟩) c
    mem_cons_self rfl

lemma WorkerInv.executed_perm (htasks : s.tasks = [])
    (hshutdown : s.shutdownTask = none) : s.executed.Perm s.accepted := by
  have hordinary := h.ordinary
  have hslot := h.shutdown
  rw [htasks, append_nil] at hordinary
  rw [hshutdown, toList_none, append_nil] at hslot
  have hexecuted := filter_append_perm (·.isShutdown) s.executed
  have haccepted := filter_append_perm (·.isShutdown) s.accepted
  rw [hordinary, hslot] at haccepted
  exact hexecuted.symm.trans haccepted

end

/-! ## The worker by itself -/

/-- Steps of the worker thread alone lead from `s` to `t`. -/
def WorkerReaches (s t : WorkerRuntime) : Prop :=
  ∃ es, (∀ e ∈ es, e.isWorker) ∧ run step s es = some t

lemma WorkerReaches.refl (s : WorkerRuntime) : WorkerReaches s s := ⟨[], nofun, rfl⟩

lemma WorkerReaches.head {u : WorkerRuntime} (he : e.isWorker) (hs : s.step e = some t)
    (h : WorkerReaches t u) : WorkerReaches s u := by
  obtain ⟨es, hes, hrun⟩ := h
  refine ⟨e :: es, forall_mem_cons.mpr ⟨he, hes⟩, ?_⟩
  rw [run_cons, hs]
  exact hrun

def Settles (s : WorkerRuntime) : Prop :=
  ∃ t, WorkerReaches s t ∧ t.tasks = [] ∧ t.shutdownTask = none ∧ t.accepted = s.accepted

lemma Settles.head (he : e.isWorker) (hs : s.step e = some t)
    (haccepted : t.accepted = s.accepted) (h : t.Settles) : s.Settles := by
  obtain ⟨u, hreach, htasks, hshutdown, hsame⟩ := h
  exact ⟨u, hreach.head he hs, htasks, hshutdown, hsame.trans haccepted⟩

lemma settles_of_empty (htasks : s.tasks = []) (hshutdown : s.shutdownTask = none) : s.Settles :=
  ⟨s, .refl s, htasks, hshutdown, rfl⟩

/-- `DrainQueue` and `DrainShutdownTask`. -/
lemma settles_of_draining {s : WorkerRuntime} (hphase : s.phase = .draining) : s.Settles := by
  cases hqueue : s.tasks with
  | nil =>
    refine .head rfl (step_takeTask_nil hphase hqueue) rfl ?_
    cases hshutdown : s.shutdownTask with
    | none => exact settles_of_empty hqueue rfl
    | some call =>
      refine .head rfl (step_takeShutdown_some rfl rfl) rfl ?_
      exact settles_of_empty hqueue rfl
  | cons call tasks =>
    -- One task less is queued.
    have hless : tasks.length < s.tasks.length := by simp [hqueue]
    refine .head rfl (step_takeTask_cons hphase hqueue) rfl ?_
    refine .head rfl (step_finishTask rfl) rfl ?_
    exact settles_of_draining rfl
  termination_by s.tasks.length

lemma WorkerInv.settles_of_waiting (h : WorkerInv s) (hphase : s.phase = .waiting) :
    s.Settles := by
  by_cases hqueued : s.tasks ≠ [] ∨ s.shutdownTask ≠ none
  · have hpending : s.WakePending := h.wake (by simpa [WakeOwed, hphase] using hqueued)
    refine .head (e := .handleWake) rfl (if_pos ⟨hphase, hpending⟩) rfl ?_
    exact settles_of_draining rfl
  · rw [not_or, Decidable.not_not, Decidable.not_not] at hqueued
    exact settles_of_empty hqueued.1 hqueued.2

lemma WorkerInv.settles_of_deciding (h : WorkerInv s) (hphase : s.phase = .deciding) :
    s.Settles := by
  by_cases hquit : s.stopping ∧ s.tasks = [] ∧ s.shutdownTask = none
  · exact settles_of_empty hquit.2.1 hquit.2.2
  · have hstep := step_decide_waiting hphase hquit
    exact .head rfl hstep rfl ((h.step hstep).settles_of_waiting rfl)

lemma WorkerInv.settles_of_executingShutdown (h : WorkerInv s)
    (hphase : s.phase = .executingShutdown) : s.Settles := by
  have hstep := step_finishShutdown hphase
  exact .head rfl hstep rfl ((h.step hstep).settles_of_deciding rfl)

lemma WorkerInv.settles (h : WorkerInv s) : s.Settles := by
  cases hphase : s.phase with
  | created =>
    obtain ⟨htasks, hshutdown⟩ := h.idle (h.unready (.inl hphase))
    exact settles_of_empty htasks hshutdown
  | starting =>
    obtain ⟨htasks, hshutdown⟩ := h.idle (h.unready (.inr hphase))
    exact settles_of_empty htasks hshutdown
  | waiting => exact h.settles_of_waiting hphase
  | draining => exact settles_of_draining hphase
  | executing => exact .head rfl (step_finishTask hphase) rfl (settles_of_draining rfl)
  | drained =>
    cases hshutdown : s.shutdownTask with
    | none =>
      have hstep := step_takeShutdown_none hphase hshutdown
      exact .head rfl hstep rfl ((h.step hstep).settles_of_deciding rfl)
    | some call =>
      have hstep := step_takeShutdown_some hphase hshutdown
      exact .head rfl hstep rfl ((h.step hstep).settles_of_executingShutdown rfl)
  | executingShutdown => exact h.settles_of_executingShutdown hphase
  | deciding => exact h.settles_of_deciding hphase
  | quitting => exact settles_of_empty (h.quit (.inl hphase)).2.1 (h.quit (.inl hphase)).2.2
  | exited => exact settles_of_empty (h.quit (.inr hphase)).2.1 (h.quit (.inr hphase)).2.2

/-! ## The shutdown task -/

section
variable {α : Type} [DecidableEq α]

/-- What stands before `a`. -/
def before (a : α) (l : List α) : List α := l.takeWhile (· ≠ a)

lemma before_append_of_mem {a : α} {l : List α} (h : a ∈ l) (m : List α) :
    before a (l ++ m) = before a l := by
  induction l with
  | nil => cases h
  | cons b l ih =>
    by_cases hb : b = a
    · simp [before, hb]
    · have htail : a ∈ l := (mem_cons.mp h).resolve_left (Ne.symm hb)
      simpa [before, hb] using ih htail

lemma before_append_self {a : α} {l : List α} (h : a ∉ l) : before a (l ++ [a]) = l := by
  rw [before, takeWhile_append_of_pos]
  · simp
  · intro b hb
    have hne : b ≠ a := fun heq => h (heq ▸ hb)
    simpa using hne

end

/-- A shutdown task runs after all ordinary tasks that were accepted before it. -/
def ShutdownLast (s : WorkerRuntime) : Prop :=
  ∀ c ∈ s.executed, c.isShutdown →
    ∀ a ∈ before c s.accepted, a.isShutdown = false → a ∈ before c s.executed

instance (s : WorkerRuntime) : Decidable s.ShutdownLast :=
  inferInstanceAs (Decidable (∀ c ∈ s.executed, _))

/-- `PostShutdown` is not called between the two drains with a task queued. -/
def ShutdownClear (s : WorkerRuntime) (e : WorkerEvent) : Prop :=
  e.isPostShutdown → s.phase = .drained → s.tasks = []

instance (s : WorkerRuntime) (e : WorkerEvent) : Decidable (s.ShutdownClear e) :=
  inferInstanceAs (Decidable (e.isPostShutdown → s.phase = .drained → s.tasks = []))

/-- The invariant of the order: when the shutdown task can be taken, what was accepted before it
has been executed. -/
structure OrderInv (s : WorkerRuntime) : Prop where
  last : s.ShutdownLast
  ready : s.phase = .drained → ∀ c, s.shutdownTask = some c →
    ∀ a ∈ before c s.accepted, a.isShutdown = false → a ∈ s.executed

lemma OrderInv.post (h : WorkerInv s) (ho : OrderInv s) {call : PostCall}
    (hcall : call.serial = s.nextSerial)
    (hclear : call.isShutdown → s.phase = .drained → s.tasks = [])
    (ht : PostOutcome s call t) : OrderInv t := by
  have hlast : ∀ c ∈ s.executed, c.isShutdown →
      ∀ a ∈ before c (s.accepted ++ [call]), a.isShutdown = false → a ∈ before c s.executed := by
    intro c hc hkind
    rw [before_append_of_mem (h.mem_accepted hc)]
    exact ho.last c hc hkind
  cases ht with
  | accepted fd hkind hrunning hstopping =>
    refine ⟨hlast, fun hphase c hc => ?_⟩
    rw [before_append_of_mem (h.slot hc).1]
    exact ho.ready hphase c hc
  | acceptedShutdown fd hkind hrunning hstopping hnone =>
    refine ⟨hlast, fun hphase c hc => ?_⟩
    cases hc
    have hfresh : call ∉ s.accepted := fun hmem =>
      h.fresh hcall (mem_append_left _ hmem)
    rw [before_append_self hfresh]
    exact fun a ha => h.mem_executed (hclear hkind hphase) ha
  | refused => exact ⟨ho.last, ho.ready⟩

lemma OrderInv.frame (ho : OrderInv s) (haccepted : t.accepted = s.accepted)
    (hexecuted : t.executed = s.executed) (hphase : t.phase ≠ .drained) : OrderInv t where
  last := by
    rw [ShutdownLast, haccepted, hexecuted]
    exact ho.last
  ready := fun h => absurd h hphase

lemma OrderInv.step (h : WorkerInv s) (ho : OrderInv s) (hclear : s.ShutdownClear e)
    (ht : s.step e = some t) : OrderInv t := by
  cases e with
  | start =>
    rw [WorkerRuntime.step] at ht
    split at ht
    · cases ht
      exact ho
    · cases ht
      exact ho.frame rfl rfl (by simp)
  | post kind callable fails =>
    cases ht
    refine ho.post h rfl (fun hkind => ?_) (postOutcome_post s kind callable fails)
    have hkind : kind = .shutdown := by simpa [PostCall.isShutdown] using hkind
    rw [hkind] at hclear
    exact hclear rfl
  | stop fails =>
    cases ht
    rw [WorkerRuntime.stop]
    cases hwake : ({ s with stopping := true } : WorkerRuntime).wakeLocked fails with
    | none => exact ⟨ho.last, ho.ready⟩
    | some t =>
      obtain ⟨fd, rfl⟩ := wakeLocked_eq_some hwake
      exact ⟨ho.last, ho.ready⟩
  | join =>
    obtain ⟨-, ⟨⟩⟩ := ite_none_right_eq_some.mp ht
    exact ⟨ho.last, ho.ready⟩
  | takeTask =>
    obtain ⟨-, ht⟩ := ite_none_right_eq_some.mp ht
    split at ht
    · next htasks =>
      cases ht
      refine ⟨ho.last, fun _ c hc a ha => h.mem_executed htasks ?_⟩
      exact (takeWhile_sublist _).subset ha
    next call tasks htasks =>
    cases ht
    have hcall := h.isShutdown_of_tasks (htasks ▸ mem_cons_self)
    refine ⟨fun c hc hkind => ?_, by simp⟩
    have hc : c ∈ s.executed := by
      rcases mem_append.mp hc with hc | hc
      · exact hc
      · rw [mem_singleton.mp hc, hcall] at hkind
        cases hkind
    rw [before_append_of_mem hc]
    exact ho.last c hc hkind
  | takeShutdown =>
    obtain ⟨hphase, ht⟩ := ite_none_right_eq_some.mp ht
    split at ht
    · cases ht
      exact ho.frame rfl rfl (by simp)
    next call hsome =>
    cases ht
    refine ⟨fun c hc hkind => ?_, by simp⟩
    rcases mem_append.mp hc with hc | hc
    · rw [before_append_of_mem hc]
      exact ho.last c hc hkind
    · cases mem_singleton.mp hc
      rw [before_append_self (h.slot hsome).2.2]
      exact ho.ready hphase call hsome
  | decide =>
    obtain ⟨-, ht⟩ := ite_none_right_eq_some.mp ht
    split at ht <;> cases ht <;> exact ho.frame rfl rfl (by simp)
  | ready | handleWake | finishTask | finishShutdown | exitLoop =>
    obtain ⟨-, ⟨⟩⟩ := ite_none_right_eq_some.mp ht
    exact ho.frame rfl rfl (by simp)

/-! ## Runs -/

lemma workerInv_run {taskCapacity : ℕ} {es : List WorkerEvent}
    (hrun : run step { taskCapacity } es = some s) : WorkerInv s :=
  run_invariant (fun _ _ _ h ht => h.step ht) (workerInv_create taskCapacity) hrun

/-- **The task queue of a worker.** For every capacity and every interleaving: ordinary tasks are
executed in the order they were accepted, each once, and so are shutdown tasks; a refused call is
not executed and its descriptor is closed once; the loop quits after `Stop` and with empty queues,
so that all that was accepted has been executed; a wake is pending for what is queued while the
worker waits, and the worker by itself executes all that was accepted. If `PostShutdown` is never
called between the two drains with a task queued, shutdown tasks run after all that was accepted
before them. -/
theorem handled_of_run (taskCapacity : ℕ) (es : List WorkerEvent) (s : WorkerRuntime)
    (hrun : run step { taskCapacity } es = some s) :
    s.Handled ∧ (∀ c ∈ s.refused, c ∉ s.executed) ∧
      (s.phase = .quitting ∨ s.phase = .exited → s.executed.Perm s.accepted) ∧
      (∃ t, s.WorkerReaches t ∧ t.accepted = s.accepted ∧ t.executed.Perm s.accepted) ∧
      (Along step ShutdownClear { taskCapacity } es → s.ShutdownLast) := by
  have h := workerInv_run hrun
  refine ⟨h.toHandled, fun c hc => h.not_mem_of_refused hc, ?_, ?_, ?_⟩
  · intro hphase
    obtain ⟨-, htasks, hshutdown⟩ := h.quit hphase
    exact h.executed_perm htasks hshutdown
  · obtain ⟨t, ⟨fs, hfs, hreach⟩, htasks, hshutdown, haccepted⟩ := h.settles
    have ht : WorkerInv t := run_invariant (fun _ _ _ h ht => h.step ht) h hreach
    exact ⟨t, ⟨fs, hfs, hreach⟩, haccepted, haccepted ▸ ht.executed_perm htasks hshutdown⟩
  · intro hclear
    have halways := always_of_along (Q := fun s => WorkerInv s ∧ OrderInv s)
      (fun _ _ _ hq hp ht => ⟨hq.1.step ht, hq.2.step hq.1 hp ht⟩)
      ⟨workerInv_create taskCapacity, ⟨by simp [ShutdownLast], by rintro ⟨⟩⟩⟩ hclear
    exact (halways.final hrun).2.last

/-- The calls of a gateway that starts, serves and stops. -/
def shutdownRun : List WorkerEvent :=
  [.start, .ready, .post .plain true false, .post (.fd (some 9)) true true, .handleWake, .takeTask,
    .post .withLoop true false, .post .shutdown true false, .finishTask, .takeTask, .finishTask,
    .takeTask, .takeShutdown, .stop false, .finishShutdown, .decide]

theorem handled_of_shutdownRun :
    ∃ s, run step { taskCapacity := 1 } shutdownRun = some s ∧ s.phase = .quitting ∧
      s.executed.Perm s.accepted ∧ s.ShutdownLast := by
  have hrun : run step { taskCapacity := 1 } shutdownRun = some _ := rfl
  obtain ⟨-, -, hquit, -, hlast⟩ := handled_of_run 1 shutdownRun _ hrun
  exact ⟨_, hrun, rfl, hquit (.inl rfl), hlast (by decide)⟩

/-- A task and the shutdown task are posted after `DrainQueue` has returned: the shutdown task
runs first. -/
theorem not_shutdownLast_between : ∃ s, run step { taskCapacity := 8 }
      [.start, .ready, .post .plain true false, .handleWake, .takeTask, .finishTask, .takeTask,
        .post .plain true false, .post .shutdown true false, .takeShutdown, .finishShutdown,
        .decide, .handleWake, .takeTask] = some s ∧
      s.accepted = [⟨0, .plain⟩, ⟨1, .plain⟩, ⟨2, .shutdown⟩] ∧
      s.executed = [⟨0, .plain⟩, ⟨2, .shutdown⟩, ⟨1, .plain⟩] ∧ ¬ s.ShutdownLast :=
  ⟨_, rfl, rfl, rfl, by decide⟩

end AegisGate.Runtime.WorkerRuntime
