import AegisGate.Runtime.Retirement

/-!
# The last lease of a retiring generation

The control loop collects the workers' balances when it is told that the last lease of a
retiring generation is gone. The count reaches zero either before the retirement begins or with
a later release, and whoever sees it reports it. But a release first lets the generation advance
and then looks whether it is still retiring: with the checkers already reported stopped it is
not, and the report is never made.
-/

namespace AegisGate.Runtime
open Lib Option Bool List

namespace RuntimeGeneration
variable {g k : RuntimeGeneration} {calls : List RetirementCall}

/-- A generation that retires has reported its last lease, or holds one and its checkers run. -/
structure Reporting (g : RuntimeGeneration) : Prop where
  running : g.retirementState = .active → g.checkersStopped = false
  waiting : g.retirementState ≠ .active → g.activeRequestLeases ≠ 0 →
    g.retirementState = .retiring ∧ g.checkersStopped = false
  reported : g.retirementState ≠ .active → g.activeRequestLeases = 0 → g.retirementNotified

lemma Reporting.of_reported (hleft : k.retirementState ≠ .active)
    (hleases : k.activeRequestLeases = 0) (hnotified : k.retirementNotified) :
    k.Reporting :=
  ⟨fun h => absurd h hleft, fun _ h => absurd hleases h, fun _ _ => hnotified⟩

lemma Reporting.beginRetirement (h : g.Reporting) (hk : g.beginRetirement = some (k, calls)) :
    k.Reporting := by
  obtain ⟨hactive, d, rfl, ⟨hzero, rfl, -⟩ | ⟨hpos, rfl, -⟩⟩ := beginRetirement_cases hk
  · refine .of_reported ?_ ?_ (notified_notifyLastLease _)
    · rw [state_notifyLastLease]
      nofun
    · rw [(kept_notifyLastLease _).1]
      exact hzero
  · exact ⟨nofun, fun _ _ => ⟨rfl, h.running hactive⟩, fun _ hz => absurd hz hpos⟩

lemma Reporting.passes (h : g.Reporting) (hpasses : Passes g k calls)
    (hleft : g.retirementState ≠ .active) (hzero : g.activeRequestLeases = 0)
    (hleases : k.activeRequestLeases = g.activeRequestLeases) : k.Reporting := by
  refine .of_reported (RetirementState.ne_active_mono hpasses.le hleft) (hleases.trans hzero) ?_
  have hreported := hpasses.reported
  rw [h.reported hleft hzero] at hreported
  cases hk : k.retirementNotified with
  | true => rfl
  | false =>
    rw [hk, toNat_false, toNat_true] at hreported
    omega

lemma Reporting.call {c : Control} (h : g.Reporting) (hk : g.call c = some (k, calls))
    (hlast : c = .notifyCheckersStopped → g.retirementState = .retiring →
      g.activeRequestLeases = 0) : k.Reporting := by
  -- a state that is neither active nor retiring has no lease left
  have hlate : g.retirementState ≠ .active → g.retirementState ≠ .retiring → k.Reporting := by
    intro hactive hretiring
    refine h.passes (passes_call hk) hactive ?_ (kept_call hk).1
    by_contra hpos
    exact hretiring (h.waiting hactive hpos).1
  cases c with
  | beginRetirement => exact h.beginRetirement hk
  | notifyCheckersStopped =>
    by_cases hretiring : g.retirementState = .retiring
    · refine h.passes (passes_call hk) ?_ (hlast rfl hretiring) (kept_call hk).1
      rw [hretiring]
      nofun
    · obtain ⟨hstate, -⟩ := ite_none_left_eq_some.mp hk
      refine hlate (fun hactive => hstate ⟨hretiring, ?_⟩) hretiring
      rw [hactive]
      nofun
  | beginOutcomeStopping | beginReaping =>
    obtain ⟨hstate, -, -, -⟩ := enterOutcomeDraining_eq_some hk
    exact hlate (by rw [hstate]; nofun) (by rw [hstate]; nofun)
  | markRetired =>
    by_cases hstate : g.retirementState = .outcomeDraining
    · exact hlate (by rw [hstate]; nofun) (by rw [hstate]; nofun)
    · rw [← control_of_call hk, control, markRetired, if_neg hstate]
      exact h

lemma Reporting.releaseRequestLease (h : g.Reporting)
    (hk : g.releaseRequestLease = some (k, calls)) : k.Reporting := by
  obtain ⟨d, hd, hcases⟩ := releaseRequestLease_cases hk
  have hstate : d.retirementState = g.retirementState := by rw [hd]
  have hstopped : d.checkersStopped = g.checkersStopped := by rw [hd]
  have hleases : d.activeRequestLeases = g.activeRequestLeases - 1 := by rw [hd]
  have hpos : g.activeRequestLeases ≠ 0 := by
    have hk' := leases_releaseRequestLease hk
    omega
  -- with a lease out the checkers run, so nothing advances
  have hrunning : d.checkersStopped = false ∧ d.retirementState ≠ .checkersStopped := by
    rw [hstopped, hstate]
    by_cases hactive : g.retirementState = .active
    · exact ⟨h.running hactive, by rw [hactive]; nofun⟩
    · obtain ⟨hretiring, hrun⟩ := h.waiting hactive hpos
      exact ⟨hrun, by rw [hretiring]; nofun⟩
  rw [advanceIfReady_eq_self hrunning.1 hrunning.2] at hcases
  obtain ⟨hlt, rfl, -⟩ | ⟨hlast, hretiring, rfl, -⟩ | ⟨-, hretiring, rfl, -⟩ := hcases
  · refine ⟨fun _ => hrunning.1, fun hleft _ => ?_, fun _ hzero => ?_⟩
    · rw [hstate, hstopped]
      rw [hstate] at hleft
      exact h.waiting hleft hpos
    · omega
  · refine .of_reported ?_ ?_ (notified_notifyLastLease d)
    · rw [state_notifyLastLease, hretiring]
      nofun
    · rw [(kept_notifyLastLease _).1, hleases, hlast]
  · -- the last lease of an active generation is not reported
    have hactive : g.retirementState = .active := by
      by_contra hleft
      exact hretiring (hstate.trans (h.waiting hleft hpos).1)
    rw [hactive] at hstate
    exact ⟨fun _ => hrunning.1, fun hleft => absurd hstate hleft, fun hleft => absurd hstate hleft⟩

end RuntimeGeneration

namespace Retirement
variable {w w' : Retirement}

/-- The checkers of a retiring generation are reported stopped only once its leases are gone. -/
def CheckersLast (w : Retirement) : Event → Prop
  | .control .notifyCheckersStopped =>
    w.generation.retirementState = .retiring → w.generation.activeRequestLeases = 0
  | _ => True

instance (w : Retirement) : ∀ e, Decidable (w.CheckersLast e)
  | .control .notifyCheckersStopped => inferInstanceAs (Decidable (_ → _))
  | .control .beginRetirement | .control .beginOutcomeStopping | .control .beginReaping
  | .control .markRetired | .tryAcquireRequestLease | .moveConstruct _ | .moveAssign _ _
  | .release _ | .resume _ => .isTrue trivial

lemma Turns.reporting {g k : RuntimeGeneration} {e : Event} {callbacks : List RetirementCall}
    (h : Turns g e k callbacks) (hr : g.Reporting)
    (hlast : e = .control .notifyCheckersStopped → g.retirementState = .retiring →
      g.activeRequestLeases = 0) : k.Reporting := by
  cases h with
  | stay => exact hr
  | acquire h =>
    obtain ⟨hactive, ⟨⟩⟩ := ite_none_left_eq_some.mp h
    exact ⟨hr.running, fun hleft => absurd hleft hactive, fun hleft => absurd hleft hactive⟩
  | control h => exact hr.call h fun hc => hlast (congrArg _ hc)
  | release _ h => exact hr.releaseRequestLease h

lemma reporting_step {e : Event} (h : w.generation.Reporting) (hlast : w.CheckersLast e)
    (hstep : step w e = some w') : w'.generation.Reporting := by
  obtain ⟨callbacks, hm⟩ := moved_step hstep
  refine hm.turns.reporting h ?_
  rintro rfl
  exact hlast

lemma Inv.live_of_lastLease (h : Inv w) {call : RunningCall} (hcall : call ∈ w.calls)
    (hlast : .lastLease ∈ call.callbacks) : w.live = 0 := by
  obtain ⟨i, hi⟩ := getElem?_of_mem hcall
  have hload := le_load (f := fun call : RunningCall => call.callbacks.count .lastLease) hi
  have hpos : 0 < call.callbacks.count .lastLease := count_pos_iff.mpr hlast
  have hnotified : w.generation.retirementNotified := by
    have hreported := h.reported
    rw [reports] at hreported
    cases hn : w.generation.retirementNotified with
    | true => rfl
    | false =>
      rw [hn, toNat_false] at hreported
      omega
  exact h.count.symm.trans (h.quiet hnotified).2

/-- **The last lease.** If the checkers are reported stopped only once the leases are gone, then
as soon as a generation that left the active state has no lease and every call has returned,
the last lease was reported, and reported once; and while a call has it to report, no lease is
held. -/
theorem notifies_last_lease {version : ℕ} {admissions : List ℕ} {workers : UInt32}
    {es : List Event} (hrun : run step (create version admissions workers) es = some w)
    (hlast : Along step CheckersLast (create version admissions workers) es) :
    (w.generation.retirementState ≠ .active → w.generation.activeRequestLeases = 0 →
        w.calls = [] → w.invoked.count .lastLease = 1) ∧
      ∀ call ∈ w.calls, .lastLease ∈ call.callbacks → w.live = 0 := by
  have hinv : Inv w := (inv_create version admissions workers).reaches ⟨es, hrun⟩
  have hreporting : w.generation.Reporting := by
    refine (always_of_along (Q := fun v : Retirement => v.generation.Reporting)
      (fun v e v' h hl hs => reporting_step h hl hs) ?_ hlast).final hrun
    exact ⟨fun _ => rfl, fun hleft => absurd rfl hleft, fun hleft => absurd rfl hleft⟩
  refine ⟨fun hleft hzero hcalls => ?_, fun call => hinv.live_of_lastLease⟩
  have hreported := hinv.reported
  rw [hreporting.reported hleft hzero, reports, hcalls] at hreported
  simpa using hreported

/-- The last lease goes first, then the checkers. -/
theorem notifies_last_lease_released :
    ∃ w, run step (create 1 [] 2) [.tryAcquireRequestLease, .control .beginRetirement, .resume 0,
        .resume 0, .release 0, .resume 0, .resume 0, .resume 0,
        .control .notifyCheckersStopped, .resume 0, .resume 0, .resume 0] = some w ∧
      w.generation.retirementState = .waitingForLeases ∧ w.invoked.count .lastLease = 1 := by
  refine ⟨_, rfl, rfl, ?_⟩
  have hrun : run step (create 1 [] 2) [.tryAcquireRequestLease, .control .beginRetirement,
      .resume 0, .resume 0, .release 0, .resume 0, .resume 0, .resume 0,
      .control .notifyCheckersStopped, .resume 0, .resume 0, .resume 0] = some _ := rfl
  exact (notifies_last_lease hrun (by decide)).1 (by decide) rfl rfl

/-- The checkers are reported stopped while a request runs. Its release then moves the generation
on before it looks for a retiring one, and no one is told that the last lease is gone. -/
theorem not_notified_early_checkers :
    ∃ w, run step (create 1 [] 2) [.tryAcquireRequestLease, .control .beginRetirement, .resume 0,
        .resume 0, .control .notifyCheckersStopped, .resume 0, .resume 0, .release 0, .resume 0,
        .resume 0, .resume 0] = some w ∧
      w.generation.retirementState = .waitingForLeases ∧ w.generation.activeRequestLeases = 0 ∧
      w.calls = [] ∧ w.invoked.count .lastLease = 0 :=
  ⟨_, rfl, rfl, rfl, rfl, rfl⟩

end Retirement
end AegisGate.Runtime
