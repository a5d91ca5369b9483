import Mathlib

/-!
# One configuration generation

A generation owns the admissions of its routes and counts the requests that run under it.
A reload retires it: no request gets a lease any more, and once the last lease is released
the control loop is told, collects the workers' balances and tears the generation down. Every
function here runs under the generation's mutex, so it is one step; the callbacks it makes
after the mutex is released are returned.
-/

namespace AegisGate.Runtime

/-- The states, in their order. -/
inductive RetirementState
  | active
  | retiring
  | checkersStopped
  | waitingForLeases
  | outcomeDraining
  | done
  deriving DecidableEq, Repr

/-- A callback of the generation. -/
inductive RetirementCall
  | stateChange (state : RetirementState)
  | lastLease
  deriving DecidableEq, Repr

/-- `RuntimeGeneration`. The admissions are addresses of shared objects; `workers` is the
worker count of its configuration. -/
structure RuntimeGeneration where
  version : ℕ
  admissions : List ℕ
  workers : UInt32
  activeRequestLeases : ℕ := 0
  retirementState : RetirementState := .active
  retirementNotified : Bool := false
  checkersStopped : Bool := false
  deriving DecidableEq

namespace RuntimeGeneration

section
variable (g : RuntimeGeneration)

/-- `TryAcquireRequestLease`; `none` once the generation retires. -/
def tryAcquireRequestLease : Option RuntimeGeneration :=
  if g.retirementState ≠ .active then none
  else some { g with activeRequestLeases := g.activeRequestLeases + 1 }

/-- Report the last lease, unless it was reported. -/
def notifyLastLease : RuntimeGeneration × List RetirementCall :=
  if g.retirementNotified then (g, []) else ({ g with retirementNotified := true }, [.lastLease])

/-- `BeginRetirement`; `none` is the result false. -/
def beginRetirement : Option (RuntimeGeneration × List RetirementCall) :=
  if g.retirementState ≠ .active then none
  else
    let g := { g with retirementState := .retiring }
    let (g, calls) := if g.activeRequestLeases = 0 then g.notifyLastLease else (g, [])
    some (g, .stateChange .retiring :: calls)

/-- The first transition of `AdvanceIfReady`. -/
def enterCheckersStopped : RuntimeGeneration × List RetirementCall :=
  if g.retirementState = .retiring ∧ g.checkersStopped then
    ({ g with retirementState := .checkersStopped }, [.stateChange .checkersStopped])
  else (g, [])

/-- The second transition of `AdvanceIfReady`. -/
def enterWaitingForLeases : RuntimeGeneration × List RetirementCall :=
  if g.retirementState = .checkersStopped ∧ g.activeRequestLeases = 0 then
    ({ g with retirementState := .waitingForLeases }, [.stateChange .waitingForLeases])
  else (g, [])

def advanceIfReady : RuntimeGeneration × List RetirementCall :=
  (g.enterCheckersStopped.1.enterWaitingForLeases.1,
    g.enterCheckersStopped.2 ++ g.enterCheckersStopped.1.enterWaitingForLeases.2)

/-- `ReleaseRequestLease`; `none` is `std::terminate`. -/
def releaseRequestLease : Option (RuntimeGeneration × List RetirementCall) :=
  if g.activeRequestLeases = 0 then none
  else
    let rest : RuntimeGeneration := { g with activeRequestLeases := g.activeRequestLeases - 1 }
    if g.activeRequestLeases = 1 then
      let (d, calls) := rest.advanceIfReady
      if d.retirementState = .retiring then
        some (d.notifyLastLease.1, calls ++ d.notifyLastLease.2)
      else some (d, calls)
    else some (rest, [])

/-- `NotifyCheckersStopped`; `none` is the result false. -/
def notifyCheckersStopped : Option (RuntimeGeneration × List RetirementCall) :=
  if g.retirementState ≠ .retiring ∧ g.retirementState ≠ .checkersStopped then none
  else some { g with checkersStopped := true }.advanceIfReady

/-- The body that `BeginOutcomeStopping` and `BeginReaping` share; `none` is the result
false. -/
def enterOutcomeDraining : Option (RuntimeGeneration × List RetirementCall) :=
  if g.retirementState ≠ .waitingForLeases ∨ g.activeRequestLeases ≠ 0 then none
  else some ({ g with retirementState := .outcomeDraining }, [.stateChange .outcomeDraining])

def beginOutcomeStopping :
    Option (RuntimeGeneration × List RetirementCall) := g.enterOutcomeDraining

def beginReaping : Option (RuntimeGeneration × List RetirementCall) :=
  g.enterOutcomeDraining

def markRetired : RuntimeGeneration × List RetirementCall :=
  if g.retirementState = .outcomeDraining then
    ({ g with retirementState := .done }, [.stateChange .done])
  else (g, [])

/-- The calls of the control loop. -/
inductive Control
  | beginRetirement
  | notifyCheckersStopped
  | beginOutcomeStopping
  | beginReaping
  | markRetired
  deriving DecidableEq

/-- The generation after a call of the control loop; a call that returns false changes
nothing. -/
def control : Control → RuntimeGeneration
  | .beginRetirement => (g.beginRetirement.map Prod.fst).getD g
  | .notifyCheckersStopped => (g.notifyCheckersStopped.map Prod.fst).getD g
  | .beginOutcomeStopping => (g.beginOutcomeStopping.map Prod.fst).getD g
  | .beginReaping => (g.beginReaping.map Prod.fst).getD g
  | .markRetired => g.markRetired.1

/-! ## What retirement keeps -/

structure Later (g k : RuntimeGeneration) : Prop where
  version : k.version = g.version
  admissions : k.admissions = g.admissions
  workers : k.workers = g.workers
  notified : g.retirementNotified → k.retirementNotified

lemma Later.refl : Later g g := ⟨rfl, rfl, rfl, id⟩

lemma Later.trans {g k m : RuntimeGeneration} (h : Later g k) (h' : Later k m) : Later g m :=
  ⟨h'.version.trans h.version, h'.admissions.trans h.admissions, h'.workers.trans h.workers,
    fun hn => h'.notified (h.notified hn)⟩

/-- Once the last lease was reported, the generation has none and gives none out. -/
def Quiet : Prop :=
  g.retirementNotified → g.retirementState ≠ .active ∧ g.activeRequestLeases = 0

end

variable {g k : RuntimeGeneration} {calls : List RetirementCall}

lemma Quiet.tryAcquireRequestLease (h : g.Quiet) (hk : g.tryAcquireRequestLease = some k) :
    k.Quiet ∧ Later g k ∧ g.retirementNotified = false ∧
      k.activeRequestLeases = g.activeRequestLeases + 1 := by
  rw [RuntimeGeneration.tryAcquireRequestLease] at hk
  obtain ⟨hactive, ⟨⟩⟩ := Option.ite_none_left_eq_some.mp hk
  have hunnotified : g.retirementNotified = false := by
    by_contra hn
    exact hactive (h (by simpa using hn)).1
  refine ⟨fun hn => ?_, ⟨rfl, rfl, rfl, id⟩, hunnotified, rfl⟩
  rw [hunnotified] at hn
  cases hn

/-- What a call without a lease keeps: the generation, its leases, that it has left the active
state, and whether the last lease was reported. -/
structure Tended (g k : RuntimeGeneration) : Prop extends Later g k where
  leases : k.activeRequestLeases = g.activeRequestLeases
  left : g.retirementState ≠ .active → k.retirementState ≠ .active
  reported : k.retirementNotified → g.retirementNotified

lemma Tended.trans {m : RuntimeGeneration} (h : Tended g k) (h' : Tended k m) : Tended g m :=
  ⟨h.toLater.trans h'.toLater, h'.leases.trans h.leases, fun hs => h'.left (h.left hs),
    fun hn => h.reported (h'.reported hn)⟩

lemma Quiet.tended (h : g.Quiet) (hk : Tended g k) : k.Quiet := by
  intro hn
  obtain ⟨hleft, hleases⟩ := h (hk.reported hn)
  exact ⟨hk.left hleft, hk.leases.trans hleases⟩

lemma tended_advanceIfReady (g : RuntimeGeneration) : Tended g g.advanceIfReady.1 := by
  have hfirst : ∀ g : RuntimeGeneration, Tended g g.enterCheckersStopped.1 := by
    intro g
    rw [enterCheckersStopped]
    split
    · exact ⟨⟨rfl, rfl, rfl, id⟩, rfl, fun _ => nofun, id⟩
    · exact ⟨.refl g, rfl, id, id⟩
  have hsecond : ∀ g : RuntimeGeneration, Tended g g.enterWaitingForLeases.1 := by
    intro g
    rw [enterWaitingForLeases]
    split
    · exact ⟨⟨rfl, rfl, rfl, id⟩, rfl, fun _ => nofun, id⟩
    · exact ⟨.refl g, rfl, id, id⟩
  exact (hfirst g).trans (hsecond _)

lemma quiet_notifyLastLease (hstate : g.retirementState ≠ .active)
    (hleases : g.activeRequestLeases = 0) :
    g.notifyLastLease.1.Quiet ∧ Later g g.notifyLastLease.1 ∧
      g.notifyLastLease.1.activeRequestLeases = 0 := by
  rw [notifyLastLease]
  split
  · exact ⟨fun _ => ⟨hstate, hleases⟩, .refl g, hleases⟩
  · exact ⟨fun _ => ⟨hstate, hleases⟩, ⟨rfl, rfl, rfl, fun _ => rfl⟩, hleases⟩

lemma Quiet.releaseRequestLease (h : g.Quiet) (hk : g.releaseRequestLease = some (k, calls)) :
    k.Quiet ∧ Later g k ∧ k.activeRequestLeases + 1 = g.activeRequestLeases := by
  rw [RuntimeGeneration.releaseRequestLease] at hk
  obtain ⟨hpos, hk⟩ := Option.ite_none_left_eq_some.mp hk
  obtain ⟨d, hd⟩ : ∃ d : RuntimeGeneration,
      d = { g with activeRequestLeases := g.activeRequestLeases - 1 } := ⟨_, rfl⟩
  have hlater : Later g d := by
    rw [hd]
    exact ⟨rfl, rfl, rfl, id⟩
  have hquiet : d.Quiet := by
    rw [hd]
    exact fun hn => absurd (h hn).2 hpos
  have hleases : d.activeRequestLeases + 1 = g.activeRequestLeases := by
    rw [hd]
    exact Nat.sub_add_cancel (by omega)
  have htended := tended_advanceIfReady d
  rw [← hd] at hk
  dsimp only at hk
  split at hk
  · have hzero : d.advanceIfReady.1.activeRequestLeases = 0 := by
      rw [htended.leases]
      omega
    split at hk
    · next hretiring =>
      have hstate : d.advanceIfReady.1.retirementState ≠ .active := by
        rw [hretiring]
        nofun
      obtain ⟨hq, hl, hz⟩ := quiet_notifyLastLease hstate hzero
      cases hk
      exact ⟨hq, (hlater.trans htended.toLater).trans hl, by omega⟩
    · cases hk
      exact ⟨hquiet.tended htended, hlater.trans htended.toLater, by omega⟩
  · cases hk
    exact ⟨hquiet, hlater, hleases⟩

lemma Quiet.beginRetirement (h : g.Quiet) (hk : g.beginRetirement = some (k, calls)) :
    k.Quiet ∧ Later g k ∧ k.activeRequestLeases = g.activeRequestLeases := by
  rw [RuntimeGeneration.beginRetirement] at hk
  obtain ⟨hactive, hk⟩ := Option.ite_none_left_eq_some.mp hk
  dsimp only at hk
  split at hk
  · next hzero =>
    obtain ⟨hq, hl, hz⟩ := quiet_notifyLastLease
      (g := { g with retirementState := .retiring }) nofun hzero
    cases hk
    exact ⟨hq, Later.trans (k := { g with retirementState := .retiring }) ⟨rfl, rfl, rfl, id⟩ hl,
      hz.trans hzero.symm⟩
  · cases hk
    exact ⟨fun hn => ⟨nofun, (h hn).2⟩, ⟨rfl, rfl, rfl, id⟩, rfl⟩

lemma Quiet.control (h : g.Quiet) (c : Control) : (g.control c).Quiet ∧ Later g (g.control c) ∧
      (g.control c).activeRequestLeases = g.activeRequestLeases := by
  have hdrain : ((g.enterOutcomeDraining.map Prod.fst).getD g).Quiet ∧
      Later g ((g.enterOutcomeDraining.map Prod.fst).getD g) ∧
      ((g.enterOutcomeDraining.map Prod.fst).getD g).activeRequestLeases =
        g.activeRequestLeases := by
    rw [enterOutcomeDraining]
    split
    · exact ⟨h, .refl g, rfl⟩
    · exact ⟨fun hn => ⟨nofun, (h hn).2⟩, ⟨rfl, rfl, rfl, id⟩, rfl⟩
  cases c with
  | beginRetirement =>
    rw [RuntimeGeneration.control]
    cases hk : g.beginRetirement with
    | none => exact ⟨h, .refl g, rfl⟩
    | some k => exact h.beginRetirement hk
  | notifyCheckersStopped =>
    rw [RuntimeGeneration.control, notifyCheckersStopped]
    split
    · exact ⟨h, .refl g, rfl⟩
    · have htended := tended_advanceIfReady { g with checkersStopped := true }
      have hquiet : ({ g with checkersStopped := true } : RuntimeGeneration).Quiet := h
      exact ⟨hquiet.tended htended,
        Later.trans (k := { g with checkersStopped := true }) ⟨rfl, rfl, rfl, id⟩ htended.toLater,
        htended.leases⟩
  | beginOutcomeStopping => exact hdrain
  | beginReaping => exact hdrain
  | markRetired =>
    rw [RuntimeGeneration.control, markRetired]
    split
    · exact ⟨fun hn => ⟨nofun, (h hn).2⟩, ⟨rfl, rfl, rfl, id⟩, rfl⟩
    · exact ⟨h, .refl g, rfl⟩

end RuntimeGeneration
end AegisGate.Runtime
