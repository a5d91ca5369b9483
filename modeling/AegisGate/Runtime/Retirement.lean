import AegisGate.Lib.Handle
import AegisGate.Lib.Transition
import AegisGate.Runtime.RuntimeGeneration

/-!
# The retirement of a generation

Requests hold a generation through `RequestLease` objects, which are moved between threads and
released from any of them; the control loop drives the retirement state forward. What each call
decides, it decides under one mutex, and it makes its callbacks after the mutex is released.

A `Retirement` is a generation with every lease object and every call that has not returned. A
call of the control loop takes the mutex and then has callbacks to make. `Release` moves the
pointer out of its object before it takes the mutex; move-assignment is a `Release` followed by
the move. Any other step may come in between.
-/

namespace AegisGate.Runtime
open Lib List Option Prod RuntimeGeneration

/-! ## The order of the states -/

namespace RetirementState

/-- The states entered on the way to a state, in their order. -/
def entered : RetirementState → List RetirementState
  | .active => []
  | .retiring => [.retiring]
  | .checkersStopped => [.retiring, .checkersStopped]
  | .waitingForLeases => [.retiring, .checkersStopped, .waitingForLeases]
  | .outcomeDraining => [.retiring, .checkersStopped, .waitingForLeases, .outcomeDraining]
  | .done => [.retiring, .checkersStopped, .waitingForLeases, .outcomeDraining, .done]

/-- A state comes before another if the states entered do. -/
instance : Preorder RetirementState where
  le s t := s.entered <+: t.entered
  le_refl s := prefix_rfl
  le_trans _ _ _ h k := h.trans k

instance (s t : RetirementState) : Decidable (s ≤ t) :=
  inferInstanceAs (Decidable (s.entered <+: t.entered))

lemma ne_active_mono {s t : RetirementState} : s ≤ t → s ≠ .active → t ≠ .active := by
  cases s <;> cases t <;> decide

end RetirementState

def RetirementCall.states (calls : List RetirementCall) : List RetirementState :=
  calls.filterMap fun
    | .stateChange state => some state
    | .lastLease => none

/-! ## What a call does under the mutex -/

namespace RuntimeGeneration
variable {g k m : RuntimeGeneration} {calls more : List RetirementCall}

/-- The generation waits for no lease, or for no one. -/
def Drained (g : RuntimeGeneration) : Prop :=
  .waitingForLeases ≤ g.retirementState → g.activeRequestLeases = 0

lemma drained_of_not_le {s : RetirementState} (hs : g.retirementState = s)
    (h : ¬ .waitingForLeases ≤ s) : g.Drained := by
  intro hle
  rw [hs] at hle
  exact absurd hle h

/-- A generation and the callbacks a call decided on. -/
structure Passes (g k : RuntimeGeneration) (calls : List RetirementCall) : Prop where
  entered : k.retirementState.entered = g.retirementState.entered ++ RetirementCall.states calls
  reported : k.retirementNotified.toNat = g.retirementNotified.toNat + calls.count .lastLease
  drained : g.Drained → k.Drained

lemma Passes.le (h : Passes g k calls) : g.retirementState ≤ k.retirementState :=
  ⟨_, h.entered.symm⟩

lemma Passes.refl (g : RuntimeGeneration) : Passes g g [] :=
  ⟨(append_nil _).symm, rfl, id⟩

lemma Passes.trans (h : Passes g k calls) (h' : Passes k m more) :
    Passes g m (calls ++ more) where
  entered := by
    rw [h'.entered, h.entered, append_assoc, RetirementCall.states, RetirementCall.states,
      ← filterMap_append]
    rfl
  reported := by rw [h'.reported, h.reported, count_append, Nat.add_assoc]
  drained := fun hd => h'.drained (h.drained hd)

lemma passes_tryAcquireRequestLease (h : g.tryAcquireRequestLease = some k) :
    Passes g k [] ∧ k.activeRequestLeases = g.activeRequestLeases + 1 := by
  obtain ⟨hactive, ⟨⟩⟩ := ite_none_left_eq_some.mp h
  have hstate : g.retirementState = .active := not_not.mp hactive
  exact ⟨⟨(append_nil _).symm, rfl, fun _ => drained_of_not_le hstate (by decide)⟩, rfl⟩

lemma passes_notifyLastLease (g : RuntimeGeneration) :
    Passes g g.notifyLastLease.1 g.notifyLastLease.2 := by
  rw [notifyLastLease]
  split
  · exact .refl g
  · next hn => exact ⟨(append_nil _).symm, by simp [hn], id⟩

lemma notified_notifyLastLease (g : RuntimeGeneration) :
    g.notifyLastLease.1.retirementNotified := by
  rw [notifyLastLease]
  split
  · assumption
  · rfl

lemma state_notifyLastLease (g : RuntimeGeneration) :
    g.notifyLastLease.1.retirementState = g.retirementState := by
  rw [notifyLastLease]
  split <;> rfl

lemma checkersStopped_notifyLastLease (g : RuntimeGeneration) :
    g.notifyLastLease.1.checkersStopped = g.checkersStopped := by
  rw [notifyLastLease]
  split <;> rfl

lemma passes_enterCheckersStopped (g : RuntimeGeneration) :
    Passes g g.enterCheckersStopped.1 g.enterCheckersStopped.2 := by
  rw [enterCheckersStopped]
  split
  · next h =>
    exact ⟨by rw [h.1]; rfl, rfl,
      fun _ => drained_of_not_le (s := .checkersStopped) rfl (by decide)⟩
  · exact .refl g

lemma passes_enterWaitingForLeases (g : RuntimeGeneration) :
    Passes g g.enterWaitingForLeases.1 g.enterWaitingForLeases.2 := by
  rw [enterWaitingForLeases]
  split
  · next h => exact ⟨by rw [h.1]; rfl, rfl, fun _ _ => h.2⟩
  · exact .refl g

lemma passes_advanceIfReady (g : RuntimeGeneration) :
    Passes g g.advanceIfReady.1 g.advanceIfReady.2 :=
  (passes_enterCheckersStopped g).trans (passes_enterWaitingForLeases _)

lemma kept_notifyLastLease (g : RuntimeGeneration) :
    g.notifyLastLease.1.activeRequestLeases = g.activeRequestLeases ∧
      g.notifyLastLease.1.version = g.version := by
  rw [notifyLastLease]
  split <;> exact ⟨rfl, rfl⟩

lemma advanceIfReady_eq_self (hstopped : g.checkersStopped = false)
    (hstate : g.retirementState ≠ .checkersStopped) : g.advanceIfReady = (g, []) := by
  have hfirst : g.enterCheckersStopped = (g, []) := if_neg (by simp [hstopped])
  have hsecond : g.enterWaitingForLeases = (g, []) := if_neg fun h => hstate h.1
  rw [advanceIfReady, hfirst]
  rw [hsecond]
  rfl

lemma releaseRequestLease_cases (h : g.releaseRequestLease = some (k, calls)) :
    ∃ d : RuntimeGeneration, d = { g with activeRequestLeases := g.activeRequestLeases - 1 } ∧
      (1 < g.activeRequestLeases ∧ k = d ∧ calls = [] ∨
        g.activeRequestLeases = 1 ∧ d.advanceIfReady.1.retirementState = .retiring ∧
          k = d.advanceIfReady.1.notifyLastLease.1 ∧
          calls = d.advanceIfReady.2 ++ d.advanceIfReady.1.notifyLastLease.2 ∨
        g.activeRequestLeases = 1 ∧ d.advanceIfReady.1.retirementState ≠ .retiring ∧
          k = d.advanceIfReady.1 ∧ calls = d.advanceIfReady.2) := by
  obtain ⟨hpos, h⟩ := ite_none_left_eq_some.mp h
  refine ⟨_, rfl, ?_⟩
  dsimp only at h
  split at h
  · next hlast =>
    split at h
    · next hretiring =>
      cases h
      exact .inr (.inl ⟨hlast, hretiring, rfl, rfl⟩)
    · next hretiring =>
      cases h
      exact .inr (.inr ⟨hlast, hretiring, rfl, rfl⟩)
  · cases h
    exact .inl ⟨by omega, rfl, rfl⟩

lemma leases_releaseRequestLease (h : g.releaseRequestLease = some (k, calls)) :
    k.activeRequestLeases + 1 = g.activeRequestLeases := by
  obtain ⟨d, hd, ⟨hlt, rfl, -⟩ | ⟨hlast, -, rfl, -⟩ | ⟨hlast, -, rfl, -⟩⟩ :=
    releaseRequestLease_cases h
  · rw [hd]
    exact Nat.sub_add_cancel (by omega)
  · rw [(kept_notifyLastLease _).1, (tended_advanceIfReady d).leases, hd, hlast]
  · rw [(tended_advanceIfReady d).leases, hd, hlast]

lemma releaseRequestLease_running (h : g.releaseRequestLease = some (k, calls))
    (hstopped : g.checkersStopped = false) (hstate : g.retirementState ≠ .checkersStopped) :
    k.checkersStopped = false ∧ k.retirementState = g.retirementState := by
  obtain ⟨d, hd, hcases⟩ := releaseRequestLease_cases h
  have hd' : d.checkersStopped = false ∧ d.retirementState = g.retirementState := by
    rw [hd]
    exact ⟨hstopped, rfl⟩
  rw [advanceIfReady_eq_self hd'.1 (hd'.2 ▸ hstate)] at hcases
  obtain ⟨-, rfl, -⟩ | ⟨-, -, rfl, -⟩ | ⟨-, -, rfl, -⟩ := hcases
  · exact hd'
  · rw [checkersStopped_notifyLastLease, state_notifyLastLease]
    exact hd'
  · exact hd'

lemma passes_releaseRequestLease (h : g.releaseRequestLease = some (k, calls)) :
    Passes g k calls := by
  obtain ⟨d, hd, hcases⟩ := releaseRequestLease_cases h
  have hrest : Passes g d [] := by
    rw [hd]
    exact ⟨(append_nil _).symm, rfl, fun hg hle => by rw [hg hle]⟩
  have hadvance := hrest.trans (passes_advanceIfReady d)
  obtain ⟨-, rfl, rfl⟩ | ⟨-, -, rfl, rfl⟩ | ⟨-, -, rfl, rfl⟩ := hcases
  · exact hrest
  · exact hadvance.trans (passes_notifyLastLease _)
  · exact hadvance

lemma beginRetirement_cases (h : g.beginRetirement = some (k, calls)) :
    g.retirementState = .active ∧
      ∃ d : RuntimeGeneration, d = { g with retirementState := .retiring } ∧
        (g.activeRequestLeases = 0 ∧ k = d.notifyLastLease.1 ∧
            calls = .stateChange .retiring :: d.notifyLastLease.2 ∨
          g.activeRequestLeases ≠ 0 ∧ k = d ∧ calls = [.stateChange .retiring]) := by
  obtain ⟨hactive, h⟩ := ite_none_left_eq_some.mp h
  refine ⟨not_not.mp hactive, _, rfl, ?_⟩
  dsimp only at h
  split at h
  · next hzero =>
    cases h
    exact .inl ⟨hzero, rfl, rfl⟩
  · next hzero =>
    cases h
    exact .inr ⟨hzero, rfl, rfl⟩

lemma passes_beginRetirement (h : g.beginRetirement = some (k, calls)) : Passes g k calls := by
  obtain ⟨hactive, d, hd, hcases⟩ := beginRetirement_cases h
  have hretiring : Passes g d [.stateChange .retiring] := by
    rw [hd]
    exact ⟨by rw [hactive]; rfl, rfl, fun _ => drained_of_not_le (s := .retiring) rfl (by decide)⟩
  obtain ⟨-, rfl, rfl⟩ | ⟨-, rfl, rfl⟩ := hcases
  · exact hretiring.trans (passes_notifyLastLease d)
  · exact hretiring

lemma passes_notifyCheckersStopped (h : g.notifyCheckersStopped = some (k, calls)) :
    Passes g k calls := by
  obtain ⟨-, h⟩ := ite_none_left_eq_some.mp h
  have hstopped : Passes g { g with checkersStopped := true } [] :=
    ⟨(append_nil _).symm, rfl, id⟩
  cases h
  exact hstopped.trans (passes_advanceIfReady _)

lemma enterOutcomeDraining_eq_some (h : g.enterOutcomeDraining = some (k, calls)) :
    g.retirementState = .waitingForLeases ∧ g.activeRequestLeases = 0 ∧
      k = { g with retirementState := .outcomeDraining } ∧
      calls = [.stateChange .outcomeDraining] := by
  obtain ⟨hg, h⟩ := ite_none_left_eq_some.mp h
  rw [not_or, not_not, not_not] at hg
  cases h
  exact ⟨hg.1, hg.2, rfl, rfl⟩

lemma passes_enterOutcomeDraining (h : g.enterOutcomeDraining = some (k, calls)) :
    Passes g k calls := by
  obtain ⟨hstate, hleases, rfl, rfl⟩ := enterOutcomeDraining_eq_some h
  exact ⟨by rw [hstate]; rfl, rfl, fun _ _ => hleases⟩

lemma passes_markRetired (g : RuntimeGeneration) : Passes g g.markRetired.1 g.markRetired.2 := by
  rw [markRetired]
  split
  · next h => exact ⟨by rw [h]; rfl, rfl, fun hd _ => hd (by rw [h]; decide)⟩
  · exact .refl g

/-- A call of the control loop, with its callbacks; `none` is the result false. -/
def call (g : RuntimeGeneration) : Control → Option (RuntimeGeneration × List RetirementCall)
  | .beginRetirement => g.beginRetirement
  | .notifyCheckersStopped => g.notifyCheckersStopped
  | .beginOutcomeStopping => g.beginOutcomeStopping
  | .beginReaping => g.beginReaping
  | .markRetired => some g.markRetired

variable {c : Control}

lemma control_of_call (h : g.call c = some (k, calls)) : g.control c = k := by
  cases c with
  | markRetired => exact congrArg fst (some.inj h)
  | beginRetirement | notifyCheckersStopped | beginOutcomeStopping | beginReaping =>
    exact congrArg (fun r => (r.map fst).getD g) h

lemma kept_call (h : g.call c = some (k, calls)) :
    k.activeRequestLeases = g.activeRequestLeases ∧ k.version = g.version := by
  cases c with
  | beginRetirement =>
    obtain ⟨-, d, rfl, ⟨-, rfl, -⟩ | ⟨-, rfl, -⟩⟩ := beginRetirement_cases h
    · exact kept_notifyLastLease _
    · exact ⟨rfl, rfl⟩
  | notifyCheckersStopped =>
    obtain ⟨-, ⟨⟩⟩ := ite_none_left_eq_some.mp h
    have htended := tended_advanceIfReady { g with checkersStopped := true }
    exact ⟨htended.leases, htended.version⟩
  | beginOutcomeStopping | beginReaping =>
    obtain ⟨-, -, rfl, -⟩ := enterOutcomeDraining_eq_some h
    exact ⟨rfl, rfl⟩
  | markRetired =>
    rw [← control_of_call h, control, markRetired]
    split <;> exact ⟨rfl, rfl⟩

lemma version_releaseRequestLease (h : g.releaseRequestLease = some (k, calls)) :
    k.version = g.version := by
  obtain ⟨d, hd, hcases⟩ := releaseRequestLease_cases h
  have hversion : d.version = g.version := by rw [hd]
  have hadvance := (tended_advanceIfReady d).version.trans hversion
  obtain ⟨-, rfl, -⟩ | ⟨-, -, rfl, -⟩ | ⟨-, -, rfl, -⟩ := hcases
  · exact hversion
  · exact (kept_notifyLastLease _).2.trans hadvance
  · exact hadvance

lemma passes_call (h : g.call c = some (k, calls)) : Passes g k calls := by
  cases c with
  | beginRetirement => exact passes_beginRetirement h
  | notifyCheckersStopped => exact passes_notifyCheckersStopped h
  | beginOutcomeStopping | beginReaping => exact passes_enterOutcomeDraining h
  | markRetired =>
    have hmark := passes_markRetired g
    rwa [show g.markRetired = (k, calls) from some.inj h] at hmark

end RuntimeGeneration

/-! ## Lease objects and calls -/

/-- A `RequestLease` object, which holds the generation or nothing. -/
abbrev RequestLease := Handle Unit

/-- A call that is making its callbacks. -/
structure RunningCall where
  /-- `Release` has moved the pointer out and not taken the mutex yet. -/
  releasing : Bool := false
  /-- The callbacks still to be made. -/
  callbacks : List RetirementCall := []
  /-- The target and the source of a move-assignment. -/
  assign : Option (ℕ × ℕ) := none
  deriving DecidableEq

/-- A generation, its lease objects by address, and the calls in progress; `queued` are the
callbacks in the order in which they were decided on under the mutex. -/
structure Retirement where
  generation : RuntimeGeneration
  leases : List RequestLease := []
  calls : List RunningCall := []
  queued : List RetirementCall := []
  invoked : List RetirementCall := []

namespace Retirement

inductive Event
  | tryAcquireRequestLease
  | moveConstruct (source : ℕ)
  | moveAssign (target source : ℕ)
  /-- `Release`, or the destructor. -/
  | release (lease : ℕ)
  | control (c : RuntimeGeneration.Control)
  /-- A call goes on: it takes the mutex, makes its next callback, or returns. -/
  | resume (call : ℕ)
  deriving DecidableEq

/-- `Release` of an object, up to the mutex. -/
def release (w : Retirement) (lease : ℕ) : Option Retirement :=
  (Handle.take w.leases lease .empty).map fun (held, leases) =>
    if held.isSome then { w with leases, calls := w.calls ++ [{ releasing := true }] }
    else { w with leases }

def moveAssign (w : Retirement) (target source : ℕ) : Option Retirement :=
  (Handle.take w.leases target .assigning).bind fun (held, leases) =>
    if target = source then some w
    else if source < w.leases.length then
      some { w with
        leases
        calls := w.calls ++ [{ releasing := held.isSome, assign := some (target, source) }] }
    else none

def resume (w : Retirement) (i : ℕ) (call : RunningCall) : Option Retirement :=
  if call.releasing then
    w.generation.releaseRequestLease.map fun (generation, callbacks) =>
      { w with
        generation
        calls := w.calls.set i
          { call with releasing := false, callbacks := call.callbacks ++ callbacks }
        queued := w.queued ++ callbacks }
  else match call.callbacks, call.assign with
    | callback :: callbacks, _ =>
      some { w with
        calls := w.calls.set i { call with callbacks }
        invoked := w.invoked ++ [callback] }
    | [], some (target, source) =>
      (Handle.assign w.leases target source).map fun leases =>
        { w with leases, calls := w.calls.eraseIdx i }
    | [], none => some { w with calls := w.calls.eraseIdx i }

/-- The state after an event; `none` when it cannot happen. -/
def step (w : Retirement) : Event → Option Retirement
  | .tryAcquireRequestLease =>
    match w.generation.tryAcquireRequestLease with
    | none => some w
    | some generation => some { w with generation, leases := w.leases ++ [.holding ()] }
  | .moveConstruct source =>
    (Handle.moveConstruct w.leases source).map fun leases => { w with leases }
  | .moveAssign target source => w.moveAssign target source
  | .release lease => w.release lease
  | .control c =>
    match w.generation.call c with
    | none => some w
    | some (generation, callbacks) =>
      some { w with
        generation
        calls := w.calls ++ [{ callbacks }]
        queued := w.queued ++ callbacks }
  | .resume i => (w.calls[i]?).bind (w.resume i)

def create (version : ℕ) (admissions : List ℕ) (workers : UInt32) : Retirement :=
  { generation := { version, admissions, workers } }

/-- The lease objects that hold the generation, with those whose `Release` has not reached the
count. -/
def live (w : Retirement) : ℕ :=
  load (Handle.weight fun _ => 1) w.leases + load (fun call => call.releasing.toNat) w.calls

/-- How often the last lease was reported, with the reports on their way. -/
def reports (w : Retirement) : ℕ :=
  w.invoked.count .lastLease + load (fun call => call.callbacks.count .lastLease) w.calls

/-! ## What one step does -/

variable {w w' : Retirement}

/-- What an event does to the generation. -/
inductive Turns (g : RuntimeGeneration) : Event → RuntimeGeneration → List RetirementCall → Prop
  | stay (e : Event) : Turns g e g []
  | acquire {k : RuntimeGeneration} (h : g.tryAcquireRequestLease = some k) :
      Turns g .tryAcquireRequestLease k []
  | control {c : RuntimeGeneration.Control} {k : RuntimeGeneration}
      {callbacks : List RetirementCall} (h : g.call c = some (k, callbacks)) :
      Turns g (.control c) k callbacks
  | release (i : ℕ) {k : RuntimeGeneration} {callbacks : List RetirementCall}
      (h : g.releaseRequestLease = some (k, callbacks)) : Turns g (.resume i) k callbacks

variable {e : Event} {source : ℕ}

lemma Turns.passes {g k : RuntimeGeneration} {callbacks : List RetirementCall}
    (h : Turns g e k callbacks) : g.Passes k callbacks := by
  cases h with
  | stay => exact .refl g
  | acquire h => exact (passes_tryAcquireRequestLease h).1
  | control h => exact passes_call h
  | release _ h => exact passes_releaseRequestLease h

lemma Turns.quiet {g k : RuntimeGeneration} {callbacks : List RetirementCall}
    (h : Turns g e k callbacks) (hq : g.Quiet) : k.Quiet := by
  cases h with
  | stay => exact hq
  | acquire h => exact (hq.tryAcquireRequestLease h).1
  | control h =>
    rw [← control_of_call h]
    exact (hq.control _).1
  | release _ h => exact (hq.releaseRequestLease h).1

/-- What a step does: the generation may turn, its callbacks are queued and on their way, and
the count follows the lease objects. -/
structure Moved (w : Retirement) (e : Event) (w' : Retirement)
    (callbacks : List RetirementCall) : Prop where
  turns : Turns w.generation e w'.generation callbacks
  queued : w'.queued = w.queued ++ callbacks
  reports : w'.reports = w.reports + callbacks.count .lastLease
  live : w'.generation.activeRequestLeases + w.live = w.generation.activeRequestLeases + w'.live

lemma Moved.of_leases (hg : w'.generation = w.generation) (hq : w'.queued = w.queued)
    (hr : w'.reports = w.reports) (hl : w'.live = w.live) :
    Moved w e w' [] where
  turns := by
    rw [hg]
    exact .stay e
  queued := by rw [hq, append_nil]
  reports := hr
  live := by rw [hg, hl]

lemma moved_release {lease : ℕ} (h : w.release lease = some w') :
    Moved w (.release lease) w' [] := by
  obtain ⟨⟨held, leases⟩, htake, rfl⟩ := map_eq_some_iff.mp h
  have hload := Handle.load_take (v := fun _ => 1) htake
  cases held with
  | none => exact .of_leases rfl rfl rfl (congrArg (· + _) hload)
  | some held =>
    refine .of_leases rfl rfl (by simp [reports]) ?_
    simp [live] at hload ⊢
    omega

lemma moved_moveAssign {target : ℕ} (h : w.moveAssign target source = some w') :
    Moved w (.moveAssign target source) w' [] := by
  obtain ⟨⟨held, leases⟩, htake, h⟩ := bind_eq_some_iff.mp h
  have hload := Handle.load_take (v := fun _ => 1) htake
  dsimp only at h
  split at h
  · cases h
    exact .of_leases rfl rfl rfl rfl
  · obtain ⟨-, ⟨⟩⟩ := ite_none_right_eq_some.mp h
    refine .of_leases rfl rfl (by simp [reports]) ?_
    cases held <;> simp [live] at hload ⊢ <;> omega

lemma moved_resume {i : ℕ} {call : RunningCall} (hcall : w.calls[i]? = some call)
    (h : w.resume i call = some w') : ∃ callbacks, Moved w (.resume i) w' callbacks := by
  have hreleasing (c : RunningCall) :=
    load_set (f := fun call : RunningCall => call.releasing.toNat) hcall c
  have hreports (c : RunningCall) :=
    load_set (f := fun call : RunningCall => call.callbacks.count .lastLease) hcall c
  have hreturn := load_eraseIdx (f := fun call : RunningCall => call.releasing.toNat) hcall
  have hreturned :=
    load_eraseIdx (f := fun call : RunningCall => call.callbacks.count .lastLease) hcall
  rw [resume] at h
  split at h
  · next hcall' =>
    obtain ⟨⟨generation, callbacks⟩, hg, rfl⟩ := map_eq_some_iff.mp h
    have hlive := hreleasing { call with
      releasing := false, callbacks := call.callbacks ++ callbacks }
    have hmade := hreports { call with
      releasing := false, callbacks := call.callbacks ++ callbacks }
    have hleases := leases_releaseRequestLease hg
    refine ⟨callbacks, .release i hg, rfl, ?_, ?_⟩
    · simp [reports] at hmade ⊢
      omega
    · simp [live, hcall'] at hlive ⊢
      omega
  next hcall' =>
  refine ⟨[], ?_⟩
  split at h
  · next callback callbacks hcallbacks =>
    cases h
    have hlive := hreleasing { call with callbacks }
    have hmade := hreports { call with callbacks }
    refine .of_leases rfl rfl ?_ ?_
    · simp [reports, hcallbacks, count_cons] at hmade ⊢
      omega
    · simp [live] at hlive ⊢
      omega
  · next hcallbacks _ =>
    obtain ⟨leases, hleases, rfl⟩ := map_eq_some_iff.mp h
    refine .of_leases rfl rfl ?_ ?_
    · simp [reports, hcallbacks] at hreturned ⊢
      omega
    · simp [live, hcall', Handle.load_assign hleases] at hreturn ⊢
      omega
  next hcallbacks _ =>
  cases h
  refine .of_leases rfl rfl ?_ ?_
  · simp [reports, hcallbacks] at hreturned ⊢
    omega
  · simp [live, hcall'] at hreturn ⊢
    omega

lemma moved_step (h : step w e = some w') : ∃ callbacks, Moved w e w' callbacks := by
  cases e with
  | tryAcquireRequestLease =>
    simp only [step] at h
    split at h
    · cases h
      exact ⟨[], .of_leases rfl rfl rfl rfl⟩
    next generation hg =>
    cases h
    have hleases := (passes_tryAcquireRequestLease hg).2
    refine ⟨[], .acquire hg, (append_nil _).symm, rfl, ?_⟩
    simp [live, hleases]
    omega
  | moveConstruct source =>
    obtain ⟨leases, hleases, rfl⟩ := map_eq_some_iff.mp h
    exact ⟨[], .of_leases rfl rfl rfl (congrArg (· + _) (Handle.load_moveConstruct hleases))⟩
  | moveAssign target source => exact ⟨[], moved_moveAssign h⟩
  | release lease => exact ⟨[], moved_release h⟩
  | control c =>
    simp only [step] at h
    split at h
    · cases h
      exact ⟨[], .of_leases rfl rfl rfl rfl⟩
    next generation callbacks hg =>
    cases h
    refine ⟨callbacks, .control hg, rfl, ?_, ?_⟩
    · simp [reports]
      omega
    · simp [live, (kept_call hg).1]
  | resume i =>
    obtain ⟨call, hcall, h⟩ := bind_eq_some_iff.mp h
    exact moved_resume hcall h

/-! ## What every run keeps -/

/-- The invariant of the leases and the callbacks. -/
structure Inv (w : Retirement) : Prop where
  entered : RetirementCall.states w.queued = w.generation.retirementState.entered
  count : w.generation.activeRequestLeases = w.live
  reported : w.reports = w.generation.retirementNotified.toNat
  drained : w.generation.Drained
  quiet : w.generation.Quiet

lemma inv_create (version : ℕ) (admissions : List ℕ) (workers : UInt32) :
    Inv (create version admissions workers) where
  entered := rfl
  count := rfl
  reported := rfl
  drained := fun _ => rfl
  quiet := nofun

lemma Inv.step (h : Inv w) (hstep : step w e = some w') : Inv w' := by
  obtain ⟨callbacks, hm⟩ := moved_step hstep
  refine ⟨?_, ?_, ?_, hm.turns.passes.drained h.drained, hm.turns.quiet h.quiet⟩
  · rw [hm.turns.passes.entered, ← h.entered, hm.queued]
    exact filterMap_append
  · have hlive := hm.live
    rw [h.count] at hlive
    omega
  · rw [hm.reports, hm.turns.passes.reported, h.reported]

lemma Inv.reaches (h : Inv w) (hr : Reaches Retirement.step w w') : Inv w' :=
  hr.invariant h fun _ _ _ hi hs => hi.step hs

lemma le_of_reaches (h : Reaches step w w') :
    w.generation.retirementState ≤ w'.generation.retirementState := by
  refine h.invariant (I := fun v => w.generation.retirementState ≤ v.generation.retirementState)
    le_rfl fun v e v' hle hs => hle.trans ?_
  obtain ⟨callbacks, hm⟩ := moved_step hs
  exact hm.turns.passes.le

lemma Inv.live_eq_zero (h : Inv w) (hstate : .waitingForLeases ≤ w.generation.retirementState) :
    w.generation.activeRequestLeases = 0 ∧ w.live = 0 :=
  ⟨h.drained hstate, h.count.symm.trans (h.drained hstate)⟩

/-- No reaper starts from the states after `waitingForLeases`. -/
lemma beginReaping_eq_none (h : .outcomeDraining ≤ w.generation.retirementState) :
    w.generation.beginReaping = none := by
  have hne : w.generation.retirementState ≠ .waitingForLeases := by
    intro heq
    rw [heq] at h
    exact absurd h (by decide)
  exact if_pos (.inl hne)

/-- **Retirement.** The callbacks queued are the states up to the current one, each once and in
their order, and the count is the number of leases. From here on the state only moves forward;
once the active state is left no lease is granted; once the leases are gone there is none. The
reaper starts only without a lease, and only once. -/
theorem retires_in_order {version : ℕ} {admissions : List ℕ} {workers : UInt32}
    (h : Reaches step (create version admissions workers) w) :
    RetirementCall.states w.queued = w.generation.retirementState.entered ∧
      w.generation.activeRequestLeases = w.live ∧
      (∀ w', Reaches step w w' → w.generation.retirementState ≤ w'.generation.retirementState ∧
        (w.generation.retirementState ≠ .active → w'.generation.tryAcquireRequestLease = none) ∧
        (.waitingForLeases ≤ w.generation.retirementState →
          w'.generation.activeRequestLeases = 0 ∧ w'.live = 0)) ∧
      (w.generation.beginReaping.isSome → w.live = 0 ∧
        ∀ v w', step w (.control .beginReaping) = some v → Reaches step v w' →
          w'.generation.beginReaping = none) := by
  have hinv : Inv w := (inv_create version admissions workers).reaches h
  refine ⟨hinv.entered, hinv.count, fun w' hw' => ⟨le_of_reaches hw', fun hne => ?_, fun hle => ?_⟩,
    fun hsome => ?_⟩
  · exact if_pos (RetirementState.ne_active_mono (le_of_reaches hw') hne)
  · exact (hinv.reaches hw').live_eq_zero (hle.trans (le_of_reaches hw'))
  obtain ⟨⟨k, calls⟩, hk⟩ := isSome_iff_exists.mp hsome
  obtain ⟨hstate, -, hdraining, -⟩ := enterOutcomeDraining_eq_some hk
  refine ⟨(hinv.live_eq_zero hstate.ge).2, fun v w' hv hw' => beginReaping_eq_none ?_⟩
  have hcall : w.generation.call .beginReaping = some (k, calls) := hk
  simp only [step, hcall] at hv
  cases hv
  have hle := le_of_reaches hw'
  rwa [hdraining] at hle

/-- The last lease leaves from one thread, through a move, while the control loop retires the
generation; then the checkers stop and the reaper starts. -/
theorem retires_in_order_moved :
    ∃ w, run step (create 1 [] 2) [.tryAcquireRequestLease, .moveConstruct 0, .release 1,
        .control .beginRetirement, .resume 0, .resume 1, .control .notifyCheckersStopped] = some w ∧
      w.live = 0 ∧ w.generation.beginReaping.isSome ∧
      RetirementCall.states w.queued = [.retiring, .checkersStopped, .waitingForLeases] := by
  refine ⟨_, rfl, ?_⟩
  have hrun : Reaches step (create 1 [] 2) _ := ⟨[.tryAcquireRequestLease, .moveConstruct 0,
    .release 1, .control .beginRetirement, .resume 0, .resume 1,
    .control .notifyCheckersStopped], rfl⟩
  have hmain := retires_in_order hrun
  exact ⟨(hmain.2.2.2 rfl).1, rfl, hmain.1⟩

end Retirement
end AegisGate.Runtime
