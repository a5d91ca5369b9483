import AegisGate.Gateway.Reload
import AegisGate.Runtime.Retirement

/-!
# The retirement of one generation, in numbers

Where a generation stands in the retirement pipeline is told by a few counts: the callbacks,
events, tasks and reaper threads that are on their way for it, and the steps taken so far. A
`Ledger` is these counts with the generation itself. Every step of the gateway moves the ledger
of a generation in one of a few ways, each of which hands one item on to the next stage or drops
it, and so the order of the stages is an invariant of the ledger alone.
-/

namespace AegisGate.Gateway
open Lib AegisGate.Runtime RuntimeGeneration Bool

/-- A generation and what is on its way for it. -/
structure Ledger where
  generation : RuntimeGeneration
  /-- Callbacks of the last lease that have not posted. -/
  notifying : ℕ := 0
  /-- Events of the last lease, in the mailbox or drained. -/
  lastLease : ℕ := 0
  /-- Workers still to be asked for their balance. -/
  unasked : ℕ := 0
  /-- Tasks in the workers' queues. -/
  tasks : ℕ := 0
  /-- Events of returned balances. -/
  balances : ℕ := 0
  /-- `returned_worker_balances`. -/
  returned : ℕ := 0
  /-- Reaper threads. -/
  reapers : ℕ := 0
  /-- Events of finished reapers. -/
  finished : ℕ := 0
  /-- Calls of `RequestWorkerBalanceReturn`. -/
  returns : ℕ := 0
  /-- Calls of `StopCheckers`. -/
  stops : ℕ := 0
  /-- Reapers started. -/
  reaps : ℕ := 0

namespace Ledger

/-- So many more events of a kind. -/
def add (l : Ledger) (n : ℕ) : GenerationMailbox.Kind → Ledger
  | .lastRequestLeaseReleased => { l with lastLease := l.lastLease + n }
  | .workerBalancesReturned => { l with balances := l.balances + n }
  | .reaperFinished => { l with finished := l.finished + n }

lemma add_zero (l : Ledger) (kind : GenerationMailbox.Kind) : l.add 0 kind = l := by
  cases kind <;> rfl

/-- `StopCheckers`, `NotifyCheckersStopped` and the reaper. -/
def stopCheckers (l : Ledger) : Ledger :=
  match l.generation.notifyCheckersStopped with
  | none => { l with stops := l.stops + 1 }
  | some (k, _) => match k.beginReaping with
    | none => { l with stops := l.stops + 1, generation := k }
    | some (m, _) =>
      { l with
        generation := m
        stops := l.stops + 1
        reapers := l.reapers + 1
        reaps := l.reaps + 1 }

/-- A generation as it was built. -/
def Fresh (g : RuntimeGeneration) : Prop :=
  g.activeRequestLeases = 0 ∧ g.retirementState = .active ∧ g.retirementNotified = false ∧
    g.checkersStopped = false

/-- What a step does to the ledger of a generation, in a gateway with so many workers, which may
have been stopped. A `Post` adds one event, or none when it is refused. -/
inductive Moves (workers : ℕ) (stopped : Bool) (l : Ledger) : Ledger → Prop
  | publish {k : RuntimeGeneration} (hl : Fresh l.generation) (hk : Fresh k) :
      Moves workers stopped l { l with generation := k }
  | acquire {k : RuntimeGeneration} (h : l.generation.tryAcquireRequestLease = some k) :
      Moves workers stopped l { l with generation := k }
  | release {k : RuntimeGeneration} {calls : List RetirementCall}
      (h : l.generation.releaseRequestLease = some (k, calls)) :
      Moves workers stopped l
        { l with generation := k, notifying := l.notifying + calls.count .lastLease }
  | retire {k : RuntimeGeneration} {calls : List RetirementCall} {n : ℕ}
      (h : l.generation.beginRetirement = some (k, calls)) (hn : n ≤ calls.count .lastLease) :
      Moves workers stopped l ({ l with generation := k }.add n .lastRequestLeaseReleased)
  | notify {m n : ℕ} (h : l.notifying = m + 1) (hn : n ≤ 1) :
      Moves workers stopped l ({ l with notifying := m }.add n .lastRequestLeaseReleased)
  | skip {k : Ledger} {kind : GenerationMailbox.Kind} (h : l = k.add 1 kind) :
      Moves workers stopped l k
  | request {k : Ledger} (h : l = k.add 1 .lastRequestLeaseReleased) :
      Moves workers stopped l { k with returns := k.returns + 1, unasked := workers }
  | requestStopped {k : Ledger} (h : l = k.add 1 .lastRequestLeaseReleased)
      (hstopped : stopped ∨ workers = 0) :
      Moves workers stopped l { k with returns := k.returns + 1 }.stopCheckers
  | ask {m : ℕ} (h : l.unasked = m + 1) :
      Moves workers stopped l { l with unasked := m, tasks := l.tasks + 1 }
  | askNone {m n : ℕ} (h : l.unasked = m + 1) (hn : n ≤ 1) :
      Moves workers stopped l ({ l with unasked := m }.add n .workerBalancesReturned)
  | run {m n : ℕ} (h : l.tasks = m + 1) (hn : n ≤ 1) :
      Moves workers stopped l ({ l with tasks := m }.add n .workerBalancesReturned)
  | balance {k : Ledger} (h : l = k.add 1 .workerBalancesReturned)
      (hmore : k.returned + 1 ≠ workers) :
      Moves workers stopped l { k with returned := k.returned + 1 }
  | lastBalance {k : Ledger} (h : l = k.add 1 .workerBalancesReturned)
      (hlast : k.returned + 1 = workers) :
      Moves workers stopped l { k with returned := k.returned + 1 }.stopCheckers
  | finish {m n : ℕ} (h : l.reapers = m + 1) (hn : n ≤ 1) :
      Moves workers stopped l ({ l with reapers := m }.add n .reaperFinished)
  | forget {k : Ledger} (h : l = k.add 1 .reaperFinished) :
      Moves workers stopped l { k with generation := k.generation.markRetired.1, returned := 0 }

/-- One for a generation whose end was reached. -/
def ended : RetirementState → ℕ
  | .done => 1
  | .active | .retiring | .checkersStopped | .waitingForLeases | .outcomeDraining => 0

/-- Each stage begins when the one before it has ended: the last lease is reported once, then the
balances are asked for, at most one from each worker, then the checkers are stopped and with them
the reaper is started, and its end is the end of the generation. -/
structure Sound (workers : ℕ) (l : Ledger) : Prop where
  quiet : l.generation.Quiet
  reported : l.notifying + l.lastLease + l.returns ≤ l.generation.retirementNotified.toNat
  stops_le : l.stops ≤ l.returns
  reaps : l.reaps = l.stops
  running : l.stops = 0 → l.generation.checkersStopped = false ∧
    (l.generation.retirementState = .active ∨ l.generation.retirementState = .retiring)
  collecting : l.stops = 0 → l.unasked + l.tasks + l.balances + l.returned ≤ workers * l.returns
  collected : l.stops ≠ 0 → l.unasked + l.tasks + l.balances = 0
  draining : l.stops ≠ 0 → .outcomeDraining ≤ l.generation.retirementState
  reaped : l.reapers + l.finished + ended l.generation.retirementState ≤ l.reaps

variable {workers : ℕ} {stopped : Bool} {l k : Ledger}

lemma Sound.returns_le (h : Sound workers l) : l.returns ≤ 1 := by
  have hreported := h.reported
  have hbool := toNat_le l.generation.retirementNotified
  omega

lemma Sound.not_reaped (h : Sound workers l) (hstops : l.stops = 0) :
    l.reapers = 0 ∧ l.finished = 0 := by
  have hreaped := h.reaped
  have hreaps := h.reaps
  omega

lemma Sound.left (h : Sound workers l) (hpos : 0 < l.notifying + l.lastLease + l.returns) :
    l.generation.retirementNotified ∧ l.generation.retirementState ≠ .active ∧
      l.generation.activeRequestLeases = 0 := by
  have hnotified : l.generation.retirementNotified := by
    cases hn : l.generation.retirementNotified with
    | true => rfl
    | false =>
      have hreported := h.reported
      rw [hn, toNat_false] at hreported
      omega
  exact ⟨hnotified, h.quiet hnotified⟩

variable {g : RuntimeGeneration}

lemma sound_fresh (h : Fresh g) : Sound workers { generation := g } where
  quiet := fun hn => absurd (h.2.2.1.symm.trans hn) (by decide)
  reported := Nat.zero_le _
  stops_le := le_rfl
  reaps := rfl
  running := fun _ => ⟨h.2.2.2, .inl h.2.1⟩
  collecting := fun _ => Nat.zero_le _
  collected := fun hne => absurd rfl hne
  draining := fun hne => absurd rfl hne
  reaped := by
    dsimp only
    rw [h.2.1, ended]

lemma stopCheckers_of_retiring (hstate : l.generation.retirementState = .retiring)
    (hleases : l.generation.activeRequestLeases = 0) :
    l.stopCheckers = { l with
        generation := { l.generation with
          checkersStopped := true, retirementState := .outcomeDraining }
        stops := l.stops + 1
        reapers := l.reapers + 1
        reaps := l.reaps + 1 } := by
  have hnotify : l.generation.notifyCheckersStopped = some
      ({ l.generation with checkersStopped := true, retirementState := .waitingForLeases },
        [.stateChange .checkersStopped, .stateChange .waitingForLeases]) := by
    simp [notifyCheckersStopped, advanceIfReady,
      enterCheckersStopped, enterWaitingForLeases, hstate,
      hleases]
  have hreap : beginReaping
      { l.generation with checkersStopped := true, retirementState := .waitingForLeases } =
      some ({ l.generation with
        checkersStopped := true, retirementState := .outcomeDraining },
        [.stateChange .outcomeDraining]) := by
    simp [beginReaping, enterOutcomeDraining, hleases]
  simp only [stopCheckers, hnotify, hreap]

lemma sound_stopCheckers (hquiet : l.generation.Quiet) (hreturns : 0 < l.returns)
    (hreported : l.notifying + l.lastLease + l.returns ≤ l.generation.retirementNotified.toNat)
    (hstate : l.generation.retirementState = .retiring)
    (hleases : l.generation.activeRequestLeases = 0)
    (hstops : l.stops = 0) (hreaps : l.reaps = 0) (hreapers : l.reapers + l.finished = 0)
    (hcollected : l.unasked + l.tasks + l.balances = 0) : Sound workers l.stopCheckers := by
  rw [stopCheckers_of_retiring hstate hleases]
  exact {
    quiet := fun hn => ⟨nofun, (hquiet hn).2⟩
    reported := hreported
    stops_le := by
      dsimp only
      omega
    reaps := by
      dsimp only
      omega
    running := fun h => absurd h (by simp)
    collecting := fun h => absurd h (by simp)
    collected := fun _ => hcollected
    draining := fun _ => le_refl RetirementState.outcomeDraining
    reaped := by
      dsimp only [ended]
      omega }

lemma Sound.fresh (h : Sound workers l) (hl : l.generation.retirementNotified = false)
    (hstate : g.retirementState = .active) (hnotified : g.retirementNotified = false)
    (hstopped : g.checkersStopped = false) : Sound workers { l with generation := g } := by
  have hreported := h.reported
  rw [hl, toNat_false] at hreported
  have hstops := h.stops_le
  have hreaped := h.reaped
  exact { h with
    quiet := fun hn => absurd (hnotified.symm.trans hn) (by decide)
    reported := by
      dsimp only
      omega
    running := fun _ => ⟨hstopped, .inl hstate⟩
    draining := fun hne => absurd hne (by
      dsimp only
      omega)
    reaped := by
      dsimp only
      rw [hstate, ended]
      omega }

lemma Sound.release (h : Sound workers l) {calls : List RetirementCall}
    (hg : l.generation.releaseRequestLease = some (g, calls)) :
    Sound workers
      { l with generation := g, notifying := l.notifying + calls.count .lastLease } := by
  have hpos := leases_releaseRequestLease hg
  have hpasses := passes_releaseRequestLease hg
  -- with a lease out, nothing was reported, and the checkers run
  have hunreported : ¬ 0 < l.notifying + l.lastLease + l.returns := by
    intro hreported
    have hzero := (h.left hreported).2.2
    omega
  have hstops : l.stops = 0 := by
    have hle := h.stops_le
    omega
  obtain ⟨hstopped, hstate⟩ := h.running hstops
  have hne : l.generation.retirementState ≠ .checkersStopped := by
    rcases hstate with hstate | hstate <;> rw [hstate] <;> nofun
  obtain ⟨hstopped', hstate'⟩ := releaseRequestLease_running hg hstopped hne
  exact { h with
    quiet := (h.quiet.releaseRequestLease hg).1
    reported := by
      dsimp only
      rw [hpasses.reported]
      have hreported := h.reported
      omega
    running := fun _ => ⟨hstopped', hstate'.symm ▸ hstate⟩
    draining := fun hne => absurd hstops hne
    reaped := by
      rw [hstate']
      exact h.reaped }

lemma Sound.retire (h : Sound workers l) {calls : List RetirementCall} {n : ℕ}
    (hg : l.generation.beginRetirement = some (g, calls)) (hn : n ≤ calls.count .lastLease) :
    Sound workers ({ l with generation := g }.add n .lastRequestLeaseReleased) := by
  have hpasses := passes_beginRetirement hg
  have hquiet := (h.quiet.beginRetirement hg).1
  obtain ⟨hactive, d, hd, hcases⟩ := beginRetirement_cases hg
  have hunreported : ¬ 0 < l.notifying + l.lastLease + l.returns := fun hpos =>
    (h.left hpos).2.1 hactive
  have hstops : l.stops = 0 := by
    have hle := h.stops_le
    omega
  have hstopped : d.checkersStopped = false := by
    rw [hd]
    exact (h.running hstops).1
  have hstate : d.retirementState = .retiring := by rw [hd]
  have hg' : g.checkersStopped = false ∧ g.retirementState = .retiring := by
    obtain ⟨-, rfl, -⟩ | ⟨-, rfl, -⟩ := hcases
    · rw [checkersStopped_notifyLastLease, state_notifyLastLease]
      exact ⟨hstopped, hstate⟩
    · exact ⟨hstopped, hstate⟩
  exact { h with
    quiet := hquiet
    reported := by
      dsimp only [add]
      rw [hpasses.reported]
      omega
    running := fun _ => ⟨hg'.1, .inr hg'.2⟩
    draining := fun hne => absurd hstops hne
    reaped := by
      have hreaped := h.reaped
      dsimp only [add]
      rw [hg'.2, ended]
      omega }

lemma Sound.of_le (h : Sound workers l) (hgeneration : k.generation = l.generation)
    (hreturns : k.returns = l.returns) (hstops : k.stops = l.stops) (hreaps : k.reaps = l.reaps)
    (hreported : k.notifying + k.lastLease ≤ l.notifying + l.lastLease)
    (hcollecting : k.unasked + k.tasks + k.balances + k.returned ≤
      l.unasked + l.tasks + l.balances + l.returned)
    (hcollected : k.unasked + k.tasks + k.balances ≤ l.unasked + l.tasks + l.balances)
    (hreaped : k.reapers + k.finished ≤ l.reapers + l.finished) : Sound workers k where
  quiet := hgeneration ▸ h.quiet
  reported := by
    rw [hgeneration, hreturns]
    exact (Nat.add_le_add_right hreported _).trans h.reported
  stops_le := by
    rw [hstops, hreturns]
    exact h.stops_le
  reaps := by
    rw [hstops, hreaps]
    exact h.reaps
  running := by
    rw [hstops, hgeneration]
    exact h.running
  collecting := by
    rw [hstops, hreturns]
    exact fun hzero => hcollecting.trans (h.collecting hzero)
  collected := by
    rw [hstops]
    intro hne
    have hzero := h.collected hne
    omega
  draining := by
    rw [hstops, hgeneration]
    exact h.draining
  reaped := by
    rw [hgeneration, hreaps]
    exact (Nat.add_le_add_right hreaped _).trans h.reaped

lemma Sound.of_lastLease (h : Sound workers (k.add 1 .lastRequestLeaseReleased)) :
    k.returns = 0 ∧ k.stops = 0 ∧ k.reaps = 0 ∧ k.reapers + k.finished = 0 ∧
      k.unasked + k.tasks + k.balances + k.returned = 0 ∧
      k.generation.retirementState = .retiring ∧ k.generation.activeRequestLeases = 0 ∧
      k.notifying + k.lastLease + 1 ≤ k.generation.retirementNotified.toNat := by
  have hreported := h.reported
  have hbool := toNat_le k.generation.retirementNotified
  have hreturns : k.returns = 0 := by
    dsimp only [add] at hreported
    omega
  have hstops : k.stops = 0 := Nat.le_zero.mp (hreturns ▸ h.stops_le)
  have hcollecting := h.collecting hstops
  obtain ⟨-, hleft, hleases⟩ := h.left (by
    dsimp only [add]
    omega)
  refine ⟨hreturns, hstops, h.reaps.trans hstops, ?_, ?_, ?_, hleases, ?_⟩
  · obtain ⟨hreapers, hfinished⟩ := h.not_reaped hstops
    exact Nat.add_eq_zero_iff.mpr ⟨hreapers, hfinished⟩
  · dsimp only [add] at hcollecting
    rw [hreturns, Nat.mul_zero] at hcollecting
    omega
  · exact (h.running hstops).2.resolve_left hleft
  · dsimp only [add] at hreported
    omega

lemma Sound.of_lastBalance (h : Sound workers (k.add 1 .workerBalancesReturned))
    (hlast : k.returned + 1 = workers) :
    k.returns = 1 ∧ k.stops = 0 ∧ k.unasked + k.tasks + k.balances = 0 ∧
      k.generation.retirementState = .retiring ∧ k.generation.activeRequestLeases = 0 := by
  have hstops : k.stops = 0 := by
    by_contra hne
    have hzero := h.collected hne
    dsimp only [add] at hzero
    omega
  have hcollecting := h.collecting hstops
  dsimp only [add] at hcollecting
  have hreturns : k.returns = 1 := by
    have hle : k.returns ≤ 1 := h.returns_le
    rcases Nat.le_one_iff_eq_zero_or_eq_one.mp hle with hzero | hone
    · rw [hzero, Nat.mul_zero] at hcollecting
      omega
    · exact hone
  rw [hreturns, Nat.mul_one] at hcollecting
  obtain ⟨-, hleft, hleases⟩ := h.left (by
    dsimp only [add]
    omega)
  exact ⟨hreturns, hstops, by omega, (h.running hstops).2.resolve_left hleft, hleases⟩

lemma Sound.lastBalance (h : Sound workers (k.add 1 .workerBalancesReturned))
    (hlast : k.returned + 1 = workers) :
    Sound workers { k with returned := k.returned + 1 }.stopCheckers := by
  obtain ⟨hreturns, hstops, hcollected, hstate, hleases⟩ := h.of_lastBalance hlast
  obtain ⟨hreapers, hfinished⟩ := h.not_reaped hstops
  refine sound_stopCheckers h.quiet ?_ h.reported hstate hleases hstops (h.reaps.trans hstops)
    (Nat.add_eq_zero_iff.mpr ⟨hreapers, hfinished⟩) hcollected
  dsimp only
  omega

lemma Sound.of_finished (h : Sound workers (k.add 1 .reaperFinished)) :
    k.stops ≠ 0 ∧ k.generation.retirementState = .outcomeDraining ∧
      k.reapers + k.finished + 1 ≤ k.reaps := by
  have hreaped := h.reaped
  have hreaps := h.reaps
  have hreturns := h.returns_le
  have hle := h.stops_le
  dsimp only [add] at hreaped hreaps hreturns hle
  have hstops : k.stops ≠ 0 := by omega
  refine ⟨hstops, ?_, by omega⟩
  have hdraining : .outcomeDraining ≤ k.generation.retirementState := h.draining hstops
  cases hs : k.generation.retirementState with
  | outcomeDraining => rfl
  | done =>
    rw [hs, ended] at hreaped
    omega
  | active | retiring | checkersStopped | waitingForLeases =>
    rw [hs] at hdraining
    exact absurd hdraining (by decide)

lemma Sound.forget (h : Sound workers (k.add 1 .reaperFinished)) :
    Sound workers { k with generation := k.generation.markRetired.1, returned := 0 } := by
  obtain ⟨hstops, hstate, hreaped⟩ := h.of_finished
  have hquiet : k.generation.Quiet := h.quiet
  rw [markRetired, if_pos hstate]
  exact { h with
    quiet := fun hn => ⟨by simp, (hquiet hn).2⟩
    running := fun hzero => absurd hzero hstops
    collecting := fun hzero => absurd hzero hstops
    draining := fun _ => (by decide : RetirementState.outcomeDraining ≤ .done)
    reaped := by
      dsimp only [ended]
      omega }

/-- **The pipeline.** Every move keeps the order of the stages. -/
theorem Sound.moves (h : Sound workers l) (hm : Moves workers stopped l k) : Sound workers k := by
  cases hm with
  | publish hl hk => exact h.fresh hl.2.2.1 hk.2.1 hk.2.2.1 hk.2.2.2
  | acquire hg =>
    obtain ⟨-, -, hnotified, -⟩ := h.quiet.tryAcquireRequestLease hg
    obtain ⟨hactive, ⟨⟩⟩ := Option.ite_none_left_eq_some.mp hg
    refine h.fresh hnotified (not_not.mp hactive) hnotified (h.running ?_).1
    have hreported := h.reported
    have hstops := h.stops_le
    rw [hnotified, toNat_false] at hreported
    omega
  | release hg => exact h.release hg
  | retire hg hn => exact h.retire hg hn
  | notify hm hn | ask hm | askNone hm hn | run hm hn | finish hm hn =>
    refine h.of_le rfl rfl rfl rfl ?_ ?_ ?_ ?_ <;> dsimp only [add] <;> omega
  | @skip _ kind hl =>
    subst hl
    cases kind <;> refine h.of_le rfl rfl rfl rfl ?_ ?_ ?_ ?_ <;> dsimp only [add] <;> omega
  | balance hl hmore =>
    subst hl
    refine h.of_le rfl rfl rfl rfl ?_ ?_ ?_ ?_ <;> dsimp only [add] <;> omega
  | request hl =>
    subst hl
    obtain ⟨hreturns, hstops, -, -, hcollecting, -, -, hreported⟩ := h.of_lastLease
    exact { h with
      reported := by
        dsimp only
        omega
      stops_le := by
        dsimp only
        omega
      collecting := fun _ => by
        dsimp only
        rw [hreturns, Nat.zero_add, Nat.mul_one]
        omega
      collected := fun hne => absurd hstops hne }
  | requestStopped hl _ =>
    subst hl
    obtain ⟨hreturns, hstops, hreaps, hreapers, hcollecting, hstate, hleases, hreported⟩ :=
      h.of_lastLease
    refine sound_stopCheckers h.quiet (Nat.succ_pos _) ?_ hstate hleases hstops hreaps hreapers ?_
    · dsimp only
      omega
    · dsimp only
      omega
  | lastBalance hl hlast =>
    subst hl
    exact h.lastBalance hlast
  | forget hl =>
    subst hl
    exact h.forget

/-! ## What the moves tell of the generation -/

lemma reaps_add (l : Ledger) (n : ℕ) (kind : GenerationMailbox.Kind) :
    (l.add n kind).reaps = l.reaps := by
  cases kind <;> rfl

lemma Sound.of_reaps (h : Sound workers l) (hm : Moves workers stopped l k)
    (hlt : l.reaps < k.reaps) :
    l.generation.activeRequestLeases = 0 ∧
      (stopped ∨ workers = 0 ∨ l.unasked = 0 ∧ l.tasks = 0 ∧ 0 < l.returns) := by
  cases hm with
  | requestStopped hl hstopped =>
    subst hl
    refine ⟨(h.of_lastLease).2.2.2.2.2.2.1, ?_⟩
    rcases hstopped with hstopped | hzero
    · exact .inl hstopped
    · exact .inr (.inl hzero)
  | lastBalance hl hlast =>
    subst hl
    obtain ⟨hreturns, -, hcollected, -, hleases⟩ := h.of_lastBalance hlast
    refine ⟨hleases, .inr (.inr ?_)⟩
    dsimp only [add]
    omega
  | publish | acquire | release | retire | notify | ask | askNone | run | finish =>
    exact absurd hlt (lt_irrefl l.reaps)
  | skip hl =>
    rw [hl, reaps_add] at hlt
    exact absurd hlt (lt_irrefl _)
  | request hl | balance hl _ | forget hl =>
    rw [hl] at hlt
    exact absurd hlt (lt_irrefl _)

end Ledger
end AegisGate.Gateway
