import AegisGate.Health.Coordinator

/-!
# Open breakers and their arm timers

An open breaker is moved to half-open by an arm timer and by nothing else, so a
breaker that is open without a pending arm timer stays open. `Armed` says that this
does not happen in one state, and `LoopInv` ties the table `arm_timers` to the timer
queue.

`ScheduleArm` cancels the pending timer first, then reads the clock and schedules a
new timer only if the open window has not ended. `armed_iff_inTime` is the exact
condition on a run: every breaker stays armed if and only if every reading that
`ScheduleArm` takes is before the end of the open window. An outcome that arrives
after the window has ended but before the timer has fired breaks it.
-/

namespace AegisGate.Health.Coordinator
open Lib Resilience Net CoordinatorState Option List

/-- The identifier stored for an endpoint's arm timer. -/
def armTimer (c : Coordinator) (route endpoint : ℕ) : Option ℕ :=
  c.loopData.bind fun data => data.armTimers.cell route endpoint

/-- The arm timer of an endpoint is scheduled. -/
def HasArmTimer (c : Coordinator) (route endpoint : ℕ) : Prop :=
  ∃ data id, c.loopData = some data ∧ data.armTimers.cell route endpoint = some id ∧ id ≠ 0 ∧
    data.timers.Pending id (.arm route endpoint)

/-- **The property.** Every open breaker has a pending arm timer. -/
def Armed (w : World) : Prop :=
  ∀ route endpoint, w.coordinator.state.isOpen route endpoint →
    w.coordinator.HasArmTimer route endpoint

/-- The table of arm timers agrees with the timer queue. -/
structure LoopOk (state : CoordinatorState) (data : LoopData) : Prop where
  timers : data.timers.Wf
  shape : ∀ r e, (data.armTimers.cell r e).isSome = (state.endpointAt r e).isSome
  tracked : ∀ r e id, data.timers.Pending id (.arm r e) ↔ data.armTimers.cell r e = some id ∧ id ≠ 0

/-- The loop runs, and its timers fit the state. -/
def LoopInv (c : Coordinator) : Prop := ∃ data, c.loopData = some data ∧ LoopOk c.state data

/-! ## One arm timer -/

section Arm
variable {state : CoordinatorState} {data : LoopData}

lemma LoopOk.hasArmTimer_iff {c : Coordinator} (h : LoopOk state data)
    (hd : c.loopData = some data) {r e : ℕ} :
    c.HasArmTimer r e ↔ ∃ id, data.armTimers.cell r e = some id ∧ id ≠ 0 := by
  constructor
  · rintro ⟨data', id, hd', hcell, hne, -⟩
    obtain rfl : data = data' := some.inj (hd.symm.trans hd')
    exact ⟨id, hcell, hne⟩
  · rintro ⟨id, hcell, hne⟩
    exact ⟨data, id, hd, hcell, hne, (h.tracked r e id).mpr ⟨hcell, hne⟩⟩

lemma LoopOk.congr {state' : CoordinatorState} (h : LoopOk state data)
    (hs : ∀ r e, (state'.endpointAt r e).isSome = (state.endpointAt r e).isSome) :
    LoopOk state' data :=
  ⟨h.timers, fun r e => (h.shape r e).trans (hs r e).symm, h.tracked⟩

lemma LoopData.cell_setArm (data : LoopData) (route endpoint id r e : ℕ) :
    (data.setArm route endpoint id).armTimers.cell r e =
      if r = route ∧ e = endpoint then (data.armTimers.cell r e).map fun _ => id
      else data.armTimers.cell r e :=
  Grid.cell_update _ _ _ _ _ _

variable {route endpoint : ℕ} {timers : TimerQueue TimerCallback}

lemma arm_ne {r e : ℕ} (h : ¬(r = route ∧ e = endpoint)) :
    TimerCallback.arm r e ≠ .arm route endpoint := by
  intro heq
  exact h (by simpa using heq)

/-- `timers` is the queue without the arm timer of one endpoint. -/
def Without (timers base : TimerQueue TimerCallback) (route endpoint : ℕ) : Prop :=
  timers.Wf ∧ ∀ k c, timers.Pending k c ↔ base.Pending k c ∧ c ≠ .arm route endpoint

lemma LoopOk.setArm (h : LoopOk state data) {id : ℕ} (hwf : timers.Wf)
    (hself : ∀ k, timers.Pending k (.arm route endpoint) ↔
      (data.armTimers.cell route endpoint).isSome ∧ k = id ∧ id ≠ 0)
    (hother : ∀ k c, c ≠ .arm route endpoint → (timers.Pending k c ↔ data.timers.Pending k c)) :
    LoopOk state (LoopData.setArm { data with timers := timers } route endpoint id) := by
  refine ⟨hwf, ?_, ?_⟩
  · intro r e
    rw [LoopData.cell_setArm, ← h.shape r e]
    split <;> simp
  intro r e k
  change timers.Pending k (.arm r e) ↔ _
  rw [LoopData.cell_setArm]
  by_cases hre : r = route ∧ e = endpoint
  · obtain ⟨rfl, rfl⟩ := hre
    rw [hself]
    cases data.armTimers.cell r e with
    | none => simp
    | some j =>
      simp only [isSome_some, true_and, and_self, if_true, map_some, some.injEq]
      constructor
      · rintro ⟨rfl, hne⟩
        exact ⟨rfl, hne⟩
      · rintro ⟨rfl, hne⟩
        exact ⟨rfl, hne⟩
  · rw [if_neg hre, hother k _ (arm_ne hre), h.tracked]

lemma LoopOk.disarm (h : LoopOk state data) (hw : Without timers data.timers route endpoint) :
    LoopOk state (LoopData.setArm { data with timers := timers } route endpoint 0) := by
  refine h.setArm hw.1 ?_ ?_
  · intro k
    simp [hw.2]
  · intro k c hc
    simp [hw.2, hc]

lemma LoopOk.arm (h : LoopOk state data) {id : ℕ} {deadline : Instant}
    {base : TimerQueue TimerCallback} (hw : Without base data.timers route endpoint)
    (hcell : (data.armTimers.cell route endpoint).isSome)
    (hs : base.scheduleAt deadline (.arm route endpoint) = some (timers, id)) :
    LoopOk state (LoopData.setArm { data with timers := timers } route endpoint id) ∧ id ≠ 0 := by
  have hpos : id ≠ 0 := Nat.pos_iff_ne_zero.mp (TimerQueue.scheduleAt_some hs).2.1
  refine ⟨h.setArm (hw.1.scheduleAt hs) ?_ ?_, hpos⟩
  · intro k
    simp [TimerQueue.pending_scheduleAt hs, hw.2, hcell, hpos]
  · intro k c hc
    simp [TimerQueue.pending_scheduleAt hs, hw.2, hc]

/-- The cancellation at the start of `ScheduleArm` removes this arm timer only. -/
lemma LoopOk.without (h : LoopOk state data) {timerId : ℕ}
    (hcell : data.armTimers.cell route endpoint = some timerId) :
    Without (if timerId ≠ 0 then (data.timers.cancel timerId).1 else data.timers) data.timers
      route endpoint := by
  by_cases h0 : timerId ≠ 0
  · rw [if_pos h0]
    refine ⟨h.timers.cancel timerId, fun k c => ?_⟩
    rw [h.timers.pending_cancel]
    refine and_congr_right fun hk => not_congr ⟨?_, ?_⟩
    · rintro rfl
      exact h.timers.pending_unique hk ((h.tracked _ _ _).mpr ⟨hcell, h0⟩)
    · rintro rfl
      exact some.inj (((h.tracked _ _ _).mp hk).1.symm.trans hcell)
  rw [if_neg h0]
  refine ⟨h.timers, fun k c => ⟨fun hk => ⟨hk, ?_⟩, And.left⟩⟩
  rintro rfl
  obtain ⟨hk', hne⟩ := (h.tracked _ _ _).mp hk
  obtain rfl : timerId = k := some.inj (hcell.symm.trans hk')
  exact h0 hne

end Arm

/-- What happens to the table of arm timers outside one endpoint. -/
def SameElsewhere (data data' : LoopData) (route endpoint : ℕ) : Prop :=
  ∀ r e, ¬(r = route ∧ e = endpoint) → data'.armTimers.cell r e = data.armTimers.cell r e

lemma sameElsewhere_setArm (data : LoopData) (timers : TimerQueue TimerCallback)
    (route endpoint id : ℕ) :
    SameElsewhere data (LoopData.setArm { data with timers := timers } route endpoint id)
      route endpoint := by
  intro r e h
  rw [LoopData.cell_setArm, if_neg h]

variable {c c' : Coordinator} {data data' : LoopData} {route endpoint : ℕ}
  {now scheduleNow armNow : Instant} {w w' : World} {timers : TimerQueue TimerCallback}

/-- **`ScheduleArm`.** Afterwards the endpoint has a pending arm timer if and only if
the reading was before the end of the open window. -/
theorem scheduleArm_spec (h : LoopOk c.state data) (hd : c.loopData = some data)
    (hs : c.scheduleArm route endpoint now scheduleNow = some c') :
    c'.state = c.state ∧ ∃ data', c'.loopData = some data' ∧ LoopOk c.state data' ∧
      SameElsewhere data data' route endpoint ∧
      ∀ b, c.state.breakerAt route endpoint = some b →
        ((∃ id, data'.armTimers.cell route endpoint = some id ∧ id ≠ 0) ↔ now < b.openUntil) := by
  unfold scheduleArm at hs
  simp only [hd, bind_some] at hs
  cases hcell : data.armTimers.cell route endpoint with
  | none =>
    simp only [hcell, map_none, some.injEq] at hs
    subst hs
    refine ⟨rfl, data, hd, h, fun _ _ _ => rfl, fun b hb => ?_⟩
    -- An endpoint outside the table has no breaker.
    have hnone : c.state.endpointAt route endpoint = none := by
      simpa [hcell] using (h.shape route endpoint).symm
    simp [breakerAt, hnone] at hb
  | some timerId =>
    have hw := h.without hcell
    simp only [hcell, map_some] at hs
    generalize (if timerId ≠ 0 then (data.timers.cancel timerId).1 else data.timers) = timers
      at hs hw
    have hzero : ¬∃ id, (LoopData.setArm { data with timers := timers } route endpoint
        0).armTimers.cell route endpoint = some id ∧ id ≠ 0 := by
      rintro ⟨id, hid, hne⟩
      rw [LoopData.cell_setArm, if_pos ⟨rfl, rfl⟩, hcell, map_some, some.injEq] at hid
      exact hne hid.symm
    cases hb : c.state.breakerAt route endpoint with
    | none =>
      simp only [openUntil, hb, map_none, some.injEq] at hs
      subst hs
      exact ⟨rfl, _, rfl, h.disarm hw, sameElsewhere_setArm _ _ _ _ _, by simp⟩
    | some b =>
      simp only [openUntil_eq hb] at hs
      by_cases hle : b.openUntil ≤ now
      · rw [if_pos hle, some.injEq] at hs
        subst hs
        refine ⟨rfl, _, rfl, h.disarm hw, sameElsewhere_setArm _ _ _ _ _, ?_⟩
        intro b' hb'
        obtain rfl : b = b' := some.inj hb'
        exact iff_of_false hzero (not_lt.mpr hle)
      rw [if_neg hle, map_eq_some_iff] at hs
      obtain ⟨⟨timers', id⟩, hsched, rfl⟩ := hs
      rw [TimerQueue.scheduleAfter, if_neg (not_lt.mpr (Int.sub_nonneg_of_le (not_le.mp hle).le))]
        at hsched
      obtain ⟨hok, hpos⟩ := h.arm hw (by simp [hcell]) hsched
      refine ⟨rfl, _, rfl, hok, sameElsewhere_setArm _ _ _ _ _, ?_⟩
      intro b' hb'
      obtain rfl : b = b' := some.inj hb'
      refine iff_of_true ⟨id, ?_, hpos⟩ (not_le.mp hle)
      rw [LoopData.cell_setArm, if_pos ⟨rfl, rfl⟩, hcell]
      rfl

/-! ## One activation of the loop -/

/-- The condition on one event, on the state before it: every reading that
`ScheduleArm` takes is before the end of the open window it is about. -/
def InTime (w : World) : Event → Prop
  | .record result now armNow _ =>
    ∀ b, w.coordinator.state.breakerAt result.routeIndex result.endpointIndex = some b →
      (b.state = .opened → armNow < b.openUntil) ∧
      (b.Trips now (requestPermit result.permit) result.success →
        armNow < now + milliseconds b.config.openDuration)
  | .fire now firedAt armNow _ =>
    ∀ data route endpoint id timers, w.coordinator.loopData = some data →
      data.timers.popDue now = some (.arm route endpoint, id, timers) →
      ∀ b, w.coordinator.state.breakerAt route endpoint = some b → b.state = .opened →
        firedAt < b.openUntil → armNow < b.openUntil
  | _ => True

/-- A coordinator differs from another in one endpoint only. -/
structure Local (c c' : Coordinator) (data data' : LoopData) (route endpoint : ℕ) : Prop where
  before : c.loopData = some data
  ok : LoopOk c.state data
  after : c'.loopData = some data'
  ok' : LoopOk c'.state data'
  same : SameElsewhere data data' route endpoint
  breakers : ∀ r e, ¬(r = route ∧ e = endpoint) → c'.state.breakerAt r e = c.state.breakerAt r e

lemma Local.armed_iff (h : Local w.coordinator w'.coordinator data data' route endpoint)
    (ha : Armed w) :
    Armed w' ↔ (w'.coordinator.state.isOpen route endpoint →
      ∃ id, data'.armTimers.cell route endpoint = some id ∧ id ≠ 0) := by
  constructor
  · intro ha' hopen
    exact (h.ok'.hasArmTimer_iff h.after).mp (ha' route endpoint hopen)
  intro hself r e hopen
  rw [h.ok'.hasArmTimer_iff h.after]
  by_cases hre : r = route ∧ e = endpoint
  · obtain ⟨rfl, rfl⟩ := hre
    exact hself hopen
  · rw [h.same r e hre]
    rw [isOpen_iff, h.breakers r e hre, ← isOpen_iff] at hopen
    exact (h.ok.hasArmTimer_iff h.before).mp (ha r e hopen)

/-- `RecordResultDirect` touches the endpoint of its result, and arms it if it is open
and the reading is in time. -/
lemma recordResultDirect_spec (hd : c.loopData = some data) (h : LoopOk c.state data)
    {result : AttemptResult} (hs : c.recordResultDirect result now armNow scheduleNow = some c') :
    c'.state = c.state.recordResult result now ∧
      ∃ data', Local c c' data data' result.routeIndex result.endpointIndex ∧
        ∀ b, c'.state.breakerAt result.routeIndex result.endpointIndex = some b →
          b.state = .opened →
          ((∃ id, data'.armTimers.cell result.routeIndex result.endpointIndex = some id ∧ id ≠ 0) ↔
            armNow < b.openUntil) := by
  have hok : LoopOk (c.state.recordResult result now) data :=
    h.congr fun r e => isSome_updateAt _ _ _ _ r e
  have hbr : ∀ r e, ¬(r = result.routeIndex ∧ e = result.endpointIndex) →
      (c.state.recordResult result now).breakerAt r e = c.state.breakerAt r e := by
    intro r e hre
    rw [breakerAt_recordResult, if_neg hre]
  unfold recordResultDirect at hs
  simp only at hs
  split at hs
  · obtain ⟨hst, data', hd', hok', hsame, harm⟩ :=
      scheduleArm_spec (c := { c with state := c.state.recordResult result now }) hok hd hs
    refine ⟨hst, data', ⟨hd, h, hd', hst ▸ hok', hsame, hst ▸ hbr⟩, fun b hb _ => ?_⟩
    rw [hst] at hb
    exact harm b hb
  · next hclosed =>
    cases hs
    refine ⟨rfl, data, ⟨hd, h, hd, hok, fun _ _ _ => rfl, hbr⟩, fun b hb hopen => ?_⟩
    exact absurd (isOpen_iff.mpr ⟨b, hb, hopen⟩) hclosed

lemma record_armed_iff (hd : w.coordinator.loopData = some data)
    (h : LoopOk w.coordinator.state data) (ha : Armed w) {result : AttemptResult}
    (hs : w.coordinator.recordResultDirect result now armNow scheduleNow = some c') :
    Armed ⟨c', scheduleNow⟩ ↔ InTime w (.record result now armNow scheduleNow) := by
  obtain ⟨hst, data', hloc, harm⟩ := recordResultDirect_spec hd h hs
  have hiff : Armed ⟨c', scheduleNow⟩ ↔ _ := hloc.armed_iff ha
  rw [hiff]
  simp only [InTime, isOpen_iff]
  have hb' := breakerAt_recordResult w.coordinator.state result now
    result.routeIndex result.endpointIndex
  rw [if_pos ⟨rfl, rfl⟩, ← hst] at hb'
  cases hb : w.coordinator.state.breakerAt result.routeIndex result.endpointIndex with
  | none =>
    rw [hb] at hb'
    simp [hb']
  | some b =>
    rw [hb, map_some] at hb'
    have harm' := harm _ hb'
    simp only [hb', some.injEq, forall_eq']
    by_cases hopen : b.state = .opened
    · -- An open breaker ignores the outcome and keeps its window.
      have hsame : CircuitBreaker.SameProtection
          (b.record now (requestPermit result.permit) result.success) b :=
        CircuitBreaker.record_of_opened hopen
      have hno : ¬b.Trips now (requestPermit result.permit) result.success := by
        simp [CircuitBreaker.Trips, hopen]
      have hst' := hsame.state.trans hopen
      rw [harm' hst', hsame.openUntil]
      constructor
      · intro hin
        exact ⟨fun _ => hin ⟨_, rfl, hst'⟩, fun ht => absurd ht hno⟩
      · rintro ⟨hin, -⟩ -
        exact hin hopen
    by_cases htrip : b.Trips now (requestPermit result.permit) result.success
    · obtain ⟨hst', huntil⟩ := CircuitBreaker.record_of_trips htrip
      rw [harm' hst', huntil]
      constructor
      · intro hin
        exact ⟨fun ho => absurd ho hopen, fun _ => hin ⟨_, rfl, hst'⟩⟩
      · rintro ⟨-, hin⟩ -
        exact hin htrip
    have hst' := CircuitBreaker.record_of_not_trips hopen htrip
    constructor
    · intro _
      exact ⟨fun ho => absurd ho hopen, fun ht => absurd ht htrip⟩
    · rintro - ⟨b', rfl, ho⟩
      exact absurd ho hst'

lemma LoopOk.publish (h : LoopOk c.state data) : LoopOk c.publish.state data :=
  h.congr fun _ _ => rfl

lemma armCallback_spec (hd : c.loopData = some data) (h : LoopOk c.state data)
    (hw : Without timers data.timers route endpoint) {firedAt : Instant}
    (hs : armCallback { c with loopData := some { data with timers := timers } }
      route endpoint firedAt armNow scheduleNow = some c') :
    ∃ data', Local c c' data data' route endpoint ∧ ((c'.state.isOpen route endpoint →
          ∃ id, data'.armTimers.cell route endpoint = some id ∧ id ≠ 0) ↔
        ∀ b, c.state.breakerAt route endpoint = some b → b.state = .opened →
          firedAt < b.openUntil → armNow < b.openUntil) := by
  have hdis := h.disarm hw
  have hsame := sameElsewhere_setArm data timers route endpoint 0
  unfold armCallback at hs
  simp only [map_some] at hs
  generalize LoopData.setArm { data with timers := timers } route endpoint 0 = disarmed
    at hs hdis hsame
  cases hb : c.state.breakerAt route endpoint with
  | none =>
    simp only [isOpen, hb, some.injEq] at hs
    subst hs
    refine ⟨disarmed, ⟨hd, h, rfl, hdis.publish, hsame, fun _ _ _ => rfl⟩,
      iff_of_true (fun hopen => ?_) (by simp)⟩
    obtain ⟨b, hb', -⟩ := isOpen_iff.mp hopen
    exact absurd (hb.symm.trans hb') (by simp)
  | some b =>
    simp only [isOpen, openUntil_eq hb, hb] at hs
    by_cases hopen : b.state = .opened
    · simp only [hopen, decide_true] at hs
      by_cases hearly : firedAt < b.openUntil
      · -- The timer fired early and is scheduled again.
        rw [if_pos hearly] at hs
        obtain ⟨hst, data', hd', hok', hsame', harm⟩ := scheduleArm_spec
          (c := { c with loopData := some disarmed }) hdis rfl hs
        have hst' : c'.state = c.state := hst
        refine ⟨data', ⟨hd, h, hd', hst ▸ hok',
          fun r e hre => (hsame' r e hre).trans (hsame r e hre), fun r e _ => by rw [hst']⟩, ?_⟩
        rw [harm b hb]
        constructor
        · intro hin b' hb' ho _
          obtain rfl : b = b' := some.inj hb'
          exact hin (isOpen_iff.mpr ⟨b, hst'.symm ▸ hb, ho⟩)
        · intro hin _
          exact hin b rfl hopen hearly
      · -- The window has elapsed: the breaker becomes half-open.
        rw [if_neg hearly, some.injEq] at hs
        subst hs
        have hbr := breakerAt_armHalfOpen c.state route endpoint firedAt
        have hok' : LoopOk (c.state.armHalfOpen route endpoint firedAt) disarmed :=
          hdis.congr fun r e => isSome_armHalfOpen _ _ _ _ r e
        refine ⟨disarmed, ⟨hd, h, rfl, hok'.congr fun _ _ => rfl, hsame,
          fun r e hre => (hbr r e).trans (if_neg hre)⟩, iff_of_true (fun hop => ?_) ?_⟩
        · obtain ⟨b', hb', ho'⟩ := isOpen_iff.mp hop
          have hbself := hbr route endpoint
          rw [if_pos ⟨rfl, rfl⟩, hb, map_some, if_neg (by simp [hopen, hearly])] at hbself
          obtain rfl : b.beginFreshHalfOpenCycle.1 = b' := some.inj (hbself.symm.trans hb')
          exact absurd ho' (by simp [CircuitBreaker.beginFreshHalfOpenCycle])
        · intro b' hb' _ hlt
          obtain rfl : b = b' := some.inj hb'
          exact absurd hlt hearly
    simp only [hopen, decide_false, some.injEq] at hs
    subst hs
    refine ⟨disarmed, ⟨hd, h, rfl, hdis.publish, hsame, fun _ _ _ => rfl⟩,
      iff_of_true (fun hop => ?_) fun b' hb' ho' => ?_⟩
    · obtain ⟨b', hb', ho'⟩ := isOpen_iff.mp hop
      obtain rfl : b = b' := some.inj (hb.symm.trans hb')
      exact absurd ho' hopen
    · obtain rfl : b = b' := some.inj hb'
      exact absurd ho' hopen

lemma LoopOk.retime {state : CoordinatorState} (h : LoopOk state data) (hwf : timers.Wf)
    (hp : ∀ k r e, timers.Pending k (.arm r e) ↔ data.timers.Pending k (.arm r e)) :
    LoopOk state { data with timers := timers } :=
  ⟨hwf, h.shape, fun r e id => (hp id r e).trans (h.tracked r e id)⟩

lemma LoopOk.without_popDue {state : CoordinatorState} (h : LoopOk state data) {id : ℕ}
    (hpop : data.timers.popDue now = some (.arm route endpoint, id, timers)) :
    Without timers data.timers route endpoint := by
  obtain ⟨hwf, hpend, hp⟩ := h.timers.popDue hpop
  refine ⟨hwf, fun k c => (hp k c).trans (and_congr_right fun hk => not_congr ⟨?_, ?_⟩)⟩
  · rintro rfl
    exact h.timers.pending_unique hk hpend
  · rintro rfl
    have h1 := (h.tracked _ _ _).mp hk
    have h2 := (h.tracked _ _ _).mp hpend
    exact some.inj (h1.1.symm.trans h2.1)

lemma LoopOk.popDue_other {state : CoordinatorState} (h : LoopOk state data) {owner id : ℕ}
    (hpop : data.timers.popDue now = some (.other owner, id, timers)) :
    LoopOk state { data with timers := timers } := by
  obtain ⟨hwf, hpend, hp⟩ := h.timers.popDue hpop
  refine h.retime hwf fun k r e => (hp k _).trans ⟨And.left, fun hk => ⟨hk, ?_⟩⟩
  rintro rfl
  exact TimerCallback.noConfusion (h.timers.pending_unique hk hpend)

lemma armed_of_same (hd : w.coordinator.loopData = some data)
    (h : LoopOk w.coordinator.state data) (hd' : w'.coordinator.loopData = some data')
    (h' : LoopOk w'.coordinator.state data') (harm : data'.armTimers = data.armTimers)
    (hbr : ∀ r e, w'.coordinator.state.breakerAt r e = w.coordinator.state.breakerAt r e)
    (ha : Armed w) : Armed w' := by
  intro r e hopen
  rw [isOpen_iff, hbr, ← isOpen_iff] at hopen
  rw [h'.hasArmTimer_iff hd', harm]
  exact (h.hasArmTimer_iff hd).mp (ha r e hopen)

/-- **One activation of the loop** keeps the loop's invariant, and keeps everything
armed if and only if it comes in time. -/
theorem step_armed_iff {e : Event} (hinv : LoopInv w.coordinator) (hs : step w e = some w') :
    LoopInv w'.coordinator ∧ (Armed w → (Armed w' ↔ InTime w e)) := by
  obtain ⟨data, hd, h⟩ := hinv
  cases e with
  | record result now armNow scheduleNow =>
    simp only [step] at hs
    obtain ⟨-, hs⟩ := ite_none_right_eq_some.mp hs
    rw [map_eq_some_iff] at hs
    obtain ⟨c', hrec, rfl⟩ := hs
    obtain ⟨-, data', hloc, -⟩ := recordResultDirect_spec hd h hrec
    exact ⟨⟨data', hloc.after, hloc.ok'⟩, fun ha => record_armed_iff hd h ha hrec⟩
  | fire now firedAt armNow scheduleNow =>
    simp only [step] at hs
    obtain ⟨-, hs⟩ := ite_none_right_eq_some.mp hs
    simp only [hd, bind_some, bind_eq_some_iff, map_eq_some_iff] at hs
    obtain ⟨⟨callback, id, timers⟩, hpop, c', hrun, rfl⟩ := hs
    cases callback with
    | arm route endpoint =>
      obtain ⟨data', hloc, hiff⟩ := armCallback_spec hd h (h.without_popDue hpop) hrun
      refine ⟨⟨data', hloc.after, hloc.ok'⟩, fun ha => ?_⟩
      refine (hloc.armed_iff (w := w) ha).trans (hiff.trans ⟨?_, ?_⟩)
      · intro hin data' r e' id' timers' hd' hpop' b hb
        obtain rfl : data = data' := some.inj (hd.symm.trans hd')
        rw [hpop] at hpop'
        simp only [some.injEq, Prod.mk.injEq, TimerCallback.arm.injEq] at hpop'
        obtain ⟨⟨rfl, rfl⟩, -, -⟩ := hpop'
        exact hin b hb
      · intro hin b hb
        exact hin data route endpoint id timers hd hpop b hb
    | other owner =>
      cases hrun
      have hok' := h.popDue_other hpop
      refine ⟨⟨_, rfl, hok'⟩, fun ha => iff_of_true ?_ ?_⟩
      · exact armed_of_same hd h rfl hok' rfl (fun _ _ => rfl) ha
      · intro data' r e' id' timers' hd' hpop'
        obtain rfl : data = data' := some.inj (hd.symm.trans hd')
        rw [hpop] at hpop'
        simp at hpop'
  | recordHealth route endpoint healthy =>
    cases hs
    have hok' : LoopOk (w.coordinator.state.recordHealth route endpoint healthy) data :=
      h.congr fun r e => isSome_updateAt _ _ _ _ r e
    refine ⟨⟨data, hd, hok'.congr fun _ _ => rfl⟩, fun ha => iff_of_true ?_ trivial⟩
    exact armed_of_same hd h hd (hok'.congr fun _ _ => rfl) rfl
      (fun r e => breakerAt_recordHealth _ _ _ _ r e) ha
  | publish =>
    cases hs
    refine ⟨⟨data, hd, h.publish⟩, fun ha => iff_of_true ?_ trivial⟩
    exact armed_of_same hd h hd h.publish rfl (fun _ _ => rfl) ha
  | schedule owner now delay =>
    simp only [step] at hs
    obtain ⟨-, hs⟩ := ite_none_right_eq_some.mp hs
    simp only [hd, bind_some, map_eq_some_iff, TimerQueue.scheduleAfter] at hs
    obtain ⟨⟨timers, id⟩, hsched, rfl⟩ := hs
    obtain ⟨-, hsched⟩ := ite_none_left_eq_some.mp hsched
    have hok' : LoopOk w.coordinator.state { data with timers := timers } := by
      refine h.retime (h.timers.scheduleAt hsched) fun k r e => ?_
      simp [TimerQueue.pending_scheduleAt hsched]
    refine ⟨⟨_, rfl, hok'⟩, fun ha => iff_of_true ?_ trivial⟩
    exact armed_of_same hd h rfl hok' rfl (fun _ _ => rfl) ha
  | cancel identifier =>
    simp only [step, hd, bind_some] at hs
    obtain ⟨hno, ⟨⟩⟩ := ite_none_left_eq_some.mp hs
    have hok' : LoopOk w.coordinator.state
        { data with timers := (data.timers.cancel identifier).1 } := by
      refine h.retime (h.timers.cancel identifier) fun k r e => ?_
      refine (h.timers.pending_cancel identifier).trans ⟨And.left, fun hk => ⟨hk, ?_⟩⟩
      rintro rfl
      obtain ⟨d, hmem⟩ := hk
      exact hno (any_eq_true.mpr ⟨_, hmem, by simp⟩)
    refine ⟨⟨_, rfl, hok'⟩, fun ha => iff_of_true ?_ trivial⟩
    exact armed_of_same hd h rfl hok' rfl (fun _ _ => rfl) ha
  | advance now =>
    simp only [step] at hs
    split at hs <;> cases hs
    exact ⟨⟨data, hd, h⟩, fun ha => iff_of_true ha trivial⟩

/-! ## Whole runs -/

lemma loopOk_onLoopInit {config : Config} {state : CoordinatorState}
    (h : CoordinatorState.create config now = some state) :
    LoopOk state { armTimers := state.config.routes.map fun route =>
      route.endpoints.map fun _ => 0 } := by
  have hcell : ∀ r e, Grid.cell (state.config.routes.map fun route =>
      route.endpoints.map fun _ => 0) r e =
        ((state.config.routes[r]?).bind fun rc => rc.endpoints[e]?).map fun _ => 0 := by
    intro r e
    simp only [Grid.cell, getElem?_map]
    cases state.config.routes[r]? with
    | none => rfl
    | some rc => exact getElem?_map
  refine ⟨TimerQueue.wf_empty, ?_, ?_⟩
  · intro r e
    rw [isSome_create h, hcell, isSome_map, (endpointAt_create h r e).1]
  intro r e id
  rw [hcell]
  constructor
  · rintro ⟨d, hd⟩
    cases hd
  · rintro ⟨hid, hne⟩
    obtain ⟨-, -, rfl⟩ := map_eq_some_iff.mp hid
    exact absurd rfl hne

lemma loopInv_start {config : Config} {c₀ : Coordinator}
    (hc : Coordinator.create config now = some c₀) (hs : c₀.start = some c) (clock : Instant) :
    LoopInv c ∧ Armed ⟨c, clock⟩ := by
  obtain ⟨state, hstate, rfl⟩ := create_some hc
  simp only [start, bind_eq_some_iff] at hs
  obtain ⟨c₁, hprep, hact⟩ := hs
  obtain rfl := activate_some hact
  obtain rfl := startPrepared_some hprep
  refine ⟨⟨_, rfl, (loopOk_onLoopInit hstate).congr fun _ _ => rfl⟩, ?_⟩
  intro r e hopen
  obtain ⟨b, hb, ho⟩ := isOpen_iff.mp hopen
  have hclosed := (breakerAt_create hstate hb).1
  exact absurd (hclosed.symm.trans ho) (by decide)

/-- **The exact condition for arm timers.** In a run of a coordinator that started
without a snapshot, every open breaker has a pending arm timer in every state if and
only if every reading that `ScheduleArm` takes is before the end of the open window. -/
theorem armed_iff_inTime {config : Config} {now clock : Instant} {c₀ c : Coordinator}
    (hc : Coordinator.create config now = some c₀) (hs : c₀.start = some c) (es : List Event) :
    Always step Armed ⟨c, clock⟩ es ↔ Along step InTime ⟨c, clock⟩ es := by
  obtain ⟨hinv, harmed⟩ := loopInv_start hc hs clock
  refine always_iff_along (G := fun w => LoopInv w.coordinator) ?_ ?_ hinv harmed
  · intro w e w' hw hstep
    exact (step_armed_iff hw hstep).1
  · intro w e w' hw ha hstep
    exact (step_armed_iff hw hstep).2 ha

/-- One endpoint whose breaker opens for a second at its first failure. -/
def oneSecondConfig : Config where
  routes := [{
    name := "r", host := "h", pathPrefix := "/"
    endpoints := [Config.localEndpoint]
    maxInflight := 1, retryBudget := 0
    circuitBreaker := some ⟨10, 1, 500, 1, 1⟩ }]

def firstEpoch (success : Bool) : AttemptResult where
  permit := { generation := 1 }
  success := success

/-- The first failure opens the breaker in time. -/
theorem armed_iff_inTime_firstFailure :
    ∃ c₀ c, Coordinator.create oneSecondConfig 0 = some c₀ ∧ c₀.start = some c ∧
      Always step Armed ⟨c, 0⟩ [.record (firstEpoch false) 0 0 0] := by
  refine ⟨_, _, rfl, rfl, (@armed_iff_inTime oneSecondConfig 0 0 _ _ rfl rfl _).mpr ?_⟩
  intro w hw
  refine ⟨?_, trivial⟩
  intro b hb
  cases hb
  refine ⟨?_, ?_⟩
  · intro hopen
    cases hopen
  · intro _
    decide

/-- A second outcome of the first epoch arrives when the window has just ended: the
pending timer is cancelled, none is scheduled, and the breaker stays open. -/
theorem armed_fails_lateResult :
    ∃ c₀ c w, Coordinator.create oneSecondConfig 0 = some c₀ ∧ c₀.start = some c ∧
      run step ⟨c, 0⟩ [.record (firstEpoch false) 0 0 0,
        .record (firstEpoch true) 1000000000 1000000000 1000000000] = some w ∧ ¬Armed w := by
  refine ⟨_, _, _, rfl, rfl, rfl, ?_⟩
  intro h
  obtain ⟨data, id, hd, hcell, hne, -⟩ := h 0 0 rfl
  cases hd
  cases hcell
  exact hne rfl

end AegisGate.Health.Coordinator
