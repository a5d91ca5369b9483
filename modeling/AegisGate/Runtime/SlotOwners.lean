import AegisGate.Health.ProbeSlots
import AegisGate.Runtime.AttemptSelector

/-!
# A slot object has one owner

Every half-open cycle gets a slot object of its own. So the address of an object names one
endpoint, in the coordinator's state and in every snapshot published so far, also in one whose
cycle is over.
-/

namespace AegisGate.Runtime
open Lib Resilience Health CoordinatorState Option List Prod

/-- An address belongs to one endpoint, in the state and in every published snapshot. -/
structure Owned (s : CoordinatorState) (published : List HealthCircuitSnapshot) : Prop where
  bound : ∀ r e address, s.slotAt r e = some address → address < s.slots.length
  own : ∀ r e r' e' address, s.slotAt r e = some address → s.slotAt r' e' = some address →
    r = r' ∧ e = e'
  named : ∀ shown ∈ published, ∀ r e decision address,
    shown.endpoints.cell r e = some decision → decision.probeSlots = some address →
      address < s.slots.length ∧ ∀ r' e', s.slotAt r' e' = some address → r = r' ∧ e = e'

section
variable {s s' : CoordinatorState} {published : List HealthCircuitSnapshot}

section
variable (h : Owned s published)
include h

lemma Owned.congr
    (hslot : ∀ r e address, s'.slotAt r e = some address → s.slotAt r e = some address)
    (hlength : s'.slots.length = s.slots.length) : Owned s' published where
  bound r e address ha := hlength ▸ h.bound r e address (hslot r e address ha)
  own r e r' e' address ha ha' :=
    h.own r e r' e' address (hslot r e address ha) (hslot r' e' address ha')
  named shown hmem r e decision address hcell hdecision := by
    obtain ⟨hlt, hown⟩ := h.named shown hmem r e decision address hcell hdecision
    exact ⟨hlength ▸ hlt, fun r' e' ha => hown r' e' (hslot r' e' address ha)⟩

lemma Owned.renew {route endpoint : ℕ} {b : CircuitBreaker}
    {cycle : Option HalfOpenCycle} : Owned (s.renew route endpoint b cycle) published := by
  have hlength : s.slots.length ≤ (s.renew route endpoint b cycle).slots.length := by
    rw [slots_renew, length_append]
    omega
  -- An address is the new one, for the renewed endpoint, or an old one.
  have haddress : ∀ r e address, (s.renew route endpoint b cycle).slotAt r e = some address →
      r = route ∧ e = endpoint ∧ cycle.isSome ∧ address = s.slots.length ∨
        s.slotAt r e = some address := by
    intro r e address ha
    rw [slotAt_renew] at ha
    split at ha
    · next hsame =>
      obtain ⟨-, -, heq⟩ := map_eq_some_iff.mp ha
      exact .inl ⟨hsame.1, hsame.2.1, hsame.2.2, heq.symm⟩
    · exact .inr ha
  constructor
  case bound =>
    intro r e address ha
    rcases haddress r e address ha with ⟨-, -, hsome, rfl⟩ | hold
    · obtain ⟨c, rfl⟩ := isSome_iff_exists.mp hsome
      rw [slots_renew]
      simp
    · exact (h.bound r e address hold).trans_le hlength
  case own =>
    intro r e r' e' address ha ha'
    rcases haddress r e address ha with ⟨hr, he, -, hnew⟩ | hold <;>
      rcases haddress r' e' address ha' with ⟨hr', he', -, hnew'⟩ | hold'
    · exact ⟨hr.trans hr'.symm, he.trans he'.symm⟩
    · have hlt := h.bound r' e' address hold'
      omega
    · have hlt := h.bound r e address hold
      omega
    · exact h.own r e r' e' address hold hold'
  case named =>
    intro shown hmem r e decision address hcell hdecision
    obtain ⟨hlt, hown⟩ := h.named shown hmem r e decision address hcell hdecision
    refine ⟨hlt.trans_le hlength, fun r' e' ha => ?_⟩
    rcases haddress r' e' address ha with ⟨-, -, -, hnew⟩ | hold
    · omega
    · exact hown r' e' hold

lemma Owned.publish : Owned s.buildSnapshot.1 (published ++ [s.buildSnapshot.2]) := by
  refine ⟨h.bound, h.own, ?_⟩
  intro shown hmem r e decision address hcell hdecision
  rcases mem_append.mp hmem with hmem | hmem
  · exact h.named shown hmem r e decision address hcell hdecision
  cases mem_singleton.mp hmem
  have hslot : s.slotAt r e = some address := by
    dsimp only [buildSnapshot] at hcell
    rw [Grid.cell_map] at hcell
    obtain ⟨st, hst, rfl⟩ := map_eq_some_iff.mp hcell
    rw [slotAt, endpointAt, hst]
    rw [decisionOf] at hdecision
    split at hdecision
    · cases hdecision
    · exact hdecision
  exact ⟨h.bound r e address hslot, fun r' e' ha => h.own r e r' e' address hslot ha⟩

lemma Owned.kin (hkin : CoordinatorState.Kin s s') : Owned s' published :=
  h.congr (fun _ _ _ => hkin.slotAt) (congrArg length hkin.slots)

lemma Owned.importRecord (now : TimePoint) (source : EndpointProtectionSnapshot) :
    Owned (CoordinatorState.importRecord now s source) published := by
  have hbreaker : ∀ {s : CoordinatorState} {route endpoint : ℕ} {routeConfig : Config.Route},
      Owned s published →
        Owned (s.importBreaker route endpoint routeConfig source now) published := by
    intro s route endpoint routeConfig h
    rcases s.importBreaker_eq route endpoint routeConfig source now with heq | ⟨b, _, heq⟩
    · rw [heq]
      exact h
    · rw [heq]
      exact h.renew
  rw [CoordinatorState.importRecord]
  split
  · exact h
  · split
    · exact hbreaker (h.kin (kin_updateHealth _ _ _ _))
    · exact hbreaker h

end

lemma claimProbe_fst (s : CoordinatorState) (route endpoint : ℕ)
    (snapshot : HealthCircuitSnapshot) :
    (s.claimProbe route endpoint snapshot).1 = s ∨
      ∃ decision address object, snapshot.endpoints.cell route endpoint = some decision ∧
        decision.probeSlots = some address ∧
        (s.claimProbe route endpoint snapshot).1 =
        { s with slots := s.slots.set address object } := by
  rcases s.claimProbe_cases route endpoint snapshot with heq |
    ⟨decision, address, object, hcell, hdecision, -, -, ⟨-, heq⟩ | ⟨-, heq⟩⟩
  · exact .inl (congrArg fst heq)
  · exact .inr ⟨decision, address, _, hcell, hdecision, congrArg fst heq⟩
  · exact .inr ⟨decision, address, _, hcell, hdecision, congrArg fst heq⟩

end

namespace Traffic
variable {w w' : Traffic}

/-- `MakeSelection` changes the coordinator's state by a claim only, and the snapshots not at
all. Without a selection it changes nothing else. -/
lemma makeSelection_cases (w : Traffic) (snapshot : HealthCircuitSnapshot) (route endpoint : ℕ) :
    ((w.makeSelection snapshot route endpoint).1.state = w.state ∨
        (w.makeSelection snapshot route endpoint).1.state =
          (w.state.claimProbe route endpoint snapshot).1) ∧
      (w.makeSelection snapshot route endpoint).1.published = w.published ∧
      ((w.makeSelection snapshot route endpoint).2 = false →
        (w.makeSelection snapshot route endpoint).1 =
          { w with state := (w.makeSelection snapshot route endpoint).1.state }) := by
  have hreserve (w : Traffic) (permit : AttemptPermit) :
      (w.reserve route endpoint permit).1.state = w.state ∧
        (w.reserve route endpoint permit).1.published = w.published ∧
        ((w.reserve route endpoint permit).2 = false →
          (w.reserve route endpoint permit).1 = w) := by
    rw [reserve]
    split
    · exact ⟨rfl, rfl, nofun⟩
    · exact ⟨rfl, rfl, fun _ => rfl⟩
  rw [makeSelection.eq_def]
  split
  · exact ⟨.inl rfl, rfl, fun _ => rfl⟩
  next decision _ =>
  split
  · exact ⟨.inl rfl, rfl, fun _ => rfl⟩
  by_cases hhalf : decision.breakerState = .halfOpen
  · rw [takePermit, if_pos hhalf]
    rcases hclaim : w.state.claimProbe route endpoint snapshot with ⟨s, permit⟩
    cases permit with
    | none => exact ⟨.inr rfl, rfl, fun _ => rfl⟩
    | some permit =>
      obtain ⟨hstate, hpublished, hfailed⟩ := hreserve { w with state := s } permit
      refine ⟨.inr hstate, hpublished, fun hfalse => ?_⟩
      rw [hfailed hfalse]
  · rw [takePermit, if_neg hhalf]
    obtain ⟨hstate, hpublished, hfailed⟩ :=
      hreserve w { generation := decision.generation }
    exact ⟨.inl hstate, hpublished, fun hfalse => by rw [hfailed hfalse]⟩

lemma Owned.claimProbe (h : Owned w.state w.published) (snapshot : HealthCircuitSnapshot)
    (route endpoint : ℕ) :
    Owned (w.state.claimProbe route endpoint snapshot).1 w.published := by
  rcases claimProbe_fst w.state route endpoint snapshot with heq | ⟨-, address, object, -, -, heq⟩
  · rw [heq]
    exact h
  · rw [heq]
    exact h.congr (fun _ _ _ => id) (length_set ..)

lemma Owned.makeSelection (h : Owned w.state w.published) (snapshot : HealthCircuitSnapshot)
    (route endpoint : ℕ) :
    Owned (w.makeSelection snapshot route endpoint).1.state
      (w.makeSelection snapshot route endpoint).1.published := by
  obtain ⟨hstate | hstate, hpublished, -⟩ := makeSelection_cases w snapshot route endpoint
  · rw [hpublished, hstate]
    exact h
  · rw [hpublished, hstate]
    exact Owned.claimProbe h snapshot route endpoint

/-- Taking a permit claims a probe or changes nothing. -/
lemma takePermit_cases (w : Traffic) (snapshot : HealthCircuitSnapshot) (route endpoint : ℕ)
    (decision : EndpointDecision) :
    w.takePermit snapshot route endpoint decision =
    (w, some { generation := decision.generation }) ∨
      ∃ s permit, w.state.claimProbe route endpoint snapshot = (s, permit) ∧
        w.takePermit snapshot route endpoint decision = ({ w with state := s }, permit) := by
  rw [takePermit]
  split
  · exact .inr ⟨_, _, rfl, rfl⟩
  · exact .inl rfl

/-- **An address names one endpoint**, after every event. -/
theorem Owned.step {e : Event} (h : Owned w.state w.published) (hstep : w.step e = some w') :
    Owned w'.state w'.published := by
  rw [Traffic.step.eq_def] at hstep
  cases e with
  | arm route endpoint now =>
    cases hstep
    rcases w.state.armHalfOpen_eq route endpoint now with heq | ⟨b, hb, heq⟩
    · rw [heq]
      exact h
    · dsimp only
      rw [heq]
      exact h.renew
  | importProtection snapshot now =>
    cases hstep
    rw [importProtectionSnapshot]
    have hprepared := h.kin (kin_prepareForMigration w.state)
    generalize w.state.prepareForMigration = s at hprepared
    induction snapshot.endpoints generalizing s with
    | nil => exact hprepared
    | cons source rest ih => exact ih _ (hprepared.importRecord now source)
  | recordHealth route endpoint healthy =>
    cases hstep
    exact h.kin (kin_updateHealth _ _ _ _)
  | publish =>
    cases hstep
    exact h.publish
  | drain route now =>
    dsimp only [drain] at hstep
    split at hstep
    · cases hstep
    · split at hstep
      · cases hstep
      · cases hstep
        exact h.congr (fun r e _ ha => (slotAt_recordResult _ _ _ r e).symm.trans ha) rfl
  | stop =>
    cases hstep
    exact h
  | claim snapshot route endpoint =>
    obtain ⟨shown, -, hstep⟩ := bind_eq_some_iff.mp hstep
    obtain ⟨decision, -, hstep⟩ := bind_eq_some_iff.mp hstep
    obtain ⟨-, hstep⟩ := ite_none_right_eq_some.mp hstep
    rcases takePermit_cases w shown route endpoint decision with htake | ⟨s, permit, hclaim, htake⟩
    · rw [htake] at hstep
      cases hstep
      exact h
    have howned := Owned.claimProbe h shown route endpoint
    rw [hclaim] at howned
    rw [htake] at hstep
    cases permit <;> cases hstep <;> exact howned
  | reserve index =>
    obtain ⟨a, -, rfl⟩ := map_eq_some_iff.mp hstep
    rw [reserve]
    split <;> exact h
  | finish index terminal clientAlive =>
    dsimp only at hstep
    split at hstep
    · cases hstep
    obtain ⟨-, ⟨⟩⟩ := ite_none_left_eq_some.mp hstep
    rw [Traffic.finish]
    split
    · exact h
    · split <;> exact h
  | drop index =>
    dsimp only at hstep
    split at hstep
    · cases hstep
    · obtain ⟨-, ⟨⟩⟩ := ite_none_right_eq_some.mp hstep
      exact h

end Traffic
end AegisGate.Runtime
