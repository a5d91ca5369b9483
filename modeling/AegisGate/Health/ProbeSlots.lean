import AegisGate.Health.CoordinatorState

/-!
# Slot objects

A cycle's slot object is made when the cycle begins and never removed, since snapshots may
still name it; an endpoint holds the address of the latest one. Every call that touches the
objects of a state either renews one breaker, with a new object if that began a cycle, or
claims one probe.
-/

namespace AegisGate.Health.CoordinatorState
open Lib Resilience Option List

/-- The slot object of an endpoint. -/
def slotAt (s : CoordinatorState) (r e : ℕ) : Option ℕ :=
  (s.endpointAt r e).bind EndpointState.probeSlots

/-- A breaker is replaced, and the slots of the cycle it has begun are published. -/
def renew (s : CoordinatorState) (route endpoint : ℕ) (b : CircuitBreaker)
    (cycle : Option HalfOpenCycle) : CoordinatorState :=
  (s.updateAt route endpoint fun st => { st with breaker := some b }).publishCycle route endpoint
    cycle

section
variable {s : CoordinatorState} {route endpoint : ℕ}

lemma slotAt_updateAt {f : EndpointState → EndpointState}
    (hf : ∀ st, (f st).probeSlots = st.probeSlots) (r e : ℕ) :
    (s.updateAt route endpoint f).slotAt r e = s.slotAt r e := by
  rw [slotAt, slotAt, endpointAt_updateAt]
  split
  · cases s.endpointAt r e with
    | none => rfl
    | some st => exact hf st
  · rfl

/-- An outcome leaves the slots alone. -/
lemma slotAt_recordResult (s : CoordinatorState) (result : AttemptResult) (now : TimePoint)
    (r e : ℕ) : (s.recordResult result now).slotAt r e = s.slotAt r e := by
  apply slotAt_updateAt
  intro st
  rfl

lemma slotAt_publishSlots (s : CoordinatorState) (route endpoint : ℕ) (cycle : HalfOpenCycle)
    (r e : ℕ) : (s.publishSlots route endpoint cycle).slotAt r e =
      if r = route ∧ e = endpoint then (s.endpointAt r e).map fun _ => s.slots.length
      else s.slotAt r e := by
  have heq : (s.publishSlots route endpoint cycle).endpointAt r e =
      (s.updateAt route endpoint fun st =>
        { st with probeSlots := some s.slots.length }).endpointAt r e := rfl
  rw [slotAt, heq, endpointAt_updateAt]
  split
  · cases s.endpointAt r e <;> rfl
  · rfl

lemma breakerAt_renew (s : CoordinatorState) (route endpoint : ℕ) (b : CircuitBreaker)
    (cycle : Option HalfOpenCycle) (r e : ℕ) :
    (s.renew route endpoint b cycle).breakerAt r e =
      if r = route ∧ e = endpoint then (s.endpointAt r e).map fun _ => b
      else s.breakerAt r e := by
  have hupdate : (s.updateAt route endpoint fun st => { st with breaker := some b }).breakerAt r e =
      if r = route ∧ e = endpoint then (s.endpointAt r e).map fun _ => b
      else s.breakerAt r e := by
    rw [breakerAt, endpointAt_updateAt]
    split
    · cases s.endpointAt r e <;> rfl
    · rfl
  cases cycle with
  | none => exact hupdate
  | some cycle => exact (breakerAt_publishSlots _ _ _ _ _ _).trans hupdate

lemma slots_renew (s : CoordinatorState) (route endpoint : ℕ) (b : CircuitBreaker)
    (cycle : Option HalfOpenCycle) :
    (s.renew route endpoint b cycle).slots = s.slots ++ (cycle.map fun c =>
      { remaining := c.quota, probeBase := c.probeBase, generation := c.generation
        quota := c.quota : ProbeSlotState }).toList := by
  cases cycle with
  | none => exact (append_nil _).symm
  | some c => rfl

lemma slotAt_renew (s : CoordinatorState) (route endpoint : ℕ) (b : CircuitBreaker)
    (cycle : Option HalfOpenCycle) (r e : ℕ) :
    (s.renew route endpoint b cycle).slotAt r e =
      if r = route ∧ e = endpoint ∧ cycle.isSome then
        (s.endpointAt r e).map fun _ => s.slots.length
      else s.slotAt r e := by
  have hupdate : (s.updateAt route endpoint fun st => { st with breaker := some b }).slotAt r e =
      s.slotAt r e := by
    apply slotAt_updateAt
    intro st
    rfl
  cases cycle with
  | none =>
    rw [if_neg (by simp)]
    exact hupdate
  | some c =>
    refine (slotAt_publishSlots _ _ _ _ _ _).trans ?_
    rw [hupdate, endpointAt_updateAt]
    simp only [isSome_some, and_true]
    split
    · cases s.endpointAt r e <;> rfl
    · rfl

/-- `ArmHalfOpen` changes nothing, or begins a cycle. -/
lemma armHalfOpen_eq (s : CoordinatorState) (route endpoint : ℕ) (now : TimePoint) :
    s.armHalfOpen route endpoint now = s ∨ ∃ b, s.breakerAt route endpoint = some b ∧
      s.armHalfOpen route endpoint now =
        s.renew route endpoint b.beginFreshHalfOpenCycle.1 (some b.beginFreshHalfOpenCycle.2) := by
  cases hb : s.breakerAt route endpoint with
  | none => exact .inl (by rw [armHalfOpen, hb])
  | some b =>
    rw [armHalfOpen, hb]
    dsimp only
    split
    · exact .inl rfl
    · exact .inr ⟨b, rfl, rfl⟩

lemma importBreaker_eq (s : CoordinatorState) (route endpoint : ℕ) (routeConfig : Config.Route)
    (source : EndpointProtectionSnapshot) (now : TimePoint) :
    s.importBreaker route endpoint routeConfig source now = s ∨
      ∃ (b : CircuitBreaker) (snapshot : CircuitBreakerSnapshot),
        s.importBreaker route endpoint routeConfig source now =
          s.renew route endpoint (b.importSnapshot snapshot now).1
            (b.importSnapshot snapshot now).2 := by
  rw [importBreaker.eq_def]
  split
  · next b snapshot _ _ =>
    split
    · exact .inr ⟨b, snapshot, rfl⟩
    · exact .inl rfl
  · exact .inl rfl

/-- The object after one claim. -/
def claimed (object : ProbeSlotState) : ProbeSlotState :=
  { object with remaining := object.remaining - 1, issued := incW 64 object.issued }

/-- `ClaimProbe` changes nothing, or takes a probe from the object the snapshot names. The
probe is handed out if that is the object of the current cycle. -/
lemma claimProbe_cases (s : CoordinatorState) (route endpoint : ℕ)
    (snapshot : HealthCircuitSnapshot) :
    s.claimProbe route endpoint snapshot = (s, none) ∨
      ∃ decision address object, snapshot.endpoints.cell route endpoint = some decision ∧
        decision.probeSlots = some address ∧ s.slots[address]? = some object ∧
        0 < object.remaining ∧
        (s.slotAt route endpoint ≠ some address ∧ s.claimProbe route endpoint snapshot =
            ({ s with slots := s.slots.set address (claimed object) }, none) ∨
          s.slotAt route endpoint = some address ∧ s.claimProbe route endpoint snapshot =
            ({ s with slots := s.slots.set address (claimed object) },
              some ⟨true, object.generation, (object.probeBase + object.issued) % 2 ^ 64⟩)) := by
  rw [claimProbe.eq_def]
  split
  · exact .inl rfl
  next decision hdecision =>
  split
  · exact .inl rfl
  split
  · exact .inl rfl
  next address object hobject =>
  split
  · exact .inl rfl
  next hremaining =>
  obtain ⟨address', haddress, hmap⟩ := bind_eq_some_iff.mp hobject
  obtain ⟨object', hobject', ⟨⟩⟩ := map_eq_some_iff.mp hmap
  refine .inr ⟨decision, address, object, hdecision, haddress, hobject', by omega, ?_⟩
  split
  · next hvoid => exact .inl ⟨hvoid, rfl⟩
  · next hcurrent => exact .inr ⟨not_not.mp hcurrent, rfl⟩

/-- Two states with the same breakers and slots, where the second may have fewer routes. -/
structure Kin (s s' : CoordinatorState) : Prop where
  cell : ∀ r e st', s'.endpointAt r e = some st' → ∃ st, s.endpointAt r e = some st ∧
    st'.breaker = st.breaker ∧ st'.probeSlots = st.probeSlots
  slots : s'.slots = s.slots

lemma Kin.breakerAt {s' : CoordinatorState} (h : Kin s s') {r e : ℕ} {b : CircuitBreaker}
    (hb : s'.breakerAt r e = some b) :
    s.breakerAt r e = some b ∧ s'.slotAt r e = s.slotAt r e := by
  obtain ⟨st', hst', hbreaker⟩ := bind_eq_some_iff.mp hb
  obtain ⟨st, hst, heq, hslots⟩ := h.cell r e st' hst'
  rw [CoordinatorState.breakerAt, slotAt, slotAt, hst, hst']
  exact ⟨heq.symm.trans hbreaker, hslots⟩

lemma Kin.slotAt {s' : CoordinatorState} (h : Kin s s') {r e address : ℕ}
    (ha : s'.slotAt r e = some address) : s.slotAt r e = some address := by
  obtain ⟨st', hst', hslots⟩ := bind_eq_some_iff.mp ha
  obtain ⟨st, hst, -, heq⟩ := h.cell r e st' hst'
  rw [CoordinatorState.slotAt, hst]
  exact heq.symm.trans hslots

lemma kin_updateHealth (s : CoordinatorState) (route endpoint : ℕ)
    (f : EndpointState → HealthState) :
    Kin s (s.updateAt route endpoint fun st => { st with health := f st }) := by
  refine ⟨fun r e st' hst' => ?_, rfl⟩
  rw [endpointAt_updateAt] at hst'
  split at hst'
  · obtain ⟨st, hst, rfl⟩ := map_eq_some_iff.mp hst'
    exact ⟨st, hst, rfl, rfl⟩
  · exact ⟨st', hst', rfl, rfl⟩

lemma kin_prepareForMigration (s : CoordinatorState) : Kin s s.prepareForMigration := by
  refine ⟨fun r e st' hst' => ?_, rfl⟩
  simp only [endpointAt, prepareForMigration, Grid.cell, getElem?_zipWith,
    bind_eq_some_iff] at hst'
  obtain ⟨row, hrow, hcell⟩ := hst'
  cases hs : s.endpoints[r]? with
  | none => simp [hs] at hrow
  | some states =>
    cases hc : s.config.routes[r]? with
    | none => simp [hs, hc] at hrow
    | some rc =>
      simp only [hs, hc, some.injEq] at hrow
      rw [← hrow, getElem?_map] at hcell
      obtain ⟨st, hst, rfl⟩ := map_eq_some_iff.mp hcell
      refine ⟨st, ?_, rfl, rfl⟩
      rw [endpointAt, Grid.cell, hs]
      exact hst

end
end AegisGate.Health.CoordinatorState
