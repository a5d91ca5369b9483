import AegisGate.Health.ProbeSlots
import AegisGate.Resilience.HalfOpen

/-!
# One endpoint on its own

The coordinator keeps the endpoints of all routes in one table and their slot objects in
memory that grows with every cycle. What it holds for one endpoint is its health, its breaker
and what its slot object says about the cycle. This is a state machine of its own: an operation
changes it as a function of it alone, and an operation on another endpoint not at all.
-/

namespace AegisGate.Health
open Lib Resilience Option CoordinatorState

/-- The operations that change the state. -/
inductive CoordinatorOp
  | recordHealth (route endpoint : ℕ) (healthy : Bool)
  | recordResult (result : AttemptResult) (now : TimePoint)
  | armHalfOpen (route endpoint : ℕ) (now : TimePoint)
  | importProtection (snapshot : ProtectionSnapshot) (now : TimePoint)
  | buildSnapshot
  | claimProbe (route endpoint : ℕ) (snapshot : HealthCircuitSnapshot)

/-- The state after an operation. -/
def CoordinatorState.apply (s : CoordinatorState) : CoordinatorOp → CoordinatorState
  | .recordHealth route endpoint healthy => s.recordHealth route endpoint healthy
  | .recordResult result now => s.recordResult result now
  | .armHalfOpen route endpoint now => s.armHalfOpen route endpoint now
  | .importProtection snapshot now => s.importProtectionSnapshot snapshot now
  | .buildSnapshot => s.buildSnapshot.1
  | .claimProbe route endpoint snapshot => (s.claimProbe route endpoint snapshot).1

/-! ## The machine of one endpoint -/

/-- What there is about one endpoint; the slot object without its address and its counters. -/
structure EndpointView where
  health : HealthState
  breaker : Option CircuitBreaker
  cycle : Option HalfOpenCycle

namespace EndpointView

/-- A breaker is replaced, and perhaps a cycle begun. -/
def renew (v : EndpointView) (b : CircuitBreaker) (cycle : Option HalfOpenCycle) : EndpointView :=
  { v with breaker := some b, cycle := cycle.or v.cycle }

/-- A new breaker, and the slots of its cycle. -/
def renewBy (rule : CircuitBreaker → Option (CircuitBreaker × Option HalfOpenCycle))
    (v : EndpointView) : EndpointView :=
  match v.breaker.bind rule with
  | none => v
  | some (b, cycle) => v.renew b cycle

/-- The rule of `ArmHalfOpen`: an open breaker whose window has elapsed begins a cycle. -/
def armed (now : TimePoint) (b : CircuitBreaker) : Option (CircuitBreaker × Option HalfOpenCycle) :=
  if b.state ≠ .opened ∨ now < b.openUntil then none
  else some (b.beginFreshHalfOpenCycle.1, some b.beginFreshHalfOpenCycle.2)

/-- The rule of a migration: a record with a breaker of the same policy is imported. -/
def migrated (rc : Config.Route) (source : EndpointProtectionSnapshot) (now : TimePoint)
    (b : CircuitBreaker) : Option (CircuitBreaker × Option HalfOpenCycle) :=
  source.breaker.bind fun snapshot =>
    if sameBreakerPolicy source.sourceBreakerPolicy rc.circuitBreaker then
      some (b.importSnapshot snapshot now)
    else none

/-- `PrepareForMigration`. -/
def prepare (v : EndpointView) (checked : Bool) : EndpointView :=
  { v with health := if checked then .unknown else .implicitHealthy }

def importOwn (v : EndpointView) (rc : Config.Route) (source : EndpointProtectionSnapshot)
    (now : TimePoint) : EndpointView :=
  renewBy (migrated rc source now)
    (if sameHealthPolicy source.sourceHealthPolicy rc.healthCheck then
      { v with health := source.healthState }
    else v)

/-- A record, which may be for another endpoint. -/
def importRecord (config : Config) (r e : ℕ) (now : TimePoint) (v : EndpointView)
    (source : EndpointProtectionSnapshot) : EndpointView :=
  match target config source with
  | none => v
  | some (route, endpoint, rc) =>
    if r = route ∧ e = endpoint then v.importOwn rc source now else v

/-- What an operation does to one endpoint. -/
def apply (config : Config) (r e : ℕ) (v : EndpointView) : CoordinatorOp → EndpointView
  | .recordHealth route endpoint healthy =>
    if r = route ∧ e = endpoint then
      { v with health := if healthy then .healthy else .unhealthy }
    else v
  | .recordResult result now =>
    if r = result.routeIndex ∧ e = result.endpointIndex then
      { v with breaker := v.breaker.map fun b =>
          b.record now (requestPermit result.permit) result.success }
    else v
  | .armHalfOpen route endpoint now => if r = route ∧ e = endpoint then v.renewBy (armed now) else v
  | .importProtection snapshot now =>
    snapshot.endpoints.foldl (importRecord config r e now)
      (v.prepare ((config.routes[r]?).any fun rc => rc.healthCheck.isSome))
  | .buildSnapshot => v
  | .claimProbe _ _ _ => v

end EndpointView

/-! ## The coordinator runs it -/

def ProbeSlotState.cycle (o : ProbeSlotState) : HalfOpenCycle :=
  ⟨o.generation, o.probeBase, o.quota⟩

def EndpointState.view (slots : List ProbeSlotState) (st : EndpointState) : EndpointView where
  health := st.health
  breaker := st.breaker
  cycle := (st.probeSlots.bind fun a => slots[a]?).map ProbeSlotState.cycle

namespace CoordinatorState

/-- The view of one endpoint of a state. -/
def viewAt (s : CoordinatorState) (r e : ℕ) : Option EndpointView :=
  (s.endpointAt r e).map (EndpointState.view s.slots)

/-- The table against the configuration and the memory: every row is a route, and every address
an object. -/
structure Shaped (config : Config) (s : CoordinatorState) : Prop where
  same : s.config = config
  bounded : ∀ r e a, s.slotAt r e = some a → a < s.slots.length
  rows : ∀ r e, (s.endpointAt r e).isSome → (config.routes[r]?).isSome

variable {config : Config} {s t : CoordinatorState} {route endpoint : ℕ}

lemma viewAt_updateAt {f : EndpointState → EndpointState} {g : EndpointView → EndpointView}
    (hf : ∀ st, (f st).view s.slots = g (st.view s.slots)) (r e : ℕ) :
    (s.updateAt route endpoint f).viewAt r e =
      if r = route ∧ e = endpoint then (s.viewAt r e).map g else s.viewAt r e := by
  have hslots : (s.updateAt route endpoint f).slots = s.slots := rfl
  rw [viewAt, viewAt, endpointAt_updateAt, hslots]
  split
  · rw [map_map, map_map]
    exact congrArg (Option.map · (s.endpointAt r e)) (funext hf)
  · rfl

lemma view_append (slots new : List ProbeSlotState) {st : EndpointState}
    (h : ∀ a, st.probeSlots = some a → a < slots.length) :
    st.view (slots ++ new) = st.view slots := by
  rw [EndpointState.view, EndpointState.view]
  cases ha : st.probeSlots with
  | none => rfl
  | some a => rw [bind_some, bind_some, List.getElem?_append_left (h a ha)]

lemma view_claimed {slots : List ProbeSlotState} {address : ℕ} {object : ProbeSlotState}
    (h : slots[address]? = some object) (st : EndpointState) :
    st.view (slots.set address (claimed object)) = st.view slots := by
  rw [EndpointState.view, EndpointState.view]
  cases ha : st.probeSlots with
  | none => rfl
  | some a =>
    rw [bind_some, bind_some, List.getElem?_set]
    by_cases hsame : address = a
    · subst hsame
      have hlt := (List.getElem?_eq_some_iff.mp h).1
      rw [if_pos rfl, if_pos hlt, h]
      rfl
    · rw [if_neg hsame]

section
variable (h : ∀ r e a, s.slotAt r e = some a → a < s.slots.length)
include h

lemma viewAt_publishSlots (cycle : HalfOpenCycle) (r e : ℕ) :
    (s.publishSlots route endpoint cycle).viewAt r e =
      if r = route ∧ e = endpoint then (s.viewAt r e).map fun v => { v with cycle := some cycle }
      else s.viewAt r e := by
  have hcell : (s.publishSlots route endpoint cycle).endpointAt r e =
      if r = route ∧ e = endpoint then
        (s.endpointAt r e).map fun st => { st with probeSlots := some s.slots.length }
      else s.endpointAt r e := Grid.cell_update _ _ _ _ _ _
  rw [viewAt, viewAt, hcell]
  split
  · rw [map_map, map_map]
    refine congrArg (Option.map · (s.endpointAt r e)) (funext fun st => ?_)
    simp [EndpointState.view, publishSlots, ProbeSlotState.cycle]
  · refine Option.map_congr fun st hst => view_append _ _ fun a ha => h r e a ?_
    rw [slotAt, hst, bind_some, ha]

lemma viewAt_renew (b : CircuitBreaker) (cycle : Option HalfOpenCycle) (r e : ℕ) :
    (s.renew route endpoint b cycle).viewAt r e =
      if r = route ∧ e = endpoint then (s.viewAt r e).map (·.renew b cycle)
      else s.viewAt r e := by
  have hupdate : (s.updateAt route endpoint fun st => { st with breaker := some b }).viewAt r e =
      if r = route ∧ e = endpoint then (s.viewAt r e).map fun v => { v with breaker := some b }
      else s.viewAt r e := viewAt_updateAt (fun _ => rfl) r e
  cases cycle with
  | none => exact hupdate
  | some cycle =>
    have hslot : ∀ r e, (s.updateAt route endpoint fun st =>
        { st with breaker := some b }).slotAt r e = s.slotAt r e := by
      intro r e
      apply slotAt_updateAt
      intro st
      rfl
    refine (viewAt_publishSlots (fun r e a ha => ?_) cycle r e).trans ?_
    · rw [hslot] at ha
      exact h r e a ha
    · rw [hupdate]
      split
      · rw [map_map]
        rfl
      · rfl

/-! ### Addresses stay valid -/

lemma bounded_renew (b : CircuitBreaker) (cycle : Option HalfOpenCycle) (r e a : ℕ)
    (ha : (s.renew route endpoint b cycle).slotAt r e = some a) :
    a < (s.renew route endpoint b cycle).slots.length := by
  rw [slots_renew, List.length_append]
  rw [slotAt_renew] at ha
  split at ha
  · next hnew =>
    obtain ⟨st, -, rfl⟩ := map_eq_some_iff.mp ha
    obtain ⟨c, rfl⟩ := isSome_iff_exists.mp hnew.2.2
    simp
  · have hlt := h r e a ha
    omega

lemma bounded_kin (hkin : Kin s t)
    (r e a : ℕ) (ha : t.slotAt r e = some a) : a < t.slots.length := by
  rw [hkin.slots]
  exact h r e a (hkin.slotAt ha)

end

lemma config_renew (s : CoordinatorState) (route endpoint : ℕ) (b : CircuitBreaker)
    (cycle : Option HalfOpenCycle) : (s.renew route endpoint b cycle).config = s.config := by
  cases cycle <;> rfl

lemma isSome_viewAt (s : CoordinatorState) (r e : ℕ) :
    (s.viewAt r e).isSome = (s.endpointAt r e).isSome := by
  rw [viewAt, isSome_map]

lemma Shaped.of_views (h : Shaped config s) (hconfig : t.config = s.config)
    (hbounded : ∀ r e a, t.slotAt r e = some a → a < t.slots.length)
    (hviews : ∀ r e, ∃ f, t.viewAt r e = (s.viewAt r e).map f) : Shaped config t := by
  refine ⟨hconfig.trans h.same, hbounded, fun r e hsome => h.rows r e ?_⟩
  obtain ⟨f, hf⟩ := hviews r e
  rw [← isSome_viewAt, hf, isSome_map, isSome_viewAt] at hsome
  exact hsome

lemma ite_map {α : Type} (c : Prop) [Decidable c] (x : Option α) (f : α → α) :
    (if c then x.map f else x) = x.map fun a => if c then f a else a := by
  split
  · rfl
  · exact map_id'.symm

/-! ### One operation -/

/-- A breaker of the table is replaced if the rule says so. -/
def renewBy (rule : CircuitBreaker → Option (CircuitBreaker × Option HalfOpenCycle))
    (s : CoordinatorState) (route endpoint : ℕ) : CoordinatorState :=
  match (s.breakerAt route endpoint).bind rule with
  | none => s
  | some (b, cycle) => s.renew route endpoint b cycle

lemma armHalfOpen_eq_renewBy (s : CoordinatorState) (route endpoint : ℕ) (now : TimePoint) :
    s.armHalfOpen route endpoint now = renewBy (EndpointView.armed now) s route endpoint := by
  rw [armHalfOpen, renewBy]
  cases s.breakerAt route endpoint with
  | none => rfl
  | some b =>
    rw [bind_some, EndpointView.armed]
    dsimp only
    split <;> rfl

lemma importBreaker_eq_renewBy (s : CoordinatorState) (route endpoint : ℕ) (rc : Config.Route)
    (source : EndpointProtectionSnapshot) (now : TimePoint) :
    s.importBreaker route endpoint rc source now =
      renewBy (EndpointView.migrated rc source now) s route endpoint := by
  rw [importBreaker, renewBy]
  cases s.breakerAt route endpoint with
  | none => rfl
  | some b =>
    rw [bind_some, EndpointView.migrated]
    cases source.breaker with
    | none => rfl
    | some snapshot =>
      rw [bind_some]
      dsimp only
      split <;> rfl

lemma breakerAt_of_viewAt {r e : ℕ} {v : EndpointView} (h : s.viewAt r e = some v) :
    s.breakerAt r e = v.breaker := by
  obtain ⟨st, hst, rfl⟩ := map_eq_some_iff.mp h
  rw [breakerAt, hst]
  rfl

lemma viewAt_renewBy (h : Shaped config s)
    (rule : CircuitBreaker → Option (CircuitBreaker × Option HalfOpenCycle)) (r e : ℕ) :
    (renewBy rule s route endpoint).viewAt r e =
      if r = route ∧ e = endpoint then (s.viewAt r e).map (·.renewBy rule) else s.viewAt r e := by
  rw [renewBy]
  cases hrule : (s.breakerAt route endpoint).bind rule with
  | none =>
    dsimp only
    split
    · next hre =>
      obtain ⟨rfl, rfl⟩ := hre
      cases hv : s.viewAt r e with
      | none => rfl
      | some v =>
        rw [breakerAt_of_viewAt hv] at hrule
        rw [map_some, EndpointView.renewBy, hrule]
    · rfl
  | some renewed =>
    refine (viewAt_renew h.bounded renewed.1 renewed.2 r e).trans ?_
    split
    · next hre =>
      obtain ⟨rfl, rfl⟩ := hre
      cases hv : s.viewAt r e with
      | none => rfl
      | some v =>
        rw [breakerAt_of_viewAt hv] at hrule
        rw [map_some, map_some, EndpointView.renewBy, hrule]
    · rfl

lemma Shaped.renewBy (h : Shaped config s)
    (rule : CircuitBreaker → Option (CircuitBreaker × Option HalfOpenCycle)) :
    Shaped config (renewBy rule s route endpoint) := by
  refine h.of_views ?_ ?_ fun r e => ⟨_, (viewAt_renewBy h rule r e).trans (ite_map _ _ _)⟩
  · rw [CoordinatorState.renewBy]
    split
    · rfl
    · exact config_renew _ _ _ _ _
  · rw [CoordinatorState.renewBy]
    split
    · exact h.bounded
    · exact bounded_renew h.bounded _ _

lemma viewAt_updateHealth (f : EndpointState → HealthState) (g : EndpointView → HealthState)
    (hfg : ∀ st, f st = g (st.view s.slots)) (r e : ℕ) :
    (s.updateAt route endpoint fun st => { st with health := f st }).viewAt r e =
      if r = route ∧ e = endpoint then (s.viewAt r e).map fun v => { v with health := g v }
      else s.viewAt r e := by
  refine viewAt_updateAt (fun st => ?_) r e
  rw [hfg]
  rfl

lemma Shaped.updateHealth (h : Shaped config s) (f : EndpointState → HealthState) :
    Shaped config (s.updateAt route endpoint fun st => { st with health := f st }) := by
  refine ⟨h.same, bounded_kin h.bounded (kin_updateHealth s route endpoint f), fun r e hsome => ?_⟩
  rw [isSome_updateAt] at hsome
  exact h.rows r e hsome

lemma viewAt_importRecord (h : Shaped config s) (now : TimePoint)
    (source : EndpointProtectionSnapshot) :
    Shaped config (importRecord now s source) ∧ ∀ r e, (importRecord now s source).viewAt r e =
      (s.viewAt r e).map fun v => EndpointView.importRecord config r e now v source := by
  rw [importRecord, h.same]
  cases htarget : target config source with
  | none =>
    refine ⟨h, fun r e => ?_⟩
    simp only [EndpointView.importRecord, htarget]
    exact Option.map_id'.symm
  | some found =>
    obtain ⟨route, endpoint, rc⟩ := found
    dsimp only
    rw [importBreaker_eq_renewBy]
    simp only [EndpointView.importRecord, htarget, EndpointView.importOwn]
    split
    · have hshaped : Shaped config
          (s.updateAt route endpoint fun st => { st with health := source.healthState }) :=
        h.updateHealth _
      refine ⟨hshaped.renewBy _, fun r e => ?_⟩
      rw [viewAt_renewBy hshaped, viewAt_updateHealth _ (fun _ => source.healthState) fun _ => rfl,
        ← ite_map]
      split
      · rw [map_map]
        rfl
      · rfl
    · refine ⟨h.renewBy _, fun r e => ?_⟩
      rw [viewAt_renewBy h]
      exact ite_map _ _ _

lemma viewAt_importRecords (now : TimePoint) (sources : List EndpointProtectionSnapshot)
    (h : Shaped config s) :
    Shaped config (sources.foldl (importRecord now) s) ∧
      ∀ r e, (sources.foldl (importRecord now) s).viewAt r e =
        (s.viewAt r e).map fun v => sources.foldl (EndpointView.importRecord config r e now) v := by
  induction sources generalizing s with
  | nil => exact ⟨h, fun r e => Option.map_id'.symm⟩
  | cons source sources ih =>
    obtain ⟨hshaped, hview⟩ := viewAt_importRecord h now source
    obtain ⟨hrest, hviews⟩ := ih hshaped
    refine ⟨hrest, fun r e => ?_⟩
    rw [List.foldl_cons, hviews, hview, map_map]
    rfl

lemma viewAt_prepareForMigration (h : Shaped config s) :
    Shaped config s.prepareForMigration ∧ ∀ r e, s.prepareForMigration.viewAt r e =
      (s.viewAt r e).map fun v =>
        v.prepare ((config.routes[r]?).any fun rc => rc.healthCheck.isSome) := by
  have hcell : ∀ r e, s.prepareForMigration.endpointAt r e = (s.endpointAt r e).map fun st =>
      { st with health :=
          if ((config.routes[r]?).any fun rc => rc.healthCheck.isSome) then HealthState.unknown
          else .implicitHealthy } := by
    intro r e
    rw [endpointAt, endpointAt, Grid.cell, Grid.cell, prepareForMigration, List.getElem?_zipWith,
      h.same]
    cases hrow : s.endpoints[r]? with
    | none => rfl
    | some row =>
      cases hroute : config.routes[r]? with
      | none =>
        -- A row without a route has no endpoint.
        cases hst : row[e]? with
        | none => simp [hst]
        | some st =>
          have hsome := h.rows r e (by rw [endpointAt, Grid.cell, hrow, bind_some, hst]; rfl)
          rw [hroute] at hsome
          cases hsome
      | some rc => simp
  refine ⟨?_, fun r e => ?_⟩
  · refine ⟨h.same, bounded_kin h.bounded (kin_prepareForMigration s), fun r e hsome => ?_⟩
    rw [hcell, isSome_map] at hsome
    exact h.rows r e hsome
  · rw [viewAt, viewAt, hcell, map_map, map_map]
    rfl

/-- **The coordinator runs the machine of every endpoint.** -/
theorem viewAt_apply (h : Shaped config s) (op : CoordinatorOp) :
    Shaped config (s.apply op) ∧ ∀ r e, (s.apply op).viewAt r e =
      (s.viewAt r e).map fun v => v.apply config r e op := by
  cases op with
  | recordHealth route endpoint healthy =>
    refine ⟨h.updateHealth _, fun r e => ?_⟩
    refine (viewAt_updateHealth _ (fun _ => if healthy then .healthy else .unhealthy)
      (fun _ => rfl) r e).trans ?_
    exact ite_map _ _ _
  | recordResult result now =>
    have hview : ∀ r e, (s.recordResult result now).viewAt r e =
        if r = result.routeIndex ∧ e = result.endpointIndex then
          (s.viewAt r e).map fun v =>
            { v with
              breaker := v.breaker.map fun b =>
                b.record now (requestPermit result.permit) result.success }
        else s.viewAt r e := fun r e => viewAt_updateAt (fun _ => rfl) r e
    refine ⟨h.of_views rfl (fun r e a ha => ?_) fun r e => ⟨_, (hview r e).trans (ite_map _ _ _)⟩,
      fun r e => (hview r e).trans (ite_map _ _ _)⟩
    have hslot : (s.recordResult result now).slotAt r e = s.slotAt r e := by
      apply slotAt_updateAt
      intro st
      rfl
    exact h.bounded r e a (hslot ▸ ha)
  | armHalfOpen route endpoint now =>
    rw [apply, armHalfOpen_eq_renewBy]
    exact ⟨h.renewBy _, fun r e => (viewAt_renewBy h _ r e).trans (ite_map _ _ _)⟩
  | importProtection snapshot now =>
    obtain ⟨hprepared, hview⟩ := viewAt_prepareForMigration h
    obtain ⟨hshaped, hviews⟩ := viewAt_importRecords now snapshot.endpoints hprepared
    refine ⟨hshaped, fun r e => (hviews r e).trans ?_⟩
    rw [hview, map_map]
    rfl
  | buildSnapshot => exact ⟨{ h with }, fun r e => Option.map_id'.symm⟩
  | claimProbe route endpoint snapshot =>
    have hset : ∀ address object, s.slots[address]? = some object →
        Shaped config { s with slots := s.slots.set address (claimed object) } ∧
        ∀ r e, viewAt { s with slots := s.slots.set address (claimed object) } r e =
          s.viewAt r e := by
      intro address object hobject
      refine ⟨⟨h.same, fun r e a ha => ?_, h.rows⟩, fun r e => ?_⟩
      · exact List.length_set.symm ▸ h.bounded r e a ha
      · exact congrArg (Option.map · (s.endpointAt r e)) (funext (view_claimed hobject))
    rw [apply]
    simp only [EndpointView.apply, Option.map_id']
    rcases claimProbe_cases s route endpoint snapshot with hsame |
      ⟨-, address, object, -, -, hobject, -, ⟨-, hclaim⟩ | ⟨-, hclaim⟩⟩
    · rw [hsame]
      exact ⟨h, fun r e => rfl⟩
    · rw [hclaim]
      exact hset address object hobject
    · rw [hclaim]
      exact hset address object hobject

end CoordinatorState
end AegisGate.Health
