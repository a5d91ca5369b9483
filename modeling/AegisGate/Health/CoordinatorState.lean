import AegisGate.Config
import AegisGate.Health.OutcomeChannel
import AegisGate.Lib.Grid
import AegisGate.Resilience.CircuitBreaker

/-!
# The coordinator's state

The health and the breaker of every route and endpoint, with the probe slot objects
the coordinator hands out. A slot object is shared by pointer with every snapshot
that was published while it was current; the model keeps all of them in `slots`, and
an address is an index into that list.

Each function is the source function of the same name. Readings of the clock are
arguments.
-/

namespace AegisGate.Health
open Lib Resilience Option

/-- Availability of an endpoint as the active checks decide it. -/
inductive HealthState
  | implicitHealthy
  | unknown
  | healthy
  | unhealthy
  deriving DecidableEq, Repr

/-- `EndpointHealth::Healthy`. -/
def HealthState.ok : HealthState → Bool
  | .implicitHealthy | .healthy => true
  | _ => false

/-- The probes of one half-open cycle. -/
structure ProbeSlotState where
  remaining : ℕ := 0
  issued : ℕ := 0
  probeBase : ℕ := 0
  generation : ℕ := 0
  quota : ℕ := 0
  deriving DecidableEq, Repr

/-- One route and endpoint; `probeSlots` is the address of the current cycle's object. -/
structure EndpointState where
  health : HealthState := .implicitHealthy
  breaker : Option CircuitBreaker := none
  probeSlots : Option ℕ := none

/-- One decision as it is published to the workers. -/
structure EndpointDecision where
  healthy : Bool := true
  breakerState : BreakerState := .closed
  generation : ℕ := 0
  probeBase : ℕ := 0
  probeQuota : ℕ := 0
  probeSlots : Option ℕ := none
  deriving DecidableEq, Repr

/-- What the coordinator publishes. -/
structure HealthCircuitSnapshot where
  version : ℕ := 0
  endpoints : Grid EndpointDecision := []
  deriving DecidableEq, Repr

/-! ## Protection snapshots -/

/-- What identifies a route across configurations. -/
structure RouteIdentity where
  name : String
  host : String
  pathPrefix : String
  deriving DecidableEq

/-- What identifies an endpoint within its route. -/
structure EndpointIdentity where
  host : String
  address : Vector UInt8 4
  port : UInt16
  deriving DecidableEq

/-- The record of one endpoint, with the policies it came from. -/
structure EndpointProtectionSnapshot where
  route : RouteIdentity
  endpoint : EndpointIdentity
  healthState : HealthState := .implicitHealthy
  sourceHealthPolicy : Option Config.HealthCheckSettings := none
  sourceBreakerPolicy : Option Config.CircuitBreakerSettings := none
  breaker : Option CircuitBreakerSnapshot := none

/-- What a reload hands to the next generation. -/
structure ProtectionSnapshot where
  endpoints : List EndpointProtectionSnapshot := []

/-- By what a reload knows a route again. -/
def routeKey (route : Config.Route) : RouteIdentity := ⟨route.name, route.host, route.pathPrefix⟩

/-- By what a reload knows an endpoint again. -/
def endpointKey (endpoint : Config.Endpoint) : EndpointIdentity :=
  ⟨endpoint.host, endpoint.address, endpoint.port⟩

def sameRouteIdentity (key : RouteIdentity) (route : Config.Route) : Bool :=
  key.name == route.name && key.host == route.host && key.pathPrefix == route.pathPrefix

def sameEndpointIdentity (key : EndpointIdentity) (endpoint : Config.Endpoint) : Bool :=
  key.host == endpoint.host && key.address == endpoint.address && key.port == endpoint.port

/-- `SameHealthPolicy`: all fields are compared. -/
def sameHealthPolicy (left right : Option Config.HealthCheckSettings) : Bool := left == right

/-- `SameBreakerPolicy`: all fields are compared. -/
def sameBreakerPolicy (left right : Option Config.CircuitBreakerSettings) : Bool := left == right

/-! ## The state -/

/-- The state of the coordinator loop. -/
structure CoordinatorState where
  config : Config
  endpoints : Grid EndpointState
  slots : List ProbeSlotState := []
  version : ℕ := 0

namespace CoordinatorState

/-- The breaker configuration of a route's settings. -/
def breakerConfig (s : Config.CircuitBreakerSettings) : CircuitBreakerConfig where
  window := s.windowSeconds.toNat * 1000
  minRequests := s.minRequests.toNat
  failureThresholdPermille := s.failureThresholdPermille.toNat
  openDuration := s.openSeconds.toNat * 1000
  halfOpenProbes := s.halfOpenProbes.toNat

/-- A fresh endpoint of a route; `none` is the exception of the breaker's constructor. -/
def freshEndpoint (route : Config.Route) (now : TimePoint) : Option EndpointState :=
  match route.circuitBreaker with
  | none => some {}
  | some settings =>
    (CircuitBreaker.create (breakerConfig settings) now).map fun b => { breaker := some b }

/-- The constructor. -/
def create (config : Config) (now : TimePoint) : Option CoordinatorState :=
  (config.routes.mapM fun (route : Config.Route) =>
    route.endpoints.mapM fun _ => freshEndpoint route now).map
      fun endpoints => { config := config, endpoints := endpoints }

section
variable (s : CoordinatorState) (route endpoint : ℕ)

/-- The endpoint at a pair of indices. -/
def endpointAt : Option EndpointState :=
  s.endpoints.cell route endpoint

/-- Its breaker, on a route with one. -/
def breakerAt : Option CircuitBreaker :=
  (s.endpointAt route endpoint).bind EndpointState.breaker

/-- Update the endpoint at a pair of indices, if there is one. -/
def updateAt (f : EndpointState → EndpointState) : CoordinatorState :=
  { s with endpoints := s.endpoints.update route endpoint f }

/-- A health check has ended. -/
def recordHealth (healthy : Bool) : CoordinatorState :=
  s.updateAt route endpoint fun st =>
    { st with health := if healthy then .healthy else .unhealthy }

/-- The permit as the breaker reads it. -/
def requestPermit (permit : AttemptPermit) : RequestPermit :=
  ⟨if permit.probe then .probe else .allowed, permit.generation, permit.probeId⟩

/-- An outcome is drained. -/
def recordResult (result : AttemptResult) (now : TimePoint) : CoordinatorState :=
  s.updateAt result.routeIndex result.endpointIndex fun st =>
    -- A route without breaker configuration is inert.
    { st with breaker := st.breaker.map fun b =>
        b.record now (requestPermit result.permit) result.success }

/-- A new cycle gets a slot object of its own. -/
def publishSlots (cycle : HalfOpenCycle) : CoordinatorState :=
  { s.updateAt route endpoint fun st => { st with probeSlots := some s.slots.length } with
    slots := s.slots ++ [
      { remaining := cycle.quota, probeBase := cycle.probeBase, generation := cycle.generation
        quota := cycle.quota }] }

/-- The arm timer fires. -/
def armHalfOpen (now : TimePoint) : CoordinatorState :=
  match s.breakerAt route endpoint with
  | none => s
  | some b =>
    if b.state ≠ .opened ∨ now < b.openUntil then s
    else
      let (b, cycle) := b.beginFreshHalfOpenCycle
      (s.updateAt route endpoint fun st => { st with breaker := some b }).publishSlots
        route endpoint cycle

/-- The breaker is open. -/
def isOpen : Bool :=
  match s.breakerAt route endpoint with
  | none => false
  | some b => b.state = .opened

/-- `OpenUntil`; `none` is `time_point::max()`, which no reading of the clock plus a
configured duration reaches. -/
def openUntil : Option TimePoint :=
  (s.breakerAt route endpoint).map CircuitBreaker.openUntil

/-- What is published about an endpoint. -/
def decisionOf (st : EndpointState) : EndpointDecision :=
  match st.breaker with
  | none => { healthy := st.health.ok }
  | some b =>
    let slots := st.probeSlots.bind fun address => s.slots[address]?
    { healthy := st.health.ok
      breakerState := b.state
      generation := b.generation
      probeBase := (slots.map ProbeSlotState.probeBase).getD 0
      probeQuota := (slots.map ProbeSlotState.quota).getD 0
      probeSlots := st.probeSlots }

/-- The next version of the snapshot. -/
def buildSnapshot : CoordinatorState × HealthCircuitSnapshot :=
  let version := incW 64 s.version
  ({ s with version := version },
    { version := version, endpoints := s.endpoints.map fun states => states.map (decisionOf s) })

/-- `ClaimProbe`, taken as one step. -/
def claimProbe (snapshot : HealthCircuitSnapshot) : CoordinatorState × Option AttemptPermit :=
  match snapshot.endpoints.cell route endpoint with
  | none => (s, none)
  | some decision =>
    if decision.breakerState ≠ .halfOpen then (s, none) else
    match decision.probeSlots.bind fun address => (s.slots[address]?).map fun o => (address, o) with
    | none => (s, none)
    | some (address, object) =>
      if object.remaining = 0 then (s, none) else
      let claimed : ProbeSlotState :=
        { object with remaining := object.remaining - 1, issued := incW 64 object.issued }
      let s' := { s with slots := s.slots.set address claimed }
      -- The permit is void if the coordinator has moved to another cycle.
      if (s.endpointAt route endpoint).bind EndpointState.probeSlots ≠ some address then (s', none)
      else
        (s', some ⟨true, object.generation, (object.probeBase + object.issued) % 2 ^ 64⟩)

/-- The current cycle has a probe left. -/
def probeAvailable : Bool :=
  match ((s.endpointAt route endpoint).bind EndpointState.probeSlots).bind fun a => s.slots[a]? with
  | none => false
  | some object => 0 < object.remaining

/-! ## Migration -/

/-- `PrepareForMigration`: checked endpoints wait for their first check. -/
def prepareForMigration : CoordinatorState :=
  { s with
    endpoints := List.zipWith
      (fun (states : List EndpointState) (route : Config.Route) => states.map fun st =>
        { st with health := if route.healthCheck.isSome then .unknown else .implicitHealthy })
      s.endpoints s.config.routes }

/-- The record of one endpoint. -/
def exportEndpoint (now : TimePoint) (route : Config.Route) (st : EndpointState)
    (endpoint : Config.Endpoint) : EndpointProtectionSnapshot where
  route := routeKey route
  endpoint := endpointKey endpoint
  healthState := st.health
  sourceHealthPolicy := route.healthCheck
  sourceBreakerPolicy := route.circuitBreaker
  breaker := st.breaker.map fun b => b.exportSnapshot now

def exportProtectionSnapshot (now : TimePoint) : ProtectionSnapshot where
  endpoints := (s.endpoints.zip s.config.routes).flatMap fun (states, route) =>
    List.zipWith (exportEndpoint now route) states route.endpoints

/-- The endpoint a record is about: the first route and in it the first endpoint with
its identity. -/
def target (config : Config) (source : EndpointProtectionSnapshot) :
    Option (ℕ × ℕ × Config.Route) := do
  let route ← config.routes.findIdx? (sameRouteIdentity source.route)
  let routeConfig ← config.routes[route]?
  let endpoint ← routeConfig.endpoints.findIdx? (sameEndpointIdentity source.endpoint)
  pure (route, endpoint, routeConfig)

/-- An import publishes slots only if it started a cycle. -/
def publishCycle : Option HalfOpenCycle → CoordinatorState
  | none => s
  | some cycle => s.publishSlots route endpoint cycle

/-- The breaker part of a record: it is imported into a breaker of the same policy. -/
def importBreaker (routeConfig : Config.Route)
    (source : EndpointProtectionSnapshot) (now : TimePoint) : CoordinatorState :=
  match s.breakerAt route endpoint, source.breaker with
  | some b, some snapshot =>
    if sameBreakerPolicy source.sourceBreakerPolicy routeConfig.circuitBreaker then
      let (b, cycle) := b.importSnapshot snapshot now
      (s.updateAt route endpoint fun st => { st with breaker := some b }).publishCycle
        route endpoint cycle
    else s
  | _, _ => s

/-- One record of `ImportProtectionSnapshot`. -/
def importRecord (now : TimePoint) (s : CoordinatorState) (source : EndpointProtectionSnapshot) :
    CoordinatorState :=
  match target s.config source with
  | none => s
  | some (route, endpoint, routeConfig) =>
    let s :=
      if sameHealthPolicy source.sourceHealthPolicy routeConfig.healthCheck then
        s.updateAt route endpoint fun st => { st with health := source.healthState }
      else s
    s.importBreaker route endpoint routeConfig source now

def importProtectionSnapshot (snapshot : ProtectionSnapshot) (now : TimePoint) : CoordinatorState :=
  snapshot.endpoints.foldl (importRecord now) s.prepareForMigration

/-! ## Reading an endpoint after an update -/

end

section Updates
variable {s : CoordinatorState} {route endpoint : ℕ}

lemma endpointAt_updateAt (s : CoordinatorState) (route endpoint : ℕ)
    (f : EndpointState → EndpointState) (r e : ℕ) :
    (s.updateAt route endpoint f).endpointAt r e =
      if r = route ∧ e = endpoint then (s.endpointAt r e).map f else s.endpointAt r e :=
  Grid.cell_update _ _ _ _ _ _

lemma breakerAt_publishSlots (s : CoordinatorState) (route endpoint : ℕ) (cycle : HalfOpenCycle)
    (r e : ℕ) : (s.publishSlots route endpoint cycle).breakerAt r e = s.breakerAt r e := by
  have h : (s.publishSlots route endpoint cycle).endpointAt r e =
      (s.updateAt route endpoint fun st =>
        { st with probeSlots := some s.slots.length }).endpointAt r e := rfl
  simp only [breakerAt, h, endpointAt_updateAt]
  split
  · cases s.endpointAt r e <;> rfl
  · rfl

lemma breakerAt_recordResult (s : CoordinatorState) (result : AttemptResult) (now : TimePoint)
    (r e : ℕ) :
    (s.recordResult result now).breakerAt r e =
      if r = result.routeIndex ∧ e = result.endpointIndex then
        (s.breakerAt r e).map fun b => b.record now (requestPermit result.permit) result.success
      else s.breakerAt r e := by
  simp only [breakerAt, recordResult, endpointAt_updateAt]
  split
  · cases s.endpointAt r e <;> rfl
  · rfl

lemma breakerAt_recordHealth (s : CoordinatorState) (route endpoint : ℕ) (healthy : Bool)
    (r e : ℕ) : (s.recordHealth route endpoint healthy).breakerAt r e = s.breakerAt r e := by
  simp only [breakerAt, recordHealth, endpointAt_updateAt]
  split
  · cases s.endpointAt r e <;> rfl
  · rfl

/-- `ArmHalfOpen` moves the breaker of its endpoint out of the open state once its
window has elapsed, and touches no other breaker. -/
lemma breakerAt_armHalfOpen (s : CoordinatorState) (route endpoint : ℕ) (now : TimePoint)
    (r e : ℕ) :
    (s.armHalfOpen route endpoint now).breakerAt r e = if r = route ∧ e = endpoint then
        (s.breakerAt r e).map fun b =>
          if b.state ≠ .opened ∨ now < b.openUntil then b else b.beginFreshHalfOpenCycle.1
      else s.breakerAt r e := by
  unfold armHalfOpen
  cases hb : s.breakerAt route endpoint with
  | none =>
    simp only
    split
    · next h =>
      obtain ⟨rfl, rfl⟩ := h
      rw [hb]
      rfl
    · rfl
  | some b =>
    simp only
    by_cases hcond : b.state ≠ .opened ∨ now < b.openUntil
    · rw [if_pos hcond]
      split
      · next h =>
        obtain ⟨rfl, rfl⟩ := h
        simp [hb, hcond]
      · rfl
    rw [if_neg hcond, breakerAt_publishSlots]
    simp only [breakerAt, endpointAt_updateAt] at hb ⊢
    split
    · next h =>
      obtain ⟨rfl, rfl⟩ := h
      obtain ⟨st, hst, hbr⟩ := bind_eq_some_iff.mp hb
      simp only [hst, map_some, bind_some, hbr, if_neg hcond]
    · rfl

lemma isOpen_iff : s.isOpen route endpoint ↔
    ∃ b, s.breakerAt route endpoint = some b ∧ b.state = .opened := by
  unfold isOpen
  cases s.breakerAt route endpoint <;> simp

lemma openUntil_eq {b : CircuitBreaker} (h : s.breakerAt route endpoint = some b) :
    s.openUntil route endpoint = some b.openUntil := by
  simp [openUntil, h]

lemma isSome_updateAt (s : CoordinatorState) (route endpoint : ℕ)
    (f : EndpointState → EndpointState) (r e : ℕ) :
    ((s.updateAt route endpoint f).endpointAt r e).isSome = (s.endpointAt r e).isSome := by
  rw [endpointAt_updateAt]
  split <;> simp

lemma isSome_armHalfOpen (s : CoordinatorState) (route endpoint : ℕ) (now : TimePoint) (r e : ℕ) :
    ((s.armHalfOpen route endpoint now).endpointAt r e).isSome = (s.endpointAt r e).isSome := by
  unfold armHalfOpen
  cases s.breakerAt route endpoint with
  | none => rfl
  | some b =>
    simp only
    split
    · rfl
    · exact (isSome_updateAt _ _ _ _ _ _).trans (isSome_updateAt _ _ _ _ _ _)

variable {config : Config} {now : TimePoint}

section
variable (h : CoordinatorState.create config now = some s)
include h

lemma endpointAt_create (r e : ℕ) : s.config = config ∧ s.endpointAt r e =
      (config.routes[r]?).bind fun rc => (rc.endpoints[e]?).bind fun _ => freshEndpoint rc now := by
  simp only [CoordinatorState.create, map_eq_some_iff] at h
  obtain ⟨g, hg, rfl⟩ := h
  refine ⟨rfl, ?_⟩
  simp only [endpointAt, Grid.cell]
  have hrow := getElem?_of_mapM hg r
  cases hr : config.routes[r]? with
  | none => simp [hrow, hr]
  | some rc =>
    simp only [hr, bind_some] at hrow ⊢
    cases hm : rc.endpoints.mapM fun _ => freshEndpoint rc now with
    | none =>
      -- The row was built, so this cannot happen.
      have hrow := isSome_of_mapM hg (List.mem_of_getElem? hr)
      simp [hm] at hrow
    | some row =>
      rw [hrow, hm, bind_some]
      exact getElem?_of_mapM hm e

lemma isSome_create (r e : ℕ) :
    (s.endpointAt r e).isSome = ((config.routes[r]?).bind fun rc => rc.endpoints[e]?).isSome := by
  rw [(endpointAt_create h r e).2]
  simp only [CoordinatorState.create, map_eq_some_iff] at h
  obtain ⟨g, hg, -⟩ := h
  cases hr : config.routes[r]? with
  | none => rfl
  | some rc =>
    cases he : rc.endpoints[e]? with
    | none => simp [he]
    | some ep =>
      obtain ⟨row, hrow⟩ := isSome_iff_exists.mp
        (isSome_of_mapM hg (List.mem_of_getElem? hr))
      simpa [he] using isSome_of_mapM hrow (List.mem_of_getElem? he)

lemma breakerAt_create {r e : ℕ} {b : CircuitBreaker} (hb : s.breakerAt r e = some b) :
    b.state = .closed ∧ b.generation = 1 ∧ b.nextProbeId = 1 ∧ b.pendingProbes = [] := by
  rw [breakerAt, (endpointAt_create h r e).2] at hb
  simp only [bind_eq_some_iff] at hb
  obtain ⟨st, ⟨rc, -, ep, -, hst⟩, hbr⟩ := hb
  unfold freshEndpoint at hst
  cases hcb : rc.circuitBreaker with
  | none =>
    simp only [hcb, some.injEq] at hst
    subst hst
    cases hbr
  | some settings =>
    simp only [hcb, map_eq_some_iff] at hst
    obtain ⟨b', hb', rfl⟩ := hst
    unfold CircuitBreaker.create at hb'
    split at hb' <;> cases hb'
    cases hbr
    exact ⟨rfl, rfl, rfl, rfl⟩

end

end Updates

end CoordinatorState
end AegisGate.Health
