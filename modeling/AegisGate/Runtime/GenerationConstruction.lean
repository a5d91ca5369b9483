import AegisGate.Config.Accepted
import AegisGate.Health.Coordinator
import AegisGate.Resilience.GlobalAdmission
import AegisGate.Runtime.RuntimeGeneration
import AegisGate.Runtime.SelectionState

/-!
# The construction of a generation

The constructor of `RuntimeGeneration` builds, for a configuration, the coordinator with a breaker
for every endpoint and an outcome channel for every route with breakers, the admission of every
route, and the selection state of every worker. Each of them checks its own numbers and throws.
The loader checks the fields one by one; two of the checks here are about several fields at once.
-/

namespace AegisGate.Runtime
open Config Health Lib Net Resilience Option List
open Routing
open OutcomeChannel
open WeightedRoundRobin
open AdmissionLimits

structure GenerationParts where
  coordinator : Coordinator
  outcomeChannels : List (Option OutcomeChannel.State)
  admissions : List AdmissionLimits
  selectionStates : List SelectionState

/-- The channel of a route, if it has breakers. -/
def outcomeChannel (route : Route) : Option (Option OutcomeChannel.State) :=
  if route.circuitBreaker.isSome then do
    let capacity ← capacityForRoute route.maxInflight.toNat route.retryBudget.toNat
    let channel ← OutcomeChannel.State.create (capacity % 2 ^ 32)
    some (some channel)
  else some none

/-- The constructor of `RuntimeGeneration`. -/
def RuntimeGeneration.construct (config : Config) (now : Instant) : Option GenerationParts := do
  let coordinator ← Coordinator.create config now
  let outcomeChannels ← config.routes.mapM outcomeChannel
  let admissions ← config.routes.mapM ofRoute
  let selectionStates ← (replicate config.workers.toNat config).mapM SelectionState.create
  some { coordinator, outcomeChannels, admissions, selectionStates }

/-- What the loader does not check: the outcomes of a route with breakers fit into a channel, and
the weights of a route have a sum of 64 bits. -/
structure Runnable (config : Config) : Prop where
  outcomes : ∀ route ∈ config.routes, route.circuitBreaker.isSome →
    route.maxInflight.toNat * (route.retryBudget.toNat + 1) ≤ kMaxOutcomeCapacity
  weights : ∀ route ∈ config.routes, totalWeight route.endpoints < 2 ^ 64

/-! ## One constructor each -/

variable {route : Route} {config : Config}

lemma isSome_freshEndpoint (h : route.Accepted) (now : Instant) :
    (CoordinatorState.freshEndpoint route now).isSome := by
  rw [CoordinatorState.freshEndpoint]
  cases hbreaker : route.circuitBreaker with
  | none => rfl
  | some settings =>
    have hs := h.circuitBreaker settings hbreaker
    have hvalid : (CoordinatorState.breakerConfig settings).Valid :=
      ⟨Nat.mul_pos hs.window (by decide), hs.requests, hs.threshold_pos, hs.threshold_lt,
        Nat.mul_pos hs.open_ (by decide), hs.probes, settings.halfOpenProbes.toNat_lt⟩
    dsimp only
    rw [CircuitBreaker.create, dif_pos hvalid]
    rfl

lemma isSome_coordinatorState (h : config.Accepted) (now : Instant) :
    (CoordinatorState.create config now).isSome := by
  rw [CoordinatorState.create, isSome_map, isSome_mapM]
  intro route hroute
  rw [isSome_mapM]
  intro _ _
  exact isSome_freshEndpoint (h.routes route hroute) now

lemma isSome_capacityForRoute {maxInflight retryBudget : ℕ} (h : 0 < maxInflight) :
    (capacityForRoute maxInflight retryBudget).isSome ↔
      maxInflight * (retryBudget + 1) ≤ kMaxOutcomeCapacity := by
  have hpos : 0 < maxInflight * (retryBudget + 1) := Nat.mul_pos h (Nat.succ_pos _)
  rw [capacityForRoute]
  split
  · simp only [isSome_none, Bool.false_eq_true, false_iff]
    omega
  · simp only [isSome_some, true_iff]
    omega

lemma isSome_outcomeChannel (h : route.Accepted) :
    (outcomeChannel route).isSome ↔ (route.circuitBreaker.isSome →
      route.maxInflight.toNat * (route.retryBudget.toNat + 1) ≤ kMaxOutcomeCapacity) := by
  rw [outcomeChannel, ← isSome_capacityForRoute h.maxInflight]
  split
  · next hbreaker =>
    simp only [hbreaker, forall_true_left]
    cases hcapacity : capacityForRoute route.maxInflight.toNat
        route.retryBudget.toNat with
    | none => rfl
    | some capacity =>
      obtain ⟨hrange, hattempts⟩ := ite_none_left_eq_some.mp hcapacity
      rw [not_or, Nat.not_lt] at hrange
      cases hattempts
      have hlt : kMaxOutcomeCapacity < 2 ^ 32 := by decide
      have hmod := Nat.mod_eq_of_lt (Nat.lt_of_le_of_lt hrange.2 hlt)
      have hcreate : (OutcomeChannel.State.create
          (route.maxInflight.toNat * (route.retryBudget.toNat + 1) % 2 ^ 32)).isSome := by
        rw [hmod, OutcomeChannel.State.create, if_neg (by rw [not_or, Nat.not_lt]; exact hrange)]
        rfl
      obtain ⟨channel, hchannel⟩ := isSome_iff_exists.mp hcreate
      simp only [bind_eq_bind, bind_some, hchannel, isSome_some]
  · next hbreaker => simp [hbreaker]

lemma isSome_coordinator (h : config.Accepted) (now : Instant) :
    (Coordinator.create config now).isSome ↔ ∀ route ∈ config.routes, route.circuitBreaker.isSome →
        route.maxInflight.toNat * (route.retryBudget.toNat + 1) ≤ kMaxOutcomeCapacity := by
  obtain ⟨state, hstate⟩ := isSome_iff_exists.mp (isSome_coordinatorState h now)
  have hchannels : ((config.routes.filter fun route => route.circuitBreaker.isSome).mapM
      fun (route : Route) => capacityForRoute route.maxInflight.toNat
        route.retryBudget.toNat).isSome ↔ ∀ route ∈ config.routes, route.circuitBreaker.isSome →
          route.maxInflight.toNat * (route.retryBudget.toNat + 1) ≤ kMaxOutcomeCapacity := by
    rw [isSome_mapM]
    simp only [mem_filter, and_imp]
    refine forall₃_congr fun route hroute _ => ?_
    exact isSome_capacityForRoute (h.routes route hroute).maxInflight
  rw [← hchannels, Coordinator.create, hstate]
  cases (config.routes.filter fun route => route.circuitBreaker.isSome).mapM
      fun (route : Route) => capacityForRoute route.maxInflight.toNat
        route.retryBudget.toNat <;> rfl

lemma isSome_admission (h : route.Accepted) : (ofRoute route).isSome := by
  rw [ofRoute, dif_pos ⟨h.rateLimit, h.burst, h.maxInflight⟩]
  rfl

lemma isSome_accumulate {endpoints : List Endpoint} {total : ℕ} (htotal : total < 2 ^ 64)
    (h : ∀ e ∈ endpoints, 0 < e.weight.toNat) :
    (accumulate total endpoints).isSome ↔ total + totalWeight endpoints < 2 ^ 64 := by
  induction endpoints generalizing total with
  | nil => simpa [accumulate, totalWeight] using htotal
  | cons e endpoints ih =>
    obtain ⟨hpos, hrest⟩ := List.forall_mem_cons.mp h
    have hweight := e.weight.toNat_lt
    have hne : ¬ e.weight = 0 := fun hzero => by simp [hzero] at hpos
    rw [accumulate, totalWeight, load_cons]
    split
    · next hstop =>
      simp only [isSome_none, Bool.false_eq_true, false_iff]
      have := hstop.resolve_left hne
      omega
    · next hgo =>
      rw [not_or] at hgo
      rw [ih (by omega) hrest, totalWeight, Nat.add_assoc]

lemma isSome_rotation (h : route.Accepted) :
    (create route.endpoints).isSome ↔ totalWeight route.endpoints < 2 ^ 64 := by
  have hpositive := fun e he => (h.endpoints e he).weight
  have haccumulate := isSome_accumulate (show 0 < 2 ^ 64 by decide) hpositive
  rw [Nat.zero_add] at haccumulate
  rw [← haccumulate, create]
  split
  · next hnone =>
    rw [hnone]
    rfl
  next total hsome =>
  obtain ⟨hsum, -, -⟩ := accumulate_eq_some (by decide) hsome
  obtain ⟨e, rest, hcons⟩ := exists_cons_of_ne_nil h.endpoints_ne
  have hfirst := hpositive e (hcons ▸ mem_cons_self)
  have hne : total ≠ 0 := by
    rw [hsum, hcons, totalWeight, load_cons]
    omega
  rw [dif_neg hne]
  exact iff_of_true rfl (isSome_iff_exists.mpr ⟨total, hsome⟩)

lemma isSome_selectionState (h : config.Accepted) : (SelectionState.create config).isSome ↔
      ∀ route ∈ config.routes, totalWeight route.endpoints < 2 ^ 64 := by
  have hrotations : (config.routes.mapM fun route =>
      create route.endpoints).isSome ↔
        ∀ route ∈ config.routes, totalWeight route.endpoints < 2 ^ 64 := by
    rw [isSome_mapM]
    exact forall₂_congr fun route hroute => isSome_rotation (h.routes route hroute)
  rw [← hrotations, SelectionState.create]
  split
  · next hnone =>
    rw [hnone]
    rfl
  · next hsome => exact iff_of_true rfl (isSome_iff_exists.mpr ⟨_, hsome⟩)

/-! ## The whole constructor -/

lemma RuntimeGeneration.isSome_construct {now : Instant} :
    (construct config now).isSome ↔ (Coordinator.create config now).isSome ∧
      (config.routes.mapM outcomeChannel).isSome ∧
      (config.routes.mapM ofRoute).isSome ∧
      ((replicate config.workers.toNat config).mapM SelectionState.create).isSome := by
  rw [construct]
  cases Coordinator.create config now with
  | none => simp
  | some coordinator =>
    cases config.routes.mapM outcomeChannel with
    | none => simp
    | some channels =>
      cases config.routes.mapM ofRoute with
      | none => simp
      | some admissions =>
        cases (replicate config.workers.toNat config).mapM SelectionState.create with
        | none => simp
        | some states => simp

/-- **Which accepted configurations run.** For every document on which `LoadFromYaml` returns a
configuration, the constructor of `RuntimeGeneration` does not throw if and only if the
configuration is runnable. -/
theorem isSome_construct_iff (document : Except String Node) (config : Config)
    (hload : loadFromYaml document = .ok config) (now : Instant) :
    (RuntimeGeneration.construct config now).isSome ↔ Runnable config := by
  have h := accepted_of_loadFromYaml hload
  have hchannels : (config.routes.mapM outcomeChannel).isSome ↔ _ :=
    isSome_mapM.trans (forall₂_congr fun route hroute =>
      isSome_outcomeChannel (h.routes route hroute))
  have hadmissions : (config.routes.mapM ofRoute).isSome :=
    isSome_mapM.mpr fun route hroute => isSome_admission (h.routes route hroute)
  have hstates : ((replicate config.workers.toNat config).mapM SelectionState.create).isSome ↔
      ∀ route ∈ config.routes, totalWeight route.endpoints < 2 ^ 64 := by
    rw [isSome_mapM, ← isSome_selectionState h]
    simp only [mem_replicate, and_imp]
    exact ⟨fun hall => hall _ (Nat.ne_of_gt h.workers_pos) rfl, fun hsome _ _ heq => heq ▸ hsome⟩
  rw [RuntimeGeneration.isSome_construct, isSome_coordinator h now, hchannels, hstates]
  constructor
  · intro hparts
    exact ⟨hparts.1, hparts.2.2.2⟩
  · intro hrunnable
    exact ⟨hrunnable.outcomes, hrunnable.outcomes, hadmissions, hrunnable.weights⟩

/-! ## Documents -/

/-- A route with one endpoint, and the rest of its fields. -/
def routeNode (name pathPrefix maxInflight : String) (fields : List (Node × Node)) : Node :=
  .map ([(.scalar "name", .scalar name), (.scalar "host", .scalar "example.com"),
    (.scalar "path_prefix", .scalar pathPrefix), (.scalar "rate_limit", .scalar "100"),
    (.scalar "burst", .scalar "100"), (.scalar "max_inflight", .scalar maxInflight),
    (.scalar "endpoints", .sequence [.map [(.scalar "host", .scalar "127.0.0.1"),
      (.scalar "port", .scalar "8080"), (.scalar "weight", .scalar "1")]])] ++ fields)

/-- What the loader makes of it without other fields. -/
def plainRoute (name pathPrefix : String) (maxInflight : UInt32) : Config.Route where
  name
  host := "example.com"
  pathPrefix
  endpoints := [Config.localEndpoint]
  rateLimit := 100
  burst := 100
  maxInflight

/-- A document with one route, whose requests at a time are given. -/
def breakerDocument (maxInflight : String) : Node :=
  .map [(.scalar "routes", .sequence [routeNode "api" "/" maxInflight
    [(.scalar "circuit_breaker", .map
      [(.scalar "window_seconds", .scalar "10"), (.scalar "min_requests", .scalar "20"),
        (.scalar "failure_threshold", .scalar "0.5"), (.scalar "open_seconds", .scalar "5"),
        (.scalar "half_open_probes", .scalar "2")])]])]

def breakerConfiguration (maxInflight : UInt32) : Config where
  routes := [{ plainRoute "api" "/" maxInflight with
    circuitBreaker := some {
      windowSeconds := 10, minRequests := 20, failureThresholdPermille := 500
      openSeconds := 5, halfOpenProbes := 2 } }]

theorem isSome_construct_iff_breakerDocument :
    loadFromYaml (.ok (breakerDocument "64")) = .ok (breakerConfiguration 64) ∧
      (RuntimeGeneration.construct (breakerConfiguration 64) 0).isSome := by
  have hload : loadFromYaml (.ok (breakerDocument "64")) = .ok (breakerConfiguration 64) := by
    rfl
  refine ⟨hload, (isSome_construct_iff _ _ hload 0).mpr ⟨?_, ?_⟩⟩
  · decide
  · decide

/-- A million and a half of outcomes do not fit into a channel. -/
theorem not_isSome_construct_breakerDocument :
    loadFromYaml (.ok (breakerDocument "750000")) = .ok (breakerConfiguration 750000) ∧
      ¬ (RuntimeGeneration.construct (breakerConfiguration 750000) 0).isSome := by
  refine ⟨by rfl, ?_⟩
  decide

end AegisGate.Runtime
