import AegisGate.Health.ArmTimers

/-!
# Migration of open breakers

A reload exports the protection state of the running coordinator as a value and
imports it into a prepared replacement. The arm timers belong to the loop of the old
coordinator and do not travel.

`isOpen_import_iff` says which breakers of the replacement are open after the import:
those whose last applicable record is open with time remaining. No call of the
replacement's start-up schedules an arm timer, so these breakers are open without
one. `recovers_iff` is the resulting exact condition.
-/

namespace AegisGate.Health
open Lib Resilience Net List Option CoordinatorState

/-! ## Which breakers an import opens -/

namespace CoordinatorState

/-- The record is imported into the breaker of this endpoint. -/
def appliesTo (config : Config) (route endpoint : ℕ) (source : EndpointProtectionSnapshot) : Bool :=
  match target config source with
  | none => false
  | some (r, e, routeConfig) =>
    r = route && e = endpoint && source.breaker.isSome && routeConfig.circuitBreaker.isSome &&
      sameBreakerPolicy source.sourceBreakerPolicy routeConfig.circuitBreaker

/-- The record is of an open breaker with time remaining. -/
def opensTarget (source : EndpointProtectionSnapshot) : Bool :=
  match source.breaker with
  | none => false
  | some b => b.state = .opened && 0 < b.openRemaining

/-- The last record that applies to the endpoint is of an open breaker. -/
def importsOpen (config : Config) (snapshot : ProtectionSnapshot) (route endpoint : ℕ) : Bool :=
  match (snapshot.endpoints.filter (appliesTo config route endpoint)).getLast? with
  | none => false
  | some source => opensTarget source

variable {config : Config} {route endpoint : ℕ} {source : EndpointProtectionSnapshot}
  {s : CoordinatorState}

lemma importsOpen_eq_false {snapshot : ProtectionSnapshot}
    (h : ∀ source ∈ snapshot.endpoints, opensTarget source = false) :
    importsOpen config snapshot route endpoint = false := by
  unfold importsOpen
  split
  · rfl
  · next source hlast => exact h source (mem_of_mem_filter (mem_of_getLast? hlast))

/-- There is a breaker wherever the configuration has one. -/
def BreakersMatch (s : CoordinatorState) : Prop :=
  ∀ route endpoint routeConfig, s.config.routes[route]? = some routeConfig →
    endpoint < routeConfig.endpoints.length →
    (s.breakerAt route endpoint).isSome = routeConfig.circuitBreaker.isSome

lemma target_some {routeConfig : Config.Route}
    (h : target config source = some (route, endpoint, routeConfig)) :
    config.routes[route]? = some routeConfig ∧ endpoint < routeConfig.endpoints.length := by
  simp only [target, Option.bind_eq_bind, Option.bind_eq_some_iff, Option.pure_def,
    Option.some.injEq, Prod.mk.injEq] at h
  obtain ⟨r, -, rc, hrc, e, he, rfl, rfl, rfl⟩ := h
  exact ⟨hrc, (findIdx?_eq_some_iff_getElem.mp he).1⟩

lemma breakerAt_prepareForMigration (hlen : s.endpoints.length = s.config.routes.length) :
    s.prepareForMigration.breakerAt route endpoint = s.breakerAt route endpoint := by
  simp only [breakerAt, endpointAt, prepareForMigration, Grid.cell, getElem?_zipWith]
  cases hs : s.endpoints[route]? with
  | none => rfl
  | some states =>
    have hlt := (List.getElem?_eq_some_iff.mp hs).1
    rw [getElem?_eq_getElem (by omega)]
    simp only [bind_some, getElem?_map]
    cases states[endpoint]? <;> rfl

/-- What a record makes of a breaker it is imported into. -/
def imported (now : TimePoint) (source : EndpointProtectionSnapshot) (b : CircuitBreaker) :
    CircuitBreaker :=
  match source.breaker with
  | none => b
  | some snapshot => (b.importSnapshot snapshot now).1

lemma config_importBreaker (s : CoordinatorState) (r e : ℕ) (rc : Config.Route)
    (source : EndpointProtectionSnapshot) (now : TimePoint) :
    (s.importBreaker r e rc source now).config = s.config := by
  unfold importBreaker
  split
  · split
    · simp only
      cases (CircuitBreaker.importSnapshot _ _ now).2 <;> rfl
    · rfl
  · rfl

lemma breakerAt_publishCycle (s : CoordinatorState) (r e : ℕ) (cycle : Option HalfOpenCycle)
    (route endpoint : ℕ) :
    (s.publishCycle r e cycle).breakerAt route endpoint = s.breakerAt route endpoint := by
  cases cycle with
  | none => rfl
  | some cycle => exact breakerAt_publishSlots _ _ _ _ _ _

lemma breakerAt_importBreaker (s : CoordinatorState) (r e : ℕ) (rc : Config.Route)
    (source : EndpointProtectionSnapshot) (now : TimePoint) (route endpoint : ℕ) :
    (s.importBreaker r e rc source now).breakerAt route endpoint = if (route = r ∧ endpoint = e) ∧
          sameBreakerPolicy source.sourceBreakerPolicy rc.circuitBreaker then
        (s.breakerAt route endpoint).map (imported now source)
      else s.breakerAt route endpoint := by
  have himp : source.breaker = none → imported now source = id := by
    intro hn
    funext b
    simp [imported, hn]
  unfold importBreaker
  cases hb : s.breakerAt r e with
  | none =>
    simp only
    split
    · next h =>
      obtain ⟨⟨rfl, rfl⟩, -⟩ := h
      simp [hb]
    · rfl
  | some b =>
    cases hsrc : source.breaker with
    | none => simp [himp hsrc]
    | some snapshot =>
      simp only
      by_cases hpol : sameBreakerPolicy source.sourceBreakerPolicy rc.circuitBreaker
      · simp only [hpol, if_true, and_true, breakerAt_publishCycle]
        simp only [breakerAt, endpointAt_updateAt] at hb ⊢
        split
        · next h =>
          obtain ⟨rfl, rfl⟩ := h
          obtain ⟨st, hst, hbr⟩ := Option.bind_eq_some_iff.mp hb
          simp [hst, hbr, imported, hsrc]
        · rfl
      · simp [hpol]

lemma breakerAt_importHealth (s : CoordinatorState) (r e : ℕ) (health : HealthState)
    (condition : Bool) (route endpoint : ℕ) :
    (if condition then s.updateAt r e fun st => { st with health := health }
      else s).breakerAt route endpoint = s.breakerAt route endpoint := by
  split
  · simp only [breakerAt, endpointAt_updateAt]
    split
    · cases s.endpointAt route endpoint <;> rfl
    · rfl
  · rfl

lemma breakerAt_importRecord (hm : s.BreakersMatch) (now : TimePoint)
    (source : EndpointProtectionSnapshot) (route endpoint : ℕ) :
    (importRecord now s source).breakerAt route endpoint =
      if appliesTo s.config route endpoint source then
        (s.breakerAt route endpoint).map (imported now source)
      else s.breakerAt route endpoint := by
  unfold importRecord appliesTo
  cases ht : target s.config source with
  | none => simp
  | some t =>
    obtain ⟨r, e, rc⟩ := t
    obtain ⟨hrc, he⟩ := target_some ht
    have hsome := hm r e rc hrc he
    simp only [breakerAt_importBreaker, breakerAt_importHealth]
    by_cases hre : route = r ∧ endpoint = e
    · obtain ⟨rfl, rfl⟩ := hre
      cases hb : s.breakerAt route endpoint with
      | none => simp
      | some b =>
        rw [hb] at hsome
        cases hsrc : source.breaker with
        | none => simp [imported, hsrc]
        | some snapshot => simp [← hsome]
    · have hre' : ¬(r = route ∧ e = endpoint) := fun h => hre ⟨h.1.symm, h.2.symm⟩
      simp [hre, hre']

lemma config_importRecord (s : CoordinatorState) (now : TimePoint)
    (source : EndpointProtectionSnapshot) : (importRecord now s source).config = s.config := by
  unfold importRecord
  split
  · rfl
  · simp only [config_importBreaker]
    split <;> rfl

lemma BreakersMatch.importRecord (hm : s.BreakersMatch) (now : TimePoint)
    (source : EndpointProtectionSnapshot) : (importRecord now s source).BreakersMatch := by
  intro route endpoint rc hrc he
  rw [config_importRecord] at hrc
  rw [breakerAt_importRecord hm, ← hm route endpoint rc hrc he]
  split <;> simp

lemma imported_opened_iff {now : TimePoint} {b : CircuitBreaker}
    (h : source.breaker.isSome) :
    (imported now source b).state = .opened ↔ opensTarget source := by
  obtain ⟨snapshot, hs⟩ := isSome_iff_exists.mp h
  simp [imported, opensTarget, hs, CircuitBreaker.importSnapshot_opened_iff]

/-- What decides whether an endpoint is open after some records. -/
def openAfter (config : Config) (route endpoint : ℕ) (before : Bool) :
    List EndpointProtectionSnapshot → Bool
  | [] => before
  | source :: rest =>
    openAfter config route endpoint
      (if appliesTo config route endpoint source then opensTarget source else before) rest

lemma openAfter_eq (config : Config) (route endpoint : ℕ) (before : Bool)
    (sources : List EndpointProtectionSnapshot) :
    openAfter config route endpoint before sources =
      match (sources.filter (appliesTo config route endpoint)).getLast? with
      | none => before
      | some source => opensTarget source := by
  induction sources generalizing before with
  | nil => rfl
  | cons source rest ih =>
    rw [openAfter, ih]
    by_cases ha : appliesTo config route endpoint source
    · rw [if_pos ha, filter_cons_of_pos ha, getLast?_cons]
      cases (rest.filter (appliesTo config route endpoint)).getLast? <;> rfl
    · rw [if_neg ha, filter_cons_of_neg ha]

lemma BreakersMatch.of_appliesTo (hm : s.BreakersMatch)
    (h : appliesTo s.config route endpoint source) :
    (∃ b, s.breakerAt route endpoint = some b) ∧ source.breaker.isSome := by
  unfold appliesTo at h
  cases ht : target s.config source with
  | none => simp [ht] at h
  | some t =>
    obtain ⟨r, e, rc⟩ := t
    obtain ⟨hrc, he⟩ := target_some ht
    simp only [ht, Bool.and_eq_true, decide_eq_true_eq] at h
    obtain ⟨⟨⟨⟨rfl, rfl⟩, hsrc⟩, hcb⟩, -⟩ := h
    exact ⟨isSome_iff_exists.mp ((hm r e rc hrc he).trans hcb), hsrc⟩

lemma isOpen_importRecords (hm : s.BreakersMatch) (now : TimePoint)
    (sources : List EndpointProtectionSnapshot) (route endpoint : ℕ) :
    (sources.foldl (importRecord now) s).isOpen route endpoint =
      openAfter s.config route endpoint (s.isOpen route endpoint) sources := by
  induction sources generalizing s with
  | nil => rfl
  | cons source rest ih =>
    rw [foldl_cons, ih (hm.importRecord now source), config_importRecord, openAfter]
    congr 1
    rw [Bool.eq_iff_iff, isOpen_iff, breakerAt_importRecord hm]
    by_cases ha : appliesTo s.config route endpoint source
    · rw [if_pos ha, if_pos ha]
      obtain ⟨⟨b, hb⟩, hsrc⟩ := hm.of_appliesTo ha
      simp [hb, imported_opened_iff hsrc]
    · rw [if_neg ha, if_neg ha, ← isOpen_iff]

/-! ## Importing into a fresh coordinator -/

/-- A coordinator state that no event has changed yet. -/
structure Fresh (config : Config) (s : CoordinatorState) : Prop where
  config_eq : s.config = config
  length_eq : s.endpoints.length = s.config.routes.length
  breakers : s.BreakersMatch
  closed : ∀ r e b, s.breakerAt r e = some b → b.state = .closed

lemma fresh_create {created : TimePoint} (h : create config created = some s) :
    Fresh config s := by
  refine ⟨(endpointAt_create h 0 0).1, ?_, ?_, fun r e b hb => (breakerAt_create h hb).1⟩
  · simp only [create, map_eq_some_iff] at h
    obtain ⟨g, hg, rfl⟩ := h
    exact length_of_mapM hg
  intro r e rc hrc he
  obtain ⟨hcfg, hat⟩ := endpointAt_create h r e
  have hsome := isSome_create h r e
  rw [hcfg] at hrc
  simp only [hat, hrc, bind_some, getElem?_eq_getElem he, isSome_some, freshEndpoint] at hsome
  simp only [breakerAt, hat, hrc, bind_some, getElem?_eq_getElem he, freshEndpoint]
  cases hcb : rc.circuitBreaker with
  | none => rfl
  | some settings =>
    simp only [hcb, isSome_map] at hsome ⊢
    obtain ⟨b, hb⟩ := isSome_iff_exists.mp hsome
    simp [hb]

lemma Fresh.buildSnapshot (h : Fresh config s) : Fresh config s.buildSnapshot.1 :=
  { h with }

section Fresh
variable {s : CoordinatorState} {config : Config}

/-- **Which breakers are open after an import**: those whose last applicable record is
open with time remaining. -/
theorem isOpen_import_iff (h : Fresh config s) (snapshot : ProtectionSnapshot) (now : TimePoint)
    (route endpoint : ℕ) :
    (s.importProtectionSnapshot snapshot now).isOpen route endpoint ↔
      importsOpen config snapshot route endpoint := by
  have hprep : ∀ r e, s.prepareForMigration.breakerAt r e = s.breakerAt r e :=
    fun r e => breakerAt_prepareForMigration h.length_eq
  have hm : s.prepareForMigration.BreakersMatch := by
    intro r e rc hrc he
    rw [hprep]
    exact h.breakers r e rc hrc he
  have hclosed : s.prepareForMigration.isOpen route endpoint = false := by
    rw [Bool.eq_false_iff]
    intro hopen
    obtain ⟨b, hb, ho⟩ := isOpen_iff.mp hopen
    rw [hprep] at hb
    exact absurd ((h.closed _ _ b hb).symm.trans ho) (by decide)
  rw [importProtectionSnapshot, isOpen_importRecords hm, openAfter_eq, hclosed, importsOpen,
    show s.prepareForMigration.config = config from h.config_eq]

lemma isSome_importRecord (s : CoordinatorState) (now : TimePoint)
    (source : EndpointProtectionSnapshot) (r e : ℕ) :
    ((importRecord now s source).endpointAt r e).isSome = (s.endpointAt r e).isSome := by
  have hbreaker : ∀ (s : CoordinatorState) (route endpoint : ℕ) (rc : Config.Route),
      ((s.importBreaker route endpoint rc source now).endpointAt r e).isSome =
        (s.endpointAt r e).isSome := by
    intro s route endpoint rc
    unfold importBreaker
    split
    · split
      · simp only
        cases (CircuitBreaker.importSnapshot _ _ now).2 with
        | none => exact isSome_updateAt _ _ _ _ _ _
        | some cycle => exact (isSome_updateAt _ _ _ _ _ _).trans (isSome_updateAt _ _ _ _ _ _)
      · rfl
    · rfl
  unfold importRecord
  split
  · rfl
  · simp only [hbreaker]
    split
    · exact isSome_updateAt _ _ _ _ _ _
    · rfl

lemma isSome_import (h : Fresh config s)
    (snapshot : ProtectionSnapshot) (now : TimePoint) (r e : ℕ) :
    ((s.importProtectionSnapshot snapshot now).endpointAt r e).isSome =
      (s.endpointAt r e).isSome := by
  have hprep : (s.prepareForMigration.endpointAt r e).isSome = (s.endpointAt r e).isSome := by
    have hlen := h.length_eq
    simp only [endpointAt, prepareForMigration, Grid.cell, getElem?_zipWith]
    cases hs : s.endpoints[r]? with
    | none => rfl
    | some states =>
      have hlt := (List.getElem?_eq_some_iff.mp hs).1
      rw [getElem?_eq_getElem (by omega)]
      simp
  rw [← hprep, importProtectionSnapshot]
  generalize s.prepareForMigration = s₀
  induction snapshot.endpoints generalizing s₀ with
  | nil => rfl
  | cons source rest ih => rw [foldl_cons, ih, isSome_importRecord]

end Fresh

end CoordinatorState

/-! ## The replacement coordinator -/

namespace Coordinator

/-- The coordinator of the replacement configuration after `StartPrepared`,
`ImportProtectionSnapshotAndWait` and `Activate` have all succeeded. -/
def Replacement (config : Config) (snapshot : ProtectionSnapshot) (created importedAt : Instant)
    (c : Coordinator) : Prop :=
  ∃ c₀ c₁ c₂, Coordinator.create config created = some c₀ ∧ c₀.startPrepared = some c₁ ∧
    c₁.importProtectionSnapshotAndWait snapshot importedAt = some c₂ ∧ c₂.activate = some c

def Event.Records (route endpoint : ℕ) : Event → Prop
  | .record result _ _ _ => result.routeIndex = route ∧ result.endpointIndex = endpoint
  | _ => False

/-- **The property.** An endpoint that is open in this state has a pending arm timer
here and, as long as no result is recorded for it, in every later state in which it is
still open. -/
def Recovers (w : World) : Prop :=
  ∀ route endpoint, w.coordinator.state.isOpen route endpoint →
    ∀ es w', (∀ ev ∈ es, ¬Event.Records route endpoint ev) → run step w es = some w' →
      w'.coordinator.state.isOpen route endpoint → w'.coordinator.HasArmTimer route endpoint

section Replacement
variable {config : Config} {snapshot : ProtectionSnapshot} {created importedAt : Instant}
  {c : Coordinator} {r e : ℕ}

lemma replacement_spec (h : Replacement config snapshot created importedAt c) : LoopInv c ∧
      (∀ r e, c.state.isOpen r e ↔ importsOpen config snapshot r e) ∧
      ∀ r e id, c.armTimer r e = some id → id = 0 := by
  obtain ⟨c₀, c₁, c₂, hcreate, hprep, himp, hact⟩ := h
  obtain ⟨state, hstate, rfl⟩ := create_some hcreate
  obtain rfl := activate_some hact
  obtain rfl := importProtectionSnapshotAndWait_some himp
  obtain rfl := startPrepared_some hprep
  have hfresh := (fresh_create hstate).buildSnapshot
  refine ⟨⟨_, rfl, ?_⟩, ?_, ?_⟩
  · refine (loopOk_onLoopInit hstate).congr fun r e => ?_
    exact isSome_import hfresh snapshot importedAt r e
  · exact isOpen_import_iff hfresh snapshot importedAt
  intro r e id hid
  obtain ⟨data, hd, hcell⟩ := bind_eq_some_iff.mp hid
  cases hd
  simp only [Grid.cell, getElem?_map, bind_eq_some_iff, map_eq_some_iff] at hcell
  obtain ⟨row, ⟨rc, -, rfl⟩, hcell⟩ := hcell
  rw [getElem?_map, map_eq_some_iff] at hcell
  obtain ⟨-, -, rfl⟩ := hcell
  rfl

lemma not_hasArmTimer (h : ∀ id, c.armTimer r e = some id → id = 0) : ¬c.HasArmTimer r e := by
  rintro ⟨data, id, hd, hcell, hne, -⟩
  exact hne (h id (by simp [armTimer, hd, hcell]))

/-- **The exact condition.** The replacement can recover if and only if no endpoint's
last applicable record is of an open breaker with time remaining. -/
theorem recovers_iff (h : Replacement config snapshot created importedAt c) (clock : Instant) :
    Recovers ⟨c, clock⟩ ↔
      ∀ route endpoint, CoordinatorState.importsOpen config snapshot route endpoint = false := by
  obtain ⟨-, hiff, hzero⟩ := replacement_spec h
  constructor
  · intro hrec route endpoint
    rw [Bool.eq_false_iff]
    intro hopen
    have hnow := (hiff route endpoint).mpr hopen
    exact not_hasArmTimer (hzero route endpoint) (hrec route endpoint hnow [] _ (by simp) rfl hnow)
  · intro hno route endpoint hopen
    have := (hiff route endpoint).mp hopen
    simp [hno route endpoint] at this

end Replacement

/-! ## A reload while a breaker is open -/

/-- The source coordinator after its first failure, half a second before its window ends. -/
def openSource : Option World := do
  let c₀ ← Coordinator.create oneSecondConfig 0
  let c ← c₀.start
  run step ⟨c, 0⟩ [.record (firstEpoch false) 0 0 0, .advance 500000000]

/-- The reload loses the timer: the source has one, the imported breaker is open and has
none. -/
theorem recovers_fails_reload :
    ∃ w snapshot c, openSource = some w ∧ w.coordinator.HasArmTimer 0 0 ∧
      w.coordinator.exportProtectionSnapshotAndWait w.clock = some snapshot ∧
      Replacement oneSecondConfig snapshot w.clock w.clock c ∧ ¬Recovers ⟨c, w.clock⟩ := by
  refine ⟨_, _, _, rfl, ?_, rfl, ⟨_, _, _, rfl, rfl, rfl, rfl⟩, ?_⟩
  · exact ⟨_, 1, rfl, rfl, by decide, _, mem_cons_self⟩
  · intro h
    obtain ⟨data, id, hd, hcell, hne, -⟩ := h 0 0 rfl [] _ (by simp) rfl rfl
    cases hd
    cases hcell
    exact hne rfl

/-- A reload of a coordinator whose breaker is closed. -/
theorem recovers_iff_closed :
    ∃ c₀ c snapshot c', Coordinator.create oneSecondConfig 0 = some c₀ ∧ c₀.start = some c ∧
      c.exportProtectionSnapshotAndWait 0 = some snapshot ∧
      Replacement oneSecondConfig snapshot 0 0 c' ∧ Recovers ⟨c', 0⟩ := by
  refine ⟨_, _, _, _, rfl, rfl, rfl, ⟨_, _, _, rfl, rfl, rfl, rfl⟩, ?_⟩
  refine (@recovers_iff oneSecondConfig _ 0 0 _ ⟨_, _, _, rfl, rfl, rfl, rfl⟩ 0).mpr
    fun route endpoint => ?_
  refine importsOpen_eq_false ?_
  intro source hsource
  cases hsource with
  | head => rfl
  | tail _ hrest => cases hrest

end Coordinator
end AegisGate.Health
