import AegisGate.Config.Loader
import AegisGate.Http.AcceptedRequest

/-!
# What the loader accepts

The facts about a configuration that `LoadFromYaml` has returned: every number is positive and in
its range, every text is valid, and routes and endpoints can be told apart.
-/

namespace AegisGate.Config
open Http Routing List

structure Endpoint.Accepted (e : Endpoint) : Prop where
  address : parseNumericIpv4 (textBytes e.host) = some e.address
  port : 0 < e.port.toNat
  weight : 0 < e.weight.toNat

structure CircuitBreakerSettings.Accepted (s : CircuitBreakerSettings) : Prop where
  window : 0 < s.windowSeconds.toNat
  requests : 0 < s.minRequests.toNat
  threshold_pos : 0 < s.failureThresholdPermille.toNat
  threshold_lt : s.failureThresholdPermille.toNat < 1000
  open_ : 0 < s.openSeconds.toNat
  probes : 0 < s.halfOpenProbes.toNat

structure HealthCheckSettings.Accepted (s : HealthCheckSettings) : Prop where
  interval : 0 < s.intervalMs.toNat
  timeout : 0 < s.timeoutMs.toNat

structure Route.Accepted (r : Route) : Prop where
  name : r.name ≠ ""
  host : isValidRouteHost (textBytes r.host)
  pathPrefix : isValidPathPrefix (textBytes r.pathPrefix)
  endpoints_ne : r.endpoints ≠ []
  endpoints : ∀ e ∈ r.endpoints, e.Accepted
  distinct : r.endpoints.Pairwise Distinct
  rateLimit : 0 < r.rateLimit.toNat
  burst : 0 < r.burst.toNat
  maxInflight : 0 < r.maxInflight.toNat
  connectTimeout : 0 < r.connectTimeoutMs.toNat
  firstByteTimeout : 0 < r.firstByteTimeoutMs.toNat
  totalTimeout : 0 < r.totalTimeoutMs.toNat
  retryBudget : r.retryBudget.toNat ≤ 1
  circuitBreaker : ∀ s ∈ r.circuitBreaker, s.Accepted
  healthCheck : ∀ s ∈ r.healthCheck, s.Accepted

/-- What an accepted configuration satisfies. -/
structure Accepted (config : Config) : Prop where
  routes_ne : config.routes ≠ []
  routes : ∀ r ∈ config.routes, r.Accepted
  names : (config.routes.map Route.name).Nodup
  matchKeys : (config.routes.map Route.matchKey).Nodup
  workers_pos : 0 < config.workers.toNat
  workers_le : config.workers.toNat ≤ 1024

/-! ## Readers -/

variable {node : Node} {field : String} {n : UInt32} {α : Type}

lemma requireString_ok {value : String} (h : requireString node field = .ok value) :
    value ≠ "" := by
  unfold requireString at h
  split at h
  · obtain ⟨hvalue, h⟩ := of_ite_error_ok h
    cases h
    exact hvalue
  · cases h

lemma requirePositiveUnsigned_ok {maximum : ℕ} (hmaximum : maximum ≤ maxUint32)
    (h : requirePositiveUnsigned node field maximum = .ok n) : 0 < n.toNat ∧ n.toNat ≤ maximum := by
  obtain ⟨value, -, h⟩ := exists_of_bind_ok h
  obtain ⟨-, h⟩ := of_ite_error_ok h
  split at h
  · cases h
  next parsed _ =>
  obtain ⟨hrange, h⟩ := of_ite_error_ok h
  cases h
  rw [not_or, Nat.not_lt] at hrange
  rw [maxUint32] at hmaximum
  rw [UInt32.toNat_ofNat_of_lt' (by rw [UInt32.size]; omega)]
  exact ⟨Nat.pos_of_ne_zero hrange.1, hrange.2⟩

lemma requireRetryBudget_ok (h : requireRetryBudget node = .ok n) : n.toNat ≤ 1 := by
  obtain ⟨value, -, h⟩ := exists_of_bind_ok h
  obtain ⟨-, h⟩ := of_ite_error_ok h
  cases h
  split
  · decide
  · decide

lemma parseThresholdPermille_ok (h : parseThresholdPermille node field = .ok n) :
    0 < n.toNat ∧ n.toNat < 1000 := by
  obtain ⟨value, -, h⟩ := exists_of_bind_ok h
  obtain ⟨-, h⟩ := of_ite_error_ok h
  obtain ⟨-, h⟩ := of_ite_error_ok h
  split at h
  · cases h
  · obtain ⟨hrange, h⟩ := of_ite_error_ok h
    cases h
    rw [not_or, Nat.not_lt] at hrange
    rw [UInt32.toNat_ofNat_of_lt' (by rw [UInt32.size]; omega)]
    exact ⟨Nat.pos_of_ne_zero hrange.1, Nat.lt_succ_of_le hrange.2⟩

lemma optionalField_ok {fields : ObjectFields} {fallback a : α} {read : Node → Except String α}
    {P : α → Prop} (hfallback : P fallback) (hread : ∀ node a, read node = .ok a → P a)
    (h : optionalField fields field fallback read = .ok a) : P a := by
  unfold optionalField at h
  split at h
  · exact hread _ a h
  · cases h
    exact hfallback

lemma of_map_some_ok {read : Node → Except String α} {P : α → Prop}
    (hread : ∀ node a, read node = .ok a → P a) (node : Node) (a : Option α)
    (h : some <$> read node = .ok a) : ∀ s ∈ a, P s := by
  cases hnode : read node with
  | error e =>
    rw [hnode] at h
    cases h
  | ok s =>
    rw [hnode] at h
    cases h
    intro t ht
    cases ht
    exact hread node _ hnode

lemma forall_of_mapM_ok {β : Type} {read : α → Except String β} {P : β → Prop}
    (hread : ∀ x y, read x = .ok y → P y) {xs : List α} {ys : List β} (h : xs.mapM read = .ok ys) :
    (∀ y ∈ ys, P y) ∧ ys.length = xs.length := by
  induction xs generalizing ys with
  | nil =>
    cases h
    exact ⟨nofun, rfl⟩
  | cons x xs ih =>
    rw [mapM_cons] at h
    obtain ⟨y, hy, h⟩ := exists_of_bind_ok h
    obtain ⟨rest, hrest, h⟩ := exists_of_bind_ok h
    cases h
    obtain ⟨hall, hlength⟩ := ih hrest
    exact ⟨forall_mem_cons.mpr ⟨hread x y hy, hall⟩, congrArg (· + 1) hlength⟩

lemma positiveField_ok {fields : ObjectFields} {name context : String}
    (h : (requireField fields name context >>= fun node =>
      requirePositiveUnsigned node field maxUint32) = .ok n) : 0 < n.toNat := by
  obtain ⟨node, -, h⟩ := exists_of_bind_ok h
  exact (requirePositiveUnsigned_ok (Nat.le_refl _) h).1

lemma optionalPositive_ok {fields : ObjectFields} {fallback : UInt32}
    (hfallback : 0 < fallback.toNat)
    (h : optionalField fields field fallback (requirePositiveUnsigned · field maxUint32) = .ok n) :
    0 < n.toNat :=
  optionalField_ok (P := fun n => 0 < n.toNat) hfallback
    (fun _ _ hread => (requirePositiveUnsigned_ok (Nat.le_refl _) hread).1) h

/-! ## Objects -/

lemma parseCircuitBreaker_ok (node : Node) (s : CircuitBreakerSettings)
    (h : parseCircuitBreaker node = .ok s) : s.Accepted := by
  obtain ⟨fields, -, h⟩ := exists_of_bind_ok h
  obtain ⟨window, hwindow, h⟩ := exists_of_bind_ok h
  obtain ⟨requests, hrequests, h⟩ := exists_of_bind_ok h
  obtain ⟨_, -, h⟩ := exists_of_bind_ok h
  obtain ⟨threshold, hthreshold, h⟩ := exists_of_bind_ok h
  obtain ⟨seconds, hseconds, h⟩ := exists_of_bind_ok h
  obtain ⟨probes, hprobes, h⟩ := exists_of_bind_ok h
  cases h
  obtain ⟨hpos, hlt⟩ := parseThresholdPermille_ok hthreshold
  exact {
    window := positiveField_ok hwindow
    requests := positiveField_ok hrequests
    threshold_pos := hpos
    threshold_lt := hlt
    open_ := positiveField_ok hseconds
    probes := positiveField_ok hprobes }

lemma parseHealthCheck_ok (node : Node) (s : HealthCheckSettings)
    (h : parseHealthCheck node = .ok s) : s.Accepted := by
  obtain ⟨fields, -, h⟩ := exists_of_bind_ok h
  obtain ⟨interval, hinterval, h⟩ := exists_of_bind_ok h
  obtain ⟨timeout, htimeout, h⟩ := exists_of_bind_ok h
  cases h
  exact ⟨positiveField_ok hinterval, positiveField_ok htimeout⟩

lemma parseEndpoint_ok (node : Node) (e : Endpoint) (h : parseEndpoint node = .ok e) :
    e.Accepted := by
  obtain ⟨fields, -, h⟩ := exists_of_bind_ok h
  obtain ⟨_, -, h⟩ := exists_of_bind_ok h
  obtain ⟨host, -, h⟩ := exists_of_bind_ok h
  obtain ⟨_, -, h⟩ := exists_of_bind_ok h
  obtain ⟨port, hport, h⟩ := exists_of_bind_ok h
  obtain ⟨_, -, h⟩ := exists_of_bind_ok h
  obtain ⟨weight, hweight, h⟩ := exists_of_bind_ok h
  obtain ⟨hpos, hle⟩ := requirePositiveUnsigned_ok (by decide) hport
  split at h
  · cases h
  · next address haddress =>
    cases h
    refine ⟨haddress, ?_, (requirePositiveUnsigned_ok (Nat.le_refl _) hweight).1⟩
    rw [UInt32.toNat_toUInt16]
    omega

lemma parseEndpoints_ok {endpoints : List Endpoint} (h : parseEndpoints node = .ok endpoints) :
    endpoints ≠ [] ∧ (∀ e ∈ endpoints, e.Accepted) ∧ endpoints.Pairwise Distinct := by
  unfold parseEndpoints at h
  split at h
  · obtain ⟨items, hitems, h⟩ := exists_of_bind_ok h
    obtain ⟨hdistinct, h⟩ := of_ite_error_ok h
    cases h
    obtain ⟨hall, hlength⟩ := forall_of_mapM_ok parseEndpoint_ok hitems
    refine ⟨?_, hall, Decidable.not_not.mp hdistinct⟩
    intro hnil
    rw [hnil] at hlength
    cases hlength
  · cases h

lemma parseRoute_ok {route : Route} (h : parseRoute node = .ok route) : route.Accepted := by
  obtain ⟨fields, -, h⟩ := exists_of_bind_ok h
  obtain ⟨name, hname, h⟩ := exists_of_bind_ok h
  obtain ⟨_, -, hname⟩ := exists_of_bind_ok hname
  obtain ⟨host, -, h⟩ := exists_of_bind_ok h
  obtain ⟨pathPrefix, -, h⟩ := exists_of_bind_ok h
  obtain ⟨rateLimit, hrate, h⟩ := exists_of_bind_ok h
  obtain ⟨burst, hburst, h⟩ := exists_of_bind_ok h
  obtain ⟨maxInflight, hinflight, h⟩ := exists_of_bind_ok h
  obtain ⟨connect, hconnect, h⟩ := exists_of_bind_ok h
  obtain ⟨firstByte, hfirstByte, h⟩ := exists_of_bind_ok h
  obtain ⟨total, htotal, h⟩ := exists_of_bind_ok h
  obtain ⟨retry, hretry, h⟩ := exists_of_bind_ok h
  obtain ⟨breaker, hbreaker, h⟩ := exists_of_bind_ok h
  obtain ⟨health, hhealth, h⟩ := exists_of_bind_ok h
  obtain ⟨balance, -, h⟩ := exists_of_bind_ok h
  obtain ⟨hhost, h⟩ := of_ite_error_ok h
  obtain ⟨hpath, h⟩ := of_ite_error_ok h
  obtain ⟨_, -, h⟩ := exists_of_bind_ok h
  obtain ⟨endpoints, hendpoints, h⟩ := exists_of_bind_ok h
  cases h
  obtain ⟨hne, hall, hdistinct⟩ := parseEndpoints_ok hendpoints
  rw [Bool.not_eq_true', Bool.not_eq_false] at hhost hpath
  exact {
    name := requireString_ok hname
    host := hhost
    pathPrefix := hpath
    endpoints_ne := hne
    endpoints := hall
    distinct := hdistinct
    rateLimit := positiveField_ok hrate
    burst := positiveField_ok hburst
    maxInflight := positiveField_ok hinflight
    connectTimeout := optionalPositive_ok (by decide) hconnect
    firstByteTimeout := optionalPositive_ok (by decide) hfirstByte
    totalTimeout := optionalPositive_ok (by decide) htotal
    retryBudget :=
      optionalField_ok (P := fun n => n.toNat ≤ 1) (by decide) (fun _ _ => requireRetryBudget_ok)
        hretry
    circuitBreaker := optionalField_ok nofun (of_map_some_ok parseCircuitBreaker_ok) hbreaker
    healthCheck := optionalField_ok nofun (of_map_some_ok parseHealthCheck_ok) hhealth }

lemma loadRoutes_ok {names : List String} {matchKeys : List Bytes} {nodes : List Node}
    {routes : List Route} (h : loadRoutes names matchKeys nodes = .ok routes) :
    (∀ r ∈ routes, r.Accepted ∧ r.name ∉ names ∧ r.matchKey ∉ matchKeys) ∧
      (routes.map Route.name).Nodup ∧ (routes.map Route.matchKey).Nodup ∧
      routes.length = nodes.length := by
  induction nodes generalizing names matchKeys routes with
  | nil =>
    cases h
    exact ⟨nofun, nodup_nil, nodup_nil, rfl⟩
  | cons node nodes ih =>
    obtain ⟨route, hroute, h⟩ := exists_of_bind_ok h
    obtain ⟨hname, h⟩ := of_ite_error_ok h
    obtain ⟨hkey, h⟩ := of_ite_error_ok h
    obtain ⟨rest, hrest, h⟩ := exists_of_bind_ok h
    cases h
    obtain ⟨hall, hnames, hkeys, hlength⟩ := ih hrest
    refine ⟨?_, ?_, ?_, congrArg (· + 1) hlength⟩
    · refine forall_mem_cons.mpr ⟨⟨parseRoute_ok hroute, hname, hkey⟩, fun r hr => ?_⟩
      obtain ⟨haccepted, hnew, hnewKey⟩ := hall r hr
      exact ⟨haccepted, not_mem_of_not_mem_cons hnew, not_mem_of_not_mem_cons hnewKey⟩
    · refine nodup_cons.mpr ⟨fun hmem => ?_, hnames⟩
      obtain ⟨r, hr, heq⟩ := mem_map.mp hmem
      exact (hall r hr).2.1 (heq ▸ mem_cons_self)
    · refine nodup_cons.mpr ⟨fun hmem => ?_, hkeys⟩
      obtain ⟨r, hr, heq⟩ := mem_map.mp hmem
      exact (hall r hr).2.2 (heq ▸ mem_cons_self)

/-- `LoadFromYaml` returns accepted configurations. -/
lemma accepted_of_loadFromYaml {document : Except String Node} {config : Config}
    (h : loadFromYaml document = .ok config) : config.Accepted := by
  unfold loadFromYaml at h
  split at h
  · cases h
  obtain ⟨topLevel, -, h⟩ := exists_of_bind_ok h
  obtain ⟨routesNode, -, h⟩ := exists_of_bind_ok h
  split at h
  · obtain ⟨workers, hworkers, h⟩ := exists_of_bind_ok h
    obtain ⟨routes, hroutes, h⟩ := exists_of_bind_ok h
    cases h
    obtain ⟨hall, hnames, hkeys, hlength⟩ := loadRoutes_ok hroutes
    obtain ⟨hpos, hle⟩ := optionalField_ok (P := fun n : UInt32 => 0 < n.toNat ∧ n.toNat ≤ 1024)
      (by decide) (fun _ _ => requirePositiveUnsigned_ok (by decide)) hworkers
    refine ⟨?_, fun r hr => (hall r hr).1, hnames, hkeys, hpos, hle⟩
    intro hnil
    dsimp only at hnil
    rw [hnil] at hlength
    cases hlength
  · cases h

end AegisGate.Config
