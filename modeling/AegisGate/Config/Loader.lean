import AegisGate.Http.Decimal
import AegisGate.Http.RequestSerializer
import AegisGate.Routing.RouteTable

/-!
# The configuration loader

`LoadFromYaml` of `src/config/Config.cpp`. A document is the tree that `YAML::Load` delivers; an
exception of the library is its text. Every error of the loader is `std::invalid_argument`, with
the texts of the source, and the checks are made in the order of the source.

A scalar is a text. `as<std::string>` of a scalar does not throw, so the handlers around it are
not modelled.
-/

namespace AegisGate.Config
open Http Routing

/-- `YAML::Node`. -/
inductive Node
  | null
  | scalar (value : String)
  | sequence (items : List Node)
  | map (entries : List (Node × Node))

/-- `Invalid`: the exception of the loader. -/
def invalid {α : Type} (message : String) : Except String α :=
  .error ("invalid gateway configuration: " ++ message)

/-! ## Readers -/

section
variable (node : Node)

/-- `RequireString`. -/
def requireString (field : String) : Except String String :=
  match node with
  | .scalar value => if value = "" then invalid ("empty " ++ field) else .ok value
  | _ => invalid ("missing or non-scalar " ++ field)

/-- `std::from_chars` into 64 bits, of a text of digits. -/
def fromChars (digits : Bytes) : Option ℕ := (decimal digits).filter (· < 2 ^ 64)

/-- `std::numeric_limits<std::uint32_t>::max()`. -/
def maxUint32 : ℕ := 2 ^ 32 - 1

/-- `RequirePositiveUnsigned`: digits, from 1 to the maximum. -/
def requirePositiveUnsigned (field : String) (maximum : ℕ) : Except String UInt32 := do
  let value ← requireString node field
  if !(textBytes value).all isDigit then invalid ("invalid unsigned " ++ field)
  else match fromChars (textBytes value) with
    | none => invalid ("out-of-range " ++ field)
    | some parsed =>
      if parsed = 0 ∨ maximum < parsed then invalid ("out-of-range " ++ field)
      else .ok (.ofNat parsed)

/-- `RequireRetryBudget`. -/
def requireRetryBudget : Except String UInt32 := do
  let value ← requireString node "retry_budget"
  if value ≠ "0" ∧ value ≠ "1" then invalid "retry_budget must be 0 or 1"
  else .ok (if value = "0" then 0 else 1)

/-- The fields of an object, without a repeated key. -/
abbrev ObjectFields := List (String × Node)

/-- The loop of `ReadObject`. -/
def readEntries (allowed : List String) (context : String) (fields : ObjectFields) :
    List (Node × Node) → Except String ObjectFields
  | [] => .ok fields
  | (.scalar key, value) :: entries =>
    if key ∉ allowed then invalid ("unknown " ++ context ++ " field: " ++ key)
    else if (fields.lookup key).isSome then invalid ("duplicate " ++ context ++ " field")
    else readEntries allowed context (fields ++ [(key, value)]) entries
  | _ :: _ => invalid ("non-string key in " ++ context)

/-- `ReadObject`: a map with known keys only. -/
def readObject (allowed : List String) (context : String) : Except String ObjectFields :=
  match node with
  | .map entries => readEntries allowed context [] entries
  | _ => invalid ("non-object " ++ context)

/-- `RequireField`. -/
def requireField (fields : ObjectFields) (field context : String) : Except String Node :=
  match fields.lookup field with
  | some node => .ok node
  | none => invalid ("missing " ++ context ++ " field: " ++ field)

/-- A field with a default. -/
def optionalField {α : Type} (fields : ObjectFields) (field : String) (fallback : α)
    (read : Node → Except String α) : Except String α :=
  match fields.lookup field with
  | some node => read node
  | none => .ok fallback

/-! ## Texts -/

/-- `IsDecimalPort`. -/
def isDecimalPort (value : Bytes) : Bool :=
  match fromChars value with
  | some port => 1 ≤ port && port ≤ 65535
  | none => false

/-- The end of `IsValidRouteHost`, without a port. -/
def isHostName (host : Bytes) : Bool :=
  if host.isEmpty || host.head? == some 46 || host.getLast? == some 46 then false
  else host.all fun c => isalnum c || c == 45 || c == 46

/-- `IsValidRouteHost`. -/
def isValidRouteHost (host : Bytes) : Bool :=
  if host.isEmpty || 253 < host.length || host.contains 91 || host.contains 93 then false
  else match find [58] host with
    | none => isHostName host
    | some colon =>
      if (host.drop (colon + 1)).contains 58 || !isDecimalPort (host.drop (colon + 1)) then false
      else isHostName (host.take colon)

/-- One turn of the loop of `ParseNumericIpv4`: the component, and what follows the dot after
it. -/
def ipv4Component (host : Bytes) : Option (UInt8 × Option Bytes) :=
  let dot := find [46] host
  let part := match dot with
    | none => host
    | some dot => host.take dot
  if 3 < part.length then none
  else match decimal part with
    | none => none
    | some value =>
      if 255 < value then none
      else some (.ofNat value, dot.map fun dot => host.drop (dot + 1))

/-- `ParseNumericIpv4`: four components, and no dot after the last. -/
def parseNumericIpv4 (host : Bytes) : Option (Vector UInt8 4) :=
  match ipv4Component host with
  | some (a, some rest) => match ipv4Component rest with
    | some (b, some rest) => match ipv4Component rest with
      | some (c, some rest) => match ipv4Component rest with
        | some (d, none) => some #v[a, b, c, d]
        | _ => none
      | _ => none
    | _ => none
  | _ => none

/-- `IsValidPathPrefix`; its loop is that of `IsValidUriComponent` for a path. -/
def isValidPathPrefix (pathPrefix : Bytes) : Bool :=
  pathPrefix.head? == some 47 && isValidUriComponent false pathPrefix

/-- `ParseThresholdPermille`: `0.` and one to three digits. -/
def parseThresholdPermille (field : String) : Except String UInt32 := do
  let value ← requireString node field
  let bytes := textBytes value
  if bytes.length < 3 ∨ bytes.take 2 ≠ [48, 46] then invalid ("invalid " ++ field)
  else
    let fraction := bytes.drop 2
    if 3 < fraction.length then invalid ("invalid " ++ field)
    else match decimal fraction with
      | none => invalid ("invalid " ++ field)
      | some digits =>
        let permille := digits * 10 ^ (3 - fraction.length)
        if permille = 0 ∨ 999 < permille then invalid ("out-of-range " ++ field)
        else .ok (.ofNat permille)

/-! ## Objects -/

/-- `ParseCircuitBreaker`. -/
def parseCircuitBreaker : Except String CircuitBreakerSettings := do
  let fields ← readObject node
    ["window_seconds", "min_requests", "failure_threshold", "open_seconds", "half_open_probes"]
    "circuit_breaker"
  let positive := fun field => do
    let node ← requireField fields field "circuit_breaker"
    requirePositiveUnsigned node field maxUint32
  let windowSeconds ← positive "window_seconds"
  let minRequests ← positive "min_requests"
  let threshold ← requireField fields "failure_threshold" "circuit_breaker"
  let failureThresholdPermille ← parseThresholdPermille threshold "failure_threshold"
  let openSeconds ← positive "open_seconds"
  let halfOpenProbes ← positive "half_open_probes"
  .ok { windowSeconds, minRequests, failureThresholdPermille, openSeconds, halfOpenProbes }

/-- `ParseHealthCheck`. -/
def parseHealthCheck : Except String HealthCheckSettings := do
  let fields ← readObject node ["interval_ms", "timeout_ms"] "health_check"
  let positive := fun field => do
    let node ← requireField fields field "health_check"
    requirePositiveUnsigned node field maxUint32
  let intervalMs ← positive "interval_ms"
  let timeoutMs ← positive "timeout_ms"
  .ok { intervalMs, timeoutMs }

/-- `ParseEndpoint`. -/
def parseEndpoint : Except String Endpoint := do
  let fields ← readObject node ["host", "port", "weight"] "endpoint"
  let hostNode ← requireField fields "host" "endpoint"
  let host ← requireString hostNode "endpoint host"
  let portNode ← requireField fields "port" "endpoint"
  let port ← requirePositiveUnsigned portNode "endpoint port" 65535
  let weightNode ← requireField fields "weight" "endpoint"
  let weight ← requirePositiveUnsigned weightNode "endpoint weight" maxUint32
  match parseNumericIpv4 (textBytes host) with
  | none => invalid "unsupported endpoint host"
  | some address => .ok { host, address, port := port.toUInt16, weight }

/-- The balance of `ParseRoute`. -/
def parseBalance : Except String BalancePolicy := do
  let value ← requireString node "route balance"
  if value = "weighted_round_robin" then .ok .weightedRoundRobin
  else if value = "least_active" then .ok .leastActive
  else invalid ("invalid route balance: " ++ value)

/-- Two endpoints of a route differ in address or port. -/
def Distinct (a b : Endpoint) : Prop := ¬ (a.address = b.address ∧ a.port = b.port)

instance : DecidableRel Distinct := fun a b =>
  inferInstanceAs (Decidable ¬ (a.address = b.address ∧ a.port = b.port))

/-- The endpoints of `ParseRoute`. -/
def parseEndpoints : Except String (List Endpoint) :=
  match node with
  | .sequence (first :: rest) => do
      let endpoints ← (first :: rest).mapM parseEndpoint
      if ¬ endpoints.Pairwise Distinct then invalid "duplicate endpoint address and port"
      else .ok endpoints
  | _ => invalid "empty or invalid endpoints"

/-- `ParseRoute`. -/
def parseRoute : Except String Route := do
  let fields ← readObject node
    ["name", "host", "path_prefix", "endpoints", "rate_limit", "burst", "max_inflight",
      "connect_timeout_ms", "first_byte_timeout_ms", "total_timeout_ms", "retry_budget",
      "circuit_breaker", "health_check", "balance"]
    "route"
  let text := fun field => do
    let node ← requireField fields field "route"
    requireString node ("route " ++ field)
  let positive := fun field => do
    let node ← requireField fields field "route"
    requirePositiveUnsigned node field maxUint32
  let optionalPositive := fun field fallback =>
    optionalField fields field fallback (requirePositiveUnsigned · field maxUint32)
  let name ← text "name"
  let host ← text "host"
  let pathPrefix ← text "path_prefix"
  let rateLimit ← positive "rate_limit"
  let burst ← positive "burst"
  let maxInflight ← positive "max_inflight"
  let connectTimeoutMs ← optionalPositive "connect_timeout_ms" 5000
  let firstByteTimeoutMs ← optionalPositive "first_byte_timeout_ms" 5000
  let totalTimeoutMs ← optionalPositive "total_timeout_ms" 30000
  let retryBudget ← optionalField fields "retry_budget" 1 requireRetryBudget
  let circuitBreaker ← optionalField fields "circuit_breaker" none
    fun node => some <$> parseCircuitBreaker node
  let healthCheck ← optionalField fields "health_check" none
    fun node => some <$> parseHealthCheck node
  let balance ← optionalField fields "balance" .weightedRoundRobin parseBalance
  if !isValidRouteHost (textBytes host) then invalid "invalid route host"
  else if !isValidPathPrefix (textBytes pathPrefix) then invalid "invalid route path_prefix"
  else do
    let endpointsNode ← requireField fields "endpoints" "route"
    let endpoints ← parseEndpoints endpointsNode
    .ok { name, host, pathPrefix, endpoints, rateLimit, burst, maxInflight, connectTimeoutMs
          firstByteTimeoutMs, totalTimeoutMs, retryBudget, circuitBreaker, healthCheck, balance }

end

/-- What two routes may not share: the host and the prefix. -/
def Route.matchKey (route : Route) : Bytes :=
  lowerAscii (textBytes route.host) ++ [10] ++ textBytes route.pathPrefix

/-- The loop of `LoadFromYaml`. -/
def loadRoutes (names : List String) (matchKeys : List Bytes) :
    List Node → Except String (List Route)
  | [] => .ok []
  | node :: nodes => do
      let route ← parseRoute node
      if route.name ∈ names then invalid "duplicate route name"
      else if route.matchKey ∈ matchKeys then invalid "duplicate route host and path_prefix"
      else do
        let routes ← loadRoutes (route.name :: names) (route.matchKey :: matchKeys) nodes
        .ok (route :: routes)

/-- `LoadFromYaml`, from what `YAML::Load` delivers. -/
def loadFromYaml (document : Except String Node) : Except String Config :=
  match document with
  | .error what => invalid what
  | .ok document => do
      let topLevel ← readObject document ["routes", "workers"] "top-level"
      let routesNode ← requireField topLevel "routes" "top-level"
      match routesNode with
      | .sequence (first :: rest) => do
          let workers ← optionalField topLevel "workers" 1
            (requirePositiveUnsigned · "workers" 1024)
          let routes ← loadRoutes [] [] (first :: rest)
          .ok { routes, workers }
      | _ => invalid "empty or invalid routes"

end AegisGate.Config
