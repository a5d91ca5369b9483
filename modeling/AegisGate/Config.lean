import Mathlib

/-!
# Configuration values

The value objects a configuration document is parsed into. Unsigned fields keep the
width of the source.
-/

namespace AegisGate

namespace Config

/-- `127.0.0.1`. -/
def loopback : Vector UInt8 4 := #v[127, 0, 0, 1]

structure Endpoint where
  host : String
  address : Vector UInt8 4
  port : UInt16
  weight : UInt32
  deriving DecidableEq

/-- A server on this machine. -/
def localEndpoint : Endpoint where
  host := "127.0.0.1"
  address := loopback
  port := 8080
  weight := 1

/-- The object `circuit_breaker`. -/
structure CircuitBreakerSettings where
  windowSeconds : UInt32
  minRequests : UInt32
  failureThresholdPermille : UInt32
  openSeconds : UInt32
  halfOpenProbes : UInt32
  deriving DecidableEq

/-- The object `health_check`. -/
structure HealthCheckSettings where
  intervalMs : UInt32
  timeoutMs : UInt32
  deriving DecidableEq

inductive BalancePolicy
  | weightedRoundRobin
  | leastActive
  deriving DecidableEq

structure Route where
  name : String
  host : String
  pathPrefix : String
  endpoints : List Endpoint := []
  rateLimit : UInt32 := 0
  burst : UInt32 := 0
  maxInflight : UInt32 := 0
  connectTimeoutMs : UInt32 := 5000
  firstByteTimeoutMs : UInt32 := 5000
  totalTimeoutMs : UInt32 := 30000
  retryBudget : UInt32 := 1
  circuitBreaker : Option CircuitBreakerSettings := none
  healthCheck : Option HealthCheckSettings := none
  balance : BalancePolicy := .weightedRoundRobin
  deriving DecidableEq

end Config

/-- A configuration, as far as the model reads it. -/
structure Config where
  routes : List Config.Route
  workers : UInt32 := 1
  deriving DecidableEq

end AegisGate
