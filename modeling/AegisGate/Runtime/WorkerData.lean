import AegisGate.Runtime.RuntimeGeneration
import AegisGate.Runtime.TryAdmit

/-!
# The leases of one worker across reloads

A worker keeps a balance for every route of every generation it has admitted requests under,
by the version of the generation. `HandleRequest` reads the published generation, takes a
request lease on it and calls `TryAdmit`; the worker is one thread, but the control loop, the
other workers and the coordinators act in between. A balance goes back to the admission it
was drawn from when it runs low, when the generation retires and when the worker shuts down.

Admissions are shared objects; `heap` holds all that were made and an address is an index.
The ledger records what this worker drew, passed and returned, and no branch reads it.
-/

namespace AegisGate.Runtime
open Lib Resilience Function List

/-- The balances of one generation, with the admissions they were drawn from. -/
structure LeaseBalance where
  admissions : List ℕ
  balances : List UInt32

def LeaseBalance.tokens (lb : LeaseBalance) (route : ℕ) : ℕ := (lb.balances.getD route 0).toNat

/-- Tokens held for a route of a version. -/
def tokensOf (balances : AList (fun _ : ℕ => LeaseBalance)) (version route : ℕ) : ℕ :=
  match balances.lookup version with
  | none => 0
  | some lb => lb.tokens route

/-- Where `HandleRequest` is: it has read the generation, or it holds a request lease and is
in `TryAdmit`. -/
inductive RequestPhase
  | loaded
  | leased (phase : AdmitPhase)
  deriving DecidableEq

/-- A request inside `HandleRequest`; the generation is the number of the one it read. -/
structure AdmitRequest where
  generation : ℕ
  route : ℕ
  phase : RequestPhase := .loaded
  deriving DecidableEq

/-- What this worker has drawn from and returned to an admission, and the requests it has
passed for a route of a generation. -/
structure LeaseLedger where
  drawn : ℕ → ℕ := fun _ => 0
  returned : ℕ → ℕ := fun _ => 0
  passed : ℕ → ℕ → ℕ := fun _ _ => 0

/-- The ledger after a piece of `TryAdmit` on an admission. -/
def LeaseLedger.record (l : LeaseLedger) (a : ℕ) (req : AdmitRequest) (before after : LeaseCall)
    (result : Option Bool) : LeaseLedger where
  drawn := if before.phase = .returned then
      update l.drawn a (l.drawn a + after.balance.toNat) else l.drawn
  returned := if after.phase = .returned then
      update l.returned a (l.returned a + before.balance.toNat) else l.returned
  passed := fun i r =>
    if i = req.generation ∧ r = req.route ∧ result = some true then l.passed i r + 1
    else l.passed i r

/-- The worker and what it shares with the gateway. The last generation is the published one;
`retired` are those whose balance this worker has returned at the gateway's request. -/
structure WorkerData where
  heap : List GlobalAdmission
  generations : List RuntimeGeneration
  leaseBalances : AList (fun _ : ℕ => LeaseBalance) := ∅
  call : Option AdmitRequest := none
  ledger : LeaseLedger := {}
  retired : List ℕ := []

namespace WorkerData

/-- The constructor of a generation: an admission for each route. -/
def build (heap : List GlobalAdmission) (version : ℕ) (workers : UInt32)
    (routes : List AdmissionLimits) (now : ℤ) : List GlobalAdmission × RuntimeGeneration :=
  (heap ++ routes.map fun limits => .create limits now,
    { version, admissions := range' heap.length routes.length, workers })

def create (workers : UInt32) (routes : List AdmissionLimits) (now : ℤ) : WorkerData where
  heap := (build [] 1 workers routes now).1
  generations := [(build [] 1 workers routes now).2]

section
variable (s : WorkerData)

/-- `RequestReload`, as far as the workers see it: a generation of the next version and the
same number of workers is published. -/
def publish (routes : List AdmissionLimits) (now : ℤ) : Option WorkerData :=
  s.generations.getLast?.map fun previous =>
    let (heap, generation) := build s.heap (previous.version + 1) previous.workers routes now
    { s with heap, generations := s.generations ++ [generation] }

def balance (version route : ℕ) : ℕ := tokensOf s.leaseBalances version route

/-! ## A request -/

/-- `HandleRequest` reads the published generation; the route is the one the request
matches. -/
def handleRequest (route : ℕ) : WorkerData :=
  { s with call := some { generation := s.generations.length - 1, route } }

def releaseLease (i : ℕ) : Option WorkerData :=
  (s.generations[i]?.bind RuntimeGeneration.releaseRequestLease).map fun released =>
    { s with generations := s.generations.set i released.1 }

/-- `TryAcquireRequestLease` in `HandleRequest`; without one the request is answered 503. -/
def acquireLease (req : AdmitRequest) : Option WorkerData :=
  s.generations[req.generation]?.map fun g =>
    match g.tryAcquireRequestLease with
    | none => { s with call := none }
    | some g =>
      { s with
        generations := s.generations.set req.generation g
        call := some { req with phase := .leased .idle } }

/-- `lease_balances_.try_emplace`. -/
def emplaced (g : RuntimeGeneration) : LeaseBalance :=
  (s.leaseBalances.lookup g.version).getD
    { admissions := g.admissions, balances := replicate g.admissions.length 0 }

/-- The end of `HandleRequest`: an admitted request keeps its lease, a rejected one is
answered 429 and gives it back. -/
def endCall (req : AdmitRequest) (admitted : Bool) : Option WorkerData :=
  if admitted then some { s with call := none }
  else { s with call := none }.releaseLease req.generation

def tryAdmit (req : AdmitRequest) (phase : AdmitPhase) : Option WorkerData :=
  s.generations[req.generation]?.bind fun g =>
    match g.admissions[req.route]? with
    | none => s.endCall req false
    | some a =>
      s.heap[a]?.bind fun admission =>
        let entry := s.emplaced g
        let before : LeaseCall := ⟨phase, entry.balances.getD req.route 0⟩
        let batch := leaseBatch admission.limits.rate g.workers admission.limits.burst
        let (after, admission, result) := before.advance batch admission
        let t : WorkerData := { s with
          heap := s.heap.set a admission
          ledger := s.ledger.record a req before after result
          -- The entry is looked up after the in-flight slot was taken.
          leaseBalances := if phase = .idle then s.leaseBalances else
            s.leaseBalances.insert g.version
              { entry with balances := entry.balances.set req.route after.balance } }
        match result with
        | none => some { t with call := some { req with phase := .leased after.phase } }
        | some admitted => t.endCall req admitted

/-! ## The other ways back -/

/-- One turn of the loops that return balances. -/
def returnRoute (version route : ℕ) : WorkerData :=
  match s.leaseBalances.lookup version with
  | none => s
  | some lb =>
    match lb.admissions[route]?, lb.balances[route]? with
    | some a, some tokens =>
      { s with
        heap := s.heap.modify a (·.return_ tokens)
        ledger := { s.ledger with
          returned := update s.ledger.returned a
            (s.ledger.returned a + tokens.toNat) }
        leaseBalances :=
          s.leaseBalances.insert version { lb with balances := lb.balances.set route 0 } }
    | _, _ => s

def returnEntry (version : ℕ) : WorkerData :=
  match s.leaseBalances.lookup version with
  | none => s
  | some lb => (range (min lb.balances.length lb.admissions.length)).foldl
      (fun s route => s.returnRoute version route) s

/-- `Shutdown`, up to the connections. -/
def shutdown : WorkerData :=
  s.leaseBalances.keys.foldl (fun s version => s.returnEntry version) s

/-- All balances of a version go back. -/
def returnGenerationLeaseBalance (version : ℕ) : WorkerData :=
  match s.leaseBalances.lookup version with
  | none => s
  | some _ =>
    let s := s.returnEntry version
    { s with leaseBalances := s.leaseBalances.erase version }

/-! ## The gateway -/

/-- One step. Generations are named by their number, admissions by their address. -/
inductive Event
  | publish (routes : List AdmissionLimits) (now : ℤ)
  | request (route : ℕ)
  /-- The next piece of `HandleRequest`. -/
  | advance
  | control (generation : ℕ) (c : RuntimeGeneration.Control)
  /-- Another worker's request takes a lease. -/
  | otherLease (generation : ℕ)
  /-- A request is over and its lease released, here or on another worker. -/
  | finish (generation : ℕ)
  /-- A call of another worker or of the coordinator on an admission. -/
  | others (admission : ℕ) (op : CreditOp)
  | othersInflight (admission : ℕ)
  | releaseInflight (admission : ℕ)
  /-- The task the gateway posts once the last lease of a generation was reported. -/
  | returnBalance (generation : ℕ)
  | shutdown

/-- Request leases of a generation that the request in `HandleRequest` holds. -/
def heldByCall (i : ℕ) : ℕ :=
  match s.call with
  | some { generation := j, phase := .leased _, .. } => if j = i then 1 else 0
  | _ => 0

/-- One step. A task runs on the worker's thread, so not inside `HandleRequest`. -/
def step : Event → Option WorkerData
  | .publish routes now => s.publish routes now
  | .request route => if s.call.isSome then none else some (s.handleRequest route)
  | .advance => s.call.bind fun req =>
    match req.phase with
    | .loaded => s.acquireLease req
    | .leased phase => s.tryAdmit req phase
  | .control i c => s.generations[i]?.map fun g =>
    { s with generations := s.generations.set i (g.control c) }
  | .otherLease i => (s.generations[i]?.bind RuntimeGeneration.tryAcquireRequestLease).map fun g =>
    { s with generations := s.generations.set i g }
  | .finish i => s.generations[i]?.bind fun g =>
    if g.activeRequestLeases ≤ s.heldByCall i then none else s.releaseLease i
  | .others a op => some { s with heap := s.heap.modify a (·.perform op) }
  | .othersInflight a =>
    some { s with heap := s.heap.modify a fun g => g.tryAcquireInflight.getD g }
  | .releaseInflight a => some { s with heap := s.heap.modify a (·.releaseOne) }
  | .returnBalance i => s.generations[i]?.bind fun g =>
    if s.call.isSome ∨ g.retirementNotified = false then none
    else some { s.returnGenerationLeaseBalance g.version with retired := i :: s.retired }
  | .shutdown => if s.call.isSome then none else some s.shutdown

end

end WorkerData
end AegisGate.Runtime
