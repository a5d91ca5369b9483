import AegisGate.Routing.WeightedRoundRobin
import AegisGate.Runtime.AttemptSelector

/-!
# The selection of an endpoint

Every worker has a `SelectionState`: for each route a weighted rotation and the number of active
attempts of each endpoint. An `AttemptSelector` belongs to one request; it remembers which
endpoints it has tried, and picks the next by the policy of the route. With the weighted policy it
advances the rotation once for every endpoint of the route and takes the first owner that is new
and eligible. With the least-active policy it scans all endpoints.
-/

namespace AegisGate.Runtime
open Lib Routing Health List

/-- The selectors and counts of one worker. -/
structure SelectionState where
  config : Config
  selectors : List WeightedRoundRobin
  activeCounts : Grid UInt32
  /-- The selectors hold copies of the endpoints of their routes. -/
  copies : selectors.map WeightedRoundRobin.endpoints = config.routes.map Config.Route.endpoints

namespace SelectionState

lemma copies_of_mapM {routes : List Config.Route} {selectors : List WeightedRoundRobin}
    (h : (routes.mapM fun route => WeightedRoundRobin.create route.endpoints) = some selectors) :
    selectors.map WeightedRoundRobin.endpoints = routes.map Config.Route.endpoints := by
  refine List.ext_getElem? fun i => ?_
  rw [List.getElem?_map, List.getElem?_map, getElem?_of_mapM h]
  cases hi : routes[i]? with
  | none => rfl
  | some route =>
    have hlength := length_of_mapM h
    obtain ⟨hlt, -⟩ := List.getElem?_eq_some_iff.mp hi
    obtain ⟨selector, hselector⟩ : ∃ selector, selectors[i]? = some selector :=
      ⟨_, List.getElem?_eq_getElem (by omega)⟩
    rw [getElem?_of_mapM h, hi, Option.bind_some] at hselector
    rw [Option.bind_some, hselector, Option.map_some, Option.map_some]
    rw [WeightedRoundRobin.create] at hselector
    split at hselector
    · cases hselector
    · split at hselector
      · cases hselector
      · cases hselector
        rfl

/-- The constructor; `none` is the exception of a selector's. -/
def create (config : Config) : Option SelectionState :=
  match h : config.routes.mapM fun route => WeightedRoundRobin.create route.endpoints with
  | none => none
  | some selectors =>
    some {
      config
      selectors
      activeCounts := config.routes.map fun route => route.endpoints.map fun _ => 0
      copies := copies_of_mapM h }

variable (s : SelectionState)

def endpointsOf (route : ℕ) : List Config.Endpoint :=
  ((s.config.routes[route]?).map Config.Route.endpoints).getD []

/-- `Next` on the selector of a route. -/
def advance (route : ℕ) : SelectionState where
  config := s.config
  selectors := s.selectors.modify route WeightedRoundRobin.advance
  activeCounts := s.activeCounts
  copies := by
    rw [← s.copies]
    refine ext_getElem? fun i => ?_
    rw [getElem?_map, getElem?_map, getElem?_modify]
    split
    · cases s.selectors[i]? <;> rfl
    · simp

/-- The first endpoint with the address and port of the selected one. -/
def matchIndex (endpoints : List Config.Endpoint) (selected : Config.Endpoint) : Option ℕ :=
  endpoints.findIdx? fun endpoint =>
    endpoint.address == selected.address && endpoint.port == selected.port

def nextWeightedIndex (route : ℕ) : SelectionState × Option ℕ :=
  match s.selectors[route]? with
  | none => (s, none)
  | some selector => (s.advance route, selector.next.1.bind (matchIndex (s.endpointsOf route)))

/-- The attempts of this worker on an endpoint. -/
def activeFor (route endpoint : ℕ) : UInt32 := (s.activeCounts.cell route endpoint).getD 0

def acquireActive (route endpoint : ℕ) : SelectionState :=
  { s with activeCounts := s.activeCounts.update route endpoint (· + 1) }

/-- The endpoints from the cursor's owner around. -/
def rotation (start count : ℕ) : List ℕ :=
  (range count).map fun step => (start + step) % count

/-- `NextLeastActiveIndex`: a pass for the minimum, and a pass for the first that has it. -/
def nextLeastActiveIndex (route : ℕ) (tried : Finset ℕ) (eligible : ℕ → Bool) :
    SelectionState × Option ℕ :=
  match s.selectors[route]? with
  | none => (s, none)
  | some selector =>
    let endpoints := s.endpointsOf route
    if endpoints.length = 0 then (s, none)
    else match selector.next.1.bind (matchIndex endpoints) with
      | none => (s.advance route, none)
      | some start =>
        let candidates := (rotation start endpoints.length).filter fun index =>
          decide (index ∉ tried) && eligible index
        let minimum := candidates.foldl (fun m index => min m (s.activeFor route index))
          (UInt32.ofNat (2 ^ 32 - 1))
        (s.advance route, if candidates = [] then none
          else candidates.find? fun index => s.activeFor route index = minimum)

end SelectionState

/-! ## The selector of a request -/

/-- `MakeSelection` was refused an outcome slot. -/
def Traffic.outcomeRefused (w : Traffic) (snapshot : HealthCircuitSnapshot) (route endpoint : ℕ) :
    Bool :=
  (snapshot.endpoints.cell route endpoint).any fun decision =>
    decision.generation != 0 && (w.takePermit snapshot route endpoint decision).2.isSome &&
      !w.reservable route

/-- The coordinator, the worker's selection state, and the `AttemptSelector` of a request. -/
structure AttemptSelector where
  traffic : Traffic
  selection : SelectionState
  tried : Finset ℕ := ∅
  overload : Bool := false

namespace AttemptSelector
variable (s : AttemptSelector) (snapshot : HealthCircuitSnapshot) (route : ℕ)

def eligible (index : ℕ) : Bool := s.traffic.eligible snapshot route index

/-- `MakeSelection`, with the active count it takes. -/
def makeSelection (index : ℕ) : AttemptSelector × Bool :=
  let (traffic, selected) := s.traffic.makeSelection snapshot route index
  if selected then
    ({ s with traffic, selection := s.selection.acquireActive route index }, true)
  else
    ({ s with
        traffic
        overload := s.overload || s.traffic.outcomeRefused snapshot route index }, false)

/-- The loop of `Select` for the weighted policy. -/
def selectWeighted (s : AttemptSelector) : ℕ → AttemptSelector × Option ℕ
  | 0 => (s, none)
  | attempts + 1 =>
    let (selection, index) := s.selection.nextWeightedIndex route
    let s : AttemptSelector := { s with selection }
    match index with
    | none => s.selectWeighted attempts
    | some index =>
      if index ∈ s.tried then s.selectWeighted attempts
      else
        let s : AttemptSelector := { s with tried := insert index s.tried }
        if s.eligible snapshot route index then
          match s.makeSelection snapshot route index with
          | (s, true) => (s, some index)
          | (s, false) => s.selectWeighted attempts
        else s.selectWeighted attempts

/-- The loop of `Select` for the least-active policy; `none` when the fuel is used up. -/
def selectLeastActive (s : AttemptSelector) : ℕ → Option (AttemptSelector × Option ℕ)
  | 0 => none
  | fuel + 1 =>
    let (selection, index) :=
      s.selection.nextLeastActiveIndex route s.tried (s.eligible snapshot route)
    let s : AttemptSelector := { s with selection }
    match index with
    | none => some (s, none)
    | some index =>
      let s : AttemptSelector := { s with tried := insert index s.tried }
      match s.makeSelection snapshot route index with
      | (s, true) => some (s, some index)
      | (s, false) => s.selectLeastActive fuel

/-- `Select`: the chosen endpoint, if any. A scan of the least-active policy marks an endpoint as
tried, so there are at most as many as the route has, and one that finds none. -/
def select (leastActive : Bool) : Option (AttemptSelector × Option ℕ) :=
  let s : AttemptSelector := { s with overload := false }
  let count := (s.selection.endpointsOf route).length
  if leastActive then s.selectLeastActive snapshot route (count + 1)
  else some (s.selectWeighted snapshot route count)

end AttemptSelector
end AegisGate.Runtime
