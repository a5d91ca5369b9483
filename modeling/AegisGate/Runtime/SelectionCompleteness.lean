import AegisGate.Runtime.Probes
import AegisGate.Runtime.SelectionState

/-!
# When the selection finds an endpoint

The least-active policy scans every endpoint of the route, so it finds one whenever there is one
to find. The weighted policy advances the rotation as often as the route has endpoints, and an
endpoint of weight two takes two of these turns: what the turns do not reach is not found. So a
request can be refused although an untried endpoint is healthy, and which one is refused depends
on where other requests have left the cursor.
-/

namespace AegisGate.Runtime
open Lib Routing Health List Traffic Option

/-! ## Attempts that can start -/

namespace Traffic

/-- An attempt on the endpoint can start: it is eligible and, if it has a breaker, an outcome slot
can be reserved and a half-open cycle is still the one the snapshot shows. -/
def Usable (w : Traffic) (shown : HealthCircuitSnapshot) (route i : ℕ) : Prop :=
  w.eligible shown route i ∧
    ∀ decision, shown.endpoints.cell route i = some decision → decision.generation ≠ 0 →
      w.reservable route ∧
        (decision.breakerState = .halfOpen → decision.probeSlots = w.state.slotAt route i)

variable {w : Traffic} {shown : HealthCircuitSnapshot} {route i j : ℕ}

lemma eligible_cases (h : w.eligible shown route i) :
    ∃ decision, shown.endpoints.cell route i = some decision ∧
      (decision.breakerState = .halfOpen → w.state.probeAvailable route i) := by
  obtain ⟨decision, hcell, hdecision⟩ := (Option.any_eq_true ..).mp h
  refine ⟨decision, hcell, fun hhalf => ?_⟩
  simp only [hhalf, beq_self_eq_true, Bool.true_and, Bool.not_not, Bool.and_eq_true] at hdecision
  exact hdecision.2

lemma claimProbe_of_available {s : CoordinatorState} {decision : EndpointDecision}
    (hcell : shown.endpoints.cell route i = some decision)
    (hhalf : decision.breakerState = .halfOpen) (hslots : decision.probeSlots = s.slotAt route i)
    (havailable : s.probeAvailable route i) :
    ∃ permit, (s.claimProbe route i shown).2 = some permit := by
  rw [CoordinatorState.probeAvailable] at havailable
  split at havailable
  · cases havailable
  next object hobject =>
  obtain ⟨address, haddress, hobject⟩ := bind_eq_some_iff.mp hobject
  have hremaining : ¬ object.remaining = 0 := by
    have hpos := of_decide_eq_true havailable
    omega
  have hshown : decision.probeSlots = some address := hslots.trans haddress
  rw [CoordinatorState.claimProbe]
  simp only [hcell, hhalf, ne_eq, not_true_eq_false, if_false, hshown, bind_some, hobject,
    map_some, hremaining, haddress]
  exact ⟨_, rfl⟩

lemma Usable.makeSelection (h : w.Usable shown route i) :
    (w.makeSelection shown route i).2 := by
  obtain ⟨heligible, hbreaker⟩ := h
  obtain ⟨decision, hcell, hprobe⟩ := eligible_cases heligible
  have hreserve (w : Traffic) (permit : AttemptPermit) (hw : w.reservable route) :
      (w.reserve route i permit).2 := by
    rw [reserve, if_pos hw]
  rw [Traffic.makeSelection, hcell]
  dsimp only
  split
  · rfl
  next hgeneration =>
  obtain ⟨hreservable, hcurrent⟩ := hbreaker decision hcell hgeneration
  by_cases hhalf : decision.breakerState = .halfOpen
  · obtain ⟨permit, hpermit⟩ :=
      claimProbe_of_available hcell hhalf (hcurrent hhalf) (hprobe hhalf)
    rw [takePermit, if_pos hhalf]
    rcases hclaim : w.state.claimProbe route i shown with ⟨s, claimed⟩
    rw [hclaim] at hpermit
    cases hpermit
    exact hreserve { w with state := s } permit hreservable
  · rw [takePermit, if_neg hhalf]
    exact hreserve w _ hreservable

/-- A probe is handed out from the object of the current cycle only. -/
lemma slotAt_of_claimProbe {s s' : CoordinatorState} {decision : EndpointDecision}
    {permit : AttemptPermit} (hcell : shown.endpoints.cell route i = some decision)
    (hclaim : s.claimProbe route i shown = (s', some permit)) :
    decision.probeSlots = s.slotAt route i := by
  rcases s.claimProbe_cases route i shown with hnone |
    ⟨decision', address, object, hcell', haddress, -, -, ⟨-, hvoid⟩ | ⟨hcurrent, -⟩⟩
  · rw [hnone] at hclaim
    cases hclaim
  · rw [hvoid] at hclaim
    cases hclaim
  · cases hcell.symm.trans hcell'
    exact haddress.trans hcurrent.symm

/-- An eligible endpoint for which there is a selection could be used. -/
lemma usable_of_makeSelection (heligible : w.eligible shown route i)
    (hmade : (w.makeSelection shown route i).2) : w.Usable shown route i := by
  refine ⟨heligible, fun decision hcell hgeneration => ?_⟩
  have hreserve (w : Traffic) (permit : AttemptPermit) (h : (w.reserve route i permit).2) :
      w.reservable route := by
    by_contra hnot
    rw [reserve, if_neg hnot] at h
    cases h
  rw [makeSelection, hcell] at hmade
  dsimp only at hmade
  rw [if_neg hgeneration] at hmade
  by_cases hhalf : decision.breakerState = .halfOpen
  · rw [takePermit, if_pos hhalf] at hmade
    rcases hclaim : w.state.claimProbe route i shown with ⟨s, _ | permit⟩
    · rw [hclaim] at hmade
      cases hmade
    · rw [hclaim] at hmade
      exact ⟨hreserve { w with state := s } permit hmade,
        fun _ => slotAt_of_claimProbe hcell hclaim⟩
  · rw [takePermit, if_neg hhalf] at hmade
    exact ⟨hreserve w _ hmade, fun h => absurd h hhalf⟩

lemma makeSelection_frame (hw : Owned w.state w.published) (hshown : shown ∈ w.published)
    (hfailed : (w.makeSelection shown route j).2 = false) (hne : i ≠ j) :
    (w.makeSelection shown route j).1.eligible shown route i = w.eligible shown route i ∧
      (w.makeSelection shown route j).1.reservable route = w.reservable route ∧
      (w.makeSelection shown route j).1.state.slotAt route i = w.state.slotAt route i := by
  obtain ⟨hstate, -, hsame⟩ := makeSelection_cases w shown route j
  rw [hsame hfailed]
  -- the claim changes the object of another endpoint
  have hkeep : (w.makeSelection shown route j).1.state.slotAt route i = w.state.slotAt route i ∧
      (w.makeSelection shown route j).1.state.probeAvailable route i =
        w.state.probeAvailable route i := by
    rcases hstate with hstate | hstate
    · rw [hstate]
      exact ⟨rfl, rfl⟩
    rw [hstate]
    rcases claimProbe_fst w.state route j shown with
      heq | ⟨decision, address, object, hcell, hdecision, heq⟩
    · rw [heq]
      exact ⟨rfl, rfl⟩
    rw [heq]
    refine ⟨rfl, ?_⟩
    obtain ⟨-, hown⟩ := hw.named shown hshown route j decision address hcell hdecision
    have hget (a : ℕ) (ha : w.state.slotAt route i = some a) :
        (w.state.slots.set address object)[a]? = w.state.slots[a]? := by
      refine getElem?_set_ne ?_
      rintro rfl
      exact hne (hown route i ha).2.symm
    rw [CoordinatorState.probeAvailable]
    erw [bind_congr hget]
    rfl
  refine ⟨?_, rfl, hkeep.1⟩
  rw [eligible, eligible]
  rw [hkeep.2]

lemma usable_of_failed (hw : Owned w.state w.published) (hshown : shown ∈ w.published)
    (hfailed : (w.makeSelection shown route j).2 = false) (hne : i ≠ j) :
    (w.makeSelection shown route j).1.Usable shown route i ↔ w.Usable shown route i := by
  obtain ⟨heligible, hreservable, hslot⟩ := makeSelection_frame hw hshown hfailed hne
  rw [Usable, heligible, hreservable, hslot]
  rfl

end Traffic

/-! ## What the policies propose -/

namespace SelectionState
variable {s : SelectionState} {route : ℕ}

/-- The endpoint of a turn of the weighted rotation, counted from the cursor. -/
def offered (s : SelectionState) (route k : ℕ) : Option ℕ :=
  (s.selectors[route]?).bind fun selector =>
    (WeightedRoundRobin.owner ((selector.nextWeight + k) % totalWeight selector.endpoints) 0
      selector.endpoints).bind (matchIndex (s.endpointsOf route))

/-- The policy comes to the endpoint: the least-active policy to every endpoint of the route, the
weighted one in its turns. -/
def Proposes (s : SelectionState) (leastActive : Bool) (route i : ℕ) : Prop :=
  if leastActive then i < (s.endpointsOf route).length
  else ∃ k < (s.endpointsOf route).length, s.offered route k = some i

lemma selector_endpoints {selector : WeightedRoundRobin}
    (h : s.selectors[route]? = some selector) : selector.endpoints = s.endpointsOf route := by
  have hcopies := congrArg (fun l => l[route]?) s.copies
  simp only [getElem?_map, h, map_some] at hcopies
  rw [endpointsOf, ← hcopies, getD_some]

lemma selectors_length (s : SelectionState) : s.selectors.length = s.config.routes.length := by
  have hcopies := congrArg length s.copies
  rwa [length_map, length_map] at hcopies

lemma nextWeightedIndex_eq (s : SelectionState) (route : ℕ) :
    (s.nextWeightedIndex route).2 = s.offered route 0 ∧
      (s.nextWeightedIndex route).1.endpointsOf route = s.endpointsOf route ∧
      ∀ k, (s.nextWeightedIndex route).1.offered route k = s.offered route (k + 1) := by
  cases hselector : s.selectors[route]? with
  | none =>
    rw [nextWeightedIndex, hselector]
    refine ⟨?_, rfl, fun k => ?_⟩ <;> simp [offered, hselector]
  | some selector =>
    obtain ⟨endpoint, -, hnext, howner⟩ := selector.next_fst
    rw [nextWeightedIndex, hselector]
    dsimp only
    refine ⟨?_, rfl, fun k => ?_⟩
    · rw [offered, hselector, bind_some, Nat.add_zero, Nat.mod_eq_of_lt selector.next_lt,
        hnext, howner]
    have hadvance : (s.advance route).selectors[route]? = some selector.advance := by
      rw [advance]
      rw [getElem?_modify_eq, hselector]
      rfl
    rw [offered, offered, hadvance, hselector, bind_some, bind_some,
      selector.nextWeight_advance]
    show ((WeightedRoundRobin.owner (((selector.nextWeight + 1) % _ + k) %
      totalWeight selector.endpoints) 0 selector.endpoints).bind _) = _
    rw [Nat.mod_add_mod, Nat.add_assoc, Nat.add_comm 1 k]
    rfl

lemma matchIndex_lt {endpoints : List Config.Endpoint} {selected : Config.Endpoint} {i : ℕ}
    (h : matchIndex endpoints selected = some i) : i < endpoints.length :=
  (findIdx?_eq_some_iff_findIdx_eq.mp h).1

lemma matchIndex_of_mem {endpoints : List Config.Endpoint} {selected : Config.Endpoint}
    (h : selected ∈ endpoints) : ∃ i, matchIndex endpoints selected = some i := by
  refine ne_none_iff_exists'.mp fun hnone => ?_
  have hnot := findIdx?_eq_none_iff.mp hnone selected h
  simp at hnot

lemma matchIndex_of_distinct {endpoints : List Config.Endpoint} {selected : Config.Endpoint} {i : ℕ}
    (hdistinct : endpoints.Pairwise fun a b => ¬ (a.address = b.address ∧ a.port = b.port))
    (hi : endpoints[i]? = some selected) : matchIndex endpoints selected = some i := by
  obtain ⟨hlt, rfl⟩ := List.getElem?_eq_some_iff.mp hi
  rw [matchIndex, findIdx?_eq_some_iff_getElem]
  refine ⟨hlt, by simp, fun j hj => ?_⟩
  have hne := pairwise_iff_getElem.mp hdistinct j i (hj.trans hlt) hlt hj
  simpa using hne

lemma mem_rotation {start count i : ℕ} (hstart : start < count) :
    i ∈ rotation start count ↔ i < count := by
  rw [rotation, List.mem_map]
  constructor
  · rintro ⟨step, -, rfl⟩
    exact Nat.mod_lt _ (by omega)
  intro hi
  by_cases hle : start ≤ i
  · refine ⟨i - start, mem_range.mpr (by omega), ?_⟩
    rw [Nat.add_sub_cancel' hle, Nat.mod_eq_of_lt hi]
  · refine ⟨i + count - start, mem_range.mpr (by omega), ?_⟩
    rw [show start + (i + count - start) = i + count by omega, Nat.add_mod_right,
      Nat.mod_eq_of_lt hi]

lemma exists_eq_minimum (f : ℕ → UInt32) {candidates : List ℕ} (hne : candidates ≠ []) :
    ∃ i ∈ candidates, f i =
      candidates.foldl (fun m i => min m (f i)) (UInt32.ofNat (2 ^ 32 - 1)) := by
  have hvalues : candidates.map f ≠ [] := map_eq_nil_iff.not.mpr hne
  obtain ⟨least, hleast⟩ := isSome_iff_exists.mp (isSome_min?_of_ne_nil hvalues)
  obtain ⟨i, hi, rfl⟩ := List.mem_map.mp (min?_mem hleast)
  refine ⟨i, hi, ?_⟩
  -- the start of the fold is the largest value there is
  have hmax : f i ≤ UInt32.ofNat (2 ^ 32 - 1) :=
    UInt32.le_iff_toNat_le.mpr (Nat.le_pred_of_lt (f i).toNat_lt)
  have hfold : (candidates.map f).foldl min (UInt32.ofNat (2 ^ 32 - 1)) =
      candidates.foldl (fun m i => min m (f i)) _ := foldl_map
  rw [← hfold, foldl_min, hleast, getD_some, UInt32.min_def]
  split
  · next hle => exact UInt32.le_antisymm hmax hle
  · rfl

lemma nextLeastActiveIndex_spec (s : SelectionState) (route : ℕ) (tried : Finset ℕ)
    (eligible : ℕ → Bool) :
    (∀ i, (s.nextLeastActiveIndex route tried eligible).2 = some i →
        i < (s.endpointsOf route).length ∧ i ∉ tried ∧ eligible i) ∧
      ((s.nextLeastActiveIndex route tried eligible).2 = none →
        ∀ i < (s.endpointsOf route).length, i ∉ tried → eligible i = false) ∧
      (s.nextLeastActiveIndex route tried eligible).1.endpointsOf route = s.endpointsOf route := by
  rw [nextLeastActiveIndex]
  split
  · next hselector =>
    refine ⟨nofun, fun _ i hi => ?_, rfl⟩
    rw [getElem?_eq_none_iff, s.selectors_length, ← getElem?_eq_none_iff] at hselector
    rw [endpointsOf, hselector] at hi
    cases hi
  next selector hselector =>
  dsimp only
  split
  · next hzero => exact ⟨nofun, fun _ i hi => absurd hi (by omega), rfl⟩
  obtain ⟨endpoint, hmem, hnext, -⟩ := selector.next_fst
  rw [selector_endpoints hselector] at hmem
  obtain ⟨start, hstart⟩ := matchIndex_of_mem hmem
  rw [hnext, bind_some, hstart]
  dsimp only
  have hrotation {i : ℕ} := mem_rotation (i := i) (matchIndex_lt hstart)
  have hcandidate {i : ℕ} : i ∈ (rotation start (s.endpointsOf route).length).filter
      (fun index => decide (index ∉ tried) && eligible index) ↔
      i < (s.endpointsOf route).length ∧ i ∉ tried ∧ eligible i := by
    rw [mem_filter, hrotation, Bool.and_eq_true, decide_eq_true_eq]
  refine ⟨fun i hi => ?_, fun hnone i hi htried => ?_, rfl⟩
  · obtain ⟨-, hi⟩ := ite_none_left_eq_some.mp hi
    exact hcandidate.mp (mem_of_find?_eq_some hi)
  split at hnone
  · next hempty =>
    refine Bool.eq_false_iff.mpr fun heligible => ?_
    have hin := hcandidate.mpr ⟨hi, htried, heligible⟩
    rw [hempty] at hin
    cases hin
  · next hsome =>
    obtain ⟨j, hj, heq⟩ := exists_eq_minimum (s.activeFor route) hsome
    exact absurd (decide_eq_true heq) (find?_eq_none.mp hnone j hj)

lemma proposes_of_unit_weights
    (hunit : ∀ endpoint ∈ s.endpointsOf route, endpoint.weight.toNat = 1)
    (hdistinct : (s.endpointsOf route).Pairwise fun a b =>
      ¬ (a.address = b.address ∧ a.port = b.port))
    {i : ℕ} (hi : i < (s.endpointsOf route).length) : s.Proposes false route i := by
  obtain ⟨selector, hselector⟩ : ∃ selector, s.selectors[route]? = some selector := by
    refine ⟨_, getElem?_eq_getElem ?_⟩
    rw [s.selectors_length]
    by_contra hge
    rw [endpointsOf, getElem?_eq_none_iff.mpr (Nat.le_of_not_lt hge)] at hi
    cases hi
  have hendpoints := selector_endpoints hselector
  have hcursor := selector.next_lt
  rw [hendpoints, WeightedRoundRobin.totalWeight_of_unit hunit] at hcursor
  -- the turn on which the cursor stands at the slot of the endpoint
  obtain ⟨k, hk, hturn⟩ : ∃ k < (s.endpointsOf route).length,
      (selector.nextWeight + k) % (s.endpointsOf route).length = i := by
    obtain ⟨k, hk, hmod⟩ := List.mem_map.mp ((mem_rotation hcursor).mpr hi)
    exact ⟨k, mem_range.mp hk, hmod⟩
  refine ⟨k, hk, ?_⟩
  have howner := WeightedRoundRobin.owner_of_unit hunit hi
  rw [getElem?_eq_getElem hi] at howner
  rw [offered, hselector, bind_some, hendpoints,
    WeightedRoundRobin.totalWeight_of_unit hunit, hturn, howner]
  exact matchIndex_of_distinct hdistinct (getElem?_eq_getElem hi)

end SelectionState

/-! ## The loops -/

namespace AttemptSelector
variable {s s' : AttemptSelector} {shown : HealthCircuitSnapshot} {route : ℕ}

/-- The snapshot is one that was published, and addresses name one endpoint. -/
def Sees (s : AttemptSelector) (shown : HealthCircuitSnapshot) : Prop :=
  Owned s.traffic.state s.traffic.published ∧ shown ∈ s.traffic.published

/-- The untried endpoints that can be used, among those a call comes to. -/
def Candidate (s : AttemptSelector) (shown : HealthCircuitSnapshot) (route : ℕ)
    (proposed : ℕ → Prop) (i : ℕ) : Prop :=
  i ∉ s.tried ∧ s.traffic.Usable shown route i ∧ proposed i

/-- What a call may return: a candidate, and not none when there is one. -/
def Answers (s : AttemptSelector) (shown : HealthCircuitSnapshot) (route : ℕ) (proposed : ℕ → Prop)
    (r : Option ℕ) : Prop :=
  (∀ i, r = some i → s.Candidate shown route proposed i) ∧
    ∀ i, s.Candidate shown route proposed i → r.isSome

/-- An endpoint was visited without a selection: it is tried, and all others are as before. -/
structure Passed (s s' : AttemptSelector) (shown : HealthCircuitSnapshot) (route j : ℕ) : Prop where
  tried : s'.tried = insert j s.tried
  selection : s'.selection = s.selection
  sees : s'.Sees shown
  usable : ∀ i, i ≠ j → (s'.traffic.Usable shown route i ↔ s.traffic.Usable shown route i)

/-- A call with the candidates of another gives the same answers. -/
lemma Answers.congr {proposed proposed' : ℕ → Prop} {r : Option ℕ}
    (h : Answers s' shown route proposed' r)
    (hsame : ∀ i, s.Candidate shown route proposed i ↔ s'.Candidate shown route proposed' i) :
    Answers s shown route proposed r :=
  ⟨fun i hi => (hsame i).mpr (h.1 i hi), fun i hi => h.2 i ((hsame i).mp hi)⟩

lemma Passed.candidate {j : ℕ} {proposed proposed' : ℕ → Prop}
    (h : Passed s s' shown route j) (hunusable : ¬ s.traffic.Usable shown route j)
    (hproposed : ∀ i, i ≠ j → (proposed i ↔ proposed' i)) (i : ℕ) :
    s.Candidate shown route proposed i ↔ s'.Candidate shown route proposed' i := by
  rw [Candidate, Candidate, h.tried, Finset.mem_insert, not_or]
  by_cases hne : i = j
  · subst hne
    exact ⟨fun hi => absurd hi.2.1 hunusable, fun hi => absurd rfl hi.1.1⟩
  · rw [h.usable i hne, hproposed i hne]
    exact and_congr_left' (and_iff_right hne).symm

lemma answers_some {i : ℕ} {proposed : ℕ → Prop} (hi : s.Candidate shown route proposed i) :
    Answers s shown route proposed (some i) := by
  refine ⟨?_, fun _ _ => rfl⟩
  rintro j ⟨⟩
  exact hi

/-- `MakeSelection` on an endpoint just marked as tried. -/
lemma makeSelection_visit (hs : s.Sees shown) (route j : ℕ) :
    (∃ s', makeSelection { s with tried := insert j s.tried } shown route j = (s', true) ∧
        (s.traffic.eligible shown route j → s.traffic.Usable shown route j)) ∨
      ∃ s', makeSelection { s with tried := insert j s.tried } shown route j = (s', false) ∧
        Passed s s' shown route j ∧ ¬ s.traffic.Usable shown route j := by
  rw [makeSelection]
  dsimp only
  split
  · next hmade =>
    exact .inl ⟨_, rfl, fun heligible => usable_of_makeSelection heligible hmade⟩
  next hfalse =>
  have hfailed := Bool.eq_false_iff.mpr hfalse
  obtain ⟨-, hpublished, -⟩ := makeSelection_cases s.traffic shown route j
  refine .inr ⟨_, rfl, ?_, fun husable => hfalse husable.makeSelection⟩
  exact {
    tried := rfl
    selection := rfl
    sees := ⟨Traffic.Owned.makeSelection hs.1 shown route j, hpublished ▸ hs.2⟩
    usable := fun i hne => usable_of_failed hs.1 hs.2 hfailed hne }

/-- The endpoint owns one of the next `n` turns. -/
def turns (s : AttemptSelector) (route n i : ℕ) : Prop :=
  ∃ k < n, s.selection.offered route k = some i

lemma answers_selectWeighted (hs : s.Sees shown) (route n : ℕ) :
    Answers s shown route (s.turns route n) (s.selectWeighted shown route n).2 := by
  induction n generalizing s with
  | zero =>
    refine ⟨nofun, ?_⟩
    rintro i ⟨-, -, k, hk, -⟩
    exact absurd hk (Nat.not_lt_zero k)
  | succ n ih =>
    obtain ⟨hfirst, -, hlater⟩ := s.selection.nextWeightedIndex_eq route
    rw [selectWeighted]
    rcases hnext : s.selection.nextWeightedIndex route with ⟨selection, index⟩
    rw [hnext] at hfirst hlater
    -- the turns of this call are the first one and the turns of the rest
    have hturns (i : ℕ) : s.turns route (n + 1) i ↔
        index = some i ∨ turns { s with selection } route n i := by
      constructor
      · rintro ⟨k, hk, hoffered⟩
        cases k with
        | zero => exact .inl (hfirst.trans hoffered)
        | succ k => exact .inr ⟨k, Nat.lt_of_succ_lt_succ hk, (hlater k).trans hoffered⟩
      · rintro (hi | ⟨k, hk, hoffered⟩)
        · exact ⟨0, Nat.succ_pos n, hfirst.symm.trans hi⟩
        · exact ⟨k + 1, Nat.succ_lt_succ hk, (hlater k).symm.trans hoffered⟩
    have hrest {i : ℕ} (hi : index ≠ some i) :
        s.turns route (n + 1) i ↔ turns { s with selection } route n i :=
      (hturns i).trans (or_iff_right hi)
    cases index with
    | none =>
      refine (ih (s := { s with selection }) hs).congr fun i => ?_
      exact and_congr_right' (and_congr_right' (hrest nofun))
    | some j =>
      have hother {i : ℕ} (hne : i ≠ j) : some j ≠ some i :=
        fun heq => hne (some.inj heq).symm
      dsimp only
      split
      · next htried =>
        refine (ih (s := { s with selection }) hs).congr fun i => ?_
        refine and_congr_right fun hi => and_congr_right' (hrest (hother ?_))
        rintro rfl
        exact hi htried
      next htried =>
      split
      · next heligible =>
        rcases makeSelection_visit (s := { s with selection }) hs route j with
          ⟨s', hmake, husable⟩ | ⟨s', hmake, hpassed, hunusable⟩
        · rw [hmake]
          exact answers_some ⟨htried, husable heligible, (hturns j).mpr (.inl rfl)⟩
        · rw [hmake]
          refine (ih hpassed.sees).congr
            (hpassed.candidate (s := { s with selection }) hunusable fun i hne => ?_)
          rw [turns, turns, hpassed.selection]
          exact hrest (hother hne)
      next heligible =>
      have hpassed : Passed { s with selection }
          { s with selection, tried := insert j s.tried } shown route j :=
        ⟨rfl, rfl, hs, fun _ _ => Iff.rfl⟩
      refine (ih hpassed.sees).congr (hpassed.candidate (fun husable => heligible husable.1)
        fun i hne => ?_)
      exact hrest (hother hne)

lemma answers_selectLeastActive (hs : s.Sees shown) (route fuel : ℕ)
    (hfuel : (Finset.range (s.selection.endpointsOf route).length \ s.tried).card < fuel) :
    ∃ s' r, s.selectLeastActive shown route fuel = some (s', r) ∧
      Answers s shown route (fun i => i < (s.selection.endpointsOf route).length) r := by
  induction fuel generalizing s with
  | zero => exact absurd hfuel (Nat.not_lt_zero _)
  | succ fuel ih =>
    obtain ⟨hsome, hnone, hsame⟩ :=
      s.selection.nextLeastActiveIndex_spec route s.tried (s.eligible shown route)
    rw [selectLeastActive]
    rcases hnext : s.selection.nextLeastActiveIndex route s.tried (s.eligible shown route) with
      ⟨selection, index⟩
    rw [hnext] at hsome hnone hsame
    cases index with
    | none =>
      refine ⟨_, none, rfl, nofun, ?_⟩
      rintro i ⟨htried, husable, hi⟩
      have hnot : s.traffic.eligible shown route i = false := hnone rfl i hi htried
      rw [husable.1] at hnot
      cases hnot
    | some j =>
      obtain ⟨hlt, htried, heligible⟩ := hsome j rfl
      dsimp only
      rcases makeSelection_visit (s := { s with selection }) hs route j with
        ⟨s', hmake, husable⟩ | ⟨s', hmake, hpassed, hunusable⟩
      · rw [hmake]
        exact ⟨s', some j, rfl, answers_some ⟨htried, husable heligible, hlt⟩⟩
      rw [hmake]
      have hcount : s'.selection.endpointsOf route = s.selection.endpointsOf route := by
        rw [hpassed.selection]
        exact hsame
      have hless : (Finset.range (s'.selection.endpointsOf route).length \ s'.tried).card <
          fuel := by
        rw [hcount, hpassed.tried]
        refine lt_of_lt_of_le (Finset.card_lt_card (Finset.ssubset_iff_subset_ne.mpr ⟨?_, ?_⟩))
          (Nat.lt_succ_iff.mp hfuel)
        · exact Finset.sdiff_subset_sdiff (Finset.Subset.refl _) (Finset.subset_insert j _)
        · intro heq
          have hin : j ∈ Finset.range (s.selection.endpointsOf route).length \ s.tried :=
            Finset.mem_sdiff.mpr ⟨Finset.mem_range.mpr hlt, htried⟩
          rw [← heq, Finset.mem_sdiff] at hin
          exact hin.2 (Finset.mem_insert_self j _)
      obtain ⟨t, r, hloop, hanswers⟩ := ih hpassed.sees hless
      rw [hcount] at hanswers
      exact ⟨t, r, hloop, hanswers.congr
        (hpassed.candidate (s := { s with selection }) hunusable fun _ _ => Iff.rfl)⟩

/-- **Selection.** For both policies, any configuration, cursor and active counts, any set of
tried endpoints and any snapshot the coordinator has published: the call returns; an endpoint it
returns was untried, could be used, and is one to which the policy comes; and it returns one exactly
when there is such an endpoint. -/
theorem select_complete (route : ℕ) {config : Config} {now : Resilience.TimePoint} {w : Traffic}
    (hcreate : Traffic.create config now = some w) (hreaches : Reaches Traffic.step w s.traffic)
    (hshown : shown ∈ s.traffic.published) (leastActive : Bool) :
    ∃ s' r, s.select shown route leastActive = some (s', r) ∧
      (∀ i, r = some i → i ∉ s.tried ∧ s.traffic.Usable shown route i ∧
        s.selection.Proposes leastActive route i) ∧
      (r.isSome ↔ ∃ i, i ∉ s.tried ∧ s.traffic.Usable shown route i ∧
        s.selection.Proposes leastActive route i) := by
  have howned : Owned s.traffic.state s.traffic.published :=
    hreaches.invariant (I := fun w => Owned w.state w.published)
      (inv_create hcreate).addressed.toOwned fun _ _ _ hu => Traffic.Owned.step hu
  have hs : Sees { s with overload := false } shown := ⟨howned, hshown⟩
  obtain ⟨s', r, hloop, hsound, hcomplete⟩ : ∃ s' r,
      s.select shown route leastActive = some (s', r) ∧
        Answers s shown route (s.selection.Proposes leastActive route) r := by
    rw [select]
    cases leastActive with
    | true =>
      exact answers_selectLeastActive hs route ((s.selection.endpointsOf route).length + 1)
        (Nat.lt_succ_of_le ((Finset.card_le_card Finset.sdiff_subset).trans_eq
          (Finset.card_range _)))
    | false =>
      exact ⟨_, _, rfl, answers_selectWeighted hs route (s.selection.endpointsOf route).length⟩
  refine ⟨s', r, hloop, hsound, fun hsome => ?_, fun ⟨i, hi⟩ => hcomplete i hi⟩
  obtain ⟨i, hi⟩ := isSome_iff_exists.mp hsome
  exact ⟨i, hsound i hi⟩

/-! ## Two endpoints, the first unhealthy -/

def skewedConfig : Config where
  routes := [{
    name := "r", host := "h", pathPrefix := "/"
    endpoints := [⟨"10.0.0.1", #v[10, 0, 0, 1], 80, 2⟩, ⟨"10.0.0.2", #v[10, 0, 0, 2], 80, 1⟩]
    healthCheck := some ⟨1000, 500⟩ }]

/-- A check of the first endpoint fails, and a snapshot says so. -/
def firstUnhealthy : List Traffic.Event := [.recordHealth 0 0 false, .publish]

/-- From the second slot on, the turns come to both. -/
theorem select_complete_second : ∃ w w' selection shown, Traffic.create skewedConfig 0 = some w ∧
      run Traffic.step w firstUnhealthy = some w' ∧
      SelectionState.create skewedConfig = some selection ∧
      w'.published[1]? = some shown ∧
      ∃ s' r,
        select { traffic := w', selection := selection.advance 0 } shown 0 false = some (s', r) ∧
        r.isSome := by
  obtain ⟨w, hw⟩ : ∃ w, create skewedConfig 0 = some w := ⟨_, rfl⟩
  obtain ⟨w', hw'⟩ : ∃ w', run step w firstUnhealthy = some w' := by
    cases hw
    exact ⟨_, rfl⟩
  obtain ⟨selection, hselection⟩ :
    ∃ selection, SelectionState.create skewedConfig = some selection :=
    ⟨_, rfl⟩
  obtain ⟨shown, hshown⟩ : ∃ shown, w'.published[1]? = some shown := by
    cases hw
    cases hw'
    exact ⟨_, rfl⟩
  obtain ⟨s', r, hselect, -, hcomplete⟩ :=
    select_complete (s := { traffic := w', selection := selection.advance 0 }) 0 hw
      ⟨firstUnhealthy, hw'⟩ (mem_of_getElem? hshown) false
  refine ⟨w, w', selection, shown, hw, hw', hselection, hshown, s', r, hselect,
    hcomplete.mpr ⟨1, ?_, ?_, ?_⟩⟩
  · exact Finset.notMem_empty 1
  · cases hw
    cases hw'
    cases hshown
    refine ⟨rfl, ?_⟩
    rintro decision ⟨⟩ hne
    exact absurd rfl hne
  · cases hselection
    exact ⟨1, Nat.one_lt_two, rfl⟩

/-- From the first slot on, both turns are the first endpoint's: the call finds nothing, although
the second endpoint is untried and can be used. -/
theorem select_misses : ∃ w w' selection shown s', Traffic.create skewedConfig 0 = some w ∧
      run Traffic.step w firstUnhealthy = some w' ∧
      SelectionState.create skewedConfig = some selection ∧
      w'.published[1]? = some shown ∧ w'.Usable shown 0 1 ∧
      select { traffic := w', selection } shown 0 false = some (s', none) := by
  refine ⟨_, _, _, _, _, rfl, rfl, rfl, rfl, ⟨rfl, ?_⟩, rfl⟩
  rintro decision ⟨⟩ hne
  exact absurd rfl hne

end AttemptSelector
end AegisGate.Runtime
