import AegisGate.Runtime.SelectionCompleteness

/-!
# Weighted fairness

The cursor of a route moves one slot with every call of `NextWeightedIndex` on the route and with
no call on another, and an endpoint owns as many slots of the cycle as its weight. So a whole cycle
of calls returns every endpoint as often as its weight, wherever it starts.
-/

namespace AegisGate.Runtime.SelectionState
open Routing List

variable {s : SelectionState} {route i : ℕ}

/-- Calls of `NextWeightedIndex`, each on the route the list names: what those on one route
return. -/
def answers (s : SelectionState) (route : ℕ) : List ℕ → List (Option ℕ)
  | [] => []
  | called :: calls =>
    let (s, index) := s.nextWeightedIndex called
    if called = route then index :: s.answers route calls else s.answers route calls

lemma offered_nextWeightedIndex_of_ne {called : ℕ} (h : called ≠ route) (k : ℕ) :
    (s.nextWeightedIndex called).1.offered route k = s.offered route k := by
  rw [nextWeightedIndex]
  split
  · rfl
  · rw [offered, offered, advance]
    dsimp only
    rw [getElem?_modify_ne _ _ h]
    rfl

lemma answers_eq (s : SelectionState) (route : ℕ) (calls : List ℕ) :
    s.answers route calls = (range (calls.count route)).map (s.offered route) := by
  induction calls generalizing s with
  | nil => rfl
  | cons called calls ih =>
    obtain ⟨hfirst, -, hlater⟩ := s.nextWeightedIndex_eq route
    rw [answers]
    dsimp only
    split
    · next heq =>
      subst heq
      rw [count_cons_self, range_succ_eq_map, map_cons, map_map, ih, hfirst]
      exact congrArg _ (map_congr_left fun k _ => hlater k)
    · next hne =>
      rw [count_cons_of_ne hne, ih]
      exact map_congr_left fun k _ => offered_nextWeightedIndex_of_ne hne k

lemma count_map_range (f : ℕ → Option ℕ) (n : ℕ) :
    ((range n).map f).count (some i) = Nat.count (fun k => f k = some i) n := by
  induction n with
  | zero => rfl
  | succ n ih => simp [range_succ, Nat.count_succ, ih, count_singleton]

lemma count_periodic {p : ℕ → Prop} [DecidablePred p] {W : ℕ} (hp : Function.Periodic p W)
    (m r : ℕ) : Nat.count p (W * m + r) = m * Nat.count p W + Nat.count p r := by
  induction m with
  | zero => simp
  | succ m ih =>
    have hshift : (fun k => p (W + k)) = p := by
      funext k
      rw [Nat.add_comm, hp]
    rw [show W * (m + 1) + r = W + (W * m + r) by ring, Nat.count_add]
    simp only [hshift, ih]
    ring

lemma count_window {p : ℕ → Prop} [DecidablePred p] {W : ℕ} (hp : Function.Periodic p W)
    (start : ℕ) : Nat.count (fun k => p (start + k)) W = Nat.count p W := by
  have hwindow := Nat.count_add p start W
  have hperiod := count_periodic hp 1 start
  rw [Nat.mul_one, Nat.add_comm W start] at hperiod
  omega

/-- The endpoint that owns a slot of the cycle. -/
def slotIndex (endpoints : List Config.Endpoint) (slot : ℕ) : Option ℕ :=
  (WeightedRoundRobin.owner (slot % totalWeight endpoints) 0 endpoints).bind (matchIndex endpoints)

lemma count_slotIndex {endpoints : List Config.Endpoint} {endpoint : Config.Endpoint}
    (hdistinct : endpoints.Pairwise fun a b => ¬ (a.address = b.address ∧ a.port = b.port))
    (hi : endpoints[i]? = some endpoint) :
    Nat.count (fun slot => slotIndex endpoints slot = some i) (totalWeight endpoints) =
      endpoint.weight.toNat := by
  have hslot {j slot : ℕ} {e : Config.Endpoint} (hj : endpoints[j]? = some e)
      (hle : totalWeight (endpoints.take j) ≤ slot)
      (hlt : slot < totalWeight (endpoints.take (j + 1))) (hslot : slot < totalWeight endpoints) :
      slotIndex endpoints slot = some j := by
    rw [slotIndex, Nat.mod_eq_of_lt hslot, WeightedRoundRobin.owner_eq_getElem?
      (by simpa using hle) (by simpa using hlt), hj, Option.bind_some]
    exact matchIndex_of_distinct hdistinct hj
  have hsum := WeightedRoundRobin.totalWeight_take_succ hi
  have hle : totalWeight (endpoints.take (i + 1)) ≤ totalWeight endpoints := by
    conv_rhs => rw [← take_append_drop (i + 1) endpoints, totalWeight, Lib.load_append]
    exact Nat.le_add_right _ _
  have hfilter : {slot ∈ Finset.range (totalWeight endpoints) | slotIndex endpoints slot = some i} =
      Finset.Ico (totalWeight (endpoints.take i)) (totalWeight (endpoints.take (i + 1))) := by
    ext slot
    rw [Finset.mem_filter, Finset.mem_range, Finset.mem_Ico]
    constructor
    · intro h
      obtain ⟨j, e, hj, hlow, hhigh⟩ := WeightedRoundRobin.exists_slot h.1
      rw [hslot hj hlow hhigh h.1] at h
      cases h.2
      exact ⟨hlow, hhigh⟩
    · intro h
      exact ⟨h.2.trans_le hle, hslot hi h.1 h.2 (h.2.trans_le hle)⟩
  rw [Nat.count_eq_card_filter_range, hfilter, Nat.card_Ico, hsum, Nat.add_sub_cancel_left]

/-- **Fairness.** From every position of the cursor, with any calls on other routes in between, the
calls on a route return an endpoint as often as its weight in every whole cycle, and at most as
often again in the rest. The fallback of `Next` is not taken. -/
theorem nextWeightedIndex_fair {endpoint : Config.Endpoint}
    (hdistinct : (s.endpointsOf route).Pairwise fun a b =>
      ¬ (a.address = b.address ∧ a.port = b.port))
    (hi : (s.endpointsOf route)[i]? = some endpoint) :
    (∀ calls, calls.count route = totalWeight (s.endpointsOf route) →
      (s.answers route calls).count (some i) = endpoint.weight.toNat) ∧
    (∀ calls, |((s.answers route calls).count (some i) : ℤ) -
        calls.count route / totalWeight (s.endpointsOf route) * endpoint.weight.toNat| ≤
      endpoint.weight.toNat) ∧
    ∀ selector : WeightedRoundRobin,
      WeightedRoundRobin.owner selector.nextWeight 0 selector.endpoints ≠ none := by
  obtain ⟨selector, hselector⟩ : ∃ selector, s.selectors[route]? = some selector := by
    refine Option.ne_none_iff_exists'.mp fun hnone => ?_
    rw [getElem?_eq_none_iff, s.selectors_length, ← getElem?_eq_none_iff] at hnone
    rw [endpointsOf, hnone] at hi
    cases hi
  have hperiodic : Function.Periodic (fun slot => slotIndex (s.endpointsOf route) slot = some i)
      (totalWeight (s.endpointsOf route)) := by
    intro slot
    dsimp only
    rw [slotIndex, slotIndex, Nat.add_mod_right]
  have hoffered (k : ℕ) :
      s.offered route k = slotIndex (s.endpointsOf route) (selector.nextWeight + k) := by
    rw [offered, hselector, Option.bind_some, selector_endpoints hselector, slotIndex]
  have hcount (n : ℕ) : ((range n).map (s.offered route)).count (some i) = Nat.count (fun k =>
      slotIndex (s.endpointsOf route) (selector.nextWeight + k) = some i) n := by
    simp only [count_map_range, hoffered]
  have hcycle := (count_window hperiodic selector.nextWeight).trans (count_slotIndex hdistinct hi)
  refine ⟨fun calls hcalls => ?_, fun calls => ?_, fun selector => ?_⟩
  · rw [answers_eq, hcount, hcalls, hcycle]
  · have hshift : Function.Periodic (fun k => slotIndex (s.endpointsOf route)
        (selector.nextWeight + k) = some i) (totalWeight (s.endpointsOf route)) := by
      intro k
      simpa only [Nat.add_assoc] using hperiodic (selector.nextWeight + k)
    have hrest := Nat.count_monotone (fun k => slotIndex (s.endpointsOf route)
      (selector.nextWeight + k) = some i)
      (Nat.mod_lt (calls.count route) (selector_endpoints hselector ▸
        Nat.zero_lt_of_lt selector.next_lt)).le
    have hsplit := count_periodic hshift (calls.count route / totalWeight (s.endpointsOf route))
      (calls.count route % totalWeight (s.endpointsOf route))
    rw [Nat.div_add_mod] at hsplit
    rw [hcycle] at hrest hsplit
    rw [answers_eq, hcount, hsplit, abs_le]
    push_cast
    omega
  · obtain ⟨endpoint, -, -, howner⟩ := selector.next_fst
    rw [howner]
    exact Option.some_ne_none endpoint

theorem nextWeightedIndex_fair_skewed :
    ∃ selection, create AttemptSelector.skewedConfig = some selection ∧
      ((selection.advance 0).answers 0 [0, 0, 0]).count (some 0) = 2 := by
  obtain ⟨selection, hselection⟩ :
      ∃ selection, create AttemptSelector.skewedConfig = some selection := ⟨_, rfl⟩
  have hfair := @nextWeightedIndex_fair (selection.advance 0) 0 0
  cases hselection
  exact ⟨_, rfl, (hfair (by decide) rfl).1 [0, 0, 0] rfl⟩

end AegisGate.Runtime.SelectionState
