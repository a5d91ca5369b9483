import AegisGate.Config
import AegisGate.Lib.Load

/-!
# Weighted rotation

A cursor runs through the slots `0 .. total - 1`, over and over. Each endpoint owns as many
consecutive slots as its weight, in the order of the list, and `Next` returns the owner of the
slot under the cursor.
-/

namespace AegisGate.Routing
open Lib List Option

def totalWeight (endpoints : List Config.Endpoint) : ℕ :=
  load (fun endpoint => endpoint.weight.toNat) endpoints

/-- The cursor runs over the sum of the weights. -/
structure WeightedRoundRobin where
  endpoints : List Config.Endpoint
  nextWeight : ℕ := 0
  positive : ∀ endpoint ∈ endpoints, 0 < endpoint.weight.toNat
  total_lt : totalWeight endpoints < 2 ^ 64
  next_lt : nextWeight < totalWeight endpoints

namespace WeightedRoundRobin

/-- The loop of the constructor; `none` is `std::invalid_argument`. -/
def accumulate (total : ℕ) : List Config.Endpoint → Option ℕ
  | [] => some total
  | endpoint :: rest =>
    if endpoint.weight = 0 ∨ 2 ^ 64 - 1 - endpoint.weight.toNat < total then none
    else accumulate (total + endpoint.weight.toNat) rest

variable {endpoints : List Config.Endpoint}

lemma accumulate_eq_some {total sum : ℕ} (htotal : total < 2 ^ 64)
    (h : accumulate total endpoints = some sum) :
    sum = total + totalWeight endpoints ∧ sum < 2 ^ 64 ∧
      ∀ endpoint ∈ endpoints, 0 < endpoint.weight.toNat := by
  induction endpoints generalizing total with
  | nil =>
    cases h
    exact ⟨rfl, htotal, nofun⟩
  | cons endpoint rest ih =>
    obtain ⟨hok, hrest⟩ := ite_none_left_eq_some.mp h
    rw [not_or] at hok
    have hweight := endpoint.weight.toNat_lt
    obtain ⟨hsum, hlt, hpositive⟩ := ih (by omega) hrest
    refine ⟨?_, hlt, ?_⟩
    · rw [hsum, totalWeight, totalWeight, load_cons, Nat.add_assoc]
    · intro other hother
      rcases mem_cons.mp hother with rfl | hother
      · exact Nat.pos_of_ne_zero fun hzero => hok.1 (UInt32.toNat_inj.mp hzero)
      · exact hpositive other hother

def create (endpoints : List Config.Endpoint) : Option WeightedRoundRobin :=
  match h : accumulate 0 endpoints with
  | none => none
  | some total =>
    if hzero : total = 0 then none
    else
      have hsum := accumulate_eq_some (by decide) h
      some {
        endpoints
        positive := hsum.2.2
        total_lt := by
          rw [Nat.zero_add] at hsum
          exact hsum.1 ▸ hsum.2.1
        next_lt := by
          rw [Nat.zero_add] at hsum
          exact Nat.pos_of_ne_zero (hsum.1 ▸ hzero) }

/-- The endpoint whose slots contain the selected one, from an upper bound on. -/
def owner (selected upper : ℕ) : List Config.Endpoint → Option Config.Endpoint
  | [] => none
  | endpoint :: rest =>
    let upper := upper + endpoint.weight.toNat
    if selected < upper then some endpoint else owner selected upper rest

variable (s : WeightedRoundRobin)

/-- The cursor after `Next`. -/
def advance : WeightedRoundRobin where
  endpoints := s.endpoints
  nextWeight := if s.nextWeight + 1 = totalWeight s.endpoints then 0 else s.nextWeight + 1
  positive := s.positive
  total_lt := s.total_lt
  next_lt := by
    have hlt := s.next_lt
    split <;> omega

/-- `Next`. The constructor rules the fallback to the first endpoint out. -/
def next : Option Config.Endpoint × WeightedRoundRobin :=
  ((owner s.nextWeight 0 s.endpoints).or s.endpoints.head?, s.advance)

lemma nextWeight_advance :
    s.advance.nextWeight = (s.nextWeight + 1) % totalWeight s.endpoints := by
  have hlt := s.next_lt
  rw [advance]
  dsimp only
  split
  · next hlast => rw [hlast, Nat.mod_self]
  · next hmore => rw [Nat.mod_eq_of_lt (by omega)]

/-! ## Owners -/

lemma totalWeight_take_succ {i : ℕ} {endpoint : Config.Endpoint}
    (h : endpoints[i]? = some endpoint) : totalWeight (endpoints.take (i + 1)) =
      totalWeight (endpoints.take i) + endpoint.weight.toNat := by
  rw [take_add_one, h, totalWeight, load_append]
  simp [totalWeight]

lemma owner_eq_getElem? {selected upper i : ℕ}
    (hle : upper + totalWeight (endpoints.take i) ≤ selected)
    (hlt : selected < upper + totalWeight (endpoints.take (i + 1))) :
    owner selected upper endpoints = endpoints[i]? := by
  induction endpoints generalizing upper i with
  | nil => rfl
  | cons first rest ih =>
    rw [take_succ_cons, totalWeight, load_cons] at hlt
    rw [owner]
    cases i with
    | zero =>
      rw [take_zero, load_nil] at hlt
      rw [if_pos (by omega), getElem?_cons_zero]
    | succ i =>
      rw [take_succ_cons, totalWeight, load_cons] at hle
      rw [if_neg (by omega), getElem?_cons_succ]
      refine ih ?_ ?_ <;> rw [totalWeight] <;> omega

lemma exists_slot {selected : ℕ} (h : selected < totalWeight endpoints) :
    ∃ i endpoint, endpoints[i]? = some endpoint ∧ totalWeight (endpoints.take i) ≤ selected ∧
      selected < totalWeight (endpoints.take (i + 1)) := by
  induction endpoints generalizing selected with
  | nil => cases h
  | cons first rest ih =>
    rw [totalWeight, load_cons] at h
    by_cases hfirst : selected < first.weight.toNat
    · exact ⟨0, first, rfl, Nat.zero_le _, by simpa [totalWeight] using hfirst⟩
    · obtain ⟨i, endpoint, hi, hle, hlt⟩ := @ih (selected - first.weight.toNat) (by
        rw [totalWeight]
        omega)
      refine ⟨i + 1, endpoint, hi, ?_⟩
      simp only [totalWeight, take_succ_cons, load_cons] at hle hlt ⊢
      omega

lemma next_fst : ∃ endpoint ∈ s.endpoints,
    s.next.1 = some endpoint ∧ owner s.nextWeight 0 s.endpoints = some endpoint := by
  obtain ⟨i, endpoint, hi, hle, hlt⟩ := exists_slot s.next_lt
  have howner : owner s.nextWeight 0 s.endpoints = some endpoint := by
    rw [owner_eq_getElem? (by simpa using hle) (by simpa using hlt), hi]
  refine ⟨endpoint, mem_of_getElem? hi, ?_, howner⟩
  rw [next, howner, some_or]

lemma totalWeight_of_unit (hunit : ∀ endpoint ∈ endpoints, endpoint.weight.toNat = 1) :
    totalWeight endpoints = endpoints.length := by
  induction endpoints with
  | nil => rfl
  | cons first rest ih =>
    have hrest := ih fun endpoint h => hunit endpoint (mem_cons_of_mem _ h)
    rw [totalWeight] at hrest ⊢
    rw [load_cons, hunit first mem_cons_self, hrest, length_cons, Nat.add_comm]

lemma owner_of_unit (hunit : ∀ endpoint ∈ endpoints, endpoint.weight.toNat = 1) {i : ℕ}
    (hi : i < endpoints.length) : owner i 0 endpoints = endpoints[i]? := by
  have htake (k : ℕ) : totalWeight (endpoints.take k) = min k endpoints.length := by
    rw [totalWeight_of_unit fun endpoint h => hunit endpoint (mem_of_mem_take h), length_take]
  refine owner_eq_getElem? ?_ ?_ <;> rw [htake] <;> omega

end WeightedRoundRobin
end AegisGate.Routing
