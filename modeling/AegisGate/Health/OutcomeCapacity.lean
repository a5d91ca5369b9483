import AegisGate.Health.OutcomeFlow
import AegisGate.Lib.Wheel

/-!
# The outcome capacity of a route

The channel of a route has a credit for every attempt that `max_inflight` requests may start.
But a request gives its in-flight slot back before its outcome is published, and the credit of a
published outcome is out until the coordinator drains it. A request that is admitted in between
counts on credits that finished requests still hold.

`RouteLoad` is the channel with the requests of its route: at most `maxInflight` of them in
flight, each with at most `1 + retryBudget` attempts, every access of the channel a step.
-/

namespace AegisGate.Health
open Lib OutcomeChannel List Option Function World

namespace OutcomeChannel

/-- The next access of a `TryReserve` call. -/
def World.continueCall (w : World) (i : ℕ) (spurious : Bool) : Option World :=
  match (w.calls[i]?).join with
  | some .accepted => OutcomeChannel.step w (.reserveLoad i)
  | some (.loaded _) => OutcomeChannel.step w (.reserveSwap i spurious)
  | none => none

/-- The accesses of `TryReserve`. -/
def Event.reserves : Event → Bool
  | .reserve | .reserveLoad _ | .reserveSwap _ _ => true
  | _ => false

end OutcomeChannel

/-- The requests of a route and its channel. Requests are numbered as they are admitted; `owner`
tells whose credit a serial number is. -/
structure RouteLoad where
  world : World
  admitted : ℕ := 0
  inflight : Finset ℕ := ∅
  attempts : ℕ → ℕ := fun _ => 0
  call : ℕ → Option ℕ := fun _ => none
  owner : ℕ → ℕ := fun _ => 0

namespace RouteLoad

/-- What requests do, and the accesses of others. -/
inductive Event
  | tryAdmit
  /-- A request starts an attempt: the first access of `TryReserve`. -/
  | attempt (request : ℕ)
  /-- The next access of its `TryReserve` call. -/
  | call (request : ℕ) (spurious : Bool)
  /-- The in-flight slot of a request is given back. -/
  | release (request : ℕ)
  /-- Any other access of the channel. -/
  | channel (e : OutcomeChannel.Event)
  deriving DecidableEq

def step (maxInflight retryBudget : ℕ) (s : RouteLoad) : Event → Option RouteLoad
  | .tryAdmit =>
    if s.inflight.card < maxInflight then
      some { s with admitted := s.admitted + 1, inflight := insert s.admitted s.inflight }
    else none
  | .attempt r =>
    if r ∈ s.inflight ∧ s.call r = none ∧ s.attempts r < 1 + retryBudget then
      (OutcomeChannel.step s.world .reserve).map fun w =>
        { s with
          world := w
          attempts := update s.attempts r (s.attempts r + 1)
          call := if s.world.chan.accepting then
              update s.call r (some s.world.calls.length) else s.call }
    else none
  | .call r spurious =>
    (s.call r).bind fun i => (s.world.continueCall i spurious).map fun w =>
      { s with
        world := w
        call := if (w.calls[i]?).join.isSome then s.call else update s.call r none
        owner := if w.nextSerial = s.world.nextSerial then s.owner
          else update s.owner s.world.nextSerial r }
  | .release r =>
    if r ∈ s.inflight ∧ s.call r = none then some { s with inflight := s.inflight.erase r }
    else none
  | .channel e =>
    if e.reserves then none
    else (OutcomeChannel.step s.world e).map fun w => { s with world := w }

/-- The credits that are out for requests no longer in flight. -/
def undrained (s : RouteLoad) : ℕ := s.world.out.countP fun n => s.owner n ∉ s.inflight

/-- At an admission, the credits that finished requests hold fit in the budgets of the in-flight
slots that stay free. -/
def Roomy (maxInflight retryBudget : ℕ) (s : RouteLoad) : Event → Prop
  | .tryAdmit => s.undrained ≤ (1 + retryBudget) * (maxInflight - (s.inflight.card + 1))
  | _ => True

instance (maxInflight retryBudget : ℕ) (s : RouteLoad) :
    ∀ e, Decidable (Roomy maxInflight retryBudget s e)
  | .tryAdmit => inferInstanceAs (Decidable (_ ≤ _))
  | .attempt _ | .call _ _ | .release _ | .channel _ => .isTrue trivial

end RouteLoad

/-! ## Serial numbers -/

namespace OutcomeChannel
variable {w w' : World}

lemma Access.serials (ha : Access w w') :
    (w'.nextSerial = w.nextSerial ∨ w'.nextSerial = w.nextSerial + 1 ∧ w'.returned = w.returned) ∧
      ∃ l, w'.returned = w.returned ++ l := by
  have key : (w'.credit.nextSerial = w.credit.nextSerial ∨
      w'.credit.nextSerial = w.credit.nextSerial + 1 ∧ w'.credit.returned = w.credit.returned) ∧
      ∃ l, w'.credit.returned = w.credit.returned ++ l := by
    cases ha with
    | grant hr hpos hc => rw [hc]; exact ⟨.inr ⟨rfl, rfl⟩, [], (append_nil _).symm⟩
    | giveBack n rest hl hr hc | restore hd hr hc => rw [hc]; exact ⟨.inl rfl, _, rfl⟩
    | abort i e he hs hle hw => rw [hw]; exact ⟨.inl rfl, [], (append_nil _).symm⟩
    | inert hr hc | publish _ _ _ hr hc | claim _ _ _ _ _ _ hr hc | store _ _ _ _ _ _ hr hc
    | load _ _ hr hc | unready _ _ _ hr hc | reset _ _ _ hr hc | advance _ _ hr hc
    | consume _ _ hr hc =>
      rw [hc]
      exact ⟨.inl rfl, [], (append_nil _).symm⟩
  exact key

lemma nextSerial_giveBack (w : World) (o : Reservation) :
    (w.giveBack o).nextSerial = w.nextSerial := by
  rw [giveBack]
  split <;> rfl

/-- The load of `available` in `TryReserve`. -/
lemma reload_spec (w : World) (i : ℕ) :
    (0 < w.chan.available → (w.reload i).chan.rejected = w.chan.rejected) ∧
      (w.reload i).nextSerial = w.nextSerial := by
  rw [reload]
  split
  · next hzero => exact ⟨fun hpos => absurd hzero hpos.ne', rfl⟩
  · exact ⟨fun _ => rfl, rfl⟩

/-- Only a compare-exchange of `TryReserve` draws a serial number. -/
lemma nextSerial_step {e : Event} (he : ∀ i spurious, e ≠ .reserveSwap i spurious)
    (hstep : OutcomeChannel.step w e = some w') : w'.nextSerial = w.nextSerial := by
  obtain ⟨-, hstep⟩ := ite_none_left_eq_some.mp hstep
  cases e with
  | reserve =>
    dsimp only at hstep
    split at hstep <;> cases hstep <;> rfl
  | reserveLoad i =>
    dsimp only at hstep
    split at hstep
    · cases hstep
      exact (reload_spec w i).2
    · cases hstep
  | reserveSwap i spurious => exact absurd rfl (he i spurious)
  | beginStopping | construct =>
    cases hstep
    rfl
  | moveConstruct i | cancel i | destroy i =>
    obtain ⟨o, -, rfl⟩ := map_eq_some_iff.mp hstep
    first | rfl | exact nextSerial_giveBack w o
  | moveAssign i j =>
    obtain ⟨o, -, hrest⟩ := bind_eq_some_iff.mp hstep
    obtain ⟨p, -, rfl⟩ := map_eq_some_iff.mp hrest
    split
    · rfl
    · exact nextSerial_giveBack w o
  | publish i r =>
    obtain ⟨o, -, rfl⟩ := map_eq_some_iff.mp hstep
    split <;> rfl
  | claim i | write i | ready i | drainUnready | drainReset | drainAdvance | drainConsume
  | drainCredit =>
    dsimp only at hstep
    split at hstep
    · cases hstep
      rfl
    · cases hstep
  | check i =>
    dsimp only at hstep
    split at hstep
    · split at hstep <;> cases hstep <;> rfl
    · cases hstep
  | drainLoad =>
    obtain ⟨-, ⟨⟩⟩ := ite_none_right_eq_some.mp hstep
    rfl

lemma out_sublist (hserial : w'.nextSerial = w.nextSerial)
    (hreturned : ∃ l, w'.returned = w.returned ++ l) : w'.out.Sublist w.out := by
  obtain ⟨l, hl⟩ := hreturned
  rw [out, out, hserial]
  refine monotone_filter_right _ fun n hn => ?_
  rw [decide_eq_true_iff] at hn ⊢
  exact fun hmem => hn (hl ▸ mem_append_left l hmem)

lemma Counted.out_grant (h : Counted w) (hserial : w'.nextSerial = w.nextSerial + 1)
    (hreturned : w'.returned = w.returned) : w'.out = w.out ++ [w.nextSerial] := by
  have hnew : w.nextSerial ∉ w.returned := fun hmem => lt_irrefl _ (h.returned_lt hmem)
  rw [out, out, hserial, hreturned, range_succ, filter_append]
  simp [hnew]

/-- What an access of `TryReserve` does: it draws a serial number and ends the call, or it draws
none; with a credit available it does not refuse. -/
lemma continueCall_cases {i : ℕ} {spurious : Bool} (hpos : CallsPos w)
    (h : w.continueCall i spurious = some w') :
    Access w w' ∧ CallsPos w' ∧ (0 < w.chan.available → w'.chan.rejected = w.chan.rejected) ∧
      (w'.nextSerial = w.nextSerial ∨
        w'.nextSerial = w.nextSerial + 1 ∧ (w'.calls[i]?).join = none) := by
  rw [continueCall] at h
  split at h
  · next hcall =>
    obtain ⟨ha, hcalls⟩ := step_access hpos h
    refine ⟨ha, hcalls, ?_⟩
    rw [OutcomeChannel.step, hcall] at h
    obtain ⟨-, ⟨⟩⟩ := ite_none_left_eq_some.mp h
    obtain ⟨hrejected, hserial⟩ := reload_spec w i
    exact ⟨hrejected, .inl hserial⟩
  · next current hcall =>
    obtain ⟨ha, hcalls⟩ := step_access hpos h
    refine ⟨ha, hcalls, ?_⟩
    rw [OutcomeChannel.step, hcall] at h
    obtain ⟨-, h⟩ := ite_none_left_eq_some.mp h
    dsimp only at h
    split at h
    · cases h
      refine ⟨fun _ => rfl, .inr ⟨rfl, ?_⟩⟩
      rw [getElem?_set]
      split
      · split <;> rfl
      · next hne => exact absurd rfl hne
    · cases h
      obtain ⟨hrejected, hserial⟩ := reload_spec w i
      exact ⟨hrejected, .inl hserial⟩
  · cases h

end OutcomeChannel

/-! ## Requests and credits -/

namespace RouteLoad

/-- The requests and the channel between steps. -/
structure Inv (retryBudget : ℕ) (s : RouteLoad) : Prop where
  counted : Counted s.world
  calls : CallsPos s.world
  named : ∀ r ∈ s.inflight, r < s.admitted
  spent : ∀ r, (range s.world.nextSerial).countP (fun n => s.owner n = r) +
    (s.call r).toList.length ≤ s.attempts r
  bound : ∀ r, s.attempts r ≤ 1 + retryBudget
  calling : ∀ {r i}, s.call r = some i → r ∈ s.inflight
  room : s.undrained + (1 + retryBudget) * s.inflight.card ≤ s.world.chan.capacity

variable {maxInflight retryBudget : ℕ} {s t : RouteLoad}

lemma length_out (s : RouteLoad) : s.world.out.length =
    s.undrained + ∑ r ∈ s.inflight, s.world.out.countP fun n => s.owner n = r := by
  have hsplit := length_eq_countP_add_countP (l := s.world.out)
    (fun n => decide (s.owner n ∈ s.inflight))
  have hrest : s.world.out.countP (fun n => decide ¬decide (s.owner n ∈ s.inflight)) =
      s.undrained := countP_congr fun n _ => by simp
  rw [hrest, countP_mem_eq_sum] at hsplit
  omega

lemma Inv.countP_out_le (h : Inv retryBudget s) (r : ℕ) :
    s.world.out.countP (fun n => s.owner n = r) + (s.call r).toList.length ≤ 1 + retryBudget := by
  have hsub : s.world.out.Sublist (range s.world.nextSerial) := filter_sublist
  have hcount := hsub.countP_le (p := fun n => s.owner n = r)
  have hspent := h.spent r
  have hbound := h.bound r
  omega

lemma Inv.available_pos (h : Inv retryBudget s) {r i : ℕ} (hr : s.call r = some i) :
    0 < s.world.chan.available := by
  have htotal := h.counted.available_add
  have hlt : (∑ r ∈ s.inflight, s.world.out.countP fun n => s.owner n = r) <
      ∑ _r ∈ s.inflight, (1 + retryBudget) := by
    refine Finset.sum_lt_sum (fun r' _ => ?_) ⟨r, h.calling hr, ?_⟩
    · exact (Nat.le_add_right _ _).trans (h.countP_out_le r')
    · have hone := h.countP_out_le r
      rwa [hr] at hone
  rw [Finset.sum_const, Nat.nsmul_eq_mul, Nat.mul_comm] at hlt
  have hroom := h.room
  rw [length_out] at htotal
  omega

/-! ## One step -/

lemma Inv.access {w : World} (h : Inv retryBudget s) (ha : Access s.world w) (hcalls : CallsPos w)
    (hserial : w.nextSerial = s.world.nextSerial) : Inv retryBudget { s with world := w } := by
  have hsub : w.out.Sublist s.world.out := out_sublist hserial ha.serials.2
  have hundrained : ({ s with world := w } : RouteLoad).undrained ≤ s.undrained := hsub.countP_le
  refine ⟨ha.counted h.counted, hcalls, h.named, fun r => ?_, h.bound, h.calling, ?_⟩
  · rw [hserial]
    exact h.spent r
  · have hroom := h.room
    rw [ha.capacity]
    exact (Nat.add_le_add_right hundrained _).trans hroom

lemma Inv.tryAdmit (h : Inv retryBudget s) (hlt : s.inflight.card < maxInflight)
    (hcap : s.world.chan.capacity = maxInflight * (retryBudget + 1))
    (hroomy : Roomy maxInflight retryBudget s .tryAdmit) :
    Inv retryBudget
      { s with admitted := s.admitted + 1, inflight := insert s.admitted s.inflight } := by
  have hnew : s.admitted ∉ s.inflight := fun hmem => lt_irrefl _ (h.named _ hmem)
  refine { h with
    named := fun r hr => ?_
    calling := fun hr => Finset.mem_insert_of_mem (h.calling hr)
    room := ?_ }
  · obtain rfl | hr := Finset.mem_insert.mp hr
    · exact Nat.lt_succ_self _
    · exact Nat.lt_succ_of_lt (h.named r hr)
  rw [Finset.card_insert_of_notMem hnew, hcap]
  have hfewer : ({ s with
      admitted := s.admitted + 1, inflight := insert s.admitted s.inflight } :
        RouteLoad).undrained ≤ s.undrained := by
    refine countP_mono_left fun n _ hn => ?_
    rw [decide_eq_true_iff] at hn ⊢
    exact fun hmem => hn (Finset.mem_insert_of_mem hmem)
  calc _ ≤ (1 + retryBudget) * (maxInflight - (s.inflight.card + 1)) +
        (1 + retryBudget) * (s.inflight.card + 1) :=
        Nat.add_le_add_right (hfewer.trans hroomy) _
    _ = (1 + retryBudget) * maxInflight := by rw [← Nat.mul_add, Nat.sub_add_cancel hlt]
    _ = maxInflight * (retryBudget + 1) := by rw [Nat.mul_comm, Nat.add_comm]

lemma Inv.attempt (h : Inv retryBudget s) {r : ℕ} (hr : r ∈ s.inflight) (hidle : s.call r = none)
    (hlt : s.attempts r < 1 + retryBudget) {call : ℕ → Option ℕ}
    (hcall : ∀ {r'}, r' ≠ r → call r' = s.call r') :
    Inv retryBudget
      { s with attempts := update s.attempts r (s.attempts r + 1), call := call } := by
  refine ⟨h.counted, h.calls, h.named, fun r' => ?_, fun r' => ?_, fun {r' i} hr' => ?_, h.room⟩
  · dsimp only
    by_cases hrr : r' = r
    · have hspent := h.spent r
      rw [hidle] at hspent
      rw [hrr, update_self]
      exact Nat.add_le_add hspent length_toList_le
    · rw [update_of_ne hrr, hcall hrr]
      exact h.spent r'
  · dsimp only
    by_cases hrr : r' = r
    · rw [hrr, update_self]
      exact hlt
    · rw [update_of_ne hrr]
      exact h.bound r'
  · by_cases hrr : r' = r
    · rw [hrr]
      exact hr
    · exact h.calling ((hcall hrr).symm.trans hr')

lemma Inv.endCall (h : Inv retryBudget s) (r : ℕ) :
    Inv retryBudget { s with call := update s.call r none } := by
  refine ⟨h.counted, h.calls, h.named, fun r' => ?_, h.bound, fun {r' i} hr' => ?_, h.room⟩
  · dsimp only
    have hspent := h.spent r'
    by_cases hrr : r' = r
    · rw [hrr] at hspent ⊢
      rw [update_self]
      exact (Nat.le_add_right _ _).trans hspent
    · rw [update_of_ne hrr]
      exact hspent
  dsimp only at hr'
  by_cases hrr : r' = r
  · rw [hrr, update_self] at hr'
    cases hr'
  · rw [update_of_ne hrr] at hr'
    exact h.calling hr'

lemma Inv.grant {w : World} {r i : ℕ} (h : Inv retryBudget s) (ha : Access s.world w)
    (hcalls : CallsPos w) (hserial : w.nextSerial = s.world.nextSerial + 1)
    (hr : s.call r = some i) :
    Inv retryBudget { s with
      world := w
      call := update s.call r none
      owner := update s.owner s.world.nextSerial r } := by
  have hreturned : w.returned = s.world.returned := by
    obtain ⟨hsame | ⟨-, hreturned⟩, -⟩ := ha.serials
    · omega
    · exact hreturned
  have hold : ∀ n ∈ range s.world.nextSerial,
      update s.owner s.world.nextSerial r n = s.owner n := fun n hn =>
    update_of_ne (mem_range.mp hn).ne _ _
  refine ⟨ha.counted h.counted, hcalls, h.named, fun r' => ?_, h.bound, (h.endCall r).calling, ?_⟩
  · have hspent := h.spent r'
    rw [hserial, range_succ, countP_append, countP_singleton,
      countP_congr (q := fun n => s.owner n = r') fun n hn => by simp only [hold n hn]]
    by_cases hrr : r' = r
    · rw [hrr, hr] at hspent
      simpa [hrr] using hspent
    · simpa [hrr, Ne.symm hrr, update_of_ne hrr] using hspent
  have hout := h.counted.out_grant hserial hreturned
  have hundrained : ({ s with
      world := w
      call := update s.call r none
      owner := update s.owner s.world.nextSerial r } : RouteLoad).undrained =
        s.undrained := by
    rw [undrained]
    rw [hout, countP_append, countP_singleton, undrained,
      countP_congr (q := fun n => s.owner n ∉ s.inflight) fun n hn => by
        simp only [hold n (mem_of_mem_filter hn)]]
    simp [h.calling hr]
  rw [hundrained, ha.capacity]
  exact h.room

lemma Inv.release (h : Inv retryBudget s) {r : ℕ} (hr : r ∈ s.inflight) (hidle : s.call r = none) :
    Inv retryBudget { s with inflight := s.inflight.erase r } := by
  refine { h with
    named := fun r' hr' => h.named r' (Finset.mem_of_mem_erase hr')
    calling := fun {r' i} hr' => ?_
    room := ?_ }
  · refine Finset.mem_erase.mpr ⟨?_, h.calling hr'⟩
    rintro rfl
    cases hidle.symm.trans hr'
  have hbefore := length_out s
  have hafter := length_out { s with inflight := s.inflight.erase r }
  have hsum := Finset.add_sum_erase s.inflight
    (fun r => s.world.out.countP fun n => s.owner n = r) hr
  have hone := h.countP_out_le r
  have hroom := h.room
  have hcard := Finset.card_erase_add_one hr
  rw [← hcard, Nat.mul_add, Nat.mul_one] at hroom
  dsimp only at hafter hsum ⊢
  omega

lemma Inv.step {e : Event} (h : Inv retryBudget s)
    (hcap : s.world.chan.capacity = maxInflight * (retryBudget + 1))
    (hroomy : Roomy maxInflight retryBudget s e)
    (hstep : RouteLoad.step maxInflight retryBudget s e = some t) :
    Inv retryBudget t ∧ t.world.chan.capacity = s.world.chan.capacity := by
  cases e with
  | tryAdmit =>
    obtain ⟨hlt, ⟨⟩⟩ := ite_none_right_eq_some.mp hstep
    exact ⟨h.tryAdmit hlt hcap hroomy, rfl⟩
  | attempt r =>
    obtain ⟨⟨hr, hidle, hlt⟩, hstep⟩ := ite_none_right_eq_some.mp hstep
    obtain ⟨w, hw, rfl⟩ := map_eq_some_iff.mp hstep
    obtain ⟨ha, hcalls⟩ := step_access h.calls hw
    have hserial := nextSerial_step (by rintro i spurious ⟨⟩) hw
    have hworld := h.access ha hcalls hserial
    refine ⟨hworld.attempt hr hidle hlt fun {r'} hrr => ?_, ha.capacity⟩
    split
    · exact update_of_ne hrr _ _
    · rfl
  | call r spurious =>
    obtain ⟨i, hi, hstep⟩ := bind_eq_some_iff.mp hstep
    obtain ⟨w, hw, rfl⟩ := map_eq_some_iff.mp hstep
    obtain ⟨ha, hcalls, -, hserial | ⟨hserial, hended⟩⟩ := continueCall_cases h.calls hw
    · have hworld := h.access ha hcalls hserial
      rw [if_pos hserial]
      refine ⟨?_, ha.capacity⟩
      split
      · exact hworld
      · exact hworld.endCall r
    · have hdrawn : w.nextSerial ≠ s.world.nextSerial := by omega
      rw [hended, isSome_none, if_neg Bool.false_ne_true, if_neg hdrawn]
      exact ⟨h.grant ha hcalls hserial hi, ha.capacity⟩
  | release r =>
    obtain ⟨⟨hr, hidle⟩, ⟨⟩⟩ := ite_none_right_eq_some.mp hstep
    exact ⟨h.release hr hidle, rfl⟩
  | channel e =>
    obtain ⟨he, hstep⟩ := ite_none_left_eq_some.mp hstep
    obtain ⟨w, hw, rfl⟩ := map_eq_some_iff.mp hstep
    have hswap : ∀ i spurious, e ≠ .reserveSwap i spurious := by
      rintro i spurious rfl
      exact he rfl
    obtain ⟨ha, hcalls⟩ := step_access h.calls hw
    exact ⟨h.access ha hcalls (nextSerial_step hswap hw), ha.capacity⟩

lemma inv_init {cap : ℕ} {chan : State} (h : State.create cap = some chan) :
    Inv retryBudget { world := init chan } where
  counted := counted_init h
  calls := callsPos_init chan
  named := nofun
  spent _ := Nat.le_refl _
  bound _ := Nat.zero_le _
  calling := nofun
  room := Nat.zero_le _

/-! ## Whole runs -/

/-- **The capacity suffices.** In every run whose admissions are all roomy, no attempt is refused
for lack of a credit. -/
theorem reserves_of_roomy {cap : ℕ} {chan : State} {es : List Event}
    (hcap : capacityForRoute maxInflight retryBudget = some cap)
    (hchan : State.create cap = some chan)
    (hrun : run (step maxInflight retryBudget) { world := World.init chan } es = some s)
    (hroomy : Along (step maxInflight retryBudget) (Roomy maxInflight retryBudget)
      { world := World.init chan } es)
    (r : ℕ) (spurious : Bool) (hcall : step maxInflight retryBudget s (.call r spurious) = some t) :
    t.world.chan.rejected = s.world.chan.rejected := by
  have hcapacity : chan.capacity = maxInflight * (retryBudget + 1) := by
    obtain ⟨-, -, rfl⟩ := State.create_some hchan
    rw [capacityForRoute] at hcap
    exact (some.inj (ite_none_left_eq_some.mp hcap).2).symm
  have halways : Always (step maxInflight retryBudget)
      (fun s => Inv retryBudget s ∧ s.world.chan.capacity = maxInflight * (retryBudget + 1))
      { world := init chan } es := by
    refine always_of_along (fun u e v hu hp hv => ?_) ⟨inv_init hchan, hcapacity⟩ hroomy
    obtain ⟨hinv, hsame⟩ := hu.1.step hu.2 hp hv
    exact ⟨hinv, hsame.trans hu.2⟩
  have hs := (halways.final hrun).1
  obtain ⟨i, hi, hstep⟩ := bind_eq_some_iff.mp hcall
  obtain ⟨w, hw, rfl⟩ := map_eq_some_iff.mp hstep
  obtain ⟨-, -, hkeep, -⟩ := continueCall_cases hs.calls hw
  exact hkeep (hs.available_pos hi)

/-- The only request in flight reserves, gives its slot back and publishes its outcome. -/
def finishedOne : List Event :=
  [.tryAdmit, .attempt 0, .call 0 false, .call 0 false, .release 0, .channel (.publish 0 {}),
    .channel (.claim 0), .channel (.check 0), .channel (.write 0), .channel (.ready 0)]

def drainedOne : List Event :=
  [.channel .drainLoad, .channel .drainUnready, .channel .drainReset, .channel .drainAdvance,
    .channel .drainConsume, .channel .drainCredit]

theorem reserves_of_roomy_drained :
    ∃ s t, run (step 1 0) { world := World.init { available := 1, capacity := 1 } }
        (finishedOne ++ drainedOne ++ [.tryAdmit, .attempt 1]) = some s ∧
      step 1 0 s (.call 1 false) = some t ∧ t.world.chan.rejected = s.world.chan.rejected := by
  have hcap : capacityForRoute 1 0 = some 1 := rfl
  obtain ⟨s, hs⟩ : ∃ s, run (step 1 0) { world := init { available := 1, capacity := 1 } }
      (finishedOne ++ drainedOne ++ [.tryAdmit, .attempt 1]) = some s := ⟨_, rfl⟩
  obtain ⟨t, ht⟩ : ∃ t, step 1 0 s (.call 1 false) = some t := by
    cases hs
    exact ⟨_, rfl⟩
  exact ⟨s, t, hs, ht, reserves_of_roomy hcap rfl hs (by decide) 1 false ht⟩

/-- With the outcome of the first request not drained, the second is refused: a route with one
in-flight slot and no retries, whose channel is accepting. -/
theorem refused_undrained :
    capacityForRoute 1 0 = some 1 ∧ State.create 1 = some { available := 1, capacity := 1 } ∧
      ∃ s t, run (step 1 0) { world := World.init { available := 1, capacity := 1 } }
          (finishedOne ++ [.tryAdmit, .attempt 1]) = some s ∧
        s.world.chan.accepting ∧ step 1 0 s (.call 1 false) = some t ∧
        s.world.chan.rejected = 0 ∧ t.world.chan.rejected = 1 ∧
        t.world.nextSerial = s.world.nextSerial ∧ t.call 1 = none := by
  exact ⟨rfl, rfl, _, _, rfl, rfl, rfl, rfl, rfl, rfl, rfl⟩

end RouteLoad
end AegisGate.Health
