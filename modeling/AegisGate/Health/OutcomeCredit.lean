import AegisGate.Health.OutcomeAccess

/-!
# Credit conservation in the outcome channel

Every successful `TryReserve` takes one credit and draws one serial number. At any
time each serial number is in exactly one place: in a live reservation, in a
`Publish` call that has not yet claimed a slot, in a claim whose credit the drain
has not restored, or in the list of returned credits. `CreditInv` says so as an
equation of multisets, and its cardinality is the accounting identity.

The ring and the credits depend on each other: the credits bound the number of
undrained claims, which keeps the slots of the ring apart; the ring tells which
claim a restored credit belongs to. `Good` joins them, and `good_of_reaches` is the
invariant of every run in which the slots cannot collide.
-/

namespace AegisGate.Health.OutcomeChannel
open Lib World List Option

/-- **The credit invariant.** -/
structure CreditInv (v : RingView) (c : CreditView) : Prop where
  count : c.available + c.nextSerial = v.capacity + c.returned.length
  split : c.live + c.begun + ↑((v.claims.drop v.credited).map Claim.serial) + ↑c.returned =
    Multiset.range c.nextSerial

namespace CreditInv
variable {v : RingView} {c : CreditView}

lemma balance (h : CreditInv v c) :
    c.available + c.live.card + (c.begun.card + (v.claims.length - v.credited)) = v.capacity := by
  have hcard := congrArg Multiset.card h.split
  simp only [Multiset.card_add, Multiset.coe_card, length_map, length_drop,
    Multiset.card_range] at hcard
  have := h.count
  omega

lemma incW_available (h : CreditInv v c) (hcap : v.capacity ≤ kMaxOutcomeCapacity) :
    incW 32 c.available = c.available + 1 := by
  have hbalance := h.balance
  rw [kMaxOutcomeCapacity] at hcap
  exact Nat.mod_eq_of_lt (by omega)

lemma returned_nodup (h : CreditInv v c) : c.returned.Nodup := by
  have hle : (↑c.returned : Multiset ℕ) ≤ Multiset.range c.nextSerial := by
    rw [← h.split]
    exact Multiset.le_add_left _ _
  exact Multiset.coe_nodup.mp (Multiset.nodup_of_le hle (Multiset.nodup_range _))

end CreditInv

/-- The channel works as designed: the ring and the credits are in order and no
overflow was detected. -/
structure Good (w : World) : Prop where
  ring : RingInv w.ring
  credit : CreditInv w.ring w.credit
  running : w.aborted = false
  capacity_pos : 0 < w.chan.capacity
  capacity_le : w.chan.capacity ≤ kMaxOutcomeCapacity

namespace Good
variable {w w' : World}

lemma available_le (h : Good w) : w.chan.available ≤ w.chan.capacity := by
  have := h.credit.balance
  change w.chan.available + _ + _ = w.chan.capacity at this
  omega

lemma incW_available (h : Good w) : incW 32 w.chan.available = w.chan.available + 1 :=
  h.credit.incW_available h.capacity_le

lemma credited_lt (h : Good w) (hd : w.drain = .consumed) : w.credited < w.claims.length := by
  have hdrain := h.ring.drain_ok
  simp only [RingView.DrainOk, show w.ring.drain = .consumed from hd] at hdrain
  have htail : w.tailCount ≤ w.claims.length := h.ring.tail_le
  have hnext : w.credited + 1 = w.tailCount := hdrain.1
  omega

lemma fits (h : Good w) (hinj : WindowInjective 32 w.chan.capacity w.claims.length) :
    Fits w.ring := by
  refine ⟨?_, hinj⟩
  have := h.credit.balance
  omega

/-- The overflow test of `Enqueue` passes. -/
lemma subW_lt (h : Good w) {i : ℕ} {e : Enqueuing} (he : w.ring.enq i = some e) :
    subW 32 e.claimed w.chan.tail < w.chan.capacity := by
  obtain ⟨hte, hce, -, hcl⟩ := h.ring.enq_ok i e he
  have hlt : e.ticket < w.claims.length := (List.getElem?_eq_some_iff.mp hcl).1
  have hcr : w.credited ≤ w.tailCount := h.ring.credited_le
  have hb := h.credit.balance
  have hcap := h.capacity_le
  change _ + (_ + (w.claims.length - w.credited)) = w.chan.capacity at hb
  change w.tailCount ≤ e.ticket at hte
  have htail : w.chan.tail = w.tailCount % 2 ^ 32 := h.ring.tail_eq
  unfold kMaxOutcomeCapacity at hcap
  rw [hce, htail, subW_mod hte (by omega)]
  omega

end Good

/-! ## One access -/

variable {w w' : World} {i cap : ℕ} {s : State} {o : Reservation}

lemma Access.capacity (h : Access w w') : w'.chan.capacity = w.chan.capacity := by
  have key : w'.ring.capacity = w.ring.capacity := by
    cases h with
    | abort i e he hs hle hw => rw [hw]; rfl
    | claim i n r rest hi hb hr => rw [hr]; rfl
    | store i e s sl he hs hr => rw [hr]; rfl
    | _ => simp [*]
  exact key

lemma Access.length_claims (h : Access w w') : w.claims.length ≤ w'.claims.length := by
  have key : w.ring.claims.length ≤ w'.ring.claims.length := by
    cases h with
    | abort i e he hs hle hw => rw [hw]; exact Nat.le_refl _
    | claim i n r rest hi hb hr => rw [hr]; simp [RingView.claim]
    | store i e s sl he hs hr => rw [hr]; simp [RingView.store]
    | _ => simp [*]
  exact key

/-- A store of `Enqueue` leaves in the slot what its new stage promises. -/
lemma RingInv.leaves {v : RingView} (h : RingInv v) {e : Enqueuing} {s : Stage} {sl : Slot}
    (he : v.enq i = some e) (hs : Stores e.result (v.slots (e.claimed % v.capacity)) e.stage s sl) :
    RingView.Leaves e.result sl s := by
  obtain ⟨hte, hce, -, hcl⟩ := h.enq_ok i e he
  have hok := h.slot_ok _ _ hcl hte
  have hidx : e.claimed % v.capacity = v.slotOf e.ticket := by rw [hce]; rfl
  rw [hidx] at hs
  cases hst : e.stage with
  | claimed =>
    rw [hst] at hs hok
    cases hs
    exact hok
  | checked =>
    rw [hst] at hs hok
    cases hs
    exact congrArg (Slot.mk e.result) hok
  | written =>
    rw [hst] at hs hok
    cases hs
    rw [show v.slots (v.slotOf e.ticket) = ⟨e.result, false⟩ from hok]
    rfl
  | ready =>
    rw [hst] at hs
    cases hs

lemma Access.ringInv (ha : Access w w') (h : Good w)
    (hinj : WindowInjective 32 w'.chan.capacity w'.claims.length) : RingInv w'.ring := by
  have hcap := ha.capacity
  have hf : Fits w.ring := h.fits (hcap ▸ hinj.mono ha.length_claims)
  have htail : w.chan.tail % w.chan.capacity = w.ring.slotOf w.tailCount := by
    rw [show w.chan.tail = w.tailCount % 2 ^ 32 from h.ring.tail_eq]
    rfl
  have hd := h.ring.drain_ok
  cases ha with
  | inert hr => exact hr ▸ h.ring
  | grant hr => exact hr ▸ h.ring
  | giveBack n rest hl hr => exact hr ▸ h.ring
  | publish n rest hl hr => exact hr ▸ h.ring
  | claim i n r rest hi hb hr =>
    have hlen : w'.claims.length = w.claims.length + 1 := by
      have hclaims : w'.claims = w.claims ++ [⟨r, n, .claimed⟩] := congrArg RingView.claims hr
      simp [hclaims]
    rw [hr]
    refine h.ring.claim hi ⟨?_, ?_⟩
    · have hbal := h.credit.balance
      have hle : w.credited ≤ w.claims.length := h.ring.credited_le.trans h.ring.tail_le
      rw [hb, Multiset.card_cons] at hbal
      change _ + (_ + (w.claims.length - w.credited)) = w.chan.capacity at hbal
      simp only [RingView.claim, length_append, length_singleton]
      change w.claims.length + 1 ≤ w.credited + w.chan.capacity
      omega
    · rw [hcap, hlen] at hinj
      simp only [RingView.claim, length_append, length_singleton]
      exact hinj
  | abort i e he hs hle hw => exact hw ▸ h.ring
  | store i e s sl he hs hr =>
    rw [hr]
    exact h.ring.store hf he (h.ring.leaves he hs)
  | load hidle hready hr =>
    rw [htail] at hr hready
    rw [hr]
    exact h.ring.load hf hidle hready
  | unready index r hload hr =>
    simp only [RingView.DrainOk, show w.ring.drain = .loaded index r from hload] at hd
    obtain ⟨h1, h2, hh, rfl⟩ := hd
    rw [hr]
    exact h.ring.clear hf ⟨h1, h2, hh, rfl⟩ (.inl ⟨_, r, rfl⟩) hh rfl
  | reset index r hunready hr =>
    simp only [RingView.DrainOk, show w.ring.drain = .unready index r from hunready] at hd
    obtain ⟨h1, h2, hh, rfl⟩ := hd
    obtain ⟨c, hc, hst, hcr⟩ := hh
    have hslot := h.ring.slot_ok _ c hc (Nat.le_refl _)
    simp only [RingView.SlotOk, hst] at hslot
    rw [hr]
    exact h.ring.clear hf ⟨h1, h2, c, hc, hst, hcr⟩ (.inr ⟨r, rfl⟩) ⟨c, hc, hst, hcr⟩
      (hslot.1 ⟨trivial, .inl ⟨_, r, hunready⟩⟩)
  | advance r hreset hr =>
    rw [hr]
    exact h.ring.advance hreset
  | consume r hadv hr =>
    rw [hr]
    exact h.ring.consume hadv
  | restore hcon hr =>
    rw [hr]
    exact h.ring.credit hcon

lemma Access.creditInv (ha : Access w w') (h : CreditInv w.ring w.credit)
    (hcap : w.chan.capacity ≤ kMaxOutcomeCapacity) (hle : w.credited ≤ w.claims.length)
    (hconsumed : w.drain = .consumed → w.credited < w.claims.length) :
    CreditInv w'.ring w'.credit := by
  obtain ⟨hcount, hsplit⟩ := id h
  have hinc : incW 32 w.chan.available = w.chan.available + 1 := h.incW_available hcap
  cases ha with
  | inert hr hc => exact hr ▸ hc ▸ h
  | grant hr hpos hc =>
    rw [hr, hc]
    refine ⟨?_, ?_⟩
    · change w.chan.available - 1 + (w.nextSerial + 1) = w.chan.capacity + w.returned.length
      change w.chan.available + w.nextSerial = w.chan.capacity + w.returned.length at hcount
      omega
    · rw [Multiset.range_succ, ← show _ = Multiset.range w.nextSerial from hsplit]
      simp only [Multiset.cons_add]
  | giveBack n rest hl hr hc =>
    rw [hr, hc]
    refine ⟨?_, ?_⟩
    · change incW 32 w.chan.available + w.nextSerial = _ + (w.returned ++ [n]).length
      change w.chan.available + w.nextSerial = _ + w.returned.length at hcount
      rw [hinc, length_append, length_singleton]
      omega
    · rw [hl] at hsplit
      rw [← hsplit, ← Multiset.coe_add, Multiset.coe_singleton, ← Multiset.singleton_add]
      simp only [credit]
      abel
  | publish n rest hl hr hc =>
    rw [hr, hc]
    refine ⟨hcount, ?_⟩
    rw [hl] at hsplit
    rw [← hsplit]
    simp only [Multiset.cons_add, Multiset.add_cons]
  | claim i n r rest hi hb hr hc =>
    have hle : w.ring.credited ≤ w.ring.claims.length := hle
    rw [hr, hc]
    refine ⟨hcount, ?_⟩
    rw [hb] at hsplit
    rw [← hsplit]
    simp only [RingView.claim]
    rw [drop_append_of_le_length hle, map_append, ← Multiset.coe_add]
    simp only [map_cons, map_nil, Multiset.coe_singleton, ← Multiset.singleton_add]
    abel
  | abort i e he hs hle hw => exact hw ▸ h
  | store i e s sl he hs hr hc =>
    rw [hr, hc]
    refine ⟨hcount, ?_⟩
    rw [← hsplit]
    simp only [RingView.store, map_drop]
    rw [map_restage (by intros; rfl)]
  | load hidle hready hr hc | unready index r hd hr hc | reset index r hd hr hc
  | advance r hd hr hc | consume r hd hr hc =>
    rw [hr, hc]
    exact ⟨hcount, hsplit⟩
  | restore hd hr hc =>
    have hlt := hconsumed hd
    rw [hr, hc, List.getElem?_eq_getElem hlt]
    refine ⟨?_, ?_⟩
    · change incW 32 w.chan.available + w.nextSerial = _
      change w.chan.available + w.nextSerial = _ + w.returned.length at hcount
      rw [hinc]
      simp only [map_some, toList_some, length_append, length_singleton]
      omega
    have hdrop : w.claims.drop w.credited =
        w.claims[w.credited] :: w.claims.drop (w.credited + 1) :=
      drop_eq_getElem_cons hlt
    rw [show w.ring.claims.drop w.ring.credited = _ from hdrop] at hsplit
    rw [← hsplit]
    simp only [map_some, toList_some, map_cons, ← Multiset.coe_add,
      ← Multiset.cons_coe, ← Multiset.singleton_add, credit, ring]
    abel

/-- **One step keeps the channel in order** as long as the slots cannot collide. -/
theorem Access.good (ha : Access w w') (h : Good w)
    (hinj : WindowInjective 32 w'.chan.capacity w'.claims.length) : Good w' := by
  have hcap := ha.capacity
  have hrunning : w'.aborted = false := by
    cases ha with
    | abort i e he hs hle hw => exact absurd hle (Nat.not_le.mpr (h.subW_lt he))
    | _ => assumption
  have hle : w.credited ≤ w.claims.length := h.ring.credited_le.trans h.ring.tail_le
  exact ⟨ha.ringInv h hinj, ha.creditInv h.credit h.capacity_le hle h.credited_lt, hrunning,
    hcap ▸ h.capacity_pos, hcap ▸ h.capacity_le⟩

/-! ## Whole runs -/

lemma State.create_some (h : State.create cap = some s) :
    0 < cap ∧ cap ≤ kMaxOutcomeCapacity ∧ s = { available := cap, capacity := cap } := by
  unfold State.create at h
  split at h <;> cases h
  next hc =>
  exact ⟨by omega, by omega, rfl⟩

lemma good_init (h : State.create cap = some s) : Good (init s) := by
  obtain ⟨hpos, hle, rfl⟩ := State.create_some h
  refine ⟨⟨rfl, rfl, Nat.le_refl _, ⟨rfl, rfl⟩, rfl, ?_, ?_, ?_, ?_⟩, ⟨rfl, rfl⟩, rfl, hpos, hle⟩
  · intro k c hk
    simp [init, ring] at hk
  · intro j hj
    simp [init, ring] at hj
  · intro i e he
    simp [init, ring, enqueues] at he
  · intro i j e f he
    simp [init, ring, enqueues] at he

/-- **The invariant of every run** whose claims cannot collide in the ring. -/
theorem good_of_reaches (hs : State.create cap = some s) (hw : Reaches step (init s) w) :
    CallsPos w ∧ w.chan.capacity = cap ∧ (WindowInjective 32 cap w.claims.length → Good w) := by
  refine hw.invariant (I := fun w => CallsPos w ∧ w.chan.capacity = cap ∧
    (WindowInjective 32 cap w.claims.length → Good w)) ⟨callsPos_init s, ?_,
    fun _ => good_init hs⟩ ?_
  · obtain ⟨-, -, rfl⟩ := State.create_some hs
    rfl
  · rintro w e w' ⟨hpos, hcap, hgood⟩ hstep
    obtain ⟨ha, hcalls⟩ := step_access hpos hstep
    refine ⟨hcalls, ha.capacity.trans hcap, fun hinj => ?_⟩
    refine ha.good (hgood (hinj.mono ha.length_claims)) ?_
    rwa [ha.capacity, hcap]

/-! ## The accounting identity -/

def World.liveReservations (w : World) : ℕ := w.objects.countP fun o => o.any Reservation.live

/-- A `Publish` call that has finalized its reservation and not yet claimed a slot. -/
def Reservation.begun (o : Reservation) : Bool :=
  match o.publishing with
  | some (.begun _) => true
  | _ => false

/-- Published outcomes whose credit the drain has not yet restored. -/
def World.unrestored (w : World) : ℕ :=
  w.objects.countP (fun o => o.any Reservation.begun) + (w.claims.length - w.credited)

lemma card_live (w : World) : w.credit.live.card = w.liveReservations := by
  simp only [credit, held, Multiset.coe_card, liveReservations, length_filterMap_eq_countP]
  refine countP_congr fun o _ => ?_
  cases o with
  | none => simp
  | some o => by_cases h : o.live <;> simp [liveSerial, h]

lemma card_begun (w : World) :
    w.credit.begun.card = w.objects.countP fun o => o.any Reservation.begun := by
  simp only [credit, held, Multiset.coe_card, length_filterMap_eq_countP]
  refine countP_congr fun o _ => ?_
  cases o with
  | none => simp
  | some o =>
    simp only [begunSerial, any_some, Reservation.begun]
    split <;> simp [*]

/-- The operations that finalize the reservation object `i`, or leave it alone if it
has nothing to finalize. -/
def Event.Finalizes (i : ℕ) : Event → Prop
  | .publish k _ | .cancel k | .destroy k | .moveAssign k _ => k = i
  | _ => False

/-- The operations that move out of the reservation object `i`. -/
def Event.MovesFrom (i : ℕ) : Event → Prop
  | .moveConstruct k => k = i
  | .moveAssign j k => k = i ∧ j ≠ i
  | _ => False

/-- What credit conservation means in one state. -/
structure Conserved (cap : ℕ) (w : World) : Prop where
  balance : w.chan.available + w.liveReservations + w.unrestored = cap
  bounded : w.chan.available ≤ cap
  no_wrap : ∀ e w', step w e = some w' →
    w'.chan.available ≤ w.chan.available + 1 ∧ w.chan.available ≤ w'.chan.available + 1
  returned_once : w.returned.Nodup
  spent : ∀ i o e w', w.object i = some o → o.live = false → e.Finalizes i →
    step w e = some w' → w'.chan = w.chan ∧ w'.claims = w.claims ∧ w'.returned = w.returned
  moved_from : ∀ i o e w', e.MovesFrom i → step w e = some w' → w'.object i = some o →
    o.live = false
  running : w.aborted = false

lemma giveBack_dead (h : o.live = false) : w.giveBack o = w := by
  simp [giveBack, h]

lemma step_spent {e : Event} (ho : w.object i = some o) (hd : o.live = false) (he : e.Finalizes i)
    (h : step w e = some w') :
    w'.chan = w.chan ∧ w'.claims = w.claims ∧ w'.returned = w.returned := by
  have hquiet : ∀ p, w.quiet i = some p → p.live = false := by
    intro p hp
    simp only [quiet, ho, filter_some] at hp
    split at hp <;> cases hp
    exact hd
  unfold step at h
  split at h
  · cases h
  cases e with
  | publish k r =>
    cases he
    simp only [map_eq_some_iff] at h
    obtain ⟨p, hp, h⟩ := h
    rw [if_neg (by simp [hquiet p hp])] at h
    cases h
    exact ⟨rfl, rfl, rfl⟩
  | cancel k | destroy k =>
    cases he
    simp only [map_eq_some_iff] at h
    obtain ⟨p, hp, rfl⟩ := h
    rw [giveBack_dead (hquiet p hp)]
    exact ⟨rfl, rfl, rfl⟩
  | moveAssign k j =>
    cases he
    simp only [bind_eq_some_iff, map_eq_some_iff] at h
    obtain ⟨p, hp, q, -, h⟩ := h
    split at h <;> cases h
    · exact ⟨rfl, rfl, rfl⟩
    · rw [giveBack_dead (hquiet p hp)]
      exact ⟨rfl, rfl, rfl⟩
  | _ => exact he.elim

lemma step_moved_from {e : Event} (he : e.MovesFrom i) (h : step w e = some w')
    (ho : w'.object i = some o) : o.live = false := by
  unfold step at h
  split at h
  · cases h
  cases e with
  | moveConstruct k =>
    cases he
    simp only [map_eq_some_iff] at h
    obtain ⟨p, hp, rfl⟩ := h
    have hi := (List.getElem?_eq_some_iff.mp (quiet_some hp).1).1
    have hset : (w.objects.set i (some (emptied p)) ++ [some (takeOver {} p)])[i]? =
        some (some (emptied p)) := by
      rw [getElem?_append_left (by simpa using hi), getElem?_set_self hi]
    simp only [object, hset, join_some, some.injEq] at ho
    subst ho
    simp [emptied, Reservation.live]
  | moveAssign j k =>
    obtain ⟨rfl, hjk⟩ := he
    simp only [bind_eq_some_iff, map_eq_some_iff, if_neg hjk] at h
    obtain ⟨p, -, q, hq, rfl⟩ := h
    have hk := (List.getElem?_eq_some_iff.mp (quiet_some hq).1).1
    simp only [object] at ho
    rw [getElem?_set_self (by simpa using hk), join_some, some.injEq] at ho
    subst ho
    simp [emptied, Reservation.live]
  | _ => exact he.elim

/-- A step moves `available` by at most one and never across zero. -/
lemma Access.available (ha : Access w w') (h : Good w) :
    w'.chan.available ≤ w.chan.available + 1 ∧ w.chan.available ≤ w'.chan.available + 1 := by
  have hinc := h.incW_available
  have key : w'.credit.available = w.credit.available ∨
      w'.credit.available + 1 = w.credit.available ∨
      w'.credit.available = w.credit.available + 1 := by
    cases ha with
    | grant hr hpos hc =>
      refine .inr (.inl ?_)
      rw [hc]
      exact Nat.sub_add_cancel hpos
    | giveBack n rest hl hr hc | restore hd hr hc => exact .inr (.inr (hc ▸ hinc))
    | abort i e he hs hle hw => exact .inl (hw ▸ rfl)
    | publish n rest hl hr hc | claim i n r rest hi hb hr hc => exact .inl (hc ▸ rfl)
    | _ => simp [*]
  change w'.chan.available = w.chan.available ∨ w'.chan.available + 1 = w.chan.available ∨
    w'.chan.available = w.chan.available + 1 at key
  omega

/-- **Credit conservation.** In every state that any interleaving reaches before the
head counter wraps, each credit is available, in a live reservation, or with a
published outcome whose credit is not yet restored; none is returned twice and the
overflow test of `Enqueue` never fails. -/
theorem credit_conservation {cap : ℕ} {s : State} (hs : State.create cap = some s) {w : World}
    (hw : Reaches step (init s) w) (hclaims : w.claims.length ≤ 2 ^ 32) : Conserved cap w := by
  obtain ⟨hpos, hcap, hgood⟩ := good_of_reaches hs hw
  have hg : Good w := by
    obtain ⟨hcpos, -, -⟩ := State.create_some hs
    exact hgood ((windowInjective_iff hcpos).mpr (.inr hclaims))
  have hbal := hg.credit.balance
  rw [card_live, card_begun] at hbal
  refine ⟨?_, hcap ▸ hg.available_le, ?_, hg.credit.returned_nodup, ?_, ?_, hg.running⟩
  · rw [← hcap]
    exact hbal
  · intro e w' hstep
    exact (step_access hpos hstep).1.available hg
  · intro i o e w' ho hd he hstep
    exact step_spent ho hd he hstep
  · intro i o e w' he hstep ho
    exact step_moved_from he hstep ho

/-- Two reservations, one published and claimed, one moved and cancelled. -/
def twoReservations : List Event :=
  [.reserve, .reserve, .reserveLoad 0, .reserveSwap 0 false, .reserveLoad 1, .reserveSwap 1 false,
    .publish 0 {}, .claim 0, .moveConstruct 1, .cancel 2]

theorem credit_conservation_twoReservations :
    ∃ s w, State.create 2 = some s ∧ run step (init s) twoReservations = some w ∧
      w.chan.available = 1 ∧ Conserved 2 w :=
  ⟨_, _, rfl, rfl, rfl, credit_conservation rfl ⟨twoReservations, rfl⟩ (by decide)⟩

end AegisGate.Health.OutcomeChannel
