import AegisGate.Health.OutcomeRing

/-!
# What one access of the outcome channel can do

`step` has twenty events. Seen from the ring and from the credits they fall into
thirteen kinds, which `Access` lists with everything that changes and under which
guard; `step_access` is the inversion of `step` into these kinds. Every invariant of
the channel is derived from `Access`, never from `step`.
-/

namespace AegisGate.Health.OutcomeChannel
open Lib World Option Function List Multiset

/-- The credit an object holds. -/
def liveSerial : Option Reservation → Option ℕ
  | some o => if o.live then some o.serial else none
  | none => none

/-- The credit of a `Publish` call that has not yet claimed a slot. -/
def begunSerial : Option Reservation → Option ℕ
  | some o =>
    match o.publishing with
    | some (.begun _) => some o.serial
    | _ => none
  | none => none

@[simp] lemma liveSerial_none : liveSerial none = none := rfl
@[simp] lemma begunSerial_none : begunSerial none = none := rfl

variable {o : Reservation}

lemma begunSerial_quiet (h : o.publishing = none) :
    begunSerial (some o) = none := by simp [begunSerial, h]

lemma liveSerial_live (h : o.live) :
    liveSerial (some o) = some o.serial := by simp [liveSerial, h]

lemma liveSerial_dead (h : o.live = false) : liveSerial (some o) = none := by simp [liveSerial, h]

@[simp] lemma liveSerial_emptied (o : Reservation) : liveSerial (some (emptied o)) = none := by
  simp [liveSerial, emptied, Reservation.live]

@[simp] lemma liveSerial_takeOver (o p : Reservation) :
    liveSerial (some (takeOver o p)) = liveSerial (some p) := by
  simp [liveSerial, takeOver, Reservation.live]

/-- The credits, as the accounting argument sees them. -/
structure CreditView where
  available : ℕ
  nextSerial : ℕ
  live : Multiset ℕ
  begun : Multiset ℕ
  returned : List ℕ

/-- The part of a world that the credit argument reads. -/
def World.credit (w : World) : CreditView where
  available := w.chan.available
  nextSerial := w.nextSerial
  live := held liveSerial w.objects
  begun := held begunSerial w.objects
  returned := w.returned

/-- What a store of `Enqueue` does to its stage and its slot. -/
inductive Stores (r : AttemptResult) (old : Slot) : Stage → Stage → Slot → Prop
  | check : Stores r old .claimed .checked old
  | write : Stores r old .checked .written { old with value := r }
  | ready : Stores r old .written .ready { old with ready := true }

/-- One access, seen from the ring and from the credits. -/
inductive Access (w w' : World) : Prop
  /-- Neither the ring nor a credit is touched. -/
  | inert (hr : w'.ring = w.ring) (hc : w'.credit = w.credit) (ha : w'.aborted = false)
  /-- A compare-exchange of `TryReserve` succeeded. -/
  | grant (hr : w'.ring = w.ring) (hpos : 0 < w.chan.available)
      (hc : w'.credit = { w.credit with
        available := w.chan.available - 1
        nextSerial := w.nextSerial + 1
        live := w.nextSerial ::ₘ w.credit.live }) (ha : w'.aborted = false)
  /-- A live reservation was finalized without a result. -/
  | giveBack (n : ℕ) (rest : Multiset ℕ) (hl : w.credit.live = n ::ₘ rest) (hr : w'.ring = w.ring)
      (hc : w'.credit = { w.credit with
        available := incW 32 w.chan.available
        live := rest
        returned := w.returned ++ [n] }) (ha : w'.aborted = false)
  /-- `Publish` finalized a live reservation. -/
  | publish (n : ℕ) (rest : Multiset ℕ) (hl : w.credit.live = n ::ₘ rest) (hr : w'.ring = w.ring)
      (hc : w'.credit = { w.credit with live := rest, begun := n ::ₘ w.credit.begun })
      (ha : w'.aborted = false)
  /-- `Enqueue` incremented `head`. -/
  | claim (i n : ℕ) (r : AttemptResult) (rest : Multiset ℕ) (hi : w.ring.enq i = none)
      (hb : w.credit.begun = n ::ₘ rest) (hr : w'.ring = w.ring.claim i r n)
      (hc : w'.credit = { w.credit with begun := rest }) (ha : w'.aborted = false)
  /-- The overflow test of `Enqueue` failed. -/
  | abort (i : ℕ) (e : Enqueuing) (he : w.ring.enq i = some e) (hs : e.stage = .claimed)
      (hle : w.chan.capacity ≤ subW 32 e.claimed w.chan.tail) (hw : w' = { w with aborted := true })
  /-- A later access of `Enqueue`. -/
  | store (i : ℕ) (e : Enqueuing) (s : Stage) (sl : Slot) (he : w.ring.enq i = some e)
      (hs : Stores e.result (w.chan.slots (e.claimed % w.chan.capacity)) e.stage s sl)
      (hr : w'.ring = w.ring.store i e s sl) (hc : w'.credit = w.credit) (ha : w'.aborted = false)
  /-- The coordinator read a ready slot. -/
  | load (hd : w.drain = .idle)
      (hready : (w.chan.slots (w.chan.tail % w.chan.capacity)).ready)
      (hr : w'.ring = { w.ring with
        drain := .loaded (w.chan.tail % w.chan.capacity)
          (w.chan.slots (w.chan.tail % w.chan.capacity)).value })
      (hc : w'.credit = w.credit) (ha : w'.aborted = false)
  /-- The coordinator took the ready flag back. -/
  | unready (index : ℕ) (r : AttemptResult) (hd : w.drain = .loaded index r)
      (hr : w'.ring = { w.ring with
        drain := .unready index r
        slots := update w.chan.slots index { w.chan.slots index with ready := false } })
      (hc : w'.credit = w.credit) (ha : w'.aborted = false)
  /-- The coordinator reset the value. -/
  | reset (index : ℕ) (r : AttemptResult) (hd : w.drain = .unready index r)
      (hr : w'.ring = { w.ring with
        drain := .reset r
        slots := update w.chan.slots index { w.chan.slots index with value := {} } })
      (hc : w'.credit = w.credit) (ha : w'.aborted = false)
  /-- The coordinator advanced the tail. -/
  | advance (r : AttemptResult) (hd : w.drain = .reset r)
      (hr : w'.ring = { w.ring with
        tail := incW 32 w.chan.tail, tailCount := w.tailCount + 1, drain := .advanced r })
      (hc : w'.credit = w.credit) (ha : w'.aborted = false)
  /-- The coordinator ran the consumer. -/
  | consume (r : AttemptResult) (hd : w.drain = .advanced r)
      (hr : w'.ring = { w.ring with consumed := w.consumed ++ [r], drain := .consumed })
      (hc : w'.credit = w.credit) (ha : w'.aborted = false)
  /-- The coordinator returned the credit. -/
  | restore (hd : w.drain = .consumed)
      (hr : w'.ring = { w.ring with credited := w.credited + 1, drain := .idle })
      (hc : w'.credit = { w.credit with
        available := incW 32 w.chan.available
        returned := w.returned ++ ((w.claims[w.credited]?).map Claim.serial).toList })
      (ha : w'.aborted = false)

/-! ## Inversion of a step -/

namespace World
variable {w : World}

variable {i : ℕ} {o : Reservation}

lemma object_some (h : w.object i = some o) : w.objects[i]? = some (some o) := by
  simpa [object, join_eq_some_iff] using h

lemma quiet_some (h : w.quiet i = some o) :
    w.objects[i]? = some (some o) ∧ o.publishing = none := by
  simp only [quiet, filter_eq_some_iff, isNone_iff_eq_none] at h
  exact ⟨object_some h.1, h.2⟩

lemma publishCall_some {p : PublishCall} (h : w.publishCall i = some (o, p)) :
    w.objects[i]? = some (some o) ∧ o.publishing = some p := by
  simp only [publishCall, bind_eq_some_iff, map_eq_some_iff, Prod.mk.injEq] at h
  obtain ⟨o', ho', p', hp', rfl, rfl⟩ := h
  exact ⟨object_some ho', hp'⟩

/-- The running `Enqueue` call, as the ring sees it. -/
lemma enq_of_publishCall {t c : ℕ} {r : AttemptResult} {s : Stage}
    (h : w.publishCall i = some (o, .enqueuing t c r s)) :
    w.ring.enq i = some ⟨t, c, r, s, o.serial⟩ := by
  obtain ⟨hobj, hp⟩ := publishCall_some h
  simp [ring, enqueues_eq hobj, enqueuingOf, hp]

end World

/-- A positive value is loaded into `current` before every compare-exchange. -/
def CallsPos (w : World) : Prop := ∀ c, some (ReserveCall.loaded c) ∈ w.calls → 0 < c

section StepAccess
variable {w : World} (ha : w.aborted = false)
include ha

lemma access_reload (i : ℕ) : Access w (w.reload i) := by
  unfold reload
  split
  · exact .inert rfl rfl ha
  · exact .inert rfl rfl ha

variable {o : Reservation}

/-- `Finalize` of an object, whatever the operation then leaves in its place. -/
lemma access_finalize {objects : List (Option Reservation)}
    (he : enqueues objects = enqueues w.objects)
    (hb : held begunSerial objects = held begunSerial w.objects)
    (hl : held liveSerial objects + heldBy liveSerial (some o) = held liveSerial w.objects) :
    Access w { w.giveBack o with objects := objects } := by
  unfold giveBack
  by_cases ho : o.live
  · rw [heldBy_of_some (liveSerial_live ho)] at hl
    refine .giveBack o.serial (held liveSerial objects) ?_ ?_ ?_ ?_
    · rw [credit, ← hl, add_comm, singleton_add]
    · simp [ring, ho, he]
    · simp [credit, ho, hb]
    · simpa [ho] using ha
  · rw [heldBy_of_none (liveSerial_dead (by simpa using ho)), add_zero] at hl
    refine .inert ?_ ?_ ?_
    · simp [ring, ho, he]
    · simp [credit, ho, hb, hl]
    · simpa [ho] using ha

/-- `Finalize` of a quiet object that is replaced by one without a credit. -/
lemma access_drop {i : ℕ} {p : Option Reservation} (ho : w.quiet i = some o)
    (hp : enqueuingOf p = none) (hpb : begunSerial p = none) (hpl : liveSerial p = none) :
    Access w { w.giveBack o with objects := w.objects.set i p } := by
  obtain ⟨hobj, hq⟩ := quiet_some ho
  apply access_finalize ha
  · exact enqueues_set_of_eq hobj (hp.trans (enqueuingOf_quiet hq).symm)
  · exact held_set_of_eq hobj (hpb.trans (begunSerial_quiet hq).symm)
  · simpa [heldBy_of_none hpl] using held_set p hobj (f := liveSerial)

lemma access_moveAssign {i j : ℕ} {p : Reservation} (hij : i ≠ j) (ho : w.quiet i = some o)
    (hp : w.quiet j = some p) :
    Access w { w.giveBack o with
      objects := (w.objects.set i (some (takeOver o p))).set j (some (emptied p)) } := by
  obtain ⟨hobjo, hqo⟩ := quiet_some ho
  obtain ⟨hobjp, hqp⟩ := quiet_some hp
  have hobjp' : (w.objects.set i (some (takeOver o p)))[j]? = some (some p) := by
    rw [getElem?_set_ne hij, hobjp]
  apply access_finalize ha
  · have h1 : enqueuingOf (some (takeOver o p)) = none := enqueuingOf_quiet hqo
    have h2 : enqueuingOf (some (emptied p)) = none := enqueuingOf_quiet hqp
    exact (enqueues_set_of_eq hobjp' (h2.trans (enqueuingOf_quiet hqp).symm)).trans
      (enqueues_set_of_eq hobjo (h1.trans (enqueuingOf_quiet hqo).symm))
  · have h1 : begunSerial (some (takeOver o p)) = none := begunSerial_quiet hqo
    have h2 : begunSerial (some (emptied p)) = none := begunSerial_quiet hqp
    exact (held_set_of_eq hobjp' (h2.trans (begunSerial_quiet hqp).symm)).trans
      (held_set_of_eq hobjo (h1.trans (begunSerial_quiet hqo).symm))
  have h1 := held_set (some (takeOver o p)) hobjo (f := liveSerial)
  have h2 := held_set (some (emptied p)) hobjp' (f := liveSerial)
  rw [heldBy_of_none (liveSerial_emptied p), add_zero] at h2
  have hp : heldBy liveSerial (some (takeOver o p)) = heldBy liveSerial (some p) := by
    simp [heldBy]
  rw [hp, ← h2] at h1
  have h3 := add_right_comm
    (held liveSerial ((w.objects.set i (some (takeOver o p))).set j (some (emptied p))))
    (heldBy liveSerial (some o)) (heldBy liveSerial (some p))
  exact Multiset.add_left_inj.mp (h3.trans h1)

lemma access_moveConstruct {i : ℕ} (ho : w.quiet i = some o) :
    Access w { w with
      objects := w.objects.set i (some (emptied o)) ++ [some (takeOver {} o)] } := by
  obtain ⟨hobj, hq⟩ := quiet_some ho
  refine .inert ?_ ?_ ha
  · simp only [ring]
    rw [enqueues_append (by rfl), enqueues_set_of_eq hobj]
    simp [enqueuingOf, emptied, hq]
  have hb : held begunSerial (w.objects.set i (some (emptied o))) = held begunSerial w.objects :=
    held_set_of_eq hobj (by simp [begunSerial, emptied, hq])
  have hl := held_set (some (emptied o)) hobj (f := liveSerial)
  rw [heldBy_of_none (liveSerial_emptied o), add_zero] at hl
  have ht : heldBy liveSerial (some (takeOver {} o)) = heldBy liveSerial (some o) := by
    simp [heldBy]
  have ht' : heldBy begunSerial (some (takeOver {} o)) = 0 := heldBy_of_none rfl
  simp [credit, held_append, held_singleton, hb, ht, ht', hl]

lemma access_grant (hpos : 0 < w.chan.available) (i : ℕ) :
    Access w { w with
      chan := { w.chan with available := w.chan.available - 1 }
      calls := w.calls.set i none
      objects := w.objects ++ [some { hasState := true, serial := w.nextSerial }]
      nextSerial := w.nextSerial + 1 } := by
  refine .grant ?_ hpos ?_ ha
  · simp only [ring,
      enqueues_append (p := some { hasState := true, serial := w.nextSerial }) rfl]
  · simp [credit, held_append, held_singleton, heldBy, liveSerial, begunSerial,
      Reservation.live, add_comm _ ({w.nextSerial} : Multiset ℕ)]

/-- `Publish` of a live reservation: its credit is now that of a result on its way. -/
lemma access_publish {i : ℕ} (ho : w.quiet i = some o) (hlive : o.live)
    (r : AttemptResult) :
    Access w { w with
      objects := w.objects.set i
        (some { o with finalized := true, publishing := some (.begun r) }) } := by
  obtain ⟨hobj, hq⟩ := quiet_some ho
  have hl := held_set (some { o with finalized := true, publishing := some (.begun r) }) hobj
    (f := liveSerial)
  have hb := held_set (some { o with finalized := true, publishing := some (.begun r) }) hobj
    (f := begunSerial)
  rw [heldBy_of_some (liveSerial_live hlive),
    heldBy_of_none (by simp [liveSerial, Reservation.live]), add_zero] at hl
  rw [heldBy_of_none (begunSerial_quiet hq),
    heldBy_of_some (b := o.serial) (by simp [begunSerial]), add_zero] at hb
  refine .publish o.serial ?_ ?_ ?_ ?_ ha
  · exact held liveSerial
      (w.objects.set i (some { o with finalized := true, publishing := some (.begun r) }))
  · rw [credit, ← hl, add_comm, singleton_add]
  · simp only [ring]
    rw [enqueues_set_of_eq hobj]
    simp [enqueuingOf, hq]
  · simp only [credit, hb, add_comm _ ({o.serial} : Multiset ℕ), singleton_add]

/-- The first access of the `Enqueue` call of an object: it takes a ticket of the ring. -/
lemma access_claim {i : ℕ} {r : AttemptResult} (hc : w.publishCall i = some (o, .begun r)) :
    Access w { w with
      chan := { w.chan with head := incW 32 w.chan.head }
      objects := w.objects.set i (some { o with
        publishing := some (.enqueuing w.claims.length w.chan.head r .claimed) })
      claims := w.claims ++ [⟨r, o.serial, .claimed⟩] } := by
  obtain ⟨hobj, hp⟩ := publishCall_some hc
  have hb := held_set (some { o with
    publishing := some (.enqueuing w.claims.length w.chan.head r .claimed) }) hobj
    (f := begunSerial)
  rw [heldBy_of_some (b := o.serial) (by simp [begunSerial, hp]),
    heldBy_of_none (by simp [begunSerial]), add_zero] at hb
  refine .claim i o.serial r ?_ ?_ ?_ ?_ ?_ ha
  · exact held begunSerial (w.objects.set i (some { o with
      publishing := some (.enqueuing w.claims.length w.chan.head r .claimed) }))
  · simp [ring, enqueues_eq hobj, enqueuingOf, hp]
  · rw [credit, ← hb, add_comm, singleton_add]
  · simp only [ring, RingView.claim, enqueues_set _ hobj]
    simp [enqueuingOf]
  · simp only [credit]
    rw [held_set_of_eq hobj (f := liveSerial) (by simp [liveSerial, Reservation.live])]

/-- A later access of the `Enqueue` call of an object. -/
lemma access_store {i t c : ℕ} {r : AttemptResult} {stage s : Stage} {sl : Slot}
    {p : Option PublishCall} (hc : w.publishCall i = some (o, .enqueuing t c r stage))
    (hs : Stores r (w.chan.slots (c % w.chan.capacity)) stage s sl)
    (hp : p = if s = .ready then none else some (.enqueuing t c r s)) :
    Access w { w.setSlot (c % w.chan.capacity) sl with
      objects := w.objects.set i (some { o with publishing := p })
      claims := w.claims.modify t fun c => { c with stage := s } } := by
  obtain ⟨hobj, hpub⟩ := publishCall_some hc
  refine .store i _ s sl (enq_of_publishCall hc) hs ?_ ?_ ha
  · cases hs <;>
      simp [hp, setSlot, ring, RingView.store, enqueues_set _ hobj, enqueuingOf, restage]
  · simp only [credit, setSlot]
    rw [held_set_of_eq hobj (f := liveSerial) (by simp [liveSerial, Reservation.live]),
      held_set_of_eq hobj (f := begunSerial) (by cases hs <;> simp [begunSerial, hpub, hp])]

end StepAccess

variable {w : World}

lemma callsPos_init (s : State) : CallsPos (init s) := by
  intro c hc
  simp [init] at hc

lemma callsPos_set_none (h : CallsPos w) (i : ℕ) (c : ℕ)
    (hc : some (ReserveCall.loaded c) ∈ w.calls.set i none) : 0 < c := by
  rcases mem_or_eq_of_mem_set hc with hc | hc
  · exact h c hc
  · cases hc

lemma callsPos_reload (h : CallsPos w) (i : ℕ) : CallsPos (w.reload i) := by
  unfold reload
  split
  · exact callsPos_set_none h i
  · next hne =>
    intro c hc
    rcases mem_or_eq_of_mem_set hc with hc | hc
    · exact h c hc
    · cases hc
      exact Nat.pos_of_ne_zero hne

lemma callsPos_giveBack (h : CallsPos w) (o : Reservation) (objects : List (Option Reservation)) :
    CallsPos { w.giveBack o with objects } := by
  unfold giveBack
  split <;> exact h

/-- **Inversion.** Every step is one of the listed accesses. -/
theorem step_access {w' : World} {e : Event} (hpos : CallsPos w) (h : step w e = some w') :
    Access w w' ∧ CallsPos w' := by
  unfold step at h
  split at h
  · cases h
  next ha =>
  replace ha : w.aborted = false := by simpa using ha
  cases e with
  | beginStopping =>
    cases h
    exact ⟨.inert rfl rfl ha, hpos⟩
  | construct =>
    cases h
    refine ⟨.inert ?_ ?_ ha, hpos⟩
    · simp only [ring, enqueues_append (p := some {}) rfl]
    · simp [credit, held_append, held_singleton, heldBy, liveSerial, begunSerial, Reservation.live]
  | reserve =>
    simp only at h
    split at h <;> cases h
    · refine ⟨.inert rfl rfl ha, fun c hc => hpos c ?_⟩
      simpa using hc
    · exact ⟨.inert rfl rfl ha, hpos⟩
  | reserveLoad i =>
    simp only at h
    split at h <;> cases h
    exact ⟨access_reload ha i, callsPos_reload hpos i⟩
  | reserveSwap i spurious =>
    simp only at h
    split at h
    · next current hc =>
      split at h <;> cases h
      · next hs =>
        have hcur : 0 < current := by
          apply hpos
          rw [join_eq_some_iff] at hc
          exact mem_of_getElem? hc
        exact ⟨hs.2 ▸ access_grant ha (hs.2 ▸ hcur) i, callsPos_set_none hpos i⟩
      · exact ⟨access_reload ha i, callsPos_reload hpos i⟩
    · cases h
  | moveConstruct i =>
    simp only [map_eq_some_iff] at h
    obtain ⟨o, ho, rfl⟩ := h
    exact ⟨access_moveConstruct ha ho, hpos⟩
  | moveAssign i j =>
    simp only [bind_eq_some_iff, map_eq_some_iff] at h
    obtain ⟨o, ho, p, hp, h⟩ := h
    split at h <;> cases h
    · exact ⟨.inert rfl rfl ha, hpos⟩
    · next hij => exact ⟨access_moveAssign ha hij ho hp, callsPos_giveBack hpos o _⟩
  | publish i r =>
    simp only [map_eq_some_iff] at h
    obtain ⟨o, ho, h⟩ := h
    split at h <;> cases h
    · next hlive => exact ⟨access_publish ha ho hlive r, hpos⟩
    · exact ⟨.inert rfl rfl ha, hpos⟩
  | claim i =>
    simp only at h
    split at h <;> cases h
    next o r hc => exact ⟨access_claim ha hc, hpos⟩
  | check i =>
    simp only at h
    split at h
    · next o t c r hc =>
      split at h <;> cases h
      · next hle => exact ⟨.abort i _ (enq_of_publishCall hc) rfl hle rfl, hpos⟩
      · have hstore := access_store ha hc .check rfl
        rw [setSlot, update_eq_self] at hstore
        exact ⟨hstore, hpos⟩
    · cases h
  | write i =>
    simp only at h
    split at h <;> cases h
    next o t c r hc => exact ⟨access_store ha hc .write rfl, hpos⟩
  | ready i =>
    simp only at h
    split at h <;> cases h
    next o t c r hc => exact ⟨access_store ha hc .ready rfl, hpos⟩
  | cancel i =>
    simp only [map_eq_some_iff] at h
    obtain ⟨o, ho, rfl⟩ := h
    have hq := (quiet_some ho).2
    exact ⟨access_drop ha ho (enqueuingOf_quiet hq) (begunSerial_quiet hq) (liveSerial_emptied o),
      callsPos_giveBack hpos o _⟩
  | destroy i =>
    simp only [map_eq_some_iff] at h
    obtain ⟨o, ho, rfl⟩ := h
    exact ⟨access_drop ha ho rfl rfl rfl, callsPos_giveBack hpos o _⟩
  | drainLoad =>
    simp only at h
    obtain ⟨hd, ⟨⟩⟩ := ite_none_right_eq_some.mp h
    exact ⟨.load hd.1 hd.2 rfl rfl ha, hpos⟩
  | drainUnready =>
    simp only at h
    split at h <;> cases h
    next index r hd => exact ⟨.unready index r hd rfl rfl ha, hpos⟩
  | drainReset =>
    simp only at h
    split at h <;> cases h
    next index r hd => exact ⟨.reset index r hd rfl rfl ha, hpos⟩
  | drainAdvance =>
    simp only at h
    split at h <;> cases h
    next r hd => exact ⟨.advance r hd rfl rfl ha, hpos⟩
  | drainConsume =>
    simp only at h
    split at h <;> cases h
    next r hd => exact ⟨.consume r hd rfl rfl ha, hpos⟩
  | drainCredit =>
    simp only at h
    split at h <;> cases h
    next hd => exact ⟨.restore hd rfl rfl ha, hpos⟩

end AegisGate.Health.OutcomeChannel
