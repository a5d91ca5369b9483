import AegisGate.Health.OutcomeCredit

/-!
# Credits in every run of the outcome channel

That each credit is in one place does not depend on the slots of the ring: it only needs that
the coordinator restores no more credits than outcomes were enqueued. Every ready flag it takes
was stored by an `Enqueue` call that had claimed a slot, and flags that collide in a slot can
only get fewer. So the accounting holds in every run, also in those in which outcomes are lost.
-/

namespace AegisGate.Health.OutcomeChannel
open Lib List RingView Function

namespace RingView

/-- The coordinator has taken a flag whose credit it has not restored. -/
def inDrain : Drain → ℕ
  | .idle | .loaded _ _ => 0
  | .unready _ _ | .reset _ | .advanced _ | .consumed => 1

/-- The slots that hold an outcome. -/
def readySlots (v : RingView) : Finset ℕ :=
  (Finset.range v.capacity).filter fun i => (v.slots i).ready

/-- The `Enqueue` calls that have not stored their flag. -/
def running (v : RingView) : Set ℕ := {i | (v.enq i).isSome}

/-- Every claim has an `Enqueue` call that runs, a flag, or a credit that was taken. -/
structure Flow (v : RingView) : Prop where
  finite : v.running.Finite
  bound : v.credited + inDrain v.drain + v.readySlots.card + v.running.ncard ≤ v.claims.length
  loaded : ∀ index r, v.drain = .loaded index r → index < v.capacity ∧ (v.slots index).ready

variable {v : RingView}

variable {r : AttemptResult}

lemma Flow.claim (h : Flow v) {i n : ℕ} (hi : v.enq i = none) : Flow (v.claim i r n) := by
  have hrunning : (v.claim i r n).running = insert i v.running := by
    ext j
    by_cases hj : j = i
    · simp [running, RingView.claim, hj]
    · simp [running, RingView.claim, hj]
  have hnew : i ∉ v.running := by simp [running, hi]
  refine ⟨?_, ?_, h.loaded⟩
  · rw [hrunning]
    exact h.finite.insert i
  rw [hrunning, Set.ncard_insert_of_notMem hnew h.finite]
  have hlength : (v.claim i r n).claims.length = v.claims.length + 1 := length_append
  rw [hlength]
  have hbound := h.bound
  change v.credited + inDrain v.drain + v.readySlots.card + (v.running.ncard + 1) ≤ _
  omega

lemma ready_of_stores {old sl : Slot} {st s : Stage} (h : Stores r old st s sl) :
    s ≠ .ready ∧ sl.ready = old.ready ∨ s = .ready ∧ sl.ready := by
  cases h with
  | check | write => exact .inl ⟨nofun, rfl⟩
  | ready => exact .inr ⟨rfl, rfl⟩

lemma Flow.store (h : Flow v) {i : ℕ} {e : Enqueuing} {s : Stage} {sl : Slot}
    (he : v.enq i = some e)
    (hs : Stores e.result (v.slots (e.claimed % v.capacity)) e.stage s sl) :
    Flow (v.store i e s sl) := by
  set index := e.claimed % v.capacity with hindex
  have hmem : i ∈ v.running := by simp [running, he]
  have hslots : ∀ j, ((v.store i e s sl).slots j).ready =
      if j = index then sl.ready else (v.slots j).ready := by
    intro j
    by_cases hj : j = index
    · rw [if_pos hj, hj]
      simp [RingView.store, ← hindex]
    · rw [if_neg hj]
      simp [RingView.store, ← hindex, update_of_ne hj]
  have hlength : (v.store i e s sl).claims.length = v.claims.length := length_restage _ _ _
  have hbound := h.bound
  rcases ready_of_stores hs with ⟨hstage, hflag⟩ | ⟨hstage, hflag⟩
  · have hsame : ∀ j, ((v.store i e s sl).slots j).ready = (v.slots j).ready := by
      intro j
      rw [hslots]
      split
      · next hj => rw [hj, hflag]
      · rfl
    have hrunning : (v.store i e s sl).running = v.running := by
      ext j
      by_cases hj : j = i
      · simp [running, RingView.store, hj, hstage, he]
      · simp [running, RingView.store, update_of_ne hj]
    have hready : (v.store i e s sl).readySlots = v.readySlots :=
      Finset.filter_congr fun j _ => by rw [hsame]
    refine ⟨?_, ?_, fun k r hk => ?_⟩
    · rw [hrunning]
      exact h.finite
    · rw [hrunning, hready, hlength]
      exact hbound
    · rw [hsame]
      exact h.loaded k r hk
  have hrunning : (v.store i e s sl).running = v.running \ {i} := by
    ext j
    by_cases hj : j = i
    · simp [running, RingView.store, hj, hstage]
    · simp [running, RingView.store, hj]
  -- The flag may have been set already, by an outcome that is then lost.
  have hready : (v.store i e s sl).readySlots ⊆ insert index v.readySlots := by
    intro j hj
    obtain ⟨hlt, hflagged⟩ := Finset.mem_filter.mp hj
    rw [hslots] at hflagged
    by_cases hji : j = index
    · rw [hji]
      exact Finset.mem_insert_self _ _
    · rw [if_neg hji] at hflagged
      exact Finset.mem_insert_of_mem (Finset.mem_filter.mpr ⟨hlt, hflagged⟩)
  refine ⟨?_, ?_, fun k r hk => ?_⟩
  · rw [hrunning]
    exact h.finite.sdiff
  · have hcard := (Finset.card_le_card hready).trans (Finset.card_insert_le _ _)
    have hone := Set.ncard_sdiff_singleton_add_one hmem h.finite
    rw [hrunning, hlength]
    change v.credited + inDrain v.drain + _ + _ ≤ _
    omega
  obtain ⟨hlt, hflagged⟩ := h.loaded k r hk
  refine ⟨hlt, ?_⟩
  rw [hslots]
  split
  · exact hflag
  · exact hflagged

lemma Flow.unready (h : Flow v) {index : ℕ} (hd : v.drain = .loaded index r) : Flow { v with
      drain := .unready index r
      slots := update v.slots index { v.slots index with ready := false } } := by
  obtain ⟨hlt, hflagged⟩ := h.loaded index r hd
  have hbound := h.bound
  rw [hd] at hbound
  refine ⟨h.finite, ?_, nofun⟩
  have hready : ({ v with
      drain := .unready index r
      slots := update v.slots index { v.slots index with ready := false } } :
        RingView).readySlots = v.readySlots.erase index := by
    ext j
    by_cases hj : j = index
    · simp [readySlots, hj]
    · simp [readySlots, hj]
  have hmem : index ∈ v.readySlots := Finset.mem_filter.mpr ⟨Finset.mem_range.mpr hlt, hflagged⟩
  have hcard := Finset.card_erase_add_one hmem
  rw [hready]
  change v.credited + 1 + _ + v.running.ncard ≤ v.claims.length
  omega

lemma Flow.reset (h : Flow v) {index : ℕ} (hd : v.drain = .unready index r) : Flow { v with
      drain := .reset r
      slots := update v.slots index { v.slots index with value := {} } } := by
  have hbound := h.bound
  rw [hd] at hbound
  have hready : ({ v with
      drain := .reset r
      slots := update v.slots index { v.slots index with value := {} } } :
        RingView).readySlots = v.readySlots := by
    refine Finset.filter_congr fun j _ => ?_
    by_cases hj : j = index
    · simp [hj]
    · simp [update_of_ne hj]
  refine ⟨h.finite, ?_, nofun⟩
  rw [hready]
  exact hbound

end RingView

variable {w : World}

lemma Access.flow {w' : World} (ha : Access w w') (h : w.ring.Flow) (hpos : 0 < w.chan.capacity) :
    w'.ring.Flow := by
  have hbound := h.bound
  cases ha with
  | inert hr | grant hr | giveBack _ _ _ hr | publish _ _ _ hr =>
    rw [hr]
    exact h
  | claim i n r rest hi hb hr =>
    rw [hr]
    exact h.claim hi
  | abort i e he hs hle hw => exact hw ▸ h
  | store i e s sl he hs hr =>
    rw [hr]
    exact h.store he hs
  | load hd hready hr =>
    rw [hr]
    refine ⟨h.finite, ?_, ?_⟩
    · change w.ring.credited + inDrain w.drain + _ + _ ≤ _ at hbound
      rw [hd] at hbound
      exact hbound
    · rintro index r ⟨⟩
      exact ⟨Nat.mod_lt _ hpos, hready⟩
  | unready index r hd hr =>
    rw [hr]
    exact h.unready hd
  | reset index r hd hr =>
    rw [hr]
    exact h.reset hd
  | advance r hd hr | consume r hd hr | restore hd hr =>
    rw [hr]
    refine ⟨h.finite, ?_, nofun⟩
    change w.ring.credited + inDrain w.drain + _ + _ ≤ _ at hbound
    rw [hd] at hbound
    exact hbound

/-! ## Whole runs -/

/-- The credits and the ring agree. -/
structure Counted (w : World) : Prop where
  credit : CreditInv w.ring w.credit
  flow : w.ring.Flow
  capacity_pos : 0 < w.chan.capacity
  capacity_le : w.chan.capacity ≤ kMaxOutcomeCapacity

lemma Access.counted {w' : World} (ha : Access w w') (h : Counted w) : Counted w' := by
  have hbound : w.credited + inDrain w.drain + w.ring.readySlots.card +
      w.ring.running.ncard ≤ w.claims.length := h.flow.bound
  have hconsumed : w.drain = .consumed → w.credited < w.claims.length := by
    intro hd
    rw [hd] at hbound
    change w.credited + 1 + _ + _ ≤ _ at hbound
    omega
  have hcap := ha.capacity
  exact ⟨ha.creditInv h.credit h.capacity_le (by omega) hconsumed, ha.flow h.flow h.capacity_pos,
    hcap ▸ h.capacity_pos, hcap ▸ h.capacity_le⟩

lemma counted_init {cap : ℕ} {s : State} (h : State.create cap = some s) :
    Counted (World.init s) := by
  obtain ⟨hpos, hle, rfl⟩ := State.create_some h
  have hrunning : (World.init { available := cap, capacity := cap }).ring.running = ∅ := by
    ext i
    simp [running, World.init, World.ring, enqueues]
  refine ⟨⟨rfl, rfl⟩, ⟨?_, ?_, ?_⟩, hpos, hle⟩
  · rw [hrunning]
    exact Set.finite_empty
  · rw [hrunning, Set.ncard_empty]
    have hready : (World.init { available := cap, capacity := cap }).ring.readySlots = ∅ := by
      simp [readySlots, World.init, World.ring]
    rw [hready]
    exact Nat.le_refl _
  · simp [World.init, World.ring]

/-! ## Credits that are out -/

def World.out (w : World) : List ℕ := (range w.nextSerial).filter (· ∉ w.returned)

lemma Counted.returned_lt (h : Counted w) {n : ℕ} (hn : n ∈ w.returned) : n < w.nextSerial := by
  have hle : (w.returned : Multiset ℕ) ≤ Multiset.range w.nextSerial := by
    rw [← show _ = Multiset.range w.nextSerial from h.credit.split]
    exact Multiset.le_add_left _ _
  exact Multiset.mem_range.mp (Multiset.mem_of_le hle (Multiset.mem_coe.mpr hn))

lemma Counted.available_add (h : Counted w) :
    w.chan.available + w.out.length = w.chan.capacity := by
  have hcount : w.chan.available + w.nextSerial = w.chan.capacity + w.returned.length :=
    h.credit.count
  have hback : ((range w.nextSerial).filter (· ∈ w.returned)).Perm w.returned := by
    refine (perm_ext_iff_of_nodup (nodup_range.filter _) h.credit.returned_nodup).mpr
      fun n => ?_
    simp only [mem_filter, mem_range, decide_eq_true_eq]
    exact ⟨And.right, fun hn => ⟨h.returned_lt hn, hn⟩⟩
  have hsplit := length_eq_length_filter_add (l := range w.nextSerial) (· ∈ w.returned)
  have hout : w.out = (range w.nextSerial).filter fun n => !decide (n ∈ w.returned) :=
    filter_congr fun n _ => decide_not
  rw [length_range, hback.length_eq] at hsplit
  rw [hout]
  omega

end AegisGate.Health.OutcomeChannel
