import AegisGate.Health.OutcomeChannel

/-!
# The ring invariant of the outcome channel

What one access does to the ring, and what every access preserves: `RingInv` ties
each claimed and undrained outcome to its slot by the stage its `Enqueue` call has
reached, and the coordinator's position to the number of claims it has passed.

The invariant needs one fact about addresses, that the undrained claims use
different slots. It holds while `WindowInjective` covers the claims made so far
and no more than `capacity` of them are without credit; both are hypotheses of the
claim step and come from the counter's width and from the credit accounting.
-/

namespace AegisGate.Health.OutcomeChannel
open Lib List Function Option

/-- An `Enqueue` call between its head increment and its ready store. -/
structure Enqueuing where
  ticket : ℕ
  claimed : ℕ
  result : AttemptResult
  stage : Stage
  serial : ℕ

/-- The `Enqueue` call running on an object. -/
def enqueuingOf : Option Reservation → Option Enqueuing
  | some o =>
    match o.publishing with
    | some (.enqueuing t c r s) => some ⟨t, c, r, s, o.serial⟩
    | _ => none
  | none => none

/-- The `Enqueue` calls running on the objects of a list. -/
def enqueues (objects : List (Option Reservation)) (i : ℕ) : Option Enqueuing :=
  (objects[i]?).bind enqueuingOf

@[simp] lemma enqueuingOf_none : enqueuingOf none = none := rfl

lemma enqueuingOf_quiet {o : Reservation} (h : o.publishing = none) :
    enqueuingOf (some o) = none := by simp [enqueuingOf, h]

variable {objects : List (Option Reservation)} {i k : ℕ} {o : Option Reservation}
  {claims : List Claim}

lemma enqueues_eq (h : objects[i]? = some o) :
    enqueues objects i = enqueuingOf o := by simp [enqueues, h]

lemma enqueues_set (p : Option Reservation) (h : objects[i]? = some o) :
    enqueues (objects.set i p) = update (enqueues objects) i (enqueuingOf p) := by
  funext j
  obtain ⟨hi, -⟩ := List.getElem?_eq_some_iff.mp h
  by_cases hj : j = i
  · subst hj
    simp [enqueues, hi]
  · simp [enqueues, getElem?_set_ne (Ne.symm hj), update_of_ne hj]

lemma enqueues_set_of_eq {p : Option Reservation} (h : objects[i]? = some o)
    (hp : enqueuingOf p = enqueuingOf o) : enqueues (objects.set i p) = enqueues objects := by
  rw [enqueues_set p h, hp, ← enqueues_eq h, update_eq_self]

lemma enqueues_append {p : Option Reservation} (hp : enqueuingOf p = none) :
    enqueues (objects ++ [p]) = enqueues objects := by
  funext j
  simp only [enqueues, getElem?_append]
  split
  · rfl
  next hj =>
  rw [getElem?_eq_none (by omega : objects.length ≤ j)]
  cases hk : ([p] : List (Option Reservation))[j - objects.length]? with
  | none => rfl
  | some q =>
    have hq : q = p := by simpa using mem_of_getElem? hk
    simpa [hq] using hp

/-- The part of a world that the ring argument reads. -/
structure RingView where
  head : ℕ
  tail : ℕ
  capacity : ℕ
  slots : ℕ → Slot
  drain : Drain
  claims : List Claim
  tailCount : ℕ
  consumed : List AttemptResult
  credited : ℕ
  enq : ℕ → Option Enqueuing

def World.ring (w : World) : RingView where
  head := w.chan.head
  tail := w.chan.tail
  capacity := w.chan.capacity
  slots := w.chan.slots
  drain := w.drain
  claims := w.claims
  tailCount := w.tailCount
  consumed := w.consumed
  credited := w.credited
  enq := enqueues w.objects

namespace RingView

def slotOf (v : RingView) (ticket : ℕ) : ℕ := ringSlot 32 v.capacity ticket

/-- The coordinator has taken the outcome at `tailCount` out of its slot and has not
yet advanced the tail. -/
def clearing (v : RingView) : Prop :=
  (∃ i r, v.drain = .unready i r) ∨ ∃ r, v.drain = .reset r

/-- What the slot of an undrained claim contains. -/
def SlotOk (v : RingView) (ticket : ℕ) (c : Claim) : Prop :=
  match c.stage with
  | .claimed | .checked => (v.slots (v.slotOf ticket)).ready = false
  | .written => v.slots (v.slotOf ticket) = ⟨c.result, false⟩
  | .ready =>
    (ticket = v.tailCount ∧ v.clearing → (v.slots (v.slotOf ticket)).ready = false) ∧
    (¬(ticket = v.tailCount ∧ v.clearing) → v.slots (v.slotOf ticket) = ⟨c.result, true⟩)

/-- The outcome the coordinator holds is the ready one at the tail. -/
def Holding (v : RingView) (r : AttemptResult) : Prop :=
  ∃ c, v.claims[v.tailCount]? = some c ∧ c.stage = .ready ∧ c.result = r

/-- The coordinator's position against the history. -/
def DrainOk (v : RingView) : Prop :=
  match v.drain with
  | .idle => v.credited = v.tailCount ∧ v.consumed.length = v.tailCount
  | .loaded i r | .unready i r =>
    v.credited = v.tailCount ∧ v.consumed.length = v.tailCount ∧
    v.Holding r ∧ i = v.slotOf v.tailCount
  | .reset r => v.credited = v.tailCount ∧ v.consumed.length = v.tailCount ∧ v.Holding r
  | .advanced r =>
    v.credited + 1 = v.tailCount ∧ v.consumed.length = v.credited ∧
    ∃ c, v.claims[v.credited]? = some c ∧ c.result = r
  | .consumed => v.credited + 1 = v.tailCount ∧ v.consumed.length = v.tailCount

/-- `SlotOk` reads the slot of the claim and whether the coordinator is clearing it. -/
lemma SlotOk.congr {v v' : RingView} {k : ℕ} {c : Claim} (h : v.SlotOk k c)
    (hs : v'.slots (v'.slotOf k) = v.slots (v.slotOf k))
    (hc : k = v'.tailCount ∧ v'.clearing ↔ k = v.tailCount ∧ v.clearing) : v'.SlotOk k c := by
  unfold SlotOk at h ⊢
  rw [hs]
  cases hst : c.stage <;> simp only [hst] at h ⊢
  · exact h
  · exact h
  · exact h
  · exact ⟨fun hn => h.1 (hc.mp hn), fun hn => h.2 fun hn' => hn (hc.mpr hn')⟩

end RingView

/-- **The ring invariant.** -/
structure RingInv (v : RingView) : Prop where
  head_eq : v.head = v.claims.length % 2 ^ 32
  tail_eq : v.tail = v.tailCount % 2 ^ 32
  tail_le : v.tailCount ≤ v.claims.length
  drain_ok : v.DrainOk
  consumed_eq : v.consumed = (v.claims.map Claim.result).take v.consumed.length
  slot_ok : ∀ k c, v.claims[k]? = some c → v.tailCount ≤ k → v.SlotOk k c
  ready_only : ∀ j, (v.slots j).ready →
    ∃ k c, v.tailCount ≤ k ∧ v.claims[k]? = some c ∧ v.slotOf k = j ∧ c.stage = .ready
  enq_ok : ∀ i e, v.enq i = some e → v.tailCount ≤ e.ticket ∧ e.claimed = e.ticket % 2 ^ 32 ∧
    e.stage ≠ .ready ∧ v.claims[e.ticket]? = some ⟨e.result, e.serial, e.stage⟩
  enq_inj : ∀ i j e f, v.enq i = some e → v.enq j = some f → e.ticket = f.ticket → i = j

/-- The undrained claims fit into the ring and use different slots. -/
structure Fits (v : RingView) : Prop where
  window : v.claims.length ≤ v.credited + v.capacity
  injective : WindowInjective 32 v.capacity v.claims.length

namespace RingInv
variable {v : RingView}

lemma credited_le (h : RingInv v) : v.credited ≤ v.tailCount := by
  have hd := h.drain_ok
  unfold RingView.DrainOk at hd
  cases hv : v.drain <;> simp only [hv] at hd <;> omega

lemma slot_ne (h : RingInv v) (hf : Fits v) {a b : ℕ} (ha : v.tailCount ≤ a)
    (hb : v.tailCount ≤ b) (ha' : a < v.claims.length) (hb' : b < v.claims.length) (hab : a ≠ b) :
    v.slotOf a ≠ v.slotOf b := by
  have hw := hf.window
  have hc := h.credited_le
  rcases Nat.lt_or_gt_of_ne hab with hlt | hlt
  · exact hf.injective a b hlt (by omega) hb'
  · exact (hf.injective b a hlt (by omega) ha').symm

lemma enq_ne_ready (h : RingInv v) {i k : ℕ} {e : Enqueuing} {c : Claim} (he : v.enq i = some e)
    (hc : v.claims[k]? = some c) (hr : c.stage = .ready) : e.ticket ≠ k := by
  rintro rfl
  obtain ⟨-, -, hst, hcl⟩ := h.enq_ok i e he
  rw [hc] at hcl
  exact hst (by simpa [some.inj hcl] using hr)

end RingInv

/-! ## Stages of a claim -/

/-- One claim moves to a stage. -/
def restage (claims : List Claim) (k : ℕ) (s : Stage) : List Claim :=
  claims.modify k fun c => { c with stage := s }

@[simp] lemma length_restage (claims : List Claim) (k : ℕ) (s : Stage) :
    (restage claims k s).length = claims.length := by simp [restage]

lemma restage_self {c : Claim} (s : Stage) (h : claims[k]? = some c) :
    (restage claims k s)[k]? = some { c with stage := s } := by
  simp [restage, h]

lemma restage_ne {j : ℕ} (s : Stage) (h : k ≠ j) : (restage claims k s)[j]? = claims[j]? := by
  simp [restage, getElem?_modify_ne _ _ h]

lemma restage_some {j : ℕ} {s : Stage} {c : Claim} (h : (restage claims k s)[j]? = some c) :
    (k = j ∧ c.stage = s ∧ ∃ c₀, claims[j]? = some c₀ ∧ c = { c₀ with stage := s }) ∨
      (k ≠ j ∧ claims[j]? = some c) := by
  by_cases hk : k = j
  · subst hk
    simp only [restage, getElem?_modify_eq, Option.map_eq_map, map_eq_some_iff] at h
    obtain ⟨c₀, h₀, rfl⟩ := h
    exact .inl ⟨rfl, rfl, c₀, h₀, rfl⟩
  · exact .inr ⟨hk, by rwa [restage_ne s hk] at h⟩

lemma map_restage {β : Type} {f : Claim → β} (hf : ∀ c s, f { c with stage := s } = f c)
    (claims : List Claim) (k : ℕ) (s : Stage) : (restage claims k s).map f = claims.map f := by
  apply ext_getElem?
  intro j
  simp only [getElem?_map]
  by_cases hk : k = j
  · subst hk
    cases h : claims[k]? with
    | none => simp [restage, h]
    | some c => simp [restage_self s h, hf]
  · rw [restage_ne s hk]

/-! ## What the accesses of a worker preserve -/

namespace RingView

/-- The head increment of an `Enqueue` call. -/
def claim (v : RingView) (i : ℕ) (r : AttemptResult) (n : ℕ) : RingView :=
  { v with
    head := incW 32 v.head
    claims := v.claims ++ [⟨r, n, .claimed⟩]
    enq := update v.enq i (some ⟨v.claims.length, v.head, r, .claimed, n⟩) }

/-- A later access of an `Enqueue` call: it moves its claim to stage `s` and leaves
its slot as `sl`. -/
def store (v : RingView) (i : ℕ) (e : Enqueuing) (s : Stage) (sl : Slot) : RingView :=
  { v with
    slots := update v.slots (e.claimed % v.capacity) sl
    claims := restage v.claims e.ticket s
    enq := update v.enq i (if s = .ready then none else some { e with stage := s }) }

/-- What an `Enqueue` call leaves in its slot when it reaches a stage. -/
def Leaves (r : AttemptResult) (sl : Slot) : Stage → Prop
  | .claimed | .checked => sl.ready = false
  | .written => sl = ⟨r, false⟩
  | .ready => sl = ⟨r, true⟩

end RingView

namespace RingInv
variable {v : RingView}

lemma consumed_le (h : RingInv v) : v.consumed.length ≤ v.claims.length := by
  have hd := h.drain_ok
  have ht := h.tail_le
  unfold RingView.DrainOk at hd
  cases hv : v.drain <;> simp only [hv] at hd <;> omega

lemma ready_of_clearing (h : RingInv v) (hc : v.clearing) :
    ∃ c, v.claims[v.tailCount]? = some c ∧ c.stage = .ready := by
  have hd := h.drain_ok
  rcases hc with ⟨i, r, hv⟩ | ⟨r, hv⟩ <;> simp only [RingView.DrainOk, hv] at hd
  · obtain ⟨-, -, ⟨c, hc, hs, -⟩, -⟩ := hd
    exact ⟨c, hc, hs⟩
  · obtain ⟨-, -, c, hc, hs, -⟩ := hd
    exact ⟨c, hc, hs⟩

variable {r : AttemptResult}

section
variable (h : RingInv v)
include h

lemma claim {i n : ℕ} (hi : v.enq i = none) (hf : Fits (v.claim i r n)) :
    RingInv (v.claim i r n) := by
  have hlen : (v.claim i r n).claims.length = v.claims.length + 1 := by simp [RingView.claim]
  have hold : ∀ (k : ℕ) (c : Claim), v.claims[k]? = some c →
      (v.claim i r n).claims[k]? = some c := by
    intro k c hk
    have hlt := (List.getElem?_eq_some_iff.mp hk).1
    simpa [RingView.claim, getElem?_append_left hlt] using hk
  have hfree : (v.slots (v.slotOf v.claims.length)).ready = false := by
    by_contra hr
    obtain ⟨k, c, hk, hc, hs, -⟩ := h.ready_only _ (by simpa using hr)
    have hlt := (List.getElem?_eq_some_iff.mp hc).1
    have hw := hf.window
    have hcr := h.credited_le
    have hin := hf.injective k v.claims.length hlt
    simp only [RingView.claim, length_append, length_cons, length_nil] at hw hin
    exact hin (by omega) (by omega) hs
  refine ⟨?_, h.tail_eq, ?_, ?_, ?_, ?_, ?_, ?_, ?_⟩
  · rw [hlen, ← incW_mod, ← h.head_eq]
    rfl
  · exact Nat.le_trans h.tail_le (by omega)
  · have hd := h.drain_ok
    unfold RingView.DrainOk at hd ⊢
    cases hv : v.drain <;> simp only [hv, RingView.claim] at hd ⊢
    · exact hd
    · obtain ⟨h1, h2, ⟨c, hc, h3⟩, h4⟩ := hd
      exact ⟨h1, h2, ⟨c, hold _ c hc, h3⟩, h4⟩
    · obtain ⟨h1, h2, ⟨c, hc, h3⟩, h4⟩ := hd
      exact ⟨h1, h2, ⟨c, hold _ c hc, h3⟩, h4⟩
    · obtain ⟨h1, h2, c, hc, h3⟩ := hd
      exact ⟨h1, h2, c, hold _ c hc, h3⟩
    · obtain ⟨h1, h2, c, hc, h3⟩ := hd
      exact ⟨h1, h2, c, hold _ c hc, h3⟩
    · exact hd
  · have hle := h.consumed_le
    simp only [RingView.claim, map_append]
    rw [take_append_of_le_length (by simpa using hle)]
    exact h.consumed_eq
  · intro k c hk hle
    by_cases hlt : k < v.claims.length
    · simp only [RingView.claim, getElem?_append_left hlt] at hk
      exact h.slot_ok k c hk hle
    have hke : k = v.claims.length := by
      have := (List.getElem?_eq_some_iff.mp hk).1
      omega
    subst hke
    simp only [RingView.claim, getElem?_concat_length, some.injEq] at hk
    subst hk
    exact hfree
  · intro j hj
    obtain ⟨k, c, hk, hc, hs, hr⟩ := h.ready_only j hj
    exact ⟨k, c, hk, hold k c hc, hs, hr⟩
  · intro j e he
    by_cases hj : j = i
    · subst hj
      simp only [RingView.claim, update_self, some.injEq] at he
      subst he
      refine ⟨h.tail_le, h.head_eq, Stage.noConfusion, ?_⟩
      simp [RingView.claim]
    · simp only [RingView.claim, update_of_ne hj] at he
      obtain ⟨h1, h2, h3, h4⟩ := h.enq_ok j e he
      exact ⟨h1, h2, h3, hold _ _ h4⟩
  · -- The new ticket is larger than every ticket in use.
    have hlt : ∀ j e, v.enq j = some e → e.ticket < v.claims.length := fun j e he =>
      (List.getElem?_eq_some_iff.mp (h.enq_ok j e he).2.2.2).1
    intro j k e f he hf' hef
    simp only [RingView.claim] at he hf'
    by_cases hj : j = i <;> by_cases hk : k = i
    · rw [hj, hk]
    · subst hj
      rw [update_self, some.injEq] at he
      rw [update_of_ne hk] at hf'
      have := hlt k f hf'
      rw [← hef, ← he] at this
      exact absurd this (Nat.lt_irrefl _)
    · subst hk
      rw [update_self, some.injEq] at hf'
      rw [update_of_ne hj] at he
      have := hlt j e he
      rw [hef, ← hf'] at this
      exact absurd this (Nat.lt_irrefl _)
    · rw [update_of_ne hj] at he
      rw [update_of_ne hk] at hf'
      exact h.enq_inj j k e f he hf' hef

/-- A later access of an `Enqueue` call touches its own slot only. -/
lemma store (hf : Fits v) {i : ℕ} {e : Enqueuing} (he : v.enq i = some e)
    {s : Stage} {sl : Slot} (hsl : RingView.Leaves e.result sl s) : RingInv (v.store i e s sl) := by
  obtain ⟨hte, hce, hne, hcl⟩ := h.enq_ok i e he
  have hlt := (List.getElem?_eq_some_iff.mp hcl).1
  have hidx : e.claimed % v.capacity = v.slotOf e.ticket := by rw [hce]; rfl
  have hclr : ¬(e.ticket = v.tailCount ∧ v.clearing) := by
    rintro ⟨ht, hc⟩
    obtain ⟨c, hc, hs⟩ := h.ready_of_clearing hc
    exact h.enq_ne_ready he hc hs ht
  have hself : (restage v.claims e.ticket s)[e.ticket]? = some ⟨e.result, e.serial, s⟩ :=
    restage_self s hcl
  -- A ready claim is not the one that is being stored.
  have hready : ∀ (k : ℕ) (c : Claim), v.claims[k]? = some c → c.stage = .ready →
      (restage v.claims e.ticket s)[k]? = some c := by
    intro k c hk hr
    rwa [restage_ne s (h.enq_ne_ready he hk hr)]
  refine ⟨?_, h.tail_eq, ?_, ?_, ?_, ?_, ?_, ?_, ?_⟩
  · simp [RingView.store, h.head_eq]
  · simpa [RingView.store] using h.tail_le
  · have hd := h.drain_ok
    unfold RingView.DrainOk at hd ⊢
    cases hv : v.drain <;> simp only [hv, RingView.store] at hd ⊢
    · exact hd
    · obtain ⟨h1, h2, ⟨c, hc, h3, h4⟩, h5⟩ := hd
      exact ⟨h1, h2, ⟨c, hready _ c hc h3, h3, h4⟩, h5⟩
    · obtain ⟨h1, h2, ⟨c, hc, h3, h4⟩, h5⟩ := hd
      exact ⟨h1, h2, ⟨c, hready _ c hc h3, h3, h4⟩, h5⟩
    · obtain ⟨h1, h2, c, hc, h3, h4⟩ := hd
      exact ⟨h1, h2, c, hready _ c hc h3, h3, h4⟩
    · obtain ⟨h1, h2, c, hc, h3⟩ := hd
      have hne' : e.ticket ≠ v.credited := by omega
      exact ⟨h1, h2, c, by rwa [restage_ne s hne'], h3⟩
    · exact hd
  · simp only [RingView.store]
    rw [map_restage (by intros; rfl)]
    exact h.consumed_eq
  · intro k c hk hle
    rcases restage_some hk with ⟨rfl, hs, c₀, h₀, rfl⟩ | ⟨hne', hk'⟩
    · have hc₀ : c₀ = ⟨e.result, e.serial, e.stage⟩ := some.inj (h₀.symm.trans hcl)
      subst hc₀
      have hslot : (v.store i e s sl).slots ((v.store i e s sl).slotOf e.ticket) = sl := by
        simp only [RingView.store, hidx]
        exact update_self _ _ _
      unfold RingView.SlotOk
      rw [hslot]
      cases s with
      | claimed => exact hsl
      | checked => exact hsl
      | written => exact hsl
      | ready => exact ⟨fun hcl' => absurd hcl' hclr, fun _ => hsl⟩
    · have hk'' := (List.getElem?_eq_some_iff.mp hk').1
      have hsn : v.slotOf k ≠ v.slotOf e.ticket := h.slot_ne hf hle hte hk'' hlt (Ne.symm hne')
      exact (h.slot_ok k c hk' hle).congr (update_of_ne (hidx ▸ hsn) _ _) Iff.rfl
  · intro j hj
    by_cases hje : j = v.slotOf e.ticket
    · subst hje
      simp only [RingView.store, hidx, update_self] at hj
      cases s with
      | claimed | checked => exact absurd (hsl.symm.trans hj) (by decide)
      | written => simp [show sl = ⟨e.result, false⟩ from hsl] at hj
      | ready => exact ⟨e.ticket, _, hte, hself, rfl, rfl⟩
    · simp only [RingView.store, hidx, update_of_ne hje] at hj
      obtain ⟨k, c, hk, hc, hs, hr⟩ := h.ready_only j hj
      exact ⟨k, c, hk, hready k c hc hr, hs, hr⟩
  · intro j f hf'
    by_cases hj : j = i
    · subst hj
      simp only [RingView.store, update_self] at hf'
      split at hf'
      · cases hf'
      · next hsr =>
        rw [some.injEq] at hf'
        subst hf'
        exact ⟨hte, hce, hsr, hself⟩
    · simp only [RingView.store, update_of_ne hj] at hf'
      obtain ⟨h1, h2, h3, h4⟩ := h.enq_ok j f hf'
      have hfe : e.ticket ≠ f.ticket := fun heq => hj (h.enq_inj j i f e hf' he heq.symm)
      exact ⟨h1, h2, h3, by simpa only [RingView.store, restage_ne s hfe] using h4⟩
  intro j k a b ha hb hab
  have hback : ∀ j a, (v.store i e s sl).enq j = some a →
      ∃ a₀, v.enq j = some a₀ ∧ a₀.ticket = a.ticket := by
    intro j a ha
    by_cases hj : j = i
    · subst hj
      simp only [RingView.store, update_self] at ha
      obtain ⟨-, ha⟩ := ite_none_left_eq_some.mp ha
      rw [some.injEq] at ha
      subst ha
      exact ⟨e, he, rfl⟩
    · simp only [RingView.store, update_of_ne hj] at ha
      exact ⟨a, ha, rfl⟩
  obtain ⟨a₀, ha₀, hta⟩ := hback j a ha
  obtain ⟨b₀, hb₀, htb⟩ := hback k b hb
  exact h.enq_inj j k a₀ b₀ ha₀ hb₀ (by omega)

/-! ## What the accesses of the coordinator preserve -/

lemma ready_at_tail (hf : Fits v) (hr : (v.slots (v.slotOf v.tailCount)).ready) :
    ∃ c, v.claims[v.tailCount]? = some c ∧ c.stage = .ready := by
  obtain ⟨k, c, hk, hc, hs, hst⟩ := h.ready_only _ hr
  have hlt := (List.getElem?_eq_some_iff.mp hc).1
  by_cases hkt : k = v.tailCount
  · exact ⟨c, hkt ▸ hc, hst⟩
  · exact absurd hs (h.slot_ne hf hk (Nat.le_refl _) hlt (by omega) hkt)

lemma load (hf : Fits v) (hidle : v.drain = .idle)
    (hr : (v.slots (v.slotOf v.tailCount)).ready) :
    RingInv { v with
      drain := .loaded (v.slotOf v.tailCount) (v.slots (v.slotOf v.tailCount)).value } := by
  obtain ⟨c, hc, hst⟩ := h.ready_at_tail hf hr
  have hnc : ¬v.clearing := by simp [RingView.clearing, hidle]
  have hslot := h.slot_ok _ c hc (Nat.le_refl _)
  simp only [RingView.SlotOk, hst] at hslot
  have hd := h.drain_ok
  simp only [RingView.DrainOk, hidle] at hd
  refine { h with drain_ok := ?_, slot_ok := ?_ }
  · refine ⟨hd.1, hd.2, ⟨c, hc, hst, ?_⟩, rfl⟩
    rw [hslot.2 fun hcl => hnc hcl.2]
  · intro k c' hk hle
    refine (h.slot_ok k c' hk hle).congr rfl (and_congr_right fun _ => iff_of_false ?_ hnc)
    simp [RingView.clearing]

lemma clear (hf : Fits v) {d : Drain} {sl : Slot}
    (hd : ({ v with drain := d } : RingView).DrainOk)
    (hc : ({ v with drain := d } : RingView).clearing) (hh : v.Holding r) (hsl : sl.ready = false) :
    RingInv { v with
      drain := d, slots := update v.slots (v.slotOf v.tailCount) sl } := by
  obtain ⟨c₀, hc₀, hst₀, -⟩ := hh
  have hlt₀ := (List.getElem?_eq_some_iff.mp hc₀).1
  refine { h with drain_ok := hd, slot_ok := ?_, ready_only := ?_ }
  · intro k c hk hle
    have hlt := (List.getElem?_eq_some_iff.mp hk).1
    by_cases hkt : k = v.tailCount
    · subst hkt
      have hcc : c = c₀ := some.inj (hk.symm.trans hc₀)
      subst hcc
      simp only [RingView.SlotOk, hst₀, RingView.slotOf, update_self]
      exact ⟨fun _ => hsl, fun hn => absurd ⟨trivial, hc⟩ hn⟩
    · have hne := h.slot_ne hf hle (Nat.le_refl _) hlt hlt₀ hkt
      exact (h.slot_ok k c hk hle).congr (update_of_ne hne _ _)
        (iff_of_false (fun hn => hkt hn.1) fun hn => hkt hn.1)
  intro j hj
  by_cases hje : j = v.slotOf v.tailCount
  · subst hje
    simp [hsl] at hj
  · simp only [update_of_ne hje] at hj
    exact h.ready_only j hj

lemma advance (hr : v.drain = .reset r) : RingInv { v with
      tail := incW 32 v.tail, tailCount := v.tailCount + 1, drain := .advanced r } := by
  have hd := h.drain_ok
  simp only [RingView.DrainOk, hr] at hd
  obtain ⟨hcr, hcon, c₀, hc₀, hst₀, hr₀⟩ := hd
  have hlt₀ := (List.getElem?_eq_some_iff.mp hc₀).1
  have hclr : v.clearing := .inr ⟨r, hr⟩
  refine ⟨h.head_eq, ?_, hlt₀, ?_, h.consumed_eq, ?_, ?_, ?_, h.enq_inj⟩
  · rw [← incW_mod, ← h.tail_eq]
  · exact ⟨by simp [hcr], by simp [hcr, hcon], c₀, by simpa [hcr] using hc₀, hr₀⟩
  · intro k c hk (hle : v.tailCount + 1 ≤ k)
    refine (h.slot_ok k c hk (by omega)).congr rfl (iff_of_false ?_ fun hn => by omega)
    simp [RingView.clearing]
  · intro j hj
    obtain ⟨k, c, hk, hc, hs, hst⟩ := h.ready_only j hj
    refine ⟨k, c, ?_, hc, hs, hst⟩
    -- The slot at the tail is not ready, so `k` is not the tail.
    by_contra hn
    have hkt : k = v.tailCount := by
      change ¬v.tailCount + 1 ≤ k at hn
      omega
    subst hkt
    have hok := h.slot_ok _ c hc hk
    simp only [RingView.SlotOk, hst] at hok
    rw [hs, hj] at hok
    exact absurd (hok.1 ⟨trivial, hclr⟩) (by decide)
  · intro i e he
    obtain ⟨h1, h2, h3, h4⟩ := h.enq_ok i e he
    have hne := h.enq_ne_ready he hc₀ hst₀
    exact ⟨Nat.lt_of_le_of_ne h1 hne.symm, h2, h3, h4⟩

lemma consume (hr : v.drain = .advanced r) :
    RingInv { v with consumed := v.consumed ++ [r], drain := .consumed } := by
  have hd := h.drain_ok
  simp only [RingView.DrainOk, hr] at hd
  obtain ⟨hcr, hcon, c, hc, rfl⟩ := hd
  have hnc : ¬v.clearing := by simp [RingView.clearing, hr]
  refine { h with drain_ok := ?_, consumed_eq := ?_, slot_ok := ?_ }
  · exact ⟨hcr, by simp [hcon, hcr]⟩
  · have hget : (v.claims.map Claim.result)[v.consumed.length]? = some c.result := by
      simp [hcon, hc]
    simp only [length_append, length_cons, length_nil]
    rw [take_add_one, hget, ← h.consumed_eq]
    rfl
  · intro k c' hk hle
    refine (h.slot_ok k c' hk hle).congr rfl (and_congr_right fun _ => iff_of_false ?_ hnc)
    simp [RingView.clearing]

lemma credit (hr : v.drain = .consumed) :
    RingInv { v with credited := v.credited + 1, drain := .idle } := by
  have hd := h.drain_ok
  simp only [RingView.DrainOk, hr] at hd
  have hnc : ¬v.clearing := by simp [RingView.clearing, hr]
  refine { h with drain_ok := hd, slot_ok := ?_ }
  intro k c hk hle
  refine (h.slot_ok k c hk hle).congr rfl (and_congr_right fun _ => iff_of_false ?_ hnc)
  simp [RingView.clearing]

end

end RingInv

end AegisGate.Health.OutcomeChannel
