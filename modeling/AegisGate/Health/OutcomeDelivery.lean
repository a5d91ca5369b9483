import AegisGate.Health.OutcomeCredit

/-!
# Delivery of outcomes

`Delivery` says what the channel promises in one state: outcomes are consumed in the
order their slots were claimed and at most once, undrained outcomes have slots of
their own, the consumer is never led astray at the tail, and once the workers have
stored their outcomes the drain alone delivers them.

The slot of a claim is computed from a 32-bit counter that is never reduced modulo
the capacity. `delivery_iff` is the exact extent of the promise: it holds for all
runs with at most `N` claims if and only if the capacity divides `2 ^ 32` or `N` does
not pass `2 ^ 32`. For every other capacity some run puts the outcomes claimed just
before the wrap and the first one after it into the same slot.
-/

namespace AegisGate.Health.OutcomeChannel
open Lib World List

def Event.IsDrain : Event → Prop
  | .drainLoad | .drainUnready | .drainReset | .drainAdvance | .drainConsume | .drainCredit => True
  | _ => False

/-- What the coordinator may rely on. -/
structure Delivery (w : World) : Prop where
  running : w.aborted = false
  in_order : w.consumed <+: w.claims.map Claim.result
  apart : ∀ a b, w.tailCount ≤ a → a < b → b < w.claims.length →
    ringSlot 32 w.chan.capacity a ≠ ringSlot 32 w.chan.capacity b
  waits : w.drain = .idle → (w.chan.slots (w.chan.tail % w.chan.capacity)).ready →
    ∃ c, w.claims[w.tailCount]? = some c ∧ c.stage = .ready
  finds : w.drain = .idle → ∀ c, w.claims[w.tailCount]? = some c → c.stage = .ready →
    w.chan.slots (w.chan.tail % w.chan.capacity) = ⟨c.result, true⟩
  drains : ∀ n ≤ w.claims.length,
    (∀ k c, w.tailCount ≤ k → k < n → w.claims[k]? = some c → c.stage = .ready) →
    ∃ es w', (∀ e ∈ es, e.IsDrain) ∧ run step w es = some w' ∧ w'.claims = w.claims ∧
      n ≤ w'.consumed.length

/-! ## The promise is kept while slots cannot collide -/

namespace Good
variable {w : World}

lemma tail_slot (h : Good w) : w.chan.tail % w.chan.capacity = w.ring.slotOf w.tailCount := by
  rw [show w.chan.tail = w.tailCount % 2 ^ 32 from h.ring.tail_eq]
  rfl

lemma finds (h : Good w) (hidle : w.drain = .idle) {c : Claim}
    (hc : w.claims[w.tailCount]? = some c) (hst : c.stage = .ready) :
    w.chan.slots (w.chan.tail % w.chan.capacity) = ⟨c.result, true⟩ := by
  have hok := h.ring.slot_ok w.tailCount c hc (Nat.le_refl _)
  simp only [RingView.SlotOk, hst] at hok
  rw [h.tail_slot]
  refine hok.2 fun hcl => ?_
  rcases hcl.2 with ⟨i, r, hd⟩ | ⟨r, hd⟩
  · exact Drain.noConfusion (hidle.symm.trans hd)
  · exact Drain.noConfusion (hidle.symm.trans hd)

end Good

/-- Steps the drain still needs until `n` outcomes are consumed. -/
def drainPotential (n : ℕ) (w : World) : ℕ :=
  6 * (n - w.consumed.length) + match w.drain with
    | .consumed => 5
    | .idle => 4
    | .loaded .. => 3
    | .unready .. => 2
    | .reset _ => 1
    | .advanced _ => 0

variable {w : World} {cap : ℕ}

lemma drain_progress {n : ℕ} (h : Good w) (hn : w.consumed.length < n) (hle : n ≤ w.claims.length)
    (hready : ∀ k c, w.tailCount ≤ k → k < n → w.claims[k]? = some c → c.stage = .ready) :
    ∃ e w', e.IsDrain ∧ step w e = some w' ∧ w'.claims = w.claims ∧ w.tailCount ≤ w'.tailCount ∧
      drainPotential n w' < drainPotential n w := by
  have hrun := h.running
  have hd := h.ring.drain_ok
  cases hw : w.drain with
  | idle =>
    simp only [RingView.DrainOk, show w.ring.drain = .idle from hw] at hd
    have hlt : w.tailCount < n := by
      have : w.consumed.length = w.tailCount := hd.2
      omega
    have hget := getElem?_eq_getElem (l := w.claims) (i := w.tailCount) (by omega)
    have hslot := h.finds hw hget (hready _ _ (Nat.le_refl _) hlt hget)
    have hstep : step w .drainLoad = some { w with
        drain := .loaded (w.chan.tail % w.chan.capacity)
          (w.chan.slots (w.chan.tail % w.chan.capacity)).value } := by
      simp [step, hrun, hw, hslot]
    refine ⟨.drainLoad, _, trivial, hstep, rfl, Nat.le_refl _, ?_⟩
    simp [drainPotential, hw]
  | loaded i r =>
    refine ⟨.drainUnready, _, trivial, by simp [step, hrun, hw]; rfl, ?_, ?_, ?_⟩
    · rfl
    · exact Nat.le_refl _
    · simp [drainPotential, hw, setSlot]
  | unready i r =>
    refine ⟨.drainReset, _, trivial, by simp [step, hrun, hw]; rfl, ?_, ?_, ?_⟩
    · rfl
    · exact Nat.le_refl _
    · simp [drainPotential, hw, setSlot]
  | reset r =>
    refine ⟨.drainAdvance, _, trivial, by simp [step, hrun, hw]; rfl, ?_, ?_, ?_⟩
    · rfl
    · exact Nat.le_succ _
    · simp [drainPotential, hw]
  | advanced r =>
    refine ⟨.drainConsume, _, trivial, by simp [step, hrun, hw]; rfl, ?_, ?_, ?_⟩
    · rfl
    · exact Nat.le_refl _
    · simp only [drainPotential, hw, length_append, length_singleton]
      omega
  | consumed =>
    refine ⟨.drainCredit, _, trivial, by simp [step, hrun, hw]; rfl, ?_, ?_, ?_⟩
    · rfl
    · exact Nat.le_refl _
    · simp [drainPotential, hw]

lemma drain_run {n : ℕ} (hpos : CallsPos w) (h : Good w)
    (hinj : WindowInjective 32 w.chan.capacity w.claims.length) (hle : n ≤ w.claims.length)
    (hready : ∀ k c, w.tailCount ≤ k → k < n → w.claims[k]? = some c → c.stage = .ready) :
    ∃ es w', (∀ e ∈ es, e.IsDrain) ∧ run step w es = some w' ∧ w'.claims = w.claims ∧
      n ≤ w'.consumed.length := by
  -- Induction on the number of accesses the drain still needs.
  induction hp : drainPotential n w using Nat.strong_induction_on generalizing w with
  | _ p ih =>
    by_cases hn : n ≤ w.consumed.length
    · exact ⟨[], w, by simp, rfl, rfl, hn⟩
    obtain ⟨e, w₁, he, hstep, hcl, htail, hlt⟩ := drain_progress h (by omega) hle hready
    obtain ⟨ha, hcalls⟩ := step_access hpos hstep
    have hinj₁ : WindowInjective 32 w₁.chan.capacity w₁.claims.length := by
      rwa [ha.capacity, hcl]
    obtain ⟨es, w', hes, hrun, hcl', hlen⟩ := ih _ (hp ▸ hlt) hcalls
      (ha.good h hinj₁) hinj₁ (hcl ▸ hle)
      (fun k c hk hkn hc => hready k c (htail.trans hk) hkn (hcl ▸ hc)) rfl
    refine ⟨e :: es, w', ?_, by simp [hstep, hrun], hcl'.trans hcl, hlen⟩
    intro f hf
    rcases mem_cons.mp hf with rfl | hf
    · exact he
    · exact hes f hf

/-- **The invariant implies the promise.** -/
theorem Good.delivery (hpos : CallsPos w) (h : Good w)
    (hinj : WindowInjective 32 w.chan.capacity w.claims.length) : Delivery w := by
  refine ⟨h.running, ?_, ?_, ?_, ?_, ?_⟩
  · rw [show w.consumed = _ from h.ring.consumed_eq]
    exact take_prefix _ _
  · intro a b ha hab hb
    have hw := (h.fits hinj).window
    have hcr : w.credited ≤ w.tailCount := h.ring.credited_le
    change w.claims.length ≤ w.credited + w.chan.capacity at hw
    exact hinj a b hab (by omega) hb
  · intro hidle hr
    rw [h.tail_slot] at hr
    exact h.ring.ready_at_tail (h.fits hinj) hr
  · intro hidle c hc hst
    exact h.finds hidle hc hst
  · intro n hle hready
    exact drain_run hpos h hinj hle hready

/-! ## The run that breaks the promise -/

/-- The world after one worker has reserved a slot and claimed it for an outcome. -/
def World.claimOne (w : World) : World :=
  { w with
    chan := { w.chan with available := w.chan.available - 1, head := incW 32 w.chan.head }
    calls := w.calls ++ [none]
    objects := w.objects ++ [some
      { hasState := true, finalized := true, serial := w.nextSerial
        publishing := some (.enqueuing w.claims.length w.chan.head {} .claimed) }]
    claims := w.claims ++ [⟨{}, w.nextSerial, .claimed⟩]
    nextSerial := w.nextSerial + 1 }

lemma reaches_claimOne (hrun : w.aborted = false) (hacc : w.chan.accepting)
    (hpos : 0 < w.chan.available) : Reaches step w w.claimOne := by
  refine ⟨[.reserve, .reserveLoad w.calls.length, .reserveSwap w.calls.length false,
    .publish w.objects.length {}, .claim w.objects.length], ?_⟩
  have hne : w.chan.available ≠ 0 := by omega
  simp [step, hrun, hacc, reload, hne, quiet, object, publishCall,
    Option.filter, Reservation.live, claimOne]

/-- The channel is at rest after `m` outcomes: nothing is out and nothing is queued. -/
structure Rest (cap m : ℕ) (w : World) : Prop where
  running : w.aborted = false
  accepting : w.chan.accepting
  idle : w.drain = .idle
  available : w.chan.available = cap
  capacity : w.chan.capacity = cap
  head : w.chan.head = m % 2 ^ 32
  tail : w.chan.tail = m % 2 ^ 32
  claims : w.claims.length = m
  tailCount : w.tailCount = m

lemma Rest.round {m : ℕ} (h : Rest cap m w) (hpos : 0 < cap) (hle : cap ≤ kMaxOutcomeCapacity) :
    ∃ w', Reaches step w w' ∧ Rest cap (m + 1) w' := by
  obtain ⟨hrun, hacc, hidle, hav, hcap, hhead, htail, hcl, htc⟩ := h
  have hclaim : Reaches step w w.claimOne := reaches_claimOne hrun hacc (by omega)
  have hht : w.chan.tail = w.chan.head := htail.trans hhead.symm
  have hsub : subW 32 w.chan.head w.chan.head = 0 := by
    rw [hhead, subW_mod (Nat.le_refl _) (by simp), Nat.sub_self]
  have hinc : incW 32 (cap - 1) = cap := by
    unfold kMaxOutcomeCapacity at hle
    simp only [incW]
    rw [Nat.mod_eq_of_lt (by omega)]
    omega
  have hfinish : ∃ w', run step w.claimOne [.check w.objects.length, .write w.objects.length,
      .ready w.objects.length, .drainLoad, .drainUnready, .drainReset, .drainAdvance,
      .drainConsume, .drainCredit] = some w' ∧ Rest cap (m + 1) w' := by
    simp [step, claimOne, publishCall, object, setStage, setSlot,
      hrun, hidle, hht, hsub, hcap, hav, hinc, Nat.pos_iff_ne_zero.mp hpos]
    refine ⟨rfl, hacc, rfl, rfl, rfl, ?_, ?_, ?_, ?_⟩
    · exact hhead ▸ incW_mod 32 m
    · exact hhead ▸ incW_mod 32 m
    · simp [hcl]
    · simp [htc]
  obtain ⟨w', hw', hrest⟩ := hfinish
  exact ⟨w', hclaim.trans ⟨_, hw'⟩, hrest⟩

lemma reaches_rest {s : State} (hs : State.create cap = some s) (m : ℕ) :
    ∃ w, Reaches step (init s) w ∧ Rest cap m w := by
  obtain ⟨hpos, hle, rfl⟩ := State.create_some hs
  induction m with
  | zero => exact ⟨_, Reaches.refl _ _, ⟨rfl, rfl, rfl, rfl, rfl, rfl, rfl, rfl, rfl⟩⟩
  | succ m ih =>
    obtain ⟨w, hw, hrest⟩ := ih
    obtain ⟨w', hw', hrest'⟩ := hrest.round hpos hle
    exact ⟨w', hw.trans hw', hrest'⟩

/-- From a channel at rest up to `cap` outcomes can be claimed before any is drained. -/
lemma Rest.pile {m : ℕ} (h : Rest cap m w) {j : ℕ} (hj : j ≤ cap) :
    ∃ w', Reaches step w w' ∧ w'.aborted = false ∧ w'.chan.accepting ∧
      w'.chan.capacity = cap ∧ w'.chan.available + j = cap ∧ w'.tailCount = m ∧
      w'.claims.length = m + j := by
  induction j with
  | zero =>
    exact ⟨w, Reaches.refl _ _, h.running, h.accepting, h.capacity, h.available, h.tailCount,
      h.claims⟩
  | succ j ih =>
    obtain ⟨w₁, hw, hrun, hacc, hcap, hav, htc, hcl⟩ := ih (by omega)
    refine ⟨w₁.claimOne, hw.trans (reaches_claimOne hrun hacc (by omega)), hrun, hacc, hcap, ?_,
      htc, ?_⟩
    · simp only [claimOne]
      omega
    · simp [claimOne, hcl, Nat.add_assoc]

/-- If the capacity does not divide `2 ^ 32`, some run with `2 ^ 32 + 1` claims has two
undrained outcomes in one slot. -/
lemma reaches_shared_slot {s : State} (hs : State.create cap = some s) (hdvd : ¬cap ∣ 2 ^ 32) :
    ∃ w, Reaches step (init s) w ∧ w.claims.length = 2 ^ 32 + 1 ∧ ¬Delivery w := by
  obtain ⟨hpos, hle, -⟩ := State.create_some hs
  -- The last `r` claims before the wrap start at slot 0 again, and so does the wrap.
  have hr : 0 < 2 ^ 32 % cap := Nat.pos_of_ne_zero fun h => hdvd (Nat.dvd_of_mod_eq_zero h)
  have hrlt : 2 ^ 32 % cap < cap := Nat.mod_lt _ hpos
  have hrle : 2 ^ 32 % cap ≤ 2 ^ 32 := Nat.mod_le _ _
  obtain ⟨w₀, hw₀, hrest⟩ := reaches_rest hs (2 ^ 32 - 2 ^ 32 % cap)
  obtain ⟨w, hw, -, -, hcap, -, htc, hcl⟩ := hrest.pile (j := 2 ^ 32 % cap + 1) hrlt
  refine ⟨w, hw₀.trans hw, by omega, fun hdel => ?_⟩
  refine hdel.apart (2 ^ 32 - 2 ^ 32 % cap) (2 ^ 32) (by omega) (by omega) (by omega) ?_
  have hlt : 2 ^ 32 - 2 ^ 32 % cap < 2 ^ 32 := by omega
  rw [hcap, ringSlot_of_lt cap hlt, ringSlot, Nat.mod_self, Nat.zero_mod]
  exact Nat.mod_eq_zero_of_dvd (Nat.dvd_sub_mod _)

/-- **The exact extent of the promise.** Over all interleavings with at most `N` claims
the channel delivers as promised if and only if its capacity divides `2 ^ 32` or `N`
does not exceed `2 ^ 32`. -/
theorem delivery_iff {cap : ℕ} {s : State} (hs : State.create cap = some s) (N : ℕ) :
    (∀ w, Reaches step (init s) w → w.claims.length ≤ N → Delivery w) ↔
      cap ∣ 2 ^ 32 ∨ N ≤ 2 ^ 32 := by
  obtain ⟨hcpos, -, -⟩ := State.create_some hs
  constructor
  · intro h
    by_contra hn
    obtain ⟨hdvd, hlt⟩ := not_or.mp hn
    obtain ⟨w, hw, hlen, hbad⟩ := reaches_shared_slot hs hdvd
    exact hbad (h w hw (by omega))
  · intro h w hw hlen
    obtain ⟨hpos, hcap, hgood⟩ := good_of_reaches hs hw
    have hinj : WindowInjective 32 cap w.claims.length :=
      ((windowInjective_iff hcpos).mpr h).mono hlen
    exact (hgood hinj).delivery hpos (hcap ▸ hinj)

/-- A channel of three slots keeps the promise until its counter wraps. -/
theorem delivery_iff_three : State.create 3 = some { available := 3, capacity := 3 } ∧
      ∀ w, Reaches step (init { available := 3, capacity := 3 }) w →
        w.claims.length ≤ 2 ^ 32 → Delivery w :=
  ⟨rfl, (delivery_iff (show State.create 3 = some _ from rfl) (2 ^ 32)).mpr (.inr (Nat.le_refl _))⟩

/-- The same channel breaks it with the first claim after the wrap. -/
theorem delivery_fails_three : ∃ w, Reaches step (init { available := 3, capacity := 3 }) w ∧
      w.claims.length = 2 ^ 32 + 1 ∧ ¬Delivery w :=
  reaches_shared_slot (show State.create 3 = some _ from rfl) (by decide)

end AegisGate.Health.OutcomeChannel
