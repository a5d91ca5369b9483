import AegisGate.Health.ProbeSlots
import AegisGate.Lib.Ticket
import AegisGate.Resilience.HalfOpen

/-!
# Claiming probes, step by step

`ClaimProbe` runs on any number of workers at once, against the slot object its snapshot names:
a load, a compare-exchange loop on the number of probes left, the increment of the number
issued, and a check that the object is still the one of the current cycle. Meanwhile the
coordinator records outcomes, begins cycles with new objects and publishes snapshots, and
workers go on using the snapshots they have.

A `ClaimWorld` keeps every claim that was ever made. `accepted` enters a probe with its cycle's
object whenever the breaker takes its outcome into account; no branch reads it.
-/

namespace AegisGate.Health
open Lib Resilience Option List CircuitBreaker

/-! ## The model -/

/-- A call of `ClaimProbe` that found an object in its snapshot, and what it has returned. -/
structure Claim where
  route : ℕ
  endpoint : ℕ
  address : ℕ
  phase : Ticket.Phase := .entered
  permit : Option AttemptPermit := none

/-- The coordinator, the snapshots it has published and the claims. -/
structure ClaimWorld where
  state : CoordinatorState
  published : List HealthCircuitSnapshot := []
  claims : List Claim := []
  accepted : List (Option ℕ × ℕ) := []

/-- `ClaimProbe` up to the load; without a half-open decision or an object it returns nothing. -/
def Claim.start (snapshot : HealthCircuitSnapshot) (route endpoint : ℕ) : Option Claim :=
  (snapshot.endpoints.cell route endpoint).bind fun decision =>
    if decision.breakerState ≠ .halfOpen then none
    else decision.probeSlots.map fun address => { route, endpoint, address }

namespace ClaimWorld

/-- What the last step of a claim returns: a permit if the object is still the current one. -/
def permitOf (w : ClaimWorld) (c : Claim) (object : ProbeSlotState) : Option AttemptPermit :=
  match c.phase with
  | .counted index =>
    if w.state.slotAt c.route c.endpoint = some c.address then
      some ⟨true, object.generation, (object.probeBase + index) % 2 ^ 64⟩
    else none
  | _ => c.permit

/-- The next access of a claim. -/
def advance (w : ClaimWorld) (i : ℕ) (spurious : Bool) : Option ClaimWorld :=
  w.claims[i]?.bind fun c => w.state.slots[c.address]?.bind fun object =>
    (Ticket.take 64 ⟨object.remaining, object.issued⟩ spurious c.phase).map fun next =>
      { w with
        state := { w.state with
          slots := w.state.slots.set c.address
            { object with remaining := next.1.remaining, issued := next.1.issued } }
        claims := w.claims.set i { c with phase := next.2, permit := w.permitOf c object } }

/-- The breaker takes the outcome of a probe into account. -/
def takes (w : ClaimWorld) (result : AttemptResult) : Bool :=
  (w.state.breakerAt result.routeIndex result.endpointIndex).any fun b =>
    b.state = .halfOpen ∧ result.permit.generation = b.generation ∧ result.permit.probe ∧
      result.permit.probeId ∈ b.pendingProbes

/-- What the coordinator and the workers do. -/
inductive Event
  | arm (route endpoint : ℕ) (now : TimePoint)
  | importProtection (snapshot : ProtectionSnapshot) (now : TimePoint)
  | recordHealth (route endpoint : ℕ) (healthy : Bool)
  | recordResult (result : AttemptResult) (now : TimePoint)
  | publish
  /-- A worker calls `ClaimProbe` with a snapshot that was published. -/
  | claim (snapshot : ℕ) (route endpoint : ℕ)
  | advance (claim : ℕ) (spurious : Bool)

def step (w : ClaimWorld) : Event → Option ClaimWorld
  | .arm route endpoint now => some { w with state := w.state.armHalfOpen route endpoint now }
  | .importProtection snapshot now =>
    some { w with state := w.state.importProtectionSnapshot snapshot now }
  | .recordHealth route endpoint healthy =>
    some { w with state := w.state.recordHealth route endpoint healthy }
  | .recordResult result now =>
    some { w with
      state := w.state.recordResult result now
      accepted :=
        if w.takes result then
          (w.state.slotAt result.routeIndex result.endpointIndex, result.permit.probeId) ::
            w.accepted
        else w.accepted }
  | .publish =>
    some { w with
      state := w.state.buildSnapshot.1
      published := w.published ++ [w.state.buildSnapshot.2] }
  | .claim n route endpoint => w.published[n]?.map fun snapshot =>
    { w with claims := w.claims ++ (Claim.start snapshot route endpoint).toList }
  | .advance i spurious => w.advance i spurious

/-- The permits that were returned from one slot object. -/
def permits (w : ClaimWorld) (address : ℕ) : List AttemptPermit :=
  w.claims.filterMap fun c => if c.address = address then c.permit else none

end ClaimWorld

/-! ## What the coordinator does in between -/

namespace CoordinatorState

/-- No two endpoints share a slot object. -/
structure Own (s : CoordinatorState) : Prop where
  bound : ∀ r e a, s.slotAt r e = some a → a < s.slots.length
  single : ∀ r e r' e' a, s.slotAt r e = some a → s.slotAt r' e' = some a → r = r' ∧ e = e'

/-- A half-open breaker has slots, and does not wait for a probe twice. -/
def Cyclic (s : CoordinatorState) : Prop :=
  ∀ r e b, s.breakerAt r e = some b → b.nextProbeId < 2 ^ 64 ∧ (b.state = .halfOpen →
    b.pendingProbes.Nodup ∧ (s.slotAt r e).isSome)

/-- New objects may have been added, and only they become current; a cycle goes on with the same
object and no further probes, or it is new. -/
structure Grows (s t : CoordinatorState) : Prop where
  slots : ∃ new, t.slots = s.slots ++ new ∧
    ∀ o ∈ new, o.issued = 0 ∧ o.remaining = o.quota ∧ o.quota < 2 ^ 32
  address : ∀ r e a, t.slotAt r e = some a → s.slotAt r e = some a ∨ s.slots.length ≤ a
  own : s.Own → t.Own
  cyclic : s.Cyclic → t.Cyclic
  cycle : ∀ r e b', t.breakerAt r e = some b' → b'.state = .halfOpen →
    (∃ a, t.slotAt r e = some a ∧ s.slots.length ≤ a) ∨
      ∃ b, s.breakerAt r e = some b ∧ b.state = .halfOpen ∧ t.slotAt r e = s.slotAt r e ∧
        ∀ id ∈ b'.pendingProbes, id ∈ b.pendingProbes

variable {s t u : CoordinatorState} {route endpoint : ℕ}

lemma Grows.length_le (h : Grows s t) : s.slots.length ≤ t.slots.length := by
  obtain ⟨new, hnew, -⟩ := h.slots
  rw [hnew, length_append]
  exact Nat.le_add_right _ _

lemma Grows.refl (s : CoordinatorState) : Grows s s :=
  ⟨⟨[], by simp, nofun⟩, fun _ _ _ ha => .inl ha, id, id,
    fun _ _ b hb hstate => .inr ⟨b, hb, hstate, rfl, fun _ hid => hid⟩⟩

lemma Grows.trans (h : Grows s t) (k : Grows t u) : Grows s u := by
  have hle := h.length_le
  refine ⟨?_, fun r e a ha => ?_, fun hs => k.own (h.own hs), fun hs => k.cyclic (h.cyclic hs),
    fun r e b'' hb'' hstate => ?_⟩
  · obtain ⟨new, hnew, hfresh⟩ := h.slots
    obtain ⟨new', hnew', hfresh'⟩ := k.slots
    refine ⟨new ++ new', by rw [hnew', hnew, append_assoc], fun o ho => ?_⟩
    rcases mem_append.mp ho with ho | ho
    · exact hfresh o ho
    · exact hfresh' o ho
  · rcases k.address r e a ha with ha | hge
    · exact h.address r e a ha
    · exact .inr (hle.trans hge)
  · rcases k.cycle r e b'' hb'' hstate with ⟨a, ha, hge⟩ | ⟨b', hb', hstate', hslot', hpending'⟩
    · exact .inl ⟨a, ha, hle.trans hge⟩
    · rcases h.cycle r e b' hb' hstate' with ⟨a, ha, hge⟩ | ⟨b, hb, hs, hslot, hpending⟩
      · exact .inl ⟨a, hslot'.trans ha, hge⟩
      · exact .inr ⟨b, hb, hs, hslot'.trans hslot, fun id hid => hpending id (hpending' id hid)⟩

lemma grows_of_kin (h : Kin s t) : Grows s t := by
  refine ⟨⟨[], by rw [h.slots, append_nil], nofun⟩, fun r e a ha => .inl (h.slotAt ha),
    fun hs => ⟨fun r e a ha => ?_, fun r e r' e' a ha ha' => ?_⟩, fun hs r e b hb => ?_,
    fun r e b hb hstate => ?_⟩
  · rw [h.slots]
    exact hs.bound r e a (h.slotAt ha)
  · exact hs.single r e r' e' a (h.slotAt ha) (h.slotAt ha')
  · obtain ⟨hb', hslot⟩ := h.breakerAt hb
    rw [hslot]
    exact hs r e b hb'
  · obtain ⟨hb', hslot⟩ := h.breakerAt hb
    exact .inr ⟨b, hb', hstate, hslot, fun _ hid => hid⟩

lemma grows_renew {b : CircuitBreaker} {cycle : Option HalfOpenCycle}
    (h : CircuitBreaker.Renewal b cycle) : Grows s (s.renew route endpoint b cycle) := by
  have haddress : ∀ r e a, (s.renew route endpoint b cycle).slotAt r e = some a →
      s.slotAt r e = some a ∨ r = route ∧ e = endpoint ∧ cycle.isSome ∧
      a = s.slots.length := by
    intro r e a ha
    rw [slotAt_renew] at ha
    split at ha
    · next hnew =>
      obtain ⟨st, -, rfl⟩ := map_eq_some_iff.mp ha
      exact .inr ⟨hnew.1, hnew.2.1, hnew.2.2, rfl⟩
    · exact .inl ha
  have hlength : (s.renew route endpoint b cycle).slots.length =
      s.slots.length + cycle.toList.length := by
    rw [slots_renew, length_append]
    cases cycle <;> rfl
  refine ⟨⟨_, slots_renew _ _ _ _ _, fun o ho => ?_⟩, fun r e a ha => ?_,
    fun hs => ⟨fun r e a ha => ?_,
    fun r e r' e' a ha ha' => ?_⟩, fun hs r e b' hb' => ?_, fun r e b' hb' hstate => ?_⟩
  · cases cycle with
    | none => cases ho
    | some c =>
      rw [map_some, toList_some, mem_singleton] at ho
      subst ho
      exact ⟨rfl, rfl, (h.fresh c rfl).2.2.2⟩
  · rcases haddress r e a ha with ha | ⟨-, -, -, rfl⟩
    · exact .inl ha
    · exact .inr le_rfl
  · rcases haddress r e a ha with ha | ⟨-, -, hsome, rfl⟩
    · have hlt := hs.bound r e a ha
      omega
    · obtain ⟨c, rfl⟩ := isSome_iff_exists.mp hsome
      rw [hlength]
      exact Nat.lt_succ_self _
  · rcases haddress r e a ha with ha | ⟨rfl, rfl, -, rfl⟩
    · rcases haddress r' e' a ha' with ha' | ⟨-, -, -, rfl⟩
      · exact hs.single r e r' e' a ha ha'
      · exact absurd (hs.bound r e _ ha) (lt_irrefl _)
    · rcases haddress r' e' _ ha' with ha' | ⟨rfl, rfl, -, -⟩
      · exact absurd (hs.bound r' e' _ ha') (lt_irrefl _)
      · exact ⟨rfl, rfl⟩
  · rw [breakerAt_renew] at hb'
    rw [slotAt_renew]
    by_cases hre : r = route ∧ e = endpoint
    · rw [if_pos hre] at hb'
      obtain ⟨st, hst, rfl⟩ := map_eq_some_iff.mp hb'
      refine ⟨h.next, fun hstate => ?_⟩
      cases cycle with
      | none => exact absurd hstate (h.idle rfl)
      | some c =>
        obtain ⟨-, hpending, hbase, hquota⟩ := h.fresh c rfl
        rw [hpending, if_pos ⟨hre.1, hre.2, rfl⟩, hst]
        exact ⟨nodup_probeRange hbase (by omega), rfl⟩
    · rw [if_neg hre] at hb'
      rw [if_neg fun hall => hre ⟨hall.1, hall.2.1⟩]
      exact hs r e b' hb'
  rw [breakerAt_renew] at hb'
  rw [slotAt_renew]
  by_cases hre : r = route ∧ e = endpoint
  · rw [if_pos hre] at hb'
    obtain ⟨st, hst, rfl⟩ := map_eq_some_iff.mp hb'
    cases cycle with
    | none => exact absurd hstate (h.idle rfl)
    | some c =>
      rw [if_pos ⟨hre.1, hre.2, rfl⟩, hst]
      exact .inl ⟨_, rfl, le_rfl⟩
  · rw [if_neg hre] at hb'
    rw [if_neg fun hall => hre ⟨hall.1, hall.2.1⟩]
    exact .inr ⟨b', hb', hstate, rfl, fun _ hid => hid⟩

lemma grows_armHalfOpen (hs : s.Cyclic) (now : TimePoint) :
    Grows s (s.armHalfOpen route endpoint now) := by
  rcases armHalfOpen_eq s route endpoint now with hsame | ⟨b, hb, hrenew⟩
  · rw [hsame]
    exact .refl s
  · rw [hrenew]
    exact grows_renew (renewal_beginFreshHalfOpenCycle (hs _ _ b hb).1)

lemma grows_importRecord (now : TimePoint) (source : EndpointProtectionSnapshot) :
    Grows s (importRecord now s source) := by
  have hbreaker : ∀ (s : CoordinatorState) (r e : ℕ) (rc : Config.Route),
      Grows s (s.importBreaker r e rc source now) := by
    intro s r e rc
    rcases importBreaker_eq s r e rc source now with hsame | ⟨b, snapshot, hrenew⟩
    · rw [hsame]
      exact .refl s
    · rw [hrenew]
      exact grows_renew (renewal_importSnapshot b snapshot now)
  rw [importRecord]
  split
  · exact .refl s
  · split
    · exact (grows_of_kin (kin_updateHealth s _ _ fun _ => source.healthState)).trans
        (hbreaker _ _ _ _)
    · exact hbreaker _ _ _ _

lemma grows_importProtectionSnapshot (snapshot : ProtectionSnapshot) (now : TimePoint) :
    Grows s (s.importProtectionSnapshot snapshot now) := by
  have hrecords : ∀ (sources : List EndpointProtectionSnapshot) (s : CoordinatorState),
      Grows s (sources.foldl (importRecord now) s) := by
    intro sources
    induction sources with
    | nil => exact .refl
    | cons source sources ih => exact fun s => (grows_importRecord now source).trans (ih _)
  exact (grows_of_kin (kin_prepareForMigration s)).trans (hrecords _ _)

lemma grows_recordResult (result : AttemptResult) (now : TimePoint) :
    Grows s (s.recordResult result now) := by
  have hcases : ∀ r e b', (s.recordResult result now).breakerAt r e = some b' →
      ∃ b, s.breakerAt r e = some b ∧ b'.nextProbeId = b.nextProbeId ∧ (b'.state = .halfOpen →
        b.state = .halfOpen ∧ b'.pendingProbes.Sublist b.pendingProbes) := by
    intro r e b' hb'
    rw [breakerAt_recordResult] at hb'
    split at hb'
    · obtain ⟨b, hb, rfl⟩ := map_eq_some_iff.mp hb'
      refine ⟨b, hb, kept_record.1, fun hstate => ?_⟩
      obtain ⟨hhalf, -, hpending⟩ := record_halfOpen hstate
      refine ⟨hhalf, ?_⟩
      rcases hpending with herase | ⟨hsame, -⟩
      · rw [herase]
        exact erase_sublist
      · rw [hsame]
    · exact ⟨b', hb', rfl, fun hstate => ⟨hstate, .refl _⟩⟩
  refine ⟨⟨[], (append_nil _).symm, nofun⟩, fun r e a ha => ?_, fun hs => ⟨fun r e a ha => ?_,
    fun r e r' e' a ha ha' => ?_⟩, fun hs r e b' hb' => ?_, fun r e b' hb' hstate => ?_⟩
  · rw [slotAt_recordResult] at ha
    exact .inl ha
  · rw [slotAt_recordResult] at ha
    exact hs.bound r e a ha
  · rw [slotAt_recordResult] at ha ha'
    exact hs.single r e r' e' a ha ha'
  · obtain ⟨b, hb, hnext, hcycle⟩ := hcases r e b' hb'
    obtain ⟨hlt, hhalf⟩ := hs r e b hb
    rw [hnext, slotAt_recordResult]
    refine ⟨hlt, fun hstate => ?_⟩
    obtain ⟨hstate', hsub⟩ := hcycle hstate
    exact ⟨hsub.nodup (hhalf hstate').1, (hhalf hstate').2⟩
  · obtain ⟨b, hb, -, hcycle⟩ := hcases r e b' hb'
    obtain ⟨hstate', hsub⟩ := hcycle hstate
    exact .inr ⟨b, hb, hstate', slotAt_recordResult s result now r e, fun id hid => hsub.subset hid⟩

end CoordinatorState
end AegisGate.Health
