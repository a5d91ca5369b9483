import AegisGate.Resilience.HalfOpen
import AegisGate.Runtime.SlotOwners

/-!
# Where a probe is

While a breaker is half-open each of its pending probes waits for an outcome, and the cycle
ends only with the outcomes of all of them or with a failure. So a probe that nothing will
report any more takes its endpoint out of service for good: a half-open breaker has no
timer. A pending probe is accounted for as long as it is still in the slot object of the
cycle, or a selection has claimed it and is about to reserve, or an unfinished attempt carries it
with its reservation, or its outcome is in the channel.

The attempt's ends that publish nothing, and a reservation that is refused after the probe
was claimed, are where a probe is lost.
-/

namespace AegisGate.Runtime
open Lib Resilience Health CoordinatorState CircuitBreaker List Option

namespace Traffic

/-! ## The places of a probe -/

/-- The probe `id` of the endpoint's cycle `g` will still be reported. -/
inductive Located (w : Traffic) (r e g id : ℕ) : Prop
  /-- It is unclaimed in the cycle's slot object. -/
  | unclaimed (address : ℕ) (object : ProbeSlotState) (k : ℕ)
      (hslot : w.state.slotAt r e = some address) (hobject : w.state.slots[address]? = some object)
      (hgeneration : object.generation = g) (hissued : object.issued ≤ k)
      (hquota : k < object.quota)
      (hid : id = (object.probeBase + k) % 2 ^ 64)
  /-- A selection has claimed it, and its reservation comes next. -/
  | claimed (a : Attempt) (hmem : a ∈ w.claims) (hroute : a.route = r) (hendpoint : a.endpoint = e)
      (hpermit : a.permit = ⟨true, g, id⟩)
  /-- An unfinished attempt carries it, with its reservation. -/
  | carried (a : Attempt) (hmem : a ∈ w.attempts) (hunfinished : a.finished = false)
      (hroute : a.route = r) (hendpoint : a.endpoint = e) (hpermit : a.permit = ⟨true, g, id⟩)
  /-- Its outcome is in the channel of the route. -/
  | queued (c : RouteChannel) (result : AttemptResult) (hchannel : w.channels r = some c)
      (hmem : result ∈ c.queue) (hroute : result.routeIndex = r)
      (hendpoint : result.endpointIndex = e) (hpermit : result.permit = ⟨true, g, id⟩)

/-- Every pending probe of a half-open breaker is accounted for. -/
def NoProbeLost (w : Traffic) : Prop :=
  ∀ r e b, w.state.breakerAt r e = some b → b.state = .halfOpen →
    ∀ id ∈ b.pendingProbes, w.Located r e b.generation id

/-- The attempt carries a probe its breaker waits for. -/
def Awaited (w : Traffic) (a : Attempt) : Prop :=
  ∃ b, w.state.breakerAt a.route a.endpoint = some b ∧ b.state = .halfOpen ∧
    a.permit.probe ∧ a.permit.generation = b.generation ∧
    a.permit.probeId ∈ b.pendingProbes

/-- The step gives no probe up. The reservation for an awaited probe is granted, and an attempt
with an awaited probe ends with an outcome. -/
def Keeps (w : Traffic) : Event → Prop
  | .reserve index => ∀ a, w.claims[index]? = some a → w.Awaited a → w.reservable a.route
  | .finish index terminal clientAlive => ∀ a, w.attempts[index]? = some a → w.Awaited a →
      (terminal.outcome clientAlive).isSome
  | _ => True

def Counted (object : ProbeSlotState) : Prop :=
  object.issued + object.remaining = object.quota ∧ object.quota < 2 ^ 32

/-- The addresses have one owner each, and the objects count their probes. -/
structure Addressed (s : CoordinatorState) (published : List HealthCircuitSnapshot) : Prop
    extends Owned s published where
  slots : ∀ object ∈ s.slots, Counted object

variable {s : CoordinatorState} {published : List HealthCircuitSnapshot}

lemma Addressed.congr {s' : CoordinatorState} (h : Addressed s published)
    (hslot : ∀ r e address, s'.slotAt r e = some address → s.slotAt r e = some address)
    (hlength : s'.slots.length = s.slots.length) (hslots : ∀ object ∈ s'.slots, Counted object) :
    Addressed s' published :=
  ⟨h.toOwned.congr hslot hlength, hslots⟩

/-- The invariant: no probe is lost, probe identifiers do not repeat within a cycle, and a
reservation has its channel. -/
structure Inv (w : Traffic) : Prop where
  located : NoProbeLost w
  next : ∀ r e b, w.state.breakerAt r e = some b → b.nextProbeId < 2 ^ 64
  nodup : ∀ r e b, w.state.breakerAt r e = some b → b.state = .halfOpen → b.pendingProbes.Nodup
  addressed : Addressed w.state w.published
  channeled : ∀ a ∈ w.attempts, (w.channels a.route).isSome

section
variable {w w' : Traffic} {r e g id : ℕ}

/-- A probe keeps its place if the slot object is kept, and whatever else carries the probe. -/
lemma Located.mono (h : w.Located r e g id) (hslot : w'.state.slotAt r e = w.state.slotAt r e)
    (hslots : ∀ address object, w.state.slotAt r e = some address →
      w.state.slots[address]? = some object → w'.state.slots[address]? = some object)
    (hclaims : ∀ a ∈ w.claims, a.route = r ∧ a.endpoint = e ∧ a.permit = ⟨true, g, id⟩ →
      a ∈ w'.claims)
    (hattempts : ∀ a ∈ w.attempts, a.finished = false →
      a.route = r ∧ a.endpoint = e ∧ a.permit = ⟨true, g, id⟩ → a ∈ w'.attempts)
    (hchannels : ∀ c, w.channels r = some c → ∃ c', w'.channels r = some c' ∧
      ∀ result ∈ c.queue, result.routeIndex = r ∧ result.endpointIndex = e ∧
        result.permit = ⟨true, g, id⟩ → result ∈ c'.queue) : w'.Located r e g id := by
  cases h with
  | unclaimed address object k hslot' hobject hgeneration hissued hquota hid =>
    exact .unclaimed address object k (hslot.trans hslot') (hslots _ _ hslot' hobject) hgeneration
      hissued hquota hid
  | claimed a hmem hroute hendpoint hpermit =>
    exact .claimed a (hclaims a hmem ⟨hroute, hendpoint, hpermit⟩) hroute hendpoint hpermit
  | carried a hmem hunfinished hroute hendpoint hpermit =>
    exact .carried a (hattempts a hmem hunfinished ⟨hroute, hendpoint, hpermit⟩) hunfinished
      hroute hendpoint hpermit
  | queued c result hchannel hmem hroute hendpoint hpermit =>
    obtain ⟨c', hc', hqueue⟩ := hchannels c hchannel
    exact .queued c' result hc' (hqueue result hmem ⟨hroute, hendpoint, hpermit⟩) hroute
      hendpoint hpermit

/-- A probe keeps its place if nothing is taken away. -/
lemma Located.grow (h : w.Located r e g id) (hslot : w'.state.slotAt r e = w.state.slotAt r e)
    (hslots : ∀ address object, w.state.slotAt r e = some address →
      w.state.slots[address]? = some object → w'.state.slots[address]? = some object)
    (hclaims : ∀ a ∈ w.claims, a ∈ w'.claims) (hattempts : ∀ a ∈ w.attempts, a ∈ w'.attempts)
    (hchannels : w'.channels = w.channels) : w'.Located r e g id :=
  h.mono hslot hslots (fun a ha _ => hclaims a ha) (fun a ha _ _ => hattempts a ha)
    fun c hc => ⟨c, hchannels ▸ hc, fun _ hmem _ => hmem⟩

lemma isSome_updateChannel (w : Traffic) (route : ℕ) (f : RouteChannel → RouteChannel) (r : ℕ) :
    ((w.updateChannel route f).channels r).isSome = (w.channels r).isSome := by
  rw [updateChannel]
  by_cases hr : r = route
  · subst hr
    simp
  · simp [hr]

variable {s : CoordinatorState} {route endpoint index : ℕ} {shown : HealthCircuitSnapshot}
  {f : RouteChannel → RouteChannel}

lemma Inv.kin (h : Inv w) (hkin : CoordinatorState.Kin w.state s) :
    Inv { w with state := s } where
  located r e b hb hhalf probe hprobe := by
    obtain ⟨hb', hslot⟩ := hkin.breakerAt hb
    refine (h.located r e b hb' hhalf probe hprobe).grow hslot (fun address object _ hobject => ?_)
      (fun _ => id) (fun _ => id) rfl
    rw [hkin.slots]
    exact hobject
  next r e b hb := h.next r e b (hkin.breakerAt hb).1
  nodup r e b hb := h.nodup r e b (hkin.breakerAt hb).1
  addressed := h.addressed.congr (fun _ _ _ => hkin.slotAt) (congrArg length hkin.slots)
    fun object hmem => h.addressed.slots object (hkin.slots ▸ hmem)
  channeled := h.channeled

lemma Addressed.renew {published : List HealthCircuitSnapshot} (h : Addressed s published)
    {b : CircuitBreaker} {cycle : Option HalfOpenCycle} (hrenewal : b.Renewal cycle) :
    Addressed (s.renew route endpoint b cycle) published := by
  refine ⟨h.toOwned.renew, fun object hmem => ?_⟩
  rw [slots_renew, mem_append] at hmem
  rcases hmem with hmem | hmem
  · exact h.slots object hmem
  · cases cycle with
    | none => cases hmem
    | some c =>
      cases mem_singleton.mp hmem
      exact ⟨Nat.zero_add _, (hrenewal.fresh c rfl).2.2.2⟩

lemma Inv.renew (h : Inv w) {b : CircuitBreaker} {cycle : Option HalfOpenCycle}
    (hrenewal : b.Renewal cycle) :
    Inv { w with state := w.state.renew route endpoint b cycle } := by
  constructor
  case located =>
    intro r e b' hb' hhalf probe hprobe
    have hb := hb'
    rw [breakerAt_renew] at hb
    split at hb
    · next hsame =>
      obtain ⟨rfl, rfl⟩ := hsame
      obtain ⟨st, hst, rfl⟩ := map_eq_some_iff.mp hb
      cases cycle with
      | none => exact absurd hhalf (hrenewal.idle rfl)
      | some c =>
        obtain ⟨hgeneration, hpending, hbase, -⟩ := hrenewal.fresh c rfl
        rw [hpending] at hprobe
        obtain ⟨k, hk, hid⟩ := (mem_probeRange hbase).mp hprobe
        refine .unclaimed w.state.slots.length
          { remaining := c.quota, probeBase := c.probeBase, generation := c.generation
            quota := c.quota } k ?_ ?_ hgeneration.symm (Nat.zero_le k) hk hid
        · rw [slotAt_renew, if_pos ⟨rfl, rfl, rfl⟩, hst]
          rfl
        · rw [slots_renew]
          simp
    next hother =>
    refine (h.located r e b' hb hhalf probe hprobe).grow ?_ (fun address object _ hobject => ?_)
      (fun _ => id) (fun _ => id) rfl
    · rw [slotAt_renew, if_neg fun hsame => hother ⟨hsame.1, hsame.2.1⟩]
    · rw [slots_renew, List.getElem?_append_left (List.getElem?_eq_some_iff.mp hobject).1]
      exact hobject
  case next =>
    intro r e b' hb
    rw [breakerAt_renew] at hb
    split at hb
    · obtain ⟨-, -, rfl⟩ := map_eq_some_iff.mp hb
      exact hrenewal.next
    · exact h.next r e b' hb
  case nodup =>
    intro r e b' hb hhalf
    rw [breakerAt_renew] at hb
    split at hb
    · obtain ⟨-, -, rfl⟩ := map_eq_some_iff.mp hb
      cases cycle with
      | none => exact absurd hhalf (hrenewal.idle rfl)
      | some c =>
        obtain ⟨-, hpending, hbase, hquota⟩ := hrenewal.fresh c rfl
        rw [hpending]
        exact nodup_probeRange hbase (by omega)
    · exact h.nodup r e b' hb hhalf
  case addressed => exact h.addressed.renew hrenewal
  case channeled => exact h.channeled

lemma Inv.publish (h : Inv w) : Inv w.publish :=
  { h with
    located := fun r e b hb hhalf probe hprobe =>
      (h.located r e b hb hhalf probe hprobe).grow rfl (fun _ _ _ => id) (fun _ => id)
        (fun _ => id) rfl
    addressed := ⟨h.addressed.toOwned.publish, h.addressed.slots⟩ }

lemma Inv.drain (h : Inv w) {now : TimePoint} (hdrain : w.drain route now = some w') :
    Inv w' := by
  rw [Traffic.drain] at hdrain
  split at hdrain
  · cases hdrain
  next c hchannel =>
  split at hdrain
  · cases hdrain
  next result queue hqueue =>
  cases hdrain
  have hslot := slotAt_recordResult w.state result now
  have hbreaker : ∀ r e b', (w.state.recordResult result now).breakerAt r e = some b' →
      ∃ b, w.state.breakerAt r e = some b ∧ (b' = b ∧ ¬(r = result.routeIndex ∧
          e = result.endpointIndex) ∨ r = result.routeIndex ∧ e = result.endpointIndex ∧
        b' = b.record now (requestPermit result.permit) result.success) := by
    intro r e b' hb'
    rw [breakerAt_recordResult] at hb'
    split at hb'
    · next hsame =>
      obtain ⟨b, hb, rfl⟩ := map_eq_some_iff.mp hb'
      exact ⟨b, hb, .inr ⟨hsame.1, hsame.2, rfl⟩⟩
    · next hother => exact ⟨b', hb', .inl ⟨rfl, hother⟩⟩
  -- A probe that is still pending is not the one the outcome was about.
  have hstay : ∀ r e g probe, w.Located r e g probe →
      ¬(r = result.routeIndex ∧ e = result.endpointIndex ∧ result.permit = ⟨true, g, probe⟩) →
      Located { w.updateChannel route fun c => { c with queue, available := c.available + 1 } with
        state := w.state.recordResult result now } r e g probe := by
    intro r e g probe hlocated hnot
    refine hlocated.mono (hslot r e) (fun _ _ _ => id) (fun _ ha _ => ha) (fun _ ha _ _ => ha)
      fun c' hc' => ?_
    by_cases hr : r = route
    · subst hr
      cases hchannel.symm.trans hc'
      refine ⟨{ c with queue, available := c.available + 1 }, by simp [updateChannel, hchannel],
        fun other hmem hother => ?_⟩
      rw [hqueue, mem_cons] at hmem
      refine hmem.resolve_left ?_
      rintro rfl
      exact hnot ⟨hother.1.symm, hother.2.1.symm, hother.2.2⟩
    · exact ⟨c', by simpa [updateChannel, hr] using hc', fun _ hmem _ => hmem⟩
  constructor
  case located =>
    intro r e b' hb' hhalf probe hprobe
    obtain ⟨b, hb, ⟨rfl, hother⟩ | ⟨hr, he, rfl⟩⟩ := hbreaker r e b' hb'
    · exact hstay _ _ _ _ (h.located r e b' hb hhalf probe hprobe)
        fun hsame => hother ⟨hsame.1, hsame.2.1⟩
    obtain ⟨hhalf', hgeneration, hpending⟩ := record_halfOpen hhalf
    rw [hgeneration]
    have hnodup := h.nodup r e b hb hhalf'
    rcases hpending with herase | ⟨hkeep, hnot⟩
    · rw [herase] at hprobe
      refine hstay _ _ _ _ (h.located r e b hb hhalf' probe (mem_of_mem_erase hprobe)) ?_
      rintro ⟨-, -, hpermit⟩
      rw [hpermit] at hprobe
      exact (hnodup.mem_erase_iff.mp hprobe).1 rfl
    rw [hkeep] at hprobe
    refine hstay _ _ _ _ (h.located r e b hb hhalf' probe hprobe) ?_
    rintro ⟨-, -, hpermit⟩
    refine hnot ?_
    rw [hpermit]
    exact ⟨rfl, rfl, hprobe⟩
  case next =>
    intro r e b' hb'
    obtain ⟨b, hb, ⟨rfl, -⟩ | ⟨-, -, rfl⟩⟩ := hbreaker r e b' hb'
    · exact h.next r e b' hb
    · rw [kept_record.1]
      exact h.next r e b hb
  case nodup =>
    intro r e b' hb' hhalf
    obtain ⟨b, hb, ⟨rfl, -⟩ | ⟨-, -, rfl⟩⟩ := hbreaker r e b' hb'
    · exact h.nodup r e b' hb hhalf
    obtain ⟨hhalf', -, hpending⟩ := record_halfOpen hhalf
    have hnodup := h.nodup r e b hb hhalf'
    rcases hpending with herase | ⟨hkeep, -⟩
    · rw [herase]
      exact hnodup.erase _
    · rwa [hkeep]
  case addressed =>
    exact h.addressed.congr (fun r e address ha => (hslot r e).symm.trans ha) rfl h.addressed.slots
  case channeled => exact fun a ha => (isSome_updateChannel ..).trans (h.channeled a ha)

/-! ## Selection -/

lemma Inv.claim (h : Inv w) (hshown : shown ∈ w.published) {permit : Option AttemptPermit}
    (hclaim : w.state.claimProbe route endpoint shown = (s, permit)) :
    Addressed s w.published ∧ (∀ r e, s.breakerAt r e = w.state.breakerAt r e) ∧
      ∀ r e g probe, w.Located r e g probe → Located { w with state := s } r e g probe ∨
        r = route ∧ e = endpoint ∧ permit = some ⟨true, g, probe⟩ := by
  rcases w.state.claimProbe_cases route endpoint shown with heq |
    ⟨decision, address, object, hcell, hdecision, hobject, hremaining, hcases⟩
  · rw [heq] at hclaim
    cases hclaim
    exact ⟨h.addressed, fun _ _ => rfl, fun r e g probe hlocated => .inl hlocated⟩
  have hcounted : Counted object := h.addressed.slots object (mem_of_getElem? hobject)
  have hissued : incW 64 object.issued = object.issued + 1 := by
    have hquota := hcounted.2
    have hsum := hcounted.1
    rw [incW]
    omega
  obtain ⟨hlt, hown⟩ := h.addressed.named shown hshown route endpoint decision address hcell
    hdecision
  have hs : s = { w.state with slots := w.state.slots.set address (claimed object) } := by
    rcases hcases with ⟨-, heq⟩ | ⟨-, heq⟩ <;>
      · rw [heq] at hclaim
        cases hclaim
        rfl
  refine ⟨?_, ?_, ?_⟩
  · rw [hs]
    refine h.addressed.congr (fun _ _ _ => id) (length_set ..) fun other hmem => ?_
    rcases mem_or_eq_of_mem_set hmem with hmem | rfl
    · exact h.addressed.slots other hmem
    · refine ⟨?_, hcounted.2⟩
      have hsum := hcounted.1
      show incW 64 object.issued + (object.remaining - 1) = object.quota
      omega
  · intro r e
    rw [hs]
    rfl
  intro r e g probe hlocated
  cases hlocated with
  | claimed a hmem hroute hendpoint hpermit => exact .inl (.claimed a hmem hroute hendpoint hpermit)
  | carried a hmem hunfinished hroute hendpoint hpermit =>
    exact .inl (.carried a hmem hunfinished hroute hendpoint hpermit)
  | queued c result hchannel hmem hroute hendpoint hpermit =>
    exact .inl (.queued c result hchannel hmem hroute hendpoint hpermit)
  | unclaimed address' object' k hslot hobject' hgeneration hk hquota hid =>
    by_cases hsame : address' = address
    · -- The claimed object is the endpoint's own, and hands out its next probe.
      subst hsame
      obtain ⟨rfl, rfl⟩ := hown r e hslot
      rw [hobject] at hobject'
      cases hobject'
      by_cases hnext : k = object.issued
      · refine .inr ⟨rfl, rfl, ?_⟩
        rcases hcases with ⟨hvoid, -⟩ | ⟨-, heq⟩
        · exact absurd hslot hvoid
        · rw [heq] at hclaim
          cases hclaim
          rw [hid, hnext, hgeneration]
      refine .inl (.unclaimed address' (claimed object) k ?_ ?_ hgeneration ?_
        hquota hid)
      · rw [hs]
        exact hslot
      · rw [hs]
        rw [getElem?_set_self hlt]
      · show incW 64 object.issued ≤ k
        omega
    refine .inl (.unclaimed address' object' k ?_ ?_ hgeneration hk hquota hid)
    · rw [hs]
      exact hslot
    · rw [hs]
      rw [getElem?_set_ne (Ne.symm hsame)]
      exact hobject'

lemma channels_updateChannel {r : ℕ} (hf : ∀ c, ∀ result ∈ c.queue, result ∈ (f c).queue)
    {c : RouteChannel} (hc : w.channels r = some c) :
    ∃ c', (w.updateChannel route f).channels r = some c' ∧
      ∀ result ∈ c.queue, result.routeIndex = r ∧ result.endpointIndex = e ∧
        result.permit = ⟨true, g, id⟩ → result ∈ c'.queue := by
  by_cases hr : r = route
  · subst hr
    exact ⟨f c, by simp [updateChannel, hc], fun result hmem _ => hf c result hmem⟩
  · exact ⟨c, by simpa [updateChannel, hr] using hc, fun _ hmem _ => hmem⟩

/-- A permit is taken: the probe it was issued for moves from the object to the claim. -/
lemma Inv.takeClaim (h : Inv w) (hshown : shown ∈ w.published)
    (hclaim : w.claim shown route endpoint = some w') : Inv w' := by
  obtain ⟨decision, -, hclaim⟩ := bind_eq_some_iff.mp hclaim
  obtain ⟨-, hclaim⟩ := ite_none_right_eq_some.mp hclaim
  rcases takePermit_cases w shown route endpoint decision with htake | ⟨s, permit, hprobe, htake⟩
  · rw [htake] at hclaim
    cases hclaim
    refine { h with located := fun r e b hb hhalf probe hprobe => ?_ }
    exact (h.located r e b hb hhalf probe hprobe).grow rfl (fun _ _ _ => id)
      (fun _ => mem_append_left _) (fun _ => id) rfl
  obtain ⟨haddressed, hbreaker, hlocated⟩ := h.claim hshown hprobe
  have hplace : ∀ r e b, s.breakerAt r e = some b → b.state = .halfOpen → ∀ probe ∈ b.pendingProbes,
      Located { w with state := s } r e b.generation probe ∨
        r = route ∧ e = endpoint ∧ permit = some ⟨true, b.generation, probe⟩ :=
    fun r e b hb hhalf probe hmem => hlocated r e _ probe
      (h.located r e b ((hbreaker r e).symm.trans hb) hhalf probe hmem)
  have hnext : ∀ r e b, s.breakerAt r e = some b → b.nextProbeId < 2 ^ 64 :=
    fun r e b hb => h.next r e b ((hbreaker r e).symm.trans hb)
  have hnodup : ∀ r e b, s.breakerAt r e = some b → b.state = .halfOpen → b.pendingProbes.Nodup :=
    fun r e b hb => h.nodup r e b ((hbreaker r e).symm.trans hb)
  rw [htake] at hclaim
  cases permit with
  | none =>
    cases hclaim
    refine ⟨fun r e b hb hhalf probe hmem => ?_, hnext, hnodup, haddressed, h.channeled⟩
    refine (hplace r e b hb hhalf probe hmem).resolve_right ?_
    rintro ⟨-, -, ⟨⟩⟩
  | some permit =>
    cases hclaim
    refine ⟨fun r e b hb hhalf probe hmem => ?_, hnext, hnodup, haddressed, h.channeled⟩
    rcases hplace r e b hb hhalf probe hmem with hold | ⟨rfl, rfl, ⟨⟩⟩
    · exact hold.grow rfl (fun _ _ _ => id) (fun _ => mem_append_left _) (fun _ => id) rfl
    · exact .claimed _ (mem_append_right _ mem_cons_self) rfl rfl rfl

lemma eq_or_mem_eraseIdx {l : List Attempt} {a b : Attempt} (hindex : l[index]? = some a)
    (hmem : b ∈ l) : b = a ∨ b ∈ l.eraseIdx index := by
  obtain ⟨i, hi⟩ := mem_iff_getElem?.mp hmem
  by_cases hsame : i = index
  · rw [hsame, hindex] at hi
    exact .inl (some.inj hi).symm
  · exact .inr (mem_eraseIdx_iff_getElem?.mpr ⟨i, hsame, hi⟩)

/-- A pending probe with this permit is awaited. -/
lemma awaited {a : Attempt} {b : CircuitBreaker}
    (hb : w.state.breakerAt a.route a.endpoint = some b) (hhalf : b.state = .halfOpen)
    (hprobe : id ∈ b.pendingProbes) (hpermit : a.permit = ⟨true, b.generation, id⟩) :
    w.Awaited a := by
  rw [Awaited, hpermit]
  exact ⟨b, hb, hhalf, rfl, rfl, hprobe⟩

/-- The reservation is granted, and the attempt carries the probe; or the probe was not awaited. -/
lemma Inv.reserve (h : Inv w) {a : Attempt} (hindex : w.claims[index]? = some a)
    (hkeeps : w.Awaited a → w.reservable a.route) :
    Inv ({ w with claims := w.claims.eraseIdx index }.reserve a.route a.endpoint a.permit).1 := by
  -- All places but the claim itself are as before.
  have hplace : ∀ r e b, w.state.breakerAt r e = some b → b.state = .halfOpen →
      ∀ probe ∈ b.pendingProbes,
        Located { w with claims := w.claims.eraseIdx index } r e b.generation probe ∨
          a.route = r ∧ a.endpoint = e ∧ a.permit = ⟨true, b.generation, probe⟩ := by
    intro r e b hb hhalf probe hprobe
    by_cases hsame : a.route = r ∧ a.endpoint = e ∧ a.permit = ⟨true, b.generation, probe⟩
    · exact .inr hsame
    refine .inl ((h.located r e b hb hhalf probe hprobe).mono rfl (fun _ _ _ => id)
      (fun a' hmem habout => (eq_or_mem_eraseIdx hindex hmem).resolve_left ?_)
      (fun _ ha _ _ => ha) fun c hc => ⟨c, hc, fun _ hmem _ => hmem⟩)
    rintro rfl
    exact hsame habout
  rw [Traffic.reserve]
  split
  · next hreservable =>
    have hchannel : (w.channels a.route).isSome := by
      rw [reservable, Bool.and_eq_true] at hreservable
      cases hc : w.channels a.route with
      | none => simp [hc] at hreservable
      | some c => rfl
    refine { h with
      located := fun r e b hb hhalf probe hprobe => ?_
      channeled := fun a' ha' => ?_ }
    · rcases hplace r e b hb hhalf probe hprobe with hold | ⟨rfl, rfl, hpermit⟩
      · exact hold.mono rfl (fun _ _ _ => id) (fun _ ha _ => ha)
          (fun _ ha _ _ => mem_append_left _ ha)
          fun c hc => channels_updateChannel (f := fun c => { c with available := c.available - 1 })
            (fun _ _ => id) hc
      · exact .carried _ (mem_append_right _ mem_cons_self) rfl rfl rfl hpermit
    · refine (isSome_updateChannel ..).trans ?_
      rcases mem_append.mp ha' with ha' | ha'
      · exact h.channeled a' ha'
      · cases mem_singleton.mp ha'
        exact hchannel
  · next hrefused =>
    refine { h with located := fun r e b hb hhalf probe hprobe => ?_ }
    refine (hplace r e b hb hhalf probe hprobe).resolve_right ?_
    rintro ⟨rfl, rfl, hpermit⟩
    exact hrefused (hkeeps (awaited hb hhalf hprobe hpermit))

/-! ## The end of an attempt -/

lemma Located.eraseIdx (h : w.Located r e g id) {a : Attempt}
    (hindex : w.attempts[index]? = some a)
    (hother : a.finished = false → ¬(a.route = r ∧ a.endpoint = e ∧ a.permit = ⟨true, g, id⟩))
    (hf : ∀ c, ∀ result ∈ c.queue, result ∈ (f c).queue) :
    Located { w.updateChannel a.route f with attempts := w.attempts.eraseIdx index } r e g id := by
  refine h.mono rfl (fun _ _ _ h => h) (fun _ ha _ => ha) (fun a' hmem hunfinished habout => ?_)
    fun c hc => channels_updateChannel (f := f) (w := w) hf hc
  refine (eq_or_mem_eraseIdx hindex hmem).resolve_left ?_
  rintro rfl
  exact hother hunfinished habout

lemma Inv.channeled_eraseIdx (h : Inv w) :
    ∀ a ∈ w.attempts.eraseIdx index, ((w.updateChannel route f).channels a.route).isSome :=
  fun a ha => (isSome_updateChannel ..).trans (h.channeled a (mem_of_mem_eraseIdx ha))

lemma Inv.finish (h : Inv w) {a : Attempt} (hindex : w.attempts[index]? = some a)
    {terminal : Terminal} {clientAlive : Bool}
    (hkeeps : w.Awaited a → (terminal.outcome clientAlive).isSome) :
    Inv (w.finish index a terminal clientAlive) := by
  have hmem : a ∈ w.attempts := mem_of_getElem? hindex
  rw [Traffic.finish]
  split
  · next success houtcome =>
    refine { h with
      located := fun r e b hb hhalf probe hprobe => ?_, channeled := h.channeled_eraseIdx }
    by_cases hother : a.route = r ∧ a.endpoint = e ∧ a.permit = ⟨true, b.generation, probe⟩
    · obtain ⟨rfl, rfl, hpermit⟩ := hother
      obtain ⟨c, hc⟩ := isSome_iff_exists.mp (h.channeled a hmem)
      refine .queued { c with queue := c.queue ++ [a.outcome success] }
        (a.outcome success) ?_ ?_ rfl
        rfl hpermit
      · simp [publishOutcome, updateChannel, hc]
      · simp
    · exact (h.located r e b hb hhalf probe hprobe).eraseIdx hindex (fun _ => hother)
        fun c result hmem => mem_append_left _ hmem
  next houtcome =>
  have hfree : ∀ r e b, w.state.breakerAt r e = some b → b.state = .halfOpen →
      ∀ probe ∈ b.pendingProbes,
        ¬(a.route = r ∧ a.endpoint = e ∧ a.permit = ⟨true, b.generation, probe⟩) := by
    rintro r e b hb hhalf probe hprobe ⟨rfl, rfl, hpermit⟩
    have hsome := hkeeps (awaited hb hhalf hprobe hpermit)
    rw [houtcome] at hsome
    cases hsome
  split
  · refine { h with
      located := fun r e b hb hhalf probe hprobe => ?_, channeled := h.channeled_eraseIdx }
    exact (h.located r e b hb hhalf probe hprobe).eraseIdx hindex
      (fun _ => hfree r e b hb hhalf probe hprobe) fun c _ => id
  refine ⟨fun r e b hb hhalf probe hprobe => ?_, h.next, h.nodup, h.addressed, ?_⟩
  swap
  · intro a' ha'
    rcases mem_or_eq_of_mem_set ha' with ha' | rfl
    · exact h.channeled a' ha'
    · exact h.channeled a hmem
  refine (h.located r e b hb hhalf probe hprobe).mono rfl (fun _ _ _ => id) (fun _ ha _ => ha)
    (fun a' hmem _ habout => ?_) fun c hc => ⟨c, hc, fun _ hmem _ => hmem⟩
  obtain ⟨i, hi⟩ := mem_iff_getElem?.mp hmem
  have hne : index ≠ i := by
    rintro rfl
    cases hindex.symm.trans hi
    exact hfree r e b hb hhalf probe hprobe habout
  exact mem_iff_getElem?.mpr ⟨i, (getElem?_set_ne hne).trans hi⟩

lemma Inv.importRecord (h : Inv w) (now : TimePoint) (source : EndpointProtectionSnapshot) :
    Inv { w with state := CoordinatorState.importRecord now w.state source } := by
  rw [CoordinatorState.importRecord]
  split
  · exact h
  next route endpoint routeConfig _ =>
  have hbreaker : ∀ {w : Traffic}, Inv w → Inv { w with
      state := w.state.importBreaker route endpoint routeConfig source now } := by
    intro w h
    rcases w.state.importBreaker_eq route endpoint routeConfig source now with heq | ⟨b, _, heq⟩
    · rw [heq]
      exact h
    · rw [heq]
      exact h.renew (renewal_importSnapshot b _ now)
  split
  · exact hbreaker (h.kin (kin_updateHealth _ _ _ _))
  · exact hbreaker h

/-- **The step lemma.** -/
theorem Inv.step (h : Inv w) {e : Event} (hkeeps : w.Keeps e) (hstep : w.step e = some w') :
    Inv w' := by
  rw [Traffic.step.eq_def] at hstep
  cases e with
  | arm route endpoint now =>
    cases hstep
    rcases w.state.armHalfOpen_eq route endpoint now with heq | ⟨b, hb, heq⟩
    · rw [heq]
      exact h
    · rw [heq]
      exact h.renew (renewal_beginFreshHalfOpenCycle (h.next _ _ b hb))
  | importProtection snapshot now =>
    cases hstep
    rw [importProtectionSnapshot]
    have hprepared := h.kin (kin_prepareForMigration w.state)
    generalize w.state.prepareForMigration = s at hprepared
    induction snapshot.endpoints generalizing s with
    | nil => exact hprepared
    | cons source rest ih => exact ih _ (hprepared.importRecord now source)
  | recordHealth route endpoint healthy =>
    cases hstep
    exact h.kin (kin_updateHealth _ _ _ _)
  | publish =>
    cases hstep
    exact h.publish
  | drain route now => exact h.drain hstep
  | stop =>
    cases hstep
    exact ⟨fun r e b hb hhalf probe hprobe =>
      (h.located r e b hb hhalf probe hprobe).grow rfl (fun _ _ _ => id) (fun _ => id)
        (fun _ => id) rfl, h.next, h.nodup, h.addressed, h.channeled⟩
  | claim snapshot route endpoint =>
    obtain ⟨shown, hshown, hclaim⟩ := bind_eq_some_iff.mp hstep
    exact h.takeClaim (mem_of_getElem? hshown) hclaim
  | reserve index =>
    obtain ⟨a, hindex, rfl⟩ := map_eq_some_iff.mp hstep
    exact h.reserve hindex (hkeeps a hindex)
  | finish index terminal clientAlive =>
    dsimp only at hstep
    split at hstep
    · cases hstep
    next a hindex =>
    split at hstep
    · cases hstep
    cases hstep
    exact h.finish hindex (hkeeps a hindex)
  | drop index =>
    dsimp only at hstep
    split at hstep
    · cases hstep
    next a hindex =>
    obtain ⟨hfinished, ⟨⟩⟩ := ite_none_right_eq_some.mp hstep
    refine { h with
      located := fun r e b hb hhalf probe hprobe => ?_, channeled := h.channeled_eraseIdx }
    exact (h.located r e b hb hhalf probe hprobe).eraseIdx hindex
      (fun hunfinished => absurd (hfinished.symm.trans hunfinished) (by simp)) fun c _ => id

lemma inv_create {config : Config} {now : TimePoint} (h : create config now = some w) : Inv w := by
  obtain ⟨state, hstate, rfl⟩ := map_eq_some_iff.mp h
  have hfresh : ∀ r e st, state.endpointAt r e = some st → st.probeSlots = none ∧
      ∀ b, st.breaker = some b → b.nextProbeId = 1 := by
    intro r e st hst
    rw [(endpointAt_create hstate r e).2] at hst
    simp only [bind_eq_some_iff] at hst
    obtain ⟨rc, -, ep, -, hst⟩ := hst
    rw [freshEndpoint] at hst
    split at hst
    · cases hst
      exact ⟨rfl, by simp⟩
    obtain ⟨b, hb, rfl⟩ := map_eq_some_iff.mp hst
    refine ⟨rfl, ?_⟩
    rintro b' ⟨⟩
    rw [CircuitBreaker.create] at hb
    split at hb <;> cases hb
    rfl
  have hslot : ∀ r e, state.slotAt r e = none := by
    intro r e
    rw [slotAt]
    cases hst : state.endpointAt r e with
    | none => rfl
    | some st => exact (hfresh r e st hst).1
  have hslots : state.slots = [] := by
    rw [CoordinatorState.create] at hstate
    obtain ⟨-, -, rfl⟩ := map_eq_some_iff.mp hstate
    rfl
  have hclosed : ∀ r e b, state.breakerAt r e = some b → b.state ≠ .halfOpen := by
    intro r e b hb
    rw [(breakerAt_create hstate hb).1]
    simp
  apply Inv.publish
  refine ⟨fun r e b hb hhalf => absurd hhalf (hclosed r e b hb), fun r e b hb => ?_,
    fun r e b hb hhalf => absurd hhalf (hclosed r e b hb), ⟨⟨?_, ?_, by simp⟩, ?_⟩, by simp⟩
  · obtain ⟨st, hst, hb⟩ := bind_eq_some_iff.mp hb
    rw [(hfresh r e st hst).2 b hb]
    decide
  · intro r e address ha
    exact absurd ((hslot r e).symm.trans ha) (by simp)
  · intro r e r' e' address ha
    exact absurd ((hslot r e).symm.trans ha) (by simp)
  · intro object hmem
    rw [hslots] at hmem
    cases hmem

end

/-- **No probe is lost** in a run whose steps give none up. -/
theorem noProbeLost_of_keeps {config : Config} {now : TimePoint} {w : Traffic} {es : List Event}
    (hcreate : create config now = some w) (hkeeps : Along step Keeps w es) :
    Always step NoProbeLost w es := by
  have hinv : Always step Inv w es :=
    always_of_along (fun s e s' hs he hstep => hs.step he hstep) (inv_create hcreate) hkeeps
  exact always_mono (fun s hs => hs.located) hinv

/-! ## A probe and its end -/

/-- One endpoint; the first failure opens its breaker for a second, and one probe closes it. -/
def probeConfig : Config where
  routes := [{
    name := "r", host := "h", pathPrefix := "/"
    endpoints := [Config.localEndpoint]
    maxInflight := 1, retryBudget := 0
    circuitBreaker := some ⟨10, 1, 500, 1, 1⟩ }]

/-- A failure opens the breaker; a second later it is half-open and a worker gets its probe. -/
def probing : List Event :=
  [.claim 0 0 0, .reserve 0, .finish 0 (.failure false false) true, .drain 0 0,
    .arm 0 0 1000000000, .publish, .claim 1 0 0, .reserve 0]

/-- The probe is answered. -/
theorem noProbeLost_of_keeps_answered :
    ∃ w, create probeConfig 0 = some w ∧ Always step NoProbeLost w
      (probing ++ [.finish 0 (.success 200) true, .drain 0 1000000000]) := by
  obtain ⟨w, hw⟩ : ∃ w, create probeConfig 0 = some w := ⟨_, rfl⟩
  refine ⟨w, hw, noProbeLost_of_keeps hw ?_⟩
  cases hw
  rintro _ ⟨⟩
  refine ⟨trivial, ?_⟩
  rintro _ ⟨⟩
  refine ⟨?_, ?_⟩
  · rintro _ ⟨⟩ -
    rfl
  rintro _ ⟨⟩
  refine ⟨fun _ _ _ => rfl, ?_⟩
  iterate 4
    rintro _ ⟨⟩
    refine ⟨trivial, ?_⟩
  rintro _ ⟨⟩
  refine ⟨?_, ?_⟩
  · rintro _ ⟨⟩ -
    rfl
  rintro _ ⟨⟩
  refine ⟨fun _ _ _ => rfl, ?_⟩
  rintro _ ⟨⟩
  exact ⟨trivial, trivial⟩

/-- The client of the probe disconnects: its reservation is given back, and the breaker waits
for a probe that nobody has. -/
theorem noProbeLost_fails_abort : ∃ w, create probeConfig 0 = some w ∧
      ¬Always step NoProbeLost w (probing ++ [.finish 0 .abort false]) := by
  refine ⟨_, rfl, fun h => ?_⟩
  have hlost := h.final rfl
  cases hlost 0 0 _ rfl rfl 1 mem_cons_self with
  | unclaimed address object k hslot hobject hgeneration hissued hquota hid =>
    cases hslot
    cases hobject
    exact absurd (Nat.lt_of_le_of_lt hissued hquota) (by decide)
  | claimed a hmem => cases hmem
  | carried a hmem => cases hmem
  | queued c result hchannel hmem =>
    cases hchannel
    cases hmem

end Traffic
end AegisGate.Runtime
