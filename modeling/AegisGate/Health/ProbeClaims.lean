import AegisGate.Health.ClaimProbe
import AegisGate.Health.Decisions

/-!
# No probe is handed out twice

For each slot object the claims on it are the threads of a ticket dispenser: what is left, the
rights that were exchanged and the tickets that were drawn make up the quota. A permit is a
ticket counted from the base of the cycle, so the permits of one cycle differ. A claim on an
object that is no longer current returns nothing, since no object becomes current again, and it
works on that object alone.
-/

namespace AegisGate.Health
open Lib Resilience CoordinatorState List Option

namespace ClaimWorld

/-- The phase of a claim on one slot object. -/
def phaseAt (address : ℕ) (c : Claim) : Option Ticket.Phase :=
  if c.address = address then some c.phase else none

variable {a i : ℕ} {c : Claim} {t : CoordinatorState} {spurious : Bool}

lemma heldBy_phaseAt (h : c.address = a) :
    heldBy (phaseAt a) c = {c.phase} := heldBy_of_some (if_pos h)

lemma heldBy_phaseAt_ne (h : c.address ≠ a) :
    heldBy (phaseAt a) c = 0 := heldBy_of_none (if_neg h)

structure Inv (w : ClaimWorld) : Prop where
  own : w.state.Own
  cyclic : w.state.Cyclic
  named : ∀ shown ∈ w.published, ∀ r e decision a, shown.endpoints.cell r e = some decision →
    decision.probeSlots = some a → a < w.state.slots.length
  claimed : ∀ c ∈ w.claims, c.address < w.state.slots.length
  balance : ∀ (a : ℕ) o, w.state.slots[a]? = some o → o.quota < 2 ^ 32 ∧
    Ticket.Balanced o.quota ⟨o.remaining, o.issued⟩ (held (phaseAt a) w.claims)
  granted : ∀ c ∈ w.claims, ∀ p, c.permit = some p → ∃ k o, c.phase = .left (some k) ∧
    w.state.slots[c.address]? = some o ∧ p = ⟨true, o.generation, (o.probeBase + k) % 2 ^ 64⟩
  logged : ∀ x ∈ w.accepted, ∃ a, x.1 = some a ∧ a < w.state.slots.length ∧
    ∀ r e b, w.state.slotAt r e = some a → w.state.breakerAt r e = some b →
      b.state = .halfOpen → x.2 ∉ b.pendingProbes
  once : w.accepted.Nodup

variable {w w' : ClaimWorld}

/-! ## The coordinator's steps -/

lemma held_of_length_le (h : Inv w) (ha : w.state.slots.length ≤ a) :
    held (phaseAt a) w.claims = 0 := by
  rw [held, Multiset.coe_eq_zero, filterMap_eq_nil_iff]
  intro c hc
  have hlt := h.claimed c hc
  exact if_neg (by omega)

lemma getElem?_grows {s : CoordinatorState} (hg : s.Grows t) (ha : a < s.slots.length) :
    t.slots[a]? = s.slots[a]? := by
  obtain ⟨new, hnew, -⟩ := hg.slots
  rw [hnew, getElem?_append_left ha]

lemma Inv.grow (h : Inv w) (hg : w.state.Grows t) : Inv { w with state := t } := by
  have hle := hg.length_le
  refine ⟨hg.own h.own, hg.cyclic h.cyclic, fun shown hmem r e d a hcell hd => ?_,
    fun c hc => (h.claimed c hc).trans_le hle, fun a o ho => ?_, fun c hc p hp => ?_,
    fun x hx => ?_, h.once⟩
  · exact (h.named shown hmem r e d a hcell hd).trans_le hle
  · by_cases ha : a < w.state.slots.length
    · rw [getElem?_grows hg ha] at ho
      exact h.balance a o ho
    · -- A new object has its whole quota, and no claims.
      obtain ⟨new, hnew, hfresh⟩ := hg.slots
      rw [hnew, getElem?_append_right (by omega)] at ho
      obtain ⟨hissued, hremaining, hquota⟩ := hfresh o (mem_of_getElem? ho)
      refine ⟨hquota, ?_⟩
      rw [held_of_length_le h (by omega), hissued, hremaining]
      exact Ticket.balanced_full _
  · obtain ⟨k, o, hphase, ho, hpermit⟩ := h.granted c hc p hp
    refine ⟨k, o, hphase, ?_, hpermit⟩
    rw [getElem?_grows hg (h.claimed c hc), ho]
  obtain ⟨a, ha, hlt, hpending⟩ := h.logged x hx
  refine ⟨a, ha, hlt.trans_le hle, fun r e b' hslot hb' hstate => ?_⟩
  rcases hg.cycle r e b' hb' hstate with ⟨a', ha', hge⟩ | ⟨b, hb, hstate', hsame, hsub⟩
  · cases hslot.symm.trans ha'
    omega
  · exact fun hmem => hpending r e b (hsame.symm.trans hslot) hb hstate' (hsub _ hmem)

lemma Inv.publish (h : Inv w) : Inv { w with
      state := w.state.buildSnapshot.1
      published := w.published ++ [w.state.buildSnapshot.2] } := by
  have hkin : w.state.Kin w.state.buildSnapshot.1 := ⟨fun r e st hst => ⟨st, hst, rfl, rfl⟩, rfl⟩
  have hgrown := h.grow (grows_of_kin hkin)
  refine { hgrown with named := fun shown hmem r e d a hcell hd => ?_ }
  rcases mem_append.mp hmem with hmem | hmem
  · exact h.named shown hmem r e d a hcell hd
  rw [mem_singleton.mp hmem] at hcell
  obtain ⟨st, hst, rfl⟩ := map_eq_some_iff.mp
    ((w.state.decisionAt_eq r e).symm.trans hcell)
  refine h.own.bound r e a ?_
  rw [slotAt, hst, bind_some]
  rw [decisionOf] at hd
  split at hd
  · cases hd
  · exact hd

lemma takes_iff (w : ClaimWorld) (result : AttemptResult) : w.takes result ↔
    ∃ b, w.state.breakerAt result.routeIndex result.endpointIndex = some b ∧ b.state = .halfOpen ∧
      result.permit.generation = b.generation ∧ result.permit.probe ∧
        result.permit.probeId ∈ b.pendingProbes := by
  rw [takes]
  cases w.state.breakerAt result.routeIndex result.endpointIndex <;> simp

lemma Inv.recordResult (h : Inv w) (result : AttemptResult) (now : TimePoint) : Inv { w with
      state := w.state.recordResult result now
      accepted :=
        if w.takes result then
          (w.state.slotAt result.routeIndex result.endpointIndex, result.permit.probeId) ::
          w.accepted
        else w.accepted } := by
  have hgrown := h.grow (grows_recordResult result now)
  split
  · next htakes =>
    obtain ⟨b, hb, hstate, hgen, hprobe, hmem⟩ := (w.takes_iff result).mp htakes
    obtain ⟨hnodup, hsome⟩ := (h.cyclic _ _ b hb).2 hstate
    obtain ⟨a, ha⟩ := isSome_iff_exists.mp hsome
    refine { hgrown with
      logged := fun x hx => ?_, once := nodup_cons.mpr ⟨fun hold => ?_, h.once⟩ }
    · rcases mem_cons.mp hx with rfl | hx
      · refine ⟨a, ha, h.own.bound _ _ a ha, fun r e b' hslot hb' hhalf => ?_⟩
        rw [slotAt_recordResult] at hslot
        obtain ⟨rfl, rfl⟩ := h.own.single _ _ _ _ a hslot ha
        rw [breakerAt_recordResult, if_pos ⟨rfl, rfl⟩, hb, map_some,
          some.injEq] at hb'
        subst hb'
        obtain ⟨-, -, herase | ⟨-, hno⟩⟩ := CircuitBreaker.record_halfOpen hhalf
        · rw [herase]
          exact hnodup.not_mem_erase
        · refine absurd ⟨hgen, ?_, hmem⟩ hno
          simp [requestPermit, hprobe]
      · exact hgrown.logged x hx
    · obtain ⟨a', ha', -, hpending⟩ := h.logged _ hold
      exact hpending _ _ b ha' hb hstate hmem
  · exact hgrown

/-! ## The workers' steps -/

lemma Inv.claim (h : Inv w) {snapshot : HealthCircuitSnapshot} (hmem : snapshot ∈ w.published)
    (r e : ℕ) : Inv { w with claims := w.claims ++ (Claim.start snapshot r e).toList } := by
  cases hstart : Claim.start snapshot r e with
  | none =>
    rw [toList_none, append_nil]
    exact h
  | some c =>
    obtain ⟨d, hcell, hbody⟩ := bind_eq_some_iff.mp hstart
    split at hbody
    · cases hbody
    obtain ⟨a, ha, rfl⟩ := map_eq_some_iff.mp hbody
    rw [toList_some]
    refine ⟨h.own, h.cyclic, h.named, fun c hc => ?_, fun a' o ho => ?_, fun c hc p hp => ?_,
      h.logged, h.once⟩
    · rcases mem_append.mp hc with hc | hc
      · exact h.claimed c hc
      · rw [mem_singleton.mp hc]
        exact h.named snapshot hmem r e d a hcell ha
    · obtain ⟨hquota, hbalance⟩ := h.balance a' o ho
      refine ⟨hquota, ?_⟩
      rw [held_append, held_singleton]
      by_cases haddress : a = a'
      · rw [heldBy_phaseAt haddress]
        exact hbalance.enter
      · rw [heldBy_phaseAt_ne haddress, Multiset.add_zero]
        exact hbalance
    · rcases mem_append.mp hc with hc | hc
      · exact h.granted c hc p hp
      · rw [mem_singleton.mp hc] at hp
        cases hp

lemma advance_cases (hstep : w.advance i spurious = some w') :
    ∃ c object d phase, w.claims[i]? = some c ∧ w.state.slots[c.address]? = some object ∧
      Ticket.take 64 ⟨object.remaining, object.issued⟩ spurious c.phase = some (d, phase) ∧
      w' = { w with
        state := { w.state with
          slots := w.state.slots.set c.address
            { object with remaining := d.remaining, issued := d.issued } }
        claims := w.claims.set i { c with phase, permit := w.permitOf c object } } := by
  obtain ⟨c, hc, hrest⟩ := bind_eq_some_iff.mp hstep
  obtain ⟨object, hobject, hmap⟩ := bind_eq_some_iff.mp hrest
  obtain ⟨⟨d, phase⟩, htake, rfl⟩ := map_eq_some_iff.mp hmap
  exact ⟨c, object, d, phase, hc, hobject, htake, rfl⟩

lemma Inv.permitOf (h : Inv w) (hc : c ∈ w.claims) {object : ProbeSlotState}
    {d : Ticket.Dispenser} {phase : Ticket.Phase}
    (htake : Ticket.take 64 ⟨object.remaining, object.issued⟩ spurious c.phase = some (d, phase))
    {p : AttemptPermit} (hp : w.permitOf c object = some p) :
    w.state.slotAt c.route c.endpoint = some c.address ∧ ∃ k, phase = .left (some k) ∧
      p = ⟨true, object.generation, (object.probeBase + k) % 2 ^ 64⟩ := by
  rw [ClaimWorld.permitOf] at hp
  split at hp
  · next k hphase =>
    rw [hphase] at htake
    cases htake
    obtain ⟨hcurrent, ⟨⟩⟩ := ite_none_right_eq_some.mp hp
    exact ⟨hcurrent, k, rfl, rfl⟩
  · obtain ⟨k, o, hphase, -⟩ := h.granted c hc p hp
    rw [hphase] at htake
    cases htake

lemma Inv.advance (h : Inv w) (hstep : w.advance i spurious = some w') : Inv w' := by
  obtain ⟨c, object, d, phase, hc, hobject, htake, rfl⟩ := advance_cases hstep
  have hmem := mem_of_getElem? hc
  have hlt := (List.getElem?_eq_some_iff.mp hobject).1
  refine ⟨⟨fun r e a ha => ?_, h.own.single⟩, h.cyclic, fun shown hs r e dec a hcell hd => ?_,
    fun c' hc' => ?_, fun a o ho => ?_, fun c' hc' p hp => ?_, fun x hx => ?_, h.once⟩
  · exact length_set.symm ▸ h.own.bound r e a ha
  · exact length_set.symm ▸ h.named shown hs r e dec a hcell hd
  · rw [length_set]
    rcases mem_or_eq_of_mem_set hc' with hold | rfl
    · exact h.claimed c' hold
    · exact hlt
  · have hset := held_set (f := phaseAt a)
      { c with phase, permit := w.permitOf c object } hc
    rw [List.getElem?_set] at ho
    by_cases ha : c.address = a
    · rw [if_pos ha, if_pos hlt] at ho
      cases ho
      obtain ⟨hquota, hbalance⟩ := h.balance a object (ha ▸ hobject)
      have hafter : heldBy (phaseAt a) { c with phase, permit := w.permitOf c object } = {phase} :=
        heldBy_phaseAt ha
      refine ⟨hquota, hbalance.take (by omega) ?_ ?_ htake⟩
      · rwa [heldBy_phaseAt ha, hafter] at hset
      · exact mem_filterMap.mpr ⟨c, hmem, if_pos ha⟩
    rw [if_neg ha] at ho
    have hafter : heldBy (phaseAt a) { c with phase, permit := w.permitOf c object } = 0 :=
      heldBy_phaseAt_ne ha
    rw [heldBy_phaseAt_ne ha, hafter, Multiset.add_zero, Multiset.add_zero] at hset
    rw [hset]
    exact h.balance a o ho
  · -- The object keeps its generation and its base.
    have hkept : ∀ (a : ℕ) o, w.state.slots[a]? = some o → ∃ o', (w.state.slots.set c.address
          { object with remaining := d.remaining, issued := d.issued })[a]? = some o' ∧
        o'.generation = o.generation ∧ o'.probeBase = o.probeBase := by
      intro a o ho
      rw [List.getElem?_set]
      by_cases ha : c.address = a
      · subst ha
        cases hobject.symm.trans ho
        rw [if_pos rfl, if_pos hlt]
        exact ⟨_, rfl, rfl, rfl⟩
      · rw [if_neg ha]
        exact ⟨o, ho, rfl, rfl⟩
    rcases mem_or_eq_of_mem_set hc' with hold | rfl
    · obtain ⟨k, o, hphase, ho, rfl⟩ := h.granted c' hold p hp
      obtain ⟨o', ho', hgen, hbase⟩ := hkept _ o ho
      exact ⟨k, o', hphase, ho', by rw [hgen, hbase]⟩
    · obtain ⟨-, k, hphase, rfl⟩ := h.permitOf hmem htake hp
      obtain ⟨o', ho', hgen, hbase⟩ := hkept _ object hobject
      exact ⟨k, o', hphase, ho', by rw [hgen, hbase]⟩
  · obtain ⟨a, ha, hlt', hpending⟩ := h.logged x hx
    exact ⟨a, ha, length_set.symm ▸ hlt', hpending⟩

/-- **Every step keeps the invariant.** -/
theorem Inv.step (h : Inv w) {e : Event} (hstep : w.step e = some w') : Inv w' := by
  cases e with
  | arm route endpoint now =>
    cases hstep
    exact h.grow (grows_armHalfOpen h.cyclic now)
  | importProtection snapshot now =>
    cases hstep
    exact h.grow (grows_importProtectionSnapshot snapshot now)
  | recordHealth route endpoint healthy =>
    cases hstep
    exact h.grow (grows_of_kin (kin_updateHealth _ _ _ _))
  | recordResult result now =>
    cases hstep
    exact h.recordResult result now
  | publish =>
    cases hstep
    exact h.publish
  | claim n route endpoint =>
    obtain ⟨snapshot, hsnapshot, rfl⟩ := map_eq_some_iff.mp hstep
    exact h.claim (mem_of_getElem? hsnapshot) route endpoint
  | advance i spurious => exact h.advance hstep

/-! ## Whole runs -/

lemma inv_create {config : Config} {now : TimePoint} {s : CoordinatorState}
    (h : create config now = some s) : Inv { state := s } := by
  have hshaped := shaped_create h
  have hempty : s.slots = [] := by
    rw [create, map_eq_some_iff] at h
    obtain ⟨endpoints, -, rfl⟩ := h
    rfl
  have hnone : ∀ r e a, s.slotAt r e ≠ some a := by
    intro r e a ha
    have hlt := hshaped.bounded r e a ha
    rw [hempty] at hlt
    cases hlt
  refine ⟨⟨hshaped.bounded, fun r e _ _ a ha => absurd ha (hnone r e a)⟩, fun r e b hb => ?_,
    by simp, (by simp), fun a o ho => ?_, by simp, by simp, nodup_nil⟩
  · obtain ⟨hclosed, -, hnext, -⟩ := breakerAt_create h hb
    refine ⟨?_, fun hstate => ?_⟩
    · rw [hnext]
      decide
    · rw [hclosed] at hstate
      cases hstate
  · rw [hempty] at ho
    cases ho

lemma filterMap_sublist {α β : Type} {f g : α → Option β} (l : List α)
    (h : ∀ x ∈ l, f x = none ∨ f x = g x) : (l.filterMap f).Sublist (l.filterMap g) := by
  induction l with
  | nil => exact .slnil
  | cons x l ih =>
    have hrest := ih fun y hy => h y (mem_cons_of_mem x hy)
    rw [filterMap_cons, filterMap_cons]
    rcases h x mem_cons_self with hnone | hsame
    · rw [hnone]
      cases g x with
      | none => exact hrest
      | some y => exact hrest.cons y
    · rw [hsame]
      cases g x with
      | none => exact hrest
      | some y => exact hrest.cons_cons y

/-- **The permits of one cycle** are tickets counted from its base. -/
theorem Inv.permits_eq (h : Inv w) {o : ProbeSlotState} (ho : w.state.slots[a]? = some o) :
    ∃ tickets : List ℕ, tickets.Nodup ∧ (∀ k ∈ tickets, k < o.quota) ∧
      w.permits a = tickets.map fun k => ⟨true, o.generation, (o.probeBase + k) % 2 ^ 64⟩ := by
  obtain ⟨-, hbalance⟩ := h.balance a o ho
  -- The tickets of the claims that were granted, among all tickets.
  let granted : Claim → Option ℕ := fun c =>
    if c.address = a ∧ c.permit.isSome then c.phase.ticket else none
  let drawn : Claim → Option ℕ := fun c => (phaseAt a c).bind Ticket.Phase.ticket
  have hdrawn : ((w.claims.filterMap drawn : List ℕ) : Multiset ℕ) =
      (held (phaseAt a) w.claims).filterMap Ticket.Phase.ticket := by
    rw [held, Multiset.filterMap_coe, filterMap_filterMap]
  have hsub : (w.claims.filterMap granted).Sublist (w.claims.filterMap drawn) := by
    refine filterMap_sublist _ fun c _ => ?_
    by_cases hc : c.address = a ∧ c.permit.isSome
    · right
      simp only [granted, drawn, phaseAt, if_pos hc, if_pos hc.1, bind_some]
    · exact .inl (if_neg hc)
  refine ⟨w.claims.filterMap granted, ?_, fun k hk => ?_, ?_⟩
  · refine hsub.nodup ?_
    rw [← Multiset.coe_nodup, hdrawn]
    exact hbalance.nodup
  · refine hbalance.lt ?_
    rw [← hdrawn]
    exact hsub.subset hk
  rw [permits, map_filterMap]
  refine filterMap_congr fun c hc => ?_
  by_cases haddress : c.address = a
  · cases hp : c.permit with
    | none => simp [granted, haddress, hp]
    | some p =>
      obtain ⟨k, o', hphase, ho', rfl⟩ := h.granted c hc p hp
      rw [haddress] at ho'
      cases ho.symm.trans ho'
      simp [granted, haddress, hp, hphase, Ticket.Phase.ticket]
  · simp [granted, haddress]

/-! ## Stale claims -/

/-- The claim has no permit, and the object it is on is not the current one of its endpoint. -/
def Stale (w : ClaimWorld) (i : ℕ) : Prop :=
  ∃ c, w.claims[i]? = some c ∧ c.permit = none ∧ w.state.slotAt c.route c.endpoint ≠ some c.address

lemma Inv.stale_grow (h : Inv w) (hstale : w.Stale i) (hg : w.state.Grows t) :
    Stale { w with state := t } i := by
  obtain ⟨c, hc, hpermit, hne⟩ := hstale
  refine ⟨c, hc, hpermit, fun hslot => ?_⟩
  rcases hg.address _ _ _ hslot with hold | hge
  · exact hne hold
  · have hlt := h.claimed c (mem_of_getElem? hc)
    omega

lemma Inv.stale_step (h : Inv w) (hstale : w.Stale i) {e : Event} (hstep : w.step e = some w') :
    w'.Stale i := by
  cases e with
  | arm route endpoint now =>
    cases hstep
    exact h.stale_grow hstale (grows_armHalfOpen h.cyclic now)
  | importProtection snapshot now =>
    cases hstep
    exact h.stale_grow hstale (grows_importProtectionSnapshot snapshot now)
  | recordHealth route endpoint healthy =>
    cases hstep
    exact h.stale_grow hstale
      (grows_of_kin (kin_updateHealth _ _ _ _))
  | recordResult result now =>
    cases hstep
    exact h.stale_grow hstale (grows_recordResult result now)
  | publish =>
    cases hstep
    exact hstale
  | claim n route endpoint =>
    obtain ⟨snapshot, -, rfl⟩ := map_eq_some_iff.mp hstep
    obtain ⟨c, hc, hpermit, hne⟩ := hstale
    refine ⟨c, ?_, hpermit, hne⟩
    rw [List.getElem?_append_left (List.getElem?_eq_some_iff.mp hc).1, hc]
  | advance j spurious =>
    obtain ⟨c, hc, hpermit, hne⟩ := hstale
    obtain ⟨c', object, d, phase, hc', -, htake, rfl⟩ := advance_cases hstep
    by_cases hij : j = i
    · subst hij
      cases hc.symm.trans hc'
      refine ⟨_, List.getElem?_set_self (List.getElem?_eq_some_iff.mp hc).1, ?_, hne⟩
      cases hp : w.permitOf c object with
      | none => rfl
      | some p => exact absurd (h.permitOf (mem_of_getElem? hc) htake hp).1 hne
    · exact ⟨c, (getElem?_set_ne hij).trans hc, hpermit, hne⟩

/-- **Claims on probes**, over every run of the coordinator and any number of workers. The
permits returned for one cycle have different identifiers from the cycle's interval and the
cycle's generation, and there are at most as many as its quota. A claim through a snapshot whose
object is no longer current returns nothing however the run goes on, and no step of a claim
touches another object than its own. The breaker takes the outcome of a probe of a cycle into
account at most once. -/
theorem claims_sound {config : Config} {now : TimePoint} {s : CoordinatorState}
    (hcreate : create config now = some s) {es : List Event}
    (hrun : run ClaimWorld.step { state := s } es = some w) :
    (∀ (a : ℕ) o, w.state.slots[a]? = some o →
      ((w.permits a).map AttemptPermit.probeId).Nodup ∧ (w.permits a).length ≤ o.quota ∧
      ∀ p ∈ w.permits a, p.probe ∧ p.generation = o.generation ∧
        ProbeInterval o.probeBase o.quota p.probeId ∧ (o.probeBase + o.quota ≤ 2 ^ 64 →
          o.probeBase ≤ p.probeId ∧ p.probeId < o.probeBase + o.quota)) ∧
    (∀ (i : ℕ) (c : Claim), w.claims[i]? = some c → c.permit = none →
      w.state.slotAt c.route c.endpoint ≠ some c.address →
      ∀ fs w', run ClaimWorld.step w fs = some w' →
        ∃ c : Claim, w'.claims[i]? = some c ∧ c.permit = none) ∧
    (∀ (i : ℕ) (c : Claim) spurious w', w.claims[i]? = some c →
      w.step (.advance i spurious) = some w' →
      ∀ a, a ≠ c.address → w'.state.slots[a]? = w.state.slots[a]?) ∧
    w.accepted.Nodup := by
  have h : Inv w := run_invariant (fun u e v (hu : Inv u) hv => hu.step hv)
      (inv_create hcreate) hrun
  refine ⟨fun a o ho => ?_, fun i c hc hpermit hne fs w' hrun' => ?_,
    fun i c spurious w' hc hstep a ha => ?_, h.once⟩
  · obtain ⟨tickets, hnodup, hlt, hpermits⟩ := h.permits_eq ho
    have hquota := (h.balance a o ho).1
    rw [hpermits]
    refine ⟨?_, ?_, fun p hp => ?_⟩
    · rw [List.map_map]
      refine hnodup.map_on fun k hk k' hk' heq => ?_
      have hk := hlt k hk
      have hk' := hlt k' hk'
      change (o.probeBase + k) % 2 ^ 64 = (o.probeBase + k') % 2 ^ 64 at heq
      omega
    · rw [length_map]
      have hsub : tickets ⊆ range o.quota := fun k hk => mem_range.mpr (hlt k hk)
      simpa using (hnodup.subperm hsub).length_le
    · obtain ⟨k, hk, rfl⟩ := mem_map.mp hp
      have hk := hlt k hk
      refine ⟨rfl, rfl, ⟨k, hk, rfl⟩, fun hwrap => ?_⟩
      dsimp only
      omega
  · have hstale := run_invariant
      (fun u e v (hu : Inv u ∧ u.Stale i) hv => ⟨hu.1.step hv, hu.1.stale_step hu.2 hv⟩)
      ⟨h, c, hc, hpermit, hne⟩ hrun'
    obtain ⟨-, c', hc', hpermit', -⟩ := hstale
    exact ⟨c', hc', hpermit'⟩
  · obtain ⟨c', object, d, phase, hc', -, -, rfl⟩ := advance_cases hstep
    cases hc.symm.trans hc'
    exact List.getElem?_set_ne fun heq => ha heq.symm

/-- A cycle of two probes is claimed once; its probe fails, a new cycle begins, and a second
claim through the old snapshot is made. -/
theorem claims_sound_stale : ∃ s w c, create twoProbesConfig 0 = some s ∧
      run ClaimWorld.step { state := s }
        [.recordResult ⟨0, 0, ⟨false, 1, 0⟩, false⟩ 0, .arm 0 0 1000000000, .publish, .claim 0 0 0,
          .advance 0 false, .advance 0 false, .advance 0 false, .advance 0 false,
          .recordResult ⟨0, 0, ⟨true, 3, 1⟩, false⟩ 1000000000, .arm 0 0 2000000000,
          .claim 0 0 0] = some w ∧
      w.permits 0 = [⟨true, 3, 1⟩] ∧ w.claims[1]? = some c ∧
      ∀ fs w', run ClaimWorld.step w fs = some w' →
        ∃ c', w'.claims[1]? = some c' ∧ c'.permit = none := by
  obtain ⟨s, hs⟩ : ∃ s, create twoProbesConfig 0 = some s :=
    ⟨_, rfl⟩
  obtain ⟨w, hw⟩ : ∃ w, run ClaimWorld.step { state := s }
      [.recordResult ⟨0, 0, ⟨false, 1, 0⟩, false⟩ 0, .arm 0 0 1000000000, .publish, .claim 0 0 0,
        .advance 0 false, .advance 0 false, .advance 0 false, .advance 0 false,
        .recordResult ⟨0, 0, ⟨true, 3, 1⟩, false⟩ 1000000000, .arm 0 0 2000000000,
        .claim 0 0 0] = some w := by
    cases hs
    exact ⟨_, rfl⟩
  have h := claims_sound hs hw
  have hfacts : w.permits 0 = [⟨true, 3, 1⟩] ∧ ∃ c, w.claims[1]? = some c ∧ c.permit = none ∧
      w.state.slotAt c.route c.endpoint ≠ some c.address := by
    cases hs
    cases hw
    exact ⟨rfl, _, rfl, rfl, by decide⟩
  obtain ⟨hpermits, c, hc, hpermit, hne⟩ := hfacts
  exact ⟨s, w, c, hs, hw, hpermits, hc, h.2.1 1 c hc hpermit hne⟩

end ClaimWorld
end AegisGate.Health
