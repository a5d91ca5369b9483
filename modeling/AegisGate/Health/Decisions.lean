import AegisGate.Health.EndpointView

/-!
# Published decisions are self-consistent

A worker acts on a decision alone: it sees a state, a generation and a slot object, and its
outcome is dropped as stale if they do not belong together. The breaker and the slot object are
written on three paths, so that they match is an invariant of the endpoint's machine; that the
decision carries what matches follows from how it is built.
-/

namespace AegisGate.Health
open Lib Resilience CoordinatorState CircuitBreaker Option EndpointView

/-! ## Breaker and slot object match -/

/-- The interval of `n` identifiers from a base, in the 64 bits they have. -/
def ProbeInterval (base n id : ℕ) : Prop := ∃ k < n, id = (base + k) % 2 ^ 64

namespace EndpointView

/-- A half-open breaker has a cycle of its generation and quota, and only probes of that cycle
are pending. -/
def Matches (v : EndpointView) : Prop :=
  ∀ b, v.breaker = some b → b.nextProbeId < 2 ^ 64 ∧ (b.state = .halfOpen →
    ∃ c, v.cycle = some c ∧ c.generation = b.generation ∧ c.quota = b.config.halfOpenProbes ∧
      ∀ id ∈ b.pendingProbes, ProbeInterval c.probeBase c.quota id)

variable {v : EndpointView}

lemma matches_renew {b : CircuitBreaker} {cycle : Option HalfOpenCycle}
    (h : CircuitBreaker.Renewal b cycle)
    (hquota : ∀ c, cycle = some c → c.quota = b.config.halfOpenProbes) :
    (v.renew b cycle).Matches := by
  rintro _ ⟨⟩
  refine ⟨h.next, fun hstate => ?_⟩
  cases cycle with
  | none => exact absurd hstate (h.idle rfl)
  | some c =>
    obtain ⟨hgen, hpending, hbase, -⟩ := h.fresh c rfl
    refine ⟨c, rfl, hgen.symm, hquota c rfl, fun id hid => ?_⟩
    rw [hpending, mem_probeRange hbase] at hid
    exact hid

lemma Matches.renewBy (h : v.Matches)
    {rule : CircuitBreaker → Option (CircuitBreaker × Option HalfOpenCycle)}
    (hrule : ∀ b renewed, b.nextProbeId < 2 ^ 64 → rule b = some renewed →
      CircuitBreaker.Renewal renewed.1 renewed.2 ∧
        ∀ c, renewed.2 = some c → c.quota = renewed.1.config.halfOpenProbes) :
    (v.renewBy rule).Matches := by
  rw [EndpointView.renewBy]
  cases hv : v.breaker.bind rule with
  | none => exact h
  | some renewed =>
    obtain ⟨b, hb, hrenewed⟩ := bind_eq_some_iff.mp hv
    obtain ⟨hrenewal, hquota⟩ := hrule b renewed (h b hb).1 hrenewed
    exact matches_renew hrenewal hquota

lemma Matches.armed (h : v.Matches) (now : TimePoint) : (v.renewBy (armed now)).Matches := by
  refine h.renewBy fun b renewed hnext hrule => ?_
  rw [EndpointView.armed] at hrule
  obtain ⟨-, ⟨⟩⟩ := ite_none_left_eq_some.mp hrule
  refine ⟨renewal_beginFreshHalfOpenCycle hnext, ?_⟩
  rintro c ⟨⟩
  rfl

lemma Matches.migrated (h : v.Matches) (rc : Config.Route) (source : EndpointProtectionSnapshot)
    (now : TimePoint) : (v.renewBy (migrated rc source now)).Matches := by
  refine h.renewBy fun b renewed _ hrule => ?_
  obtain ⟨snapshot, -, hbody⟩ := bind_eq_some_iff.mp hrule
  obtain ⟨-, ⟨⟩⟩ := ite_none_right_eq_some.mp hbody
  obtain ⟨hconfig, hquota⟩ := quota_importSnapshot b snapshot now
  refine ⟨renewal_importSnapshot b snapshot now, fun c hc => ?_⟩
  rw [hconfig]
  exact hquota c hc

lemma Matches.importRecord (h : v.Matches) (config : Config) (r e : ℕ) (now : TimePoint)
    (source : EndpointProtectionSnapshot) : (v.importRecord config r e now source).Matches := by
  rw [EndpointView.importRecord]
  split
  · exact h
  split
  · rw [importOwn]
    split
    · exact Matches.migrated (v := { v with health := source.healthState }) h _ _ _
    · exact h.migrated _ _ _
  · exact h

lemma Matches.record (h : v.Matches) (now : TimePoint) (permit : RequestPermit) (success : Bool) :
    Matches { v with breaker := v.breaker.map fun b => b.record now permit success } := by
  intro d hd
  obtain ⟨b, hb, rfl⟩ := map_eq_some_iff.mp hd
  obtain ⟨hnext, hcycle⟩ := h b hb
  refine ⟨?_, fun hstate => ?_⟩
  · rw [kept_record.1]
    exact hnext
  obtain ⟨hhalf, hgen, hpending⟩ := record_halfOpen hstate
  obtain ⟨c, hc, hcgen, hcquota, hcpending⟩ := hcycle hhalf
  refine ⟨c, hc, hcgen.trans hgen.symm, ?_, fun id hid => hcpending id ?_⟩
  · rw [kept_record.2]
    exact hcquota
  · rcases hpending with herase | ⟨hsame, -⟩
    · rw [herase] at hid
      exact List.mem_of_mem_erase hid
    · rw [hsame] at hid
      exact hid

/-- **Every operation keeps breaker and slot object matched.** -/
theorem Matches.apply (h : v.Matches) (config : Config) (r e : ℕ) (op : CoordinatorOp) :
    (v.apply config r e op).Matches := by
  cases op with
  | recordHealth =>
    rw [EndpointView.apply]
    split
    · exact h
    · exact h
  | recordResult result now =>
    rw [EndpointView.apply]
    split
    · exact h.record _ _ _
    · exact h
  | armHalfOpen route endpoint now =>
    rw [EndpointView.apply]
    split
    · exact h.armed now
    · exact h
  | importProtection snapshot now =>
    have hrecords : ∀ (sources : List EndpointProtectionSnapshot) (u : EndpointView), u.Matches →
        (sources.foldl (EndpointView.importRecord config r e now) u).Matches := by
      intro sources
      induction sources with
      | nil => exact fun u hu => hu
      | cons source sources ih => exact fun u hu => ih _ (hu.importRecord config r e now source)
    exact hrecords _ _ h
  | buildSnapshot => exact h
  | claimProbe => exact h

end EndpointView

/-! ## What an operation is about -/

/-- The part of an operation that is about one endpoint: the whole operation, nothing, or the
records of an import that name it. -/
def CoordinatorOp.addressed (config : Config) (r e : ℕ) : CoordinatorOp → Option CoordinatorOp
  | .recordHealth route endpoint healthy =>
    if r = route ∧ e = endpoint then some (.recordHealth route endpoint healthy) else none
  | .recordResult result now =>
    if r = result.routeIndex ∧ e = result.endpointIndex then some (.recordResult result now)
    else none
  | .armHalfOpen route endpoint now =>
    if r = route ∧ e = endpoint then some (.armHalfOpen route endpoint now) else none
  | .importProtection snapshot now =>
    some (.importProtection
      ⟨snapshot.endpoints.filter fun source =>
        (target config source).any fun found => r = found.1 ∧ e = found.2.1⟩ now)
  | .buildSnapshot => none
  | .claimProbe _ _ _ => none

namespace EndpointView
variable {config : Config} {r e : ℕ}

lemma importRecords_addressed (now : TimePoint) (sources : List EndpointProtectionSnapshot)
    (v : EndpointView) :
    sources.foldl (importRecord config r e now) v =
      (sources.filter fun source => (target config source).any
        fun found => r = found.1 ∧ e = found.2.1).foldl (importRecord config r e now) v := by
  induction sources generalizing v with
  | nil => rfl
  | cons source sources ih =>
    rw [List.foldl_cons, List.filter_cons]
    split
    · rw [List.foldl_cons]
      exact ih _
    next hother =>
    have hsame : importRecord config r e now v source = v := by
      rw [importRecord]
      split
      · rfl
      · next heq =>
        rw [heq] at hother
        exact if_neg (by simpa using hother)
    rw [hsame]
    exact ih v

lemma apply_addressed (v : EndpointView) (op : CoordinatorOp) :
    v.apply config r e op = ((op.addressed config r e).map (v.apply config r e)).getD v := by
  cases op with
  | recordHealth route endpoint healthy | recordResult result now
  | armHalfOpen route endpoint now =>
    rw [CoordinatorOp.addressed]
    split
    · rfl
    · next hother => exact if_neg hother
  | importProtection snapshot now => exact importRecords_addressed now snapshot.endpoints _
  | buildSnapshot | claimProbe => rfl

lemma foldl_addressed (ops : List CoordinatorOp) (v : EndpointView) :
    ops.foldl (apply config r e) v =
      (ops.filterMap (CoordinatorOp.addressed config r e)).foldl
        (apply config r e) v := by
  induction ops generalizing v with
  | nil => rfl
  | cons op ops ih =>
    rw [List.foldl_cons, apply_addressed, List.filterMap_cons]
    cases op.addressed config r e with
    | none => exact ih v
    | some part => exact ih _

end EndpointView
/-! ## Decisions -/

/-- A decision, without the address of its slot object. -/
def EndpointDecision.anonymous (d : EndpointDecision) : EndpointDecision :=
  { d with probeSlots := d.probeSlots.map fun _ => 0 }

/-- The decision about an endpoint, without the address of its slot object. -/
def EndpointView.decision (v : EndpointView) : EndpointDecision :=
  match v.breaker with
  | none => { healthy := v.health.ok }
  | some b =>
    { healthy := v.health.ok
      breakerState := b.state
      generation := b.generation
      probeBase := (v.cycle.map HalfOpenCycle.probeBase).getD 0
      probeQuota := (v.cycle.map HalfOpenCycle.quota).getD 0
      probeSlots := v.cycle.map fun _ => 0 }

namespace CoordinatorState
variable {config : Config} {s t : CoordinatorState} {r e : ℕ}

/-- The decision about an endpoint in the snapshot that would be published now. -/
def decisionAt (s : CoordinatorState) (r e : ℕ) : Option EndpointDecision :=
  s.buildSnapshot.2.endpoints.cell r e

lemma decisionAt_eq (s : CoordinatorState) (r e : ℕ) :
    s.decisionAt r e = (s.endpointAt r e).map (decisionOf s) := Grid.cell_map _ _ _ _

lemma decisionAt_anonymous (h : Shaped config s) :
    (s.decisionAt r e).map EndpointDecision.anonymous =
    (s.viewAt r e).map decision := by
  rw [decisionAt_eq, viewAt, map_map, map_map]
  refine map_congr fun st hst => ?_
  rw [Function.comp_apply, Function.comp_apply, decisionOf, decision,
    EndpointState.view]
  cases st.breaker with
  | none => rfl
  | some b =>
    cases hslot : st.probeSlots with
    | none => rfl
    | some a =>
      have hlt := h.bounded r e a (by rw [slotAt, hst, bind_some, hslot])
      simp [EndpointDecision.anonymous, List.getElem?_eq_getElem hlt, ProbeSlotState.cycle]

/-! ## Whole runs -/

lemma viewAt_foldl (h : Shaped config s) (ops : List CoordinatorOp) :
    Shaped config (ops.foldl apply s) ∧ ∀ r e, (ops.foldl apply s).viewAt r e =
        (s.viewAt r e).map fun v => ops.foldl (EndpointView.apply config r e) v := by
  induction ops generalizing s with
  | nil => exact ⟨h, fun r e => map_id'.symm⟩
  | cons op ops ih =>
    obtain ⟨hshaped, hview⟩ := viewAt_apply h op
    obtain ⟨hrest, hviews⟩ := ih hshaped
    refine ⟨hrest, fun r e => ?_⟩
    rw [List.foldl_cons, hviews, hview, map_map]
    rfl

lemma shaped_create {now : TimePoint} (h : create config now = some s) : Shaped config s := by
  have hcell := endpointAt_create h
  refine ⟨(hcell 0 0).1, fun r e a ha => ?_, fun r e hsome => ?_⟩
  · exfalso
    rw [slotAt, (hcell r e).2] at ha
    obtain ⟨st, hst, hslot⟩ := bind_eq_some_iff.mp ha
    obtain ⟨rc, -, hbody⟩ := bind_eq_some_iff.mp hst
    obtain ⟨-, -, hfresh⟩ := bind_eq_some_iff.mp hbody
    rw [freshEndpoint] at hfresh
    split at hfresh
    · cases hfresh
      cases hslot
    · obtain ⟨b, -, rfl⟩ := map_eq_some_iff.mp hfresh
      cases hslot
  rw [(hcell r e).2] at hsome
  cases hroute : config.routes[r]? with
  | none =>
    rw [hroute] at hsome
    cases hsome
  | some rc => rfl

lemma matches_create {now : TimePoint} (h : create config now = some s)
    {v : EndpointView} (hv : s.viewAt r e = some v) : v.Matches := by
  intro b hb
  rw [← breakerAt_of_viewAt hv] at hb
  obtain ⟨hclosed, -, hnext, -⟩ := breakerAt_create h hb
  refine ⟨?_, fun hstate => ?_⟩
  · rw [hnext]
    decide
  · rw [hclosed] at hstate
    cases hstate

/-- **Published decisions are self-consistent**, after any operations on a fresh coordinator. A
half-open breaker has the slot object of its cycle, only probes of that cycle are pending, and
the decision carries that object and what it says. And what is decided about an endpoint depends
only on the operations addressed to it. -/
theorem decisions_consistent {now : TimePoint} (hcreate : create config now = some s)
    {ops : List CoordinatorOp} (ht : ops.foldl apply s = t) :
    (∀ r e b, t.breakerAt r e = some b → b.state = .halfOpen →
      ∃ address object decision, t.slotAt r e = some address ∧ t.slots[address]? = some object ∧
        object.generation = b.generation ∧ object.quota = b.config.halfOpenProbes ∧
        (∀ id ∈ b.pendingProbes, ProbeInterval object.probeBase object.quota id ∧
          (object.probeBase + object.quota ≤ 2 ^ 64 →
            object.probeBase ≤ id ∧ id < object.probeBase + object.quota)) ∧
        t.decisionAt r e = some decision ∧ decision.breakerState = .halfOpen ∧
        decision.generation = b.generation ∧ decision.probeBase = object.probeBase ∧
        decision.probeQuota = object.quota ∧ decision.probeSlots = some address) ∧
    ∀ r e (ops' : List CoordinatorOp), ops'.filterMap (CoordinatorOp.addressed config r e) =
        ops.filterMap (CoordinatorOp.addressed config r e) →
      (ops'.foldl apply s).viewAt r e = t.viewAt r e ∧
        ((ops'.foldl apply s).decisionAt r e).map EndpointDecision.anonymous =
          (t.decisionAt r e).map EndpointDecision.anonymous := by
  have hshaped := shaped_create hcreate
  obtain ⟨hshapedT, hviews⟩ := viewAt_foldl hshaped ops
  rw [ht] at hshapedT hviews
  refine ⟨fun r e b hb hstate => ?_, fun r e ops' hsame => ?_⟩
  · obtain ⟨st, hst, hbreaker⟩ := bind_eq_some_iff.mp hb
    have hview := hviews r e
    rw [viewAt, hst, map_some] at hview
    obtain ⟨v, hv, hvt⟩ := map_eq_some_iff.mp hview.symm
    have hmatches : (st.view t.slots).Matches := by
      rw [← hvt]
      exact List.foldlRecOn ops _ (matches_create hcreate hv) fun u hu op _ =>
        hu.apply config r e op
    obtain ⟨-, hcycle⟩ := hmatches b hbreaker
    obtain ⟨c, hc, hgen, hquota, hpending⟩ := hcycle hstate
    obtain ⟨object, hobject, rfl⟩ := map_eq_some_iff.mp hc
    obtain ⟨address, haddress, hslot⟩ := bind_eq_some_iff.mp hobject
    refine ⟨address, object, decisionOf t st, ?_, hslot, hgen, hquota, fun id hid =>
      ⟨hpending id hid, fun hwrap => ?_⟩, ?_, ?_⟩
    · rw [slotAt, hst, bind_some, haddress]
    · obtain ⟨k, hk, rfl⟩ := hpending id hid
      change k < object.quota at hk
      have hplain : (object.cycle.probeBase + k) % 2 ^ 64 = object.probeBase + k :=
        Nat.mod_eq_of_lt (by change object.probeBase + k < _; omega)
      omega
    · rw [decisionAt_eq, hst]
      rfl
    · rw [decisionOf, hbreaker, haddress]
      simp [hslot, hstate]
  have hview : (ops'.foldl apply s).viewAt r e = t.viewAt r e := by
    rw [(viewAt_foldl hshaped ops').2, hviews]
    refine congrArg (Option.map · (s.viewAt r e)) (funext fun v => ?_)
    rw [EndpointView.foldl_addressed, hsame, ← EndpointView.foldl_addressed]
  refine ⟨hview, ?_⟩
  rw [decisionAt_anonymous (viewAt_foldl hshaped ops').1, decisionAt_anonymous hshapedT, hview]

/-- One endpoint, whose breaker opens with the first failure and is half-open with two probes. -/
def twoProbesConfig : Config where
  routes := [{
    name := "r", host := "h", pathPrefix := "/"
    endpoints := [Config.localEndpoint]
    circuitBreaker := some ⟨10, 1, 500, 1, 2⟩ }]

/-- A failure opens the breaker, and a second later a cycle begins. -/
theorem decisions_consistent_armed : ∃ s t b, create twoProbesConfig 0 = some s ∧
      [CoordinatorOp.recordResult ⟨0, 0, ⟨false, 1, 0⟩, false⟩ 0,
        .armHalfOpen 0 0 1000000000].foldl apply s = t ∧
      t.breakerAt 0 0 = some b ∧ b.state = .halfOpen ∧ ∃ decision,
        t.decisionAt 0 0 = some decision ∧ decision.generation = b.generation ∧
          decision.probeQuota = b.config.halfOpenProbes := by
  obtain ⟨s, hs⟩ : ∃ s, create twoProbesConfig 0 = some s := ⟨_, rfl⟩
  obtain ⟨t, ht⟩ : ∃ t, [CoordinatorOp.recordResult ⟨0, 0, ⟨false, 1, 0⟩, false⟩ 0,
      .armHalfOpen 0 0 1000000000].foldl apply s = t := ⟨_, rfl⟩
  have hhalf : ∃ b, t.breakerAt 0 0 = some b ∧ b.state = .halfOpen := by
    cases hs
    cases ht
    exact ⟨_, rfl, rfl⟩
  obtain ⟨b, hb, hstate⟩ := hhalf
  obtain ⟨address, object, decision, -, -, -, hquota, -, hdecision, -, hgen, -, hprobes, -⟩ :=
    (decisions_consistent hs ht).1 0 0 b hb hstate
  exact ⟨s, t, b, hs, ht, hb, hstate, decision, hdecision, hgen, hprobes.trans hquota⟩

end CoordinatorState
end AegisGate.Health
