import AegisGate.Resilience.BreakerMigration

/-!
# Statistics across reloads

Without a reload an outcome stays in the bucket that was active when it was recorded, and that
bucket leaves the window before the outcome is a window old. A reload moves the bucket: it
starts anew at the import, as many whole widths earlier as it was old at the export. What is cut
off its age, and the time between export and import, are lost at every reload.

A `ReloadChain` keeps with each outcome the start of the bucket that holds it now.
-/

namespace AegisGate.Resilience
open Lib CircuitBreaker BreakerHistory List Option

/-- An outcome, with the start of the bucket it is counted in. -/
structure Outcome where
  time : TimePoint
  success : Bool
  start : TimePoint
  deriving DecidableEq

def Bucket.count (bucket : Bucket) (success : Bool) : ℕ :=
  if success then bucket.success else bucket.failure

/-- The breaker of one endpoint over a chain of reloads. -/
structure ReloadChain where
  breaker : CircuitBreaker
  clock : TimePoint
  outcomes : List Outcome := []

namespace ReloadChain

section
variable (s : ReloadChain)

/-- The outcomes after a call: one that counts is added, and closing forgets them all. -/
def outcomesAfter : BreakerCall → List Outcome
  | .record now permit success =>
    if s.breaker.state = .closed then
      if permit.generation = s.breaker.generation ∧ permit.selection = .allowed then
        s.outcomes ++ [⟨now, success, (s.breaker.advanceTo now).activeStart⟩]
      else s.outcomes
    else if (s.breaker.record now permit success).state = .closed then []
    else s.outcomes
  | _ => s.outcomes

/-- The bucket of an outcome is exported. -/
def Travels (e : TimePoint) (o : Outcome) : Prop :=
  ∃ j < kBucketCount, (s.breaker.buckets j).start = o.start ∧ s.breaker.Exported e j

instance (s : ReloadChain) (e : TimePoint) (o : Outcome) : Decidable (s.Travels e o) :=
  inferInstanceAs (Decidable (∃ j < kBucketCount, _ ∧ _))

/-- Where the bucket of the outcome starts after a reload. -/
def arrival (e i : TimePoint) (o : Outcome) : TimePoint :=
  i - ((e - o.start) / s.breaker.bucketDuration).toNat * s.breaker.bucketDuration

/-- A call, or a reload. -/
inductive Event
  | call (c : BreakerCall)
  /-- The breaker is exported and imported by one with the same policy. -/
  | reload (built exported imported : TimePoint)

/-- One step; time does not go back, and only closed breakers are reloaded. -/
def step : Event → Option ReloadChain
  | .call c => if c.time s.clock < s.clock then none else some
      { breaker := s.breaker.call c
        clock := c.time s.clock
        outcomes := s.outcomesAfter c }
  | .reload built e i =>
    if s.breaker.state ≠ .closed ∨ e < s.clock ∨ i < e then none
    else (create s.breaker.config built).map fun t =>
      { breaker := (t.importSnapshot (s.breaker.exportSnapshot e) i).1
        clock := i
        outcomes := (s.outcomes.filter fun o => s.Travels e o).map fun o =>
          { o with start := s.arrival e i o } }

def start (b : CircuitBreaker) : ReloadChain where
  breaker := b
  clock := b.epoch

/-- The outcome is in a bucket that `Aggregate` adds up. -/
def CountsAt (now : TimePoint) (o : Outcome) : Prop :=
  ∃ j < kBucketCount, (s.breaker.buckets j).start = o.start ∧
    now - milliseconds s.breaker.config.window < (s.breaker.buckets j).start

instance (s : ReloadChain) (now : TimePoint) (o : Outcome) : Decidable (s.CountsAt now o) :=
  inferInstanceAs (Decidable (∃ j < kBucketCount, _ ∧ _))

/-- No outcome is counted a window after it was recorded. -/
def AgesOut : Prop :=
  ∀ o ∈ s.outcomes, ∀ now, o.time + milliseconds s.breaker.config.window ≤ now → ¬s.CountsAt now o

/-- The reload puts no outcome into a bucket that starts after it was recorded. -/
def InPlace : Event → Prop
  | .call _ => True
  | .reload _ e i => ∀ o ∈ s.outcomes, s.Travels e o → s.arrival e i o ≤ o.time

end

/-! ## Outcomes and counts -/

/-- No bucket counts more than the outcomes that are in it. -/
def Covered (buckets : ℕ → Bucket) (outcomes : List Outcome) : Prop :=
  ∀ j < kBucketCount, ∀ success, (buckets j).count success ≤
    outcomes.countP fun o => o.success = success ∧ o.start = (buckets j).start

lemma count_of_empty {bucket : Bucket} (h : bucket.success = 0 ∧ bucket.failure = 0)
    (success : Bool) : bucket.count success = 0 := by
  cases success
  · exact h.2
  · exact h.1

variable {b : CircuitBreaker} {i : TimePoint} {e : Event}

lemma Covered.kept {b' : CircuitBreaker} {outcomes : List Outcome}
    (h : Covered b.buckets outcomes) (hkept : b.Kept b') : Covered b'.buckets outcomes := by
  intro j hj success
  rcases hkept j with hsame | hempty
  · rw [hsame]
    exact h j hj success
  · rw [count_of_empty hempty]
    exact Nat.zero_le _

lemma Covered.countOutcome {outcomes : List Outcome} (h : Covered b.buckets outcomes)
    (hactive : (b.buckets b.activeIndex).start = b.activeStart) (now : TimePoint) (success : Bool) :
    Covered (b.countOutcome success).buckets (outcomes ++ [⟨now, success, b.activeStart⟩]) := by
  intro j hj kind
  rw [countP_append, start_countOutcome]
  have hbefore := h j hj kind
  by_cases hcounted : j = b.activeIndex ∧ kind = success
  · obtain ⟨rfl, rfl⟩ := hcounted
    have hself : ((b.countOutcome kind).buckets b.activeIndex).count kind ≤
        (b.buckets b.activeIndex).count kind + 1 := by
      rw [buckets_countOutcome, if_pos rfl]
      cases kind <;> exact Nat.mod_le _ _
    have hnew : [(⟨now, kind, b.activeStart⟩ : Outcome)].countP
        (fun o => o.success = kind ∧ o.start = (b.buckets b.activeIndex).start) = 1 := by
      simp [hactive]
    omega
  have hother : ((b.countOutcome success).buckets j).count kind = (b.buckets j).count kind := by
    rw [buckets_countOutcome]
    split
    · next hj =>
      have hkind : kind ≠ success := fun heq => hcounted ⟨hj, heq⟩
      rw [hj]
      cases kind <;> cases success <;> first | rfl | exact absurd rfl hkind
    · rfl
  omega

/-- The breaker and its outcomes between steps. -/
structure Inv (s : ReloadChain) : Prop where
  laid : s.breaker.Laid s.clock
  covered : Covered s.breaker.buckets s.outcomes

variable {s t : ReloadChain}

/-- Everything a call can do to the window and to the outcomes. -/
inductive Logged (s : ReloadChain) : BreakerCall → CircuitBreaker → List Outcome → Prop
  | fresh {r : CircuitBreaker} (h : r.SameWindow s.breaker) : Logged s .freshCycle r s.outcomes
  | kept {c : BreakerCall} {r : CircuitBreaker}
      (h : r.SameWindow (s.breaker.advanceTo (c.time s.clock))) : Logged s c r s.outcomes
  | counted {now : TimePoint} {permit : RequestPermit} {success : Bool} {r : CircuitBreaker}
      (h : r.SameWindow ((s.breaker.advanceTo now).countOutcome success)) :
      Logged s (.record now permit success) r
        (s.outcomes ++ [⟨now, success, (s.breaker.advanceTo now).activeStart⟩])
  | closed {c : BreakerCall} {r : CircuitBreaker} (hinit : r.initialized = false)
      (hbuckets : r.buckets = fun _ => {}) (hconfig : r.config = s.breaker.config)
      (hepoch : r.epoch = s.breaker.epoch) : Logged s c r []

lemma outcomesAfter_of_not_accepts {now : TimePoint} {permit : RequestPermit} {success : Bool}
    (h : ¬s.breaker.Accepts permit)
    (hrecord : s.breaker.record now permit success = s.breaker.advanceTo now) :
    s.outcomesAfter (.record now permit success) = s.outcomes := by
  rw [outcomesAfter, hrecord, (s.breaker.advanceTo_same now).state]
  split
  · next hclosed =>
    refine if_neg fun hacc => h ⟨hacc.1, ?_⟩
    rw [hclosed]
    exact hacc.2
  · rfl

/-- **The cases of a call.** -/
theorem logged (s : ReloadChain) (c : BreakerCall) :
    Logged s c (s.breaker.call c) (s.outcomesAfter c) := by
  cases c with
  | freshCycle => exact .fresh ⟨rfl, rfl, rfl, rfl, rfl, rfl⟩
  | select now =>
    have hcases := s.breaker.selected now
    have hsame : s.outcomesAfter (.select now) = s.outcomes := rfl
    rw [CircuitBreaker.call, hsame]
    generalize (s.breaker.select now).1 = r, (s.breaker.select now).2 = permit at hcases ⊢
    cases hcases with
    | kept | begun | issued => exact .kept ⟨rfl, rfl, rfl, rfl, rfl, rfl⟩
  | record now permit success =>
    have ha := s.breaker.advanceTo_same now
    have hcases := s.breaker.recorded now permit success
    have hcall : s.breaker.call (.record now permit success) =
      s.breaker.record now permit success := rfl
    rw [hcall]
    generalize hr : s.breaker.record now permit success = r at hcases ⊢
    cases hcases with
    | ignored hno =>
      rw [outcomesAfter_of_not_accepts hno hr]
      exact .kept ⟨rfl, rfl, rfl, rfl, rfl, rfl⟩
    | counted hacc hstate =>
      rw [CircuitBreaker.Accepts, hstate] at hacc
      rw [outcomesAfter, if_pos hstate, if_pos hacc]
      refine .counted ?_
      rw [evaluate]
      split <;> exact ⟨rfl, rfl, rfl, rfl, rfl, rfl⟩
    | succeeded hacc hstate =>
      have hhalf : (s.breaker.withSuccess now permit.probeId).state = .halfOpen :=
        ha.state.trans hstate
      rw [outcomesAfter, hr, hstate, hhalf, if_neg (by simp), if_neg (by simp)]
      exact .kept ⟨rfl, rfl, rfl, rfl, rfl, rfl⟩
    | completed hacc hstate =>
      have hclosed : (s.breaker.withSuccess now permit.probeId).close.state = .closed := rfl
      rw [outcomesAfter, hr, hstate, hclosed, if_neg (by simp), if_pos rfl]
      exact .closed rfl rfl ha.config (s.breaker.epoch_advanceTo now)
    | failed hacc hstate =>
      have hopened : ((s.breaker.withoutProbe now permit.probeId).opens now).state = .opened :=
        rfl
      rw [outcomesAfter, hr, hstate, hopened, if_neg (by simp), if_neg (by simp)]
      exact .kept ⟨rfl, rfl, rfl, rfl, rfl, rfl⟩

lemma Inv.call (h : Inv s) {c : BreakerCall} (htime : s.clock ≤ c.time s.clock) :
    Covered (s.breaker.call c).buckets (s.outcomesAfter c) := by
  have hcases := s.logged c
  generalize s.breaker.call c = r, s.outcomesAfter c = outcomes at hcases ⊢
  cases hcases with
  | fresh hr =>
    rw [hr.buckets]
    exact h.covered
  | kept hr =>
    obtain ⟨-, -, hkept⟩ := h.laid.advanceTo htime
    rw [hr.buckets]
    exact h.covered.kept hkept
  | counted hr =>
    obtain ⟨hlaid, hinit, hkept⟩ := h.laid.advanceTo htime
    rw [hr.buckets]
    exact (h.covered.kept hkept).countOutcome (hlaid.active hinit).2 _ _
  | closed _ hbuckets =>
    intro j _ success
    rw [hbuckets, count_of_empty ⟨rfl, rfl⟩]
    exact Nat.zero_le _

lemma reload_cases {built e : TimePoint} (hstep : s.step (.reload built e i) = some t) :
    s.breaker.state = .closed ∧ s.clock ≤ e ∧ e ≤ i ∧ ∃ d : CircuitBreaker,
      d.config = s.breaker.config ∧
      t = { breaker := (d.importSnapshot (s.breaker.exportSnapshot e) i).1
            clock := i
            outcomes := (s.outcomes.filter fun o => s.Travels e o).map fun o =>
              { o with start := s.arrival e i o } } := by
  rw [step] at hstep
  obtain ⟨hready, hstep⟩ := ite_none_left_eq_some.mp hstep
  rw [not_or, not_or, not_not, not_lt, not_lt] at hready
  obtain ⟨d, hd, rfl⟩ := map_eq_some_iff.mp hstep
  obtain ⟨-, rfl⟩ := create_some hd
  exact ⟨hready.1, hready.2.1, hready.2.2, _, rfl, rfl⟩

lemma Inv.reload (h : Inv s) {d : CircuitBreaker} (hconfig : d.config = s.breaker.config)
    (hclosed : s.breaker.state = .closed) {e : TimePoint} (he : s.clock ≤ e) (i : TimePoint) :
    Covered (d.importSnapshot (s.breaker.exportSnapshot e) i).1.buckets
      ((s.outcomes.filter fun o => s.Travels e o).map fun o =>
        { o with start := s.arrival e i o }) := by
  obtain ⟨harrived, hempty⟩ := h.laid.buckets_transfer hclosed hconfig he (i := i)
  intro k _ success
  by_cases hslot : ∃ j < kBucketCount, s.breaker.Exported e j ∧
      slotOf s.breaker.bucketDuration (s.breaker.snapshotOf e j) = k
  · obtain ⟨j, hj, hexp, rfl⟩ := hslot
    rw [harrived j hj hexp, countP_map, countP_filter]
    refine (h.covered j hj success).trans (countP_mono_left fun o _ ho => ?_)
    obtain ⟨hkind, hstart⟩ := of_decide_eq_true ho
    have htravels : s.Travels e o := ⟨j, hj, hstart.symm, hexp⟩
    have harrival : s.arrival e i o =
        i - s.breaker.steps e j * s.breaker.bucketDuration := by rw [arrival, hstart]; rfl
    simp [htravels, hkind, harrival]
  · rw [hempty k fun j hj hexp heq => hslot ⟨j, hj, hexp, heq⟩, count_of_empty]
    · exact Nat.zero_le _
    · split <;> exact ⟨rfl, rfl⟩

lemma Inv.step (h : Inv s) (hstep : s.step e = some t) : Inv t := by
  cases e with
  | call c =>
    rw [ReloadChain.step] at hstep
    obtain ⟨htime, ⟨⟩⟩ := ite_none_left_eq_some.mp hstep
    exact ⟨h.laid.call (not_lt.mp htime), h.call (not_lt.mp htime)⟩
  | reload built e i =>
    obtain ⟨hclosed, he, -, d, hconfig, rfl⟩ := reload_cases hstep
    exact ⟨(laid_importSnapshot d (s.breaker.exportSnapshot e) i).1, h.reload hconfig hclosed he i⟩

lemma inv_start {config : CircuitBreakerConfig} {now : TimePoint}
    (hb : create config now = some b) : Inv (start b) := by
  refine ⟨laid_create hb, fun j _ success => ?_⟩
  obtain ⟨-, rfl⟩ := create_some hb
  rw [count_of_empty ⟨rfl, rfl⟩]
  exact Nat.zero_le _

/-! ## Totals -/

/-- `Aggregate` adds up no more than the outcomes it counts. -/
lemma Inv.total_le (h : Inv s) (now : TimePoint) (success : Bool) :
    (s.breaker.total now fun succeeded failed => if success then succeeded else failed) ≤
      s.outcomes.countP fun o => o.success = success ∧ s.CountsAt now o := by
  set js := (Finset.range kBucketCount).filter fun j =>
    now - milliseconds s.breaker.config.window < (s.breaker.buckets j).start ∧
      s.breaker.buckets j ≠ {} with hjs
  have hmem : ∀ j ∈ js, j < kBucketCount ∧
      now - milliseconds s.breaker.config.window < (s.breaker.buckets j).start ∧
      s.breaker.buckets j ≠ {} := by
    intro j hj
    obtain ⟨hlt, hcounted⟩ := Finset.mem_filter.mp hj
    exact ⟨Finset.mem_range.mp hlt, hcounted⟩
  have htotal : (s.breaker.total now fun succeeded failed =>
      if success then succeeded else failed) =
      ∑ j ∈ js, (s.breaker.buckets j).count success := by
    rw [hjs, Finset.sum_filter]
    refine Finset.sum_congr rfl fun j _ => ?_
    by_cases hblank : s.breaker.buckets j = {}
    · rw [hblank]
      simp
    · simp only [hblank, ne_eq, not_false_eq_true, and_true]
      rfl
  rw [htotal]
  refine (Finset.sum_le_sum fun j hj => h.covered j (hmem j hj).1 success).trans ?_
  refine sum_countP_le (fun j hj o ho => ?_) fun j hj k hk o hoj hok => ?_
  · obtain ⟨hkind, hstart⟩ := of_decide_eq_true ho
    exact decide_eq_true ⟨hkind, j, (hmem j hj).1, hstart.symm, (hmem j hj).2.1⟩
  · -- No two buckets in use start at one time.
    have heq := (of_decide_eq_true hoj).2.symm.trans (of_decide_eq_true hok).2
    exact h.laid.start_injective (hmem j hj).1 (hmem k hk).1 (hmem j hj).2.2 (hmem k hk).2.2 heq

lemma Inv.aggregate_le (h : Inv s) (now : TimePoint) : (s.breaker.aggregate now).1 ≤
        s.outcomes.countP (fun o => o.success ∧ s.CountsAt now o) ∧
      (s.breaker.aggregate now).2 ≤
        s.outcomes.countP (fun o => o.success = false ∧ s.CountsAt now o) := by
  rw [aggregate_eq]
  exact ⟨h.total_le now true, h.total_le now false⟩

/-! ## Ages -/

/-- Every bucket starts no later than the outcomes in it. -/
def Early (s : ReloadChain) : Prop := ∀ o ∈ s.outcomes, o.start ≤ o.time

lemma Early.agesOut (h : Early s) : AgesOut s := by
  rintro o ho now hold ⟨j, -, hstart, hcounted⟩
  have hearly := h o ho
  rw [hstart] at hcounted
  linarith

lemma mem_outcomesAfter {c : BreakerCall} {o : Outcome} (ho : o ∈ s.outcomesAfter c) :
    o ∈ s.outcomes ∨ o.start = (s.breaker.advanceTo o.time).activeStart ∧
      c.time s.clock = o.time := by
  cases c with
  | select now => exact .inl ho
  | freshCycle => exact .inl ho
  | record now permit success =>
    rw [outcomesAfter] at ho
    split at ho
    · split at ho
      · rcases mem_append.mp ho with ho | ho
        · exact .inl ho
        · rw [mem_singleton.mp ho]
          exact .inr ⟨rfl, rfl⟩
      · exact .inl ho
    · split at ho
      · cases ho
      · exact .inl ho

lemma Early.step (hinv : Inv s) (h : Early s) (hplace : s.InPlace e) (hstep : s.step e = some t) :
    Early t := by
  cases e with
  | call c =>
    rw [ReloadChain.step] at hstep
    obtain ⟨htime, ⟨⟩⟩ := ite_none_left_eq_some.mp hstep
    intro o ho
    rcases mem_outcomesAfter ho with ho | ⟨hstart, hnow⟩
    · exact h o ho
    · rw [hnow, not_lt] at htime
      obtain ⟨hlaid, hinit, -⟩ := hinv.laid.advanceTo htime
      rw [hstart]
      exact (hlaid.active hinit).1
  | reload built e i =>
    obtain ⟨-, -, -, d, -, rfl⟩ := reload_cases hstep
    intro o ho
    obtain ⟨before, hbefore, rfl⟩ := mem_map.mp ho
    obtain ⟨hmem, htravels⟩ := mem_filter.mp hbefore
    exact hplace before hmem (of_decide_eq_true htravels)

lemma Inv.inPlace (hinv : Inv s) (hstep : s.step e = some t) (h : AgesOut t) : s.InPlace e := by
  cases e with
  | call c => trivial
  | reload built e i =>
    obtain ⟨hclosed, he, -, d, hconfig, rfl⟩ := reload_cases hstep
    intro o ho htravels
    by_contra hlate
    obtain ⟨j, hj, hstart, hexp⟩ := htravels
    have harrived := (hinv.laid.buckets_transfer hclosed hconfig he (i := i)).1 j hj hexp
    have harrival : s.arrival e i o = i - s.breaker.steps e j * s.breaker.bucketDuration := by
      rw [arrival, ← hstart]
      rfl
    refine h { o with start := s.arrival e i o } ?_
      (s.arrival e i o - 1 +
        milliseconds (d.importSnapshot (s.breaker.exportSnapshot e) i).1.config.window) ?_
      ⟨slotOf s.breaker.bucketDuration (s.breaker.snapshotOf e j), slotOf_lt _ _, ?_, ?_⟩
    · exact mem_map_of_mem
        (mem_filter.mpr ⟨ho, decide_eq_true ⟨j, hj, hstart, hexp⟩⟩)
    · have hnext : o.time + 1 ≤ s.arrival e i o := not_le.mp hlate
      linarith
    · rw [harrived, harrival]
    · rw [harrived, harrival]
      linarith

/-- **Statistics age out exactly if every reload is in place.** Over any chain of reloads, what
`Aggregate` adds up is covered by the outcomes in the buckets it reads; and no outcome is counted
a window after it was recorded, at any point of the chain, if and only if no reload puts an
outcome into a bucket that starts after it was recorded. -/
theorem agesOut_iff {config : CircuitBreakerConfig} {now : TimePoint} {b : CircuitBreaker}
    (hb : create config now = some b) (es : List Event) :
    (Always ReloadChain.step AgesOut (start b) es ↔ Along ReloadChain.step InPlace (start b) es) ∧
    ∀ s, run ReloadChain.step (start b) es = some s → ∀ now, (s.breaker.aggregate now).1 ≤
        s.outcomes.countP (fun o => o.success ∧ s.CountsAt now o) ∧
      (s.breaker.aggregate now).2 ≤
        s.outcomes.countP (fun o => o.success = false ∧ s.CountsAt now o) := by
  have hinv := inv_start hb
  refine ⟨⟨fun h => ?_, fun h => ?_⟩, fun s hrun now => ?_⟩
  · exact along_of_next (fun u e v (hu : Inv u) hv => hu.step hv)
      (fun u e v (hu : Inv u) hv hages => hu.inPlace hv hages) hinv h
  · have hearly : Always ReloadChain.step (fun u => Inv u ∧ Early u) (start b) es :=
      always_of_along (fun u e v hu hplace hv => ⟨hu.1.step hv, hu.2.step hu.1 hplace hv⟩)
        ⟨hinv, nofun⟩ h
    exact always_mono (fun u hu => hu.2.agesOut) hearly
  · have hs : Inv s := run_invariant (fun u e v (hu : Inv u) hv => hu.step hv) hinv hrun
    exact hs.aggregate_le now

/-- An outcome in the middle of its bucket: a reload may move the bucket by less than that. -/
theorem agesOut_iff_inTheMiddle : ∃ b, create oneProbe 7 = some b ∧
    Always ReloadChain.step AgesOut (start b)
      [.call (.record 150007 ⟨.allowed, 1, 0⟩ true), .reload 0 200020 200030] := by
  obtain ⟨b, hb⟩ : ∃ b, create oneProbe 7 = some b := ⟨_, rfl⟩
  refine ⟨b, hb, (agesOut_iff hb _).1.mpr ?_⟩
  intro s hs
  refine ⟨trivial, fun t _ => ⟨?_, trivial⟩⟩
  cases hb
  cases hs
  unfold InPlace
  decide

/-! ## Reloads that keep an outcome -/

/-- Reloads that follow each other in a nanosecond less than a width of 100 microseconds. -/
def reloadsFrom (i : TimePoint) : ℕ → List Event
  | 0 => []
  | n + 1 => .reload (i + 99999) (i + 99999) (i + 99999) :: reloadsFrom (i + 99999) n

/-- A closed breaker with one success in the active bucket, and nothing else. -/
structure OneSuccess (s : ReloadChain) (i : TimePoint) : Prop where
  laid : s.breaker.Laid i
  config : s.breaker.config = oneProbe
  state : s.breaker.state = .closed
  clock : s.clock = i
  buckets : ∀ j < kBucketCount, s.breaker.buckets j = if j = 0 then ⟨i, 1, 0⟩ else {}

lemma OneSuccess.aggregate (h : OneSuccess s i) : s.breaker.aggregate i = (1, 0) := by
  have htotal : ∀ g : ℕ → ℕ → ℕ, g 0 0 = 0 → s.breaker.total i g = g 1 0 := by
    intro g hg
    rw [total, Finset.sum_eq_single 0]
    · rw [h.buckets 0 (by decide), if_pos rfl, h.config]
      exact if_pos (sub_lt_self i (by decide))
    · intro j hj hne
      rw [h.buckets j (Finset.mem_range.mp hj), if_neg hne]
      simp [hg]
    · exact fun hout => absurd (Finset.mem_range.mpr (by decide)) hout
  rw [aggregate_eq, htotal _ rfl, htotal _ rfl]

lemma OneSuccess.reload (hpos : 0 < i) (h : OneSuccess s i) :
    ∃ t, s.step (.reload (i + 99999) (i + 99999) (i + 99999)) = some t ∧
      OneSuccess t (i + 99999) := by
  have hwidth : s.breaker.bucketDuration = 100000 := by
    rw [bucketDuration, h.config]
    decide
  have hzero := h.buckets 0 (by decide)
  rw [if_pos rfl] at hzero
  have hage : i + 99999 - (s.breaker.buckets 0).start = 99999 := by
    rw [hzero]
    exact add_sub_cancel_left i 99999
  have hexp : s.breaker.Exported (i + 99999) 0 := by
    refine ⟨?_, ?_, ?_⟩
    · rw [hzero]
      exact hpos.ne'
    · rw [← sub_nonneg, hage]
      decide
    · rw [hage, h.config]
      decide
  have hsteps : s.breaker.steps (i + 99999) 0 = 0 := by
    rw [steps, hage, hwidth]
    decide
  have hslot : slotOf s.breaker.bucketDuration
      (s.breaker.snapshotOf (i + 99999) 0) = 0 := by
    have hcells : ((s.breaker.snapshotOf (i + 99999) 0).ageFromExport /
        s.breaker.bucketDuration).toNat = 0 := hsteps
    rw [slotOf, hcells]
    decide
  have hready : ¬(s.breaker.state ≠ .closed ∨ i + 99999 < s.clock ∨ i + 99999 < i + 99999) := by
    rw [h.state, h.clock]
    simp
  obtain ⟨d, hd⟩ : ∃ d, create s.breaker.config (i + 99999) = some d :=
    ⟨_, dif_pos s.breaker.valid⟩
  have hconfig : d.config = s.breaker.config := by
    obtain ⟨-, rfl⟩ := create_some hd
    rfl
  refine ⟨_, by rw [step, if_neg hready, hd]; rfl, ?_⟩
  have hle : i ≤ i + 99999 := by linarith
  obtain ⟨harrived, hempty⟩ := h.laid.buckets_transfer h.state hconfig hle (i := i + 99999)
  refine ⟨(laid_importSnapshot _ _ _).1, ?_, ?_, rfl, fun j hj => ?_⟩
  · rw [(quota_importSnapshot _ _ _).1, hconfig, h.config]
  · exact state_importSnapshot h.state _ _
  split
  · next hj =>
    have hfirst := harrived 0 (by decide) hexp
    rw [hslot, hsteps, hzero] at hfirst
    rw [hj]
    exact hfirst.trans (by simp)
  next hne =>
  rw [hempty j, if_neg hne]
  intro k hk hkexp hkslot
  have hblank := h.buckets k hk
  by_cases hk0 : k = 0
  · rw [hk0, hslot] at hkslot
    exact hne hkslot.symm
  · rw [if_neg hk0] at hblank
    exact hkexp.ne_blank hblank

lemma OneSuccess.reloads (hpos : 0 < i) (h : OneSuccess s i) (n : ℕ) :
    ∃ t, run ReloadChain.step s (reloadsFrom i n) = some t ∧ OneSuccess t (i + n * 99999) := by
  induction n generalizing s i with
  | zero => exact ⟨s, rfl, by simpa using h⟩
  | succ n ih =>
    obtain ⟨u, hu, hone⟩ := h.reload hpos
    obtain ⟨t, ht, hlast⟩ := ih (i := i + 99999) (by linarith) hone
    refine ⟨t, ?_, ?_⟩
    · rw [reloadsFrom, run_cons, hu]
      exact ht
    · have htime : i + (n + 1 : ℕ) * 99999 = i + 99999 + n * 99999 := by
        push_cast
        ring
      rw [htime]
      exact hlast

/-- **An outcome that never ages**: one success, recorded at 7, is still the total after any
number of reloads, long after the window has passed. -/
theorem counted_forever : ∃ b, create oneProbe 7 = some b ∧
    ∀ n : ℕ, ∃ s, run ReloadChain.step (start b)
        (.call (.record 7 ⟨.allowed, 1, 0⟩ true) :: reloadsFrom 7 n) = some s ∧
      s.breaker.aggregate (7 + n * 99999) = (1, 0) ∧
      (11 ≤ n → 7 + milliseconds oneProbe.window ≤ 7 + (n : ℤ) * 99999) := by
  obtain ⟨b, hb⟩ : ∃ b, create oneProbe 7 = some b := ⟨_, rfl⟩
  obtain ⟨s, hs⟩ : ∃ s, (start b).step (.call (.record 7 ⟨.allowed, 1, 0⟩ true)) = some s := by
    cases hb
    exact ⟨_, rfl⟩
  have hone : OneSuccess s 7 := by
    have hlaid := ((inv_start hb).step hs).laid
    cases hb
    cases hs
    exact ⟨hlaid, rfl, rfl, rfl, by decide⟩
  refine ⟨b, hb, fun n => ?_⟩
  obtain ⟨t, ht, hlast⟩ := hone.reloads (by decide) n
  refine ⟨t, ?_, hlast.aggregate, fun hn => ?_⟩
  · rw [run_cons, hs]
    exact ht
  · have hwindow : milliseconds oneProbe.window = 1000000 := by decide
    rw [hwindow]
    omega

end ReloadChain
end AegisGate.Resilience
