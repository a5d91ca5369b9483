import AegisGate.Lib.Ring

/-!
# The timer queue

`TimerQueue` keeps two maps: `timers`, ordered by deadline and then identifier, and
`byIdentifier`, which finds a timer's key from the identifier a caller holds. The
clock is an argument: `ScheduleAfter` receives the reading it takes, and one round
of the loop in `HandleReadable` receives the reading taken before the loop.

A callback is a value of an arbitrary type here. `popDue` hands it to the caller,
who runs it; a callback may schedule and cancel timers, which is why the loop is
taken one round at a time.

Instants are nanoseconds of the steady clock, as integers.
-/

namespace AegisGate.Net
open Lib List Prod

/-- A point of the steady clock, in nanoseconds. -/
abbrev Instant := ℤ

/-- The key of a timer: its deadline, then its identifier. -/
abbrev TimerKey := Instant × ℕ

/-- The order of `std::pair`. -/
def TimerKey.lt (a b : TimerKey) : Bool := a.1 < b.1 || (a.1 == b.1 && a.2 < b.2)

/-- The queue; `nextIdentifier` is a 64-bit counter that is `0` once exhausted. -/
structure TimerQueue (κ : Type) where
  timers : List (TimerKey × κ) := []
  byIdentifier : List (ℕ × TimerKey) := []
  nextIdentifier : ℕ := 1

namespace TimerQueue
variable {κ : Type}

/-- A timer takes its place in the order. -/
def emplace (key : TimerKey) (callback : κ) : List (TimerKey × κ) → List (TimerKey × κ)
  | [] => [(key, callback)]
  | t :: rest =>
    if TimerKey.lt key t.1 then (key, callback) :: t :: rest else t :: emplace key callback rest

/-- `ScheduleAt`; `none` is `std::overflow_error`. -/
def scheduleAt (q : TimerQueue κ) (deadline : Instant) (callback : κ) : Option (TimerQueue κ × ℕ) :=
  if q.nextIdentifier = 0 then none
  else
    let identifier := q.nextIdentifier
    some ({ timers := emplace (deadline, identifier) callback q.timers
            byIdentifier := (identifier, (deadline, identifier)) :: q.byIdentifier
            nextIdentifier := incW 64 identifier }, identifier)

/-- `ScheduleAfter` with its clock reading; `none` is an exception. -/
def scheduleAfter (q : TimerQueue κ) (now : Instant) (delay : ℤ) (callback : κ) :
    Option (TimerQueue κ × ℕ) :=
  if delay < 0 then none else q.scheduleAt (now + delay) callback

def cancel (q : TimerQueue κ) (identifier : ℕ) : TimerQueue κ × Bool :=
  match q.byIdentifier.lookup identifier with
  | none => (q, false)
  | some key =>
    ({ q with
        timers := q.timers.filter fun t => t.1 != key
        byIdentifier := q.byIdentifier.filter fun i => i.1 != identifier }, true)

/-- One round of the loop in `HandleReadable`: detach the first timer if it is due at
the reading the loop was started with. -/
def popDue (q : TimerQueue κ) (now : Instant) : Option (κ × ℕ × TimerQueue κ) :=
  match q.timers with
  | [] => none
  | (key, callback) :: rest =>
    if key.1 ≤ now then
      some (callback, key.2, { q with
        timers := rest, byIdentifier := q.byIdentifier.filter fun i => i.1 != key.2 })
    else none

/-- A timer with this identifier and callback is scheduled. -/
def Pending (q : TimerQueue κ) (identifier : ℕ) (callback : κ) : Prop :=
  ∃ deadline, ((deadline, identifier), callback) ∈ q.timers

/-- The timers and the index agree. -/
structure Wf (q : TimerQueue κ) : Prop where
  /-- Every timer is found under its identifier, and nothing else is. -/
  indexed : ∀ identifier key, (identifier, key) ∈ q.byIdentifier ↔
    key.2 = identifier ∧ ∃ callback, (key, callback) ∈ q.timers
  /-- No two timers share an identifier. -/
  nodup : (q.timers.map fun t => t.1.2).Nodup
  /-- Identifiers in use are nonzero and were issued already. -/
  issued : ∀ t ∈ q.timers, 0 < t.1.2 ∧ (t.1.2 < q.nextIdentifier ∨ q.nextIdentifier = 0)
  /-- The counter has 64 bits. -/
  bounded : q.nextIdentifier < 2 ^ 64

/-! ## What the operations do to the scheduled timers -/

variable {callback : κ} {identifier : ℕ}

lemma mem_emplace {key : TimerKey} {timers : List (TimerKey × κ)} {t : TimerKey × κ} :
    t ∈ emplace key callback timers ↔ t = (key, callback) ∨ t ∈ timers := by
  induction timers with
  | nil => simp [emplace]
  | cons u rest ih =>
    unfold emplace
    split
    · simp
    · simp only [mem_cons, ih]
      exact or_left_comm

lemma emplace_perm (key : TimerKey) (callback : κ) (timers : List (TimerKey × κ)) :
    (emplace key callback timers).Perm ((key, callback) :: timers) := by
  induction timers with
  | nil => exact List.Perm.refl _
  | cons u rest ih =>
    unfold emplace
    split
    · exact List.Perm.refl _
    · exact (ih.cons u).trans (List.Perm.swap _ _ _)

lemma wf_empty : Wf ({} : TimerQueue κ) := by
  refine ⟨?_, by simp, by simp, by norm_num⟩
  intro identifier key
  simp

variable {q q' : TimerQueue κ}

lemma Wf.unique (h : Wf q) {t u : TimerKey × κ} (ht : t ∈ q.timers) (hu : u ∈ q.timers)
    (heq : t.1.2 = u.1.2) : t = u :=
  inj_on_of_nodup_map h.nodup ht hu heq

lemma Wf.pending_unique (h : Wf q) {a b : κ} (ha : q.Pending identifier a)
    (hb : q.Pending identifier b) : a = b := by
  obtain ⟨d, hd⟩ := ha
  obtain ⟨e, he⟩ := hb
  exact congrArg snd (h.unique hd he rfl)

lemma Wf.pending_pos (h : Wf q) {a : κ} (ha : q.Pending identifier a) : 0 < identifier := by
  obtain ⟨d, hd⟩ := ha
  exact (h.issued _ hd).1

/-- What a successful `ScheduleAt` does. -/
lemma scheduleAt_some {deadline : Instant}
    (h : q.scheduleAt deadline callback = some (q', identifier)) :
    identifier = q.nextIdentifier ∧ 0 < identifier ∧
      q' = { timers := emplace (deadline, identifier) callback q.timers
             byIdentifier := (identifier, (deadline, identifier)) :: q.byIdentifier
             nextIdentifier := incW 64 identifier } := by
  obtain ⟨hne, ⟨⟩⟩ := Option.ite_none_left_eq_some.mp h
  exact ⟨rfl, Nat.pos_of_ne_zero hne, rfl⟩

lemma pending_scheduleAt {deadline : Instant}
    (h : q.scheduleAt deadline callback = some (q', identifier)) {k : ℕ} {c : κ} :
    q'.Pending k c ↔ (k = identifier ∧ c = callback) ∨ q.Pending k c := by
  obtain ⟨-, -, rfl⟩ := scheduleAt_some h
  constructor
  · rintro ⟨d, hd⟩
    rcases mem_emplace.mp hd with heq | hmem
    · simp only [Prod.mk.injEq] at heq
      exact .inl ⟨heq.1.2, heq.2⟩
    · exact .inr ⟨d, hmem⟩
  · rintro (⟨rfl, rfl⟩ | ⟨d, hd⟩)
    · exact ⟨deadline, mem_emplace.mpr (.inl rfl)⟩
    · exact ⟨d, mem_emplace.mpr (.inr hd)⟩

lemma Wf.scheduleAt (hq : Wf q) {deadline : Instant}
    (h : q.scheduleAt deadline callback = some (q', identifier)) : Wf q' := by
  obtain ⟨hid, hpos, rfl⟩ := scheduleAt_some h
  have hfresh : ∀ t ∈ q.timers, t.1.2 < identifier := by
    intro t ht
    rcases (hq.issued t ht).2 with hlt | hz <;> omega
  have hnext : ∀ n ≤ identifier, n < incW 64 identifier ∨ incW 64 identifier = 0 := by
    intro n hn
    have := hq.bounded
    simp only [incW]
    by_cases hlast : identifier + 1 = 2 ^ 64
    · exact .inr (by rw [hlast, Nat.mod_self])
    · exact .inl (by rw [Nat.mod_eq_of_lt (by omega)]; omega)
  refine ⟨?_, ?_, ?_, Nat.mod_lt _ (by decide)⟩
  · intro i key
    simp only [mem_cons, Prod.mk.injEq, mem_emplace]
    rw [hq.indexed]
    constructor
    · rintro (⟨rfl, rfl⟩ | ⟨hk, c, hc⟩)
      · exact ⟨rfl, callback, .inl ⟨rfl, rfl⟩⟩
      · exact ⟨hk, c, .inr hc⟩
    · rintro ⟨rfl, c, ⟨rfl, rfl⟩ | hc⟩
      · exact .inl ⟨rfl, rfl⟩
      · exact .inr ⟨rfl, c, hc⟩
  · rw [((emplace_perm _ _ _).map _).nodup_iff, map_cons, nodup_cons]
    refine ⟨?_, hq.nodup⟩
    intro hmem
    obtain ⟨t, ht, heq⟩ := mem_map.mp hmem
    exact Nat.ne_of_lt (hfresh t ht) heq
  · intro t ht
    rcases mem_emplace.mp ht with rfl | ht
    · exact ⟨hpos, hnext _ (Nat.le_refl _)⟩
    · exact ⟨(hq.issued t ht).1, hnext _ (hfresh t ht).le⟩

lemma Wf.detach (hq : Wf q) {timers : List (TimerKey × κ)} (hsub : timers.Sublist q.timers)
    (hmem : ∀ t, t ∈ timers ↔ t ∈ q.timers ∧ t.1.2 ≠ identifier) :
    Wf { q with
      timers := timers, byIdentifier := q.byIdentifier.filter fun i => i.1 != identifier } := by
  refine ⟨?_, ?_, ?_, hq.bounded⟩
  · intro i key
    simp only [mem_filter, hq.indexed, bne_iff_ne, ne_eq, hmem]
    constructor
    · rintro ⟨⟨rfl, c, hc⟩, hne⟩
      exact ⟨rfl, c, hc, hne⟩
    · rintro ⟨rfl, c, hc, hne⟩
      exact ⟨⟨rfl, c, hc⟩, hne⟩
  · exact hq.nodup.sublist (hsub.map _)
  · intro t ht
    exact hq.issued t ((hmem t).mp ht).1

/-- What `Cancel` leaves scheduled. -/
lemma Wf.mem_cancel (hq : Wf q) (identifier : ℕ) (t : TimerKey × κ) :
    t ∈ (q.cancel identifier).1.timers ↔ t ∈ q.timers ∧ t.1.2 ≠ identifier := by
  unfold TimerQueue.cancel
  cases hl : q.byIdentifier.lookup identifier with
  | none =>
    simp only [lookup_eq_none_iff] at hl
    refine ⟨fun ht => ⟨ht, fun heq => ?_⟩, And.left⟩
    have hin : (identifier, t.1) ∈ q.byIdentifier :=
      (hq.indexed identifier t.1).mpr ⟨heq, t.2, ht⟩
    exact absurd (hl _ hin) (by simp)
  | some key =>
    have hin : (identifier, key) ∈ q.byIdentifier := by
      obtain ⟨l₁, l₂, hl', -⟩ := lookup_eq_some_iff.mp hl
      simp [hl']
    obtain ⟨hkey, c, hc⟩ := (hq.indexed identifier key).mp hin
    simp only [mem_filter, bne_iff_ne, ne_eq]
    refine and_congr_right fun ht => not_congr ⟨fun heq => heq ▸ hkey, fun heq => ?_⟩
    exact congrArg fst (hq.unique ht hc (heq.trans hkey.symm))

lemma Wf.pending_cancel (hq : Wf q) (identifier : ℕ) {k : ℕ} {c : κ} :
    (q.cancel identifier).1.Pending k c ↔ q.Pending k c ∧ k ≠ identifier := by
  constructor
  · rintro ⟨d, hd⟩
    obtain ⟨hmem, hne⟩ := (hq.mem_cancel identifier _).mp hd
    exact ⟨⟨d, hmem⟩, hne⟩
  · rintro ⟨⟨d, hd⟩, hne⟩
    exact ⟨d, (hq.mem_cancel identifier _).mpr ⟨hd, hne⟩⟩

lemma Wf.cancel (hq : Wf q) (identifier : ℕ) : Wf (q.cancel identifier).1 := by
  have hmem := hq.mem_cancel identifier
  unfold TimerQueue.cancel at hmem ⊢
  cases hl : q.byIdentifier.lookup identifier with
  | none => exact hq
  | some key =>
    simp only [hl] at hmem
    exact hq.detach filter_sublist hmem

/-- What one round of `HandleReadable` detaches and leaves. -/
lemma Wf.popDue (hq : Wf q) {now : Instant} (h : q.popDue now = some (callback, identifier, q')) :
    Wf q' ∧ q.Pending identifier callback ∧
      ∀ k c, q'.Pending k c ↔ q.Pending k c ∧ k ≠ identifier := by
  unfold TimerQueue.popDue at h
  split at h
  · cases h
  next key c rest htimers =>
  split at h <;> cases h
  have hnodup := hq.nodup
  rw [htimers, map_cons, nodup_cons] at hnodup
  have hmem : ∀ t, t ∈ rest ↔ t ∈ q.timers ∧ t.1.2 ≠ key.2 := by
    intro t
    rw [htimers, mem_cons]
    constructor
    · intro ht
      refine ⟨.inr ht, fun heq => hnodup.1 ?_⟩
      exact mem_map.mpr ⟨t, ht, heq⟩
    · rintro ⟨rfl | ht, hne⟩
      · exact absurd rfl hne
      · exact ht
  have hsub : rest.Sublist q.timers := htimers ▸ sublist_cons_self _ _
  refine ⟨hq.detach hsub hmem, ⟨key.1, by simp [htimers]⟩, fun k c => ?_⟩
  constructor
  · rintro ⟨d, hd⟩
    obtain ⟨hd, hne⟩ := (hmem _).mp hd
    exact ⟨⟨d, hd⟩, hne⟩
  · rintro ⟨⟨d, hd⟩, hne⟩
    exact ⟨d, (hmem _).mpr ⟨hd, hne⟩⟩

end TimerQueue
end AegisGate.Net
