import AegisGate.Proxy.Deadlines
import AegisGate.Proxy.Retry

/-!
# Every transaction is bounded by a deadline

A transaction that is not finished has its total deadline in the timer queue, and the queue
holds no other timer of it than the ones it has recorded: those of earlier attempts are
cancelled before the next attempt arms its own, and a terminal handler cancels them all.
-/

namespace AegisGate.Proxy
open Lib Http Net Health TimerQueue Option Deadlines

namespace Deadlines

/-- The identifier was handed out before. -/
def Issued (q : TimerQueue Deadline) (identifier : ℕ) : Prop :=
  identifier < q.nextIdentifier ∨ q.nextIdentifier = 0

/-- The timers of the transaction are among the recorded ones. -/
structure Owned (d : Deadlines) : Prop where
  wf : d.timers.Wf
  hasTimers : d.hasTimers
  gatewayUp : d.gatewayUp
  recorded : ∀ {identifier callback}, d.timers.Pending identifier callback → callback ≠ .other →
    identifier = d.connectTimer ∨ identifier = d.firstByteTimer ∨ identifier = d.totalTimer

structure Armed (d : Deadlines) : Prop where
  wf : d.timers.Wf
  hasTimers : d.hasTimers
  gatewayUp : d.gatewayUp
  issued : Issued d.timers d.connectTimer ∧ Issued d.timers d.firstByteTimer ∧
    Issued d.timers d.totalTimer
  /-- The total deadline is scheduled, and it is none of the other two. -/
  total : d.finished = false → d.timers.Pending d.totalTimer .total ∧
    d.connectTimer ≠ d.totalTimer ∧ d.firstByteTimer ≠ d.totalTimer
  /-- A timer of the transaction is its total deadline or one of the current attempt. -/
  own : ∀ {identifier callback}, d.timers.Pending identifier callback → callback ≠ .other →
    d.finished = false ∧ (callback = .total ∧ identifier = d.totalTimer ∨
      callback = .attempt d.generation ∧
        (identifier = d.connectTimer ∨ identifier = d.firstByteTimer))
  /-- The first-byte deadline is armed once the request is written. -/
  fresh : d.unwritten → ∀ generation,
    ¬ d.timers.Pending d.firstByteTimer (.attempt generation)

variable {d d' : Deadlines}

lemma Armed.owned (h : Armed d) : Owned d where
  wf := h.wf
  hasTimers := h.hasTimers
  gatewayUp := h.gatewayUp
  recorded hpending hother := by
    obtain ⟨_, ⟨_, heq⟩ | ⟨_, heq | heq⟩⟩ := h.own hpending hother
    · exact .inr (.inr heq)
    · exact .inl heq
    · exact .inr (.inl heq)

/-! ## Cancelled timers -/

lemma issued_zero (q : TimerQueue Deadline) : Issued q 0 :=
  (Nat.eq_zero_or_pos q.nextIdentifier).symm

lemma nextIdentifier_cancel (q : TimerQueue Deadline) (identifier : ℕ) :
    (q.cancel identifier).1.nextIdentifier = q.nextIdentifier := by
  rw [cancel]
  split <;> rfl

lemma cancelTimer_spec (h : d.timers.Wf) (identifier : ℕ) : ∃ timers,
    d.cancelTimer identifier = { d with timers } ∧ timers.Wf ∧
      timers.nextIdentifier = d.timers.nextIdentifier ∧
      ∀ k callback, timers.Pending k callback ↔ d.timers.Pending k callback ∧ k ≠ identifier := by
  rw [cancelTimer]
  split
  next hzero =>
    refine ⟨d.timers, rfl, h, rfl, fun k callback => ⟨fun hk => ⟨hk, ?_⟩, And.left⟩⟩
    rw [hzero]
    exact (h.pending_pos hk).ne'
  · exact ⟨_, rfl, h.cancel identifier, nextIdentifier_cancel d.timers identifier,
      fun k callback => h.pending_cancel identifier⟩

lemma Owned.cancelAttemptDeadlines_spec (h : Owned d) : ∃ timers,
    d.cancelAttemptDeadlines = { d with timers, connectTimer := 0, firstByteTimer := 0 } ∧
      timers.Wf ∧ timers.nextIdentifier = d.timers.nextIdentifier ∧
      ∀ k callback, timers.Pending k callback ↔
        d.timers.Pending k callback ∧ k ≠ d.connectTimer ∧ k ≠ d.firstByteTimer := by
  obtain ⟨t₁, h₁, hwf₁, hnext₁, hpending₁⟩ := cancelTimer_spec h.wf d.connectTimer
  obtain ⟨t₂, h₂, hwf₂, hnext₂, hpending₂⟩ :=
    cancelTimer_spec (d := { d with timers := t₁ }) hwf₁ d.firstByteTimer
  refine ⟨t₂, ?_, hwf₂, hnext₂.trans hnext₁, fun k callback => ?_⟩
  · rw [cancelAttemptDeadlines, if_neg (by simp [h.gatewayUp, h.hasTimers]), h₁, h₂]
  · rw [hpending₂, hpending₁, and_assoc]

lemma Owned.cancelDeadlines_spec (h : Owned d) : ∃ timers, d.cancelDeadlines =
      { d with timers, connectTimer := 0, firstByteTimer := 0, totalTimer := 0 } ∧
      timers.Wf ∧ ∀ k callback, callback ≠ .other → ¬ timers.Pending k callback := by
  obtain ⟨t₁, h₁, hwf₁, _, hpending₁⟩ := h.cancelAttemptDeadlines_spec
  obtain ⟨t₂, h₂, hwf₂, _, hpending₂⟩ := cancelTimer_spec
    (d := { d with timers := t₁, connectTimer := 0, firstByteTimer := 0 }) hwf₁ d.totalTimer
  refine ⟨t₂, ?_, hwf₂, fun k callback hother hk => ?_⟩
  · rw [cancelDeadlines, if_neg (by simp [h.gatewayUp, h.hasTimers]), h₁, h₂]
  obtain ⟨hk, htotal⟩ := (hpending₂ k callback).mp hk
  obtain ⟨hk, hconnect, hfirst⟩ := (hpending₁ k callback).mp hk
  rcases h.recorded hk hother with heq | heq | heq
  · exact hconnect heq
  · exact hfirst heq
  · exact htotal heq

/-- **A terminal handler disarms everything.** -/
theorem Owned.conclude (h : Owned d) (hfin : d.finished = false) (n : ℕ) :
    Armed (d.conclude n) := by
  have hend : Owned (d.end_ n) := { h with }
  obtain ⟨timers, heq, hwf, hnone⟩ := hend.cancelDeadlines_spec
  rw [Deadlines.conclude, if_neg (by simp [hfin]), heq]
  exact { h with
    wf := hwf
    issued := ⟨issued_zero timers, issued_zero timers, issued_zero timers⟩
    total := by rintro ⟨⟩
    own := fun hk hother => absurd hk (hnone _ _ hother)
    fresh := fun _ generation => hnone _ _ (by simp) }

lemma Armed.fades (h : Armed d) (hd : d.Fades d') : Armed d' := by
  obtain ⟨u, hu, rfl⟩ := hd
  exact { h with fresh := fun hfresh => h.fresh (hu hfresh) }

lemma Armed.settles (h : Armed d) (hd : d.Settles d') : Armed d' := by
  rcases hd with hd | ⟨hfin, n, hd⟩
  · exact h.fades hd
  · exact (h.owned.conclude hfin n).fades hd

/-! ## Armed timers -/

variable {instant : Instant} {callback : Deadline} {identifier : ℕ}

lemma issued_of_le {q q' : TimerQueue Deadline} {k : ℕ} (hwf : q.Wf)
    (hq : q.scheduleAt instant callback = some (q', identifier)) (hle : k ≤ identifier) :
    Issued q' k := by
  obtain ⟨hid, hpos, rfl⟩ := scheduleAt_some hq
  have hbound := hwf.bounded
  simp only [Issued, incW]
  by_cases hlast : identifier + 1 = 2 ^ 64
  · exact .inr (by rw [hlast, Nat.mod_self])
  · exact .inl (by rw [Nat.mod_eq_of_lt (by omega)]; omega)

lemma Issued.schedule {q q' : TimerQueue Deadline} {k : ℕ} (hwf : q.Wf) (h : Issued q k)
    (hq : q.scheduleAt instant callback = some (q', identifier)) :
    Issued q' k ∧ k ≠ identifier := by
  obtain ⟨hid, hpos, _⟩ := scheduleAt_some hq
  have hlt : k < identifier := by
    rcases h with h | h <;> omega
  exact ⟨issued_of_le hwf hq hlt.le, hlt.ne⟩

section
variable (h : Armed d)
include h

/-- The queue changes, but no deadline of the transaction is added, nor the total one lost. -/
lemma Armed.timers {timers : TimerQueue Deadline} (hwf : timers.Wf)
    (hissued : ∀ {k}, Issued d.timers k → Issued timers k)
    (hpending : ∀ {k callback}, timers.Pending k callback → callback ≠ .other →
      d.timers.Pending k callback)
    (htotal : d.finished = false → timers.Pending d.totalTimer .total) : Armed { d with timers } :=
  { h with
    wf := hwf
    issued := ⟨hissued h.issued.1, hissued h.issued.2.1, hissued h.issued.2.2⟩
    total := fun hfin => ⟨htotal hfin, (h.total hfin).2⟩
    own := fun hk hother => h.own (hpending hk hother) hother
    fresh := fun hfresh generation hk => h.fresh hfresh generation (hpending hk nofun) }

lemma Armed.cancelTimer (hne : d.finished = false → identifier ≠ d.totalTimer) :
    Armed (d.cancelTimer identifier) := by
  obtain ⟨timers, heq, hwf, hnext, hpending⟩ := cancelTimer_spec h.wf identifier
  rw [heq]
  refine h.timers hwf (fun hk => ?_) (fun hk _ => ((hpending _ _).mp hk).1) fun hfin =>
    (hpending _ _).mpr ⟨(h.total hfin).1, (hne hfin).symm⟩
  rw [Issued, hnext]
  exact hk

lemma Armed.dropConnect
    (hgone : ∀ generation, ¬ d.timers.Pending d.connectTimer (.attempt generation)) :
    Armed { d with connectTimer := 0 } := by
  refine { h with
    issued := ⟨issued_zero _, h.issued.2⟩
    total := fun hfin => ?_
    own := fun hk hother => ?_ }
  · obtain ⟨htotal, _, hfirst⟩ := h.total hfin
    exact ⟨htotal, (h.wf.pending_pos htotal).ne, hfirst⟩
  · obtain ⟨hfin, hown | ⟨hcallback, heq | heq⟩⟩ := h.own hk hother
    · exact ⟨hfin, .inl hown⟩
    · subst hcallback heq
      exact absurd hk (hgone _)
    · exact ⟨hfin, .inr ⟨hcallback, .inr heq⟩⟩

lemma Armed.dropFirstByte
    (hgone : ∀ generation, ¬ d.timers.Pending d.firstByteTimer (.attempt generation)) :
    Armed { d with firstByteTimer := 0 } := by
  refine { h with
    issued := ⟨h.issued.1, issued_zero _, h.issued.2.2⟩
    total := fun hfin => ?_
    own := fun hk hother => ?_
    fresh := fun _ generation hk => absurd (h.wf.pending_pos hk) (lt_irrefl 0) }
  · obtain ⟨htotal, hconnect, _⟩ := h.total hfin
    exact ⟨htotal, hconnect, (h.wf.pending_pos htotal).ne⟩
  · obtain ⟨hfin, hown | ⟨hcallback, heq | heq⟩⟩ := h.own hk hother
    · exact ⟨hfin, .inl hown⟩
    · exact ⟨hfin, .inr ⟨hcallback, .inl heq⟩⟩
    · subst hcallback heq
      exact absurd hk (hgone _)

lemma Armed.armConnectDeadline (hfin : d.finished = false)
    (harm : d.armConnectDeadline instant = some d') :
    Armed d' ∧ d'.firstByteTimer = d.firstByteTimer := by
  rw [Deadlines.armConnectDeadline, if_neg (by simp [h.hasTimers])] at harm
  obtain ⟨⟨timers, identifier⟩, hschedule, rfl⟩ := map_eq_some_iff.mp harm
  obtain ⟨t₁, h₁, hwf₁, hnext₁, hpending₁⟩ := cancelTimer_spec h.wf d.connectTimer
  rw [h₁] at hschedule
  have hpending : ∀ k callback, timers.Pending k callback ↔
      (k = identifier ∧ callback = .attempt d.generation) ∨
        d.timers.Pending k callback ∧ k ≠ d.connectTimer := fun k callback => by
    rw [pending_scheduleAt hschedule, hpending₁]
  have hissued : ∀ {k}, Issued d.timers k → Issued timers k ∧ k ≠ identifier := fun hk =>
    Issued.schedule hwf₁ (by rw [Issued, hnext₁]; exact hk) hschedule
  obtain ⟨htotal, hconnect, hfirst⟩ := h.total hfin
  refine ⟨⟨hwf₁.scheduleAt hschedule, h.hasTimers, h.gatewayUp,
    ⟨issued_of_le hwf₁ hschedule le_rfl, (hissued h.issued.2.1).1, (hissued h.issued.2.2).1⟩,
    fun _ => ⟨?_, (hissued h.issued.2.2).2.symm, hfirst⟩, fun hk hother => ⟨hfin, ?_⟩,
    fun hfresh generation hk => ?_⟩, rfl⟩
  · exact (hpending _ _).mpr (.inr ⟨htotal, hconnect.symm⟩)
  · rcases (hpending _ _).mp hk with ⟨heq, hcallback⟩ | ⟨hk, hne⟩
    · exact .inr ⟨hcallback, .inl heq⟩
    · obtain ⟨_, hown | ⟨hcallback, heq | heq⟩⟩ := h.own hk hother
      · exact .inl hown
      · exact absurd heq hne
      · exact .inr ⟨hcallback, .inr heq⟩
  · rcases (hpending _ _).mp hk with ⟨heq, _⟩ | ⟨hk, _⟩
    · exact (hissued h.issued.2.1).2 heq
    · exact h.fresh hfresh generation hk

lemma Armed.armFirstByteDeadline (hfin : d.finished = false) (hwritten : d.unwritten = false)
    (hgone : ∀ generation, ¬ d.timers.Pending d.firstByteTimer (.attempt generation))
    (harm : d.armFirstByteDeadline instant = some d') : Armed d' := by
  rw [Deadlines.armFirstByteDeadline, if_neg (by simp [h.hasTimers])] at harm
  obtain ⟨⟨timers, identifier⟩, hschedule, rfl⟩ := map_eq_some_iff.mp harm
  have hissued : ∀ {k}, Issued d.timers k → Issued timers k ∧ k ≠ identifier := fun hk =>
    Issued.schedule h.wf hk hschedule
  obtain ⟨htotal, hconnect, _⟩ := h.total hfin
  refine ⟨h.wf.scheduleAt hschedule, h.hasTimers, h.gatewayUp,
    ⟨(hissued h.issued.1).1, issued_of_le h.wf hschedule le_rfl, (hissued h.issued.2.2).1⟩,
    fun _ => ⟨?_, hconnect, (hissued h.issued.2.2).2.symm⟩, fun hk hother => ⟨hfin, ?_⟩,
    fun hfresh => by simp [hwritten] at hfresh⟩
  · exact (pending_scheduleAt hschedule).mpr (.inr htotal)
  rcases (pending_scheduleAt hschedule).mp hk with ⟨heq, hcallback⟩ | hk
  · exact .inr ⟨hcallback, .inr heq⟩
  · obtain ⟨_, hown | ⟨hcallback, heq | heq⟩⟩ := h.own hk hother
    · exact .inl hown
    · exact .inr ⟨hcallback, .inl heq⟩
    · subst hcallback heq
      exact absurd hk (hgone _)

/-! ## Events -/

lemma Armed.report {p : UpstreamProgress} (hreport : d.report p instant = some d') :
    Armed d' := by
  obtain ⟨hguard, hreport⟩ := Option.ite_none_left_eq_some.mp hreport
  have hadvance : Armed (d.advance p) := by
    rw [advance]
    split
    · exact h.fades ⟨false, by simp, rfl⟩
    · exact h
  have hgone : p = .requestWritten → ∀ generation,
      ¬ (d.advance p).timers.Pending (d.advance p).firstByteTimer (.attempt generation) := by
    rintro rfl
    have hunwritten : d.unwritten := by simpa using hguard
    exact h.fresh hunwritten
  have hwritten : p = .requestWritten → (d.advance p).unwritten = false := by
    rintro rfl
    rfl
  generalize d.advance p = c at hreport hadvance hgone hwritten
  unfold handleProgress at hreport
  by_cases hskip : (c.finished || !c.gatewayUp)
  · rw [if_pos hskip] at hreport
    cases hreport
    exact hadvance
  rw [if_neg hskip] at hreport
  have hfin : c.finished = false := by
    simp only [Bool.or_eq_true, not_or, Bool.not_eq_true] at hskip
    exact hskip.1
  obtain ⟨_, hconnect, hfirst⟩ := hadvance.total hfin
  cases p with
  | connected =>
    cases hreport
    rw [if_pos hadvance.hasTimers]
    obtain ⟨timers, heq, _, _, hpending⟩ := cancelTimer_spec hadvance.wf c.connectTimer
    have hcancel := hadvance.cancelTimer fun _ => hconnect
    rw [heq] at hcancel ⊢
    exact hcancel.dropConnect fun generation hk => ((hpending _ _).mp hk).2 rfl
  | requestWritten => exact hadvance.armFirstByteDeadline hfin (hwritten rfl) (hgone rfl) hreport
  | firstByte =>
    cases hreport
    rw [if_pos hadvance.hasTimers]
    obtain ⟨timers, heq, _, _, hpending⟩ := cancelTimer_spec hadvance.wf c.firstByteTimer
    have hcancel := hadvance.cancelTimer fun _ => hfirst
    rw [heq] at hcancel ⊢
    exact hcancel.dropFirstByte fun generation hk => ((hpending _ _).mp hk).2 rfl
  | responseHeader =>
    cases hreport
    exact hadvance

lemma Armed.reportProgress {reports : List (UpstreamProgress × Instant)}
    (hreports : d.reportProgress reports = some d') : Armed d' := by
  induction reports generalizing d with
  | nil =>
    cases hreports
    exact h
  | cons head rest ih =>
    obtain ⟨c, hc, hrest⟩ := bind_eq_some_iff.mp hreports
    exact ih (h.report hc) hrest

lemma Armed.beginAttempt (hfin : d.finished = false) :
    Armed d.beginAttempt ∧ d.beginAttempt.firstByteTimer = 0 ∧ d.beginAttempt.finished = false := by
  obtain ⟨timers, heq, hwf, hnext, hpending⟩ := h.owned.cancelAttemptDeadlines_spec
  obtain ⟨htotal, hconnect, hfirst⟩ := h.total hfin
  have hpos := h.wf.pending_pos htotal
  rw [Deadlines.beginAttempt, heq]
  refine ⟨⟨hwf, h.hasTimers, h.gatewayUp, ⟨issued_zero timers, issued_zero timers, ?_⟩,
    fun _ => ⟨?_, hpos.ne, hpos.ne⟩, fun hk hother => ⟨hfin, ?_⟩, fun _ generation hk => ?_⟩,
    rfl, hfin⟩
  · rw [Issued, hnext]
    exact h.issued.2.2
  · exact (hpending _ _).mpr ⟨htotal, hconnect.symm, hfirst.symm⟩
  · obtain ⟨hk, hnc, hnf⟩ := (hpending _ _).mp hk
    obtain ⟨_, hown | ⟨_, heq | heq⟩⟩ := h.own hk hother
    · exact .inl hown
    · exact absurd heq hnc
    · exact absurd heq hnf
  · exact absurd (hwf.pending_pos hk) (lt_irrefl 0)

lemma Armed.openUpstream (hzero : d.firstByteTimer = 0) : Armed d.openUpstream :=
  { h with
    fresh := fun _ _ hk => absurd (h.wf.pending_pos hk) (by simp [Deadlines.openUpstream, hzero]) }

lemma Armed.attempts (hfin : d.finished = false) (hd : d.Attempts d') : Armed d' := by
  obtain ⟨instant, d₁, reports, d₂, _, harm, hreports, hsettles⟩ := hd
  obtain ⟨hbegin, hzero, hfin'⟩ := h.beginAttempt hfin
  obtain ⟨harmed, hsame⟩ := hbegin.armConnectDeadline hfin' harm
  exact ((harmed.openUpstream (hsame.trans hzero)).reportProgress hreports).settles hsettles

lemma Armed.fire {now : Instant} {timers : TimerQueue Deadline}
    (hpop : d.timers.popDue now = some (callback, identifier, timers))
    (hfires : { d with timers }.Fires d' callback) : Armed d' := by
  obtain ⟨hwf, hdue, hpending⟩ := h.wf.popDue hpop
  have hnext : timers.nextIdentifier = d.timers.nextIdentifier := by
    rw [popDue] at hpop
    split at hpop
    · cases hpop
    · split at hpop <;> cases hpop
      rfl
  have howned : Owned { d with timers } := ⟨hwf, h.hasTimers, h.gatewayUp,
    fun hk hother => h.owned.recorded ((hpending _ _).mp hk).1 hother⟩
  cases callback with
  | attempt generation =>
    obtain ⟨hfin, ⟨hcallback, _⟩ | ⟨hcallback, _⟩⟩ := h.own hdue (by simp)
    · cases hcallback
    · cases hcallback
      rw [Fires, if_neg (by simp [hfin])] at hfires
      exact (howned.conclude hfin 1).fades hfires
  | total =>
    obtain ⟨hfin, _⟩ := h.own hdue (by simp)
    exact (howned.conclude hfin 1).fades hfires
  | other =>
    cases hfires
    refine h.timers hwf (fun hk => ?_) (fun hk _ => ((hpending _ _).mp hk).1) fun hfin =>
      (hpending _ _).mpr ⟨(h.total hfin).1, fun heq => ?_⟩
    · rw [Issued, hnext]
      exact hk
    · cases h.wf.pending_unique (heq ▸ (h.total hfin).1) hdue

lemma Armed.scheduleOther {timers : TimerQueue Deadline}
    (hschedule : d.timers.scheduleAt instant .other = some (timers, identifier)) :
    Armed { d with timers } := by
  refine h.timers (h.wf.scheduleAt hschedule) (fun hk => (Issued.schedule h.wf hk hschedule).1)
    (fun hk hother => ?_) fun hfin => (pending_scheduleAt hschedule).mpr (.inr (h.total hfin).1)
  exact ((pending_scheduleAt hschedule).mp hk).resolve_left fun heq => hother heq.2

lemma Armed.cancelOther (hpending : d.timers.Pending identifier .other) :
    Armed { d with timers := (d.timers.cancel identifier).1 } := by
  have hcancel : d.cancelTimer identifier =
      { d with timers := (d.timers.cancel identifier).1 } := by
    rw [Deadlines.cancelTimer, if_neg (h.wf.pending_pos hpending).ne']
  rw [← hcancel]
  refine h.cancelTimer fun hfin heq => ?_
  cases h.wf.pending_unique (heq ▸ hpending) (h.total hfin).1

end

lemma Armed.next {e : Exchange.Event} (h : Armed d) (hup : e ≠ .gatewayExpired)
    (hnext : d.Next e d') : Armed d' := by
  cases hnext with
  | settles _ hd => exact h.settles hd
  | progress p now instant hreport => exact h.report hreport
  | fire now answers hpop hfires => exact h.fire hpop hfires
  | scheduleOther deadline hschedule => exact h.scheduleOther hschedule
  | cancelOther identifier hpending => exact h.cancelOther hpending
  | retry launch answers hfin hd => exact h.attempts hfin hd
  | noRetry launch answers hfin _ hd =>
    obtain ⟨hbegin, _, hfin'⟩ := h.beginAttempt hfin
    exact (hbegin.owned.conclude hfin' 1).fades hd
  | gatewayExpired => exact absurd rfl hup

lemma armed_armTotalDeadline (hwf : d.timers.Wf) (hup : d.gatewayUp)
    (htimers : d.hasTimers) (hfin : d.finished = false) (hconnect : d.connectTimer = 0)
    (hfirst : d.firstByteTimer = 0)
    (hothers : ∀ k callback, d.timers.Pending k callback → callback = .other)
    (harm : d.armTotalDeadline instant = some d') : Armed d' ∧ d'.finished = false := by
  rw [armTotalDeadline, if_neg (by simp [htimers])] at harm
  obtain ⟨⟨timers, identifier⟩, hschedule, rfl⟩ := map_eq_some_iff.mp harm
  have hwf' := hwf.scheduleAt hschedule
  have htotal : timers.Pending identifier .total :=
    (pending_scheduleAt hschedule).mpr (.inl ⟨rfl, rfl⟩)
  have hpos := hwf'.pending_pos htotal
  refine ⟨⟨hwf', htimers, hup, ⟨?_, ?_, issued_of_le hwf hschedule le_rfl⟩,
    fun _ => ⟨htotal, ?_, ?_⟩, fun hk hother => ⟨hfin, ?_⟩, fun _ generation hk => ?_⟩, hfin⟩
  · rw [hconnect]
    exact issued_zero timers
  · rw [hfirst]
    exact issued_zero timers
  · rw [hconnect]
    exact hpos.ne
  · rw [hfirst]
    exact hpos.ne
  · rcases (pending_scheduleAt hschedule).mp hk with ⟨heq, hcallback⟩ | hk
    · exact .inl ⟨hcallback, heq⟩
    · exact absurd (hothers _ _ hk) hother
  · rw [hfirst] at hk
    exact absurd (hwf'.pending_pos hk) (lt_irrefl 0)

end Deadlines

namespace Exchange

structure Bounded (x : Exchange) : Prop where
  /-- Until it is finished its total deadline is scheduled. -/
  total : x.tx.finished = false → x.timers.Pending x.tx.totalTimer .total
  /-- A scheduled timer of the transaction is recorded as its total deadline, or as one of the
  current attempt. -/
  recorded : ∀ {identifier callback}, x.timers.Pending identifier callback → callback ≠ .other →
    callback = .total ∧ identifier = x.tx.totalTimer ∨ callback = .attempt x.tx.generation ∧
        (identifier = x.tx.connectTimer ∨ identifier = x.tx.firstByteTimer)
  /-- Once it is finished none of its timers is scheduled. -/
  disarmed : x.tx.finished → ∀ identifier callback,
    x.timers.Pending identifier callback → callback = .other

lemma bounded_of_armed {x : Exchange} (h : x.deadlines.Armed) : Bounded x where
  total hfin := (h.total hfin).1
  recorded hk hother := (h.own hk hother).2
  disarmed hfin identifier callback hk := by
    by_contra hother
    have hunfinished : x.tx.finished = false := (h.own hk hother).1
    rw [hfin] at hunfinished
    cases hunfinished

variable {config : TransactionConfig} {client : ClientConnection} {timers : TimerQueue Deadline}
  {now : Instant} {launch : Launch} {answers : List SendResult} {x : Exchange} {es : List Event}

lemma armed_start (htimers : config.hasTimers) (hwf : timers.Wf)
    (hothers : ∀ identifier callback, timers.Pending identifier callback → callback = .other)
    (hstart : start config client timers true now launch answers = some x) :
    x.deadlines.Armed := by
  obtain ⟨instant, d, harm, hbegin⟩ := deadlines_begin_ answers rfl hstart
  obtain ⟨harmed, hfin⟩ :=
    armed_armTotalDeadline hwf rfl htimers rfl rfl rfl hothers harm
  rcases hbegin with hattempts | hend
  · exact harmed.attempts hfin hattempts
  · obtain ⟨hbegin, _, hfin'⟩ := harmed.beginAttempt hfin
    rw [hend]
    exact hbegin.owned.conclude hfin' 1

/-- **Every unfinished transaction is bounded by a deadline.** In every state of every run of
a transaction with timers, as long as its gateway lives. -/
theorem bounded_of_gatewayUp (htimers : config.hasTimers) (hwf : timers.Wf)
    (hothers : ∀ identifier callback, timers.Pending identifier callback → callback = .other)
    (hstart : start config client timers true now launch answers = some x)
    (hup : ∀ e ∈ es, e ≠ .gatewayExpired) : Always step Bounded x es := by
  have halong : Along step (fun _ e => e ≠ .gatewayExpired) x es := along_of_forall hup x
  have harmed : Always step (fun y => y.deadlines.Armed) x es :=
    always_of_along (fun s e t hs he hst => hs.next he (step_deadlines hst))
      (armed_start htimers hwf hothers hstart) halong
  exact always_mono (fun y hy => bounded_of_armed hy) harmed

/-- A failed attempt, its replacement, and a first-byte deadline that ends the transaction. -/
theorem bounded_retryThenDeadline :
    ∃ x, start getRequest waitingClient {} true 0 { decision := candidate } [] = some x ∧
      Always step Bounded x [.result .connectError [], .runDeferred { decision := candidate } [],
        .progress .connected 5, .progress .requestWritten 6, .fire 5000000006 []] := by
  obtain ⟨x, hx⟩ := exists_start
  exact ⟨x, hx, bounded_of_gatewayUp rfl wf_empty
    (fun _ _ hpending => absurd hpending (by simp [TimerQueue.Pending])) hx (by simp)⟩

end Exchange
end AegisGate.Proxy
