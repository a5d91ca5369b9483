import AegisGate.Proxy.ConnectionPool

/-!
# The account of the upstream connections

Where the connections of the pool are over a whole run. A connection has a number, which no
other one ever gets, while an address is used again after an object is destroyed; and a call
of `Execute` has a name, under which its callback reports.
-/

namespace AegisGate.Proxy
open Lib ConnectionPool UpstreamConnection UpstreamPool List AList Option

namespace ConnectionPool

/-- Where a connection is. -/
inductive Place
  /-- It executes the exchange of a call. -/
  | active (owner : Attempt)
  /-- It waits in a deque. -/
  | idle (key : Key)
  /-- A deferred closure owns it and will close it. -/
  | cancelled
  | closed
  deriving DecidableEq

/-- The connection with a number is in a place. One that was destroyed was closed. -/
def Has (w : ConnectionPool) (n : ℕ) : Place → Prop
  | .active owner => ∃ p c lease, w.objects p = some c ∧ c.serial = n ∧
      w.pool.active.lookup p = some lease ∧ lease.owner = owner
  | .idle key => ∃ p c, w.objects p = some c ∧ c.serial = n ∧ p ∈ w.pool.idleOf key
  | .cancelled => ∃ p c, w.objects p = some c ∧ c.serial = n ∧ p ∈ w.pending ∧ c.state ≠ .finished
  | .closed => ∀ p c, w.objects p = some c → c.serial = n → c.state = .finished

/-- No two objects have one number. -/
structure Numbered (w : ConnectionPool) : Prop where
  lt : ∀ {p c}, w.objects p = some c → c.serial < w.created
  inj : ∀ {p q c d}, w.objects p = some c → w.objects q = some d → c.serial = d.serial → p = q

/-- Every call of `Execute` runs or has one report. -/
structure Reported (w : ConnectionPool) : Prop where
  once : w.executed.Nodup
  perm : w.executed.Perm (w.running ++ w.reports.map Report.owner)

section
variable {w w' : ConnectionPool} {p q : Pointer} {c c' d : UpstreamConnection} {lease : Lease}
  {key : Key} {call : Call} {e : ExchangeEnding}

/-! ### Numbers -/

lemma Numbered.of_old (h : Numbered w) (hcreated : w'.created = w.created)
    (hold : ∀ q d, w'.objects q = some d → ∃ d', w.objects q = some d' ∧ d'.serial = d.serial) :
    Numbered w' := by
  constructor
  · intro q d hd
    obtain ⟨d', hd', hserial⟩ := hold q d hd
    rw [hcreated, ← hserial]
    exact h.lt hd'
  · intro q₁ q₂ d₁ d₂ hd₁ hd₂ heq
    obtain ⟨d₁', hd₁', h₁⟩ := hold q₁ d₁ hd₁
    obtain ⟨d₂', hd₂', h₂⟩ := hold q₂ d₂ hd₂
    exact h.inj hd₁' hd₂' (h₁.trans (heq.trans h₂.symm))

lemma old_of_update {o : Option UpstreamConnection}
    (ho : ∀ c' ∈ o, ∃ c, w.objects p = some c ∧ c.serial = c'.serial) {q : Pointer}
    {d : UpstreamConnection} (hd : Function.update w.objects p o q = some d) :
    ∃ d', w.objects q = some d' ∧ d'.serial = d.serial := by
  by_cases hq : q = p
  · subst hq
    rw [Function.update_self] at hd
    exact ho d hd
  · rw [Function.update_of_ne hq] at hd
    exact ⟨d, hd, rfl⟩

lemma old_of_destroy {gone : List Pointer} (hd : Proxy.destroy w.objects gone q = some d) :
    ∃ d', w.objects q = some d' ∧ d'.serial = d.serial :=
  ⟨d, (ite_none_left_eq_some.mp hd).2, rfl⟩

lemma Numbered.execute (h : Numbered w) (hl : Lends w call w' p c) : Numbered w' := by
  -- The number of the lent connection is its own or a new one.
  have hnumber : (∃ c₀, w.objects p = some c₀ ∧ c.serial = c₀.serial ∧ w'.created = w.created) ∨
      c.serial = w.created ∧ w'.created = w.created + 1 := by
    rcases hl.source with ⟨c₀, hc₀, _, _, hrest⟩ | ⟨_, hrest⟩
    · exact .inl ⟨c₀, hc₀, hrest⟩
    · exact .inr hrest
  have hother : ∀ {q d}, q ≠ p → w.objects q = some d → d.serial ≠ c.serial := by
    intro q d hqp hd heq
    rcases hnumber with ⟨c₀, hc₀, hserial, _⟩ | ⟨hserial, _⟩
    · exact hqp (h.inj hd hc₀ (heq.trans hserial))
    · exact (h.lt hd).ne (heq.trans hserial)
  constructor
  · intro q d hd
    rcases hl.old hd with ⟨rfl, rfl⟩ | ⟨_, _, hd⟩
    · rcases hnumber with ⟨c₀, hc₀, hserial, hcreated⟩ | ⟨hserial, hcreated⟩
      · rw [hserial, hcreated]
        exact h.lt hc₀
      · omega
    · have hlt := h.lt hd
      rcases hnumber with ⟨_, _, _, hcreated⟩ | ⟨_, hcreated⟩ <;> omega
  intro q₁ q₂ d₁ d₂ hd₁ hd₂ heq
  rcases hl.old hd₁ with ⟨rfl, rfl⟩ | ⟨hne₁, _, hd₁⟩
  · rcases hl.old hd₂ with ⟨rfl, rfl⟩ | ⟨hne₂, _, hd₂⟩
    · rfl
    · exact absurd heq.symm (hother hne₂ hd₂)
  · rcases hl.old hd₂ with ⟨rfl, rfl⟩ | ⟨_, _, hd₂⟩
    · exact absurd heq (hother hne₁ hd₁)
    · exact h.inj hd₁ hd₂ heq

lemma Numbered.drop (h : Numbered w) (p : Pointer) (report : Attempt → Report) :
    Numbered (w.drop p report) := by
  rw [ConnectionPool.drop]
  split
  · exact h
  · exact h.of_old rfl fun q d hd => old_of_update (fun c' hc' => by simp at hc') hd

lemma Numbered.cancelAll (h : Numbered w) : Numbered w.cancelAll := by
  refine h.of_old rfl fun q d hd => ?_
  have hsuppressed : ∀ d, (if q ∈ w.pool.cancelAll.2 then
      (w.objects q).map suppressCallbacks else w.objects q) = some d →
      ∃ d', w.objects q = some d' ∧ d'.serial = d.serial := by
    intro d hd
    split at hd
    · obtain ⟨d', hd', rfl⟩ := map_eq_some_iff.mp hd
      exact ⟨d', hd', rfl⟩
    · exact ⟨d, hd, rfl⟩
  rw [ConnectionPool.cancelAll] at hd
  split at hd
  · exact hsuppressed d hd
  · exact hsuppressed d (ite_none_left_eq_some.mp hd).2

lemma Numbered.finish (h : Numbered w) (hh : Housed w) (hfinish : w.finish p e = some w') :
    Numbered w' := by
  obtain ⟨c, hc, _, ⟨lease, hactive, _, rfl⟩ | ⟨_, rfl⟩⟩ := hh.finish_cases hfinish
  · obtain ⟨pool, hpool⟩ := complete_of_active (c.finish e).1.isReusable hactive
    rw [complete, hpool]
    refine h.of_old rfl fun q d hd => old_of_update (fun c' hc' => ?_) hd
    split at hc'
    · cases hc'
      exact ⟨c, hc, finish_kept.1.symm⟩
    · cases hc'
  · refine h.of_old rfl fun q d hd => old_of_update (fun c' hc' => ?_) hd
    cases hc'
    exact ⟨c, hc, finish_kept.1.symm⟩

/-! ### Reports -/

lemma running_cancel (hp : w.pool.active.lookup p = some lease)
    (hactive : w'.pool.active = (w.pool.cancel p).active) :
    w.running.Perm (lease.owner :: w'.running) := by
  rw [running, running, hactive]
  exact (entries_perm_cancel hp).map fun entry => entry.2.owner

lemma Reported.leave (h : Reported w) {report : Report} (hp : w.pool.active.lookup p = some lease)
    (hactive : w'.pool.active = (w.pool.cancel p).active)
    (hreports : w'.reports = w.reports ++ [report]) (howner : report.owner = lease.owner)
    (hexecuted : w'.executed = w.executed) : Reported w' := by
  refine ⟨hexecuted ▸ h.once, ?_⟩
  rw [hexecuted, hreports]
  calc w.executed
    List.Perm _ (w.running ++ w.reports.map Report.owner) := h.perm
    List.Perm _ (lease.owner :: w'.running ++ w.reports.map Report.owner) :=
      (running_cancel hp hactive).append_right _
    List.Perm _ (w'.running ++ lease.owner :: w.reports.map Report.owner) :=
      perm_middle.symm
    List.Perm _ (w'.running ++ (w.reports ++ [report]).map Report.owner) := by
      rw [map_append, map_singleton, howner]
      exact (perm_append_singleton _ _).symm.append_left _

lemma Reported.drop (h : Reported w) (p : Pointer) {report : Attempt → Report}
    (hreport : ∀ owner, (report owner).owner = owner) : Reported (w.drop p report) := by
  rw [ConnectionPool.drop]
  split
  · exact h
  next lease hp => exact h.leave hp rfl rfl (hreport lease.owner) rfl

lemma Reported.finish (h : Reported w) (hh : Housed w) (hfinish : w.finish p e = some w') :
    Reported w' := by
  obtain ⟨c, _, _, ⟨lease, hactive, _, rfl⟩ | ⟨_, rfl⟩⟩ := hh.finish_cases hfinish
  · obtain ⟨pool, hpool⟩ := complete_of_active (c.finish e).1.isReusable hactive
    rw [complete, hpool]
    exact h.leave hactive (complete_active hpool).2 rfl rfl rfl
  · exact { h with }

lemma Reported.execute (h : Reported w) (hl : Lends w call w' p c) : Reported w' := by
  have hrunning : w'.running = call.owner :: w.running := by
    rw [running, hl.active, entries_insert_of_notMem (lookup_eq_none.mp hl.absent)]
    rfl
  constructor
  · rw [hl.executed]
    exact List.Nodup.append h.once (nodup_singleton _)
      (disjoint_singleton.mpr hl.owner)
  · rw [hl.executed, hl.reports, hrunning]
    calc w.executed ++ [call.owner]
      List.Perm _ (call.owner :: w.executed) := perm_append_singleton _ _
      List.Perm _ (call.owner :: w.running ++ w.reports.map Report.owner) := h.perm.cons _

lemma Reported.cancelAll (h : Reported w) : Reported w.cancelAll := by
  refine ⟨h.once, ?_⟩
  have hreports : w.cancelAll.running ++ w.cancelAll.reports.map Report.owner =
      w.reports.map Report.owner ++ w.running := by
    simp [ConnectionPool.cancelAll, UpstreamPool.cancelAll, running, Report.owner]
  rw [hreports]
  exact h.perm.trans perm_append_comm

/-! ### Runs -/

structure Sound (w : ConnectionPool) : Prop where
  housed : Housed w
  numbered : Numbered w
  reported : Reported w

lemma Sound.drop (h : Sound w) (p : Pointer) {report : Attempt → Report}
    (hreport : ∀ owner, (report owner).owner = owner) : Sound (w.drop p report) :=
  ⟨h.housed.drop p report, h.numbered.drop p report, h.reported.drop p hreport⟩

lemma Sound.advance (h : Sound w) (hc : w.objects p = some c) (hc' : c.advance = some c') :
    Sound (w.setObject p (some c')) := by
  refine ⟨h.housed.advance hc hc', h.numbered.of_old rfl fun q d hd => ?_, { h.reported with }⟩
  refine old_of_update (fun d hd => ?_) hd
  cases hd
  exact ⟨c, hc, (advance_kept hc').1.symm⟩

lemma Sound.step (h : Sound w) {e : Event} (hstep : w.step e = some w') : Sound w' := by
  cases e with
  | execute call =>
    obtain ⟨p, c, hl⟩ := h.housed.lends hstep
    exact ⟨h.housed.execute hl, h.numbered.execute hl, h.reported.execute hl⟩
  | advance p =>
    obtain ⟨c, hc, hstep⟩ := bind_eq_some_iff.mp hstep
    obtain ⟨c', hc', rfl⟩ := map_eq_some_iff.mp hstep
    exact h.advance hc hc'
  | raise p | cancel p =>
    cases hstep
    exact h.drop p fun owner => rfl
  | finish p e =>
    exact ⟨h.housed.finish hstep, h.numbered.finish h.housed hstep,
      h.reported.finish h.housed hstep⟩
  | cancelAll =>
    cases hstep
    exact ⟨h.housed.cancelAll, h.numbered.cancelAll, h.reported.cancelAll⟩
  | dispatch flag =>
    cases hstep
    exact ⟨{ h.housed with }, { h.numbered with }, { h.reported with }⟩
  | task =>
    rw [ConnectionPool.step] at hstep
    split at hstep
    · cases hstep
    next hdeferred =>
      obtain ⟨_, ⟨⟩⟩ := ite_none_left_eq_some.mp hstep
      exact ⟨h.housed.task hdeferred, h.numbered.of_old rfl fun q d hd => old_of_destroy hd,
        { h.reported with }⟩

lemma sound_of_reaches (h : Reaches step {} w) : Sound w :=
  h.invariant ⟨Housed.init, ⟨nofun, nofun⟩, nodup_nil, .refl []⟩
    fun _ _ _ h hstep => h.step hstep

/-! ### Places -/

lemma Sound.has_iff (h : Sound w) (hc : w.objects p = some c) (hopen : c.state ≠ .finished)
    (place : Place) : w.Has c.serial place ↔ match place with
      | .active owner => ∃ lease, w.pool.active.lookup p = some lease ∧ lease.owner = owner
      | .idle key => p ∈ w.pool.idleOf key
      | .cancelled => p ∈ w.pending
      | .closed => False := by
  cases place with
  | active owner =>
    constructor
    · rintro ⟨q, d, lease, hd, hserial, hlease⟩
      cases h.numbered.inj hd hc hserial
      exact ⟨lease, hlease⟩
    · rintro ⟨lease, hlease⟩
      exact ⟨p, c, lease, hc, rfl, hlease⟩
  | idle key =>
    constructor
    · rintro ⟨q, d, hd, hserial, hidle⟩
      cases h.numbered.inj hd hc hserial
      exact hidle
    · intro hidle
      exact ⟨p, c, hc, rfl, hidle⟩
  | cancelled =>
    constructor
    · rintro ⟨q, d, hd, hserial, hpending, _⟩
      cases h.numbered.inj hd hc hserial
      exact hpending
    · intro hpending
      exact ⟨p, c, hc, rfl, hpending, hopen⟩
  | closed => exact ⟨fun hclosed => hopen (hclosed p c hc rfl), False.elim⟩

lemma Sound.has_of_closed (h : Sound w) {n : ℕ} (hclosed : w.Has n .closed) {place : Place}
    (hplace : w.Has n place) : place = .closed := by
  cases place with
  | active owner =>
    obtain ⟨q, d, lease, hd, hserial, hlease, _⟩ := hplace
    obtain ⟨d', hd', hruns⟩ := h.housed.active hlease
    cases hd.symm.trans hd'
    exact absurd (hclosed q d hd hserial)
      (ne_finished_of_executing hruns.executing)
  | idle key =>
    obtain ⟨q, d, hd, hserial, hidle⟩ := hplace
    obtain ⟨d', hd', _, hparked, _⟩ := h.housed.idle hidle
    cases hd.symm.trans hd'
    have hidle := state_of_isReusable hparked.reusable
    cases hidle.symm.trans (hclosed q d hd hserial)
  | cancelled =>
    obtain ⟨q, d, hd, hserial, _, hopen⟩ := hplace
    exact absurd (hclosed q d hd hserial) hopen
  | closed => rfl

lemma Sound.existsUnique_place (h : Sound w) (n : ℕ) : ∃! place, w.Has n place := by
  by_cases hclosed : w.Has n .closed
  · exact ⟨.closed, hclosed, fun place hplace => h.has_of_closed hclosed hplace⟩
  simp only [Has, not_forall] at hclosed
  obtain ⟨p, c, hc, rfl, hopen⟩ := hclosed
  simp only [h.has_iff hc hopen]
  rcases h.housed.placed hc with ⟨lease, hlease⟩ | ⟨key, hidle⟩ | hpending
  · refine ⟨.active lease.owner, ⟨lease, hlease, rfl⟩, fun place hplace => ?_⟩
    cases place with
    | active owner =>
      obtain ⟨lease', hlease', rfl⟩ := hplace
      cases hlease.symm.trans hlease'
      rfl
    | idle key => exact absurd hplace (h.housed.not_idle_of_active hlease key)
    | cancelled => exact absurd hplace (h.housed.not_pending_of_active hlease)
    | closed => exact hplace.elim
  · refine ⟨.idle key, hidle, fun place hplace => ?_⟩
    cases place with
    | active owner =>
      obtain ⟨lease, hlease, _⟩ := hplace
      exact absurd hidle (h.housed.not_idle_of_active hlease key)
    | idle key' => rw [h.housed.key_unique hidle hplace]
    | cancelled =>
      obtain ⟨_, _, _, _, hout⟩ := h.housed.idle hidle
      exact absurd hplace hout
    | closed => exact hplace.elim
  refine ⟨.cancelled, hpending, fun place hplace => ?_⟩
  cases place with
  | active owner =>
    obtain ⟨lease, hlease, _⟩ := hplace
    exact absurd hpending (h.housed.not_pending_of_active hlease)
  | idle key =>
    obtain ⟨_, _, _, _, hout⟩ := h.housed.idle hplace
    exact absurd hpending hout
  | cancelled => rfl
  | closed => exact hplace.elim

/-! ### The account of a pool -/

lemma destroy_append (objects : Pointer → Option UpstreamConnection) (ps qs : List Pointer) :
    Proxy.destroy (Proxy.destroy objects ps) qs = Proxy.destroy objects (ps ++ qs) := by
  ext1 q
  by_cases hp : q ∈ ps <;> by_cases hq : q ∈ qs <;> simp [Proxy.destroy, hp, hq]

lemma run_tasks (hidle : w.dispatching = false) :
    run step w (replicate w.deferred.length .task) =
      some { w with objects := Proxy.destroy w.objects w.pending, deferred := [] } := by
  obtain ⟨pool, objects, created, dispatching, deferred, executed, reports⟩ := w
  cases hidle
  induction deferred generalizing objects with
  | nil =>
    have hnone : Proxy.destroy objects [] = objects := by
      ext1 q
      simp [Proxy.destroy]
    simp [pending, hnone]
  | cons connections rest ih =>
    simp only [length_cons, replicate_succ, run_cons, step,
      Bool.false_eq_true, if_false, bind_some]
    rw [ih]
    simp [pending, destroy_append]

lemma Sound.closed_of_cancelled (h : Sound w) {n : ℕ} (hcancelled : w.Has n .cancelled) :
    Has { w with objects := Proxy.destroy w.objects w.pending, deferred := [] } n .closed := by
  obtain ⟨q, d, hd, hserial, hpending, _⟩ := hcancelled
  intro p c hc hserial'
  obtain ⟨hp, hc⟩ := ite_none_left_eq_some.mp hc
  cases h.numbered.inj hc hd (hserial'.trans hserial.symm)
  exact absurd hpending hp

lemma Sound.checked (h : Sound w) (hexec : w.execute call = some w') {n : ℕ}
    (hidle : w.Has n (.idle key)) (hactive : w'.Has n (.active call.owner)) :
    key = call.key ∧ ∃ p c, w.objects p = some c ∧ c.serial = n ∧ c.isReusable ∧
      call.peek p = .wouldBlock := by
  obtain ⟨p, c, hl⟩ := h.housed.lends hexec
  obtain ⟨q, d, hd, hserial, hq⟩ := hidle
  obtain ⟨q', d', lease, hd', hserial', hlease, howner⟩ := hactive
  rw [hl.active] at hlease
  by_cases hqp : q' = p
  · subst hqp
    cases hl.self.symm.trans hd'
    rcases hl.source with ⟨c₀, hc₀, hmem, hhealthy, hsame, _⟩ | ⟨_, hnew, _⟩
    · cases h.numbered.inj hc₀ hd (hsame.symm.trans (hserial'.trans hserial.symm))
      obtain ⟨hreusable, hpeek⟩ := healthyForReuse_iff.mp hhealthy
      exact ⟨h.housed.key_unique hq hmem, q, c₀, hc₀, hsame.symm.trans hserial', hreusable, hpeek⟩
    · have hlt := h.numbered.lt hd
      omega
  · -- The exchanges of other connections have other owners.
    rw [lookup_insert_ne hqp] at hlease
    have hrunning : lease.owner ∈ w.running :=
      mem_map.mpr ⟨⟨q', lease⟩, mem_lookup_iff.mp hlease, rfl⟩
    have hexecuted : lease.owner ∈ w.executed :=
      h.reported.perm.mem_iff.mpr (mem_append_left _ hrunning)
    exact absurd (howner ▸ hexecuted) hl.owner

lemma Sound.owner_unique (h : Sound w) {n m : ℕ} {owner : Attempt}
    (hn : w.Has n (.active owner)) (hm : w.Has m (.active owner)) : m = n := by
  obtain ⟨p, c, lease, hc, rfl, hlease, rfl⟩ := hn
  obtain ⟨q, d, lease', hd, rfl, hlease', howner⟩ := hm
  have hnodup : w.running.Nodup := (h.reported.perm.nodup_iff.mp h.reported.once).of_append_left
  have hentry := inj_on_of_nodup_map hnodup (mem_lookup_iff.mp hlease')
    (mem_lookup_iff.mp hlease) howner
  cases hentry
  cases hc.symm.trans hd
  rfl

lemma Housed.not_owns (h : Housed w) (hp : w.objects p = none) {pool : UpstreamPool}
    (hactive : pool.active = w.pool.active)
    (hidle : ∀ k, ∀ q ∈ pool.idleOf k, q ∈ w.pool.idleOf k) : pool.owns p = false := by
  rw [owns, hactive, Bool.or_eq_false_iff, List.any_eq_false]
  constructor
  · cases hlookup : w.pool.active.lookup p with
    | none => rfl
    | some lease =>
      obtain ⟨c, hc, _⟩ := h.active hlookup
      cases hp.symm.trans hc
  intro entry hentry hmem
  have hin : p ∈ pool.idleOf entry.1 := by
    rw [idleOf, mem_def.mp (mem_lookup_iff.mpr hentry)]
    simpa using hmem
  obtain ⟨c, hc, _⟩ := h.idle (hidle entry.1 p hin)
  cases hp.symm.trans hc

/-- `Execute` never meets a connection that makes it throw. -/
lemma Housed.execute_isSome (h : Housed w) (howner : call.owner ∉ w.executed)
    (hfresh : w.objects call.fresh = none) : (w.execute call).isSome := by
  have hgone : w.searched call call.fresh = none := by simp [searched, Proxy.destroy, hfresh]
  have hsearched : (w.pool.searched (w.execution call)).isSome := by
    refine searched_isSome fun pool hactive hidle =>
      h.not_owns hfresh hactive fun k q hq => ?_
    rw [idleOf_of_insert w.pool hidle k, borrow_of_short (h.short _)] at hq
    split at hq
    · cases hq
    · exact hq
  have hlent : w.pool.active.lookup (w.pool.obtained (w.execution call)) = none ∧
      ∃ c, w.lent call = some c ∧ c.state = .idle := by
    have hobtained : w.pool.obtained (w.execution call) = (w.found call).getD call.fresh := rfl
    cases hfound : w.found call with
    | some p =>
      obtain ⟨hdeque, hsearched, c, hc, _, hhealthy⟩ := h.found_some hfound
      rw [hobtained, hfound, getD_some]
      refine ⟨?_, c, by simp [lent, hfound, hsearched, hc], state_of_isReusable
          (healthyForReuse_iff.mp hhealthy).1⟩
      rw [lookup_eq_none, AList.mem_keys]
      exact h.not_key_of_idle (hdeque ▸ mem_singleton_self p)
    | none =>
      rw [hobtained, hfound, getD_none]
      refine ⟨?_, _, by rw [lent, hfound], rfl⟩
      cases hlookup : w.pool.active.lookup call.fresh with
      | none => rfl
      | some lease =>
        obtain ⟨c, hc, _⟩ := h.active hlookup
        cases hfresh.symm.trans hc
  obtain ⟨habsent, c, hc, hidle⟩ := hlent
  obtain ⟨pool, hpool⟩ := execute_of_absent call.owner rfl habsent hsearched
  simp [ConnectionPool.execute, howner, hgone, hpool, hc, lend_of_idle hidle]

/-- What the pool guarantees of its connections. -/
structure Accounted (w : ConnectionPool) : Prop where
  /-- Every connection the pool made is in one place: it executes one exchange, or waits in one
  deque, or is cancelled and about to be closed, or is closed. -/
  place : ∀ n < w.created, ∃! place, w.Has n place
  /-- An active connection executes the exchange of its call, and no other one does. -/
  active : ∀ {n owner}, w.Has n (.active owner) →
    (∃ p c lease, w.objects p = some c ∧ c.serial = n ∧ c.executing ∧
      c.callback = some lease ∧ lease.owner = owner) ∧
    ∀ m, w.Has m (.active owner) → m = n
  /-- A deque holds at most one connection. -/
  deque : ∀ key, (w.pool.idleOf key).length ≤ 1
  /-- An idle connection is in the deque of its own address and port, and its last exchange
  had a clean end. -/
  idle : ∀ {n key}, w.Has n (.idle key) → ∃ p c e, w.objects p = some c ∧ c.serial = n ∧
    c.key = key ∧ c.lastEnding = some e ∧ e.result = .success ∧ e.input = [] ∧
    requestsClose e.headers = false ∧ e.peek = .wouldBlock
  /-- A call of `Execute` lends an idle connection to its own endpoint, after a check. -/
  checked : ∀ {call w' n key}, w.execute call = some w' → w.Has n (.idle key) →
    w'.Has n (.active call.owner) → key = call.key ∧ ∃ p c, w.objects p = some c ∧
      c.serial = n ∧ c.isReusable ∧ call.peek p = .wouldBlock
  /-- `Execute` throws at no connection it finds. -/
  lends : ∀ call : Call, call.owner ∉ w.executed → w.objects call.fresh = none →
    (w.execute call).isSome
  /-- A cancelled connection has no callback left, and the closures that are queued close it. -/
  cancelled : ∀ {n}, w.Has n .cancelled →
    (∃ p c, w.objects p = some c ∧ c.serial = n ∧ c.callback = none) ∧ w.deferred ≠ [] ∧
    (w.dispatching = false → ∃ w', run step w
      (replicate w.deferred.length .task) = some w' ∧ w'.Has n .closed)
  /-- The callback of a call is invoked at most once, and not if the call was cancelled. -/
  reports : (w.reports.map Report.owner).Nodup
  /-- A call whose exchange runs has no report yet. -/
  running : ∀ {n owner}, w.Has n (.active owner) → owner ∉ w.reports.map Report.owner

lemma Sound.cancelled (h : Sound w) {n : ℕ} (hn : w.Has n .cancelled) :
    (∃ p c, w.objects p = some c ∧ c.serial = n ∧ c.callback = none) ∧ w.deferred ≠ [] ∧
    (w.dispatching = false → ∃ w', run ConnectionPool.step w
      (replicate w.deferred.length .task) = some w' ∧ w'.Has n .closed) := by
  refine ⟨?_, ?_, fun hidle => ⟨_, run_tasks hidle, h.closed_of_cancelled hn⟩⟩
  · obtain ⟨p, c, hc, hserial, hpending, _⟩ := hn
    obtain ⟨d, hd, hnone⟩ := h.housed.pending hpending
    cases hc.symm.trans hd
    exact ⟨p, c, hc, hserial, hnone⟩
  · intro hempty
    obtain ⟨p, c, _, _, hpending, _⟩ := hn
    simp [pending, hempty] at hpending

/-- **Every connection is accounted for.** In every state that calls of the pool, ends of
exchanges and tasks of the loop lead to. -/
theorem accounted (h : Reaches ConnectionPool.step {} w) : Accounted w := by
  have hs := sound_of_reaches h
  have hnodup := hs.reported.perm.nodup_iff.mp hs.reported.once
  refine ⟨fun n _ => hs.existsUnique_place n, fun hn => ⟨?_, fun m hm => hs.owner_unique hn hm⟩,
    hs.housed.short, fun hn => ?_, fun hexec hidle hactive => hs.checked hexec hidle hactive,
    fun call howner hfresh => hs.housed.execute_isSome howner hfresh, fun hn => hs.cancelled hn,
    hnodup.of_append_right, fun hn => ?_⟩
  · obtain ⟨p, c, lease, hc, hserial, hlease, howner⟩ := hn
    obtain ⟨d, hd, hruns⟩ := hs.housed.active hlease
    cases hc.symm.trans hd
    exact ⟨p, c, lease, hc, hserial, hruns.executing, hruns.callback, howner⟩
  · obtain ⟨p, c, hc, hserial, hidle⟩ := hn
    obtain ⟨d, hd, hkey, hparked, _⟩ := hs.housed.idle hidle
    cases hc.symm.trans hd
    obtain ⟨e, he, hkeep⟩ := hparked.ending
    exact ⟨p, c, e, hc, hserial, hkey, he, ExchangeEnding.keepAlive_iff.mp hkeep⟩
  · obtain ⟨p, c, lease, _, _, hlease, rfl⟩ := hn
    have hrunning : lease.owner ∈ w.running :=
      mem_map.mpr ⟨⟨p, lease⟩, mem_lookup_iff.mp hlease, rfl⟩
    exact fun hreport => disjoint_of_nodup_append hnodup hrunning hreport


/-- A connection is used, parked, and lent again. -/
theorem accounted_reused : ∃ w, Reaches ConnectionPool.step {} w ∧ w.Has 0 (.active ⟨1, 0⟩) ∧
    Accounted w := by
  let es : List Event := [.execute ⟨⟨0, 0⟩, Config.localEndpoint, 7, fun _ => .wouldBlock⟩,
    .advance 7, .advance 7, .advance 7, .finish 7 { result := .success },
    .execute ⟨⟨1, 0⟩, Config.localEndpoint, 8, fun _ => .wouldBlock⟩]
  have hes : (run step {} es).map (fun w =>
      ((w.objects 7).map serial, w.pool.active.lookup 7)) =
      some (some 0, some ⟨⟨1, 0⟩, toKey Config.localEndpoint⟩) := by decide +kernel
  obtain ⟨w, hw, heq⟩ := map_eq_some_iff.mp hes
  obtain ⟨hserial, hlease⟩ := Prod.mk.inj heq
  obtain ⟨c, hc, hserial⟩ := map_eq_some_iff.mp hserial
  exact ⟨w, ⟨es, hw⟩, ⟨7, c, _, hc, hserial, hlease, rfl⟩, accounted ⟨es, hw⟩⟩

/-- A connection that is neither active, nor idle, nor closed: `CancelAll` was called while an
event was dispatched. -/
theorem unclosed : ∃ w, Reaches ConnectionPool.step {} w ∧ 0 < w.created ∧
    (∀ owner, ¬ w.Has 0 (.active owner)) ∧ (∀ key, ¬ w.Has 0 (.idle key)) ∧
    ¬ w.Has 0 .closed := by
  let es : List Event := [.execute ⟨⟨0, 0⟩, Config.localEndpoint, 7, fun _ => .wouldBlock⟩,
    .advance 7, .dispatch true, .cancelAll]
  have hes : (run step {} es).map (fun w =>
      ((w.objects 7).map (fun c => (c.serial, c.state)), w.pending, w.created)) =
      some (some (0, .connecting), [7], 1) := by decide +kernel
  obtain ⟨w, hw, heq⟩ := map_eq_some_iff.mp hes
  simp only [Prod.mk.injEq] at heq
  obtain ⟨hobject, hpending, hcreated⟩ := heq
  obtain ⟨c, hc, hshape⟩ := map_eq_some_iff.mp hobject
  simp only [Prod.mk.injEq] at hshape
  have hcancelled : w.Has 0 .cancelled :=
    ⟨7, c, hc, hshape.1, by simp [hpending], by simp [hshape.2]⟩
  have hunique := (sound_of_reaches ⟨es, hw⟩).existsUnique_place 0
  refine ⟨w, ⟨es, hw⟩, by simp [hcreated], fun owner hn => ?_, fun key hn => ?_, fun hn => ?_⟩
  · cases hunique.unique hn hcancelled
  · cases hunique.unique hn hcancelled
  · cases hunique.unique hn hcancelled

end
end ConnectionPool
end AegisGate.Proxy
