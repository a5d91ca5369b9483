import AegisGate.Runtime.ReloadController

/-!
# No reload request is lost

While a thread parses, the flag is set or the thread has read, or will read, after all requests.
When the flag is found clear, the result that is queued therefore comes from a read after all
requests, and it is the newest one.
-/

namespace AegisGate.Runtime.ReloadController
open Lib List Option Bool

/-- A read at `start` began after all requests. -/
def After (requests : List ℕ) (start : ℕ) : Prop := ∀ time ∈ requests, time < start

/-- The read of a thread begins after all requests. -/
def ReadsAfter (requests : List ℕ) : ParserPhase → Prop
  | .reading start => After requests start
  | .parsed result => After requests result.readStart
  | _ => True

lemma ReadsAfter.mono {requests fewer : List ℕ} {p : ParserPhase} (h : ReadsAfter requests p)
    (hsub : fewer ⊆ requests) : ReadsAfter fewer p := by
  cases p with
  | reading start | parsed result => exact fun time htime => h time (hsub htime)
  | fresh => trivial
  | done => trivial

/-- A result is what the loader makes of the file that its read returned. -/
def FromFile (files : List (ℕ × Option (Except String Config.Node))) (r : ReloadResult) : Prop :=
  ∃ file, (r.readStart, file) ∈ files ∧ r.candidate = parseFile file

def weight (p : ParserPhase) : ℕ := p.isActive.toNat

structure Inv (s : ReloadController) : Prop where
  active : load weight s.threads = s.parsing.toNat
  clock : After s.requests s.clock
  reads : s.stopping = false → ∀ (i : ℕ) (p : ParserPhase), s.threads[i]? = some p →
    p.isActive → s.pending ∨ ReadsAfter s.requests p
  last : s.stopping = false → s.parsing = false → s.requests ≠ [] →
    ∃ r, s.published.getLast? = some r ∧ After s.requests r.readStart
  origin : ∀ r, .parsed r ∈ s.threads ∨ r ∈ s.published → FromFile s.files r
  queue : ∃ taken, s.published = taken ++ s.results ∧ taken.getLast? = s.picked.getLast?
  increasing : (s.published.map (·.sequence)).Pairwise (· < ·)
  below : ∀ r ∈ s.published, r.sequence < s.nextSequence
  wake : s.results ≠ [] → s.wakeFd.Pending ∨ s.draining

lemma inv_initial : Inv {} where
  active := rfl
  clock := by simp [After]
  reads := by simp
  last := fun _ _ h => absurd rfl h
  origin := by simp
  queue := ⟨[], rfl, rfl⟩
  increasing := .nil
  below := by simp
  wake := fun h => absurd rfl h

/-! ## Threads -/

section
variable {s : ReloadController} {i : ℕ} {p : ParserPhase}

lemma Inv.parsing_of_active (h : Inv s) (hi : s.threads[i]? = some p) (hp : p.isActive) :
    s.parsing := by
  have hle := le_load (f := weight) hi
  rw [h.active, weight, hp] at hle
  cases hparsing : s.parsing with
  | true => rfl
  | false =>
    rw [hparsing] at hle
    cases hle

lemma Inv.exists_active (h : Inv s) (hparsing : s.parsing) :
    ∃ (i : ℕ) (p : ParserPhase), s.threads[i]? = some p ∧ p.isActive := by
  have hload : 0 < load weight s.threads := by
    rw [h.active, hparsing]
    exact Nat.one_pos
  obtain ⟨i, p, hi, hweight⟩ := exists_of_load_pos hload
  refine ⟨i, p, hi, ?_⟩
  cases hactive : p.isActive with
  | true => rfl
  | false => simp [weight, hactive] at hweight

lemma Inv.unique (h : Inv s) {j : ℕ} {q : ParserPhase} (hi : s.threads[i]? = some p)
    (hj : s.threads[j]? = some q) (hp : p.isActive) (hq : q.isActive) : i = j := by
  by_contra hne
  have hset := load_set (f := weight) hi .done
  have hother : (s.threads.set i .done)[j]? = some q := by rw [getElem?_set_ne hne, hj]
  have hle := le_load (f := weight) hother
  rw [h.active, h.parsing_of_active hi hp, weight, hp] at hset
  rw [weight, hq] at hle
  simp only [toNat_true, weight, ParserPhase.isActive, toNat_false] at hset hle
  omega

lemma Inv.load_set (h : Inv s) (hi : s.threads[i]? = some p) (hp : p.isActive)
    (next : ParserPhase) : load weight (s.threads.set i next) = next.isActive.toNat := by
  have hset := Lib.load_set (f := weight) hi next
  rw [h.active, h.parsing_of_active hi hp, weight, hp] at hset
  simp only [toNat_true, weight] at hset
  omega

lemma Inv.eq_of_active (h : Inv s) (hi : s.threads[i]? = some p) (hp : p.isActive)
    {next : ParserPhase} {j : ℕ} {q : ParserPhase} (hj : (s.threads.set i next)[j]? = some q)
    (hq : q.isActive) : q = next := by
  by_cases hne : i = j
  · subst hne
    obtain ⟨hlt, -⟩ := List.getElem?_eq_some_iff.mp hi
    rw [List.getElem?_set_self hlt] at hj
    exact (Option.some.inj hj).symm
  · rw [List.getElem?_set_ne hne] at hj
    exact absurd (h.unique hi hj hp hq) hne

lemma Inv.origin_set (h : Inv s) {next : ParserPhase}
    (hnext : ∀ r, next = .parsed r → FromFile s.files r) (r : ReloadResult)
    (hr : .parsed r ∈ s.threads.set i next ∨ r ∈ s.published) : FromFile s.files r := by
  rcases hr with hr | hr
  · rcases mem_or_eq_of_mem_set hr with hold | heq
    · exact h.origin r (.inl hold)
    · exact hnext r heq.symm
  · exact h.origin r (.inr hr)

lemma Inv.set (h : Inv s) (hi : s.threads[i]? = some p) (hp : p.isActive)
    (next : ParserPhase) (hnext : next.isActive)
    (hreads : s.stopping = false → s.pending ∨ ReadsAfter s.requests next)
    (hfile : ∀ r, next = .parsed r → FromFile s.files r) :
    Inv { s with threads := s.threads.set i next } :=
  { h with
    active := by rw [h.load_set hi hp, hnext, h.parsing_of_active hi hp]
    origin := h.origin_set hfile
    reads := fun hstop j q hj hq => h.eq_of_active hi hp hj hq ▸ hreads hstop }

end

/-! ## Steps -/

lemma After.tick {requests : List ℕ} {clock : ℕ} (h : After requests clock) :
    After requests (clock + 1) := fun time htime => Nat.lt_succ_of_lt (h time htime)

variable {s t : ReloadController} {e : ReloadEvent}

lemma Inv.request (h : Inv s) : Inv { s.request with clock := s.clock + 1 } := by
  have hclock : After (s.requests ++ [s.clock]) (s.clock + 1) := by
    refine forall_mem_append.mpr ⟨h.clock.tick, ?_⟩
    exact forall_mem_singleton.mpr (Nat.lt_succ_self _)
  rw [ReloadController.request]
  split
  · exact { h with clock := h.clock.tick }
  dsimp only
  split
  · next hparsing =>
    exact { h with
      clock := hclock
      reads := fun _ _ _ _ _ => .inl rfl
      last := fun _ hidle => absurd hparsing (eq_false_iff.mp hidle) }
  next hparsing =>
  rw [not_eq_true] at hparsing
  have hnone : load weight s.threads = 0 := by rw [h.active, hparsing]; rfl
  exact { h with
    active := by rw [load_append, hnone]; rfl
    clock := hclock
    last := nofun
    origin := fun r hr => by
      rw [mem_append, mem_singleton] at hr
      exact h.origin r (hr.imp_left fun hmem => hmem.resolve_right nofun)
    reads := fun _ j q hj hq => by
      -- The threads that were there have ended.
      rw [getElem?_append] at hj
      split at hj
      · have hle := le_load (f := weight) hj
        rw [hnone, weight, hq] at hle
        cases hle
      · have hq := mem_singleton.mp (mem_of_getElem? hj)
        rw [hq]
        exact .inr trivial }

lemma Inv.enqueue (h : Inv s) (hparsing : s.parsing) (result : ReloadResult)
    (hfile : FromFile s.files result) : Inv (s.enqueue result) := by
  obtain ⟨taken, hqueue, hpicked⟩ := h.queue
  exact { h with
    last := fun _ hidle => absurd hparsing (eq_false_iff.mp hidle)
    origin := by
      rintro r (hr | hr)
      · exact h.origin r (.inl hr)
      · rcases mem_append.mp hr with hr | hr
        · exact h.origin r (.inr hr)
        · rw [mem_singleton.mp hr]
          exact hfile
    queue := ⟨taken, by rw [ReloadController.enqueue, hqueue, append_assoc], hpicked⟩
    increasing := by
      rw [ReloadController.enqueue, map_append, pairwise_append]
      refine ⟨h.increasing, pairwise_singleton _ _, ?_⟩
      intro a ha b hb
      obtain ⟨r, hr, rfl⟩ := mem_map.mp ha
      rw [map_singleton, mem_singleton] at hb
      exact hb ▸ h.below r hr
    below := by
      refine forall_mem_append.mpr ⟨fun r hr => Nat.lt_succ_of_lt (h.below r hr), ?_⟩
      exact forall_mem_singleton.mpr (Nat.lt_succ_self _)
    wake := fun _ => .inl (EventFd.pending_write _) }

section
variable {s : ReloadController} {i : ℕ} {p : ParserPhase}

lemma Inv.again (h : Inv s) (hi : s.threads[i]? = some p) (hp : p.isActive) :
    Inv { s with pending := false, threads := s.threads.set i .fresh } :=
  { h.set hi hp .fresh rfl (fun _ => .inr trivial) nofun with
    reads := fun _ j q hj hq => by
      rw [h.eq_of_active hi hp hj hq]
      exact .inr trivial }

lemma Inv.finish (h : Inv s) (hi : s.threads[i]? = some p) (hp : p.isActive)
    (hlast : s.stopping = false →
      ∃ r, s.published.getLast? = some r ∧ After s.requests r.readStart) :
    Inv { s with pending := false, parsing := false, threads := s.threads.set i .done } :=
  { h with
    active := h.load_set hi hp .done
    origin := h.origin_set nofun
    reads := fun _ j q hj hq => by
      rw [h.eq_of_active hi hp hj hq] at hq
      cases hq
    last := fun hstop _ _ => hlast hstop }

lemma Inv.publish (h : Inv s) {result : ReloadResult}
    (hi : s.threads[i]? = some (.parsed result)) : Inv (s.publish i result) := by
  have hfile := h.origin result (.inl (mem_of_getElem? hi))
  have henqueue := h.enqueue (h.parsing_of_active hi rfl) result hfile
  rw [ReloadController.publish]
  cases hstop : s.stopping with
  | true =>
    have hend := h.finish hi rfl fun hfalse => absurd hstop (by simp [hfalse])
    simpa [hstop] using hend
  | false =>
    cases hpending : s.pending with
    | true =>
      have hagain := henqueue.again (i := i) hi rfl
      simpa [hstop, ReloadController.enqueue, hpending] using hagain
    | false =>
      have hafter : After s.requests result.readStart := by
        have hreads := h.reads hstop i _ hi rfl
        rw [hpending] at hreads
        exact hreads.resolve_left (by simp)
      have hend := henqueue.finish (i := i) hi rfl fun _ =>
        ⟨_, getLast?_concat, hafter⟩
      simpa [hstop, ReloadController.enqueue, hpending] using hend

end

lemma Inv.read (h : Inv s) (read : ℕ × Option (Except String Config.Node)) :
    Inv { s with files := s.files ++ [read] } :=
  { h with
    origin := fun r hr => by
      obtain ⟨file, hmem, heq⟩ := h.origin r hr
      exact ⟨file, mem_append_left _ hmem, heq⟩ }

lemma Inv.step (h : Inv s) (ht : s.step e = some t) : Inv t := by
  obtain ⟨u, hu, rfl⟩ := map_eq_some_iff.mp ht
  suffices hinv : e ≠ .request → Inv u ∧ u.requests = s.requests by
    by_cases he : e = .request
    · subst he
      cases hu
      exact h.request
    · obtain ⟨hinv, hrequests⟩ := hinv he
      exact { hinv with clock := hrequests ▸ h.clock.tick }
  intro he
  cases e with
  | request => exact absurd rfl he
  | beginRead thread =>
    rw [apply] at hu
    split at hu
    · next hthread =>
      cases hu
      exact ⟨h.set hthread rfl _ rfl (fun _ => .inr h.clock) nofun, rfl⟩
    · cases hu
  | parse thread file =>
    rw [apply] at hu
    split at hu
    · next start hthread =>
      cases hu
      have hreads := fun hstop => h.reads hstop thread _ hthread rfl
      refine ⟨(h.read (start, file)).set hthread rfl _ rfl hreads ?_, rfl⟩
      rintro _ ⟨⟩
      exact ⟨file, mem_append_right _ mem_cons_self, rfl⟩
    · cases hu
  | publish thread =>
    rw [apply] at hu
    split at hu
    · next result hthread =>
      cases hu
      exact ⟨h.publish hthread, requests_publish ..⟩
    · cases hu
  | drainRead =>
    obtain ⟨-, ⟨⟩⟩ := ite_none_left_eq_some.mp hu
    exact ⟨{ h with wake := fun _ => .inr rfl }, rfl⟩
  | drainSwap =>
    obtain ⟨-, ⟨⟩⟩ := ite_none_right_eq_some.mp hu
    obtain ⟨taken, hqueue, hpicked⟩ := h.queue
    refine ⟨{ h with queue := ⟨taken ++ s.results, ?_, ?_⟩, wake := fun h => absurd rfl h }, rfl⟩
    · rw [append_nil]
      exact hqueue
    · cases hresults : s.results.getLast? with
      | none =>
        rw [getLast?_eq_none_iff.mp hresults]
        simpa using hpicked
      | some r => simp [getLast?_append, hresults]
  | stop =>
    cases hu
    exact ⟨{ h with reads := nofun, last := nofun }, rfl⟩

/-! ## The parser by itself -/

def ofParser : ReloadEvent → Bool
  | .beginRead _ | .parse _ _ | .publish _ => true
  | _ => false

/-- Steps of the parser threads alone lead from `s` to `t`. -/
def ParserReaches (s t : ReloadController) : Prop :=
  ∃ es, (∀ e ∈ es, ofParser e) ∧ run step s es = some t

lemma ParserReaches.head {u : ReloadController} (he : ofParser e) (hs : s.apply e = some t)
    (h : ParserReaches { t with clock := s.clock + 1 } u) : ParserReaches s u := by
  obtain ⟨es, hes, hrun⟩ := h
  refine ⟨e :: es, forall_mem_cons.mpr ⟨he, hes⟩, ?_⟩
  rw [run_cons, step, hs]
  exact hrun

def Settles (s : ReloadController) : Prop :=
  ∃ t, ParserReaches s t ∧ t.parsing = false ∧ t.stopping = s.stopping ∧ t.requests = s.requests

lemma Settles.head (he : ofParser e) (hs : s.apply e = some t)
    (hstop : t.stopping = s.stopping) (hrequests : t.requests = s.requests)
    (h : Settles { t with clock := s.clock + 1 }) : Settles s := by
  obtain ⟨u, hreach, hidle, hstop', hrequests'⟩ := h
  exact ⟨u, hreach.head he hs, hidle, hstop'.trans hstop, hrequests'.trans hrequests⟩

section
variable {s : ReloadController} {i : ℕ}

lemma apply_publish {result : ReloadResult} (hi : s.threads[i]? = some (.parsed result)) :
    s.apply (.publish i) = some (s.publish i result) := by rw [apply, hi]

lemma apply_parse {start : ℕ} (hi : s.threads[i]? = some (.reading start)) :
    s.apply (.parse i none) = some { s with
      threads := s.threads.set i (.parsed { candidate := parseFile none, readStart := start })
      files := s.files ++ [(start, none)] } := by
  rw [apply, hi]

lemma apply_beginRead (hi : s.threads[i]? = some .fresh) :
    s.apply (.beginRead i) = some { s with threads := s.threads.set i (.reading s.clock) } := by
  rw [apply, hi]

variable {p : ParserPhase}

lemma getElem?_set_of_some {q : ParserPhase} (hi : s.threads[i]? = some p) :
    (s.threads.set i q)[i]? = some q := by
  obtain ⟨hlt, -⟩ := List.getElem?_eq_some_iff.mp hi
  exact List.getElem?_set_self hlt

lemma publish_cases {result : ReloadResult} (hi : s.threads[i]? = some (.parsed result)) :
    (s.publish i result).parsing = false ∨
      (s.publish i result).pending = false ∧ (s.publish i result).threads[i]? = some .fresh := by
  rw [publish]
  cases hstop : s.stopping with
  | true => simp [hstop]
  | false =>
    cases hpending : s.pending with
    | true =>
      have hset := getElem?_set_of_some (q := .fresh) hi
      exact .inr (by simp [enqueue, hstop, hpending, hset])
    | false => exact .inl (by simp [enqueue, hpending])

lemma settles_of_parsed (hi : s.threads[i]? = some p) (hp : p.isActive)
    (h : ∀ (t : ReloadController) (result : ReloadResult),
      t.threads[i]? = some (.parsed result) → t.pending = s.pending → t.stopping = s.stopping →
      t.requests = s.requests → Settles t) : Settles s := by
  cases p with
  | done => cases hp
  | parsed result => exact h s result hi rfl rfl rfl
  | reading start =>
    refine .head rfl (apply_parse hi) rfl rfl (h _ _ (getElem?_set_of_some hi) rfl rfl rfl)
  | fresh =>
    refine .head rfl (apply_beginRead hi) rfl rfl ?_
    have hreading := getElem?_set_of_some (q := .reading s.clock) hi
    refine .head rfl (apply_parse hreading) rfl rfl ?_
    exact h _ _ (getElem?_set_of_some hreading) rfl rfl rfl

lemma settles_of_not_pending (hi : s.threads[i]? = some p) (hp : p.isActive)
    (hpending : s.pending = false) : Settles s := by
  refine settles_of_parsed hi hp fun t result ht htpending _ _ => ?_
  rw [hpending] at htpending
  refine .head rfl (apply_publish ht) (stopping_publish ..) (requests_publish ..) ?_
  refine ⟨_, ⟨[], nofun, rfl⟩, ?_, rfl, rfl⟩
  rw [publish]
  cases hstop : t.stopping with
  | true => simp [htpending]
  | false => simp [enqueue, htpending]

end

lemma Inv.settles (h : Inv s) : Settles s := by
  cases hparsing : s.parsing with
  | false => exact ⟨s, ⟨[], nofun, rfl⟩, hparsing, rfl, rfl⟩
  | true =>
    obtain ⟨i, p, hi, hp⟩ := h.exists_active hparsing
    -- A request meanwhile costs one more turn.
    refine settles_of_parsed hi hp fun t result ht _ _ _ => ?_
    refine .head rfl (apply_publish ht) (stopping_publish ..) (requests_publish ..) ?_
    rcases publish_cases ht with hidle | ⟨hpending, hfresh⟩
    · exact ⟨_, ⟨[], nofun, rfl⟩, hidle, rfl, rfl⟩
    · exact settles_of_not_pending hfresh rfl hpending

/-! ## Runs -/

/-- A request at `time` is still to be served: a thread has not ended, and it will parse once more
or its read begins after the request. -/
def Owes (s : ReloadController) (time : ℕ) : Prop :=
  ∃ (i : ℕ) (p : ParserPhase), s.threads[i]? = some p ∧ p.isActive ∧
    (s.pending ∨ ReadsAfter [time] p)

/-- Every request is answered by a later read. -/
structure Served (s : ReloadController) : Prop where
  /-- At most one thread reads or parses. -/
  one : (s.threads.filter ParserPhase.isActive).length ≤ 1
  /-- Results are queued with increasing numbers. -/
  increasing : (s.published.map (·.sequence)).Pairwise (· < ·)
  /-- A request is followed by a parse of a read after it. -/
  followed : ∀ time ∈ s.requests, s.Owes time ∨ ∃ r ∈ s.published, time < r.readStart
  /-- The last result of an idle controller is from a read after all requests. -/
  last : s.parsing = false → ∀ time ∈ s.requests,
    ∃ r, s.published.getLast? = some r ∧ time < r.readStart
  /-- A result is the parse of the file that its read returned. -/
  parsed : ∀ r ∈ s.published, FromFile s.files r
  /-- What the gateway has used last is the last result, or there are results in the queue. -/
  picked : s.results = [] → s.picked.getLast? = s.published.getLast?
  /-- The control loop will be woken for what is queued, or is about to take it. -/
  wake : s.results ≠ [] → s.wakeFd.Pending ∨ s.draining

lemma length_filter_isActive (threads : List ParserPhase) :
    (threads.filter ParserPhase.isActive).length = load weight threads := by
  induction threads with
  | nil => rfl
  | cons p threads ih =>
    rw [load_cons, ← ih, weight, filter_cons]
    cases p.isActive <;> simp [Nat.add_comm]

lemma Inv.toServed (h : Inv s) (hstop : s.stopping = false) : Served s := by
  have hlast : s.parsing = false → ∀ time ∈ s.requests,
      ∃ r, s.published.getLast? = some r ∧ time < r.readStart := by
    intro hidle time htime
    obtain ⟨r, hr, hafter⟩ := h.last hstop hidle (ne_nil_of_mem htime)
    exact ⟨r, hr, hafter time htime⟩
  refine ⟨?_, h.increasing, ?_, hlast, fun r hr => h.origin r (.inr hr), ?_, h.wake⟩
  · rw [length_filter_isActive, h.active]
    exact toNat_le _
  · intro time htime
    cases hparsing : s.parsing with
    | false =>
      obtain ⟨r, hr, hafter⟩ := hlast hparsing time htime
      exact .inr ⟨r, mem_of_getLast? hr, hafter⟩
    | true =>
      obtain ⟨i, p, hi, hp⟩ := h.exists_active hparsing
      refine .inl ⟨i, p, hi, hp, (h.reads hstop i p hi hp).imp_right fun hreads => ?_⟩
      exact hreads.mono fun other hother => mem_singleton.mp hother ▸ htime
  · intro hresults
    obtain ⟨taken, hqueue, hpicked⟩ := h.queue
    rw [hqueue, hresults, append_nil, hpicked]

lemma inv_run {es : List ReloadEvent} (hrun : run step {} es = some s) : Inv s :=
  run_invariant (fun _ _ _ h ht => h.step ht) inv_initial hrun

/-- **No reload request is lost.** In every interleaving before `Stop`: at most one thread reads
and parses; results are queued with increasing numbers, and each is the parse of the file that its
read returned; every request has been followed by a parse of a read after it, or a thread is about
to make one; the last result of an idle controller is from a read after all requests, and it is what
the gateway uses; and the parser threads by themselves become idle. -/
theorem served_of_run (es : List ReloadEvent) (s : ReloadController)
    (hrun : run step {} es = some s) (hstop : s.stopping = false) :
    s.Served ∧ ∃ t, s.ParserReaches t ∧ t.parsing = false ∧ t.requests = s.requests ∧ t.Served := by
  have h := inv_run hrun
  obtain ⟨t, ⟨fs, hfs, hreach⟩, hidle, hsame, hrequests⟩ := h.settles
  have ht : Inv t := run_invariant (fun _ _ _ h ht => h.step ht) h hreach
  exact ⟨h.toServed hstop, t, ⟨fs, hfs, hreach⟩, hidle, hrequests, ht.toServed (hsame.trans hstop)⟩

/-- A second request comes while the file is read. -/
def coalescedRun : List ReloadEvent :=
  [.request, .beginRead 0, .request, .parse 0 none, .publish 0, .beginRead 0, .parse 0 none,
    .publish 0, .drainRead, .drainSwap]

theorem served_of_coalescedRun :
    ∃ s, run step {} coalescedRun = some s ∧ s.parsing = false ∧ s.requests = [0, 2] ∧
      s.picked.map (·.readStart) = [5] ∧ s.Served := by
  have hrun : run step {} coalescedRun = some _ := rfl
  exact ⟨_, hrun, rfl, rfl, rfl, (served_of_run _ _ hrun rfl).1⟩

end AegisGate.Runtime.ReloadController
