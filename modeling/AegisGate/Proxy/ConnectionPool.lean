import AegisGate.Proxy.UpstreamConnection

/-!
# Ownership of upstream connections

The pool of `src/proxy/UpstreamPool.cpp` with the connection objects it owns and the event
loop that runs them. The pool calls its users back while `Start` or `Finish` of a connection
is on the stack, and they may call the pool again; a call that is made from a callback is a
further event here, and the end of an exchange inside `Start` is one too.

`CancelAll` inside a dispatched event takes the connections out of the pool at once and
closes them at the end of the batch. In between they are in no container of the pool, and
they are open.
-/

namespace AegisGate.Proxy
open Lib UpstreamConnection UpstreamPool List Option Function AList

/-- What became of a call of `Execute`: its callback was invoked, or it was cancelled, or
`Execute` raised. -/
inductive Report
  | answered (owner : Attempt) (result : UpstreamResult)
  | cancelled (owner : Attempt)
  | raised (owner : Attempt)
  deriving DecidableEq

def Report.owner : Report → Attempt
  | answered owner _ | cancelled owner | raised owner => owner

/-- The pool, the objects it made by their address, and the closures that `CancelAll` queued.
The calls of `Execute` and their reports are recorded for the statements. -/
structure ConnectionPool where
  pool : UpstreamPool := {}
  objects : Pointer → Option UpstreamConnection := fun _ => none
  created : ℕ := 0
  dispatching : Bool := false
  deferred : List (List Pointer) := []
  executed : List Attempt := []
  reports : List Report := []

/-- A call of `Execute`, with the answers of the idle descriptors and the place of a new
connection. The owner names the call. -/
structure Call where
  owner : Attempt
  endpoint : Config.Endpoint
  fresh : Pointer
  peek : Pointer → Peek := fun _ => .wouldBlock

def Call.key (call : Call) : Key := toKey call.endpoint

/-- The objects at the addresses are destroyed. -/
def destroy (objects : Pointer → Option UpstreamConnection) (addresses : List Pointer) :
    Pointer → Option UpstreamConnection :=
  fun p => if p ∈ addresses then none else objects p

namespace ConnectionPool

section
variable (w : ConnectionPool)

/-- The connections that deferred closures own. -/
def pending : List Pointer := w.deferred.flatten

/-- The calls whose exchanges run. -/
def running : List Attempt :=
  w.pool.active.entries.map fun entry => entry.2.owner

def execution (call : Call) : Execution where
  endpoint := call.endpoint
  healthy p := (w.objects p).any fun c => c.healthyForReuse (call.peek p)
  fresh := call.fresh

/-- The connection that the search of `Execute` found. -/
def found (call : Call) : Option Pointer :=
  (borrow (w.execution call).healthy (w.pool.idleOf call.key)).1

/-- The objects after the search: those that failed the check are destroyed. -/
def searched (call : Call) : Pointer → Option UpstreamConnection :=
  destroy w.objects ((w.pool.idleOf call.key).takeWhile fun p => !(w.execution call).healthy p)

/-- The object `Execute` runs on. -/
def lent (call : Call) : Option UpstreamConnection :=
  match w.found call with
  | some p => w.searched call p
  | none => some { serial := w.created, key := call.key }

/-- `Execute` up to the first lines of `Start`. A new connection is placed where no other one
is. -/
def execute (w : ConnectionPool) (call : Call) : Option ConnectionPool :=
  if w.executed.contains call.owner ||
      (w.found call).isNone && (w.searched call call.fresh).isSome then none
  else do
    let pool ← w.pool.execute call.owner (w.execution call)
    let c ← w.lent call
    let c ← (c.setResponseCallback ⟨call.owner, call.key⟩).bind start
    return { w with
      pool
      objects := update (w.searched call) (w.pool.obtained (w.execution call)) (some c)
      created := if (w.found call).isSome then w.created else w.created + 1
      executed := w.executed ++ [call.owner] }

def setObject (p : Pointer) (c : Option UpstreamConnection) : ConnectionPool :=
  { w with objects := update w.objects p c }

/-- `Complete` with the callback of its user: the connection is parked, or destroyed. -/
def complete (w : ConnectionPool) (p : Pointer) (c : UpstreamConnection) (lease : Lease)
    (result : UpstreamResult) : ConnectionPool :=
  match w.pool.complete p c.isReusable with
  | none => w.setObject p (some c)
  | some (pool, _) =>
    { w.setObject p
        (if c.isReusable && (w.pool.idleOf lease.key).isEmpty then some c else none) with
      pool, reports := w.reports ++ [.answered lease.owner result] }

/-- `Finish` of a connection in an exchange; only reading leads to a success. -/
def finish (w : ConnectionPool) (p : Pointer) (e : ExchangeEnding) : Option ConnectionPool :=
  (w.objects p).bind fun c =>
    if !c.executing || e.result == .success && c.state != .reading then none
    else match c.finish e with
      | (c, none) => some (w.setObject p (some c))
      | (c, some lease) => some (w.complete p c lease e.result)

/-- Close an active connection and take it out of the map. -/
def drop (p : Pointer) (report : Attempt → Report) : ConnectionPool :=
  match w.pool.active.lookup p with
  | none => w
  | some lease =>
    { w.setObject p none with
      pool := w.pool.cancel p, reports := w.reports ++ [report lease.owner] }

def cancel (p : Pointer) : ConnectionPool := w.drop p .cancelled

/-- The handler of `Execute` for what `Start` throws. -/
def raise (p : Pointer) : ConnectionPool := w.drop p .raised

/-- Every active connection is closed, now or at the end of the batch. -/
def cancelAll (w : ConnectionPool) : ConnectionPool :=
  let connections := w.pool.cancelAll.2
  let suppressed : Pointer → Option UpstreamConnection := fun p =>
    if p ∈ connections then (w.objects p).map suppressCallbacks
    else w.objects p
  { w with
    pool := w.pool.cancelAll.1
    objects := if w.dispatching then suppressed else destroy suppressed connections
    deferred := if w.dispatching then w.deferred ++ [connections] else w.deferred
    reports := w.reports ++ w.running.map .cancelled }

/-- What happens to the pool. -/
inductive Event
  | execute (call : Call)
  /-- A connection comes to its next callback in `Start` or `HandleWrite`. -/
  | advance (p : Pointer)
  /-- `Start` of a connection throws. -/
  | raise (p : Pointer)
  /-- The exchange on a connection ends, inside `Start` or later. -/
  | finish (p : Pointer) (e : ExchangeEnding)
  | cancel (p : Pointer)
  | cancelAll
  /-- The loop begins or ends the dispatch of an event. -/
  | dispatch (flag : Bool)
  /-- The next closure of `CancelAll` runs. -/
  | task

/-- The state after an event; `none` when the event cannot happen. -/
def step : Event → Option ConnectionPool
  | .execute call => w.execute call
  | .advance p => (w.objects p).bind fun c => c.advance.map fun c => w.setObject p (some c)
  | .raise p => some (w.raise p)
  | .finish p e => w.finish p e
  | .cancel p => some (w.cancel p)
  | .cancelAll => some w.cancelAll
  | .dispatch flag => some { w with dispatching := flag }
  | .task =>
    match w.deferred with
    | [] => none
    | connections :: rest =>
      if w.dispatching then none
      else some { w with objects := destroy w.objects connections, deferred := rest }

end

/-- The object executes the exchange of a lease. -/
structure Runs (c : UpstreamConnection) (lease : Lease) : Prop where
  key : c.key = lease.key
  callback : c.callback = some lease
  executing : c.executing

/-- Every object is in one container, and as the container wants it. -/
structure Housed (w : ConnectionPool) : Prop where
  active : ∀ {p lease}, w.pool.active.lookup p = some lease →
    ∃ c, w.objects p = some c ∧ Runs c lease
  idle : ∀ {p key}, p ∈ w.pool.idleOf key →
    ∃ c, w.objects p = some c ∧ c.key = key ∧ c.Parked ∧ p ∉ w.pending
  short : ∀ key, (w.pool.idleOf key).length ≤ 1
  pending : ∀ {p}, p ∈ w.pending → ∃ c, w.objects p = some c ∧ c.callback = none
  nodup : w.pending.Nodup
  placed : ∀ {p c}, w.objects p = some c →
    (∃ lease, w.pool.active.lookup p = some lease) ∨ (∃ key, p ∈ w.pool.idleOf key) ∨ p ∈ w.pending

section
variable {w w' : ConnectionPool} {p q : Pointer} {c c' d : UpstreamConnection} {lease : Lease}
  {key : Key} {call : Call} {e : ExchangeEnding}

lemma Housed.init : Housed {} where
  active h := by simp at h
  idle h := by simp [idleOf] at h
  short key := by simp [idleOf]
  pending h := nomatch h
  nodup := nodup_nil
  placed h := nomatch h

/-! ### One container -/

section
variable (h : Housed w)
include h

lemma Housed.not_idle_of_active (hp : w.pool.active.lookup p = some lease)
    (key : Key) : p ∉ w.pool.idleOf key := by
  intro hidle
  obtain ⟨c, hc, hruns⟩ := h.active hp
  obtain ⟨d, hd, _, hparked, _⟩ := h.idle hidle
  cases hc.symm.trans hd
  cases hruns.callback.symm.trans hparked.callback

lemma Housed.not_pending_of_active (hp : w.pool.active.lookup p = some lease) :
    p ∉ w.pending := by
  intro hpending
  obtain ⟨c, hc, hruns⟩ := h.active hp
  obtain ⟨d, hd, hcallback⟩ := h.pending hpending
  cases hc.symm.trans hd
  cases hruns.callback.symm.trans hcallback

lemma Housed.key_unique {key' : Key} (hp : p ∈ w.pool.idleOf key)
    (hp' : p ∈ w.pool.idleOf key') : key = key' := by
  obtain ⟨c, hc, hkey, _⟩ := h.idle hp
  obtain ⟨d, hd, hkey', _⟩ := h.idle hp'
  cases hc.symm.trans hd
  exact hkey.symm.trans hkey'

lemma Housed.of_executing (hp : w.objects p = some c) (hexec : c.executing) :
    (∃ lease, w.pool.active.lookup p = some lease ∧ Runs c lease) ∨
      (p ∈ w.pending ∧ c.callback = none) := by
  rcases h.placed hp with ⟨lease, hactive⟩ | ⟨key, hidle⟩ | hpending
  · obtain ⟨d, hd, hruns⟩ := h.active hactive
    cases hp.symm.trans hd
    exact .inl ⟨lease, hactive, hruns⟩
  · obtain ⟨d, hd, _, hparked, _⟩ := h.idle hidle
    cases hp.symm.trans hd
    simp [UpstreamConnection.executing, hparked.reusable] at hexec
  · obtain ⟨d, hd, hcallback⟩ := h.pending hpending
    cases hp.symm.trans hd
    exact .inr ⟨hpending, hcallback⟩

/-! ### One object changes -/

lemma Housed.setObject (hp : w.objects p = some c) (hexec : c.executing)
    (hcallback : c'.callback = c.callback) (hruns : ∀ lease, Runs c lease → Runs c' lease) :
    Housed (w.setObject p (some c')) := by
  have hself : (w.setObject p (some c')).objects p = some c' := update_self p _ _
  have hne : ∀ {q}, q ≠ p → (w.setObject p (some c')).objects q = w.objects q :=
    fun hq => update_of_ne hq _ _
  refine ⟨fun {q lease} hq => ?_, fun {q key} hq => ?_, h.short, fun {q} hq => ?_, h.nodup,
    fun {q d} hd => ?_⟩
  · obtain ⟨d, hd, hrunsd⟩ := h.active hq
    by_cases hqp : q = p
    · subst hqp
      cases hp.symm.trans hd
      exact ⟨c', hself, hruns lease hrunsd⟩
    · exact ⟨d, (hne hqp).trans hd, hrunsd⟩
  · obtain ⟨d, hd, hkey, hparked, hpending⟩ := h.idle hq
    have hqp : q ≠ p := by
      rintro rfl
      cases hp.symm.trans hd
      simp [UpstreamConnection.executing, hparked.reusable] at hexec
    exact ⟨d, (hne hqp).trans hd, hkey, hparked, hpending⟩
  · obtain ⟨d, hd, hnone⟩ := h.pending hq
    by_cases hqp : q = p
    · subst hqp
      cases hp.symm.trans hd
      exact ⟨c', hself, hcallback.trans hnone⟩
    · exact ⟨d, (hne hqp).trans hd, hnone⟩
  · by_cases hqp : q = p
    · subst hqp
      exact h.placed hp
    · exact h.placed ((hne hqp).symm.trans hd)

lemma Housed.destroy (gone : List Pointer) (hobjects : w'.objects = Proxy.destroy w.objects gone)
    (hactive : ∀ q lease, w'.pool.active.lookup q = some lease ↔
      q ∉ gone ∧ w.pool.active.lookup q = some lease)
    (hidle : ∀ k, w'.pool.idleOf k = w.pool.idleOf k) (hkept : ∀ k, ∀ q ∈ w.pool.idleOf k, q ∉ gone)
    (hpending : ∀ q, q ∈ w'.pending ↔ q ∉ gone ∧ q ∈ w.pending) (hnodup : w'.pending.Nodup) :
    Housed w' := by
  have hne : ∀ {q}, q ∉ gone → w'.objects q = w.objects q := fun hq => by
    rw [hobjects, Proxy.destroy, if_neg hq]
  have hold : ∀ {q d}, w'.objects q = some d → q ∉ gone ∧ w.objects q = some d := by
    intro q d hd
    rw [hobjects, Proxy.destroy] at hd
    exact ite_none_left_eq_some.mp hd
  refine ⟨fun {q lease} hq => ?_, fun {q key} hq => ?_, fun key => ?_, fun {q} hq => ?_, hnodup,
    fun {q d} hd => ?_⟩
  · obtain ⟨hgone, hq⟩ := (hactive q lease).mp hq
    obtain ⟨d, hd, hruns⟩ := h.active hq
    exact ⟨d, (hne hgone).trans hd, hruns⟩
  · rw [hidle] at hq
    obtain ⟨d, hd, hkey, hparked, hout⟩ := h.idle hq
    exact ⟨d, (hne (hkept key q hq)).trans hd, hkey, hparked,
      fun hin => hout ((hpending q).mp hin).2⟩
  · rw [hidle]
    exact h.short key
  · obtain ⟨hgone, hq⟩ := (hpending q).mp hq
    obtain ⟨d, hd, hnone⟩ := h.pending hq
    exact ⟨d, (hne hgone).trans hd, hnone⟩
  · obtain ⟨hgone, hd⟩ := hold hd
    rcases h.placed hd with ⟨lease, hq⟩ | ⟨key, hq⟩ | hq
    · exact .inl ⟨lease, (hactive q lease).mpr ⟨hgone, hq⟩⟩
    · exact .inr (.inl ⟨key, (hidle key).symm ▸ hq⟩)
    · exact .inr (.inr ((hpending q).mpr ⟨hgone, hq⟩))

lemma Housed.release (hp : w.pool.active.lookup p = some lease)
    (hobjects : w'.objects = update w.objects p none)
    (hactive : w'.pool.active = (w.pool.cancel p).active)
    (hidle : ∀ k, w'.pool.idleOf k = w.pool.idleOf k) (hdeferred : w'.deferred = w.deferred) :
    Housed w' := by
  have hpending : w'.pending = w.pending := congrArg flatten hdeferred
  refine h.destroy [p] ?_ (fun q lease' => ?_) hidle (fun k q hq => ?_) (fun q => ?_)
    (hpending ▸ h.nodup)
  · rw [hobjects]
    ext1 q
    by_cases hq : q = p <;> simp [Proxy.destroy, hq]
  · rw [hactive, mem_singleton]
    refine ⟨fun hq => lookup_of_cancel hq, fun hq => ?_⟩
    exact (lookup_cancel_ne hq.1).trans hq.2
  · rw [mem_singleton]
    rintro rfl
    exact h.not_idle_of_active hp k hq
  · rw [hpending, mem_singleton]
    refine ⟨fun hq => ⟨?_, hq⟩, And.right⟩
    rintro rfl
    exact h.not_pending_of_active hp hq

lemma Housed.park (hp : w.pool.active.lookup p = some lease)
    (hkey : c'.key = lease.key) (hparked : c'.Parked)
    (hobjects : w'.objects = update w.objects p (some c'))
    (hactive : w'.pool.active = (w.pool.cancel p).active)
    (hidle : ∀ k, w'.pool.idleOf k = if k = lease.key then [p] else w.pool.idleOf k)
    (hempty : w.pool.idleOf lease.key = []) (hdeferred : w'.deferred = w.deferred) :
    Housed w' := by
  have hpending : w'.pending = w.pending := congrArg flatten hdeferred
  have hself : w'.objects p = some c' := by rw [hobjects, update_self]
  have hne : ∀ {q}, q ≠ p → w'.objects q = w.objects q := fun hq => by
    rw [hobjects, update_of_ne hq]
  refine ⟨fun {q lease'} hq => ?_, fun {q key} hq => ?_, fun key => ?_, fun {q} hq => ?_,
    hpending ▸ h.nodup, fun {q d} hd => ?_⟩
  · rw [hactive] at hq
    obtain ⟨hqp, hq⟩ := lookup_of_cancel hq
    obtain ⟨d, hd, hruns⟩ := h.active hq
    exact ⟨d, (hne hqp).trans hd, hruns⟩
  · rw [hpending]
    by_cases hk : key = lease.key
    · rw [hidle, if_pos hk, mem_singleton] at hq
      subst hq
      exact ⟨c', hself, hkey.trans hk.symm, hparked, h.not_pending_of_active hp⟩
    rw [hidle, if_neg hk] at hq
    obtain ⟨d, hd, hin⟩ := h.idle hq
    have hqp : q ≠ p := by
      rintro rfl
      exact h.not_idle_of_active hp key hq
    exact ⟨d, (hne hqp).trans hd, hin⟩
  · rw [hidle]
    split
    · exact Nat.le_refl 1
    · exact h.short key
  · rw [hpending] at hq
    obtain ⟨d, hd, hnone⟩ := h.pending hq
    have hqp : q ≠ p := by
      rintro rfl
      exact h.not_pending_of_active hp hq
    exact ⟨d, (hne hqp).trans hd, hnone⟩
  by_cases hqp : q = p
  · exact .inr (.inl ⟨lease.key, by simp [hidle, hqp]⟩)
  rw [hne hqp] at hd
  rcases h.placed hd with ⟨lease', hq⟩ | ⟨key, hq⟩ | hq
  · rw [hactive]
    exact .inl ⟨lease', (lookup_cancel_ne hqp).trans hq⟩
  · have hk : key ≠ lease.key := by
      rintro rfl
      simp [hempty] at hq
    exact .inr (.inl ⟨key, by rwa [hidle, if_neg hk]⟩)
  · exact .inr (.inr (hpending ▸ hq))

lemma Housed.drop (p : Pointer) (report : Attempt → Report) : Housed (w.drop p report) := by
  rw [ConnectionPool.drop]
  split
  · exact h
  next lease hp => exact h.release hp rfl rfl (fun k => rfl) rfl

lemma Housed.complete (hp : w.pool.active.lookup p = some lease)
    (hruns : Runs c lease) (result : UpstreamResult) :
    Housed (w.complete p (c.finish e).1 lease result) := by
  have hstate := ne_finished_of_executing hruns.executing
  obtain ⟨pool, hpool⟩ := complete_of_active (c.finish e).1.isReusable hp
  have hactive := (complete_active hpool).2
  have hidle := complete_idle hpool
  rw [ConnectionPool.complete, hpool]
  by_cases hpark : ((c.finish e).1.isReusable && (w.pool.idleOf lease.key).isEmpty)
  · rw [if_pos hpark]
    simp only [hpark, and_true] at hidle
    rw [Bool.and_eq_true, List.isEmpty_iff] at hpark
    exact h.park hp (finish_kept.2.trans hruns.key)
      (parked_of_finish hstate hpark.1) rfl hactive hidle hpark.2 rfl
  · rw [if_neg hpark]
    exact h.release hp rfl hactive (fun k => (hidle k).trans (if_neg fun hk => hpark hk.2)) rfl

/-- The end of an exchange goes to `Complete`, unless it was cancelled. -/
lemma Housed.finish_cases (hfinish : w.finish p e = some w') :
    ∃ c, w.objects p = some c ∧ c.executing ∧
      ((∃ lease, w.pool.active.lookup p = some lease ∧ Runs c lease ∧
          w' = w.complete p (c.finish e).1 lease e.result) ∨
        c.callback = none ∧ w' = w.setObject p (some (c.finish e).1)) := by
  obtain ⟨c, hc, hfinish⟩ := bind_eq_some_iff.mp hfinish
  obtain ⟨hguard, hfinish⟩ := ite_none_left_eq_some.mp hfinish
  have hexec : c.executing := by
    simp only [Bool.or_eq_true, Bool.not_eq_true', not_or, Bool.not_eq_false] at hguard
    exact hguard.1
  have hcallback : (c.finish e).2 = c.callback :=
    (finish_callback (ne_finished_of_executing hexec)).1
  refine ⟨c, hc, hexec, ?_⟩
  rcases h.of_executing hc hexec with ⟨lease, hactive, hruns⟩ | ⟨_, hsuppressed⟩
  · rw [hruns.callback] at hcallback
    rw [show c.finish e = ((c.finish e).1, some lease) from Prod.ext rfl hcallback] at hfinish
    exact .inl ⟨lease, hactive, hruns, (Option.some.inj hfinish).symm⟩
  · rw [hsuppressed] at hcallback
    rw [show c.finish e = ((c.finish e).1, none) from Prod.ext rfl hcallback] at hfinish
    exact .inr ⟨hsuppressed, (Option.some.inj hfinish).symm⟩

lemma Housed.finish (hfinish : w.finish p e = some w') : Housed w' := by
  obtain ⟨c, hc, hexec, ⟨lease, hactive, hruns, rfl⟩ | ⟨hsuppressed, rfl⟩⟩ := h.finish_cases hfinish
  · exact h.complete hactive hruns e.result
  · have hnone := (finish_callback (e := e)
      (ne_finished_of_executing hexec)).2
    refine h.setObject hc hexec (hnone.trans hsuppressed.symm) fun lease hruns => ?_
    cases hruns.callback.symm.trans hsuppressed

lemma Housed.advance (hc : w.objects p = some c) (hadvance : c.advance = some c') :
    Housed (w.setObject p (some c')) := by
  obtain ⟨hexec, hexec'⟩ := executing_of_advance hadvance
  obtain ⟨_, hkey, hcallback⟩ := advance_kept hadvance
  exact h.setObject hc hexec hcallback fun lease hruns =>
    ⟨hkey.trans hruns.key, hcallback.trans hruns.callback, hexec'⟩

end

/-! ### Cancelled connections -/

lemma mem_active_keys : p ∈ w.pool.active.keys ↔ ∃ lease, w.pool.active.lookup p = some lease := by
  rw [← AList.mem_keys, ← AList.lookup_isSome, isSome_iff_exists]

lemma Housed.not_key_of_idle (h : Housed w) (hp : p ∈ w.pool.idleOf key) :
    p ∉ w.pool.active.keys := by
  intro hkey
  obtain ⟨lease, hlease⟩ := mem_active_keys.mp hkey
  exact h.not_idle_of_active hlease key hp

lemma Housed.not_key_of_pending (h : Housed w) (hp : p ∈ w.pending) : p ∉ w.pool.active.keys := by
  intro hkey
  obtain ⟨lease, hlease⟩ := mem_active_keys.mp hkey
  exact h.not_pending_of_active hlease hp

lemma Housed.defer (h : Housed w) (hobjects : ∀ q, w'.objects q = if q ∈ w.pool.active.keys
      then (w.objects q).map suppressCallbacks else w.objects q)
    (hactive : w'.pool.active = ∅) (hidle : ∀ k, w'.pool.idleOf k = w.pool.idleOf k)
    (hpending : w'.pending = w.pending ++ w.pool.active.keys) : Housed w' := by
  have hne : ∀ {q}, q ∉ w.pool.active.keys → w'.objects q = w.objects q :=
    fun hq => (hobjects _).trans (if_neg hq)
  refine ⟨fun hq => ?_, fun {q key} hq => ?_, fun key => ?_, fun {q} hq => ?_, ?_,
    fun {q d} hd => ?_⟩
  · rw [hactive, lookup_empty] at hq
    cases hq
  · rw [hidle] at hq
    obtain ⟨d, hd, hkey, hparked, hout⟩ := h.idle hq
    refine ⟨d, (hne (h.not_key_of_idle hq)).trans hd, hkey, hparked, fun hin => ?_⟩
    rw [hpending] at hin
    rcases mem_append.mp hin with hin | hin
    · exact hout hin
    · exact h.not_key_of_idle hq hin
  · rw [hidle]
    exact h.short key
  · rw [hpending] at hq
    rcases mem_append.mp hq with hq | hq
    · obtain ⟨d, hd, hnone⟩ := h.pending hq
      exact ⟨d, (hne (h.not_key_of_pending hq)).trans hd, hnone⟩
    · obtain ⟨lease, hlease⟩ := mem_active_keys.mp hq
      obtain ⟨d, hd, _⟩ := h.active hlease
      exact ⟨d.suppressCallbacks, by simp [hobjects, hq, hd], rfl⟩
  · rw [hpending]
    exact List.Nodup.append h.nodup w.pool.active.keys_nodup fun q hq => h.not_key_of_pending hq
  by_cases hq : q ∈ w.pool.active.keys
  · exact .inr (.inr (hpending ▸ mem_append_right w.pending hq))
  · rcases h.placed ((hne hq).symm.trans hd) with hin | ⟨key, hin⟩ | hin
    · exact absurd (mem_active_keys.mpr hin) hq
    · exact .inr (.inl ⟨key, (hidle key).symm ▸ hin⟩)
    · exact .inr (.inr (hpending ▸ mem_append_left w.pool.active.keys hin))

lemma Housed.cancelAll (h : Housed w) : Housed w.cancelAll := by
  cases hflag : w.dispatching with
  | true =>
    refine h.defer (fun q => ?_) rfl (fun k => rfl) ?_
    · by_cases hq : q ∈ w.pool.active.keys <;>
        simp [ConnectionPool.cancelAll, hflag, UpstreamPool.cancelAll, hq]
    · simp [ConnectionPool.cancelAll, hflag, UpstreamPool.cancelAll, ConnectionPool.pending]
  | false =>
    have hpending : w.cancelAll.pending = w.pending := by
      simp [ConnectionPool.cancelAll, hflag, ConnectionPool.pending]
    refine h.destroy w.pool.active.keys ?_ (fun q lease => ?_) (fun k => rfl)
      (fun k q hq => h.not_key_of_idle hq) (fun q => ?_) (hpending ▸ h.nodup)
    · ext1 q
      by_cases hq : q ∈ w.pool.active.keys <;>
        simp [ConnectionPool.cancelAll, hflag, UpstreamPool.cancelAll, Proxy.destroy, hq]
    · refine ⟨fun hq => by simp [ConnectionPool.cancelAll, UpstreamPool.cancelAll] at hq,
        fun hq => absurd ?_ hq.1⟩
      exact mem_active_keys.mpr ⟨lease, hq.2⟩
    · rw [hpending]
      exact ⟨fun hq => ⟨h.not_key_of_pending hq, hq⟩, And.right⟩

lemma Housed.task (h : Housed w) {connections : List Pointer} {rest : List (List Pointer)}
    (hdeferred : w.deferred = connections :: rest) :
    Housed { w with objects := Proxy.destroy w.objects connections, deferred := rest } := by
  have hpending : w.pending = connections ++ rest.flatten := by
    rw [ConnectionPool.pending, hdeferred, flatten_cons]
  have hnodup := h.nodup
  rw [hpending, nodup_append] at hnodup
  refine h.destroy connections rfl (fun q lease => ?_) (fun k => rfl) (fun k q hq hin => ?_)
    (fun q => ?_) hnodup.2.1
  · refine ⟨fun hq => ⟨fun hin => ?_, hq⟩, And.right⟩
    exact h.not_pending_of_active hq (hpending ▸ mem_append_left rest.flatten hin)
  · obtain ⟨_, _, _, _, hout⟩ := h.idle hq
    exact hout (hpending ▸ mem_append_left rest.flatten hin)
  · rw [hpending, mem_append]
    refine ⟨fun hq => ⟨fun hin => hnodup.2.2 q hin q hq rfl, .inr hq⟩, fun hq => ?_⟩
    exact hq.2.resolve_left hq.1

/-! ### A connection is lent -/

/-- What a call of `Execute` did: it emptied the deque of the endpoint and runs the exchange
on a connection that was there and passed the check, or on a new one. -/
structure Lends (w : ConnectionPool) (call : Call) (w' : ConnectionPool) (p : Pointer)
    (c : UpstreamConnection) : Prop where
  owner : call.owner ∉ w.executed
  absent : w.pool.active.lookup p = none
  active : w'.pool.active = w.pool.active.insert p ⟨call.owner, call.key⟩
  idle : ∀ k, w'.pool.idleOf k = if k = call.key then [] else w.pool.idleOf k
  objects : w'.objects = update (destroy w.objects (w.pool.idleOf call.key)) p (some c)
  runs : Runs c ⟨call.owner, call.key⟩
  source : (∃ c₀, w.objects p = some c₀ ∧ p ∈ w.pool.idleOf call.key ∧
      c₀.healthyForReuse (call.peek p) ∧ c.serial = c₀.serial ∧ w'.created = w.created) ∨
    (destroy w.objects (w.pool.idleOf call.key) p = none ∧ c.serial = w.created ∧
      w'.created = w.created + 1)
  deferred : w'.deferred = w.deferred
  executed : w'.executed = w.executed ++ [call.owner]
  reports : w'.reports = w.reports

lemma Housed.found_some (h : Housed w) (hfound : w.found call = some p) :
    w.pool.idleOf call.key = [p] ∧ w.searched call = w.objects ∧
      ∃ c, w.objects p = some c ∧ c.key = call.key ∧ c.healthyForReuse (call.peek p) := by
  obtain ⟨hmem, hhealthy⟩ := borrow_some hfound
  have hdeque : w.pool.idleOf call.key = [p] := by
    have hshort := h.short call.key
    match hlist : w.pool.idleOf call.key, hshort with
    | [], _ => simp [hlist] at hmem
    | [q], _ =>
      rw [hlist, mem_singleton] at hmem
      rw [hmem]
  obtain ⟨c, hc, hkey, _⟩ := h.idle hmem
  refine ⟨hdeque, ?_, c, hc, hkey, ?_⟩
  · ext1 q
    simp [searched, hdeque, hhealthy, Proxy.destroy]
  · simpa [execution, hc] using hhealthy

lemma searched_of_found_none (hfound : w.found call = none) :
    w.searched call = Proxy.destroy w.objects (w.pool.idleOf call.key) := by
  have hunhealthy := borrow_none hfound
  rw [searched, takeWhile_eq_self_iff.mpr fun q hq => by simp [hunhealthy q hq]]

lemma Housed.lends (h : Housed w) (hexec : w.execute call = some w') :
    ∃ p c, Lends w call w' p c := by
  obtain ⟨hguard, hexec⟩ := ite_none_left_eq_some.mp hexec
  obtain ⟨pool, hpool, hexec⟩ := bind_eq_some_iff.mp hexec
  obtain ⟨c₀, hlent, hexec⟩ := bind_eq_some_iff.mp hexec
  obtain ⟨c, hc, hexec⟩ := bind_eq_some_iff.mp hexec
  simp only [Bool.or_eq_true, contains_iff_mem, Bool.and_eq_true, not_or] at hguard
  obtain ⟨habsent, houtcome⟩ := execute_active hpool
  have hactive := houtcome.resolve_right fun hne => hne.1 rfl
  have hidle : ∀ k, pool.idleOf k = if k = call.key then [] else w.pool.idleOf k := by
    intro k
    rw [execute_idle hpool rfl, borrow_of_short (h.short _)]
    rfl
  refine ⟨w.pool.obtained (w.execution call), c, ?_⟩
  cases hexec
  have hobtained : w.pool.obtained (w.execution call) = (w.found call).getD call.fresh := rfl
  cases hfound : w.found call with
  | some p =>
    obtain ⟨hdeque, hsearched, c₁, hc₁, hkey, hhealthy⟩ := h.found_some hfound
    rw [hfound, getD_some] at hobtained
    have hidle₁ := state_of_isReusable
      (healthyForReuse_iff.mp hhealthy).1
    simp only [lent, hfound, hsearched, hc₁, Option.some.injEq] at hlent
    subst hlent
    rw [lend_of_idle hidle₁] at hc
    cases hc
    rw [hobtained] at habsent hactive ⊢
    refine ⟨hguard.1, habsent, hactive.2, hidle, ?_, ⟨hkey, rfl, ?_⟩, .inl ?_, rfl, rfl, rfl⟩
    · ext1 q
      by_cases hq : q = p <;> simp [hq, hsearched, hdeque, Proxy.destroy]
    · simp [UpstreamConnection.executing, isReusable, hidle₁]
    · exact ⟨c₁, hc₁, by simp [hdeque], hhealthy, rfl, rfl⟩
  | none =>
    have hsearched := searched_of_found_none hfound
    rw [hfound, getD_none] at hobtained
    rw [lent, hfound] at hlent
    cases hlent
    rw [lend_of_idle rfl] at hc
    cases hc
    rw [hobtained] at habsent hactive ⊢
    refine ⟨hguard.1, habsent, hactive.2, hidle, by rw [hsearched], ⟨rfl, rfl, rfl⟩, .inr ?_, rfl,
      rfl, rfl⟩
    refine ⟨?_, rfl, rfl⟩
    rw [← hsearched]
    simpa [hfound] using hguard.2

lemma Lends.kept (hl : Lends w call w' p c) (hq : w.objects q = some d)
    (hidle : q ∉ w.pool.idleOf call.key) : q ≠ p ∧ w'.objects q = w.objects q := by
  have hkept : Proxy.destroy w.objects (w.pool.idleOf call.key) q = w.objects q := if_neg hidle
  have hne : q ≠ p := by
    rintro rfl
    rcases hl.source with ⟨_, _, hmem, _⟩ | ⟨hnone, _⟩
    · exact hidle hmem
    · rw [hkept, hq] at hnone
      cases hnone
  exact ⟨hne, by rw [hl.objects, update_of_ne hne, hkept]⟩

lemma Lends.self (hl : Lends w call w' p c) : w'.objects p = some c := by
  rw [hl.objects, update_self]

lemma Lends.old (hl : Lends w call w' p c) (hq : w'.objects q = some d) :
    q = p ∧ d = c ∨ q ≠ p ∧ q ∉ w.pool.idleOf call.key ∧ w.objects q = some d := by
  by_cases hqp : q = p
  · subst hqp
    cases hl.self.symm.trans hq
    exact .inl ⟨rfl, rfl⟩
  · rw [hl.objects, update_of_ne hqp, Proxy.destroy] at hq
    exact .inr ⟨hqp, ite_none_left_eq_some.mp hq⟩

lemma Housed.execute (h : Housed w) (hl : Lends w call w' p c) : Housed w' := by
  have hpending : w'.pending = w.pending := congrArg flatten hl.deferred
  refine ⟨fun {q lease} hq => ?_, fun {q key} hq => ?_, fun key => ?_, fun {q} hq => ?_,
    hpending ▸ h.nodup, fun {q d} hd => ?_⟩
  · rw [hl.active] at hq
    by_cases hqp : q = p
    · subst hqp
      rw [lookup_insert] at hq
      cases hq
      exact ⟨c, hl.self, hl.runs⟩
    · rw [lookup_insert_ne hqp] at hq
      obtain ⟨d, hd, hruns⟩ := h.active hq
      exact ⟨d, (hl.kept hd (h.not_idle_of_active hq call.key)).2.trans hd, hruns⟩
  · rw [hl.idle] at hq
    split at hq
    · cases hq
    next hkey =>
      obtain ⟨d, hd, hin⟩ := h.idle hq
      have hout : q ∉ w.pool.idleOf call.key := fun hq' => hkey (h.key_unique hq hq')
      rw [hpending]
      exact ⟨d, (hl.kept hd hout).2.trans hd, hin⟩
  · rw [hl.idle]
    split
    · exact Nat.zero_le 1
    · exact h.short key
  · rw [hpending] at hq
    obtain ⟨d, hd, hnone⟩ := h.pending hq
    have hout : q ∉ w.pool.idleOf call.key := by
      intro hidle
      obtain ⟨_, _, _, _, hout⟩ := h.idle hidle
      exact hout hq
    exact ⟨d, (hl.kept hd hout).2.trans hd, hnone⟩
  rw [hpending, hl.active]
  rcases hl.old hd with ⟨rfl, rfl⟩ | ⟨hqp, hout, hd⟩
  · exact .inl ⟨_, lookup_insert w.pool.active⟩
  rcases h.placed hd with ⟨lease, hq⟩ | ⟨key, hq⟩ | hq
  · exact .inl ⟨lease, (lookup_insert_ne hqp).trans hq⟩
  · have hkey : key ≠ call.key := by
      rintro rfl
      exact hout hq
    exact .inr (.inl ⟨key, by rwa [hl.idle, if_neg hkey]⟩)
  · exact .inr (.inr hq)

end
end ConnectionPool
end AegisGate.Proxy
