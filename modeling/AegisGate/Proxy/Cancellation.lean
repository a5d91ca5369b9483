import AegisGate.Proxy.Lifecycle
import AegisGate.Proxy.UpstreamPool

/-!
# Deferred cancellation

A client abort cancels the upstream exchange at the end of the batch: the task queued by
`HandleClientAbort` holds the address of the connection, nothing more. In between the pool
may take the exchange's end, park the connection, and lend it to another transaction, and
the allocator may place a new connection at the address of a destroyed one.

A `Worker` is the pool with the transactions that use it and the tasks of its event loop.
A batch is a list of events with the tasks at its end; the runs here also have the tasks
anywhere between the events.
-/

namespace AegisGate.Proxy
open Lib UpstreamPool Lifecycle Function List Option

/-- What a transaction keeps for the pool's sake: `finished_` and `active_connection_`, and
the number of its attempts. -/
structure Borrower where
  started : Bool := false
  destroyed : Bool := false
  finished : Bool := false
  activeConnection : Option Pointer := none
  attempts : ℕ := 0

def Borrower.exists_ (b : Borrower) : Bool := b.started && !b.destroyed

inductive Task
  /-- The cancellation of `HandleClientAbort`. The task captures the address; the attempt it
  is meant for is recorded for the statements. -/
  | cancel (owner : Attempt) (connection : Option Pointer)
  /-- A retry of `HandleUpstream`. -/
  | retry (transaction : ℕ)
  /-- The closing of `CancelAll`. -/
  | close (pending : List Pointer)
  deriving DecidableEq

/-- The pool, the transactions and the tasks of one event loop. -/
structure Worker where
  pool : UpstreamPool := {}
  borrowers : ℕ → Borrower := fun _ => {}
  deferred : List Task := []

/-- How the end of an exchange is taken: the connection goes back to its deque, or it is
closed, or it is closed and the attempt is retried. -/
inductive Ending
  | reused
  | closed
  | retried
  deriving DecidableEq

namespace Worker

section
variable (w : Worker)

def update (w : Worker) (tx : ℕ) (b : Borrower) : Worker :=
  { w with borrowers := Function.update w.borrowers tx b }

def handleUpstream (tx : ℕ) (retry : Bool) : Worker :=
  let b := w.borrowers tx
  if b.finished then w
  else if retry then
    { w.update tx { b with activeConnection := none } with deferred := w.deferred ++ [.retry tx] }
  else w.update tx { b with activeConnection := none, finished := true }

def handleClientAbort (tx : ℕ) : Worker :=
  let b := w.borrowers tx
  if b.finished then w
  else { w.update tx { b with finished := true } with
    deferred := w.deferred ++ [.cancel ⟨tx, b.attempts - 1⟩ b.activeConnection] }

def finishGatewayTimeout (tx : ℕ) : Worker :=
  let b := w.borrowers tx
  if b.finished then w
  else { w.update tx { b with finished := true, activeConnection := none } with
    pool := match b.activeConnection with
      | none => w.pool
      | some connection => w.pool.cancel connection }

/-- The addresses that queued tasks keep alive. -/
def pending : List Pointer := w.deferred.flatMap fun
  | .close connections => connections
  | _ => []

/-- `StartUpstream` from `Execute` on; without an execution there was no endpoint, and the
transaction ends. -/
def startUpstream (tx : ℕ) (launch : Option Execution) (retry : Bool) : Option Worker :=
  let b := w.borrowers tx
  match launch with
  | none => some (w.update tx { b with finished := true })
  | some ex =>
    if w.pending.contains ex.fresh then none
    else (w.pool.execute ⟨tx, b.attempts⟩ ex).map fun pool =>
      match ex.outcome with
      | .pending => { w.update tx { b with
          attempts := b.attempts + 1, activeConnection := some (w.pool.obtained ex) } with pool }
      | _ => { w.update tx { b with attempts := b.attempts + 1 } with pool }.handleUpstream tx retry

/-- `CancelAll`. The callbacks held the transactions of the active exchanges. -/
def cancelAll (w : Worker) (dispatching : Bool) : Worker where
  pool := w.pool.cancelAll.1
  borrowers tx := { w.borrowers tx with
    destroyed := (w.borrowers tx).destroyed ||
      w.pool.active.entries.any fun entry => entry.2.owner.transaction == tx }
  deferred := if dispatching then w.deferred ++ [.close w.pool.cancelAll.2] else w.deferred

/-- What happens between the handlers of a batch. -/
inductive Event
  /-- A request arrives. -/
  | start (tx : ℕ) (launch : Option Execution) (retry : Bool)
  /-- The exchange on a connection ends. -/
  | complete (connection : Pointer) (ending : Ending)
  /-- The client of a transaction is gone. -/
  | abort (tx : ℕ)
  /-- A deadline of a transaction expires. -/
  | timeout (tx : ℕ)
  /-- The next task runs; the launch is for a retry. -/
  | task (launch : Option Execution) (retry : Bool)
  | cancelAll (dispatching : Bool)

def runTask (launch : Option Execution) (retry : Bool) : Task → Option Worker
  | .cancel _ (some connection) => some { w with pool := w.pool.cancel connection }
  | .cancel _ none => some w
  | .retry tx => if (w.borrowers tx).finished then some w else w.startUpstream tx launch retry
  | .close _ => some w

/-- The state after an event; `none` when the event cannot happen. -/
def step : Event → Option Worker
  | .start tx launch retry =>
    if (w.borrowers tx).started then none
    else (w.update tx { started := true }).startUpstream tx launch retry
  | .complete connection ending =>
    (w.pool.complete connection (ending == Ending.reused)).map fun (pool, lease) =>
      { w with pool }.handleUpstream lease.owner.transaction (ending == Ending.retried)
  | .abort tx => if (w.borrowers tx).exists_ then some (w.handleClientAbort tx) else none
  | .timeout tx => if (w.borrowers tx).exists_ then some (w.finishGatewayTimeout tx) else none
  | .task launch retry =>
    match w.deferred with
    | [] => none
    | task :: rest => { w with deferred := rest }.runTask launch retry task
  | .cancelAll dispatching => some (w.cancelAll dispatching)

/-! ## What a cancellation may touch -/

/-- A queued cancellation, when it runs, closes no exchange but the one of the attempt it was
queued for. -/
def SparesOthers (e : Event) : Prop :=
  ∀ owner connection rest launch retry, e = .task launch retry →
    w.deferred = .cancel owner connection :: rest → ∀ w', w.step e = some w' →
      ∀ q lease, w.pool.active.lookup q = some lease → lease.owner ≠ owner →
        w'.pool.active.lookup q = some lease

/-- The address at which the event starts an exchange, if it does. -/
def startsAt : Event → Option Pointer
  | .start _ launch _ => launch.map w.pool.obtained
  | .task launch _ => match w.deferred with
      | .retry _ :: _ => launch.map w.pool.obtained
      | _ => none
  | _ => none

/-- No exchange starts at an address that a queued cancellation holds. -/
def Unclaimed (e : Event) : Prop :=
  ∀ connection, w.startsAt e = some connection →
    ∀ owner, .cancel owner (some connection) ∉ w.deferred

end

/-- The addresses that transactions and tasks hold are those of their own exchanges. -/
structure Sound (w : Worker) : Prop where
  holds : ∀ tx connection, (w.borrowers tx).exists_ → (w.borrowers tx).finished = false →
    (w.borrowers tx).activeConnection = some connection →
      ∃ key, w.pool.active.lookup connection = some ⟨⟨tx, (w.borrowers tx).attempts - 1⟩, key⟩
  aborted : ∀ owner connection, .cancel owner connection ∈ w.deferred →
    (w.borrowers owner.transaction).started ∧ (w.borrowers owner.transaction).finished
  targeted : ∀ owner connection lease, .cancel owner (some connection) ∈ w.deferred →
    w.pool.active.lookup connection = some lease → lease.owner = owner

/-! ## Step lemmas -/

section
variable {w w' : Worker} {tx : ℕ} {retry : Bool} {launch : Option Execution}

lemma Sound.release (h : w.Sound) {b : Borrower} {pool : UpstreamPool} {tasks : List Task}
    (hidle : b.finished ∨ b.activeConnection = none)
    (hb : (w.borrowers tx).started → (w.borrowers tx).finished →
      b.started ∧ b.finished)
    (hless : ∀ q lease, pool.active.lookup q = some lease → w.pool.active.lookup q = some lease)
    (hkeep : ∀ q lease, w.pool.active.lookup q = some lease → lease.owner.transaction ≠ tx →
      pool.active.lookup q = some lease)
    (htasks : ∀ owner connection, .cancel owner connection ∈ tasks →
      .cancel owner connection ∈ w.deferred) :
    Sound { pool, borrowers := Function.update w.borrowers tx b, deferred := tasks } := by
  refine ⟨fun tx' connection hexists hfin hactive => ?_, fun owner connection hmem => ?_,
    fun owner connection lease hmem hlookup =>
      h.targeted owner connection lease (htasks _ _ hmem) (hless _ _ hlookup)⟩
  · by_cases htx : tx' = tx
    · subst htx
      simp only [update_self] at hfin hactive
      rcases hidle with hdone | hnone
      · exact absurd (hdone.symm.trans hfin) nofun
      · exact absurd (hnone.symm.trans hactive) nofun
    · simp only [update_of_ne htx] at hexists hfin hactive ⊢
      obtain ⟨key, hlookup⟩ := h.holds tx' connection hexists hfin hactive
      exact ⟨key, hkeep _ _ hlookup htx⟩
  have haborted := h.aborted owner connection (htasks _ _ hmem)
  by_cases htx : owner.transaction = tx
  · rw [htx] at haborted ⊢
    simp only [update_self]
    exact hb haborted.1 haborted.2
  · simp only [update_of_ne htx]
    exact haborted

/-- What `HandleUpstream` leaves behind. -/
lemma handleUpstream_eq (w : Worker) (tx : ℕ) (retry : Bool) : ∃ b tasks,
    w.handleUpstream tx retry =
      { pool := w.pool, borrowers := Function.update w.borrowers tx b, deferred := tasks } ∧
    (b.finished ∨ b.activeConnection = none) ∧
    b.started = (w.borrowers tx).started ∧
    ((w.borrowers tx).finished → b.finished) ∧
    ∀ owner connection, .cancel owner connection ∈ tasks →
    .cancel owner connection ∈ w.deferred := by
  rw [handleUpstream]
  split
  · next hfin =>
    exact ⟨w.borrowers tx, w.deferred, by rw [update_eq_self], .inl hfin, rfl, id,
      fun _ _ => id⟩
  · next hfin =>
    split
    · exact ⟨_, _, rfl, .inr rfl, rfl, id, by simp⟩
    · exact ⟨_, _, rfl, .inl rfl, rfl, fun _ => rfl, fun _ _ => id⟩

lemma Sound.complete (h : w.Sound) {pool : UpstreamPool} {connection : Pointer} {reusable : Bool}
    {lease : Lease} (hcomplete : w.pool.complete connection reusable = some (pool, lease)) :
    Sound ({ w with pool }.handleUpstream lease.owner.transaction retry) := by
  obtain ⟨hlookup, hactive⟩ := complete_active hcomplete
  obtain ⟨b, tasks, heq, hidle, hstarted, hfin, htasks⟩ :=
    handleUpstream_eq { w with pool } lease.owner.transaction retry
  rw [heq]
  refine h.release hidle (fun hs hf => ⟨hstarted.trans hs, hfin hf⟩) ?_ ?_ htasks
  · intro q lease' hq
    rw [hactive] at hq
    exact (lookup_of_cancel hq).2
  intro q lease' hq hother
  rw [hactive, lookup_cancel_ne]
  · exact hq
  · rintro rfl
    rw [hlookup] at hq
    cases hq
    exact hother rfl

lemma Sound.handleClientAbort (h : w.Sound) (hexists : (w.borrowers tx).exists_) :
    Sound (w.handleClientAbort tx) := by
  rw [Worker.handleClientAbort]
  split
  · exact h
  next hfin =>
  have hstarted : (w.borrowers tx).started := by
    rw [Borrower.exists_, Bool.and_eq_true] at hexists
    exact hexists.1
  have hold : Sound (w.update tx { w.borrowers tx with finished := true }) :=
    h.release (.inl rfl) (fun _ _ => ⟨hstarted, rfl⟩) (fun _ _ => id) (fun _ _ hq _ => hq)
      (fun _ _ => id)
  refine ⟨hold.holds, fun owner connection hmem => ?_,
    fun owner connection lease hmem hlookup => ?_⟩
  · rcases mem_append.mp hmem with hmem | hmem
    · exact hold.aborted owner connection hmem
    · cases mem_singleton.mp hmem
      simp [update, hstarted]
  rcases mem_append.mp hmem with hmem | hmem
  · exact hold.targeted owner connection lease hmem hlookup
  obtain ⟨rfl, hconnection⟩ := Task.cancel.inj (mem_singleton.mp hmem)
  obtain ⟨key, hown⟩ := h.holds tx connection hexists (Bool.eq_false_iff.mpr hfin)
    hconnection.symm
  rw [show w.pool.active.lookup connection = some lease from hlookup] at hown
  cases hown
  rfl

lemma Sound.finishGatewayTimeout (h : w.Sound) (hexists : (w.borrowers tx).exists_) :
    Sound (w.finishGatewayTimeout tx) := by
  rw [Worker.finishGatewayTimeout]
  split
  · exact h
  next hfin =>
  have hstarted : (w.borrowers tx).started := by
    rw [Borrower.exists_, Bool.and_eq_true] at hexists
    exact hexists.1
  refine h.release (.inl rfl) (fun _ _ => ⟨hstarted, rfl⟩) ?_ ?_ (fun _ _ => id)
  · intro q lease hq
    split at hq
    · exact hq
    · exact (lookup_of_cancel hq).2
  intro q lease hq hother
  split
  · exact hq
  next connection hactive =>
  rw [lookup_cancel_ne]
  · exact hq
  · rintro rfl
    obtain ⟨key, hown⟩ := h.holds tx q hexists (Bool.eq_false_iff.mpr hfin) hactive
    rw [hown] at hq
    cases hq
    exact hother rfl

lemma Sound.startUpstream (h : w.Sound) (hfin : (w.borrowers tx).finished = false)
    (hclaim : ∀ ex, launch = some ex → ∀ owner,
      .cancel owner (some (w.pool.obtained ex)) ∉ w.deferred)
    (heq : w.startUpstream tx launch retry = some w') : Sound w' := by
  rw [Worker.startUpstream.eq_def] at heq
  cases launch with
  | none =>
    cases heq
    exact h.release (.inl rfl) (fun hs _ => ⟨hs, rfl⟩) (fun _ _ => id) (fun _ _ hq _ => hq)
      (fun _ _ => id)
  | some ex =>
    dsimp only at heq
    split at heq
    · cases heq
    obtain ⟨pool, hexecute, rfl⟩ := map_eq_some_iff.mp heq
    obtain ⟨habsent, ⟨houtcome, hactive⟩ | ⟨houtcome, hactive⟩⟩ :=
      execute_active hexecute
    · rw [houtcome]
      refine ⟨fun tx' connection hexists hfin' hconnection => ?_, fun owner connection hmem => ?_,
        fun owner connection lease hmem hlookup => ?_⟩
      · by_cases htx : tx' = tx
        · subst htx
          simp only [update, update_self, some.injEq] at hconnection ⊢
          rw [hactive, ← hconnection]
          exact ⟨ex.key, AList.lookup_insert _⟩
        simp only [update, update_of_ne htx] at hexists hfin' hconnection ⊢
        obtain ⟨key, hlookup⟩ := h.holds tx' connection hexists hfin' hconnection
        refine ⟨key, ?_⟩
        rw [hactive, AList.lookup_insert_ne]
        · exact hlookup
        · rintro rfl
          exact absurd (habsent.symm.trans hlookup) nofun
      · have haborted := h.aborted owner connection hmem
        have htx : owner.transaction ≠ tx := by
          rintro rfl
          exact absurd (hfin.symm.trans haborted.2) nofun
        simp only [update, update_of_ne htx]
        exact haborted
      · have hne : connection ≠ w.pool.obtained ex := by
          rintro rfl
          exact hclaim ex rfl owner hmem
        rw [show _ = _ from hactive, AList.lookup_insert_ne hne] at hlookup
        exact h.targeted owner connection lease hmem hlookup
    have hlost : Sound ({ w.update tx { w.borrowers tx with
        attempts := (w.borrowers tx).attempts + 1 } with pool }.handleUpstream tx retry) := by
      obtain ⟨b, tasks, hb, hidle, hstarted, hfinished, htasks⟩ := handleUpstream_eq
        { w.update tx { w.borrowers tx with attempts := (w.borrowers tx).attempts + 1 } with pool }
        tx retry
      simp only [update, update_self, update_idem] at hb hstarted hfinished
      rw [update, hb]
      refine h.release hidle (fun hs hf => ⟨hstarted.trans hs, hfinished hf⟩) ?_ ?_ htasks
      · exact fun q lease hq => (hactive q).symm.trans hq
      · exact fun q lease hq _ => (hactive q).trans hq
    cases hcase : ex.outcome with
    | pending => exact absurd hcase houtcome
    | failed failure => exact hlost
    | raised => exact hlost

/-- `CancelAll` destroys the transactions whose exchanges it ends. -/
lemma Sound.cancelAll (h : w.Sound) (dispatching : Bool) : Sound (w.cancelAll dispatching) := by
  have hdeferred : ∀ owner connection,
      .cancel owner connection ∈ (w.cancelAll dispatching).deferred →
      .cancel owner connection ∈ w.deferred := by
    intro owner connection hmem
    rw [Worker.cancelAll] at hmem
    split at hmem
    · simpa using hmem
    · exact hmem
  refine ⟨fun tx connection hexists hfin hactive => ?_,
    fun owner connection hmem => h.aborted owner connection (hdeferred _ _ hmem), nofun⟩
  simp only [Worker.cancelAll, Borrower.exists_, Bool.not_or, Bool.and_eq_true,
    Bool.not_eq_true'] at hexists
  obtain ⟨hstarted, hlive, hnone⟩ := hexists
  obtain ⟨key, hlookup⟩ := h.holds tx connection (by simp [Borrower.exists_, hstarted, hlive]) hfin
    hactive
  -- The transaction owned an active exchange, so it is destroyed.
  have hmem := AList.mem_lookup_iff.mp hlookup
  have hany := any_eq_false.mp hnone _ hmem
  simp at hany

end

section
variable {w w' : Worker} {launch : Option Execution} {retry : Bool}

lemma Sound.runTask (h : w.Sound) {task : Task} {rest : List Task}
    (hqueue : w.deferred = task :: rest)
    (hclaim : ∀ tx ex, task = .retry tx → launch = some ex →
      ∀ owner, .cancel owner (some (w.pool.obtained ex)) ∉ w.deferred)
    (heq : { w with deferred := rest }.runTask launch retry task = some w') : Sound w' := by
  have hrest : ∀ task', task' ∈ rest → task' ∈ w.deferred := fun task' hmem => by
    rw [hqueue]
    exact mem_cons_of_mem task hmem
  have hpopped : Sound { w with deferred := rest } :=
    ⟨h.holds, fun owner connection hmem => h.aborted owner connection (hrest _ hmem),
      fun owner connection lease hmem => h.targeted owner connection lease (hrest _ hmem)⟩
  cases task with
  | cancel owner connection =>
    cases connection with
    | none =>
      cases heq
      exact hpopped
    | some connection =>
      cases heq
      have hmem : .cancel owner (some connection) ∈ w.deferred := by simp [hqueue]
      obtain ⟨hstarted, hfin⟩ := h.aborted owner (some connection) hmem
      have hrelease : Sound { w with
          pool := w.pool.cancel connection
          borrowers := Function.update w.borrowers owner.transaction
            (w.borrowers owner.transaction)
          deferred := rest } := by
        refine h.release (.inl hfin) (fun _ _ => ⟨hstarted, hfin⟩) ?_ ?_
          fun _ _ hmem' => hrest _ hmem'
        · exact fun q lease hq => (lookup_of_cancel hq).2
        · intro q lease hq hother
          rw [lookup_cancel_ne]
          · exact hq
          · rintro rfl
            exact hother (congrArg Attempt.transaction (h.targeted owner q lease hmem hq))
      rwa [update_eq_self] at hrelease
  | retry tx =>
    rw [Worker.runTask] at heq
    split at heq
    · cases heq
      exact hpopped
    · next hfin =>
      refine hpopped.startUpstream (Bool.eq_false_iff.mpr hfin) (fun ex hex owner hmem => ?_) heq
      exact hclaim tx ex rfl hex owner (hrest _ hmem)
  | close pending =>
    cases heq
    exact hpopped

/-- **The step lemma.** Unless an exchange starts at an address that a queued cancellation
holds, every address that is held stays that of an own exchange. -/
theorem Sound.step (h : w.Sound) {e : Event} (hclaim : w.Unclaimed e)
    (hstep : w.step e = some w') : Sound w' := by
  rw [Worker.step.eq_def] at hstep
  cases e with
  | start tx launch retry =>
    dsimp only at hstep
    split at hstep
    · cases hstep
    next hunstarted =>
    have hfresh : Sound (w.update tx { started := true }) :=
      h.release (.inr rfl) (fun hs _ => absurd hs hunstarted) (fun _ _ => id) (fun _ _ hq _ => hq)
        (fun _ _ => id)
    refine hfresh.startUpstream (by simp [update]) (fun ex hex owner => ?_) hstep
    refine hclaim _ ?_ owner
    rw [startsAt, hex]
    rfl
  | complete connection ending =>
    obtain ⟨⟨pool, lease⟩, hcomplete, rfl⟩ := map_eq_some_iff.mp hstep
    exact h.complete hcomplete
  | abort tx =>
    obtain ⟨hexists, ⟨⟩⟩ := ite_none_right_eq_some.mp hstep
    exact h.handleClientAbort hexists
  | timeout tx =>
    obtain ⟨hexists, ⟨⟩⟩ := ite_none_right_eq_some.mp hstep
    exact h.finishGatewayTimeout hexists
  | task launch retry =>
    cases hqueue : w.deferred with
    | nil =>
      rw [hqueue] at hstep
      cases hstep
    | cons task rest =>
      rw [hqueue] at hstep
      refine h.runTask hqueue (fun tx ex htask hex owner => ?_) hstep
      refine hclaim _ ?_ owner
      rw [startsAt, hqueue, htask, hex]
      rfl
  | cancelAll dispatching =>
    cases hstep
    exact h.cancelAll dispatching

lemma Sound.spares (h : w.Sound) (e : Event) : w.SparesOthers e := by
  rintro owner connection rest launch retry rfl hqueue w' hstep q lease hq hother
  rw [Worker.step.eq_def] at hstep
  rw [hqueue] at hstep
  cases connection with
  | none =>
    cases hstep
    exact hq
  | some connection =>
    cases hstep
    rw [lookup_cancel_ne]
    · exact hq
    · rintro rfl
      exact hother (h.targeted owner q lease (by simp [hqueue]) hq)

end

/-- **Cancellation.** In a run in which no exchange starts at an address that a queued
cancellation holds, every cancellation closes the exchange it was queued for, or none. -/
theorem spares_of_unclaimed {es : List Event} (h : Along step Unclaimed {} es) :
    Along step SparesOthers {} es := by
  have hinit : Sound {} := ⟨nofun, nofun, nofun⟩
  have hsound : Always step Sound {} es :=
    always_of_along (fun w e w' hw he hstep => hw.step he hstep) hinit h
  exact along_of_always (fun w e hw => hw.spares e) hsound

/-- A request to a local endpoint, on a new connection at the address if none is idle. -/
def request (tx : ℕ) (fresh : Pointer) : Event :=
  .start tx (some { endpoint := Config.localEndpoint, fresh }) false

/-- An aborted exchange is cancelled while another one runs beside it. -/
theorem spares_of_unclaimed_beside :
    Along step SparesOthers {} [request 0 7, request 1 8, .abort 0, .task none false] := by
  refine spares_of_unclaimed ?_
  rintro w₁ ⟨⟩
  refine ⟨fun connection _ owner => not_mem_nil, ?_⟩
  rintro w₂ ⟨⟩
  refine ⟨fun connection _ owner => not_mem_nil, ?_⟩
  rintro w₃ ⟨⟩
  refine ⟨by rintro _ ⟨⟩, ?_⟩
  rintro w₄ ⟨⟩
  exact ⟨by rintro _ ⟨⟩, trivial⟩

/-- The client of transaction 0 is gone; in the same batch its exchange ends, the connection
is parked, and transaction 1 borrows it. The queued cancellation closes the exchange of
transaction 1. -/
theorem cancels_borrower :
    ¬Along step SparesOthers {} [request 0 7, .abort 0, .complete 7 .reused, request 1 8,
      .task none false] := by
  intro h
  obtain ⟨-, h⟩ := h _ rfl
  obtain ⟨-, h⟩ := h _ rfl
  obtain ⟨-, h⟩ := h _ rfl
  obtain ⟨-, h⟩ := h _ rfl
  obtain ⟨hspares, -⟩ := h _ rfl
  exact absurd (hspares ⟨0, 0⟩ (some 7) [] none false rfl rfl _ rfl 7
    ⟨⟨1, 0⟩, toKey Config.localEndpoint⟩ rfl (by decide)) (by rintro ⟨⟩)

end Worker

/-! ## The transactions of the worker -/

/-- What the worker keeps of a transaction whose exchange runs on the connection. -/
def Lifecycle.borrower (c : Lifecycle) (connection : Pointer) : Borrower where
  started := true
  destroyed := c.destroyed
  finished := c.tx.finished
  activeConnection := if c.tx.activeConnection then some connection else none
  attempts := c.tx.attempts

namespace Lifecycle
variable (c : Lifecycle) (connection : Pointer)

@[simp] lemma borrower_book (f : Ledger → Ledger) :
    (c.book f).borrower connection = c.borrower connection := rfl

@[simp] lemma borrower_end_ :
    c.end_.borrower connection = { c.borrower connection with finished := true } := rfl

@[simp] lemma borrower_note (effect : ℕ → Effect) :
    (c.note effect).borrower connection = c.borrower connection := by
  rw [note]
  split <;> rfl

@[simp] lemma borrower_conclude (status : ℕ) (truncated reason : TerminalReason) :
    (c.conclude status truncated reason).borrower connection = c.borrower connection := by
  rw [conclude]
  split
  · rfl
  · dsimp only
    split <;> rfl

@[simp] lemma borrower_detach : c.detach.borrower connection =
    { c.borrower connection with activeConnection := none } := rfl

lemma borrower_fail (hfin : c.tx.finished = false) :
    c.fail.borrower connection = { c.borrower connection with finished := true } := by
  rw [fail, if_neg (by simp [hfin])]
  simp

lemma borrower_succeed : c.succeed.borrower connection =
    { c.borrower connection with finished := true } := by
  rw [succeed, concludeSuccess]
  split <;> rfl

end Lifecycle

namespace Worker
variable {w : Worker} {tx : ℕ} {x : Exchange} {connection : Pointer}

/-- Each handler does to what the worker keeps of a transaction what it does to the transaction. -/
lemma borrowers_handlers (h : w.borrowers tx = x.lifecycle.borrower connection)
    (result : UpstreamResult) (answers : List Net.SendResult) :
    (w.handleClientAbort tx).borrowers tx = x.handleClientAbort.lifecycle.borrower connection ∧
      (w.handleUpstream tx (x.lifecycle.tx.retryableFailure result)).borrowers tx =
        (x.handleUpstream result {} answers).lifecycle.borrower connection ∧
      (w.finishGatewayTimeout tx).borrowers tx =
        (x.finishGatewayTimeout answers).lifecycle.borrower connection := by
  rw [Exchange.lifecycle_handleClientAbort, Worker.handleClientAbort, abort,
    Exchange.lifecycle_handleUpstream, Worker.handleUpstream, Lifecycle.result,
    Exchange.lifecycle_finishGatewayTimeout, Worker.finishGatewayTimeout, timeout, h]
  by_cases hfin : x.lifecycle.tx.finished
  · simp only [if_pos hfin, if_pos (show (x.lifecycle.borrower connection).finished from hfin), h,
      and_self]
  have hopen : x.lifecycle.detach.tx.finished = false := Bool.eq_false_iff.mpr hfin
  simp only [if_neg hfin, if_neg (show ¬(x.lifecycle.borrower connection).finished from hfin)]
  refine ⟨?_, ?_, ?_⟩
  · show Function.update w.borrowers tx _ tx = borrower _ connection
    rw [update_self]
    show _ = ((((x.lifecycle.note .aborted).end_).book x.lifecycle.settleAbort).borrower connection)
    simp
  · split
    · show Function.update w.borrowers tx _ tx = _
      rw [update_self]
      rfl
    show Function.update w.borrowers tx _ tx = _
    rw [update_self]
    split
    · rw [borrower_fail _ _ hopen]
      rfl
    · rw [borrower_succeed]
      rfl
  · rw [borrower_conclude]
    show Function.update w.borrowers tx _ tx = _
    rw [update_self]
    show _ = { ((((x.lifecycle.note .timedOut).end_).book
      (·.releaseReservation.releaseActive))).borrower connection with activeConnection := none }
    simp

end Worker
end AegisGate.Proxy
