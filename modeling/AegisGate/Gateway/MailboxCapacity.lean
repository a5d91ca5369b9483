import AegisGate.Gateway.AtomicReload
import AegisGate.Lib.Wheel

/-!
# The capacity of the generation mailbox

The mailbox holds sixteen events, whatever the number of workers. A retiring generation can have
as many events on their way as there are workers: one for each balance. So the mailbox suffices
when every reload leaves room for that many events of every retiring generation, and with
`kMaxRetiringGenerations` of them this is up to eight workers. With seventeen workers a single
retirement fills it, and the worker whose `Post` is refused terminates the process.
-/

namespace AegisGate.Gateway
open Lib AegisGate.Runtime List Option

variable {w w' : Gateway} {g : ℕ}

/-! ## Events on their way -/

namespace Ledger
variable {workers : ℕ} {l : Ledger}

/-- The events of a generation that are in the mailbox or drained. -/
def posted (l : Ledger) : ℕ := l.lastLease + l.balances + l.finished

/-- Those, and what is still to be posted for it. -/
def due (l : Ledger) : ℕ := l.posted + (l.notifying + l.unasked + l.tasks + l.reapers)

lemma Sound.due_le (h : Sound workers l) (hworkers : 0 < workers) : l.due ≤ workers := by
  have hreported := h.reported
  have hbool := Bool.toNat_le l.generation.retirementNotified
  have hstops := h.stops_le
  unfold due posted
  by_cases hzero : l.stops = 0
  · obtain ⟨hreapers, hfinished⟩ := h.not_reaped hzero
    have hcollecting := h.collecting hzero
    rcases Nat.le_one_iff_eq_zero_or_eq_one.mp h.returns_le with hreturns | hreturns
    · rw [hreturns, Nat.mul_zero] at hcollecting
      omega
    · rw [hreturns, Nat.mul_one] at hcollecting
      omega
  · have hcollected := h.collected hzero
    have hreaped := h.reaped
    have hreaps := h.reaps
    omega

lemma Sound.due_eq_zero (h : Sound workers l)
    (hstate : l.generation.retirementState = .active ∨ l.generation.retirementState = .done) :
    l.due = 0 := by
  have hreported := h.reported
  have hreaped := h.reaped
  have hreaps := h.reaps
  have hstops := h.stops_le
  unfold due posted
  rcases hstate with hactive | hdone
  · have hnone : ¬ 0 < l.notifying + l.lastLease + l.returns := fun hpos =>
      (h.left hpos).2.1 hactive
    have hzero : l.stops = 0 := by omega
    have hcollecting := h.collecting hzero
    rw [show l.returns = 0 by omega, Nat.mul_zero] at hcollecting
    omega
  · rw [hdone, ended] at hreaped
    have hbool := Bool.toNat_le l.generation.retirementNotified
    have hcollected := h.collected (by omega)
    omega

end Ledger

lemma countP_generation (events : List GenerationMailbox.Event) (g : ℕ) :
    events.countP (fun event => event.generation = g) =
      events.count ⟨.lastRequestLeaseReleased, g⟩ + events.count ⟨.workerBalancesReturned, g⟩ +
        events.count ⟨.reaperFinished, g⟩ := by
  induction events with
  | nil => rfl
  | cons event events ih =>
    obtain ⟨kind, h⟩ := event
    rw [countP_cons, count_cons, count_cons, count_cons, ih]
    by_cases hh : h = g <;> cases kind <;> simp [hh] <;> omega

lemma countP_events_le (w : Gateway) (g : ℕ) :
    w.mailbox.events.countP (fun event => event.generation = g) ≤ (w.ledger g).posted := by
  have hcount := countP_generation w.mailbox.events g
  simp only [Ledger.posted, ledger, pending, count_append]
  omega

/-- The generations of the versions in `retiring`. -/
def retiringGenerations (w : Gateway) : Finset ℕ := (w.retiring.keys.map (· - 1)).toFinset

lemma card_retiringGenerations_le (w : Gateway) :
    w.retiringGenerations.card ≤ w.retiring.keys.length :=
  (toFinset_card_le _).trans_eq (length_map _)

lemma Inv.mem_retiringGenerations (hw : Inv w) (hdue : 0 < (w.ledger g).due) :
    g ∈ w.retiringGenerations := by
  have hpublished := hw.published
  have hstate : ¬ ((w.heap g).retirementState = .active ∨ (w.heap g).retirementState = .done) :=
    fun hstate => hdue.ne' ((hw.sound g).due_eq_zero hstate)
  rw [not_or] at hstate
  have hlt : g < w.current := by
    by_contra hge
    rcases (Nat.le_of_not_lt hge).eq_or_lt with heq | hgt
    · exact hstate.1 (heq ▸ hw.active)
    · exact hstate.1 (hw.unborn g (by omega)).2.2.1
  have hmem := hw.kept g hlt hstate.2
  rw [hw.versions g (by omega)] at hmem
  exact mem_toFinset.mpr (mem_map.mpr ⟨g + 1, AList.mem_keys.mpr hmem, rfl⟩)

lemma Inv.length_eq_sum (hw : Inv w) : w.mailbox.events.length =
      ∑ g ∈ w.retiringGenerations, w.mailbox.events.countP fun event => event.generation = g := by
  rw [← countP_mem_eq_sum, eq_comm, countP_eq_length]
  intro event hevent
  refine decide_eq_true (hw.mem_retiringGenerations ?_)
  have hpos : 0 < w.mailbox.events.countP fun e => e.generation = event.generation :=
    countP_pos_iff.mpr ⟨event, hevent, decide_eq_true rfl⟩
  have hle := countP_events_le w event.generation
  rw [Ledger.due]
  omega

lemma sum_workers_le (w : Gateway) : ∑ _g ∈ w.retiringGenerations, w.workerDatas.length ≤
      w.retiring.keys.length * w.workerDatas.length := by
  rw [Finset.sum_const_nat fun _ _ => rfl]
  exact Nat.mul_le_mul_right _ (card_retiringGenerations_le w)

lemma Inv.countP_events_le (hw : Inv w) (hworkers : 0 < w.workerDatas.length) (g : ℕ) :
    w.mailbox.events.countP (fun event => event.generation = g) ≤ w.workerDatas.length :=
  calc _ ≤ (w.ledger g).posted := Gateway.countP_events_le w g
    _ ≤ (w.ledger g).due := Nat.le_add_right _ _
    _ ≤ w.workerDatas.length := (hw.sound g).due_le hworkers

lemma Inv.length_le (hw : Inv w) (hworkers : 0 < w.workerDatas.length) :
    w.mailbox.events.length ≤ w.retiring.keys.length * w.workerDatas.length := by
  rw [hw.length_eq_sum]
  exact (Finset.sum_le_sum fun g _ => hw.countP_events_le hworkers g).trans (sum_workers_le w)

lemma Inv.length_lt (hw : Inv w) (hworkers : 0 < w.workerDatas.length)
    (hdue : (w.ledger g).posted < (w.ledger g).due) :
    w.mailbox.events.length < w.retiring.keys.length * w.workerDatas.length := by
  rw [hw.length_eq_sum]
  refine lt_of_lt_of_le ?_ (sum_workers_le w)
  refine Finset.sum_lt_sum (fun h _ => hw.countP_events_le hworkers h)
    ⟨g, hw.mem_retiringGenerations (by omega), ?_⟩
  have hle := Gateway.countP_events_le w g
  have hbound := (hw.sound g).due_le hworkers
  omega

/-! ## Room -/

/-- A reload that returns true leaves room for an event of every worker, for every retiring
generation and the one it retires. -/
def Roomy (w : Gateway) : Event → Prop
  | .requestReload candidate p => (w.requestReload candidate p).2 →
      (w.retiring.keys.length + 1) * w.workerDatas.length ≤ w.mailbox.capacity
  | _ => True

instance decidableRoomy (w : Gateway) : (e : Event) → Decidable (Roomy w e)
  | .requestReload _ _ => inferInstanceAs (Decidable (_ → _))
  | .acquire _ | .release _ | .notify _ | .drain | .handle | .ask _ | .runTask _
  | .finishReaper _ | .stop | .stopWorkers => .isTrue trivial

/-- The mailbox is open and has room for what the retiring generations can post. -/
structure Room (workers : ℕ) (w : Gateway) : Prop where
  closed : w.mailbox.closed = false
  capacity : w.mailbox.capacity = 16
  workers : w.workerDatas.length = workers
  room : w.retiring.keys.length * w.workerDatas.length ≤ w.mailbox.capacity
  refused : w.refused = false

variable {workers : ℕ}

lemma Room.of_keeps (h : Room workers w) (hclosed : w'.mailbox.closed = w.mailbox.closed)
    (hcapacity : w'.mailbox.capacity = w.mailbox.capacity)
    (hworkers : w'.workerDatas.length = w.workerDatas.length)
    (hsize : w'.retiring.keys.length ≤ w.retiring.keys.length) (hrefused : w'.refused = w.refused) :
    Room workers w' where
  closed := hclosed.trans h.closed
  capacity := hcapacity.trans h.capacity
  workers := hworkers.trans h.workers
  room := by
    rw [hworkers, hcapacity]
    exact (Nat.mul_le_mul_right _ hsize).trans h.room
  refused := hrefused.trans h.refused

lemma GenerationMailbox.post_of_lt {m : GenerationMailbox} (hclosed : m.closed = false)
    (hlt : m.events.length < m.capacity) (event : GenerationMailbox.Event) :
    m.post event = some { m with events := m.events ++ [event] } := by
  refine if_neg ?_
  rintro (htrue | hle)
  · rw [hclosed] at htrue
    cases htrue
  · omega

lemma Room.post (h : Room workers w) (hlt : w.mailbox.events.length < w.mailbox.capacity)
    (event : GenerationMailbox.Event) : Room workers (w.post event) := by
  rw [Gateway.post, GenerationMailbox.post_of_lt h.closed hlt]
  exact h.of_keeps rfl rfl rfl le_rfl rfl

lemma Room.postOrTerminate (h : Room workers w)
    (hlt : w.mailbox.events.length < w.mailbox.capacity) (event : GenerationMailbox.Event) :
    Room workers (w.postOrTerminate event) := by
  obtain ⟨terminated, heq⟩ := postOrTerminate_eq_post w event
  rw [heq]
  exact (h.post hlt event).of_keeps rfl rfl rfl le_rfl rfl

lemma Room.posted (h : Room workers w) (hw : Inv w) (hpos : 0 < workers) {v : Gateway} {g : ℕ}
    {event : GenerationMailbox.Event} (hdue : 0 < (w.ledger g).notifying + (w.ledger g).unasked +
      (w.ledger g).tasks + (w.ledger g).reapers) (hmailbox : v.mailbox = w.mailbox)
    (hworkers : v.workerDatas = w.workerDatas) (hretiring : v.retiring = w.retiring)
    (hrefused : v.refused = w.refused) :
    Room workers (v.post event) ∧ Room workers (v.postOrTerminate event) := by
  have hv : Room workers v := by
    refine h.of_keeps ?_ ?_ (congrArg length hworkers) ?_ hrefused
    · rw [hmailbox]
    · rw [hmailbox]
    · rw [hretiring]
  have hlt : v.mailbox.events.length < v.mailbox.capacity := by
    rw [hmailbox]
    refine (hw.length_lt (g := g) (h.workers.symm ▸ hpos) ?_).trans_le h.room
    rw [Ledger.due]
    omega
  exact ⟨hv.post hlt event, hv.postOrTerminate hlt event⟩

/-! ## Steps -/

lemma stopCheckers_keeps (w : Gateway) (g : ℕ) :
    (w.stopCheckers g).mailbox = w.mailbox ∧ (w.stopCheckers g).refused = w.refused := by
  obtain ⟨k, reapers, actions, heq, -, -⟩ := stopCheckers_eq w g
  rw [heq]
  exact ⟨rfl, rfl⟩

/-- The control loop handles an event without a `Post`. -/
lemma handleEvent_keeps (w : Gateway) (event : GenerationMailbox.Event) :
    (w.handleEvent event).mailbox = w.mailbox ∧ (w.handleEvent event).refused = w.refused := by
  rw [handleEvent]
  dsimp only
  split
  · exact ⟨rfl, rfl⟩
  split
  · rw [requestWorkerBalanceReturn]
    split
    · exact stopCheckers_keeps _ _
    · exact ⟨rfl, rfl⟩
  · split
    · exact stopCheckers_keeps _ _
    · exact ⟨rfl, rfl⟩
  · exact ⟨rfl, rfl⟩

/-- The `Post` of a reload. -/
lemma Room.requestReload (h : Room workers w) (hw : Inv w) (hpos : 0 < workers)
    {candidate : Config} {p : Preparation}
    (hroomy : Roomy w (.requestReload candidate p)) :
    Room workers (w.requestReload candidate p).1 := by
  rcases requestReload_cases w candidate p with heq | ⟨-, -, -, -, heq⟩
  · rw [heq]
    exact h
  replace hroomy : (w.retiring.keys.length + 1) * w.workerDatas.length ≤ w.mailbox.capacity :=
    hroomy (congrArg Prod.snd heq)
  have hworkers : 0 < w.workerDatas.length := h.workers.symm ▸ hpos
  have hpublished := hw.published
  have hne : w.current ≠ w.published := by omega
  obtain ⟨k, calls, -, -, -, hk, -⟩ := retireGeneration_publish hw candidate
  have hretire := retireGeneration_eq (hw.notMem_publish candidate)
    (by rw [heap_publish_of_ne hne]; exact hk)
  rw [heq, hretire]
  have hsize : (w.retiring.insert ((w.publish candidate).heap w.current).version
      { generation := w.current }).keys.length ≤ w.retiring.keys.length + 1 := by
    rw [AList.keys_insert, length_cons]
    exact Nat.succ_le_succ length_erase_le
  have hroom : Room workers { (w.publish candidate).setGeneration w.current k with
      retiring := ((w.publish candidate).retiring.insert
        ((w.publish candidate).heap w.current).version { generation := w.current }) } :=
    ⟨h.closed, h.capacity, h.workers, (Nat.mul_le_mul_right _ hsize).trans hroomy, h.refused⟩
  split
  · refine hroom.postOrTerminate ?_ _
    calc w.mailbox.events.length
        ≤ w.retiring.keys.length * w.workerDatas.length := hw.length_le hworkers
      _ < (w.retiring.keys.length + 1) * w.workerDatas.length :=
          Nat.mul_lt_mul_of_pos_right (Nat.lt_succ_self _) hworkers
      _ ≤ w.mailbox.capacity := hroomy
  · exact hroom

lemma Room.step {e : Event} (h : Room workers w) (hw : Inv w) (hpos : 0 < workers)
    (hroomy : Roomy w e)
    (hstep : Gateway.step w e = some w') : Room workers w' := by
  obtain ⟨-, hstep⟩ := ite_none_left_eq_some.mp hstep
  cases e with
  | requestReload candidate p =>
    obtain ⟨-, ⟨⟩⟩ := ite_none_right_eq_some.mp hstep
    exact h.requestReload hw hpos hroomy
  | acquire g =>
    obtain ⟨-, hstep⟩ := ite_none_right_eq_some.mp hstep
    obtain ⟨k, -, rfl⟩ := map_eq_some_iff.mp hstep
    exact h.of_keeps rfl rfl rfl le_rfl rfl
  | release g =>
    obtain ⟨-, hstep⟩ := ite_none_right_eq_some.mp hstep
    obtain ⟨⟨k, calls⟩, -, rfl⟩ := map_eq_some_iff.mp hstep
    exact h.of_keeps rfl rfl rfl le_rfl rfl
  | notify index =>
    obtain ⟨g, hg, rfl⟩ := map_eq_some_iff.mp hstep
    have hdue : 0 < (w.ledger g).notifying := count_pos_iff.mpr (mem_of_getElem? hg)
    exact And.right (h.posted hw hpos (g := g) (by omega) rfl rfl rfl rfl)
  | drain | stop =>
    obtain ⟨-, ⟨⟩⟩ := ite_none_right_eq_some.mp hstep
    exact h.of_keeps rfl rfl rfl le_rfl rfl
  | handle =>
    dsimp only at hstep
    split at hstep
    · next event batch hasking hbatch =>
      cases hstep
      obtain ⟨hmailbox, hrefused⟩ := handleEvent_keeps { w with batch } event
      have hf := hw.handles_handle hasking hbatch
      exact h.of_keeps (congrArg GenerationMailbox.closed hmailbox)
        (congrArg GenerationMailbox.capacity hmailbox) hf.workers hf.size hrefused
    · cases hstep
  | ask accepted =>
    obtain ⟨⟨g, index⟩, hasking, rfl⟩ := map_eq_some_iff.mp hstep
    dsimp only
    rw [askWorker]
    split
    · split
      · exact h.of_keeps rfl rfl rfl le_rfl rfl
      · exact h.of_keeps rfl rfl rfl le_rfl rfl
    have hlt := hw.asking g index hasking
    have hdue : 0 < (w.ledger g).unasked := by
      rw [ledger, hasking, unasked, if_pos rfl]
      exact Nat.sub_pos_of_lt hlt
    exact And.left (h.posted hw hpos (g := g) (by omega) rfl rfl rfl rfl)
  | runTask index =>
    obtain ⟨⟨worker, g⟩, hg, rfl⟩ := map_eq_some_iff.mp hstep
    have hdue : 0 < (w.ledger g).tasks :=
      countP_pos_iff.mpr ⟨_, mem_of_getElem? hg, decide_eq_true rfl⟩
    exact And.right (h.posted hw hpos (g := g) (by omega) rfl rfl rfl rfl)
  | finishReaper index =>
    obtain ⟨g, hg, rfl⟩ := map_eq_some_iff.mp hstep
    have hdue : 0 < (w.ledger g).reapers := count_pos_iff.mpr (mem_of_getElem? hg)
    exact And.right (h.posted hw hpos (g := g) (by omega) rfl rfl rfl rfl)
  | stopWorkers =>
    obtain ⟨-, ⟨⟩⟩ := ite_none_right_eq_some.mp hstep
    exact h.of_keeps rfl rfl (length_map _) le_rfl rfl

/-! ## Whole runs -/

lemma room_create (config : Config) : Room config.workers.toNat (create config) where
  closed := rfl
  capacity := rfl
  workers := length_replicate
  room := (Nat.zero_mul _).trans_le (Nat.zero_le _)
  refused := rfl

/-- **Retirement events are posted.** In every run whose reloads are all roomy, no `Post` of the
retirement pipeline is refused. -/
theorem posts_of_roomy {config : Config} {es : List Event} (hworkers : 0 < config.workers.toNat)
    (hrun : run step (create config) es = some w)
    (hroomy : Along step Roomy (create config) es) : w.refused = false := by
  have halways : Always step (fun w => Inv w ∧ Room config.workers.toNat w) (create config) es := by
    refine always_of_along (fun u e v hu hp hv => ?_) ⟨inv_create config, room_create config⟩ hroomy
    exact ⟨hu.1.step hv, hu.2.step hu.1 hworkers hp hv⟩
  exact (halways.final hrun).2.refused

lemma Room.roomy (h : Room workers w) (hworkers : workers ≤ 8) (e : Event) : Roomy w e := by
  cases e with
  | requestReload candidate p =>
    intro htrue
    rcases requestReload_cases w candidate p with heq | ⟨-, -, hsize, -, -⟩
    · rw [heq] at htrue
      cases htrue
    · rw [h.capacity, h.workers]
      exact Nat.mul_le_mul hsize hworkers
  | _ => trivial

/-- **Up to eight workers** the mailbox refuses nothing, in any run. -/
theorem not_refused_of_le_eight {config : Config} (hpos : 0 < config.workers.toNat)
    (hworkers : config.workers.toNat ≤ 8) (h : Reaches step (create config) w) :
    w.refused = false := by
  have hinv : Inv w ∧ Room config.workers.toNat w := by
    refine h.invariant (I := fun w => Inv w ∧ Room config.workers.toNat w)
      ⟨inv_create config, room_create config⟩ fun u e v hu hv => ?_
    exact ⟨hu.1.step hv, hu.2.step hu.1 hpos (hu.2.roomy hworkers e) hv⟩
  exact hinv.2.refused

/-- A reload that changes the number of workers. -/
def reload (workers : UInt32) : Event := .requestReload { routes := [], workers } {}

/-- The control loop drains the event of a last lease and asks every worker. -/
def askAll (workers : ℕ) : List Event := .handle :: replicate workers (.ask true)

/-- Two retirements at once, with eight workers that all return their balance. -/
def twoRetirements : List Event :=
  [reload 8, reload 8, .drain] ++ askAll 8 ++ askAll 8 ++ replicate 16 (.runTask 0)

/-- They fill the mailbox. -/
lemma length_twoRetirements : ∃ w, run step (create { routes := [], workers := 8 })
    twoRetirements = some w ∧ w.mailbox.events.length = 16 := by
  have hlength : (run step (create { routes := [], workers := 8 })
      twoRetirements).map (·.mailbox.events.length) = some 16 := by decide +kernel
  exact map_eq_some_iff.mp hlength

theorem not_refused_of_le_eight_two : ∃ w, run step (create { routes := [], workers := 8 })
      twoRetirements = some w ∧ w.mailbox.events.length = 16 ∧ w.refused = false := by
  obtain ⟨w, hw, hlength⟩ := length_twoRetirements
  exact ⟨w, hw, hlength, not_refused_of_le_eight (by decide) (by decide) ⟨_, hw⟩⟩

theorem posts_of_roomy_two : ∃ w, run step (create { routes := [], workers := 8 })
      twoRetirements = some w ∧ w.mailbox.events.length = 16 ∧ w.refused = false := by
  obtain ⟨w, hw, hlength⟩ := length_twoRetirements
  exact ⟨w, hw, hlength, posts_of_roomy (by decide) hw (by decide +kernel)⟩

/-- One retirement with seventeen workers: all return the balance before the control loop drains,
and the last one terminates the process. -/
theorem refused_seventeen_workers : ∃ w, run step (create { routes := [], workers := 17 })
        ([reload 17, .drain] ++ askAll 17 ++ replicate 17 (.runTask 0)) = some w ∧
      w.retiring.keys.length = 1 ∧ w.mailbox.closed = false ∧ w.refused ∧
      w.terminated := by
  have hrun : (run step (create { routes := [], workers := 17 })
      ([reload 17, .drain] ++ askAll 17 ++ replicate 17 (.runTask 0))).map (fun w =>
        (w.retiring.keys.length, w.mailbox.closed, w.refused, w.terminated)) =
      some (1, false, true, true) := by
    decide +kernel
  obtain ⟨w, hw, heq⟩ := map_eq_some_iff.mp hrun
  simp only [Prod.mk.injEq] at heq
  exact ⟨w, hw, heq⟩

end AegisGate.Gateway
