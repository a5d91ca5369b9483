import AegisGate.Gateway.Ledger

/-!
# The gateway moves its ledgers

For every generation the gateway's state gives a ledger. A step of the gateway moves the ledger
of at most one generation, a reload those of two: the one it publishes and the one it retires.
-/

namespace AegisGate.Gateway
open Lib AegisGate.Runtime Retiring RuntimeGeneration Option Bool Function List AList

variable {w w' : Gateway} {g h : ℕ}

/-- The events of a kind for a generation, in the mailbox or drained. -/
def pending (w : Gateway) (kind : GenerationMailbox.Kind) (g : ℕ) : ℕ :=
  (w.batch ++ w.mailbox.events).count ⟨kind, g⟩

/-- The workers that `RequestWorkerBalanceReturn` has still to ask. -/
def unasked (asking : Option (ℕ × ℕ)) (workers g : ℕ) : ℕ :=
  match asking with
  | none => 0
  | some (h, index) => if h = g then workers - index else 0

/-- The counts of one generation of the gateway. -/
def ledger (w : Gateway) (g : ℕ) : Ledger where
  generation := w.heap g
  notifying := w.notifying.count g
  lastLease := w.pending .lastRequestLeaseReleased g
  unasked := unasked w.asking w.workerDatas.length g
  tasks := w.tasks.countP fun task => task.2 = g
  balances := w.pending .workerBalancesReturned g
  returned :=
    ((find w.retiring (w.heap g).version).map
      RetiringGeneration.returnedWorkerBalances).getD 0
  reapers := w.reapers.count g
  finished := w.pending .reaperFinished g
  returns := w.actions.count (.returnBalances g)
  stops := w.actions.count (.stopCheckers g)
  reaps := w.actions.count (.reap g)

/-! ## The map of retiring generations -/

namespace Retiring
variable {retiring : Retiring} {v u : ℕ} {entry : RetiringGeneration}

@[simp] lemma find_insert : find (insert v entry retiring) v = some entry :=
  lookup_insert retiring

lemma find_insert_of_ne (hne : u ≠ v) :
    find (insert v entry retiring) u = find retiring u :=
  lookup_insert_ne hne

@[simp] lemma find_erase : find (erase v retiring) v = none :=
  lookup_erase v retiring

lemma find_erase_of_ne (hne : u ≠ v) : find (erase v retiring) u = find retiring u :=
  lookup_erase_ne hne

lemma find_eq_none : find retiring v = none ↔ v ∉ retiring :=
  lookup_eq_none

end Retiring

/-! ## Ledgers of the parts -/

variable {k : RuntimeGeneration} {event : GenerationMailbox.Event} {calls : List RetirementCall}
  {index : ℕ}

lemma ledger_setGeneration_self (hk : k.version = (w.heap g).version) :
    (w.setGeneration g k).ledger g = { w.ledger g with generation := k } := by
  simp [ledger, setGeneration, pending, hk]

lemma ledger_setGeneration_of_ne (hne : h ≠ g) : (w.setGeneration g k).ledger h = w.ledger h := by
  simp [ledger, setGeneration, pending, hne]

lemma ledger_push {w w' : Gateway}
    (hw : w' = { w with mailbox := { w.mailbox with events := w.mailbox.events ++ [event] } })
    (h : ℕ) :
    w'.ledger h = if h = event.generation then (w.ledger h).add 1 event.kind else w.ledger h := by
  obtain ⟨kind, g⟩ := event
  subst hw
  have hpending (k : GenerationMailbox.Kind) : pending { w with
      mailbox := { w.mailbox with events := w.mailbox.events ++ [⟨kind, g⟩] } } k h =
      w.pending k h + if kind = k ∧ g = h then 1 else 0 := by
    simp [pending, count_append, count_singleton, Nat.add_assoc]
  by_cases hg : h = g
  · subst hg
    cases kind <;> simp [ledger, hpending, Ledger.add]
  · simp [ledger, hpending, Ne.symm hg, hg]

/-- A `Post` adds one event, or none. -/
lemma ledger_post (w : Gateway) (event : GenerationMailbox.Event) :
    ∃ n ≤ 1, ∀ h, (w.post event).ledger h =
      if h = event.generation then (w.ledger h).add n event.kind else w.ledger h := by
  rw [post]
  split
  · exact ⟨0, Nat.zero_le 1, fun h => by rw [Ledger.add_zero, ite_self]; rfl⟩
  · next mailbox hpost =>
    obtain ⟨-, ⟨⟩⟩ := ite_none_left_eq_some.mp hpost
    exact ⟨1, le_rfl, ledger_push rfl⟩

/-- The two kinds of `Post` differ in `std::terminate` alone. -/
lemma postOrTerminate_eq_post (w : Gateway) (event : GenerationMailbox.Event) :
    ∃ terminated, w.postOrTerminate event = { w.post event with terminated } := by
  rw [postOrTerminate, post]
  split
  · exact ⟨true, rfl⟩
  · exact ⟨w.terminated, rfl⟩

lemma ledger_postOrTerminate (w : Gateway) (event : GenerationMailbox.Event) :
    ∃ n ≤ 1, ∀ h, (w.postOrTerminate event).ledger h =
      if h = event.generation then (w.ledger h).add n event.kind else w.ledger h := by
  obtain ⟨terminated, heq⟩ := postOrTerminate_eq_post w event
  rw [heq]
  exact ledger_post w event

lemma stopCheckers_cases (w : Gateway) (g : ℕ) : (w.heap g).notifyCheckersStopped = none ∧
        w.stopCheckers g = { w with actions := w.actions ++ [.stopCheckers g] } ∨
      ∃ k calls, (w.heap g).notifyCheckersStopped = some (k, calls) ∧ (k.beginReaping = none ∧
            w.stopCheckers g =
              { w.setGeneration g k with actions := w.actions ++ [.stopCheckers g] } ∨
          ∃ m more, k.beginReaping = some (m, more) ∧ w.stopCheckers g = { w.setGeneration g m with
              reapers := w.reapers ++ [g]
              actions := w.actions ++ [.stopCheckers g, .reap g] }) := by
  rw [stopCheckers]
  split
  · next hnone => exact .inl ⟨hnone, rfl⟩
  next k calls hk =>
  refine .inr ⟨k, calls, hk, ?_⟩
  have hheap : (setGeneration { w with actions := w.actions ++ [.stopCheckers g] } g k).heap g =
      k := by simp [setGeneration]
  rw [startRetirementReaper, hheap]
  split
  · next hnone => exact .inl ⟨hnone, rfl⟩
  · next m more hm => exact .inr ⟨m, more, hm, by simp [setGeneration]⟩

lemma stopCheckers_eq (w : Gateway) (g : ℕ) :
    ∃ k reapers actions, w.stopCheckers g = { w.setGeneration g k with reapers, actions } ∧
      k.version = (w.heap g).version ∧ (w.heap g).retirementState ≤ k.retirementState := by
  obtain ⟨-, heq⟩ | ⟨k, calls, hk, hcases⟩ := stopCheckers_cases w g
  · exact ⟨w.heap g, w.reapers, w.actions ++ [.stopCheckers g],
      heq.trans (by simp [setGeneration]), rfl, le_rfl⟩
  have hversion := (kept_call (c := .notifyCheckersStopped) hk).2
  have hle : (w.heap g).retirementState ≤ k.retirementState :=
    (passes_notifyCheckersStopped hk).le
  obtain ⟨-, heq⟩ | ⟨m, more, hm, heq⟩ := hcases
  · exact ⟨k, w.reapers, _, heq, hversion, hle⟩
  · exact ⟨m, _, _, heq, (kept_call (c := .beginReaping) hm).2.trans hversion,
      hle.trans (passes_enterOutcomeDraining hm).le⟩

lemma ledger_stopCheckers_self (w : Gateway) (g : ℕ) :
    (w.stopCheckers g).ledger g = (w.ledger g).stopCheckers := by
  have hgeneration : (w.ledger g).generation = w.heap g := rfl
  obtain ⟨hnone, heq⟩ | ⟨k, calls, hk, hcases⟩ := stopCheckers_cases w g
  · simp only [heq, Ledger.stopCheckers, hgeneration, hnone]
    simp [ledger, pending]
  have hversion := (kept_call (c := .notifyCheckersStopped) hk).2
  obtain ⟨hnone, heq⟩ | ⟨m, more, hm, heq⟩ := hcases
  · simp only [heq, Ledger.stopCheckers, hgeneration, hk, hnone]
    simp [ledger, setGeneration, pending, hversion]
  · have hm' := (kept_call (c := .beginReaping) hm).2.trans hversion
    simp only [heq, Ledger.stopCheckers, hgeneration, hk, hm]
    simp [ledger, setGeneration, pending, hm']

lemma ledger_stopCheckers_of_ne (hne : h ≠ g) : (w.stopCheckers g).ledger h = w.ledger h := by
  obtain ⟨hnone, heq⟩ | ⟨k, calls, hk, hcases⟩ := stopCheckers_cases w g
  · simp [heq, ledger, pending, hne.symm]
  · obtain ⟨hnone, heq⟩ | ⟨m, more, hm, heq⟩ := hcases
    · simp [heq, ledger, setGeneration, pending, hne, hne.symm]
    · simp [heq, ledger, setGeneration, pending, hne, hne.symm]

/-! ## Addresses and versions -/

/-- The generations published so far have the versions from one on, the others were never used;
the keys of `retiring_generations_` are the versions of earlier generations. -/
structure Shape (w : Gateway) : Prop where
  published : w.published = w.current + 1
  versions : ∀ g < w.published, (w.heap g).version = g + 1
  unborn : ∀ g, w.published ≤ g → (w.heap g).version = 0 ∧ Ledger.Fresh (w.heap g)
  keys : ∀ v entry, find w.retiring v = some entry →
    entry.generation < w.current ∧ v = entry.generation + 1
  asking : ∀ g index, w.asking = some (g, index) → index < w.workerDatas.length

lemma Shape.found (hw : Shape w) {entry : RetiringGeneration}
    (hfind : find w.retiring (w.heap g).version = some entry) :
    entry.generation = g ∧ g < w.current ∧
      ∀ h, h ≠ g → (w.heap h).version ≠ (w.heap g).version := by
  obtain ⟨hlt, hversion⟩ := hw.keys _ _ hfind
  have hpublished := hw.published
  have hg : g < w.published := by
    by_contra hge
    rw [(hw.unborn g (Nat.le_of_not_lt hge)).1] at hversion
    omega
  rw [hw.versions g hg] at hversion ⊢
  refine ⟨by omega, by omega, fun h hne => ?_⟩
  by_cases hh : h < w.published
  · rw [hw.versions h hh]
    omega
  · rw [(hw.unborn h (Nat.le_of_not_lt hh)).1]
    omega

lemma ledger_pop {batch : List GenerationMailbox.Event} (hbatch : w.batch = event :: batch)
    (h : ℕ) :
    w.ledger h = if h = event.generation then
      (ledger { w with batch } h).add 1 event.kind else ledger { w with batch } h := by
  obtain ⟨kind, g⟩ := event
  have hpending (k : GenerationMailbox.Kind) :
      w.pending k h = pending { w with batch } k h + if kind = k ∧ g = h then 1 else 0 := by
    simp [pending, hbatch, count_cons]
  by_cases hg : h = g
  · subst hg
    cases kind <;> simp [ledger, hpending, Ledger.add]
  · simp [ledger, hpending, Ne.symm hg, hg]

/-! ## Steps -/

/-- The ledger of every generation stays or moves. -/
def Carries (w w' : Gateway) : Prop :=
  ∀ h, w'.ledger h = w.ledger h ∨
    Ledger.Moves w.workerDatas.length w.workersStopped (w.ledger h) (w'.ledger h)

lemma carries_of_move (g : ℕ) (hne : ∀ h, h ≠ g → w'.ledger h = w.ledger h)
    (hmove : Ledger.Moves w.workerDatas.length w.workersStopped (w.ledger g) (w'.ledger g)) :
    Carries w w' := by
  intro h
  by_cases hg : h = g
  · rw [hg]
    exact .inr hmove
  · exact .inl (hne h hg)

lemma carries_acquire (hk : (w.heap g).tryAcquireRequestLease = some k) :
    Carries w (w.setGeneration g k) := by
  have hversion : k.version = (w.heap g).version := by
    obtain ⟨-, ⟨⟩⟩ := ite_none_left_eq_some.mp hk
    rfl
  refine carries_of_move g (fun h hne => ledger_setGeneration_of_ne hne) ?_
  rw [ledger_setGeneration_self hversion]
  exact .acquire hk

lemma carries_release (hk : (w.heap g).releaseRequestLease = some (k, calls)) :
    Carries w { w.setGeneration g k with
      notifying := w.notifying ++ replicate (calls.count .lastLease) g } := by
  have hversion := version_releaseRequestLease hk
  refine carries_of_move g (fun h hne => ?_) ?_
  · simp [ledger, setGeneration, pending, hne, hne.symm, count_replicate]
  have hledger : ledger { w.setGeneration g k with
      notifying := w.notifying ++ replicate (calls.count .lastLease) g } g =
      { w.ledger g with
        generation := k
        notifying := (w.ledger g).notifying + calls.count .lastLease } := by
    simp [ledger, setGeneration, pending, hversion]
  rw [hledger]
  exact .release hk

lemma carries_posted {v : Gateway} {kind : GenerationMailbox.Kind}
    (hother : ∀ h, h ≠ g → v.ledger h = w.ledger h)
    (hmove : ∀ n ≤ 1, Ledger.Moves w.workerDatas.length w.workersStopped (w.ledger g)
      ((v.ledger g).add n kind)) : Carries w (v.postOrTerminate ⟨kind, g⟩) := by
  obtain ⟨n, hn, hledger⟩ := ledger_postOrTerminate v ⟨kind, g⟩
  refine carries_of_move g (fun h hne => ?_) ?_
  · rw [hledger, if_neg hne, hother h hne]
  · rw [hledger, if_pos rfl]
    exact hmove n hn

lemma carries_notify (hindex : w.notifying[index]? = some g) :
    Carries w ({ w with notifying := w.notifying.eraseIdx index }.postOrTerminate
      ⟨.lastRequestLeaseReleased, g⟩) := by
  obtain ⟨hother, hown⟩ := count_eraseIdx hindex
  refine carries_posted (fun h hne => ?_) fun n hn => .notify hown hn
  simp [ledger, pending, hother h hne]

lemma carries_runTask {worker : ℕ} (hindex : w.tasks[index]? = some (worker, g)) :
    Carries w ({ w with
      tasks := w.tasks.eraseIdx index
      returned := w.returned ++ [(worker, g)] }.postOrTerminate ⟨.workerBalancesReturned, g⟩) := by
  have hcount (h : ℕ) := countP_eraseIdx (fun task => decide (task.2 = h)) hindex
  refine carries_posted (fun h hne => ?_) fun n hn => .run ?_ hn
  · have hcount' := hcount h
    rw [decide_eq_false hne.symm, toNat_false, Nat.add_zero] at hcount'
    simp [ledger, pending, hcount']
  · have hcount' := hcount g
    rw [decide_eq_true rfl, toNat_true] at hcount'
    exact hcount'.symm

lemma carries_finishReaper (hindex : w.reapers[index]? = some g) :
    Carries w ({ w with reapers := w.reapers.eraseIdx index }.postOrTerminate
      ⟨.reaperFinished, g⟩) := by
  obtain ⟨hother, hown⟩ := count_eraseIdx hindex
  refine carries_posted (fun h hne => ?_) fun n hn => .finish hown hn
  simp [ledger, pending, hother h hne]

lemma unasked_next {workers : ℕ} (hlt : index < workers) : unasked (some (g, index)) workers g =
      unasked (if index + 1 < workers then some (g, index + 1) else none) workers g + 1 := by
  split <;> simp [unasked] <;> omega

lemma unasked_of_ne (workers index : ℕ) (hne : h ≠ g) :
    unasked (if index + 1 < workers then some (g, index + 1) else none) workers h = 0 ∧
      unasked (some (g, index)) workers h = 0 := by
  split <;> simp [unasked, hne.symm]

lemma carries_askWorker (hw : Shape w) (hasking : w.asking = some (g, index)) (accepted : Bool) :
    Carries w (w.askWorker g index accepted) := by
  have hnext := unasked_next (g := g) (hw.asking g index hasking)
  have hother {h : ℕ} (hne : h ≠ g) := unasked_of_ne w.workerDatas.length index hne
  rw [askWorker]
  split
  · split
    · refine carries_of_move g (fun h hne => ?_) ?_
      · simp [ledger, pending, hasking, hother hne, hne.symm]
      have hledger : ledger { w with
          asking := if index + 1 < w.workerDatas.length then some (g, index + 1) else none
          tasks := w.tasks ++ [(index, g)] } g =
          { w.ledger g with
            unasked := unasked
              (if index + 1 < w.workerDatas.length then some (g, index + 1) else none)
              w.workerDatas.length g
            tasks := (w.ledger g).tasks + 1 } := by
        simp [ledger, pending]
      rw [hledger]
      refine .ask ?_
      rw [ledger, hasking]
      exact hnext
    · exact fun h => .inl rfl
  obtain ⟨n, hn, hledger⟩ := ledger_post { w with
    asking := if index + 1 < w.workerDatas.length then some (g, index + 1) else none }
    ⟨.workerBalancesReturned, g⟩
  refine carries_of_move g (fun h hne => ?_) ?_
  · rw [hledger, if_neg hne]
    simp [ledger, pending, hasking, hother hne]
  · rw [hledger, if_pos rfl]
    refine .askNone ?_ hn
    rw [ledger, hasking]
    exact hnext

lemma returned_of_find {entry : RetiringGeneration}
    (hfind : find w.retiring (w.heap g).version = some entry) :
    (w.ledger g).returned = entry.returnedWorkerBalances := by
  simp [ledger, hfind]

lemma carries_requestWorkerBalanceReturn (hasking : w.asking = none) :
    (∀ h, h ≠ g → (w.requestWorkerBalanceReturn g).ledger h = w.ledger h) ∧
      ((w.workersStopped ∨ w.workerDatas.length = 0) ∧
          (w.requestWorkerBalanceReturn g).ledger g =
            { w.ledger g with returns := (w.ledger g).returns + 1 }.stopCheckers ∨
        (w.requestWorkerBalanceReturn g).ledger g = { w.ledger g with
            returns := (w.ledger g).returns + 1
            unasked := w.workerDatas.length }) := by
  rw [requestWorkerBalanceReturn]
  split
  · next hstopped =>
    rw [← length_eq_zero_iff] at hstopped
    refine ⟨fun h hne => ?_, .inl ⟨hstopped, ?_⟩⟩
    · rw [ledger_stopCheckers_of_ne hne]
      simp [ledger, pending, hne.symm]
    · rw [ledger_stopCheckers_self]
      simp [ledger, pending]
  · refine ⟨fun h hne => ?_, .inr ?_⟩
    · simp [ledger, pending, hasking, unasked, hne.symm]
    · simp [ledger, pending, unasked]

lemma ledger_returned {entry : RetiringGeneration} (hw : Shape w)
    (hfind : find w.retiring (w.heap g).version = some entry) (h : ℕ) :
    ledger { w with
      retiring := (w.retiring.insert (w.heap g).version
        { entry with returnedWorkerBalances := entry.returnedWorkerBalances + 1 }) } h =
      if h = g then { w.ledger g with returned := (w.ledger g).returned + 1 } else w.ledger h := by
  obtain ⟨-, -, hversions⟩ := hw.found hfind
  by_cases hg : h = g
  · rw [if_pos hg, hg]
    simp [ledger, pending, hfind]
  · rw [if_neg hg]
    simp [ledger, pending, Retiring.find_insert_of_ne (hversions h hg)]

lemma moves_handleEvent {v : Gateway} {kind : GenerationMailbox.Kind} (hv : Shape v)
    (hasking : v.asking = none) :
    (∀ h, h ≠ g → (v.handleEvent ⟨kind, g⟩).ledger h = v.ledger h) ∧
      ∀ l, l = (v.ledger g).add 1 kind →
        Ledger.Moves v.workerDatas.length v.workersStopped l
          ((v.handleEvent ⟨kind, g⟩).ledger g) := by
  rw [handleEvent]
  split
  · exact ⟨fun h _ => rfl, fun l hl => .skip hl⟩
  next entry hfind =>
  cases kind with
  | lastRequestLeaseReleased =>
    obtain ⟨hne, hmove⟩ := carries_requestWorkerBalanceReturn (g := g) hasking
    refine ⟨hne, fun l hl => ?_⟩
    rcases hmove with ⟨hstopped, hmove⟩ | hmove
    · rw [hmove]
      exact .requestStopped hl hstopped
    · rw [hmove]
      exact .request hl
  | workerBalancesReturned =>
    have hledger := ledger_returned hv hfind
    have hself := (hledger g).trans (if_pos rfl)
    have hreturned := returned_of_find hfind
    dsimp only
    split
    · next hlast =>
      refine ⟨fun h hne => ?_, fun l hl => ?_⟩
      · rw [ledger_stopCheckers_of_ne hne, hledger, if_neg hne]
      · rw [ledger_stopCheckers_self, hself]
        exact .lastBalance hl (hreturned ▸ hlast)
    · next hmore =>
      refine ⟨fun h hne => (hledger h).trans (if_neg hne), fun l hl => ?_⟩
      rw [hself]
      exact .balance hl (hreturned ▸ hmore)
  | reaperFinished =>
    obtain ⟨-, -, hversions⟩ := hv.found hfind
    have hversion : (v.heap g).markRetired.1.version = (v.heap g).version :=
      (kept_call (c := .markRetired) rfl).2
    refine ⟨fun h hne => ?_, fun l hl => ?_⟩
    · simp [ledger, setGeneration, pending, hne, Retiring.find_erase_of_ne (hversions h hne)]
    have hledger : ledger { v.setGeneration g (v.heap g).markRetired.1 with
        retiring := v.retiring.erase (v.heap g).version } g =
        { v.ledger g with
          generation := (v.ledger g).generation.markRetired.1
          returned := 0 } := by
      simp [ledger, setGeneration, pending, hversion]
    rw [hledger]
    exact .forget hl

lemma carries_handleEvent {batch : List GenerationMailbox.Event} (hw : Shape w)
    (hasking : w.asking = none) (hbatch : w.batch = event :: batch) :
    Carries w ({ w with batch }.handleEvent event) := by
  have hpop := ledger_pop hbatch
  obtain ⟨hne, hmove⟩ := moves_handleEvent (v := { w with batch }) (g := event.generation)
    { hw with } hasking
  refine carries_of_move event.generation (fun h hh => ?_) ?_
  · rw [hpop h, if_neg hh]
    exact hne h hh
  · exact hmove _ ((hpop _).trans (if_pos rfl))

lemma requestReload_cases (w : Gateway) (candidate : Config) (p : Preparation) :
    w.requestReload candidate p = (w, false) ∨
      w.lifecycle = .running ∧ candidate.workers = (w.heap w.current).workers ∧
        w.retiring.keys.length < kMaxRetiringGenerations ∧ p.succeeds ∧
        w.requestReload candidate p = ((w.publish candidate).retireGeneration w.current, true) := by
  rw [requestReload]
  split
  · exact .inl rfl
  next hrunning =>
  split
  · exact .inl rfl
  next hworkers =>
  split
  · exact .inl rfl
  next hsize =>
  split
  · exact .inl rfl
  · next hp =>
    exact .inr ⟨not_not.mp hrunning, not_not.mp hworkers, Nat.lt_of_not_le hsize,
      by simpa using hp, rfl⟩

lemma retireGeneration_eq (hfind : (w.heap g).version ∉ w.retiring)
    (hk : (w.heap g).beginRetirement = some (k, calls)) :
    w.retireGeneration g = if .lastLease ∈ calls then
        postOrTerminate { w.setGeneration g k with
          retiring := (w.retiring.insert (w.heap g).version { generation := g }) }
          ⟨.lastRequestLeaseReleased, g⟩
      else { w.setGeneration g k with
        retiring := (w.retiring.insert (w.heap g).version { generation := g }) } := by
  rw [retireGeneration]
  rw [if_neg hfind, hk]

lemma ledger_retired (hfind : (w.heap g).version ∉ w.retiring)
    (hversion : k.version = (w.heap g).version)
    (hversions : ∀ h, h ≠ g → (w.heap h).version ≠ (w.heap g).version) (h : ℕ) :
    ledger { w.setGeneration g k with
      retiring := (w.retiring.insert (w.heap g).version { generation := g }) } h =
      if h = g then { w.ledger g with generation := k } else w.ledger h := by
  by_cases hg : h = g
  · rw [if_pos hg, hg]
    simp [ledger, setGeneration, pending, hversion, Retiring.find_eq_none.mpr hfind]
  · rw [if_neg hg]
    simp [ledger, setGeneration, pending, hg, Retiring.find_insert_of_ne (hversions h hg)]

lemma moves_retireGeneration (hfind : (w.heap g).version ∉ w.retiring)
    (hversions : ∀ h, h ≠ g → (w.heap h).version ≠ (w.heap g).version)
    (hk : (w.heap g).beginRetirement = some (k, calls)) :
    (∀ h, h ≠ g → (w.retireGeneration g).ledger h = w.ledger h) ∧ ∀ workers stopped,
        Ledger.Moves workers stopped (w.ledger g) ((w.retireGeneration g).ledger g) := by
  have hversion := (kept_call (c := .beginRetirement) hk).2
  have hledger := ledger_retired hfind hversion hversions
  rw [retireGeneration_eq hfind hk]
  split
  · next hmem =>
    obtain ⟨n, hn, hpost⟩ := ledger_postOrTerminate { w.setGeneration g k with
      retiring := (w.retiring.insert (w.heap g).version { generation := g }) }
      ⟨.lastRequestLeaseReleased, g⟩
    refine ⟨fun h hne => ?_, fun workers stopped => ?_⟩
    · rw [hpost, if_neg hne, hledger, if_neg hne]
    · rw [hpost, if_pos rfl, hledger, if_pos rfl]
      exact .retire hk (hn.trans (count_pos_iff.mpr hmem))
  · refine ⟨fun h hne => ?_, fun workers stopped => ?_⟩
    · rw [hledger, if_neg hne]
    · rw [hledger, if_pos rfl]
      exact .retire (n := 0) hk (Nat.zero_le _)

lemma Shape.find_eq_none_of_lt (hw : Shape w) {v : ℕ} (hv : v = 0 ∨ w.current < v) :
    find w.retiring v = none := by
  by_contra hsome
  obtain ⟨entry, hentry⟩ := ne_none_iff_exists'.mp hsome
  obtain ⟨hlt, rfl⟩ := hw.keys v entry hentry
  omega

lemma heap_publish_of_ne {candidate : Config} (hne : h ≠ w.published) :
    (w.publish candidate).heap h = w.heap h := update_of_ne hne _ _

lemma heap_publish_self (w : Gateway) (candidate : Config) :
    (w.publish candidate).heap w.published = ofConfig ((w.heap w.current).version + 1) candidate :=
  update_self _ _ _

lemma Shape.version_current (hw : Shape w) : (w.heap w.current).version = w.current + 1 :=
  hw.versions w.current (by rw [hw.published]; exact Nat.lt_succ_self _)

lemma Shape.ledger_publish_self (hw : Shape w) (candidate : Config) :
    (w.publish candidate).ledger w.published = { w.ledger w.published with
        generation := ofConfig ((w.heap w.current).version + 1) candidate } := by
  have hbefore : find w.retiring (w.heap w.published).version = none :=
    hw.find_eq_none_of_lt (.inl (hw.unborn w.published le_rfl).1)
  have hafter : find w.retiring
      (ofConfig ((w.heap w.current).version + 1) candidate).version = none := by
    refine hw.find_eq_none_of_lt (.inr ?_)
    rw [ofConfig, hw.version_current]
    dsimp only
    omega
  have hheap := heap_publish_self w candidate
  have hretiring : (w.publish candidate).retiring = w.retiring := rfl
  simp only [ledger, hheap, hretiring, hbefore, hafter]
  rfl

lemma ledger_publish_of_ne {candidate : Config} (hne : h ≠ w.published) :
    (w.publish candidate).ledger h = w.ledger h := by
  simp [ledger, publish, pending, hne]

lemma Shape.versions_publish (hw : Shape w) (candidate : Config) (hne : h ≠ w.current) :
    ((w.publish candidate).heap h).version ≠ ((w.publish candidate).heap w.current).version := by
  have hpublished := hw.published
  rw [heap_publish_of_ne (h := w.current) (by omega), hw.version_current]
  by_cases hh : h = w.published
  · rw [hh, heap_publish_self, ofConfig, hw.version_current]
    dsimp only
    omega
  rw [heap_publish_of_ne hh]
  by_cases hlt : h < w.published
  · rw [hw.versions h hlt]
    omega
  · rw [(hw.unborn h (Nat.le_of_not_lt hlt)).1]
    omega

lemma Shape.notMem_publish (hw : Shape w) (candidate : Config) :
    ((w.publish candidate).heap w.current).version ∉ (w.publish candidate).retiring := by
  have hpublished := hw.published
  rw [heap_publish_of_ne (h := w.current) (by omega), hw.version_current]
  exact Retiring.find_eq_none.mp (hw.find_eq_none_of_lt (.inr (Nat.lt_succ_self _)))

lemma carries_requestReload (hw : Shape w) (hactive : (w.heap w.current).retirementState = .active)
    (candidate : Config) (p : Preparation) : Carries w (w.requestReload candidate p).1 := by
  rcases requestReload_cases w candidate p with heq | ⟨-, -, -, -, heq⟩
  · rw [heq]
    exact fun h => .inl rfl
  rw [heq]
  have hpublished := hw.published
  have hne : w.current ≠ w.published := by omega
  obtain ⟨⟨k, calls⟩, hk⟩ : ∃ r, (w.heap w.current).beginRetirement = some r := by
    rw [beginRetirement, if_neg (not_not.mpr hactive)]
    exact ⟨_, rfl⟩
  obtain ⟨hother, hmove⟩ := moves_retireGeneration (hw.notMem_publish candidate)
    (fun h => hw.versions_publish candidate) (by rw [heap_publish_of_ne hne]; exact hk)
  intro h
  by_cases hc : h = w.current
  · subst hc
    rw [← ledger_publish_of_ne hne]
    exact .inr (hmove _ _)
  rw [hother h hc]
  by_cases hp : h = w.published
  · subst hp
    rw [hw.ledger_publish_self]
    exact .inr (.publish (hw.unborn w.published le_rfl).2 ⟨rfl, rfl, rfl, rfl⟩)
  · exact .inl (ledger_publish_of_ne hp)

/-- **The gateway moves its ledgers.** -/
theorem carries_step {e : Event} (hw : Shape w)
    (hactive : (w.heap w.current).retirementState = .active) (hstep : step w e = some w') :
    Carries w w' := by
  obtain ⟨-, hstep⟩ := ite_none_left_eq_some.mp hstep
  cases e with
  | requestReload candidate p =>
    obtain ⟨-, ⟨⟩⟩ := ite_none_right_eq_some.mp hstep
    exact carries_requestReload hw hactive candidate p
  | acquire g =>
    obtain ⟨-, hstep⟩ := ite_none_right_eq_some.mp hstep
    obtain ⟨k, hk, rfl⟩ := map_eq_some_iff.mp hstep
    exact carries_acquire hk
  | release g =>
    obtain ⟨-, hstep⟩ := ite_none_right_eq_some.mp hstep
    obtain ⟨⟨k, calls⟩, hk, rfl⟩ := map_eq_some_iff.mp hstep
    exact carries_release hk
  | notify index =>
    obtain ⟨g, hg, rfl⟩ := map_eq_some_iff.mp hstep
    exact carries_notify hg
  | drain =>
    obtain ⟨hidle, ⟨⟩⟩ := ite_none_right_eq_some.mp hstep
    have hbatch : w.batch = [] := by
      rw [idle, and_eq_true] at hidle
      exact isEmpty_iff.mp hidle.1
    exact fun h => .inl (by simp [ledger, pending, hbatch])
  | handle =>
    dsimp only at hstep
    split at hstep
    · next event batch hasking hbatch =>
      cases hstep
      exact carries_handleEvent hw hasking hbatch
    · cases hstep
  | ask accepted =>
    obtain ⟨⟨g, index⟩, hasking, rfl⟩ := map_eq_some_iff.mp hstep
    exact carries_askWorker hw hasking accepted
  | runTask index =>
    obtain ⟨⟨worker, g⟩, hg, rfl⟩ := map_eq_some_iff.mp hstep
    exact carries_runTask hg
  | finishReaper index =>
    obtain ⟨g, hg, rfl⟩ := map_eq_some_iff.mp hstep
    exact carries_finishReaper hg
  | stop =>
    obtain ⟨-, ⟨⟩⟩ := ite_none_right_eq_some.mp hstep
    exact fun h => .inl rfl
  | stopWorkers =>
    obtain ⟨-, ⟨⟩⟩ := ite_none_right_eq_some.mp hstep
    exact fun h => .inl (by simp [ledger, pending])

end AegisGate.Gateway
