import AegisGate.Gateway.Pipeline

/-!
# Reload is atomic

`RequestReload` either changes nothing the workers or later calls can see, or it publishes the
next version to both pointers and the route table and hands exactly the previous generation to
the retirement pipeline. The pipeline then takes each of its steps at most once for a generation,
and starts the reaper only when no request and no worker needs the generation any more.
-/

namespace AegisGate.Gateway
open Lib AegisGate.Runtime RuntimeGeneration Retiring List Option Function AList

variable {w w' : Gateway} {g h : ℕ}

/-- Of the workers asked for a balance, each is still to be asked, has a task for it, or returned
it. -/
def Spread (w : Gateway) : Prop :=
  ∀ g, Action.returnBalances g ∈ w.actions →
    w.workersStopped ∨ ∀ i, w.workerDatas[i]? = some true →
      (∃ j ≤ i, w.asking = some (g, j)) ∨ (i, g) ∈ w.tasks ∨ (i, g) ∈ w.returned

/-- What holds in every state: the published generation is active and is the one the workers and
the route table have; every earlier one retires or has ended, and is in the map until it has. -/
structure Inv (w : Gateway) : Prop extends Shape w where
  sound : ∀ g, Ledger.Sound w.workerDatas.length (w.ledger g)
  workerCurrent : w.workerCurrent = w.current
  routes : w.routes = w.configs w.current
  active : (w.heap w.current).retirementState = .active
  retired : ∀ g < w.current, (w.heap g).retirementState ≠ .active
  kept : ∀ g < w.current, (w.heap g).retirementState ≠ .done → (w.heap g).version ∈ w.retiring
  size : w.retiring.keys.length ≤ kMaxRetiringGenerations
  spread : Spread w

lemma heap_create_of_ne (config : Config) (hne : g ≠ 0) :
    (create config).heap g = ofConfig 0 config := by
  simp [create, hne]

lemma fresh_create (config : Config) (g : ℕ) : Ledger.Fresh ((create config).heap g) := by
  by_cases hg : g = 0
  · rw [hg]
    exact ⟨rfl, rfl, rfl, rfl⟩
  · rw [heap_create_of_ne config hg]
    exact ⟨rfl, rfl, rfl, rfl⟩

lemma inv_create (config : Config) : Inv (create config) where
  published := rfl
  versions := by
    intro g hg
    obtain rfl : g = 0 := Nat.lt_one_iff.mp hg
    rfl
  unborn := by
    intro g hg
    refine ⟨?_, fresh_create config g⟩
    rw [heap_create_of_ne config (Nat.one_le_iff_ne_zero.mp hg)]
    rfl
  keys := nofun
  asking := nofun
  sound := fun g => Ledger.sound_fresh (fresh_create config g)
  workerCurrent := rfl
  routes := rfl
  active := rfl
  retired := fun g hg => absurd hg (Nat.not_lt_zero g)
  kept := fun g hg => absurd hg (Nat.not_lt_zero g)
  size := Nat.zero_le _
  spread := nofun

/-! ## Steps between two reloads -/

/-- What a step other than a reload leaves alone. -/
structure Frame (w w' : Gateway) : Prop where
  published : w'.published = w.published
  current : w'.current = w.current
  workerCurrent : w'.workerCurrent = w.workerCurrent
  routes : w'.routes = w.routes
  configs : w'.configs = w.configs
  workers : w'.workerDatas.length = w.workerDatas.length
  versions : ∀ h, (w'.heap h).version = (w.heap h).version
  le : ∀ h, (w.heap h).retirementState ≤ (w'.heap h).retirementState
  unborn : ∀ h, w.published ≤ h → w'.heap h = w.heap h
  active : (w.heap w.current).retirementState = .active →
    (w'.heap w.current).retirementState = .active
  found : ∀ v entry, find w'.retiring v = some entry →
    ∃ old, find w.retiring v = some old ∧ entry.generation = old.generation
  kept : ∀ h, (w.heap h).version ∈ w.retiring → (w'.heap h).retirementState ≠ .done →
    (w.heap h).version ∈ w'.retiring
  size : w'.retiring.keys.length ≤ w.retiring.keys.length

lemma done_of_le {s : RetirementState} : RetirementState.done ≤ s → s = .done := by
  cases s <;> decide

lemma Frame.shape (hf : Frame w w') (hw : Shape w)
    (hasking : ∀ g index, w'.asking = some (g, index) → index < w'.workerDatas.length) :
    Shape w' where
  published := by
    rw [hf.published, hf.current]
    exact hw.published
  versions := by
    intro g hg
    rw [hf.published] at hg
    rw [hf.versions]
    exact hw.versions g hg
  unborn := by
    intro g hg
    rw [hf.published] at hg
    rw [hf.unborn g hg]
    exact hw.unborn g hg
  keys := by
    intro v entry hv
    obtain ⟨old, hold, hgeneration⟩ := hf.found v entry hv
    rw [hf.current, hgeneration]
    exact hw.keys v old hold
  asking := hasking

lemma Inv.carried (hw : Inv w) (hc : Carries w w') (g : ℕ) :
    Ledger.Sound w.workerDatas.length (w'.ledger g) := by
  rcases hc g with heq | hmove
  · rw [heq]
    exact hw.sound g
  · exact (hw.sound g).moves hmove

/-- A step that also keeps count of the workers that were asked. -/
structure Handles (w w' : Gateway) : Prop extends Frame w w' where
  asking : ∀ g index, w'.asking = some (g, index) → index < w'.workerDatas.length
  spread : Spread w'

lemma Inv.frame (hw : Inv w) (hf : Handles w w') (hc : Carries w w') : Inv w' :=
  { hf.shape hw.toShape hf.asking with
    sound := by
      rw [hf.workers]
      exact hw.carried hc
    workerCurrent := by
      rw [hf.workerCurrent, hf.current]
      exact hw.workerCurrent
    routes := by
      rw [hf.routes, hf.configs, hf.current]
      exact hw.routes
    active := by
      rw [hf.current]
      exact hf.active hw.active
    retired := by
      intro g hg
      rw [hf.current] at hg
      exact RetirementState.ne_active_mono (hf.le g) (hw.retired g hg)
    kept := by
      intro g hg hdone
      rw [hf.current] at hg
      rw [hf.versions]
      refine hf.kept g (hw.kept g hg fun hold => hdone ?_) hdone
      exact done_of_le (hold ▸ hf.le g)
    size := hf.size.trans hw.size
    spread := hf.spread }

lemma Frame.refl (w : Gateway) : Frame w w where
  published := rfl
  current := rfl
  workerCurrent := rfl
  routes := rfl
  configs := rfl
  workers := rfl
  versions := fun _ => rfl
  le := fun _ => le_rfl
  unborn := fun _ _ => rfl
  active := id
  found := fun _ entry hv => ⟨entry, hv, rfl⟩
  kept := fun _ hmem _ => hmem
  size := le_rfl

lemma Inv.handles (hw : Inv w) : Handles w w := ⟨.refl w, hw.asking, hw.spread⟩

lemma Frame.trans {v : Gateway} (hf : Frame w v) (hf' : Frame v w') : Frame w w' where
  published := hf'.published.trans hf.published
  current := hf'.current.trans hf.current
  workerCurrent := hf'.workerCurrent.trans hf.workerCurrent
  routes := hf'.routes.trans hf.routes
  configs := hf'.configs.trans hf.configs
  workers := hf'.workers.trans hf.workers
  versions := fun h => (hf'.versions h).trans (hf.versions h)
  le := fun h => (hf.le h).trans (hf'.le h)
  unborn := fun h hle => (hf'.unborn h (hf.published.trans_le hle)).trans (hf.unborn h hle)
  active := by
    intro hactive
    have hv := hf'.active
    rw [hf.current] at hv
    exact hv (hf.active hactive)
  found := by
    intro v entry hv
    obtain ⟨mid, hmid, heq⟩ := hf'.found v entry hv
    obtain ⟨old, hold, heq'⟩ := hf.found v mid hmid
    exact ⟨old, hold, heq.trans heq'⟩
  kept := by
    intro h hmem hdone
    have hkept := hf.kept h hmem fun hv => hdone (done_of_le (hv ▸ hf'.le h))
    rw [← hf.versions] at hkept ⊢
    exact hf'.kept h hkept hdone
  size := hf'.size.trans hf.size

variable {k : RuntimeGeneration} {index : ℕ}

lemma frame_setGeneration (hg : g < w.published) (hversion : k.version = (w.heap g).version)
    (hle : (w.heap g).retirementState ≤ k.retirementState)
    (hactive : g = w.current → (w.heap g).retirementState = .active → k.retirementState = .active) :
    Frame w (w.setGeneration g k) :=
  { Frame.refl w with
    versions := by
      intro h
      by_cases hh : h = g
      · subst hh
        simpa [setGeneration] using hversion
      · simp [setGeneration, hh]
    le := by
      intro h
      by_cases hh : h = g
      · subst hh
        simpa [setGeneration] using hle
      · simp [setGeneration, hh]
    unborn := by
      intro h hpublished
      have hh : h ≠ g := by omega
      simp [setGeneration, hh]
    kept := fun _ hmem _ => hmem
    active := by
      intro hold
      by_cases hc : w.current = g
      · subst hc
        simpa [setGeneration] using hactive rfl hold
      · simpa [setGeneration, hc] using hold }

lemma post_eq (w : Gateway) (event : GenerationMailbox.Event) :
    ∃ mailbox refused, w.post event = { w with mailbox, refused } := by
  rw [post]
  split
  · exact ⟨w.mailbox, true, rfl⟩
  · next mailbox _ => exact ⟨mailbox, w.refused, rfl⟩

lemma postOrTerminate_eq (w : Gateway) (event : GenerationMailbox.Event) :
    ∃ mailbox refused terminated,
      w.postOrTerminate event = { w with mailbox, refused, terminated } := by
  obtain ⟨terminated, hterminated⟩ := postOrTerminate_eq_post w event
  obtain ⟨mailbox, refused, hpost⟩ := post_eq w event
  exact ⟨mailbox, refused, terminated, by rw [hterminated, hpost]⟩

/-- A step that ends with a `Post`. -/
lemma Inv.posted (hw : Inv w) {v : Gateway} {event : GenerationMailbox.Event} (hf : Handles w v)
    (hc : Carries w (v.postOrTerminate event)) : Inv (v.postOrTerminate event) := by
  obtain ⟨mailbox, refused, terminated, heq⟩ := postOrTerminate_eq v event
  rw [heq] at hc ⊢
  exact hw.frame { hf with } hc

lemma Inv.acquire (hw : Inv w) (hg : g < w.published)
    (hk : (w.heap g).tryAcquireRequestLease = some k) : Inv (w.setGeneration g k) := by
  have hle := (passes_tryAcquireRequestLease hk).1.le
  refine hw.frame ⟨frame_setGeneration hg ?_ hle ?_, hw.asking, hw.spread⟩ (carries_acquire hk)
  · obtain ⟨-, ⟨⟩⟩ := ite_none_left_eq_some.mp hk
    rfl
  · obtain ⟨-, ⟨⟩⟩ := ite_none_left_eq_some.mp hk
    exact fun _ hactive => hactive

lemma Inv.release (hw : Inv w) {calls : List RetirementCall} (hg : g < w.published)
    (hk : (w.heap g).releaseRequestLease = some (k, calls)) :
    Inv { w.setGeneration g k with
      notifying := w.notifying ++ replicate (calls.count .lastLease) g } := by
  have hversion := version_releaseRequestLease hk
  have hf : Frame w (w.setGeneration g k) := by
    have hle := (passes_releaseRequestLease hk).le
    refine frame_setGeneration hg hversion hle fun _ hactive => ?_
    -- an active generation has running checkers, so its release does not advance it
    have hstops : (w.ledger g).stops = 0 := by
      by_contra hne
      have hle := (hw.sound g).draining hne
      rw [show (w.ledger g).generation.retirementState = .active from hactive] at hle
      exact absurd hle (by decide)
    have hstopped := ((hw.sound g).running hstops).1
    rw [(releaseRequestLease_running hk hstopped (by rw [hactive]; nofun)).2]
    exact hactive
  exact hw.frame { hf, hw.handles with } (carries_release hk)

lemma Inv.runTask (hw : Inv w) {worker : ℕ} (hindex : w.tasks[index]? = some (worker, g)) :
    Inv ({ w with
      tasks := w.tasks.eraseIdx index
      returned := w.returned ++ [(worker, g)] }.postOrTerminate ⟨.workerBalancesReturned, g⟩) := by
  refine hw.posted { hw.handles with
    spread := fun h hh => (hw.spread h hh).imp id fun hall i hi => ?_ } (carries_runTask hindex)
  rcases hall i hi with hasking | htask | hreturned
  · exact .inl hasking
  · -- the task of the worker is the one that ran, or another one
    by_cases hsame : (i, h) = (worker, g)
    · rw [hsame]
      exact .inr (.inr (mem_append_right _ (mem_singleton_self _)))
    · refine .inr (.inl ?_)
      obtain ⟨j, hj⟩ := getElem?_of_mem htask
      refine mem_eraseIdx_iff_getElem?.mpr ⟨j, ?_, hj⟩
      rintro rfl
      exact hsame (some.inj (hj.symm.trans hindex))
  · exact .inr (.inr (mem_append_left _ hreturned))

lemma asking_next {i : ℕ} (hasking : w.asking = some (g, index)) {j : ℕ} (hj : j ≤ i)
    (hi : w.workerDatas[i]? = some true) (hold : w.asking = some (h, j)) (hne : i ≠ index) :
    ∃ j ≤ i, (if index + 1 < w.workerDatas.length then some (g, index + 1) else none) =
      some (h, j) := by
  obtain ⟨rfl, rfl⟩ := Prod.mk.inj (Option.some.inj (hasking.symm.trans hold))
  obtain ⟨hlt, -⟩ := List.getElem?_eq_some_iff.mp hi
  exact ⟨index + 1, by omega, if_pos (by omega)⟩

lemma askWorker_cases (w : Gateway) (g index : ℕ) (accepted : Bool) :
    w.askWorker g index accepted = { w with
        asking := if index + 1 < w.workerDatas.length then some (g, index + 1) else none
        tasks := w.tasks ++ [(index, g)] } ∨
      w.askWorker g index accepted = { w with terminated := true } ∨
      w.workerDatas[index]? ≠ some true ∧ ∃ mailbox refused, w.askWorker g index accepted = { w with
          asking := if index + 1 < w.workerDatas.length then some (g, index + 1) else none
          mailbox
          refused } := by
  rw [askWorker]
  split
  · split
    · exact .inl rfl
    · exact .inr (.inl rfl)
  · next hdata =>
    obtain ⟨mailbox, refused, heq⟩ := post_eq { w with
      asking := if index + 1 < w.workerDatas.length then some (g, index + 1) else none }
      ⟨.workerBalancesReturned, g⟩
    exact .inr (.inr ⟨hdata, mailbox, refused, heq⟩)

lemma Inv.askWorker (hw : Inv w) (hasking : w.asking = some (g, index)) (accepted : Bool) :
    Inv (w.askWorker g index accepted) := by
  have hc := carries_askWorker hw.toShape hasking accepted
  have hnext (h j : ℕ) (hj : (if index + 1 < w.workerDatas.length then some (g, index + 1)
      else none) = some (h, j)) : j < w.workerDatas.length := by
    obtain ⟨hlt, ⟨⟩⟩ := ite_none_right_eq_some.mp hj
    exact hlt
  rcases askWorker_cases w g index accepted with heq | heq | ⟨hdata, mailbox, refused, heq⟩
  · rw [heq] at hc ⊢
    refine hw.frame { hw.handles with
      asking := hnext
      spread := fun h hh => (hw.spread h hh).imp id fun hall i hi => ?_ } hc
    rcases hall i hi with ⟨j, hj, hold⟩ | htask | hreturned
    · by_cases hne : i = index
      · obtain ⟨rfl, rfl⟩ := Prod.mk.inj (some.inj (hasking.symm.trans hold))
        subst hne
        exact .inr (.inl (mem_append_right _ (mem_singleton_self _)))
      · exact .inl (asking_next hasking hj hi hold hne)
    · exact .inr (.inl (mem_append_left _ htask))
    · exact .inr (.inr hreturned)
  · rw [heq] at hc ⊢
    exact hw.frame { hw.handles with } hc
  rw [heq] at hc ⊢
  refine hw.frame { hw.handles with
    asking := hnext
    spread := fun h hh => (hw.spread h hh).imp id fun hall i hi => ?_ } hc
  rcases hall i hi with ⟨j, hj, hold⟩ | hrest
  · refine .inl (asking_next hasking hj hi hold ?_)
    rintro rfl
    exact hdata hi
  · exact .inr hrest

/-! ## Events -/

lemma spread_stopCheckers (hspread : Spread w) (g : ℕ) : Spread (w.stopCheckers g) := by
  -- what is appended to the log is no call of `RequestWorkerBalanceReturn`
  obtain ⟨-, heq⟩ | ⟨k, calls, -, ⟨-, heq⟩ | ⟨m, more, -, heq⟩⟩ := stopCheckers_cases w g
  all_goals
    rw [heq]
    intro h hh
    refine hspread h ?_
    simpa [setGeneration] using hh

lemma handles_stopCheckers {v : Gateway} (hf : Frame w v) (hv : Shape v) (hsv : Spread v)
    (hg : g < v.current) : Handles w (v.stopCheckers g) := by
  have hspread := spread_stopCheckers hsv g
  obtain ⟨k, reapers, actions, heq, hversion, hle⟩ := stopCheckers_eq v g
  have hpublished := hv.published
  rw [heq] at hspread ⊢
  have hset : Frame v (v.setGeneration g k) :=
    frame_setGeneration (by omega) hversion hle fun hc => absurd hc hg.ne
  exact ⟨hf.trans { hset with }, hv.asking, hspread⟩

lemma handles_requestWorkerBalanceReturn (hw : Shape w) (hsw : Spread w)
    (hasking : w.asking = none) (hg : g < w.current) :
    Handles w (w.requestWorkerBalanceReturn g) := by
  rw [requestWorkerBalanceReturn]
  have hspread (hstopped : w.workersStopped ∨ w.workerDatas = []) :
      Spread { w with actions := w.actions ++ [.returnBalances g] } := by
    intro h hh
    rcases mem_append.mp hh with hold | hnew
    · exact hsw h hold
    · rcases hstopped with hstopped | hnil
      · exact .inl hstopped
      · refine .inr fun i hi => ?_
        rw [show w.workerDatas = [] from hnil] at hi
        cases hi
  split
  · next hstopped =>
    have hshape : Shape { w with actions := w.actions ++ [.returnBalances g] } :=
      { hw with }
    exact handles_stopCheckers { Frame.refl w with } hshape (hspread hstopped) hg
  next hstopped =>
  rw [not_or] at hstopped
  refine ⟨{ Frame.refl w with }, ?_, fun h hh => ?_⟩
  · rintro h index ⟨⟩
    exact length_pos_iff.mpr hstopped.2
  rcases mem_append.mp hh with hold | hnew
  · rcases hsw h hold with hs | hall
    · exact .inl hs
    · refine .inr fun i hi => .inr ?_
      rcases hall i hi with ⟨j, -, hj⟩ | hrest
      · rw [hasking] at hj
        cases hj
      · exact hrest
  · obtain rfl : h = g := by simpa using hnew
    exact .inr fun i _ => .inl ⟨0, Nat.zero_le i, rfl⟩

lemma frame_returned {entry : RetiringGeneration} {v : ℕ}
    (hfind : find w.retiring v = some entry) (n : ℕ) :
    Frame w { w with
      retiring := (w.retiring.insert v { entry with returnedWorkerBalances := n }) } := by
  have hmem : v ∈ w.retiring := by
    by_contra hnot
    rw [find_eq_none.mpr hnot] at hfind
    cases hfind
  exact { Frame.refl w with
    found := by
      intro u new hu
      by_cases huv : u = v
      · subst huv
        refine ⟨entry, hfind, ?_⟩
        rw [← some.inj (find_insert.symm.trans hu)]
      · exact ⟨new, (find_insert_of_ne huv).symm.trans hu, rfl⟩
    kept := fun h hh _ => (mem_insert _).mpr (.inr hh)
    size := by
      rw [keys_insert, length_cons, length_erase_of_mem hmem]
      have hpos := length_pos_of_mem hmem
      omega }

lemma frame_forget (hw : Shape w) {entry : RetiringGeneration}
    (hfind : find w.retiring (w.heap g).version = some entry)
    (hstate : (w.heap g).retirementState = .outcomeDraining) :
    Frame w { w.setGeneration g (w.heap g).markRetired.1 with
      retiring := w.retiring.erase (w.heap g).version } := by
  obtain ⟨-, hg, hversions⟩ := hw.found hfind
  have hpublished := hw.published
  have hversion : (w.heap g).markRetired.1.version = (w.heap g).version :=
    (kept_call (c := .markRetired) rfl).2
  have hf : Frame w (w.setGeneration g (w.heap g).markRetired.1) :=
    frame_setGeneration (by omega) hversion (passes_markRetired _).le
      fun hc => absurd hc hg.ne
  exact { hf with
    found := by
      intro u old hu
      by_cases huv : u = (w.heap g).version
      · subst huv
        rw [find_erase] at hu
        cases hu
      · exact ⟨old, (find_erase_of_ne huv).symm.trans hu, rfl⟩
    kept := by
      intro h hmem hdone
      by_cases hh : h = g
      · subst hh
        refine absurd ?_ hdone
        simp [setGeneration, markRetired, hstate]
      · exact mem_erase.mpr ⟨hversions h hh, hmem⟩
    size := by
      rw [keys_erase]
      exact length_erase_le }

lemma handles_handleEvent {kind : GenerationMailbox.Kind} (hw : Shape w) (hsw : Spread w)
    (hasking : w.asking = none)
    (hfinished : kind = .reaperFinished → (w.heap g).retirementState = .outcomeDraining) :
    Handles w (w.handleEvent ⟨kind, g⟩) := by
  rw [handleEvent]
  split
  · exact ⟨.refl w, hw.asking, hsw⟩
  next entry hfind =>
  obtain ⟨-, hg, -⟩ := hw.found hfind
  cases kind with
  | lastRequestLeaseReleased => exact handles_requestWorkerBalanceReturn hw hsw hasking hg
  | reaperFinished => exact ⟨frame_forget hw hfind (hfinished rfl), hw.asking, hsw⟩
  | workerBalancesReturned =>
    have hf := frame_returned hfind (entry.returnedWorkerBalances + 1)
    dsimp only
    split
    · exact handles_stopCheckers hf (hf.shape hw hw.asking) hsw hg
    · exact ⟨hf, hw.asking, hsw⟩

lemma Inv.handles_handle (hw : Inv w) {event : GenerationMailbox.Event}
    {batch : List GenerationMailbox.Event} (hasking : w.asking = none)
    (hbatch : w.batch = event :: batch) : Handles w ({ w with batch }.handleEvent event) := by
  obtain ⟨kind, g⟩ := event
  have hfinished : kind = .reaperFinished → (w.heap g).retirementState = .outcomeDraining := by
    rintro rfl
    have hsound := hw.sound g
    rw [ledger_pop hbatch, if_pos rfl] at hsound
    exact hsound.of_finished.2.1
  have hf := handles_handleEvent (w := { w with batch })
    { hw.toShape with } hw.spread hasking hfinished
  have hbatch' : Frame w { w with batch } := { Frame.refl w with }
  exact { hf, hbatch'.trans hf.toFrame with }

lemma Inv.handle (hw : Inv w) {event : GenerationMailbox.Event}
    {batch : List GenerationMailbox.Event} (hasking : w.asking = none)
    (hbatch : w.batch = event :: batch) : Inv ({ w with batch }.handleEvent event) :=
  hw.frame (hw.handles_handle hasking hbatch) (carries_handleEvent hw.toShape hasking hbatch)

/-! ## Reloads -/

lemma retireGeneration_publish (hw : Inv w) (candidate : Config) :
    ∃ k calls mailbox refused terminated, (w.heap w.current).beginRetirement = some (k, calls) ∧
      (w.publish candidate).retireGeneration w.current =
        { (w.publish candidate).setGeneration w.current k with
          retiring := (w.retiring.insert (w.heap w.current).version { generation := w.current })
          mailbox
          refused
          terminated } := by
  have hpublished := hw.published
  have hne : w.current ≠ w.published := by omega
  obtain ⟨⟨k, calls⟩, hk⟩ : ∃ r, (w.heap w.current).beginRetirement = some r := by
    rw [beginRetirement, if_neg (not_not.mpr hw.active)]
    exact ⟨_, rfl⟩
  refine ⟨k, calls, ?_⟩
  have heq := retireGeneration_eq (hw.notMem_publish candidate)
    (by rw [heap_publish_of_ne hne]; exact hk)
  rw [heap_publish_of_ne hne] at heq
  rw [heq]
  split
  · obtain ⟨mailbox, refused, terminated, hpost⟩ := postOrTerminate_eq
      { (w.publish candidate).setGeneration w.current k with
        retiring := ((w.publish candidate).retiring.insert (w.heap w.current).version
          { generation := w.current }) } ⟨.lastRequestLeaseReleased, w.current⟩
    exact ⟨mailbox, refused, terminated, hk, hpost⟩
  · exact ⟨w.mailbox, w.refused, w.terminated, hk, rfl⟩

lemma Inv.heap_reload (hw : Inv w) (candidate : Config) (k : RuntimeGeneration) :
    ((w.publish candidate).setGeneration w.current k).heap w.current = k ∧
      ((w.publish candidate).setGeneration w.current k).heap w.published =
        ofConfig ((w.heap w.current).version + 1) candidate ∧
      ∀ g, g ≠ w.current → g ≠ w.published →
        ((w.publish candidate).setGeneration w.current k).heap g = w.heap g := by
  have hpublished := hw.published
  have hne : w.published ≠ w.current := by omega
  refine ⟨update_self _ _ _, ?_, fun g hg hg' => ?_⟩
  · exact (update_of_ne hne _ _).trans (heap_publish_self w candidate)
  · exact (update_of_ne hg _ _).trans (heap_publish_of_ne hg')

lemma Inv.current_notMem_retiring (hw : Inv w) : (w.heap w.current).version ∉ w.retiring := by
  rw [hw.version_current]
  exact find_eq_none.mp (hw.find_eq_none_of_lt (.inr (Nat.lt_succ_self _)))

lemma retiring_of_beginRetirement {d : RuntimeGeneration} {calls : List RetirementCall}
    (hk : d.beginRetirement = some (k, calls)) : k.retirementState = .retiring := by
  obtain ⟨-, e, rfl, ⟨-, rfl, -⟩ | ⟨-, rfl, -⟩⟩ := beginRetirement_cases hk
  · exact state_notifyLastLease _
  · rfl

lemma Inv.requestReload (hw : Inv w) (candidate : Config) (p : Preparation) :
    Inv (w.requestReload candidate p).1 := by
  have hc := carries_requestReload hw.toShape hw.active candidate p
  rcases requestReload_cases w candidate p with heq | ⟨-, -, hsize, -, heq⟩
  · rw [heq]
    exact hw
  obtain ⟨k, calls, mailbox, refused, terminated, hk, hretire⟩ :=
    retireGeneration_publish hw candidate
  have hpublished := hw.published
  have hversion := (kept_call (c := .beginRetirement) hk).2
  have hstate := retiring_of_beginRetirement hk
  have hcurrent := hw.version_current
  obtain ⟨hself, hnew, hother⟩ := hw.heap_reload candidate k
  rw [heq] at hc ⊢
  rw [hretire] at hc ⊢
  exact {
    published := rfl
    versions := by
      intro g hg
      replace hg : g < w.published + 1 := hg
      by_cases hgc : g = w.current
      · subst hgc
        exact (congrArg version hself).trans (hversion.trans hcurrent)
      by_cases hgp : g = w.published
      · subst hgp
        refine (congrArg version hnew).trans ?_
        rw [ofConfig, hcurrent, hpublished]
      · exact (congrArg version (hother g hgc hgp)).trans
          (hw.versions g (by omega))
    unborn := by
      intro g hg
      replace hg : w.published + 1 ≤ g := hg
      have hheap := hother g (by omega) (by omega)
      have hold := hw.unborn g (by omega)
      rw [← hheap] at hold
      exact hold
    keys := by
      intro v entry hv
      by_cases hvc : v = (w.heap w.current).version
      · subst hvc
        obtain rfl := some.inj (find_insert.symm.trans hv)
        exact ⟨show w.current < w.published by omega, hcurrent⟩
      · obtain ⟨hlt, hkey⟩ := hw.keys v entry ((find_insert_of_ne hvc).symm.trans hv)
        exact ⟨show entry.generation < w.published by omega, hkey⟩
    asking := hw.asking
    sound := hw.carried hc
    workerCurrent := rfl
    routes := (update_self w.published candidate w.configs).symm
    active := congrArg retirementState hnew
    retired := by
      intro g hg
      replace hg : g < w.published := hg
      by_cases hgc : g = w.current
      · subst hgc
        intro hactive
        cases hstate.symm.trans ((congrArg retirementState hself).symm.trans
          hactive)
      · intro hactive
        refine hw.retired g (by omega) ?_
        exact (congrArg retirementState (hother g hgc (by omega))).symm.trans
          hactive
    kept := by
      intro g hg hdone
      replace hg : g < w.published := hg
      by_cases hgc : g = w.current
      · subst hgc
        refine (mem_insert _).mpr (.inl ?_)
        exact (congrArg version hself).trans hversion
      · have hheap := hother g hgc (by omega)
        have hold := hw.kept g (by omega)
        rw [← hheap] at hold
        exact (mem_insert _).mpr (.inr (hold hdone))
    size := by
      rw [keys_insert, length_cons, erase_of_not_mem hw.current_notMem_retiring]
      exact hsize
    spread := hw.spread }

lemma Inv.step {e : Event} (hw : Inv w) (hstep : step w e = some w') : Inv w' := by
  have hc := carries_step hw.toShape hw.active hstep
  obtain ⟨-, hstep⟩ := ite_none_left_eq_some.mp hstep
  cases e with
  | requestReload candidate p =>
    obtain ⟨-, ⟨⟩⟩ := ite_none_right_eq_some.mp hstep
    exact hw.requestReload candidate p
  | acquire g =>
    obtain ⟨hg, hstep⟩ := ite_none_right_eq_some.mp hstep
    obtain ⟨k, hk, rfl⟩ := map_eq_some_iff.mp hstep
    exact hw.acquire hg hk
  | release g =>
    obtain ⟨hg, hstep⟩ := ite_none_right_eq_some.mp hstep
    obtain ⟨⟨k, calls⟩, hk, rfl⟩ := map_eq_some_iff.mp hstep
    exact hw.release hg hk
  | notify index =>
    obtain ⟨g, -, rfl⟩ := map_eq_some_iff.mp hstep
    exact hw.posted { hw.handles with } hc
  | drain | stop =>
    obtain ⟨-, ⟨⟩⟩ := ite_none_right_eq_some.mp hstep
    exact hw.frame { hw.handles with } hc
  | handle =>
    dsimp only at hstep
    split at hstep
    · next event batch hasking hbatch =>
      cases hstep
      exact hw.handle hasking hbatch
    · cases hstep
  | ask accepted =>
    obtain ⟨⟨g, index⟩, hasking, rfl⟩ := map_eq_some_iff.mp hstep
    exact hw.askWorker hasking accepted
  | runTask index =>
    obtain ⟨⟨worker, g⟩, hg, rfl⟩ := map_eq_some_iff.mp hstep
    exact hw.runTask hg
  | finishReaper index =>
    obtain ⟨g, -, rfl⟩ := map_eq_some_iff.mp hstep
    exact hw.posted { hw.handles with } hc
  | stopWorkers =>
    obtain ⟨-, ⟨⟩⟩ := ite_none_right_eq_some.mp hstep
    exact hw.frame { hw.handles with
      workers := length_map _
      asking := fun g index hasking => (length_map _).symm ▸ hw.asking g index hasking
      spread := fun _ _ => .inl rfl } hc

lemma inv_of_reaches {config : Config} (h : Reaches step (create config) w) : Inv w :=
  h.invariant (inv_create config) fun _ _ _ hi hs => hi.step hs

/-! ## The theorem -/

lemma Inv.requestReload_true (hw : Inv w) {candidate : Config} {p : Preparation}
    (htrue : w.requestReload candidate p = (w', true)) :
    (w'.heap w'.current).version = (w.heap w.current).version + 1 ∧
      w'.workerCurrent = w'.current ∧ w'.routes = candidate ∧ w'.configs w'.current = candidate ∧
      (w.heap w.current).version ∉ w.retiring ∧
      w'.retiring = w.retiring.insert (w.heap w.current).version { generation := w.current } := by
  rcases requestReload_cases w candidate p with heq | ⟨-, -, -, -, heq⟩
  · cases heq.symm.trans htrue
  obtain ⟨k, calls, mailbox, refused, terminated, -, hretire⟩ :=
    retireGeneration_publish hw candidate
  obtain rfl := (Prod.mk.inj (heq.symm.trans htrue)).1
  rw [hretire]
  obtain ⟨_, hnew, _⟩ := hw.heap_reload candidate k
  exact ⟨congrArg version hnew, rfl, rfl, update_self _ _ _,
    hw.current_notMem_retiring, rfl⟩

lemma Inv.returned_of_collected (hw : Inv w) (hreturns : 0 < (w.ledger g).returns)
    (hunasked : (w.ledger g).unasked = 0) (htasks : (w.ledger g).tasks = 0) :
    w.workersStopped ∨ ∀ i, w.workerDatas[i]? = some true → (i, g) ∈ w.returned := by
  rcases hw.spread g (count_pos_iff.mp hreturns) with hstopped | hall
  · exact .inl hstopped
  refine .inr fun i hi => ?_
  rcases hall i hi with ⟨j, -, hj⟩ | htask | hreturned
  · have hlt := hw.asking g j hj
    simp only [ledger, hj, unasked, if_true] at hunasked
    omega
  · rw [ledger, countP_eq_zero] at htasks
    exact absurd (decide_eq_true rfl) (htasks _ htask)
  · exact hreturned

lemma Inv.reap {e : Event} (hw : Inv w) (hstep : Gateway.step w e = some w')
    (hbefore : .reap g ∉ w.actions) (hafter : .reap g ∈ w'.actions) :
    (w.heap g).activeRequestLeases = 0 ∧
      (w.workersStopped ∨ ∀ i, w.workerDatas[i]? = some true → (i, g) ∈ w.returned) := by
  have hlt : (w.ledger g).reaps < (w'.ledger g).reaps := by
    have hzero : (w.ledger g).reaps = 0 := count_eq_zero.mpr hbefore
    rw [hzero]
    exact count_pos_iff.mpr hafter
  rcases carries_step hw.toShape hw.active hstep g with hstay | hmove
  · rw [hstay] at hlt
    exact absurd hlt (lt_irrefl _)
  obtain ⟨hleases, hcases⟩ := (hw.sound g).of_reaps hmove hlt
  refine ⟨hleases, ?_⟩
  rcases hcases with hstopped | hzero | ⟨hunasked, htasks, hreturns⟩
  · exact .inl hstopped
  · refine .inr fun i hi => ?_
    rw [length_eq_zero_iff.mp hzero] at hi
    cases hi
  · exact hw.returned_of_collected hreturns hunasked htasks

/-- **Reload is atomic.** In every state of every run: a call of `RequestReload` that returns
false changes nothing; one that returns true publishes the next version to both pointers and the
route table and puts exactly the previous generation into the map; the published generation is
active; the map is bounded; and each step of the pipeline is taken at most once for a generation,
the reaper only when it has no lease and every worker has returned its balance or the workers
were stopped. -/
theorem reload_atomic {config : Config} (h : Reaches step (create config) w) :
    (∀ candidate p w', w.requestReload candidate p = (w', false) → w' = w) ∧
      (∀ candidate p w', w.requestReload candidate p = (w', true) →
        (w'.heap w'.current).version = (w.heap w.current).version + 1 ∧
        w'.workerCurrent = w'.current ∧ w'.routes = candidate ∧
        w'.configs w'.current = candidate ∧ (w.heap w.current).version ∉ w.retiring ∧
        w'.retiring = w.retiring.insert (w.heap w.current).version { generation := w.current }) ∧
      ((w.heap w.current).retirementState = .active ∧ w.workerCurrent = w.current ∧
        w.routes = w.configs w.current) ∧
      w.retiring.keys.length ≤ kMaxRetiringGenerations ∧
      (∀ g, w.actions.count (.returnBalances g) ≤ 1 ∧ w.actions.count (.stopCheckers g) ≤ 1 ∧
        w.actions.count (.reap g) ≤ 1) ∧
      ∀ e w' g, step w e = some w' → .reap g ∉ w.actions → .reap g ∈ w'.actions →
        (w.heap g).activeRequestLeases = 0 ∧
        (w.workersStopped ∨ ∀ i, w.workerDatas[i]? = some true → (i, g) ∈ w.returned) := by
  have hw := inv_of_reaches h
  refine ⟨fun candidate p w' hfalse => ?_, fun candidate p w' => hw.requestReload_true,
    ⟨hw.active, hw.workerCurrent, hw.routes⟩, hw.size, fun g => ?_, fun e w' g => hw.reap⟩
  · rcases requestReload_cases w candidate p with heq | ⟨-, -, -, -, heq⟩
    · exact (Prod.mk.inj (heq.symm.trans hfalse)).1.symm
    · cases heq.symm.trans hfalse
  · have hsound := hw.sound g
    have hstops : (w.ledger g).stops ≤ 1 := hsound.stops_le.trans hsound.returns_le
    exact ⟨hsound.returns_le, hstops, hsound.reaps.trans_le hstops⟩

/-- A reload, and the whole pipeline for the generation it retires. -/
theorem reload_atomic_retired :
    ∃ w, run step (create { routes := [] }) [.requestReload { routes := [] } {}, .drain, .handle,
        .ask true, .runTask 0, .drain, .handle, .finishReaper 0, .drain, .handle] = some w ∧
      w.actions = [.returnBalances 0, .stopCheckers 0, .reap 0] ∧ w.retiring.keys = [] ∧
      (w.heap w.current).version = 2 ∧ (w.heap w.current).retirementState = .active := by
  refine ⟨_, rfl, rfl, rfl, rfl, ?_⟩
  have hrun : Reaches step (create { routes := [] }) _ := ⟨[.requestReload { routes := [] } {},
    .drain, .handle, .ask true, .runTask 0, .drain, .handle, .finishReaper 0, .drain, .handle], rfl⟩
  exact (reload_atomic hrun).2.2.1.1

end AegisGate.Gateway
