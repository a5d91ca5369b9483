import AegisGate.Runtime.ReloadRequests

/-!
# When a parser thread cannot be started

`Request` moves the thread of the last parse out of `parser_` before it creates the next one, and
joins it after that. When the creation throws, the exception passes the join, and the destructor of
a thread that is still joinable calls `std::terminate`. A thread that has ended is joinable until
it is joined, so only a controller that has not parsed yet survives the failure.
-/

namespace AegisGate.Runtime
open Lib Option Bool

/-- The controller and its thread object. -/
structure ReloadThreads where
  controller : ReloadController := {}
  /-- `parser_` is joinable. -/
  parser : Bool := false
  /-- `std::terminate` was called. -/
  terminated : Bool := false

inductive ThreadEvent
  /-- A `Request` in which `std::thread` throws, should it come to create one. -/
  | requestFails
  | event (e : ReloadEvent)

namespace ReloadThreads

/-- `Request` comes to create a thread. -/
def creates (w : ReloadThreads) : Bool := !w.controller.stopping && !w.controller.parsing

def step (w : ReloadThreads) (e : ThreadEvent) : Option ReloadThreads :=
  if w.terminated then none
  else match e with
    | .requestFails =>
      if w.creates then
        -- `completed` holds what `parser_` held when the exception leaves the function.
        some { controller := { w.controller with parsing := false }, terminated := w.parser }
      else (w.controller.step .request).map fun controller => { w with controller }
    | .event .request => (w.controller.step .request).map fun controller =>
      { w with controller, parser := w.parser || w.creates }
    | .event .stop => (w.controller.step .stop).map fun controller =>
      { w with controller, parser := false }
    | .event e => (w.controller.step e).map fun controller => { w with controller }

/-- The condition: no thread was created before the creation that fails. -/
def FailsFirst (w : ReloadThreads) : ThreadEvent → Prop
  | .requestFails => w.creates → w.parser = false
  | .event _ => True

structure Sound (w : ReloadThreads) : Prop where
  inv : w.controller.Inv
  running : w.terminated = false

lemma Sound.step {w w' : ReloadThreads} {e : ThreadEvent} (h : Sound w) (hfirst : w.FailsFirst e)
    (hstep : w.step e = some w') : Sound w' := by
  obtain ⟨-, hstep⟩ := ite_none_left_eq_some.mp hstep
  cases e with
  | requestFails =>
    dsimp only at hstep
    split at hstep
    · next hcreates =>
      cases hstep
      have hidle : w.controller.parsing = false := by
        simp only [creates, and_eq_true, not_eq_true'] at hcreates
        exact hcreates.2
      refine ⟨?_, hfirst hcreates⟩
      rw [← hidle]
      exact h.inv
    · obtain ⟨c, hc, rfl⟩ := map_eq_some_iff.mp hstep
      exact ⟨h.inv.step hc, h.running⟩
  | event e =>
    cases e <;>
    · obtain ⟨c, hc, rfl⟩ := map_eq_some_iff.mp hstep
      exact ⟨h.inv.step hc, h.running⟩

/-- **A failed creation only throws** if it is the first: the process goes on, no parse is in
progress, and all requests that were answered are served as ever. -/
theorem survives_of_failsFirst {es : List ThreadEvent} {w : ReloadThreads}
    (hfirst : Along step FailsFirst {} es) (hrun : run step {} es = some w) :
    w.terminated = false ∧
      (∀ w', w.creates → w.step .requestFails = some w' → w'.controller.parsing = false) ∧
      (w.controller.stopping = false → w.controller.Served ∧ ∃ t, w.controller.ParserReaches t ∧
        t.parsing = false ∧ t.requests = w.controller.requests ∧ t.Served) := by
  have h : Sound w := (always_of_along (fun _ _ _ hs hp ht => Sound.step hs hp ht)
    ⟨ReloadController.inv_initial, rfl⟩ hfirst).final hrun
  refine ⟨h.running, fun w' hcreates hstep => ?_, fun hstop => ⟨h.inv.toServed hstop, ?_⟩⟩
  · obtain ⟨-, hstep⟩ := ite_none_left_eq_some.mp hstep
    dsimp only at hstep
    rw [if_pos hcreates] at hstep
    cases hstep
    rfl
  · obtain ⟨t, ⟨fs, hfs, hreach⟩, hidle, hsame, hrequests⟩ := h.inv.settles
    have ht : t.Inv := run_invariant (fun _ _ _ h ht => h.step ht) h.inv hreach
    exact ⟨t, ⟨fs, hfs, hreach⟩, hidle, hrequests, ht.toServed (hsame.trans hstop)⟩

/-- The first creation fails, and the next one does not. -/
theorem survives_of_retried :
    ∃ w, run step {} [.requestFails, .event .request] = some w ∧ w.controller.parsing ∧
      w.controller.Served := by
  have hrun : run step {} [.requestFails, .event .request] = some _ := rfl
  refine ⟨_, hrun, rfl, ((survives_of_failsFirst ?_ hrun).2.2 rfl).1⟩
  rintro _ ⟨⟩
  refine ⟨fun _ => rfl, ?_⟩
  rintro _ ⟨⟩
  exact ⟨trivial, trivial⟩

/-- A configuration was parsed, and the creation for the next request fails. -/
theorem terminates_of_finished :
    ∃ w, run step {} [.event .request, .event (.beginRead 0), .event (.parse 0 none),
        .event (.publish 0)] = some w ∧ w.controller.parsing = false ∧
      ∃ w', w.step .requestFails = some w' ∧ w'.terminated :=
  ⟨_, rfl, rfl, _, rfl, rfl⟩

end ReloadThreads
end AegisGate.Runtime
