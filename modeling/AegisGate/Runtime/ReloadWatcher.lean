import AegisGate.Lib.Transition
import AegisGate.Http.RequestParser

/-!
# The watch on the configuration file

`HandleInotify` of `src/runtime/ReloadWatcher.cpp` walks over the events of one `read`. An event
that invalidates the watch makes it call `TryRewatch` and look at the same event again, which it
passes over if the directory then has another descriptor.
-/

namespace AegisGate.Runtime
open Http Lib Option

/-- What the cast to `inotify_event` reads; `name` ends at the first zero byte. -/
structure InotifyEvent where
  wd : ℤ
  mask : UInt32
  len : UInt32
  name : Bytes

/-- The buffer of one `read`: the bytes it returned, and the event at every offset. -/
structure EventBuffer where
  count : ℕ
  eventAt : ℕ → InotifyEvent

/-- `IN_IGNORED | IN_DELETE_SELF | IN_MOVE_SELF`. -/
def kWatchInvalidationMask : UInt32 := 0x8000 ||| 0x400 ||| 0x800

/-- `IN_CLOSE_WRITE | IN_MOVED_TO | IN_ATTRIB`. -/
def kWatchChangeMask : UInt32 := 0x8 ||| 0x80 ||| 0x4

/-- The watcher in the inner loop. The timers are pending or not; `handled` has the offsets of the
events of the watch, as they are handled. -/
structure ReloadWatcher where
  filename : Bytes
  watchDescriptor : ℤ
  rewatchAttempts : ℕ := 0
  rewatchTimer : Bool := false
  debounceTimer : Bool := false
  offset : ℕ := 0
  handled : List ℕ := []

namespace ReloadWatcher
variable (s : ReloadWatcher) (b : EventBuffer)

/-- `TryRewatch`; `newWd` is what `inotify_add_watch` returns. -/
def tryRewatch (newWd : ℤ) : ReloadWatcher :=
  let s := { s with rewatchAttempts := s.rewatchAttempts + 1 }
  if 0 ≤ newWd then
    { s with watchDescriptor := newWd, rewatchTimer := false, debounceTimer := true }
  else { s with rewatchTimer := true }

/-- The event at the offset belongs to the watch and ends it. -/
def invalidated : Bool :=
  (b.eventAt s.offset).wd = s.watchDescriptor &&
    (b.eventAt s.offset).mask &&& kWatchInvalidationMask != 0

def rewatch (newWd : ℤ) : ReloadWatcher :=
  { s with watchDescriptor := -1, handled := s.handled ++ [s.offset] }.tryRewatch newWd

/-- The branch of the other events of the watch. -/
def handle : ReloadWatcher :=
  let event := b.eventAt s.offset
  if event.wd = s.watchDescriptor then
    { s with
      debounceTimer := s.debounceTimer || (event.len != 0 && s.filename == event.name &&
        event.mask &&& kWatchChangeMask != 0)
      handled := s.handled ++ [s.offset] }
  else s

/-- One turn of the inner loop; `none` is its end. -/
def turn (newWd : ℤ) : Option ReloadWatcher :=
  let eventSize := 16 + (b.eventAt s.offset).len.toNat
  if b.count ≤ s.offset ∨ eventSize = 0 ∨ b.count < s.offset + eventSize then none
  else if s.invalidated b then some (s.rewatch newWd)
  else some { s.handle b with offset := s.offset + eventSize }

/-- The first turns of the loop, with the answers of the kernel. -/
def turns (answers : ℕ → ℤ) (n : ℕ) : Option ReloadWatcher :=
  run (turn · b) s ((List.range n).map answers)

lemma turns_succ (answers : ℕ → ℤ) (n : ℕ) :
    s.turns b answers (n + 1) = (s.turns b answers n).bind fun t => t.turn b (answers n) := by
  rw [turns, List.range_succ, List.map_append, run_append]
  simp [turns]

/-- After a turn that has called `TryRewatch` the watch is not the one the event belongs to. -/
def Renews (answers : ℕ → ℤ) : Prop :=
  ∀ n t t', s.turns b answers n = some t → t.turn b (answers n) = some t' →
    t.invalidated b → t'.watchDescriptor ≠ (b.eventAt t.offset).wd

/-- What holds after `n` turns. An event that was handled is behind, or of another watch. -/
structure Passing (n : ℕ) : Prop where
  turns : n + 2 * (b.count - s.offset) + (s.invalidated b).toNat ≤ 2 * b.count + 1
  increasing : s.handled.Pairwise (· < ·)
  behind : ∀ o ∈ s.handled, o < s.offset ∨
    o = s.offset ∧ (b.eventAt s.offset).wd ≠ s.watchDescriptor

variable {s b} {t : ReloadWatcher} {n : ℕ}

lemma offset_rewatch (newWd : ℤ) :
    (s.rewatch newWd).offset = s.offset ∧ (s.rewatch newWd).handled = s.handled ++ [s.offset] := by
  rw [rewatch, tryRewatch]
  split <;> exact ⟨rfl, rfl⟩

lemma Passing.concat (h : s.Passing b n) (hwd : (b.eventAt s.offset).wd = s.watchDescriptor) :
    (s.handled ++ [s.offset]).Pairwise (· < ·) ∧ ∀ o ∈ s.handled ++ [s.offset], o ≤ s.offset := by
  have hlt : ∀ o ∈ s.handled, o < s.offset := fun o ho =>
    (h.behind o ho).resolve_right fun heq => heq.2 hwd
  refine ⟨List.pairwise_append.mpr ⟨h.increasing, by simp, by simpa using hlt⟩, fun o ho => ?_⟩
  rcases List.mem_append.mp ho with ho | ho
  · exact (hlt o ho).le
  · exact (List.mem_singleton.mp ho).le

lemma Passing.turn (h : s.Passing b n) {newWd : ℤ} (hrenews : s.invalidated b →
      t.watchDescriptor ≠ (b.eventAt s.offset).wd)
    (ht : s.turn b newWd = some t) : t.Passing b (n + 1) := by
  obtain ⟨hroom, ht⟩ := Option.ite_none_left_eq_some.mp ht
  rw [not_or, not_or, not_le, not_lt] at hroom
  obtain ⟨hoffset, -, hfits⟩ := hroom
  have hturns := h.turns
  split at ht
  · next hinv =>
    cases ht
    obtain ⟨hsame, hhandled⟩ := offset_rewatch (s := s) newWd
    have hwd : (b.eventAt s.offset).wd = s.watchDescriptor := by
      simp only [invalidated, Bool.and_eq_true, decide_eq_true_eq] at hinv
      exact hinv.1
    have hother := hrenews hinv
    have hquiet : (s.rewatch newWd).invalidated b = false := by
      simp [invalidated, hsame, hother.symm]
    obtain ⟨hincreasing, hle⟩ := h.concat hwd
    refine ⟨?_, hhandled ▸ hincreasing, fun o ho => ?_⟩
    · rw [hsame, hquiet]
      rw [hinv] at hturns
      simp only [Bool.toNat_true, Bool.toNat_false] at hturns ⊢
      omega
    · rw [hsame]
      exact (hle o (hhandled ▸ ho)).lt_or_eq.imp_right fun heq => ⟨heq, hother.symm⟩
  · cases ht
    have hbit := Bool.toNat_le
      (({ s.handle b with offset := s.offset + (16 + (b.eventAt s.offset).len.toNat) } :
        ReloadWatcher).invalidated b)
    have hhandle : (s.handle b).handled.Pairwise (· < ·) ∧
        ∀ o ∈ (s.handle b).handled, o ≤ s.offset := by
      rw [handle]
      split
      · next hwd => exact h.concat hwd
      · exact ⟨h.increasing, fun o ho => (h.behind o ho).elim le_of_lt fun heq => heq.1.le⟩
    refine ⟨?_, hhandle.1, fun o ho => .inl ?_⟩
    · dsimp only at hbit ⊢
      omega
    · exact Nat.lt_of_le_of_lt (hhandle.2 o ho) (Nat.lt_add_of_pos_right (by omega))

lemma passing_of_renews {answers : ℕ → ℤ} (hoffset : s.offset = 0) (hhandled : s.handled = [])
    (h : s.Renews b answers) (n : ℕ) (t : ReloadWatcher) (ht : s.turns b answers n = some t) :
    t.Passing b n := by
  induction n generalizing t with
  | zero =>
    cases ht
    have hbit := Bool.toNat_le (s.invalidated b)
    exact ⟨by omega, by simp [hhandled], by simp [hhandled]⟩
  | succ n ih =>
    rw [turns_succ, bind_eq_some_iff] at ht
    obtain ⟨u, hu, ht⟩ := ht
    exact (ih u hu).turn (h n u t hu ht) ht

/-- The turn after one that left the watch: it handles the event again. -/
lemma handled_again {newWd : ℤ} (hinv : s.invalidated b) (ht : s.turn b newWd = some t)
    (hsame : t.watchDescriptor = (b.eventAt s.offset).wd) (answer : ℤ) :
    ∃ u, t.turn b answer = some u ∧ u.handled = s.handled ++ [s.offset] ++ [s.offset] := by
  obtain ⟨hroom, ht⟩ := ite_none_left_eq_some.mp ht
  rw [if_pos hinv] at ht
  cases ht
  obtain ⟨hoffset, hhandled⟩ := offset_rewatch (s := s) newWd
  have hagain : (s.rewatch newWd).invalidated b := by
    simp only [invalidated, Bool.and_eq_true, decide_eq_true_eq] at hinv ⊢
    rw [hoffset, hsame]
    exact ⟨rfl, hinv.2⟩
  refine ⟨(s.rewatch newWd).rewatch answer, ?_, ?_⟩
  · rw [turn, hoffset]
    dsimp only
    rw [if_neg hroom, if_pos hagain]
  · rw [(offset_rewatch answer).2, hhandled, hoffset]

/-- **When the inner loop ends** within two turns for every byte of the buffer and handles each
event at most once: exactly when `TryRewatch` never leaves the watch of the event it was called
for. -/
theorem ends_iff_renews (answers : ℕ → ℤ) (hoffset : s.offset = 0) (hhandled : s.handled = []) :
    (s.turns b answers (2 * b.count + 2) = none ∧
      ∀ n t, s.turns b answers n = some t → t.handled.Pairwise (· < ·)) ↔ s.Renews b answers := by
  constructor
  · rintro ⟨-, hincreasing⟩ n t t' ht hturn hinv hsame
    obtain ⟨u, hu, htwice⟩ := handled_again hinv hturn hsame (answers (n + 1))
    have hrun : s.turns b answers (n + 2) = some u := by
      rw [turns_succ, turns_succ, ht, bind_some, hturn, bind_some, hu]
    have hpairwise := hincreasing (n + 2) u hrun
    rw [htwice] at hpairwise
    simp [List.pairwise_append] at hpairwise
  · intro h
    have hpassing := passing_of_renews hoffset hhandled h
    refine ⟨?_, fun n t ht => (hpassing n t ht).increasing⟩
    rw [eq_none_iff_forall_ne_some]
    intro t ht
    have hturns := (hpassing _ t ht).turns
    omega

/-- The directory was moved; its new descriptor is 2. -/
def movedBuffer : EventBuffer := ⟨16, fun _ => ⟨1, 0x800, 0, []⟩⟩

theorem ends_iff_renews_moved :
    ({ filename := [], watchDescriptor := 1 } : ReloadWatcher).turns movedBuffer (fun _ => 2) 34 =
      none := by
  refine ((ends_iff_renews (fun _ => 2) rfl rfl).mpr fun n t t' _ hturn hinv => ?_).1
  obtain ⟨-, hturn⟩ := ite_none_left_eq_some.mp hturn
  rw [if_pos hinv] at hturn
  cases hturn
  simp [rewatch, tryRewatch, movedBuffer]

theorem turns_moved_back : ¬ ∃ n, ({ filename := [], watchDescriptor := 1 } : ReloadWatcher).turns
    movedBuffer (fun _ => 1) n = none := by
  have hsame (n : ℕ) : ∃ t, ({ filename := [], watchDescriptor := 1 } : ReloadWatcher).turns
      movedBuffer (fun _ => 1) n = some t ∧ t.offset = 0 ∧ t.watchDescriptor = 1 := by
    induction n with
    | zero => exact ⟨_, rfl, rfl, rfl⟩
    | succ n ih =>
      obtain ⟨t, ht, hoffset, hwd⟩ := ih
      have hinv : t.invalidated movedBuffer := by
        simp [invalidated, movedBuffer, hwd]
        decide
      refine ⟨t.rewatch 1, ?_, (offset_rewatch 1).1.trans hoffset, by simp [rewatch, tryRewatch]⟩
      rw [turns_succ, ht, bind_some, ReloadWatcher.turn, hinv]
      simp [hoffset, movedBuffer]
  rintro ⟨n, hnone⟩
  obtain ⟨t, ht, -⟩ := hsame n
  cases ht.symm.trans hnone

end ReloadWatcher
end AegisGate.Runtime
