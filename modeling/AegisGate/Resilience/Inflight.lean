import AegisGate.Lib.Handle
import AegisGate.Lib.Transition

/-!
# The in-flight limit

A route's in-flight counter is an atomic in a `State` that the `GlobalAdmission` owns. A
`Reservation` holds only a weak pointer to it: `Release` locks the pointer, resets it, and takes
one from the counter if the lock found the state. Both `TryAcquire` and `ReleaseOne` are
compare-exchange loops whose failed exchange loads the counter again.

Here any number of admissions, reservation objects and calls run together. A call is at one of
its points between two accesses to a counter; the local variable `state` of `Release` keeps the
state alive until the call returns. Every successful acquisition issues a new token, and the
tokens tell which acquisition a reservation stands for however it was moved.
-/

namespace AegisGate.Resilience
open Lib List Option Bool Function

namespace Inflight

structure State where
  inflight : UInt32 := 0
  maximum : UInt32
  deriving DecidableEq

/-- An acquisition: of which admission, and the how manieth of all. -/
structure Token where
  admission : ℕ
  serial : ℕ
  deriving DecidableEq, Repr

inductive Point
  /-- `TryAcquire`, before its load. -/
  | acquireLoad (admission : ℕ)
  /-- `TryAcquire`, before an exchange. -/
  | acquireExchange (admission : ℕ) (current : UInt32)
  /-- `TryAcquire` has returned true. -/
  | build (token : Token)
  /-- `ReleaseOne`, before its load. -/
  | releaseLoad (token : Token)
  /-- `ReleaseOne`, before an exchange. -/
  | releaseExchange (token : Token) (current : UInt32)
  /-- Before the end of `TryAcquireInflight`, or of `Release` with what it has locked. -/
  | returning (lock : Option ℕ)
  deriving DecidableEq

/-- A call in progress, with the target and the source if it is a move-assignment. -/
structure Call where
  point : Point
  assign : Option (ℕ × ℕ) := none
  deriving DecidableEq

end Inflight

/-- The in-flight counters and everything that uses them. -/
structure Inflight where
  states : ℕ → Inflight.State
  /-- The admissions that exist. -/
  owned : ℕ → Bool := fun _ => true
  /-- The `Reservation` objects. -/
  handles : List (Handle Inflight.Token) := []
  calls : List Inflight.Call := []
  issued : List Inflight.Token := []
  /-- The tokens that were taken off a counter. -/
  released : List Inflight.Token := []
  /-- The tokens whose release took nothing off. -/
  dropped : List Inflight.Token := []
  /-- `ReleaseOne` has found a counter at zero. -/
  guarded : Bool := false

namespace Inflight

/-- The admission whose state a call keeps alive. -/
def Point.lock : Point → Option ℕ
  | .releaseLoad token | .releaseExchange token _ => some token.admission
  | .returning lock => lock
  | .acquireLoad _ | .acquireExchange _ _ | .build _ => none

/-- A call of `TryAcquireInflight` on the admission. -/
def Point.acquires (a : ℕ) : Point → Bool
  | .acquireLoad admission | .acquireExchange admission _ => admission = a
  | .build token => token.admission = a
  | .releaseLoad _ | .releaseExchange _ _ | .returning _ => false

section
variable (w : Inflight)

/-- `lock` would find the state of the admission. -/
def held (a : ℕ) : Bool :=
  w.owned a || w.calls.any fun call => call.point.lock = some a

/-- The loop condition of `TryAcquire`, on the value just loaded. -/
def State.acquireTest (s : State) (a : ℕ) : Point :=
  if s.inflight < s.maximum then .acquireExchange a s.inflight else .returning none

def setPoint (i : ℕ) (call : Call) (point : Point) : Inflight :=
  { w with calls := w.calls.set i { call with point } }

/-- The loop condition of `ReleaseOne`, on the value just loaded. -/
def releaseTest (i : ℕ) (call : Call) (token : Token) : Inflight :=
  let current := (w.states token.admission).inflight
  if current ≠ 0 then w.setPoint i call (.releaseExchange token current)
  else { w.setPoint i call (.returning (some token.admission)) with
    dropped := w.dropped ++ [token]
    guarded := true }

/-- `Release` of what a handle gave up, to the point where it has locked and reset the pointer. -/
def beginRelease (token : Option Token) (assign : Option (ℕ × ℕ)) : Inflight :=
  match token with
  | none => { w with calls := w.calls ++ [{ point := .returning none, assign }] }
  | some token =>
    if w.held token.admission then
      { w with calls := w.calls ++ [{ point := .releaseLoad token, assign }] }
    else { w with
      calls := w.calls ++ [{ point := .returning none, assign }]
      dropped := w.dropped ++ [token] }

/-- The next action of a call; a weak exchange may fail for no reason. -/
def resume (i : ℕ) (call : Call) (spurious : Bool) : Option Inflight :=
  match call.point with
  | .acquireLoad a => some (w.setPoint i call ((w.states a).acquireTest a))
  | .acquireExchange a current =>
    let s := w.states a
    let token : Token := ⟨a, w.issued.length⟩
    if s.inflight = current ∧ spurious = false then
      some { w.setPoint i call (.build token) with
        states := update w.states a { s with inflight := current + 1 }
        issued := w.issued ++ [token] }
    else some (w.setPoint i call (s.acquireTest a))
  | .build token =>
    some { w with handles := w.handles ++ [.holding token], calls := w.calls.eraseIdx i }
  | .releaseLoad token => some (w.releaseTest i call token)
  | .releaseExchange token current =>
    let s := w.states token.admission
    if s.inflight = current ∧ spurious = false then
      some { w.setPoint i call (.returning (some token.admission)) with
        states := update w.states token.admission { s with inflight := current - 1 }
        released := w.released ++ [token] }
    else some (w.releaseTest i call token)
  | .returning _ =>
    match call.assign with
    | none => some { w with calls := w.calls.eraseIdx i }
    | some (target, source) =>
      (Handle.assign w.handles target source).map fun handles =>
        { w with handles, calls := w.calls.eraseIdx i }

inductive Event
  | tryAcquireInflight (admission : ℕ)
  | moveConstruct (source : ℕ)
  | moveAssign (target source : ℕ)
  /-- `Release`, or the destructor of a reservation. -/
  | release (handle : ℕ)
  /-- A call goes on. -/
  | resume (call : ℕ) (spurious : Bool)
  /-- The destructor of an admission, which no call of `TryAcquireInflight` uses any more. -/
  | destroy (admission : ℕ)
  deriving DecidableEq

/-- The state after an event; `none` when it cannot happen. -/
def step : Event → Option Inflight
  | .tryAcquireInflight a =>
    if w.owned a then some { w with calls := w.calls ++ [{ point := .acquireLoad a }] } else none
  | .moveConstruct source =>
    (Handle.moveConstruct w.handles source).map fun handles => { w with handles }
  | .moveAssign target source =>
    if target = source then some w
    else if source < w.handles.length then
      (Handle.take w.handles target .assigning).map fun (token, handles) =>
        { w with handles }.beginRelease token (some (target, source))
    else none
  | .release handle =>
    (Handle.take w.handles handle .empty).map fun (token, handles) =>
      { w with handles }.beginRelease token none
  | .resume i spurious => (w.calls[i]?).bind fun call => w.resume i call spurious
  | .destroy a =>
    if w.owned a ∧ w.calls.any (fun call => call.point.acquires a) = false then
      some { w with owned := update w.owned a false }
    else none

def create (maxima : ℕ → UInt32) : Inflight := { states := fun a => { maximum := maxima a } }

/-! ## Tokens -/

/-- The weight of the token a call carries: it was acquired and is not built yet, or its release
has begun and has not reached the counter. -/
def Call.weight (v : Token → ℕ) (call : Call) : ℕ :=
  match call.point with
  | .build token | .releaseLoad token | .releaseExchange token _ => v token
  | .acquireLoad _ | .acquireExchange _ _ | .returning _ => 0

/-- The weight of the tokens that count. -/
def live (v : Token → ℕ) : ℕ :=
  load (Handle.weight v) w.handles + load (Call.weight v) w.calls

def Token.of (a : ℕ) (token : Token) : ℕ := if token.admission = a then 1 else 0

def Token.is (t token : Token) : ℕ := if token = t then 1 else 0

/-- What a call knows of its admission. -/
def Planned : Point → Prop
  | .acquireLoad a => w.owned a
  | .acquireExchange a current => w.owned a ∧ current.toNat < (w.states a).maximum.toNat
  | .build token => w.owned token.admission
  | .releaseExchange _ current => current ≠ 0
  | .releaseLoad _ | .returning _ => True

end

variable {w w' : Inflight} {maxima : ℕ → UInt32}

/-- What holds in every state: the counter of a living state is the number of its live tokens,
and every token issued is live, released, or was dropped after its state had gone. -/
structure Inv (maxima : ℕ → UInt32) (w : Inflight) : Prop where
  counts : ∀ a, w.held a → (w.states a).inflight.toNat = w.live (Token.of a)
  bound : ∀ a, (w.states a).inflight.toNat ≤ (w.states a).maximum.toNat
  maximum : ∀ a, (w.states a).maximum = maxima a
  planned : ∀ call ∈ w.calls, w.Planned call.point
  places : ∀ v, w.live v + load v w.released + load v w.dropped = load v w.issued
  serials : w.issued.map Token.serial = range w.issued.length
  dropped : ∀ token ∈ w.dropped, w.held token.admission = false
  guarded : w.guarded = false

/-- A state that has gone stays away, and nothing is taken off it. -/
def Stable (w w' : Inflight) : Prop :=
  ∀ a, w.held a = false → w'.held a = false ∧ w'.states a = w.states a ∧
    ∀ token : Token, token.admission = a → w'.released.count token = w.released.count token

/-- What a step keeps. -/
structure Next (maxima : ℕ → UInt32) (w w' : Inflight) : Prop where
  inv : Inv maxima w'
  stable : Stable w w'

/-- No state comes back, and every call stands where its point says. -/
structure Orderly (w w' : Inflight) : Prop where
  held : ∀ a, w'.held a → w.held a
  planned : ∀ call ∈ w'.calls, w'.Planned call.point

lemma held_iff {a : ℕ} :
    w.held a ↔ w.owned a ∨ ∃ call ∈ w.calls, call.point.lock = some a := by
  simp [held]

lemma held_mono (howned : ∀ a, w'.owned a → w.owned a)
    (hcalls : ∀ call ∈ w'.calls, ∀ a, call.point.lock = some a → w.held a) (a : ℕ)
    (ha : w'.held a) : w.held a := by
  rcases held_iff.mp ha with ho | ⟨call, hcall, hlock⟩
  · exact held_iff.mpr (.inl (howned a ho))
  · exact hcalls call hcall a hlock

lemma held_of_mem {call : Call} (hcall : call ∈ w.calls) {a : ℕ}
    (hlock : call.point.lock = some a) : w.held a :=
  held_iff.mpr (.inr ⟨call, hcall, hlock⟩)

lemma Orderly.gone (ho : Orderly w w') {a : ℕ} (ha : w.held a = false) : w'.held a = false := by
  refine eq_false_iff.mpr fun htrue => ?_
  rw [ho.held a htrue] at ha
  cases ha

lemma Inv.of_moves (h : Inv maxima w) {owned : ℕ → Bool} {handles : List (Handle Token)}
    {calls : List Call} (hw : w' = { w with owned, handles, calls })
    (hlive : ∀ v, w'.live v = w.live v) (ho : Orderly w w') : Next maxima w w' := by
  subst hw
  refine ⟨{ h with
    counts := fun a ha => (h.counts a (ho.held a ha)).trans (hlive _).symm
    planned := ho.planned
    places := fun v => ?_
    dropped := fun token ht => ho.gone (h.dropped token ht) },
    fun a ha => ⟨ho.gone ha, rfl, fun _ _ => rfl⟩⟩
  rw [hlive]
  exact h.places v

lemma Inv.drop (h : Inv maxima w) {token : Token} (hgone : w.held token.admission = false)
    {handles : List (Handle Token)} {calls : List Call}
    (hw : w' = { w with handles, calls, dropped := w.dropped ++ [token] })
    (hlive : ∀ v, w'.live v + v token = w.live v) (ho : Orderly w w') : Next maxima w w' := by
  subst hw
  refine ⟨{ h with
    counts := fun a ha => ?_
    planned := ho.planned
    places := fun v => ?_
    dropped := forall_mem_append.mpr ⟨fun t ht => ho.gone (h.dropped t ht),
      forall_mem_singleton.mpr (ho.gone hgone)⟩ }, fun a ha => ⟨ho.gone ha, rfl, fun _ _ => rfl⟩⟩
  · have hne : token.admission ≠ a := by
      rintro rfl
      rw [ho.held _ ha] at hgone
      cases hgone
    have hsame := hlive (Token.of a)
    rw [Token.of, if_neg hne, Nat.add_zero] at hsame
    rw [hsame]
    exact h.counts a (ho.held a ha)
  · have hplaces := h.places v
    have hv := hlive v
    dsimp only
    rw [load_append, load_cons, load_nil]
    omega

lemma planned_congr {point : Point} (howned : w'.owned = w.owned)
    (hmaximum : ∀ a, (w'.states a).maximum = (w.states a).maximum) (h : w.Planned point) :
    w'.Planned point := by
  cases point with
  | acquireExchange b current => exact ⟨howned ▸ h.1, by rw [hmaximum]; exact h.2⟩
  | acquireLoad | build =>
    rw [Planned, howned]
    exact h
  | releaseLoad | releaseExchange | returning => exact h

lemma maximum_update {a b : ℕ} {inflight : UInt32} :
    (update w.states a ⟨inflight, (w.states a).maximum⟩ b).maximum =
      (w.states b).maximum := by
  by_cases hb : b = a
  · rw [hb, update_self]
  · rw [update_of_ne hb]

lemma Inv.exchange (h : Inv maxima w) {a : ℕ} {inflight : UInt32} {calls : List Call}
    {issued released : List Token} (hfound : w.held a)
    (hw : w' = { w with
      states := update w.states a ⟨inflight, (w.states a).maximum⟩
      calls, issued, released })
    (hbound : inflight.toNat ≤ (w.states a).maximum.toNat)
    (hself : w'.live (Token.of a) + (w.states a).inflight.toNat =
      w.live (Token.of a) + inflight.toNat)
    (hother : ∀ b ≠ a, w'.live (Token.of b) = w.live (Token.of b))
    (hplaces : ∀ v, w'.live v + load v released + load v w.dropped = load v issued)
    (hserials : issued.map Token.serial = range issued.length)
    (hreleased : ∀ t : Token, t.admission ≠ a → released.count t = w.released.count t)
    (ho : Orderly w w') : Next maxima w w' := by
  have hgone {b : ℕ} (hb : w.held b = false) : b ≠ a := by
    rintro rfl
    rw [hfound] at hb
    cases hb
  subst hw
  refine ⟨{ h with
    counts := fun b hb => ?_
    bound := fun b => ?_
    maximum := fun b => maximum_update.trans (h.maximum b)
    planned := ho.planned
    places := hplaces
    serials := hserials
    dropped := fun token ht => ho.gone (h.dropped token ht) },
    fun b hb => ⟨ho.gone hb, update_of_ne (hgone hb) _ _,
      fun t ht => hreleased t (ht ▸ hgone hb)⟩⟩
  · have hcounts := h.counts b (ho.held b hb)
    dsimp only
    by_cases hba : b = a
    · subst hba
      rw [update_self]
      dsimp only
      omega
    · rw [update_of_ne hba, hcounts, hother b hba]
  · dsimp only
    by_cases hba : b = a
    · subst hba
      rw [update_self]
      exact hbound
    · rw [update_of_ne hba]
      exact h.bound b

/-- The exchange of `TryAcquire` succeeds. -/
lemma Inv.acquire (h : Inv maxima w) {a : ℕ} {calls : List Call} (howned : w.owned a)
    (hlt : (w.states a).inflight.toNat < (w.states a).maximum.toNat)
    (hw : w' = { w with
      states := update w.states a
        { w.states a with inflight := (w.states a).inflight + 1 }
      calls
      issued := w.issued ++ [⟨a, w.issued.length⟩] })
    (hlive : ∀ v, w'.live v = w.live v + v ⟨a, w.issued.length⟩) (ho : Orderly w w') :
    Next maxima w w' := by
  have hsucc : ((w.states a).inflight + 1).toNat = (w.states a).inflight.toNat + 1 := by
    have hmax := (w.states a).maximum.toNat_lt
    rw [UInt32.toNat_add, UInt32.toNat_one]
    omega
  refine h.exchange (held_iff.mpr (.inl howned)) hw (hsucc ▸ hlt) ?_ (fun b hb => ?_)
    (fun v => ?_) ?_ (fun _ _ => rfl) ho
  · rw [hlive, hsucc, Token.of, if_pos rfl]
    omega
  · rw [hlive, Token.of, if_neg (Ne.symm hb), Nat.add_zero]
  · have hplaces := h.places v
    rw [hlive, load_append, load_cons, load_nil]
    omega
  · rw [map_append, h.serials, length_append, length_singleton, range_succ]
    rfl

/-- The exchange of `ReleaseOne` succeeds. -/
lemma Inv.release (h : Inv maxima w) {token : Token} {calls : List Call}
    (hfound : w.held token.admission) (hne : (w.states token.admission).inflight ≠ 0)
    (hw : w' = { w with
      states := update w.states token.admission
        { w.states token.admission with inflight := (w.states token.admission).inflight - 1 }
      calls
      released := w.released ++ [token] })
    (hlive : ∀ v, w'.live v + v token = w.live v) (ho : Orderly w w') : Next maxima w w' := by
  have hpred : ((w.states token.admission).inflight - 1).toNat + 1 =
      (w.states token.admission).inflight.toNat := by
    have hpos : (w.states token.admission).inflight.toNat ≠ 0 := fun hzero =>
      hne (UInt32.toNat_inj.mp hzero)
    rw [UInt32.toNat_sub_of_le _ _ (by
      rw [UInt32.le_iff_toNat_le, UInt32.toNat_one]
      omega), UInt32.toNat_one]
    omega
  refine h.exchange hfound hw ?_ ?_ (fun b hb => ?_) (fun v => ?_) h.serials (fun t ht => ?_)
    ho
  · have hbound := h.bound token.admission
    omega
  · have hself := hlive (Token.of token.admission)
    rw [Token.of, if_pos rfl] at hself
    omega
  · have hsame := hlive (Token.of b)
    rwa [Token.of, if_neg (Ne.symm hb), Nat.add_zero] at hsame
  · have hplaces := h.places v
    have hv := hlive v
    rw [load_append, load_cons, load_nil]
    omega
  · have htoken : token ≠ t := by
      rintro rfl
      exact ht rfl
    rw [count_append, count_singleton, if_neg (by simpa using htoken), Nat.add_zero]

/-! ## Steps -/

lemma held_push {call : Call} (hlock : ∀ a, call.point.lock = some a → w.held a) :
    ∀ c ∈ w.calls ++ [call], ∀ a, c.point.lock = some a → w.held a :=
  forall_mem_append.mpr ⟨fun _ hc _ => held_of_mem hc, forall_mem_singleton.mpr hlock⟩

lemma Inv.planned_push (h : Inv maxima w) {call : Call} (hcall : w.Planned call.point) :
    ∀ c ∈ w.calls ++ [call], w.Planned c.point :=
  forall_mem_append.mpr ⟨h.planned, forall_mem_singleton.mpr hcall⟩

/-- `Release` begins: the token goes from the handle to the call, or is dropped when its state
has gone. -/
lemma Inv.beginRelease (h : Inv maxima w) {token : Option Token} {handles : List (Handle Token)}
    {assign : Option (ℕ × ℕ)}
    (hload : ∀ v, load (Handle.weight v) handles + token.elim 0 v =
      load (Handle.weight v) w.handles) :
    Next maxima w ({ w with handles }.beginRelease token assign) := by
  cases token with
  | none =>
    refine h.of_moves rfl (fun v => ?_)
      ⟨held_mono (fun _ => id) (held_push nofun), h.planned_push trivial⟩
    have hv := hload v
    simp [live, Inflight.beginRelease, Call.weight] at hv ⊢
    omega
  | some token =>
    rw [Inflight.beginRelease]
    split
    · next hheld =>
      refine h.of_moves rfl (fun v => ?_)
        ⟨held_mono (fun _ => id) (held_push ?_), h.planned_push trivial⟩
      · have hv := hload v
        simp [live, Call.weight] at hv ⊢
        omega
      · rintro a ⟨⟩
        exact hheld
    next hheld =>
    refine h.drop (eq_false_iff.mpr hheld) rfl (fun v => ?_)
      ⟨held_mono (fun _ => id) (held_push nofun), h.planned_push trivial⟩
    have hv := hload v
    simp [live, Call.weight] at hv ⊢
    omega

lemma Inv.destroy (h : Inv maxima w) {a : ℕ}
    (hfree : w.calls.any (fun call => call.point.acquires a) = false) :
    Next maxima w { w with owned := update w.owned a false } := by
  have howned {b : ℕ} (hb : update w.owned a false b) : w.owned b := by
    by_cases hba : b = a
    · rw [hba, update_self] at hb
      cases hb
    · rwa [update_of_ne hba] at hb
  refine h.of_moves rfl (fun _ => rfl) ⟨held_mono (fun _ => howned) fun call hcall b hlock =>
    held_of_mem (w := w) hcall hlock, fun call hcall => ?_⟩
  have hplanned := h.planned call hcall
  have hnot := any_eq_false.mp hfree call hcall
  cases hpoint : call.point with
  | acquireLoad b | acquireExchange b current | build token =>
    rw [hpoint] at hplanned hnot
    simp only [Point.acquires, decide_eq_true_eq] at hnot
    simpa [Planned, update_of_ne hnot] using hplanned
  | releaseExchange token current =>
    rw [hpoint] at hplanned
    exact hplanned
  | releaseLoad token => trivial
  | returning lock => trivial

/-! ## Calls -/

section
variable {i : ℕ} {call : Call}

lemma live_setPoint (hcall : w.calls[i]? = some call) (point : Point) (v : Token → ℕ) :
    (w.setPoint i call point).live v + call.weight v =
      w.live v + Call.weight v { call with point } := by
  have hset := load_set (f := Call.weight v) hcall { call with point }
  simp only [live, setPoint]
  omega

lemma held_setPoint {point : Point} (hlock : ∀ a, point.lock = some a → w.held a) :
    ∀ c ∈ w.calls.set i { call with point }, ∀ a, c.point.lock = some a → w.held a := by
  intro c hc a ha
  rcases mem_or_eq_of_mem_set hc with hold | rfl
  · exact held_of_mem hold ha
  · exact hlock a ha

section
variable (h : Inv maxima w)
include h

lemma Inv.planned_setPoint {point : Point} (hpoint : w.Planned point) :
    ∀ c ∈ w.calls.set i { call with point }, w.Planned c.point := by
  intro c hc
  rcases mem_or_eq_of_mem_set hc with hold | rfl
  · exact h.planned c hold
  · exact hpoint

section
variable (hcall : w.calls[i]? = some call)
include hcall

lemma Inv.setPoint {point : Point}
    (hweight : ∀ v, Call.weight v { call with point } = call.weight v)
    (hlock : ∀ a, point.lock = some a → w.held a) (hpoint : w.Planned point) :
    Next maxima w (w.setPoint i call point) := by
  refine h.of_moves rfl (fun v => ?_)
    ⟨held_mono (fun _ => id) (held_setPoint hlock), h.planned_setPoint hpoint⟩
  have hlive := live_setPoint hcall point v
  rw [hweight] at hlive
  exact Nat.add_right_cancel hlive

/-- The loop condition of `TryAcquire`. -/
lemma Inv.acquireTest {a : ℕ} (hweight : ∀ v, call.weight v = 0) (howned : w.owned a) :
    Next maxima w (w.setPoint i call ((w.states a).acquireTest a)) := by
  rw [State.acquireTest]
  split
  · next hlt => exact h.setPoint hcall (fun v => (hweight v).symm) nofun ⟨howned, hlt⟩
  · exact h.setPoint hcall (fun v => (hweight v).symm) nofun trivial

lemma Inv.inflight_ne_zero {token : Token}
    (hweight : ∀ v, call.weight v = v token) (hlock : call.point.lock = some token.admission) :
    (w.states token.admission).inflight ≠ 0 := by
  intro hzero
  have hcounts := h.counts token.admission (held_of_mem (mem_of_getElem? hcall) hlock)
  have hle := le_load (f := Call.weight (Token.of token.admission)) hcall
  rw [hweight, Token.of, if_pos rfl] at hle
  rw [hzero, live] at hcounts
  have hzero' : (0 : UInt32).toNat = 0 := rfl
  omega

/-- The loop condition of `ReleaseOne`: its guard is not taken. -/
lemma Inv.releaseTest {token : Token}
    (hweight : ∀ v, call.weight v = v token) (hlock : call.point.lock = some token.admission) :
    Next maxima w (w.releaseTest i call token) := by
  have hne := h.inflight_ne_zero hcall hweight hlock
  rw [Inflight.releaseTest]
  rw [if_pos hne]
  refine h.setPoint hcall (fun v => (hweight v).symm) ?_ hne
  rintro a ⟨⟩
  exact held_of_mem (mem_of_getElem? hcall) hlock

end

lemma Inv.at_setPoint (point : Point) {states : ℕ → State} {issued released : List Token}
    (hlock : ∀ a, point.lock = some a → w.held a) (hpoint : w.Planned point)
    (hmaximum : ∀ a, (states a).maximum = (w.states a).maximum) :
    Orderly w { w.setPoint i call point with states, issued, released } := by
  refine ⟨held_mono (fun _ => id) (held_setPoint hlock), fun c hc => ?_⟩
  exact planned_congr (w := w) rfl hmaximum (h.planned_setPoint hpoint c hc)

lemma Inv.erase (hcall : w.calls[i]? = some call) {handles : List (Handle Token)}
    (hload : ∀ v, load (Handle.weight v) handles =
      load (Handle.weight v) w.handles + call.weight v) :
    Next maxima w { w with handles, calls := w.calls.eraseIdx i } := by
  refine h.of_moves rfl (fun v => ?_)
    ⟨held_mono (fun _ => id) fun c hc a => held_of_mem (mem_of_mem_eraseIdx hc),
      fun c hc => h.planned c (mem_of_mem_eraseIdx hc)⟩
  have hreturn := load_eraseIdx (f := Call.weight v) hcall
  simp only [live, hload]
  omega

lemma Inv.resume (hcall : w.calls[i]? = some call) {spurious : Bool}
    (hstep : w.resume i call spurious = some w') : Next maxima w w' := by
  have hplanned := h.planned call (mem_of_getElem? hcall)
  have hlive (point : Point) (v : Token → ℕ) := live_setPoint hcall point v
  cases hpoint : call.point with
  | acquireLoad a =>
    rw [hpoint] at hplanned
    rw [Inflight.resume, hpoint] at hstep
    cases hstep
    exact h.acquireTest hcall (fun v => by rw [Call.weight, hpoint]) hplanned
  | acquireExchange a current =>
    rw [hpoint] at hplanned
    have hweight (v : Token → ℕ) : call.weight v = 0 := by rw [Call.weight, hpoint]
    rw [Inflight.resume, hpoint] at hstep
    dsimp only at hstep
    split at hstep
    · next hsame =>
      obtain ⟨rfl, -⟩ := hsame
      cases hstep
      refine h.acquire hplanned.1 hplanned.2 rfl (fun v => ?_)
        (h.at_setPoint _ nofun hplanned.1 fun _ => maximum_update)
      have hv := hlive (.build ⟨a, w.issued.length⟩) v
      rwa [hweight] at hv
    · cases hstep
      exact h.acquireTest hcall hweight hplanned.1
  | build token =>
    rw [Inflight.resume, hpoint] at hstep
    cases hstep
    refine h.erase hcall fun v => ?_
    rw [load_append, load_cons, load_nil, Handle.weight_holding, Call.weight, hpoint, Nat.add_zero]
  | releaseLoad token =>
    rw [Inflight.resume, hpoint] at hstep
    cases hstep
    exact h.releaseTest hcall (fun v => by rw [Call.weight, hpoint]) (by rw [hpoint]; rfl)
  | releaseExchange token current =>
    rw [hpoint] at hplanned
    have hweight (v : Token → ℕ) : call.weight v = v token := by rw [Call.weight, hpoint]
    have hlock : call.point.lock = some token.admission := by rw [hpoint]; rfl
    have hfound := held_of_mem (mem_of_getElem? hcall) hlock
    rw [Inflight.resume, hpoint] at hstep
    dsimp only at hstep
    split at hstep
    · next hsame =>
      obtain ⟨rfl, -⟩ := hsame
      cases hstep
      refine h.release hfound hplanned rfl (fun v => ?_)
        (h.at_setPoint _ (by rintro a ⟨⟩; exact hfound) trivial fun _ => maximum_update)
      have hv := hlive (.returning (some token.admission)) v
      rwa [hweight] at hv
    · cases hstep
      exact h.releaseTest hcall hweight hlock
  | returning lock =>
    have hweight (v : Token → ℕ) : call.weight v = 0 := by rw [Call.weight, hpoint]
    rw [Inflight.resume, hpoint] at hstep
    dsimp only at hstep
    split at hstep
    · cases hstep
      exact h.erase hcall fun v => by rw [hweight, Nat.add_zero]
    · obtain ⟨handles, hhandles, rfl⟩ := map_eq_some_iff.mp hstep
      exact h.erase hcall fun v => by rw [hweight, Nat.add_zero, Handle.load_assign hhandles]

end

end

/-! ## Whole runs -/

lemma Inv.step {e : Event} (h : Inv maxima w) (hstep : Inflight.step w e = some w') :
    Next maxima w w' := by
  cases e with
  | tryAcquireInflight a =>
    obtain ⟨howned, ⟨⟩⟩ := ite_none_right_eq_some.mp hstep
    refine h.of_moves rfl (fun v => ?_)
      ⟨held_mono (fun _ => id) (held_push nofun), h.planned_push howned⟩
    simp [live, Call.weight]
  | moveConstruct source =>
    obtain ⟨handles, hhandles, rfl⟩ := map_eq_some_iff.mp hstep
    refine h.of_moves rfl (fun v => ?_)
      ⟨held_mono (fun _ => id) fun c hc a => held_of_mem (w := w) hc, h.planned⟩
    simp only [live, Handle.load_moveConstruct hhandles]
  | moveAssign target source =>
    rw [Inflight.step] at hstep
    split at hstep
    · cases hstep
      exact h.of_moves rfl (fun _ => rfl) ⟨fun _ => id, h.planned⟩
    · obtain ⟨-, hstep⟩ := ite_none_right_eq_some.mp hstep
      obtain ⟨⟨token, handles⟩, hhandles, rfl⟩ := map_eq_some_iff.mp hstep
      exact h.beginRelease fun v => Handle.load_take hhandles
  | release handle =>
    obtain ⟨⟨token, handles⟩, hhandles, rfl⟩ := map_eq_some_iff.mp hstep
    exact h.beginRelease fun v => Handle.load_take hhandles
  | resume i spurious =>
    obtain ⟨call, hcall, hstep⟩ := bind_eq_some_iff.mp hstep
    exact h.resume hcall hstep
  | destroy a =>
    obtain ⟨⟨-, hfree⟩, ⟨⟩⟩ := ite_none_right_eq_some.mp hstep
    exact h.destroy hfree

lemma inv_create (maxima : ℕ → UInt32) : Inv maxima (create maxima) where
  counts := fun _ _ => rfl
  bound := fun _ => Nat.zero_le _
  maximum := fun _ => rfl
  planned := nofun
  places := fun _ => rfl
  serials := rfl
  dropped := nofun
  guarded := rfl

/-- **The counter counts the tokens.** In every run of any number of threads: while the state of
an admission lives, its counter is the number of live tokens of the admission, and it is at most
the limit; the guard of `ReleaseOne` is never taken; every token issued is at one place, live,
released once or dropped, and dropped only after its state had gone; and once the state has gone,
nothing is taken off its counter. -/
theorem counts_tokens (h : Reaches step (create maxima) w) :
    (∀ a, w.held a → (w.states a).inflight.toNat = w.live (Token.of a)) ∧
      (∀ a, w.owned a → w.held a) ∧
      (∀ a, (w.states a).inflight.toNat ≤ (maxima a).toNat) ∧
      w.guarded = false ∧
      (∀ token, w.live (Token.is token) + w.released.count token + w.dropped.count token =
        w.issued.count token ∧ w.issued.count token ≤ 1) ∧
      (∀ token ∈ w.dropped, w.held token.admission = false) ∧
      ∀ e w', step w e = some w' → Stable w w' := by
  have hw : Inv maxima w :=
    h.invariant (inv_create maxima) fun _ _ _ hu hstep => (hu.step hstep).inv
  refine ⟨hw.counts, fun a ha => held_iff.mpr (.inl ha), fun a => ?_, hw.guarded, fun token => ?_,
    hw.dropped, fun e w' hstep => (hw.step hstep).stable⟩
  · rw [← hw.maximum a]
    exact hw.bound a
  have hplaces := hw.places (Token.is token)
  have hcount (l : List Token) : load (Token.is token) l = l.count token :=
    load_indicator token l
  rw [hcount, hcount, hcount] at hplaces
  refine ⟨hplaces, nodup_iff_count_le_one.mp (List.Nodup.of_map Token.serial ?_) token⟩
  rw [hw.serials]
  exact nodup_range

/-- Two acquisitions; the second reservation is assigned to the first. -/
def twoAssigned : List Event :=
  [.tryAcquireInflight 0, .resume 0 false, .resume 0 true, .resume 0 false, .resume 0 false,
    .tryAcquireInflight 0, .resume 0 false, .resume 0 false, .resume 0 false, .moveAssign 0 1,
    .resume 0 false, .resume 0 false, .resume 0 false]

theorem counts_tokens_assigned :
    ∃ w, run step (create fun _ => 2) twoAssigned = some w ∧ w.handles = [.holding ⟨0, 1⟩, .empty] ∧
      w.released = [⟨0, 0⟩] ∧ w.held 0 ∧
      (w.states 0).inflight.toNat = w.live (Token.of 0) := by
  refine ⟨_, rfl, rfl, rfl, rfl, ?_⟩
  have hrun : Reaches step (create fun _ => 2) _ := ⟨twoAssigned, rfl⟩
  exact (counts_tokens hrun).1 0 rfl

/-- Two reservations, and a `Release` that has locked the state when its admission goes. -/
def destroyedDuring : List Event :=
  [.tryAcquireInflight 0, .resume 0 false, .resume 0 false, .resume 0 false,
    .tryAcquireInflight 0, .resume 0 false, .resume 0 false, .resume 0 false, .release 0,
    .destroy 0]

/-- A reservation that outlives its admission still takes one off the counter while another
`Release` holds the state. -/
theorem released_after_destroy :
    ∃ w w', run step (create fun _ => 2) destroyedDuring = some w ∧ w.owned 0 = false ∧
      w.handles = [.empty, .holding ⟨0, 1⟩] ∧
      run step w [.release 1, .resume 1 false, .resume 1 false] = some w' ∧
      w'.released = [⟨0, 1⟩] ∧ (w.states 0).inflight = 2 ∧ (w'.states 0).inflight = 1 :=
  ⟨_, _, rfl, rfl, rfl, rfl, rfl, rfl, rfl⟩

end Inflight
end AegisGate.Resilience
