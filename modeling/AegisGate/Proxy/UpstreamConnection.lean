import AegisGate.Http.RequestParser
import AegisGate.Proxy.UpstreamPool

/-!
# Upstream connections

`src/net/UpstreamConnection.cpp`: one connection object through its exchanges. An exchange
ends in `Finish`, which leaves the connection idle when the response was clean and closed
otherwise.

What the peer, the parser and the descriptor contribute to the end of an exchange is an
`ExchangeEnding`. The steps of `Start` and `HandleWrite` between two callbacks are one `advance`.
-/

namespace AegisGate.Proxy
open Http Option

/-- What `recv` with `MSG_PEEK` answered after the interruptions. -/
inductive Peek
  | byte
  | eof
  | wouldBlock
  | error
  deriving DecidableEq, Repr

def Peek.peerHasClosedOrSentExtraBytes : Peek → Bool
  | wouldBlock => false
  | _ => true

/-- A response asks for the end of the connection. -/
def requestsClose (headers : Headers) : Bool :=
  headers.any fun field => equalsIgnoreCase field.1 (ascii "connection") &&
    (listTokens isOws field.2).any fun token => equalsIgnoreCase token (ascii "close")

/-- What `Finish` reads: the result, the bytes left in `input_`, the headers of the response
(`parser_.Head()` with a body sink and `parser_.Response()` without), the answer of the
descriptor, and whether `DisableAll` throws. -/
structure ExchangeEnding where
  result : UpstreamResult
  input : Bytes := []
  headers : Headers := []
  peek : Peek := .wouldBlock
  disableThrows : Bool := false
  deriving DecidableEq

/-- `keep_alive` of `Finish`. -/
def ExchangeEnding.keepAlive (e : ExchangeEnding) : Bool :=
  e.result == .success && e.input.isEmpty && !requestsClose e.headers &&
    !e.peek.peerHasClosedOrSentExtraBytes

lemma ExchangeEnding.keepAlive_iff {e : ExchangeEnding} : e.keepAlive ↔
    e.result = .success ∧ e.input = [] ∧ requestsClose e.headers = false ∧
      e.peek = .wouldBlock := by
  cases hpeek : e.peek <;> simp [keepAlive, hpeek, Peek.peerHasClosedOrSentExtraBytes, and_assoc]

/-- `UpstreamConnection::State`. -/
inductive ConnectionState
  | idle
  | connecting
  | writing
  | reading
  | finished
  deriving DecidableEq, Repr

/-- `UpstreamConnection`. The response callback is what it captured; the number of the
connection and the end of its last exchange are recorded for the statements. -/
structure UpstreamConnection where
  serial : ℕ
  key : Key
  state : ConnectionState := .idle
  socket : Bool := false
  reusable : Bool := false
  callback : Option Lease := none
  lastEnding : Option ExchangeEnding := none
  deriving DecidableEq

namespace UpstreamConnection

section
variable (c : UpstreamConnection)

/-- `Reusable`. -/
def isReusable : Bool := c.state == .idle && c.reusable

/-- An exchange is under way, from the first lines of `Start` on. -/
def executing : Bool := c.state != .finished && !c.isReusable

def close : UpstreamConnection :=
  if c.state = .finished then c else { c with state := .finished, socket := false }

/-- `HealthyForReuse`; `Execute` destroys a connection that is not. -/
def healthyForReuse (peek : Peek) : Bool :=
  c.isReusable && !peek.peerHasClosedOrSentExtraBytes

/-- `SetResponseCallback`; `none` is the `std::logic_error`. -/
def setResponseCallback (lease : Lease) : Option UpstreamConnection :=
  if c.state = .idle then some { c with callback := some lease } else none

/-- The first lines of `Start`; `none` is the `std::logic_error`. -/
def start : Option UpstreamConnection :=
  if c.state = .idle then some { c with reusable := false } else none

/-- The rest of `Start` and `HandleWrite`, from one callback to the next: a new connection
connects, one that was used before writes at once. -/
def advance : Option UpstreamConnection :=
  match c.state with
  | .idle =>
    if c.reusable then none
    else some { c with state := if c.socket then .writing else .connecting, socket := true }
  | .connecting => some { c with state := .writing }
  | .writing => some { c with state := .reading }
  | .reading | .finished => none

/-- The callback is dropped. -/
def suppressCallbacks : UpstreamConnection := { c with callback := none }

/-- `Finish` up to the callback, with the callback it took. -/
def finish (e : ExchangeEnding) : UpstreamConnection × Option Lease :=
  if c.state = .finished then (c, none)
  else
    let c' := { c with callback := none, lastEnding := some e }
    if e.keepAlive then
      let idled := { c' with reusable := true, state := .idle }
      (if e.disableThrows then idled.close else idled, c.callback)
    else ({ c' with state := .finished, socket := false }, c.callback)

end

/-- A connection that waits for its next exchange after a clean one. -/
structure Parked (c : UpstreamConnection) : Prop where
  reusable : c.isReusable
  callback : c.callback = none
  ending : ∃ e, c.lastEnding = some e ∧ e.keepAlive

variable {c c' : UpstreamConnection} {lease : Lease} {e : ExchangeEnding} {peek : Peek}

lemma healthyForReuse_iff :
    c.healthyForReuse peek ↔ c.isReusable ∧ peek = .wouldBlock := by
  cases peek <;> simp [healthyForReuse, Peek.peerHasClosedOrSentExtraBytes]

lemma state_of_isReusable (h : c.isReusable) : c.state = .idle := by
  simp only [isReusable, Bool.and_eq_true, beq_iff_eq] at h
  exact h.1

lemma ne_finished_of_executing (h : c.executing) : c.state ≠ .finished := by
  simp only [executing, Bool.and_eq_true, bne_iff_ne] at h
  exact h.1

lemma lend_of_idle (h : c.state = .idle) : (c.setResponseCallback lease).bind start =
    some { c with callback := some lease, reusable := false } := by
  simp [setResponseCallback, start, h]

lemma executing_of_advance (h : c.advance = some c') :
    c.executing ∧ c'.executing := by
  cases hstate : c.state with
  | idle =>
    simp only [advance, hstate, ite_none_left_eq_some, some.injEq] at h
    obtain ⟨hreusable, rfl⟩ := h
    cases hsocket : c.socket <;> simp [executing, isReusable, hstate, hreusable]
  | connecting | writing =>
    simp only [advance, hstate, some.injEq] at h
    subst h
    simp [executing, isReusable, hstate]
  | reading | finished => simp [advance, hstate] at h

lemma advance_kept (h : c.advance = some c') :
    c'.serial = c.serial ∧ c'.key = c.key ∧ c'.callback = c.callback := by
  rw [advance] at h
  split at h
  · obtain ⟨_, ⟨⟩⟩ := ite_none_left_eq_some.mp h
    exact ⟨rfl, rfl, rfl⟩
  · cases h
    exact ⟨rfl, rfl, rfl⟩
  · cases h
    exact ⟨rfl, rfl, rfl⟩
  · cases h
  · cases h

/-- `Finish` hands out the callback and keeps none. -/
lemma finish_callback (h : c.state ≠ .finished) :
    (c.finish e).2 = c.callback ∧ (c.finish e).1.callback = none := by
  rw [finish, if_neg h]
  by_cases hkeep : e.keepAlive
  · cases hthrows : e.disableThrows <;> simp [hkeep, close]
  · simp [hkeep]

lemma finish_kept : (c.finish e).1.serial = c.serial ∧ (c.finish e).1.key = c.key := by
  rw [finish]
  split
  · exact ⟨rfl, rfl⟩
  · by_cases hkeep : e.keepAlive
    · cases hthrows : e.disableThrows <;> simp [hkeep, close]
    · simp [hkeep]

/-- A connection that can be reused after `Finish` had a clean end. -/
lemma parked_of_finish (h : c.state ≠ .finished) (hreusable : (c.finish e).1.isReusable) :
    (c.finish e).1.Parked := by
  refine ⟨hreusable, (finish_callback h).2, e, ?_⟩
  rw [finish, if_neg h] at hreusable ⊢
  by_cases hkeep : e.keepAlive
  · cases hthrows : e.disableThrows <;> simp [hkeep, close]
  · simp [hkeep, isReusable] at hreusable

end UpstreamConnection
end AegisGate.Proxy
