import Mathlib

/-!
# Wake counters

A wake counter is an `eventfd`: a 64-bit counter that is added to by writers and reset by its one
reader. It is readable while it is positive, and a write that would overflow it is refused; then
it is readable anyway.
-/

namespace AegisGate.Lib

/-- A wake counter. -/
structure EventFd where
  counter : ℕ := 0
  bounded : counter ≤ 2 ^ 64 - 2 := by decide
  deriving DecidableEq

namespace EventFd

/-- Write one; a full counter stays as it is. -/
def write (fd : EventFd) : EventFd :=
  if h : fd.counter < 2 ^ 64 - 2 then ⟨fd.counter + 1, h⟩ else fd

/-- Read, which resets the counter. -/
def read (_ : EventFd) : EventFd := {}

/-- The counter is readable. -/
def Pending (fd : EventFd) : Prop := 0 < fd.counter

instance (fd : EventFd) : Decidable fd.Pending := inferInstanceAs (Decidable (0 < fd.counter))

@[simp] lemma pending_write (fd : EventFd) : fd.write.Pending := by
  rw [Pending, write]
  split
  · exact Nat.succ_pos _
  · omega

@[simp] lemma not_pending_read (fd : EventFd) : ¬ fd.read.Pending := Nat.not_lt_zero 0

end EventFd

end AegisGate.Lib
