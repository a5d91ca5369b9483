import AegisGate.Http.RequestParser

/-!
# The byte buffer

`Buffer` of `src/net/Buffer.cpp` keeps its bytes in one string and moves a read index over it.
`Append` throws the bytes that were read away once they outweigh the ones that are left. Seen from
outside it is a queue of bytes.
-/

namespace AegisGate.Net
open Http List

/-- A buffer that is read from an index on. -/
structure Buffer where
  storage : Bytes := []
  readIndex : ℕ := 0
  readIndex_le : readIndex ≤ storage.length := by exact Nat.zero_le _

namespace Buffer
variable (b : Buffer)

def readableBytes : ℕ := b.storage.length - b.readIndex

def readableView : Bytes := b.storage.drop b.readIndex

/-- Room is made at the front when that saves growing. -/
def append (bytes : Bytes) : Buffer :=
  if bytes.isEmpty then b
  else if b.readableBytes < b.readIndex then { storage := b.storage.drop b.readIndex ++ bytes }
  else
    { storage := b.storage ++ bytes
      readIndex := b.readIndex
      readIndex_le := by
        rw [length_append]
        exact Nat.le_add_right_of_le b.readIndex_le }

/-- `Retrieve`; `none` is `std::out_of_range`. -/
def retrieve (length : ℕ) : Option Buffer :=
  if h : b.readableBytes < length then none
  else some {
    storage := b.storage
    readIndex := b.readIndex + length
    readIndex_le := by
      have hle := b.readIndex_le
      rw [readableBytes] at h
      omega }

def retrieveAll (_ : Buffer) : Buffer := {}

inductive Call
  | append (bytes : Bytes)
  | retrieve (length : ℕ)
  | retrieveAll
  deriving DecidableEq

/-- A call; one that throws leaves the buffer as it was. -/
def call : Call → Buffer
  | .append bytes => b.append bytes
  | .retrieve length => (b.retrieve length).getD b
  | .retrieveAll => b.retrieveAll

/-- The calls on a queue: the bytes appended so far, and how many of them are gone. -/
def queueCall (q : Bytes × ℕ) : Call → Bytes × ℕ
  | .append bytes => (q.1 ++ bytes, q.2)
  | .retrieve length => if q.1.length - q.2 < length then q else (q.1, q.2 + length)
  | .retrieveAll => (q.1, q.1.length)

variable {b}

lemma readableView_append (bytes : Bytes) :
    (b.append bytes).readableView = b.readableView ++ bytes := by
  have hle := b.readIndex_le
  rw [append]
  split
  · next hempty => simp [isEmpty_iff.mp hempty]
  split
  · simp [readableView]
  · simp [readableView, drop_append_of_le_length hle]

lemma length_readableView : b.readableView.length = b.readableBytes := by
  simp [readableView, readableBytes]

lemma readableView_call {q : Bytes × ℕ} (h : b.readableView = q.1.drop q.2)
    (hq : q.2 ≤ q.1.length) (c : Call) :
    (b.call c).readableView = (queueCall q c).1.drop (queueCall q c).2 ∧
      (queueCall q c).2 ≤ (queueCall q c).1.length := by
  cases c with
  | append bytes =>
    rw [call, readableView_append, h, queueCall, drop_append_of_le_length hq]
    simp [Nat.le_add_right_of_le hq]
  | retrieve length =>
    have hlength : b.readableBytes = q.1.length - q.2 := by
      rw [← length_readableView, h, length_drop]
    rw [call, retrieve, queueCall, ← hlength]
    split
    · exact ⟨h, hq⟩
    · refine ⟨?_, by dsimp only; omega⟩
      change b.storage.drop (b.readIndex + length) = q.1.drop (q.2 + length)
      rw [← drop_drop, ← drop_drop, ← h, readableView]
  | retrieveAll => simp [call, retrieveAll, readableView, queueCall]

/-- **A buffer is a queue.** After every sequence of calls the read index is within the storage and
the view is what was appended without what was retrieved; a `Retrieve` of more than that throws and
changes nothing. -/
theorem refines_queue (calls : List Call) :
    let b := calls.foldl call {}
    let q := calls.foldl queueCall ([], 0)
    b.readIndex ≤ b.storage.length ∧ b.readableView = q.1.drop q.2 ∧ q.2 ≤ q.1.length ∧
      ∀ length, b.readableView.length < length →
        b.retrieve length = none ∧ b.call (.retrieve length) = b := by
  have hrun : ∀ (b : Buffer) (q : Bytes × ℕ), b.readableView = q.1.drop q.2 → q.2 ≤ q.1.length →
      (calls.foldl call b).readableView =
        (calls.foldl queueCall q).1.drop (calls.foldl queueCall q).2 ∧
      (calls.foldl queueCall q).2 ≤ (calls.foldl queueCall q).1.length := by
    induction calls with
    | nil =>
      intro b q h hq
      exact ⟨h, hq⟩
    | cons c calls ih =>
      intro b q h hq
      obtain ⟨h', hq'⟩ := readableView_call h hq c
      exact ih (b.call c) (queueCall q c) h' hq'
  obtain ⟨hview, hle⟩ := hrun {} ([], 0) rfl le_rfl
  refine ⟨(calls.foldl call {}).readIndex_le, hview, hle, fun length hlt => ?_⟩
  rw [length_readableView] at hlt
  have hnone : (calls.foldl call {}).retrieve length = none := dif_pos hlt
  exact ⟨hnone, by rw [call, hnone, Option.getD_none]⟩

end Buffer
end AegisGate.Net
