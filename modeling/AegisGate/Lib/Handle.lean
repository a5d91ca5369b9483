import AegisGate.Lib.Load

/-!
# Move-only handles

A handle owns a token or is empty, and a token is handed from handle to handle by moves. A
move-assignment takes two steps: the target gives up what it held, and then takes what the source
holds; in between it is neither empty nor owns anything, and no one else may use it.

The handles of a program are a list, by address. For any weight of the tokens, a move leaves the
weight of the list as it is, and giving a token up lowers it by the token's.
-/

namespace AegisGate.Lib

/-- A move-only handle. -/
inductive Handle (α : Type*)
  | empty
  | holding (token : α)
  /-- The target of a move-assignment that has given up what it held. -/
  | assigning
  deriving DecidableEq, Repr

namespace Handle

variable {α : Type*} {v : α → ℕ} {hs ks : List (Handle α)}

/-- The weight of the token a handle owns. -/
def weight (v : α → ℕ) : Handle α → ℕ
  | .holding token => v token
  | .empty | .assigning => 0

@[simp] lemma weight_empty : weight v .empty = 0 := rfl

@[simp] lemma weight_holding (token : α) : weight v (.holding token) = v token := rfl

@[simp] lemma weight_assigning : weight v .assigning = 0 := rfl

/-- A new handle takes what the source owns. -/
def moveConstruct (hs : List (Handle α)) (source : ℕ) : Option (List (Handle α)) :=
  match hs[source]? with
  | some (.holding token) => some (hs.set source .empty ++ [.holding token])
  | some .empty => some (hs ++ [.empty])
  | _ => none

/-- A handle gives up what it owns, and is left empty or, by a move-assignment, assigning. -/
def take (hs : List (Handle α)) (i : ℕ) (left : Handle α) : Option (Option α × List (Handle α)) :=
  match hs[i]? with
  | some (.holding token) => some (some token, hs.set i left)
  | some .empty => some (none, hs.set i left)
  | _ => none

/-- The end of a move-assignment. -/
def assign (hs : List (Handle α)) (target source : ℕ) : Option (List (Handle α)) :=
  match hs[target]?, hs[source]? with
  | some .assigning, some (.holding token) =>
    some ((hs.set source .empty).set target (.holding token))
  | some .assigning, some .empty => some (hs.set target .empty)
  | _, _ => none

lemma load_moveConstruct {source : ℕ} (h : moveConstruct hs source = some ks) :
    load (weight v) ks = load (weight v) hs := by
  rw [moveConstruct] at h
  split at h
  · next token hsource =>
    cases h
    have hset := load_set (f := weight v) hsource .empty
    simp only [weight_empty, weight_holding, Nat.add_zero] at hset
    simpa using hset
  · cases h
    simp
  · cases h

lemma load_take {i : ℕ} {left : Handle α} {token : Option α}
    (h : take hs i left = some (token, ks)) :
    load (weight v) ks + token.elim 0 v = load (weight v) hs + weight v left := by
  rw [take] at h
  split at h
  · next token hi =>
    cases h
    exact load_set (f := weight v) hi left
  · next hi =>
    cases h
    exact load_set (f := weight v) hi left
  · cases h

lemma load_assign {target source : ℕ} (h : assign hs target source = some ks) :
    load (weight v) ks = load (weight v) hs := by
  rw [assign] at h
  split at h
  · next token htarget hsource =>
    cases h
    have hne : source ≠ target := by
      rintro rfl
      cases hsource.symm.trans htarget
    have htarget' : (hs.set source .empty)[target]? = some .assigning := by
      rw [List.getElem?_set_ne hne, htarget]
    have hfirst := load_set (f := weight v) hsource .empty
    have hsecond := load_set (f := weight v) htarget' (.holding token)
    simp only [weight_empty, weight_holding, weight_assigning] at hfirst hsecond
    omega
  · next htarget hsource =>
    cases h
    have hset := load_set (f := weight v) htarget .empty
    simpa using hset
  · cases h

end Handle
end AegisGate.Lib
