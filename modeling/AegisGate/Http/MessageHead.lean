import AegisGate.Http.AcceptedRequest

/-!
# The head of a message

A head is a start line, field lines and a blank line, each ended by `CRLF`. A stream has at most
one head at its front. The request parser and the response parser read it with the same loop over
the lines, which is analysed here once.
-/

namespace AegisGate.Http
open List Option

/-! ## Searching -/

variable {pattern line : Bytes}

lemma find_cons_eq_none {bytes : Bytes} {b : UInt8} :
    find pattern (b :: bytes) = none ↔ ¬ pattern <+: b :: bytes ∧ find pattern bytes = none := by
  rw [find, ← isPrefixOf_iff_prefix]
  split
  · simp_all
  · simp_all

lemma find_self (hne : pattern ≠ []) (rest : Bytes) : find pattern (pattern ++ rest) = some 0 := by
  cases pattern with
  | nil => exact absurd rfl hne
  | cons a pattern =>
    have hpre : (a :: pattern).isPrefixOf (a :: (pattern ++ rest)) :=
      isPrefixOf_iff_prefix.mpr (prefix_append (a :: pattern) rest)
    simp [find, hpre]

lemma find_append {before : Bytes} (hne : pattern ≠ [])
    (h : find pattern (before ++ pattern.dropLast) = none) (rest : Bytes) :
    find pattern (before ++ (pattern ++ rest)) = some before.length := by
  induction before with
  | nil => exact find_self hne rest
  | cons b before ih =>
    rw [cons_append, find_cons_eq_none] at h
    have hpre : pattern.isPrefixOf (b :: (before ++ (pattern ++ rest))) = false := by
      rw [Bool.eq_false_iff]
      intro hpre
      apply h.1
      have hfound := isPrefixOf_iff_prefix.mp hpre
      refine prefix_of_prefix_length_le hfound ?_ ?_
      · refine cons_prefix_cons.mpr ⟨rfl, prefix_append_right_inj before |>.mpr ?_⟩
        refine IsPrefix.trans ?_ (prefix_append pattern rest)
        exact dropLast_prefix pattern
      · have hpos := length_pos_of_ne_nil hne
        simp only [length_cons, length_append, length_dropLast]
        omega
    rw [cons_append, find, hpre, ih h.2]
    rfl

/-- What `find` found is there. -/
lemma eq_append_of_find {bytes : Bytes} {i : ℕ} (h : find pattern bytes = some i) :
    bytes = bytes.take i ++ (pattern ++ bytes.drop (i + pattern.length)) := by
  induction bytes generalizing i with
  | nil =>
    obtain ⟨hempty, ⟨⟩⟩ := ite_none_right_eq_some.mp h
    simp [isEmpty_iff.mp hempty]
  | cons b bytes ih =>
    rw [find] at h
    split at h
    · next hpre =>
      cases h
      obtain ⟨rest, hrest⟩ := isPrefixOf_iff_prefix.mp hpre
      rw [← hrest]
      simp
    · obtain ⟨j, hj, rfl⟩ := map_eq_some_iff.mp h
      rw [take_succ_cons, Nat.add_right_comm, drop_succ_cons, cons_append, ← ih hj]

lemma find_take_eq_none {bytes : Bytes} {i : ℕ} (hne : pattern ≠ [])
    (h : find pattern bytes = some i) : find pattern (bytes.take i) = none := by
  induction bytes generalizing i with
  | nil =>
    obtain ⟨hempty, ⟨⟩⟩ := ite_none_right_eq_some.mp h
    exact absurd (isEmpty_iff.mp hempty) hne
  | cons b bytes ih =>
    rw [find] at h
    split at h
    · cases h
      simp [find, hne]
    next hpre =>
    obtain ⟨j, hj, rfl⟩ := map_eq_some_iff.mp h
    rw [take_succ_cons, find_cons_eq_none]
    refine ⟨fun hstart => hpre ?_, ih hj⟩
    apply isPrefixOf_iff_prefix.mpr
    exact hstart.trans (cons_prefix_cons.mpr ⟨rfl, take_prefix j bytes⟩)

lemma exists_find_le (pattern before rest : Bytes) :
    ∃ i ≤ before.length, find pattern (before ++ (pattern ++ rest)) = some i := by
  induction before with
  | nil =>
    refine ⟨0, Nat.le_refl 0, ?_⟩
    cases pattern with
    | nil => cases rest <;> simp [find]
    | cons a pattern => exact find_self (cons_ne_nil a pattern) rest
  | cons b before ih =>
    obtain ⟨i, hi, hfind⟩ := ih
    rw [cons_append, find, hfind]
    split
    · exact ⟨0, Nat.zero_le _, rfl⟩
    · exact ⟨i + 1, by simpa using hi, rfl⟩

lemma find_singleton_eq_none {c : UInt8} {bytes : Bytes} : find [c] bytes = none ↔ c ∉ bytes := by
  induction bytes with
  | nil => simp [find]
  | cons b bytes ih =>
    rw [find_cons_eq_none, ih, mem_cons, not_or]
    simp

lemma find_singleton_append {c : UInt8} {before : Bytes} (h : c ∉ before) (rest : Bytes) :
    find [c] (before ++ c :: rest) = some before.length :=
  find_append (cons_ne_nil c []) (by simpa using find_singleton_eq_none.mpr h) rest

/-! ## Lines -/

lemma find_crlf_concat (h : find crlf line = none) : find crlf (line ++ [13]) = none := by
  induction line with
  | nil => decide
  | cons b line ih =>
    rw [find_cons_eq_none] at h
    rw [cons_append, find_cons_eq_none]
    refine ⟨fun hpre => ?_, ih h.2⟩
    cases line with
    | nil => simp [crlf] at hpre
    | cons c line => exact h.1 (by simpa [crlf] using hpre)

lemma find_crlf_append (h : find crlf line = none) (rest : Bytes) :
    find crlf (line ++ (crlf ++ rest)) = some line.length :=
  find_append (by decide) (find_crlf_concat h) rest

/-- Lines with their ends. -/
def joinLines (lines : List Bytes) : Bytes := lines.flatMap (· ++ crlf)

@[simp] lemma joinLines_nil : joinLines [] = [] := rfl

@[simp] lemma joinLines_cons (line : Bytes) (lines : List Bytes) :
    joinLines (line :: lines) = line ++ (crlf ++ joinLines lines) := by
  simp [joinLines]

@[simp] lemma joinLines_append (lines more : List Bytes) :
    joinLines (lines ++ more) = joinLines lines ++ joinLines more := by
  simp [joinLines]

/-- The head of a message. -/
@[ext] structure MessageHead where
  startLine : Bytes
  fieldLines : List Bytes
  isLine : ∀ line ∈ startLine :: fieldLines, find crlf line = none
  nonempty : [] ∉ fieldLines

lemma joinLines_crlf_inj {lines lines' : List Bytes} {rest rest' : Bytes}
    (hline : ∀ line ∈ lines, find crlf line = none) (hne : [] ∉ lines)
    (hline' : ∀ line ∈ lines', find crlf line = none) (hne' : [] ∉ lines')
    (h : joinLines lines ++ (crlf ++ rest) = joinLines lines' ++ (crlf ++ rest')) :
    lines = lines' ∧ rest = rest' := by
  induction lines generalizing lines' with
  | nil =>
    cases lines' with
    | nil => exact ⟨rfl, by simpa using h⟩
    | cons line' lines' =>
      have hfind := find_crlf_append (hline' line' mem_cons_self)
        (joinLines lines' ++ (crlf ++ rest'))
      rw [joinLines_cons, append_assoc, append_assoc] at h
      rw [← h] at hfind
      have hzero : find crlf ([] ++ (crlf ++ rest)) = some 0 := find_crlf_append rfl rest
      rw [joinLines_nil, hzero, some_inj, eq_comm, length_eq_zero_iff] at hfind
      exact absurd (hfind ▸ mem_cons_self) hne'
  | cons line lines ih =>
    have hfind := find_crlf_append (hline line mem_cons_self)
      (joinLines lines ++ (crlf ++ rest))
    rw [joinLines_cons, append_assoc, append_assoc] at h
    rw [h] at hfind
    cases lines' with
    | nil =>
      have hzero : find crlf ([] ++ (crlf ++ rest')) = some 0 := find_crlf_append rfl rest'
      rw [joinLines_nil, hzero, some_inj, eq_comm, length_eq_zero_iff] at hfind
      exact absurd (hfind ▸ mem_cons_self) hne
    | cons line' lines' =>
      rw [joinLines_cons, append_assoc, append_assoc] at h hfind
      rw [find_crlf_append (hline' line' mem_cons_self), some_inj] at hfind
      obtain ⟨rfl, _⟩ := append_inj h hfind.symm
      have htail := ih (fun l hl => hline l (mem_cons_of_mem _ hl))
        (fun hmem => hne (mem_cons_of_mem _ hmem))
        (fun l hl => hline' l (mem_cons_of_mem _ hl))
        (fun hmem => hne' (mem_cons_of_mem _ hmem))
        (append_cancel_left (append_cancel_left h))
      exact ⟨by rw [htail.1], htail.2⟩

namespace MessageHead

/-- The head as it is sent. -/
def bytes (head : MessageHead) : Bytes :=
  head.startLine ++ (crlf ++ (joinLines head.fieldLines ++ crlf))

lemma bytes_append (head : MessageHead) (rest : Bytes) : head.bytes ++ rest =
    head.startLine ++ (crlf ++ (joinLines head.fieldLines ++ (crlf ++ rest))) := by
  simp [bytes]

lemma find_crlf_bytes (head : MessageHead) (rest : Bytes) :
    find crlf (head.bytes ++ rest) = some head.startLine.length ∧
      (head.bytes ++ rest).take head.startLine.length = head.startLine := by
  rw [bytes_append]
  exact ⟨find_crlf_append (head.isLine _ mem_cons_self) _, take_left⟩

lemma bytes_append_inj {head head' : MessageHead} {rest rest' : Bytes}
    (h : head.bytes ++ rest = head'.bytes ++ rest') : head = head' ∧ rest = rest' := by
  rw [bytes_append, bytes_append] at h
  have hfind := find_crlf_append (head.isLine _ mem_cons_self)
    (joinLines head.fieldLines ++ (crlf ++ rest))
  rw [h, find_crlf_append (head'.isLine _ mem_cons_self), some_inj] at hfind
  obtain ⟨hstart, h⟩ := append_inj h hfind.symm
  have hfields := joinLines_crlf_inj (fun l hl => head.isLine l (mem_cons_of_mem _ hl))
    head.nonempty (fun l hl => head'.isLine l (mem_cons_of_mem _ hl)) head'.nonempty
    (append_cancel_left h)
  exact ⟨MessageHead.ext hstart hfields.1, hfields.2⟩

end MessageHead

/-! ## Field lines -/

/-- What stands before the first colon. -/
def rawName (line : Bytes) : Bytes := line.takeWhile (· != 58)

/-- What stands after the first colon. -/
def rawValue (line : Bytes) : Bytes := (line.dropWhile (· != 58)).tail

def fieldName (line : Bytes) : Bytes := lowerAscii (rawName line)

def fieldValue (line : Bytes) : Bytes := trimOws (rawValue line)

/-- The values of the lines with a name in lower case, in order. -/
def lineValues (name : Bytes) (lines : List Bytes) : List Bytes :=
  (lines.filter fun line => fieldName line == name).map fieldValue

/-- The values of all fields of a name. -/
def MessageHead.values (head : MessageHead) (name : Bytes) : List Bytes :=
  lineValues (lowerAscii name) head.fieldLines

@[simp] lemma lineValues_nil (name : Bytes) : lineValues name [] = [] := rfl

lemma lineValues_cons (name line : Bytes) (lines : List Bytes) : lineValues name (line :: lines) =
      if fieldName line = name then fieldValue line :: lineValues name lines
      else lineValues name lines := by
  by_cases h : fieldName line = name
  · simp [lineValues, h]
  · simp [lineValues, h]

lemma lineValues_append (name : Bytes) (lines more : List Bytes) :
    lineValues name (lines ++ more) = lineValues name lines ++ lineValues name more := by
  simp [lineValues]

lemma take_drop_of_find {colon : ℕ} (h : find [58] line = some colon) :
    line.take colon = rawName line ∧ line.drop (colon + 1) = rawValue line := by
  induction line generalizing colon with
  | nil => cases h
  | cons b line ih =>
    by_cases hb : b = 58
    · subst hb
      have hzero : find [58] (58 :: line) = some 0 := rfl
      rw [hzero] at h
      cases h
      exact ⟨rfl, rfl⟩
    have hcons : find [58] (b :: line) = (find [58] line).map (· + 1) := by
      simp [find, Ne.symm hb]
    rw [hcons] at h
    obtain ⟨i, hi, rfl⟩ := map_eq_some_iff.mp h
    have := ih hi
    simp only [rawName, rawValue] at this ⊢
    simpa [hb] using this

lemma colon_test_iff {colon : ℕ} (h : find [58] line = some colon) :
    (colon == 0 || !isToken (line.take colon)) ↔
      58 ∉ line ∨ isToken (rawName line) = false := by
  have hmem : 58 ∈ line := by
    by_contra hmem
    rw [find_singleton_eq_none.mpr hmem] at h
    cases h
  have hzero : colon = 0 → isToken (rawName line) = false := by
    intro hzero
    rw [← (take_drop_of_find h).1, hzero]
    rfl
  rw [(take_drop_of_find h).1]
  simpa [hmem] using hzero

/-! ## Line feeds -/

lemma bareLineFeedAfter_line (h : 10 ∉ line) (previous : UInt8) (rest : Bytes) :
    bareLineFeedAfter previous (line ++ (crlf ++ rest)) = bareLineFeedAfter 10 rest := by
  induction line generalizing previous with
  | nil => simp [crlf, bareLineFeedAfter]
  | cons b line ih =>
    rw [mem_cons, not_or] at h
    simp [bareLineFeedAfter, ih h.2, Ne.symm h.1]

lemma bareLineFeedAfter_take {bytes : Bytes} {previous : UInt8} (n : ℕ)
    (h : bareLineFeedAfter previous bytes = false) :
    bareLineFeedAfter previous (bytes.take n) = false := by
  induction bytes generalizing previous n with
  | nil => simpa using h
  | cons b bytes ih =>
    cases n with
    | zero => rfl
    | succ n =>
      rw [bareLineFeedAfter, Bool.or_eq_false_iff] at h
      rw [take_succ_cons, bareLineFeedAfter, h.1, ih n h.2]
      rfl

lemma bareLineFeedAfter_joinLines {lines : List Bytes} (h : ∀ line ∈ lines, 10 ∉ line)
    (previous : UInt8) : bareLineFeedAfter previous (joinLines lines ++ crlf) = false := by
  induction lines generalizing previous with
  | nil => rfl
  | cons line lines ih =>
    rw [joinLines_cons, append_assoc, append_assoc, bareLineFeedAfter_line (h line mem_cons_self)]
    exact ih (fun l hl => h l (mem_cons_of_mem line hl)) 10

namespace MessageHead

lemma exists_bytes_eq (head : MessageHead) : ∃ before, head.bytes = before ++ (crlf ++ crlf) := by
  rcases eq_nil_or_concat head.fieldLines with hnil | ⟨lines, line, hlines⟩
  · exact ⟨head.startLine, by simp [bytes, hnil]⟩
  · exact ⟨head.startLine ++ (crlf ++ (joinLines lines ++ line)), by simp [bytes, hlines]⟩

lemma exists_headersEnd (head : MessageHead)
    (h : ∀ line ∈ head.startLine :: head.fieldLines, 10 ∉ line) (rest : Bytes) :
    ∃ headersEnd, find (crlf ++ crlf) (head.bytes ++ rest) = some headersEnd ∧
      hasBareLineFeed ((head.bytes ++ rest).take (headersEnd + 4)) = false := by
  obtain ⟨before, hbefore⟩ := head.exists_bytes_eq
  obtain ⟨i, hi, hfind⟩ := exists_find_le (crlf ++ crlf) before rest
  have hlength : i + 4 ≤ head.bytes.length := by
    rw [hbefore, length_append, show (crlf ++ crlf).length = 4 from rfl]
    omega
  refine ⟨i, ?_, ?_⟩
  · rw [← hfind, hbefore, append_assoc]
  · rw [take_append_of_le_length hlength]
    refine bareLineFeedAfter_take _ ?_
    rw [bytes, bareLineFeedAfter_line (h _ mem_cons_self)]
    exact bareLineFeedAfter_joinLines (fun l hl => h l (mem_cons_of_mem _ hl)) 10

end MessageHead

/-! ## The loop over the lines -/

/-- The loop of the parsers over the lines after the first one, with the position after the blank
line. `step` is what they do with a line, `unfinished` what they answer when there is no line end
from a position on. -/
def lineLoop {σ : Type} (step : Bytes → σ → Except ParseResult σ) (unfinished : ℕ → ParseResult)
    (bytes : Bytes) (startLineEnd : ℕ) : ℕ → ℕ → σ → Except ParseResult (σ × ℕ)
  | 0, _, _ => .error .needMoreData
  | turns + 1, cursor, s =>
    if kMaxHeaderBytes + startLineEnd + 2 < cursor then .error .error
    else
      match findFrom crlf cursor bytes with
      | none => .error (unfinished cursor)
      | some lineEnd =>
        if kMaxHeaderBytes < lineEnd + 2 - (startLineEnd + 2) then .error .error
        else if lineEnd = cursor then .ok (s, cursor + 2)
        else do
          let s ← step ((bytes.drop cursor).take (lineEnd - cursor)) s
          lineLoop step unfinished bytes startLineEnd turns (lineEnd + 2) s

section
variable {σ : Type} {step : Bytes → σ → Except ParseResult σ} {unfinished : ℕ → ParseResult}
  {bytes : Bytes} {startLineEnd : ℕ}

/-- A loop over field lines. -/
def foldLines (step : Bytes → σ → Except ParseResult σ) (lines : List Bytes) (s : σ) :
    Except ParseResult σ :=
  lines.foldlM (fun s line => step line s) s

@[simp] lemma foldLines_nil (s : σ) : foldLines step [] s = .ok s := rfl

@[simp] lemma foldLines_cons (line : Bytes) (lines : List Bytes) (s : σ) :
    foldLines step (line :: lines) s = step line s >>= foldLines step lines := by
  simp only [foldLines, foldlM_cons]
  rfl

@[simp] lemma foldLines_singleton (line : Bytes) (s : σ) :
    foldLines step [line] s = step line s := by
  rw [foldLines_cons]
  cases step line s <;> rfl

lemma foldLines_append {lines : List Bytes} {s t : σ} (h : foldLines step lines s = .ok t)
    (more : List Bytes) : foldLines step (lines ++ more) s = foldLines step more t := by
  rw [foldLines] at h
  rw [foldLines, foldlM_append, h]
  rfl

variable {cursor : ℕ}

lemma lineLoop_ne_complete (hstep : ∀ line s, step line s ≠ .error .complete)
    (hunfinished : ∀ cursor, unfinished cursor ≠ .complete) (turns cursor : ℕ) (s : σ) :
    lineLoop step unfinished bytes startLineEnd turns cursor s ≠ .error .complete := by
  induction turns generalizing cursor s with
  | zero => nofun
  | succ turns ih =>
    rw [lineLoop]
    refine ite_ne_complete nofun ?_
    split
    · intro h
      exact hunfinished cursor (Except.error.inj h)
    refine ite_ne_complete nofun ?_
    split
    · nofun
    · exact bind_ne_complete (hstep _ s) fun t => ih _ t

lemma findFrom_crlf {bytes line rest : Bytes} (hdrop : bytes.drop cursor = line ++ (crlf ++ rest))
    (hline : find crlf line = none) : findFrom crlf cursor bytes = some (line.length + cursor) := by
  rw [findFrom, hdrop, find_crlf_append hline]
  rfl

lemma lineLoop_joinLines {rest : Bytes} {lines : List Bytes} {turns : ℕ} (s : σ)
    (hdrop : bytes.drop cursor = joinLines lines ++ (crlf ++ rest))
    (hline : ∀ line ∈ lines, find crlf line = none) (hne : [] ∉ lines)
    (hsize : cursor + (joinLines lines).length ≤ startLineEnd + kMaxHeaderBytes)
    (hturns : lines.length < turns) :
    lineLoop step unfinished bytes startLineEnd turns cursor s =
      (foldLines step lines s).map fun t => (t, cursor + (joinLines lines).length + 2) := by
  induction lines generalizing cursor turns s with
  | nil =>
    cases turns with
    | zero => cases hturns
    | succ turns =>
      have hfind : findFrom crlf cursor bytes = some (0 + cursor) := findFrom_crlf hdrop rfl
      rw [Nat.zero_add] at hfind
      simp only [joinLines_nil, length_nil, Nat.add_zero] at hsize
      rw [lineLoop, if_neg (by omega), hfind]
      dsimp only
      rw [if_neg (by omega), if_pos rfl]
      rfl
  | cons line lines ih =>
    cases turns with
    | zero => cases hturns
    | succ turns =>
      rw [joinLines_cons, append_assoc, append_assoc] at hdrop
      have hfind := findFrom_crlf hdrop (hline line mem_cons_self)
      have hpos : line.length ≠ 0 := by
        intro hzero
        rw [length_eq_zero_iff] at hzero
        exact hne (hzero ▸ mem_cons_self)
      simp only [joinLines_cons, length_append, show crlf.length = 2 from rfl] at hsize ⊢
      rw [lineLoop, if_neg (by omega), hfind]
      dsimp only
      rw [if_neg (by omega), if_neg (by omega), hdrop, Nat.add_sub_cancel, take_left,
        foldLines_cons]
      cases step line s with
      | error result => rfl
      | ok t =>
        have hnext : bytes.drop (line.length + cursor + 2) = joinLines lines ++ (crlf ++ rest) := by
          rw [Nat.add_right_comm, Nat.add_comm _ cursor, ← drop_drop, hdrop, ← drop_drop, drop_left]
          rfl
        refine (ih t hnext (fun l hl => hline l (mem_cons_of_mem line hl))
          (fun hmem => hne (mem_cons_of_mem line hmem)) (by omega)
          (Nat.lt_of_succ_lt_succ hturns)).trans ?_
        rw [show line.length + cursor + 2 + (joinLines lines).length + 2 =
          cursor + (line.length + (2 + (joinLines lines).length)) + 2 by omega]
        rfl

lemma exists_lines_of_lineLoop {turns stop : ℕ} {s t : σ}
    (h : lineLoop step unfinished bytes startLineEnd turns cursor s = .ok (t, stop)) :
    ∃ lines rest, bytes.drop cursor = joinLines lines ++ (crlf ++ rest) ∧
      (∀ line ∈ lines, find crlf line = none) ∧ [] ∉ lines ∧ foldLines step lines s = .ok t ∧
      stop = cursor + (joinLines lines).length + 2 := by
  induction turns generalizing cursor s with
  | zero => cases h
  | succ turns ih =>
    obtain ⟨_, h⟩ := of_ite_error_ok h
    cases hfind : findFrom crlf cursor bytes with
    | none =>
      rw [hfind] at h
      cases h
    | some lineEnd =>
      rw [hfind] at h
      obtain ⟨_, h⟩ := of_ite_error_ok h
      obtain ⟨i, hi, rfl⟩ := map_eq_some_iff.mp hfind
      have hsplit := eq_append_of_find hi
      have hline := find_take_eq_none (by decide) hi
      rw [drop_drop] at hsplit
      by_cases hblank : i + cursor = cursor
      · rw [if_pos hblank] at h
        cases h
        have hzero : i = 0 := by omega
        subst hzero
        exact ⟨[], _, by simpa using hsplit, nofun, nofun, rfl, rfl⟩
      rw [if_neg hblank] at h
      obtain ⟨s', hstep, h⟩ := exists_of_bind_ok h
      obtain ⟨lines, rest, hdrop, hlines, hne, hfold, hstop⟩ := ih h
      rw [Nat.add_sub_cancel] at hstep
      have hlength : ((bytes.drop cursor).take i).length = i := by
        have := find_add_length_le hi
        rw [length_take]
        omega
      refine ⟨(bytes.drop cursor).take i :: lines, rest, ?_, ?_, ?_, ?_, ?_⟩
      · rw [joinLines_cons, append_assoc, append_assoc, ← hdrop]
        rw [show i + cursor + 2 = cursor + (i + crlf.length) from by
          rw [show crlf.length = 2 from rfl]
          omega]
        exact hsplit
      · exact forall_mem_cons.mpr ⟨hline, hlines⟩
      · rw [mem_cons, not_or]
        refine ⟨fun hnil => hblank ?_, hne⟩
        rw [← hnil, length_nil] at hlength
        omega
      · rw [foldLines_cons, hstep]
        exact hfold
      · rw [hstop, joinLines_cons]
        simp only [length_append, hlength, show crlf.length = 2 from rfl]
        omega

end

lemma lineLoop_head {σ : Type} {step : Bytes → σ → Except ParseResult σ}
    {unfinished : ℕ → ParseResult} (head : MessageHead)
    (hsize : (joinLines head.fieldLines).length + crlf.length ≤ kMaxHeaderBytes) (rest : Bytes)
    (s : σ) :
    lineLoop step unfinished (head.bytes ++ rest) head.startLine.length
        ((head.bytes ++ rest).length + 1) (head.startLine.length + 2) s =
      (foldLines step head.fieldLines s).map fun t => (t, head.bytes.length) := by
  have hdrop : (head.bytes ++ rest).drop (head.startLine.length + 2) =
      joinLines head.fieldLines ++ (crlf ++ rest) := by
    rw [MessageHead.bytes_append, ← drop_drop, drop_left]
    rfl
  have hle : ∀ lines : List Bytes, lines.length ≤ (joinLines lines).length := by
    intro lines
    induction lines with
    | nil => exact Nat.le_refl 0
    | cons line lines ih =>
      simp only [joinLines_cons, length_cons, length_append, show crlf.length = 2 from rfl]
      omega
  have hlines := hle head.fieldLines
  have hcursor : head.startLine.length + 2 + (joinLines head.fieldLines).length + 2 =
      head.bytes.length := by
    simp only [MessageHead.bytes, length_append, show crlf.length = 2 from rfl]
    omega
  rw [show crlf.length = 2 from rfl] at hsize
  rw [lineLoop_joinLines s hdrop (fun l hl => head.isLine l (mem_cons_of_mem _ hl))
    head.nonempty (by omega) (by rw [length_append]; omega), hcursor]

lemma exists_head_of_lineLoop {σ : Type} {step : Bytes → σ → Except ParseResult σ}
    {unfinished : ℕ → ParseResult} {bytes : Bytes} {startLineEnd turns stop : ℕ} {s t : σ}
    (hfind : find crlf bytes = some startLineEnd)
    (h : lineLoop step unfinished bytes startLineEnd turns (startLineEnd + 2) s = .ok (t, stop)) :
    ∃ (head : MessageHead) (rest : Bytes), bytes = head.bytes ++ rest ∧
      head.startLine = bytes.take startLineEnd ∧ foldLines step head.fieldLines s = .ok t ∧
      stop = head.bytes.length := by
  obtain ⟨lines, rest, hdrop, hlines, hne, hfold, hstop⟩ := exists_lines_of_lineLoop h
  have hsplit := eq_append_of_find hfind
  have hlength : (bytes.take startLineEnd).length = startLineEnd := by
    have := find_add_length_le hfind
    rw [length_take]
    omega
  refine ⟨⟨bytes.take startLineEnd, lines,
    forall_mem_cons.mpr ⟨find_take_eq_none (by decide) hfind, hlines⟩, hne⟩, rest, ?_, rfl,
    hfold, ?_⟩
  · rw [MessageHead.bytes_append, ← hdrop]
    exact hsplit
  · rw [hstop, MessageHead.bytes]
    simp only [length_append, hlength, show crlf.length = 2 from rfl]
    omega

end AegisGate.Http
