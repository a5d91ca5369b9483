import AegisGate.Http.HeaderArea
import AegisGate.Proxy.Relay

/-!
# The read loop of a streaming exchange

`HandleStreamingRead` of `src/net/UpstreamConnection.cpp`, from a state `kReading` with any input
and any progress of the parser. A turn consumes what is buffered; if nothing is, it calls `recv`.
After the head, a turn that goes on has emptied the buffer. Before it, a turn on the beginning of
a head goes on with the buffer as it was, and the next turn is the same: the loop does not end.

What `recv` returns is an argument: chunks and `EINTR`, and then the answer that ends the
sequence. The callbacks are arbitrary; each may pause reading.
-/

namespace AegisGate.Proxy
open Http Option Bool List HttpResponseParser

/-- The answer that ends a sequence of `recv` calls. -/
inductive RecvEnd
  | again
  | eof
  | failed
  deriving DecidableEq

/-- How a read ends. -/
inductive ReadEnd
  | paused
  | again
  | finished (result : UpstreamResult)
  deriving DecidableEq

/-- The callbacks of an exchange, on the state behind them. They say whether reading is paused, and
the sink whether it takes the bytes. -/
structure StreamingCallbacks (σ : Type) where
  firstByte : σ → σ × Bool
  header : HttpResponseHead → σ → σ × Bool
  sink : Bytes → σ → σ × Bool × Bool

/-- A streaming exchange in state `kReading`. -/
structure StreamingRead (σ : Type) where
  parser : HttpResponseParser
  input : Bytes := []
  firstByteReported : Bool := false
  headerReported : Bool := false
  readingPaused : Bool := false
  world : σ

namespace StreamingRead
variable {σ : Type} (callbacks : StreamingCallbacks σ)

/-- The sink, with `reading_paused_`. -/
def sink (bytes : Bytes) (s : σ × Bool) : Option ((σ × Bool) × Bool) :=
  let answer := callbacks.sink bytes s.1
  some ((answer.1, s.2 || answer.2.1), answer.2.2)

section
variable (s : StreamingRead σ)

/-- The header callback runs. -/
def reportHeader : StreamingRead σ :=
  let answer := callbacks.header s.parser.head s.world
  { s with
    headerReported := true
    world := answer.1
    readingPaused := s.readingPaused || answer.2 }

/-- What follows `ConsumeBody`. -/
def afterBody (result : ParseResult) : StreamingRead σ × Option ReadEnd :=
  if result = .complete then (s, some (.finished .success))
  else if s.input ≠ [] then ({ s with readingPaused := true }, some .paused)
  else (s, none)

/-- `ConsumeStreamingInput`: the state, and how the loop is left, if it is; `none` is an exception
of the parser. -/
def consumeStreamingInput : Option (StreamingRead σ × Option ReadEnd) :=
  if !s.headerReported then
    let answer := s.parser.parseHeaderPhase s.input
    let s := { s with parser := answer.1, input := answer.2.1 }
    match answer.2.2 with
    | .error => some (s, some (.finished .protocolError))
    | .unsupported => some (s, some (.finished .unsupported))
    | .needMoreData => some (s, none)
    | .complete =>
      some (s.reportHeader callbacks,
        if s.parser.bodyComplete then some (.finished .success) else none)
  else if s.parser.bodyComplete then some (s, some (.finished .success))
  else
    (s.parser.consumeBody s.input (sink callbacks) (s.world, s.readingPaused)).map fun answer =>
      { s with
        parser := answer.1, input := answer.2.1
        world := answer.2.2.1.1, readingPaused := answer.2.2.1.2 }.afterBody answer.2.2.2

/-- Bytes of `recv` arrive. -/
def receive (chunk : Chunk) : StreamingRead σ :=
  let s := { s with input := s.input ++ chunk.1 }
  if s.firstByteReported then s
  else
    let answer := callbacks.firstByte s.world
    { s with
      firstByteReported := true
      world := answer.1
      readingPaused := s.readingPaused || answer.2 }

/-- The loop between two turns: the state, and what `recv` will return; `none` is `EINTR`. -/
abbrev Position (σ : Type) := StreamingRead σ × List (Option Chunk)

/-- Consume the input, and go on or end. -/
def consume (answers : List (Option Chunk)) : Option (Position σ ⊕ ReadEnd) :=
  (s.consumeStreamingInput callbacks).map fun answer =>
    match answer.2 with
    | some e => .inr e
    | none => .inl (answer.1, answers)

/-- The rest of a turn that calls `recv`. -/
def recv (last : RecvEnd) (s : StreamingRead σ) :
    List (Option Chunk) → Option (Position σ ⊕ ReadEnd)
  | some chunk :: answers => (s.receive callbacks chunk).consume callbacks answers
  | none :: answers => some (.inl (s, answers))
  | [] => some (.inr (match last with
      | .again => .again
      | .eof => .finished .eof
      | .failed => .finished .readError))

/-- One turn of the loop of `HandleStreamingRead`. -/
def turn (last : RecvEnd) (position : Position σ) : Option (Position σ ⊕ ReadEnd) :=
  if position.1.readingPaused then some (.inr .paused)
  else if position.1.input ≠ [] then position.1.consume callbacks position.2
  else position.1.recv callbacks last position.2

/-- How the loop is left within some number of turns. -/
def turns (last : RecvEnd) : ℕ → Position σ → Option ReadEnd
  | 0, _ => none
  | n + 1, position =>
    match turn callbacks last position with
    | some (.inl position) => turns last n position
    | some (.inr e) => some e
    | none => none

/-! ## What a turn does -/

/-- What holds of the parser: before the head it is as `Reset` has left it, and then it expects the
body. -/
structure Valid (s : StreamingRead σ) : Prop where
  fresh : s.headerReported = false → s.parser = { responseToHead := s.parser.responseToHead }
  expecting : s.headerReported → s.parser.Expecting

/-- Reading goes on, and the buffer is a beginning of a head. -/
def Stuck : Prop :=
  s.readingPaused = false ∧ s.headerReported = false ∧ s.input ≠ [] ∧
    (s.parser.parseHeaderPhase s.input).2.2 = .needMoreData

end

/-- The state in which the buffer is first consumed, if it is. -/
def firstParse (position : Position σ) : StreamingRead σ :=
  if position.1.input ≠ [] then position.1
  else match position.2.filterMap id with
    | chunk :: _ => position.1.receive callbacks chunk
    | [] => position.1

variable {p : HttpResponseParser}

/-- `ConsumeBody` while body bytes are expected does not throw, and the parser goes on expecting. -/
lemma consumeBody_sink (h : p.Expecting) (hopen : p.bodyComplete = false) (input : Bytes)
    (s : σ × Bool) :
    ∃ answer, p.consumeBody input (sink callbacks) s = some answer ∧ answer.1.Expecting := by
  obtain ⟨hresult, -⟩ := h.open_ hopen
  rw [consumeBody, if_neg (by simp [h.headers]),
    if_neg (by simp [hresult, hopen])]
  dsimp only
  split
  · exact ⟨_, rfl, h⟩
  · rw [sink, map_some]
    split
    · exact ⟨_, rfl, h⟩
    · exact ⟨_, rfl, (h.retrieve hopen _).1⟩

variable {s : StreamingRead σ}

lemma consume_body (hs : s.Valid) (hreported : s.headerReported)
    (answers : List (Option Chunk)) :
    (∃ e, s.consume callbacks answers = some (.inr e)) ∨
      ∃ t : StreamingRead σ, s.consume callbacks answers = some (.inl (t, answers)) ∧ t.Valid ∧
        t.headerReported ∧ t.input = [] := by
  rw [consume, consumeStreamingInput, if_neg (by simp [hreported])]
  by_cases hcomplete : s.parser.bodyComplete
  · rw [if_pos hcomplete]
    exact .inl ⟨_, rfl⟩
  rw [if_neg hcomplete]
  obtain ⟨answer, hanswer, hexpecting⟩ := consumeBody_sink callbacks (hs.expecting hreported)
    (not_eq_true _ ▸ hcomplete) s.input (s.world, s.readingPaused)
  rw [hanswer, map_some, map_some, afterBody]
  by_cases hresult : answer.2.2.2 = .complete
  · rw [if_pos hresult]
    exact .inl ⟨_, rfl⟩
  rw [if_neg hresult]
  by_cases hinput : answer.2.1 ≠ []
  · rw [if_pos hinput]
    exact .inl ⟨_, rfl⟩
  · rw [if_neg hinput]
    refine .inr ⟨_, rfl, ⟨fun hfalse => ?_, fun _ => hexpecting⟩, hreported,
      Decidable.not_not.mp hinput⟩
    exact absurd hreported (eq_false_iff.mp hfalse)

lemma expecting_parseHeaderPhase {input : Bytes} (hp : p = { responseToHead := p.responseToHead })
    (hcomplete : (p.parseHeaderPhase input).2.2 = .complete) :
    (p.parseHeaderPhase input).1.Expecting := by
  rw [hp] at hcomplete ⊢
  rw [parseHeaderPhase, if_neg (by simp)] at hcomplete ⊢
  split
  · next result hparse =>
    rw [hparse] at hcomplete
    dsimp only at hcomplete
    rw [hcomplete] at hparse
    exact absurd hparse (parseHeaderArea_ne_complete _ _)
  · exact expecting_parseHeaders _ _

lemma parseHeaderPhase_of_needMoreData {input : Bytes}
    (hp : p = { responseToHead := p.responseToHead })
    (hmore : (p.parseHeaderPhase input).2.2 = .needMoreData) :
    p.parseHeaderPhase input = (p, input, .needMoreData) := by
  rw [hp] at hmore ⊢
  rw [parseHeaderPhase, if_neg (by simp)] at hmore ⊢
  split
  · next result hparse =>
    rw [hparse] at hmore
    dsimp only at hmore
    rw [hmore]
  · next hparse => simp [hparse] at hmore

lemma consume_head (hs : s.Valid) (hreported : s.headerReported = false)
    (answers : List (Option Chunk)) :
    (∃ e, s.consume callbacks answers = some (.inr e)) ∨
      (∃ t : StreamingRead σ, s.consume callbacks answers = some (.inl (t, answers)) ∧ t.Valid ∧
        t.headerReported) ∨
      (s.parser.parseHeaderPhase s.input).2.2 = .needMoreData ∧
        s.consume callbacks answers = some (.inl (s, answers)) := by
  rw [consume, consumeStreamingInput, if_pos (by simp [hreported])]
  dsimp only
  split
  · exact .inl ⟨_, rfl⟩
  · exact .inl ⟨_, rfl⟩
  · next hmore =>
    rw [parseHeaderPhase_of_needMoreData (hs.fresh hreported) hmore]
    exact .inr (.inr ⟨rfl, rfl⟩)
  next hcomplete =>
  rw [map_some]
  by_cases hbody : (s.parser.parseHeaderPhase s.input).1.bodyComplete
  · rw [if_pos hbody]
    exact .inl ⟨_, rfl⟩
  · rw [if_neg hbody]
    have hexpecting := expecting_parseHeaderPhase (hs.fresh hreported) hcomplete
    exact .inr (.inl ⟨_, rfl, ⟨nofun, fun _ => hexpecting⟩, rfl⟩)

lemma Stuck.consume (h : s.Stuck) (hs : s.Valid) (answers : List (Option Chunk)) :
    s.consume callbacks answers = some (.inl (s, answers)) := by
  obtain ⟨-, hreported, -, hmore⟩ := h
  rw [StreamingRead.consume, consumeStreamingInput, if_pos (by simp [hreported]),
    parseHeaderPhase_of_needMoreData (hs.fresh hreported) hmore]
  rfl

/-! ## Receiving -/

lemma valid_receive (hs : s.Valid) (chunk : Chunk) : (s.receive callbacks chunk).Valid := by
  rw [receive]
  split
  · exact ⟨hs.fresh, hs.expecting⟩
  · exact ⟨hs.fresh, hs.expecting⟩

lemma headerReported_receive (s : StreamingRead σ) (chunk : Chunk) :
    (s.receive callbacks chunk).headerReported = s.headerReported := by
  rw [receive]
  split <;> rfl

lemma input_receive_ne_nil (s : StreamingRead σ) (chunk : Chunk) :
    (s.receive callbacks chunk).input ≠ [] := by
  have hchunk : s.input ++ chunk.1 ≠ [] := append_ne_nil_of_right_ne_nil _ chunk.2.1
  rw [receive]
  split <;> exact hchunk

lemma readingPaused_receive (hpaused : s.readingPaused) (chunk : Chunk) :
    (s.receive callbacks chunk).readingPaused := by
  rw [receive]
  split
  · exact hpaused
  · simp [hpaused]

/-! ## The first bytes -/

lemma firstParse_of_input (hinput : s.input ≠ []) (answers : List (Option Chunk)) :
    firstParse callbacks (s, answers) = s :=
  if_pos hinput

lemma firstParse_nil (s : StreamingRead σ) : firstParse callbacks (s, []) = s :=
  ite_id _

lemma firstParse_some (hinput : s.input = []) (chunk : Chunk) (answers : List (Option Chunk)) :
    firstParse callbacks (s, some chunk :: answers) = s.receive callbacks chunk :=
  if_neg (Decidable.not_not.mpr hinput)

lemma firstParse_cases (s : StreamingRead σ) (answers : List (Option Chunk)) :
    firstParse callbacks (s, answers) = s ∨
      ∃ chunk, firstParse callbacks (s, answers) = s.receive callbacks chunk := by
  by_cases hinput : s.input = []
  · induction answers with
    | nil => exact .inl (firstParse_nil callbacks s)
    | cons answer answers ih =>
      cases answer with
      | none => exact ih
      | some chunk => exact .inr ⟨chunk, firstParse_some callbacks hinput chunk answers⟩
  · exact .inl (firstParse_of_input callbacks hinput answers)

lemma not_stuck_firstParse (h : s.headerReported ∨ s.readingPaused)
    (answers : List (Option Chunk)) : ¬ (firstParse callbacks (s, answers)).Stuck := by
  rintro ⟨hpaused, hreported, -⟩
  obtain heq | ⟨chunk, heq⟩ := firstParse_cases callbacks s answers
  · rw [heq] at hpaused hreported
    simp [hpaused, hreported] at h
  · rw [heq, headerReported_receive] at hreported
    rw [heq] at hpaused
    rcases h with h | h
    · simp [hreported] at h
    · simp [readingPaused_receive callbacks h chunk] at hpaused

/-! ## The loop -/

/-- What the loop has left: the answers of `recv`, the buffer and the head. -/
def remaining (position : Position σ) : ℕ :=
  2 * position.2.length + (if position.1.input = [] then 0 else 1) +
    (if position.1.headerReported then 0 else 1)

/-- The loop ends from here. -/
structure Ending (position : Position σ) : Prop where
  valid : position.1.Valid
  goes : ¬ (firstParse callbacks position).Stuck

lemma consume_ending (hs : s.Valid) (hinput : s.input ≠ []) (hstuck : ¬ s.Stuck)
    (answers : List (Option Chunk)) :
    (∃ e, s.consume callbacks answers = some (.inr e)) ∨
      ∃ next, s.consume callbacks answers = some (.inl next) ∧ Ending callbacks next ∧
        (remaining next < remaining (s, answers) ∨ s.readingPaused ∧
          next = (s, answers)) := by
  by_cases hreported : s.headerReported
  · obtain hend | ⟨t, ht, hvalid, hagain, hempty⟩ := consume_body callbacks hs hreported answers
    · exact .inl hend
    · refine .inr ⟨_, ht, ⟨hvalid, not_stuck_firstParse callbacks (.inl hagain) answers⟩, .inl ?_⟩
      simp [remaining, hempty, hagain, hinput, hreported]
  rw [not_eq_true] at hreported
  obtain hend | ⟨t, ht, hvalid, hagain⟩ | ⟨hmore, ht⟩ := consume_head callbacks hs hreported answers
  · exact .inl hend
  · refine .inr ⟨_, ht, ⟨hvalid, not_stuck_firstParse callbacks (.inl hagain) answers⟩, .inl ?_⟩
    simp only [remaining, hagain, hinput, hreported, if_true, if_false, false_eq_true]
    split <;> omega
  · have hpaused : s.readingPaused := by
      by_contra hgoes
      exact hstuck ⟨not_eq_true _ ▸ hgoes, hreported, hinput, hmore⟩
    exact .inr ⟨_, ht, ⟨hs, not_stuck_firstParse callbacks (.inr hpaused) answers⟩,
      .inr ⟨hpaused, rfl⟩⟩

lemma remaining_receive (hinput : s.input = []) (chunk : Chunk) (answers : List (Option Chunk)) :
    remaining (s.receive callbacks chunk, answers) < remaining (s, some chunk :: answers) := by
  simp only [remaining, input_receive_ne_nil, headerReported_receive, hinput, length_cons,
    if_true, if_false]
  omega

lemma turn_ending (last : RecvEnd) {position : Position σ} (h : Ending callbacks position) :
    (∃ e, turn callbacks last position = some (.inr e)) ∨
      ∃ next, turn callbacks last position = some (.inl next) ∧ Ending callbacks next ∧
        remaining next < remaining position := by
  obtain ⟨s, answers⟩ := position
  rw [turn]
  by_cases hpaused : s.readingPaused
  · rw [if_pos hpaused]
    exact .inl ⟨_, rfl⟩
  rw [if_neg hpaused]
  by_cases hinput : s.input ≠ []
  · rw [if_pos hinput]
    have hstuck : ¬ s.Stuck := firstParse_of_input callbacks hinput answers ▸ h.goes
    obtain hend | ⟨next, hnext, hending, hless | ⟨hagain, -⟩⟩ :=
      consume_ending callbacks h.valid hinput hstuck answers
    · exact .inl hend
    · exact .inr ⟨next, hnext, hending, hless⟩
    · exact absurd hagain hpaused
  rw [if_neg hinput]
  cases answers with
  | nil => exact .inl ⟨_, rfl⟩
  | cons answer answers =>
    rw [Decidable.not_not] at hinput
    cases answer with
    | none =>
      -- `EINTR`: one answer less, and nothing else.
      refine .inr ⟨_, rfl, ⟨h.valid, h.goes⟩, ?_⟩
      simp only [remaining, length_cons]
      omega
    | some chunk =>
      have hstuck := firstParse_some callbacks hinput chunk answers ▸ h.goes
      have hmoved := remaining_receive callbacks hinput chunk answers
      obtain hend | ⟨next, hnext, hending, hless | ⟨-, rfl⟩⟩ :=
        consume_ending callbacks (valid_receive callbacks h.valid chunk)
          (input_receive_ne_nil callbacks s chunk) hstuck answers
      · exact .inl hend
      · exact .inr ⟨next, hnext, hending, hless.trans hmoved⟩
      · exact .inr ⟨_, hnext, hending, hmoved⟩

lemma exists_turns_of_ending (last : RecvEnd) (n : ℕ) {position : Position σ}
    (h : Ending callbacks position) (hn : remaining position < n) :
    ∃ e, turns callbacks last n position = some e := by
  induction n generalizing position with
  | zero => exact absurd hn (Nat.not_lt_zero _)
  | succ n ih =>
    rw [turns]
    obtain ⟨e, he⟩ | ⟨next, hnext, hending, hless⟩ := turn_ending callbacks last h
    · rw [he]
      exact ⟨e, rfl⟩
    · rw [hnext]
      exact ih hending (by omega)

/-! ## Where it does not end -/

lemma Stuck.turns_eq_none (h : s.Stuck) (hs : s.Valid) (last : RecvEnd)
    (answers : List (Option Chunk)) (n : ℕ) : turns callbacks last n (s, answers) = none := by
  have hturn : turn callbacks last (s, answers) = some (.inl (s, answers)) := by
    rw [turn, if_neg (by simp [h.1]), if_pos h.2.2.1]
    exact h.consume callbacks hs answers
  induction n with
  | zero => rfl
  | succ n ih => rw [turns, hturn]; exact ih

lemma turns_eq_none (hs : s.Valid) (last : RecvEnd) {answers : List (Option Chunk)}
    (h : (firstParse callbacks (s, answers)).Stuck) (n : ℕ) :
    turns callbacks last n (s, answers) = none := by
  by_cases hinput : s.input = []
  · have hpaused : s.readingPaused = false := by
      by_contra hpaused
      exact not_stuck_firstParse callbacks (.inr (not_eq_false _ ▸ hpaused)) answers h
    induction answers generalizing n with
    | nil => exact absurd hinput (firstParse_nil callbacks s ▸ h).2.2.1
    | cons answer answers ih =>
      cases n with
      | zero => rfl
      | succ n =>
        rw [turns, turn, if_neg (by simp [hpaused]), if_neg (by simp [hinput])]
        cases answer with
        | none => exact ih h n
        | some chunk =>
          have hstuck := firstParse_some callbacks hinput chunk answers ▸ h
          have hvalid := valid_receive callbacks hs chunk
          rw [recv, hstuck.consume callbacks hvalid]
          exact hstuck.turns_eq_none callbacks hvalid last answers n
  · exact (firstParse_of_input callbacks hinput answers ▸ h).turns_eq_none callbacks hs last
      answers n

/-- The loop ends, for every sequence of answers of `recv`, unless the first bytes of the head that
it consumes are a beginning of the head and reading is not paused. -/
theorem exists_turns_iff {position : Position σ} (hs : position.1.Valid) (last : RecvEnd) :
    (∃ n e, turns callbacks last n position = some e) ↔
      ¬ (firstParse callbacks position).Stuck := by
  constructor
  · rintro ⟨n, e, he⟩ hstuck
    rw [turns_eq_none callbacks hs last hstuck n] at he
    exact absurd he nofun
  · intro hgoes
    exact ⟨_, exists_turns_of_ending callbacks last _ ⟨hs, hgoes⟩ (Nat.lt_succ_self _)⟩

/-- Callbacks that take everything. -/
def takeAll : StreamingCallbacks Unit where
  firstByte s := (s, false)
  header _ s := (s, false)
  sink _ s := (s, false, true)

/-- A new exchange. -/
def started : StreamingRead Unit where
  parser := {}
  world := ()

lemma valid_started : started.Valid := ⟨fun _ => rfl, nofun⟩

/-- The beginning of a response. -/
def statusLine : Chunk := ⟨ascii "HTTP/1.1 200 OK\r\n", by decide⟩

/-- The rest of it. -/
def restOfResponse : Chunk := ⟨ascii "Content-Length: 2\r\n\r\nok", by decide⟩

/-- The response in one piece. -/
def wholeResponse : Chunk := ⟨ascii "HTTP/1.1 200 OK\r\nContent-Length: 2\r\n\r\nok", by decide⟩

/-- A response received at once, after an interrupted call. -/
theorem exists_turns_wholeResponse :
    ∃ n e, turns takeAll .again n (started, [none, some wholeResponse]) = some e := by
  apply (exists_turns_iff takeAll valid_started .again).mpr
  rintro ⟨-, -, -, hmore⟩
  exact absurd hmore (by decide +kernel)

/-- A response whose status line is received first, and the rest of it later. -/
theorem not_exists_turns_statusLine :
    ¬ ∃ n e, turns takeAll .again n (started, [some statusLine, some restOfResponse]) = some e := by
  rintro ⟨n, e, he⟩
  have hstuck : (firstParse takeAll (started, [some statusLine, some restOfResponse])).Stuck :=
    ⟨rfl, rfl, by decide, by decide +kernel⟩
  rw [turns_eq_none takeAll valid_started .again hstuck n] at he
  exact absurd he nofun

end StreamingRead

end AegisGate.Proxy
