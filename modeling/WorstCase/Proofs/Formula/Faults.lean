import WorstCase.Proofs.Formula.Extents

/-!
# Where a parse error shows

What a parse error says about places is true of the text it is an error of
(`parseExpression_placed`, `parseStatement_placed`). The error shows at a place
in the text. The operator, bracket or sign that an incomplete construct is
blamed on is a lexeme of the text that ends before the error, a number out of
range is a lexeme that starts at it, and what breaks a number off lies before
it.

The argument follows the reader's own. What can fail is a scan, the reading of a
number, or a step that finds nothing it could take; in each case the places are
those of a token just taken or of the cursor. Only the sign that an operand is
missing after may lie further back, and where it is can be told from the written
progress.
-/

namespace WorstCase

open Lexeme (Spells Solid Numeral Magnitude Percentage Coefficient Name)

/-! ## Places in a text -/

/-- **A byte offset that is a place in the text**: there is a character
boundary. -/
def IsPlace (text : List Char) (offset : Nat) : Prop :=
  ∃ before, before <+: text ∧ offset = byteSize before

/-- **A span of the text**, of something on one line. -/
def Span.IsIn (text : List Char) (s : Span) : Prop :=
  ∃ before meant, before ++ meant <+: text ∧ meant ≠ [] ∧ OneLine meant
    ∧ s = ⟨Position.start.after before, Position.start.after (before ++ meant)⟩

namespace ParseFault

/-- The places a fault speaks of are in the text, and lie to the error's own as
they should. -/
def PlacedIn (text : List Char) (offset : Nat) : ParseFault → Prop
  | .missingOperand _ cause | .emptyGroup cause | .unclosedGroup cause
  | .missingExponent cause | .missingTemperature cause | .missingValue cause =>
    cause.IsIn text ∧ cause.stop.offset ≤ offset
  | .valueOutOfRange cause | .toleranceOutOfRange cause | .coefficientOutOfRange cause =>
    cause.IsIn text ∧ cause.start.offset = offset
  | .brokenNumber _ start => IsPlace text start ∧ start < offset
  | .missingExpression | .unexpectedText => True

end ParseFault

/-- **An error whose places are in the text.** -/
structure ParseError.PlacedIn (text : List Char) (e : ParseError) : Prop where
  /-- It shows at a place in the text. -/
  isPlace : IsPlace text e.offset
  /-- So does what it speaks of. -/
  fault : e.fault.PlacedIn text e.offset

/-- **A cursor in a text**, behind what comes before it. -/
structure Cursor.IsAt (text before : List Char) (c : Cursor) : Prop where
  text_eq : text = before ++ c.rest
  position_eq : c.position = Position.start.after before

section Places

variable {text before piece : List Char} {c next : Cursor}

/-- The cursor behind what is read. -/
theorem Cursor.IsAt.reads (h : c.IsAt text before) (hreads : c.Reads piece next) :
    next.IsAt text (before ++ piece) where
  text_eq := by rw [h.text_eq, hreads.rest_eq, List.append_assoc]
  position_eq := by rw [hreads.position_eq, h.position_eq, Position.after_append]

theorem Cursor.IsAt.prefix_of_reads (h : c.IsAt text before) (hreads : c.Reads piece next) :
    before ++ piece <+: text :=
  ⟨next.rest, (h.reads hreads).text_eq.symm⟩

@[simp] theorem offset_start_after (before : List Char) :
    (Position.start.after before).offset = byteSize before := by
  rw [Position.offset_after]
  exact Nat.zero_add _

/-- A cursor is at a place in its text. -/
theorem Cursor.IsAt.isPlace (h : c.IsAt text before) : IsPlace text c.position.offset :=
  ⟨before, ⟨c.rest, h.text_eq.symm⟩, by rw [h.position_eq, offset_start_after]⟩

/-- So is what comes behind the characters that are next. -/
theorem Cursor.IsAt.isPlace_add {more rest : List Char} (h : c.IsAt text before)
    (hrest : c.rest = more ++ rest) :
    IsPlace text (c.position.offset + byteSize more) := by
  refine ⟨before ++ more, ⟨rest, ?_⟩, ?_⟩
  · rw [h.text_eq, hrest, List.append_assoc]
  · rw [h.position_eq, offset_start_after, byteSize_append]

/-- A lexeme of the text has a span of the text. -/
theorem Stretch.isIn {s : Stretch} (h : before ++ s.text <+: text) (hsolid : Solid s.body)
    (hne : s.body ≠ []) : (s.extent (Position.start.after before)).span.IsIn text := by
  refine ⟨before, s.body, prefix_first h, hne, hsolid.oneLine, ?_⟩
  rw [Position.after_append]
  rfl

/-- It ends at or before every place behind it. -/
theorem Stretch.stop_le {s : Stretch} {offset : Nat} (h : byteSize (before ++ s.text) ≤ offset) :
    (s.extent (Position.start.after before)).span.stop.offset ≤ offset := by
  show ((Position.start.after before).after s.body).offset ≤ offset
  rw [← Position.after_append, offset_start_after, byteSize_append]
  rw [text, byteSize_append, byteSize_append] at h
  omega

end Places

/-! ## Tokens -/

namespace Cursor

variable {text before : List Char} {c next : Cursor} {e : ParseError}

/-- **A number that breaks off** shows at a place in the text. -/
theorem token_placed {α : Type} {scan : List Char → Scan} {spell : α → List Char}
    (hs : Spells scan spell) (hc : c.IsAt text before) (h : c.token scan = .error e) :
    e.PlacedIn text := by
  unfold token at h
  generalize hscan : scan c.rest = s at h
  cases s with
  | absent => cases h
  | found => cases h
  | broken part front mark =>
    cases h
    obtain ⟨rest, hrest, -, hmark⟩ := hs.broken hscan
    have hfront := hc.isPlace_add (hrest.trans (List.append_assoc _ _ _))
    have hall := hc.isPlace_add hrest
    rw [byteSize_append, ← Nat.add_assoc] at hall
    have hpos : 0 < byteSize mark := Nat.pos_of_ne_zero fun h => hmark (byteSize_eq_zero.mp h)
    exact ⟨hall, hfront, Nat.lt_add_of_pos_right hpos⟩

/-- The same where the lexeme may be left out. -/
theorem optionalToken_placed {α : Type} {scan : List Char → Scan} {spell : α → List Char}
    (hs : Spells scan spell) (hc : c.IsAt text before)
    (h : c.optionalToken scan = .error e) : e.PlacedIn text := by
  unfold optionalToken at h
  rcases Except.bind_eq_error.mp h with h | ⟨r, -, h⟩
  · exact token_placed hs hc h
  · cases r <;> cases h

end Cursor

/-! ## Numbers out of range -/

section Range

variable {text before : List Char} {e : ParseError}

/-- A fault that speaks of a number out of range. -/
def IsRangeFault (fault : Span → ParseFault) : Prop :=
  ∀ text offset cause, (fault cause).PlacedIn text offset
    = (Span.IsIn text cause ∧ cause.start.offset = offset)

/-- **A number out of range** shows where it starts. -/
theorem Stretch.outOfRange_placed {s : Stretch} {fault : Span → ParseFault}
    (hfault : IsRangeFault fault) (h : before ++ s.text <+: text) (hsolid : Solid s.body)
    (hne : s.body ≠ []) :
    ParseError.PlacedIn text
      ⟨(s.token (Position.start.after before)).span.start.offset,
        fault (s.token (Position.start.after before)).span⟩ := by
  refine ⟨⟨before, (List.prefix_append _ _).trans h, ?_⟩, ?_⟩
  · exact offset_start_after before
  · rw [hfault]
    exact ⟨s.isIn h hsolid hne, rfl⟩

theorem Token.readFinite_eq_error {t : Token} {number : List Char}
    {fault : Span → ParseFault} (h : t.readFinite number fault = .error e) :
    e = ⟨t.span.start.offset, fault t.span⟩ := by
  unfold Token.readFinite at h
  dsimp only at h
  split at h <;> cases h
  rfl

theorem Token.readCoefficient_eq_error {t : Token} (h : t.readCoefficient = .error e) :
    e = ⟨t.span.start.offset, .coefficientOutOfRange t.span⟩ := by
  unfold Token.readCoefficient at h
  dsimp only at h
  split at h <;> cases h
  rfl

/-- An optional value fails if its token does. -/
theorem Literal.readOptional_eq_error {α β : Type} {read : Token → Except ParseError β}
    {token : α → Token} {o : Option α}
    (h : Literal.readOptional read (o.map token) = .error e) :
    ∃ x, o = some x ∧ read (token x) = .error e := by
  cases o with
  | none => cases h
  | some x =>
    exact ⟨x, rfl, Except.map_eq_error.mp h⟩

/-- The tokens of a literal fail where a number of one is out of range. -/
theorem Literal.ofTokens_placed {dialect : Dialect} {x : Spaced (Magnitude dialect)}
    {tolerance : Option (Spaced Percentage)} {coefficient : Option (Spaced Coefficient)}
    {second third : List Char} (hx : before ++ (x.stretch Magnitude.text).text <+: text)
    (htolerance : ∀ t, tolerance = some t →
      second ++ (t.stretch Percentage.text).text <+: text)
    (hcoefficient : ∀ y, coefficient = some y →
      third ++ (y.stretch Coefficient.text).text <+: text)
    (h : Literal.ofTokens ((x.stretch Magnitude.text).token (Position.start.after before))
        (tolerance.map fun t =>
          (t.stretch Percentage.text).token (Position.start.after second))
        (coefficient.map fun y =>
          (y.stretch Coefficient.text).token (Position.start.after third)) = .error e) :
    e.PlacedIn text := by
  unfold Literal.ofTokens at h
  rcases Except.bind_eq_error.mp h with h | ⟨_, -, h⟩
  · obtain rfl := Token.readFinite_eq_error h
    exact Stretch.outOfRange_placed (fun _ _ _ => rfl) hx x.value.solid x.value.ne_nil
  rcases Except.bind_eq_error.mp h with h | ⟨_, -, h⟩
  · obtain ⟨t, ht, h⟩ := Literal.readOptional_eq_error h
    obtain rfl := Token.readFinite_eq_error h
    exact Stretch.outOfRange_placed (fun _ _ _ => rfl) (htolerance t ht) t.value.solid
      t.value.ne_nil
  rcases Except.bind_eq_error.mp h with h | ⟨_, -, h⟩
  · obtain ⟨y, hy, h⟩ := Literal.readOptional_eq_error h
    obtain rfl := Token.readCoefficient_eq_error h
    exact Stretch.outOfRange_placed (fun _ _ _ => rfl) (hcoefficient y hy) y.value.solid
      y.value.ne_nil
  · cases h

/-- **A literal that is no literal** shows where a number of it breaks off or
is out of range. -/
theorem Cursor.literal_placed {dialect : Dialect} {c : Cursor} (hc : c.IsAt text before)
    (h : c.literal dialect = .error e) : e.PlacedIn text := by
  unfold literal at h
  rcases Except.bind_eq_error.mp h with h | ⟨r, hr, h⟩
  · exact token_placed (Lexeme.magnitude_spells dialect) hc h
  cases r with
  | none => cases h
  | some found =>
    obtain ⟨magnitude, c₁⟩ := found
    obtain ⟨x, rfl, hx⟩ := token_eq_some (Lexeme.magnitude_spells dialect) hr
    have hc₁ := hc.reads hx
    rcases Except.bind_eq_error.mp h with h | ⟨⟨t, c₂⟩, ht, h⟩
    · exact optionalToken_placed Lexeme.percentage_spells hc₁ h
    obtain ⟨tolerance, rfl, htolerance⟩ := optionalToken_eq_ok Lexeme.percentage_spells ht
    have hc₂ := hc₁.reads htolerance
    rcases Except.bind_eq_error.mp h with h | ⟨⟨y, c₃⟩, hy, h⟩
    · exact optionalToken_placed Lexeme.coefficient_spells hc₂ h
    obtain ⟨coefficient, rfl, hcoefficient⟩ :=
      optionalToken_eq_ok Lexeme.coefficient_spells hy
    rcases Except.bind_eq_error.mp h with h | ⟨l, -, h⟩
    · rw [hc.position_eq, hc₁.position_eq, hc₂.position_eq] at h
      refine Literal.ofTokens_placed (hc.prefix_of_reads hx) ?_ ?_ h
      · rintro t rfl
        exact hc₁.prefix_of_reads htolerance
      · rintro y rfl
        exact hc₂.prefix_of_reads hcoefficient
    · cases h

end Range

/-! ## Operands and what goes on behind them -/

namespace Cursor

variable {dialect : Dialect} {text before : List Char} {c : Cursor} {e : ParseError}

/-- What is no operand shows where a literal of it fails. -/
theorem operand_placed (hc : c.IsAt text before) (h : c.operand dialect = .error e) :
    e.PlacedIn text := by
  unfold operand at h
  rcases Except.bind_eq_error.mp h with h | ⟨r, -, h⟩
  · exact literal_placed hc h
  cases r with
  | some found => cases h
  | none =>
    rcases Except.bind_eq_error.mp h with h | ⟨s, -, h⟩
    · unfold var at h
      rcases Except.bind_eq_error.mp h with h | ⟨r, -, h⟩
      · exact token_placed Lexeme.name_spells hc h
      · cases r <;> cases h
    · cases s with
      | some found => cases h
      | none =>
        dsimp only at h
        split at h <;> cases h

/-- **A number that must follow** and does not shows at or behind the cursor. -/
theorem requiredNumber_placed {missing : ParseFault} (hc : c.IsAt text before)
    (hmissing : ∀ offset, c.position.offset ≤ offset → missing.PlacedIn text offset)
    (h : c.requiredNumber missing = .error e) : e.PlacedIn text := by
  unfold requiredNumber at h
  rcases Except.bind_eq_error.mp h with h | ⟨r, -, h⟩
  · exact token_placed Lexeme.number_spells hc h
  cases r with
  | some found => cases h
  | none =>
    cases h
    exact ⟨hc.isPlace_add (Lexeme.optional_append _ _).symm, hmissing _ (Nat.le_add_right _ _)⟩

/-- A number that was read and is out of range. -/
theorem readFinite_placed {x : Spaced Numeral} {next : Cursor} (hc : c.IsAt text before)
    (hreads : c.Reads (x.stretch Numeral.text).text next) {number : List Char}
    (h : ((x.stretch Numeral.text).token c.position).readFinite number .valueOutOfRange
      = .error e) : e.PlacedIn text := by
  obtain rfl := Token.readFinite_eq_error h
  rw [hc.position_eq]
  exact Stretch.outOfRange_placed (fun _ _ _ => rfl) (hc.prefix_of_reads hreads)
    x.value.solid x.value.ne_nil

/-- A lexeme of the text that is behind the cursor, and so before all that is
still to be read. -/
def IsBehind (text : List Char) (c : Cursor) (cause : Span) : Prop :=
  cause.IsIn text ∧ cause.stop.offset ≤ c.position.offset

/-- The mark that is accepted is behind the cursor that follows. -/
theorem accept_isBehind (mark : List Char) {rest : List Char} (hc : c.IsAt text before)
    (hrest : c.rest = mark ++ rest) (hsolid : Solid mark) (hne : mark ≠ []) :
    (c.accept mark rest).2.IsBehind text (c.accept mark rest).1.span := by
  obtain ⟨space, htoken, hreads⟩ := accept_reads mark hrest
  rw [IsBehind, htoken, (hc.reads hreads).position_eq, offset_start_after, hc.position_eq]
  exact ⟨Stretch.isIn (hc.prefix_of_reads hreads) hsolid hne, Stretch.stop_le (Nat.le_refl _)⟩

/-- An exponent that is none. -/
theorem exponent_placed {sign : Token} (hc : c.IsAt text before)
    (hsign : c.IsBehind text sign.span) (h : c.exponent sign = .error e) :
    e.PlacedIn text := by
  unfold exponent at h
  rcases Except.bind_eq_error.mp h with h | ⟨⟨t, m⟩, hr, h⟩
  · refine requiredNumber_placed hc ?_ h
    intro offset hle
    exact ⟨hsign.1, Nat.le_trans hsign.2 hle⟩
  · obtain ⟨x, rfl, hreads⟩ := requiredNumber_eq_ok hr
    rcases Except.bind_eq_error.mp h with h | ⟨v, -, h⟩
    · exact readFinite_placed hc hreads h
    · cases h

/-- A temperature that is none. -/
theorem temperature_placed {sign : Token} (hc : c.IsAt text before)
    (hsign : c.IsBehind text sign.span) (h : c.temperature sign = .error e) :
    e.PlacedIn text := by
  unfold temperature at h
  rcases Except.bind_eq_error.mp h with h | ⟨⟨t, m⟩, hr, h⟩
  · refine requiredNumber_placed hc ?_ h
    intro offset hle
    exact ⟨hsign.1, Nat.le_trans hsign.2 hle⟩
  · obtain ⟨x, rfl, hreads⟩ := requiredNumber_eq_ok hr
    dsimp only at h
    rcases Except.bind_eq_error.mp h with h | ⟨v, -, h⟩
    · exact readFinite_placed hc hreads h
    · cases h

/-- **What cannot go on** shows where its number is missing, breaks off or is
out of range. -/
theorem continuation_placed (hc : c.IsAt text before) (h : c.continuation = .error e) :
    e.PlacedIn text := by
  unfold continuation at h
  split at h
  · cases h
  · split at h
    · rename_i rest hrest
      obtain ⟨space, -, hreads⟩ := accept_reads ['^'] hrest
      have hsign := accept_isBehind ['^'] hc hrest (by decide) (List.cons_ne_nil _ _)
      rcases Except.bind_eq_error.mp h with h | ⟨r, -, h⟩
      · exact exponent_placed (hc.reads hreads) hsign h
      · cases h
    · rename_i rest hrest
      obtain ⟨space, -, hreads⟩ := accept_reads ['@'] hrest
      have hsign := accept_isBehind ['@'] hc hrest (by decide) (List.cons_ne_nil _ _)
      rcases Except.bind_eq_error.mp h with h | ⟨r, -, h⟩
      · exact temperature_placed (hc.reads hreads) hsign h
      · cases h
    · cases h

end Cursor

/-! ## Steps -/

section Steps

variable {dialect : Dialect} {text front : List Char} {c : Cursor} {e : ParseError}
  {atStart : ParseFault}

theorem byteSize_le_of_isPrefix {piece : List Char} (h : piece <+: text) :
    byteSize piece ≤ byteSize text := by
  obtain ⟨rest, rfl⟩ := h
  rw [byteSize_append]
  exact Nat.le_add_right _ _

/-- A lexeme of what was read is in the text, and ends before what follows. -/
theorem Stretch.cause_placed {s : Stretch} {before read : List Char}
    (h : before ++ s.text <+: read) (hread : read <+: text) (hsolid : Solid s.body)
    (hne : s.body ≠ []) :
    (s.extent (Position.start.after before)).span.IsIn text
      ∧ (s.extent (Position.start.after before)).span.stop.offset ≤ byteSize read :=
  ⟨s.isIn (h.trans hread) hsolid hne, s.stop_le (byteSize_le_of_isPrefix h)⟩

/-- The operator that an operand is missing after is the last one written. -/
theorem WrittenPending.lastOperator_eq_some {w : WrittenPending dialect}
    {op : Node BinaryOperator}
    (h : (w.located (Position.start.after front)).lastOperator = some op) :
    ∃ (before : List Char) (x : Spaced BinaryOperator),
      op = ⟨x.value,
        (x.stretch BinaryOperator.lexeme).extent (Position.start.after before)⟩
      ∧ before ++ (x.stretch BinaryOperator.lexeme).text <+: front ++ w.text := by
  obtain ⟨sum, product⟩ := w
  cases product with
  | some y =>
    cases h
    refine ⟨front ++ WrittenWaiting.text sum ++ y.left.text, y.op, ?_, ?_⟩
    · rw [Position.after_append, Position.after_append]
    · show _ <+: front ++ (WrittenWaiting.text sum ++ (y.left.text ++ _))
      simp only [List.append_assoc, List.prefix_rfl]
  | none =>
    cases sum with
    | none => cases h
    | some x =>
      cases h
      refine ⟨front ++ x.left.text, x.op, ?_, ?_⟩
      · rw [Position.after_append]
      · show _ <+: front ++ (x.left.text ++ _ ++ [])
        simp only [List.append_nil, List.append_assoc, List.prefix_rfl]

namespace WrittenProgress

variable {w : WrittenProgress dialect}

/-- The innermost bracket is where it was written. -/
theorem bracket_isPrefix {space : Blanks} {around : WrittenPending dialect}
    {outer : List (Blanks × WrittenPending dialect)} (h : w.outer = (space, around) :: outer) :
    (front ++ (outerText outer ++ around.text)) ++ (space.behind ['(']).text
      <+: front ++ w.text := by
  rw [text, before, h]
  refine ⟨w.pending.text ++ (w.operand.map Written.text).getD [], ?_⟩
  simp only [outerText, List.append_assoc]

/-- **Where an operand is missing**, what it is missing after is behind. -/
theorem missing_placed (hread : front ++ w.text <+: text)
    (hat : ∀ offset, byteSize front ≤ offset → atStart.PlacedIn text offset) :
    ((w.located (Position.start.after front)).missing atStart).PlacedIn text
      (byteSize (front ++ w.text)) := by
  unfold Progress.missing
  split
  · rename_i op hop
    rw [located, ← Position.after_append] at hop
    obtain ⟨before, x, rfl, hfront⟩ := WrittenPending.lastOperator_eq_some hop
    refine Stretch.cause_placed (hfront.trans ?_) hread x.value.solid_lexeme
      x.value.lexeme_ne_nil
    rw [WrittenProgress.text, WrittenProgress.before, List.append_assoc front,
      ← List.append_assoc front (_ ++ _)]
    exact List.prefix_append _ _
  · split
    · rename_i bracket _ _ houter
      obtain ⟨pending, outer, operand⟩ := w
      cases outer with
      | nil => cases houter
      | cons b outer =>
        obtain ⟨space, around⟩ := b
        cases houter
        have hfront := @bracket_isPrefix dialect front
          ⟨pending, (space, around) :: outer, operand⟩ space around outer rfl
        rw [← Position.after_append]
        exact Stretch.cause_placed hfront hread (show Solid ['('] by decide)
          (List.cons_ne_nil _ _)
    · refine hat _ ?_
      rw [byteSize_append]
      exact Nat.le_add_right _ _

end WrittenProgress

variable {w : WrittenProgress dialect}

/-- A step where an operand is expected fails where it is missing. -/
theorem stepOperand_placed (hc : c.IsAt text (front ++ w.text))
    (hat : ∀ offset, byteSize front ≤ offset → atStart.PlacedIn text offset)
    (h : stepOperand dialect atStart (w.located (Position.start.after front)) c
      = .failed e) : e.PlacedIn text := by
  unfold stepOperand at h
  split at h
  · rename_i err ho
    cases h
    exact Cursor.operand_placed hc ho
  · cases h
    refine ⟨hc.isPlace, ?_⟩
    rw [hc.position_eq, offset_start_after]
    exact WrittenProgress.missing_placed ⟨c.rest, hc.text_eq.symm⟩ hat
  · cases h
  · cases h

/-- A step behind an operand fails where a bracket is not closed. -/
theorem stepClose_placed {x : Expr Binary64} (hc : c.IsAt text (front ++ w.text))
    (h : stepClose (w.located (Position.start.after front)) x c = .failed e) :
    e.PlacedIn text := by
  obtain ⟨pending, outer, operand⟩ := w
  cases outer with
  | nil => cases h
  | cons bracket outer =>
    obtain ⟨space, around⟩ := bracket
    unfold stepClose at h
    dsimp only [WrittenProgress.located, WrittenProgress.outerLocated] at h
    split at h
    · cases h
    · cases h
      refine ⟨hc.isPlace, ?_⟩
      have hfront := @WrittenProgress.bracket_isPrefix dialect front
        ⟨pending, (space, around) :: outer, operand⟩ space around outer rfl
      rw [← Position.after_append, hc.position_eq, offset_start_after]
      exact Stretch.cause_placed hfront ⟨c.rest, hc.text_eq.symm⟩
        (show Solid ['('] by decide) (List.cons_ne_nil _ _)

/-- **A step fails at a place in the text.** -/
theorem step_failed_placed (hc : c.IsAt text (front ++ w.text))
    (hat : ∀ offset, byteSize front ≤ offset → atStart.PlacedIn text offset)
    (h : step dialect atStart (w.located (Position.start.after front)) c = .failed e) :
    e.PlacedIn text := by
  unfold step at h
  split at h
  · exact stepOperand_placed hc hat h
  · unfold stepContinuation at h
    split at h
    · rename_i err hk
      cases h
      exact Cursor.continuation_placed hc hk
    · cases h
    · cases h
    · cases h
    · exact stepClose_placed hc h

end Steps

/-! ## Whole texts -/

section Run

variable {dialect : Dialect} {text front : List Char} {c : Cursor} {e : ParseError}
  {atStart : ParseFault}

/-- **Reading in steps fails at a place in the text**, from where the progress
is on. -/
theorem readSteps_placed {q : Progress}
    (hat : ∀ offset, byteSize front ≤ offset → atStart.PlacedIn text offset)
    (h : readSteps dialect atStart q c = .error e) (w : WrittenProgress dialect)
    (hq : w.located (Position.start.after front) = q)
    (hc : c.IsAt text (front ++ w.text)) : e.PlacedIn text := by
  induction q, c using readSteps.induct dialect atStart generalizing w with
  | case1 q c r m hstep ih =>
    rw [readSteps_of_more hstep] at h
    subst hq
    have hposition : c.position = (Position.start.after front).after w.text := by
      rw [hc.position_eq, Position.after_append]
    obtain ⟨v, piece, hv, htext, hreads⟩ := step_more_written hposition hstep
    have hm := hc.reads hreads
    rw [List.append_assoc, ← htext] at hm
    exact ih h v hv hm
  | case2 q c y m hstep =>
    rw [readSteps_of_done hstep] at h
    cases h
  | case3 q c err hstep =>
    rw [readSteps_of_failed hstep] at h
    cases h
    subst hq
    exact step_failed_placed hc hat hstep

/-- What is no formula fails at a place in the text. -/
theorem Cursor.expr_placed (hc : c.IsAt text front)
    (hat : ∀ offset, byteSize front ≤ offset → atStart.PlacedIn text offset)
    (h : c.expr dialect atStart = .error e) : e.PlacedIn text := by
  have hnil : front ++ WrittenProgress.text ({} : WrittenProgress dialect) = front :=
    List.append_nil front
  exact readSteps_placed hat h {} rfl (hnil.symm ▸ hc)

/-- What is left over shows where it starts. -/
theorem finish_placed {α : Type} {read : α × Cursor} {before : List Char}
    (hc : read.2.IsAt text before) (h : finish read = .error e) : e.PlacedIn text := by
  unfold finish at h
  split at h
  · cases h
  · cases h
    exact ⟨hc.isPlace, trivial⟩

/-- The start of a text, behind its blanks. -/
theorem Cursor.isAt_ofText (text : List Char) :
    (Cursor.ofText text).IsAt text (Blanks.front text).val where
  text_eq := (Cursor.skipBlanks_reads ⟨Position.start, text⟩).rest_eq
  position_eq := rfl

/-- **What is no expression fails at a place in the text.** -/
theorem parseExpression_placed (h : parseExpression dialect text = .error e) :
    e.PlacedIn text := by
  have hstart := Cursor.isAt_ofText text
  unfold parseExpression at h
  rcases Except.bind_eq_error.mp h with h | ⟨⟨x, next⟩, hx, h⟩
  · refine Cursor.expr_placed hstart ?_ h
    exact fun _ _ => trivial
  · obtain ⟨w, -, hreads⟩ := Cursor.expr_written hx
    exact finish_placed (hstart.reads hreads) h

/-- An assignment fails where its name is broken off. -/
theorem Cursor.assignment_placed (hc : c.IsAt text front)
    (h : c.assignment = .error e) : e.PlacedIn text := by
  unfold assignment at h
  rcases Except.bind_eq_error.mp h with h | ⟨r, -, h⟩
  · exact token_placed Lexeme.name_spells hc h
  · cases r with
    | none => cases h
    | some found =>
      dsimp only at h
      split at h <;> cases h

/-- **What is no statement fails at a place in the text.** -/
theorem parseStatement_placed (h : parseStatement dialect text = .error e) :
    e.PlacedIn text := by
  have hstart := Cursor.isAt_ofText text
  unfold parseStatement at h
  rcases Except.bind_eq_error.mp h with h | ⟨r, hr, h⟩
  · exact Cursor.assignment_placed hstart h
  cases r with
  | none =>
    rcases Except.bind_eq_error.mp h with h | ⟨⟨x, next⟩, hx, h⟩
    · refine Cursor.expr_placed hstart ?_ h
      exact fun _ _ => trivial
    · obtain ⟨w, -, hreads⟩ := Cursor.expr_written hx
      exact finish_placed (hstart.reads hreads) h
  | some found =>
    obtain ⟨name, sign, c₁⟩ := found
    obtain ⟨n, space, rfl, rfl, hsign⟩ := Cursor.assignment_eq_some hr
    have hvalue := hstart.reads hsign
    rcases Except.bind_eq_error.mp h with h | ⟨⟨x, next⟩, hx, h⟩
    · refine Cursor.expr_placed hvalue ?_ h
      intro offset hle
      have hfront : ((Blanks.front text).val ++ (n.stretch Name.text).text)
          ++ (space.behind ['=']).text
            <+: (Blanks.front text).val
              ++ ((n.stretch Name.text).text ++ (space.behind ['=']).text) := by
        simp only [List.append_assoc, List.prefix_rfl]
      have hplaced := Stretch.cause_placed hfront ⟨c₁.rest, hvalue.text_eq.symm⟩
        (show Lexeme.Solid ['='] by decide) (List.cons_ne_nil _ _)
      rw [Position.after_append, ← hstart.position_eq] at hplaced
      exact ⟨hplaced.1, Nat.le_trans hplaced.2 hle⟩
    · obtain ⟨w, -, hreads⟩ := Cursor.expr_written hx
      exact finish_placed (hvalue.reads hreads) h

end Run

end WorstCase
