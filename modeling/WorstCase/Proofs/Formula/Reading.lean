import WorstCase.Proofs.Formula.Tokens

/-!
# What is read was written

The reader accepts nothing but written formulas, and the tree it gives is the
located one of the formula (`parseExpression_written`, `parseStatement_written`).

The reader goes step by step, and what it has read so far is a `Progress`: sums
and products that wait for an operand, inside every open bracket. The same
progress can be had with written operands in place of trees. Such a
`WrittenProgress` has a text, which is all the text that was read, and a
progress located in it. A step of the reader is then a step from one written
progress to another whose text is longer by what the step took
(`step_more_written`). Nothing else about the steps is needed for the whole run.
-/

namespace WorstCase

open Lexeme (Numeral Name)

variable {dialect : Dialect}

/-! ## Operands and what goes on behind them -/

/-- What can be written where an operand is expected. -/
inductive WrittenOperand (dialect : Dialect) where
  /-- A literal or a variable. -/
  | atom (w : Written dialect)
  /-- An opening bracket with the blanks behind it. -/
  | opening (space : Blanks)

namespace WrittenOperand

/-- The text of the operand. -/
def text : WrittenOperand dialect → List Char
  | atom w => w.text
  | opening space => (space.behind ['(']).text

/-- The operand in place. -/
def located (p : Position) : WrittenOperand dialect → Operand
  | atom w => .atom (w.located p)
  | opening space => .opening ((space.behind ['(']).token p)

end WrittenOperand

/-- What can be written behind an operand to go on with the formula. -/
inductive WrittenContinuation where
  /-- An operator that wants another operand. -/
  | operator (op : Spaced BinaryOperator)
  /-- A power. -/
  | exponent (sign : Blanks) (exponent : Spaced Numeral)
    (isFinite : (readNumber exponent.value.text).isFinite = true)
  /-- A change of temperature. -/
  | temperature (sign : Blanks) (degrees : Spaced Numeral) (unit : Option Blanks)
    (isFinite : (readNumber degrees.value.text).isFinite = true)

namespace WrittenContinuation

/-- The text of the continuation. -/
def text : WrittenContinuation → List Char
  | operator op => (op.stretch BinaryOperator.lexeme).text
  | exponent sign x _ => (sign.behind ['^']).text ++ (x.stretch Numeral.text).text
  | temperature sign x unit _ => (sign.behind ['@']).text ++ (degreesStretch x unit).text

/-- The continuation in place. -/
def located (p : Position) : WrittenContinuation → Continuation
  | operator op => .operator ⟨op.value, (op.stretch BinaryOperator.lexeme).extent p⟩
  | exponent sign x _ => .exponent ⟨readNumber x.value.text,
      (x.stretch Numeral.text).extent (p.after (sign.behind ['^']).text)⟩
  | temperature sign x unit _ => .temperature ⟨readNumber x.value.text,
      (degreesStretch x unit).extent (p.after (sign.behind ['@']).text)⟩

end WrittenContinuation

namespace Cursor

variable {c next : Cursor}

/-- A number that must follow is one that was written. -/
theorem requiredNumber_eq_ok {missing : ParseFault} {t : Token}
    (h : c.requiredNumber missing = .ok (t, next)) :
    ∃ x : Spaced Numeral, t = (x.stretch Numeral.text).token c.position
      ∧ c.Reads (x.stretch Numeral.text).text next := by
  unfold requiredNumber at h
  obtain ⟨r, hr, h⟩ := Except.bind_eq_ok.mp h
  cases r with
  | none => cases h
  | some found =>
    cases h
    exact token_eq_some Lexeme.number_spells hr

/-- A variable that is read is one that was written. -/
theorem var_eq_some (dialect : Dialect) {e : Expr Binary64}
    (h : c.var = .ok (some (e, next))) :
    ∃ x : Spaced Name, e = (Written.var x : Written dialect).located c.position
      ∧ c.Reads (x.stretch Name.text).text next := by
  unfold var at h
  obtain ⟨r, hr, h⟩ := Except.bind_eq_ok.mp h
  cases r with
  | none => cases h
  | some found =>
    obtain ⟨t, c₁⟩ := found
    obtain ⟨x, rfl, hreads⟩ := token_eq_some Lexeme.name_spells hr
    cases h
    exact ⟨x, rfl, hreads⟩

/-- **What is read as an operand** was written as one. -/
theorem operand_eq_some {o : Operand} (h : c.operand dialect = .ok (some (o, next))) :
    ∃ w : WrittenOperand dialect, o = w.located c.position ∧ c.Reads w.text next := by
  unfold operand at h
  obtain ⟨r, hr, h⟩ := Except.bind_eq_ok.mp h
  cases r with
  | some found =>
    obtain ⟨e, c₁⟩ := found
    obtain ⟨l, rfl, hreads⟩ := literal_eq_some hr
    cases h
    exact ⟨.atom (.literal l), rfl, hreads⟩
  | none =>
    obtain ⟨s, hs, h⟩ := Except.bind_eq_ok.mp h
    cases s with
    | some found =>
      obtain ⟨e, c₁⟩ := found
      obtain ⟨x, rfl, hreads⟩ := var_eq_some dialect hs
      cases h
      exact ⟨.atom (.var x), rfl, hreads⟩
    | none =>
      dsimp only at h
      split at h
      · rename_i rest hrest
        obtain ⟨space, htoken, hreads⟩ := accept_reads ['('] hrest
        cases h
        exact ⟨.opening space, congrArg Operand.opening htoken, hreads⟩
      · cases h

/-- The exponent that is read is one that was written. -/
theorem exponent_eq_ok {sign : Token} {value : Node Binary64}
    (h : c.exponent sign = .ok (value, next)) :
    ∃ x : Spaced Numeral, (readNumber x.value.text).isFinite = true
      ∧ value = ⟨readNumber x.value.text, (x.stretch Numeral.text).extent c.position⟩
      ∧ c.Reads (x.stretch Numeral.text).text next := by
  unfold exponent at h
  obtain ⟨⟨t, c₁⟩, hr, h⟩ := Except.bind_eq_ok.mp h
  obtain ⟨x, rfl, hreads⟩ := requiredNumber_eq_ok hr
  obtain ⟨v, hv, h⟩ := Except.bind_eq_ok.mp h
  obtain ⟨rfl, hfinite⟩ := Token.readFinite_eq_ok.mp hv
  cases h
  exact ⟨x, hfinite, rfl, hreads⟩

/-- The temperature that is read is one that was written, with its unit or
without. -/
theorem temperature_eq_ok {sign : Token} {value : Node Binary64}
    (h : c.temperature sign = .ok (value, next)) :
    ∃ (x : Spaced Numeral) (unit : Option Blanks),
      (readNumber x.value.text).isFinite = true
      ∧ value = ⟨readNumber x.value.text, (degreesStretch x unit).extent c.position⟩
      ∧ c.Reads (degreesStretch x unit).text next := by
  unfold temperature at h
  obtain ⟨⟨t, c₁⟩, hr, h⟩ := Except.bind_eq_ok.mp h
  obtain ⟨x, rfl, hreads⟩ := requiredNumber_eq_ok hr
  dsimp only at h
  obtain ⟨v, hv, h⟩ := Except.bind_eq_ok.mp h
  obtain ⟨rfl, hfinite⟩ := Token.readFinite_eq_ok.mp hv
  cases h
  split
  · rename_i rest hrest
    obtain ⟨space, htoken, hunit⟩ := accept_reads ['°', 'C'] hrest
    refine ⟨x, some space, hfinite, ?_, ?_⟩
    · dsimp only
      rw [htoken, hreads.position_eq]
      exact congrArg (Node.mk _) (Stretch.through_extent rfl _)
    · rw [degreesStretch, Stretch.append_text]
      exact hreads.trans hunit
  · exact ⟨x, none, hfinite, rfl, hreads⟩

/-- A text starts with an operator in one way. -/
theorem binaryOperator?_lexeme {cs lexeme rest : List Char} {op : BinaryOperator}
    (h : binaryOperator? cs = some (op, lexeme, rest)) : lexeme = op.lexeme := by
  unfold binaryOperator? at h
  split at h <;> cases h <;> rfl

/-- **What is read as going on with the formula** was written so. -/
theorem continuation_eq_some {k : Continuation}
    (h : c.continuation = .ok (some (k, next))) :
    ∃ w : WrittenContinuation, k = w.located c.position ∧ c.Reads w.text next := by
  unfold continuation at h
  split at h
  · rename_i op lexeme rest hop
    obtain ⟨hrest, -⟩ := binaryOperator?_eq_some hop
    obtain rfl := binaryOperator?_lexeme hop
    obtain ⟨space, htoken, hreads⟩ := accept_reads _ hrest
    cases h
    exact ⟨.operator ⟨op, space⟩,
      congrArg (fun t : Token => Continuation.operator (t.node op)) htoken, hreads⟩
  · split at h
    · rename_i rest hrest
      obtain ⟨space, htoken, hsign⟩ := accept_reads ['^'] hrest
      obtain ⟨⟨value, c₁⟩, hvalue, h⟩ := Except.bind_eq_ok.mp h
      obtain ⟨x, hfinite, rfl, hreads⟩ := exponent_eq_ok hvalue
      cases h
      exact ⟨.exponent space x hfinite,
        congrArg (fun q => Continuation.exponent ⟨_, (x.stretch Numeral.text).extent q⟩)
          hsign.position_eq, hsign.trans hreads⟩
    · rename_i rest hrest
      obtain ⟨space, htoken, hsign⟩ := accept_reads ['@'] hrest
      obtain ⟨⟨degrees, c₁⟩, hdegrees, h⟩ := Except.bind_eq_ok.mp h
      obtain ⟨x, unit, hfinite, rfl, hreads⟩ := temperature_eq_ok hdegrees
      cases h
      exact ⟨.temperature space x unit hfinite,
        congrArg (fun q => Continuation.temperature ⟨_, (degreesStretch x unit).extent q⟩)
          hsign.position_eq, hsign.trans hreads⟩
    · cases h

end Cursor

/-! ## Written progress -/

/-- A written operand with the operator behind it. -/
structure WrittenWaiting (dialect : Dialect) where
  left : Written dialect
  op : Spaced BinaryOperator

namespace WrittenWaiting

/-- The text of what waits, if something does. -/
def text : Option (WrittenWaiting dialect) → List Char
  | some w => w.left.text ++ (w.op.stretch BinaryOperator.lexeme).text
  | none => []

/-- What waits, if something does, in place. -/
def located (p : Position) (waiting : Option (WrittenWaiting dialect)) : Option Waiting :=
  waiting.map fun w => (w.left.located p,
    ⟨w.op.value, (w.op.stretch BinaryOperator.lexeme).extent (p.after w.left.text)⟩)

/-- A written operand joined to what waits for it. -/
def join (waiting : Option (WrittenWaiting dialect)) (e : Written dialect) :
    Written dialect :=
  match waiting with
  | some w => .binary w.left w.op e
  | none => e

theorem text_join (waiting : Option (WrittenWaiting dialect)) (e : Written dialect) :
    (join waiting e).text = text waiting ++ e.text := by
  cases waiting with
  | none => rfl
  | some w => exact Written.text_binary _ _ _

/-- **Joining and locating commute.** -/
theorem located_join (waiting : Option (WrittenWaiting dialect)) (e : Written dialect)
    (p : Position) :
    (join waiting e).located p
      = joinTo (located p waiting) (e.located (p.after (text waiting))) := by
  cases waiting with
  | none => rfl
  | some w => exact Written.located_binary _ _ _ p

end WrittenWaiting

/-- Written operands that wait inside one pair of brackets. -/
structure WrittenPending (dialect : Dialect) where
  sum : Option (WrittenWaiting dialect) := none
  product : Option (WrittenWaiting dialect) := none

namespace WrittenPending

variable (w : WrittenPending dialect)

/-- The text of all that waits. -/
def text : List Char := WrittenWaiting.text w.sum ++ WrittenWaiting.text w.product

/-- What waits, in place. -/
def located (p : Position) : Pending where
  sum := WrittenWaiting.located p w.sum
  product := WrittenWaiting.located (p.after (WrittenWaiting.text w.sum)) w.product

/-- A written operand joined to the product that waits for it. -/
def factor (e : Written dialect) : Written dialect := WrittenWaiting.join w.product e

/-- A written operand joined to all that waits for it. -/
def total (e : Written dialect) : Written dialect := WrittenWaiting.join w.sum (w.factor e)

/-- What waits after a written operand and an operator. -/
def push (e : Written dialect) (op : Spaced BinaryOperator) : WrittenPending dialect :=
  if op.value.isAdditive then { sum := some ⟨w.total e, op⟩ }
  else { w with product := some ⟨w.factor e, op⟩ }

variable (e : Written dialect) (op : Spaced BinaryOperator) (p : Position)

theorem text_factor :
    (w.factor e).text = WrittenWaiting.text w.product ++ e.text :=
  WrittenWaiting.text_join _ _

theorem text_total : (w.total e).text = w.text ++ e.text := by
  rw [total, WrittenWaiting.text_join, text_factor, text, List.append_assoc]

theorem located_factor :
    (w.factor e).located (p.after (WrittenWaiting.text w.sum))
      = (w.located p).factor (e.located (p.after w.text)) := by
  rw [factor, WrittenWaiting.located_join, ← Position.after_append]
  rfl

theorem located_total :
    (w.total e).located p = (w.located p).total (e.located (p.after w.text)) := by
  rw [total, WrittenWaiting.located_join, located_factor]
  rfl

theorem text_push :
    (w.push e op).text
      = w.text ++ e.text ++ (op.stretch BinaryOperator.lexeme).text := by
  unfold push
  split
  · show (w.total e).text ++ _ ++ [] = _
    rw [text_total, List.append_nil]
  · show WrittenWaiting.text w.sum ++ ((w.factor e).text ++ _) = _
    rw [text_factor, text]
    simp only [List.append_assoc]

/-- **An operator is pushed alike** on what was written and on what was
read. -/
theorem located_push :
    (w.push e op).located p
      = (w.located p).push (e.located (p.after w.text))
          ⟨op.value, (op.stretch BinaryOperator.lexeme).extent
            (p.after (w.text ++ e.text))⟩ := by
  unfold push Pending.push
  dsimp only
  split
  · show Pending.mk (some ((w.total e).located p, _)) none = _
    rw [located_total, text_total]
  · show Pending.mk (WrittenWaiting.located p w.sum)
      (some ((w.factor e).located (p.after (WrittenWaiting.text w.sum)), _)) = _
    rw [located_factor, text_factor, ← Position.after_append, text]
    simp only [List.append_assoc]
    rfl

end WrittenPending

/-- **How far a formula has been read**, as it was written. -/
structure WrittenProgress (dialect : Dialect) where
  pending : WrittenPending dialect := {}
  /-- The open brackets with the blanks behind them, innermost first, and what
  waits around each. -/
  outer : List (Blanks × WrittenPending dialect) := []
  operand : Option (Written dialect) := none

namespace WrittenProgress

/-- The text up to the innermost bracket. -/
def outerText : List (Blanks × WrittenPending dialect) → List Char
  | [] => []
  | (space, pending) :: outer => outerText outer ++ pending.text ++ (space.behind ['(']).text

/-- The open brackets, in place. -/
def outerLocated (start : Position) :
    List (Blanks × WrittenPending dialect) → List (Token × Pending)
  | [] => []
  | (space, pending) :: outer =>
    ((space.behind ['(']).token (start.after (outerText outer ++ pending.text)),
      pending.located (start.after (outerText outer))) :: outerLocated start outer

variable (w : WrittenProgress dialect)

/-- The text before the operand. -/
def before : List Char := outerText w.outer ++ w.pending.text

/-- **The text that has been read.** -/
def text : List Char := w.before ++ (w.operand.map Written.text).getD []

theorem text_none (pending : WrittenPending dialect)
    (outer : List (Blanks × WrittenPending dialect)) :
    text ⟨pending, outer, none⟩ = outerText outer ++ pending.text :=
  List.append_nil _

theorem text_some (pending : WrittenPending dialect)
    (outer : List (Blanks × WrittenPending dialect)) (e : Written dialect) :
    text ⟨pending, outer, some e⟩ = outerText outer ++ pending.text ++ e.text :=
  rfl

/-- **The progress**, in place. -/
def located (start : Position) : Progress where
  pending := w.pending.located (start.after (outerText w.outer))
  outer := outerLocated start w.outer
  operand := w.operand.map (Written.located · (start.after w.before))

end WrittenProgress

/-! ## Steps -/

section Step

variable {atStart : ParseFault} {start : Position} {w : WrittenProgress dialect}
  {q : Progress} {c next : Cursor}

/-- The written progress after a step, with the text that the step took. -/
def WrittenProgress.Advances (w : WrittenProgress dialect) (start : Position) (c : Cursor)
    (q : Progress) (next : Cursor) : Prop :=
  ∃ (v : WrittenProgress dialect) (piece : List Char),
    v.located start = q ∧ v.text = w.text ++ piece ∧ c.Reads piece next

/-- A step where an operand is expected reads one. -/
theorem stepOperand_written (hw : w.operand = none)
    (hc : c.position = start.after w.text)
    (h : stepOperand dialect atStart (w.located start) c = .more q next) :
    w.Advances start c q next := by
  obtain ⟨pending, outer, operand⟩ := w
  obtain rfl : operand = none := hw
  rw [WrittenProgress.text_none] at hc
  unfold stepOperand at h
  split at h
  · cases h
  · cases h
  · rename_i e c₁ ho
    obtain ⟨o, ho, hreads⟩ := Cursor.operand_eq_some ho
    cases o with
    | opening => cases ho
    | atom x =>
      cases ho
      cases h
      refine ⟨⟨pending, outer, some x⟩, x.text, ?_, ?_, hreads⟩
      · rw [hc]
        rfl
      · rw [WrittenProgress.text_some, WrittenProgress.text_none]
  · rename_i bracket c₁ ho
    obtain ⟨o, ho, hreads⟩ := Cursor.operand_eq_some ho
    cases o with
    | atom => cases ho
    | opening space =>
      cases ho
      cases h
      refine ⟨⟨{}, (space, pending) :: outer, none⟩, (space.behind ['(']).text, ?_, ?_, hreads⟩
      · rw [hc]
        rfl
      · rw [WrittenProgress.text_none, WrittenProgress.text_none]
        exact List.append_nil _

/-- Where the cursor is behind an operand. -/
theorem position_behind {e : Written dialect} (hw : w.operand = some e)
    (hc : c.position = start.after w.text) :
    c.position = (start.after w.before).after e.text := by
  rw [hc, WrittenProgress.text, hw, Position.after_append]
  rfl

/-- An operand that grows by what is read behind it. -/
theorem WrittenProgress.advances_operand {e x : Written dialect} {piece : List Char}
    {y : Expr Binary64} (hw : w.operand = some e) (hx : x.text = e.text ++ piece)
    (hy : x.located (start.after w.before) = y) (hreads : c.Reads piece next) :
    w.Advances start c { w.located start with operand := some y } next := by
  obtain ⟨pending, outer, operand⟩ := w
  obtain rfl : operand = some e := hw
  refine ⟨⟨pending, outer, some x⟩, piece, ?_, ?_, hreads⟩
  · rw [← hy]
    rfl
  · rw [text_some, text_some, hx]
    simp only [List.append_assoc]

/-- A step behind an operand where nothing goes on with the formula closes a
bracket. -/
theorem stepClose_written {e : Written dialect} (hw : w.operand = some e)
    (hc : c.position = start.after w.text)
    (h : stepClose (w.located start) (e.located (start.after w.before)) c
      = .more q next) :
    w.Advances start c q next := by
  obtain ⟨pending, outer, operand⟩ := w
  obtain rfl : operand = some e := hw
  rw [WrittenProgress.text_some] at hc
  cases outer with
  | nil => cases h
  | cons bracket outer =>
    obtain ⟨space, around⟩ := bracket
    unfold stepClose at h
    dsimp only [WrittenProgress.located, WrittenProgress.outerLocated] at h
    split at h
    · rename_i rest hrest
      obtain ⟨closing, htoken, hreads⟩ := Cursor.accept_reads [')'] hrest
      cases h
      refine ⟨⟨around, outer, some (.group space (pending.total e) closing)⟩, _,
        ?_, ?_, hreads⟩
      · have hopening : start.after (WrittenProgress.outerText ((space, around) :: outer))
            = (start.after (WrittenProgress.outerText outer ++ around.text)).after
                (space.behind ['(']).text := Position.after_append _ _ _
        have hinner := pending.located_total e
          (start.after (WrittenProgress.outerText ((space, around) :: outer)))
        have hclosing : c.position
            = (start.after (WrittenProgress.outerText ((space, around) :: outer))).after
                (pending.total e).text := by
          rw [hc, WrittenPending.text_total, List.append_assoc, Position.after_append]
        have hgroup := (pending.total e).located_group space closing
          (start.after (WrittenProgress.outerText outer ++ around.text))
        rw [Position.after_append _ (space.behind ['(']).text, ← hopening, hinner,
          ← hclosing, ← Position.after_append] at hgroup
        refine congrArg (fun y => Progress.mk _ _ (some y)) (hgroup.trans ?_)
        rw [htoken]
        rfl
      · rw [WrittenProgress.text_some, WrittenProgress.text_some, Written.text_group,
          WrittenPending.text_total, WrittenProgress.outerText]
        simp only [List.append_assoc]
        rfl
    · cases h

/-- A step behind an operand goes on with the formula, or closes a bracket. -/
theorem stepContinuation_written {e : Written dialect} (hw : w.operand = some e)
    (hc : c.position = start.after w.text)
    (h : stepContinuation (w.located start) (e.located (start.after w.before)) c
      = .more q next) :
    w.Advances start c q next := by
  have hbehind := position_behind hw hc
  unfold stepContinuation at h
  split at h
  · cases h
  · rename_i op c₁ hk
    obtain ⟨k, hk, hreads⟩ := Cursor.continuation_eq_some hk
    cases k with
    | exponent => cases hk
    | temperature => cases hk
    | operator op =>
      cases hk
      cases h
      refine ⟨⟨w.pending.push e op, w.outer, none⟩, _, ?_, ?_, hreads⟩
      · have hpush := w.pending.located_push e op
          (start.after (WrittenProgress.outerText w.outer))
        rw [Position.after_append, ← Position.after_append start] at hpush
        rw [hbehind]
        exact congrArg (Progress.mk · _ none) hpush
      · rw [WrittenProgress.text_none, WrittenPending.text_push, WrittenProgress.text,
          WrittenProgress.before, hw]
        simp only [List.append_assoc]
        rfl
  · rename_i value c₁ hk
    obtain ⟨k, hk, hreads⟩ := Cursor.continuation_eq_some hk
    cases k with
    | operator => cases hk
    | temperature => cases hk
    | exponent sign x hx =>
      cases hk
      cases h
      have htext := e.text_power sign x hx
      rw [List.append_assoc] at htext
      refine WrittenProgress.advances_operand hw htext ?_ hreads
      rw [Written.located_power, hbehind, Position.after_append (start.after w.before)]
  · rename_i value c₁ hk
    obtain ⟨k, hk, hreads⟩ := Cursor.continuation_eq_some hk
    cases k with
    | operator => cases hk
    | exponent => cases hk
    | temperature sign x unit hx =>
      cases hk
      cases h
      have htext := e.text_atTemperature sign x unit hx
      rw [List.append_assoc] at htext
      refine WrittenProgress.advances_operand hw htext ?_ hreads
      rw [Written.located_atTemperature, hbehind,
        Position.after_append (start.after w.before)]
  · exact stepClose_written hw hc h

/-- **A step of reading reads what was written.** -/
theorem step_more_written (hc : c.position = start.after w.text)
    (h : step dialect atStart (w.located start) c = .more q next) :
    w.Advances start c q next := by
  unfold step at h
  split at h
  · rename_i ho
    cases hw : w.operand with
    | none => exact stepOperand_written hw hc h
    | some e => rw [WrittenProgress.located, hw] at ho; cases ho
  · rename_i x ho
    cases hw : w.operand with
    | none => rw [WrittenProgress.located, hw] at ho; cases ho
    | some e =>
      rw [WrittenProgress.located, hw] at ho
      cases ho
      exact stepContinuation_written hw hc h

/-- **Where the formula is over**, all that was read is one written
expression. -/
theorem step_done_written {x : Expr Binary64}
    (h : step dialect atStart (w.located start) c = .done x next) :
    next = c ∧ ∃ e : Written dialect, x = e.located start ∧ e.text = w.text := by
  obtain ⟨pending, outer, operand⟩ := w
  cases operand with
  | none =>
    unfold step at h
    dsimp only [WrittenProgress.located, Option.map_none] at h
    unfold stepOperand at h
    split at h <;> cases h
  | some e =>
    unfold step at h
    dsimp only [WrittenProgress.located, Option.map_some] at h
    unfold stepContinuation at h
    split at h
    · cases h
    · cases h
    · cases h
    · cases h
    · cases outer with
      | nil =>
        cases h
        refine ⟨rfl, pending.total e, ?_, ?_⟩
        · rw [WrittenPending.located_total]
          rfl
        · rw [WrittenPending.text_total, WrittenProgress.text_some]
          rfl
      | cons bracket outer =>
        unfold stepClose at h
        dsimp only [WrittenProgress.outerLocated] at h
        split at h <;> cases h

end Step

/-! ## Whole texts -/

section Run

variable {atStart : ParseFault} {q r : Progress} {c m : Cursor} {x : Expr Binary64}

/-- Where an operand is expected, the one that is next is taken. -/
theorem step_of_atom (hq : q.operand = none) (h : c.operand dialect = .ok (some (.atom x, m))) :
    step dialect atStart q c = .more { q with operand := some x } m := by
  unfold step stepOperand
  rw [hq, h]

/-- If it fails, so does the step. -/
theorem step_of_operand_error {e : ParseError} (hq : q.operand = none)
    (h : c.operand dialect = .error e) : step dialect atStart q c = .failed e := by
  unfold step stepOperand
  rw [hq, h]

theorem readSteps_of_more (h : step dialect atStart q c = .more r m) :
    readSteps dialect atStart q c = readSteps dialect atStart r m := by
  rw [readSteps]
  split
  · rename_i hstep
    rw [h] at hstep
    cases hstep
    rfl
  · rename_i hstep
    rw [h] at hstep
    cases hstep
  · rename_i hstep
    rw [h] at hstep
    cases hstep

theorem readSteps_of_done (h : step dialect atStart q c = .done x m) :
    readSteps dialect atStart q c = .ok (x, m) := by
  rw [readSteps]
  split
  · rename_i hstep
    rw [h] at hstep
    cases hstep
  · rename_i hstep
    rw [h] at hstep
    cases hstep
    rfl
  · rename_i hstep
    rw [h] at hstep
    cases hstep

theorem readSteps_of_failed {e : ParseError} (h : step dialect atStart q c = .failed e) :
    readSteps dialect atStart q c = .error e := by
  rw [readSteps]
  split
  · rename_i hstep
    rw [h] at hstep
    cases hstep
  · rename_i hstep
    rw [h] at hstep
    cases hstep
  · rename_i hstep
    rw [h] at hstep
    cases hstep
    rfl

end Run

/-- **What is read in steps was written**, from where the progress is on. -/
theorem readSteps_written {atStart : ParseFault} {start : Position} {q : Progress}
    {c next : Cursor} {x : Expr Binary64}
    (h : readSteps dialect atStart q c = .ok (x, next)) (w : WrittenProgress dialect)
    (hq : w.located start = q) (hc : c.position = start.after w.text) :
    ∃ (e : Written dialect) (piece : List Char),
      x = e.located start ∧ e.text = w.text ++ piece ∧ c.Reads piece next := by
  induction q, c using readSteps.induct dialect atStart generalizing w with
  | case1 q c r m hstep ih =>
    rw [readSteps_of_more hstep] at h
    subst hq
    obtain ⟨v, piece, hv, htext, hreads⟩ := step_more_written hc hstep
    have hm : m.position = start.after v.text := by
      rw [hreads.position_eq, hc, htext, Position.after_append]
    obtain ⟨e, more, hx, he, hmore⟩ := ih h v hv hm
    refine ⟨e, piece ++ more, hx, ?_, hreads.trans hmore⟩
    rw [he, htext, List.append_assoc]
  | case2 q c y m hstep =>
    rw [readSteps_of_done hstep] at h
    cases h
    subst hq
    obtain ⟨rfl, e, hx, he⟩ := step_done_written hstep
    exact ⟨e, [], hx, by rw [he, List.append_nil], ⟨rfl, rfl⟩⟩
  | case3 q c err hstep =>
    rw [readSteps_of_failed hstep] at h
    cases h

/-- **What is read as a formula was written.** -/
theorem Cursor.expr_written {atStart : ParseFault} {c next : Cursor} {x : Expr Binary64}
    (h : c.expr dialect atStart = .ok (x, next)) :
    ∃ e : Written dialect, x = e.located c.position ∧ c.Reads e.text next := by
  obtain ⟨e, piece, hx, he, hreads⟩ := readSteps_written h {} rfl rfl
  obtain rfl : e.text = piece := he
  exact ⟨e, hx, hreads⟩

/-- Nothing is left over of a text that is accepted. -/
theorem finish_eq_ok {α : Type} {read : α × Cursor} {a : α} (h : finish read = .ok a) :
    read.1 = a ∧ read.2.rest = [] := by
  unfold finish at h
  split at h
  · rename_i hrest
    cases h
    exact ⟨rfl, hrest⟩
  · cases h

/-- The name and the sign of an assignment that is read were written. -/
theorem Cursor.assignment_eq_some {c next : Cursor} {name sign : Token}
    (h : c.assignment = .ok (some (name, sign, next))) :
    ∃ (x : Spaced Name) (space : Blanks),
      name = (x.stretch Name.text).token c.position
        ∧ sign = (space.behind ['=']).token (c.position.after (x.stretch Name.text).text)
        ∧ c.Reads ((x.stretch Name.text).text ++ (space.behind ['=']).text) next := by
  unfold assignment at h
  obtain ⟨r, hr, h⟩ := Except.bind_eq_ok.mp h
  cases r with
  | none => cases h
  | some found =>
    obtain ⟨t, c₁⟩ := found
    obtain ⟨x, rfl, hname⟩ := token_eq_some Lexeme.name_spells hr
    dsimp only at h
    split at h
    · rename_i rest hrest
      obtain ⟨space, htoken, hsign⟩ := accept_reads ['='] hrest
      cases h
      refine ⟨x, space, rfl, ?_, hname.trans hsign⟩
      rw [← hname.position_eq]
      exact htoken
    · cases h

/-- **An expression that is accepted was written**, behind the blanks that the
text starts with. -/
theorem parseExpression_written {text : List Char} {x : Expr Binary64}
    (h : parseExpression dialect text = .ok x) :
    ∃ (lead : Blanks) (e : Written dialect),
      text = lead.val ++ e.text ∧ x = e.located (Position.start.after lead.val) := by
  have hlead := Cursor.skipBlanks_reads ⟨Position.start, text⟩
  unfold parseExpression at h
  obtain ⟨⟨y, next⟩, hr, h⟩ := Except.bind_eq_ok.mp h
  obtain ⟨e, rfl, hreads⟩ := Cursor.expr_written hr
  obtain ⟨rfl, hrest⟩ := finish_eq_ok h
  have hall := (hlead.trans hreads).rest_eq
  rw [hrest, List.append_nil] at hall
  exact ⟨Blanks.front text, e, hall, congrArg e.located hlead.position_eq⟩

/-- **A statement that is accepted was written**, behind the blanks that the
text starts with. -/
theorem parseStatement_written {text : List Char} {x : Statement Binary64}
    (h : parseStatement dialect text = .ok x) :
    ∃ (lead : Blanks) (w : WrittenStatement dialect),
      text = lead.val ++ w.text ∧ x = w.located (Position.start.after lead.val) := by
  have hlead := Cursor.skipBlanks_reads ⟨Position.start, text⟩
  unfold parseStatement at h
  obtain ⟨r, hr, h⟩ := Except.bind_eq_ok.mp h
  cases r with
  | none =>
    obtain ⟨⟨y, next⟩, hr, h⟩ := Except.bind_eq_ok.mp h
    obtain ⟨e, rfl, hreads⟩ := Cursor.expr_written hr
    obtain ⟨rfl, hrest⟩ := finish_eq_ok h
    have hall := (hlead.trans hreads).rest_eq
    rw [hrest, List.append_nil] at hall
    exact ⟨Blanks.front text, .expression e, hall,
      congrArg (fun p => Statement.expression (e.located p)) hlead.position_eq⟩
  | some found =>
    obtain ⟨name, sign, c₁⟩ := found
    obtain ⟨n, space, rfl, rfl, hsign⟩ := Cursor.assignment_eq_some hr
    obtain ⟨⟨y, next⟩, hr, h⟩ := Except.bind_eq_ok.mp h
    obtain ⟨e, rfl, hreads⟩ := Cursor.expr_written hr
    obtain ⟨rfl, hrest⟩ := finish_eq_ok h
    have hall := (hlead.trans (hsign.trans hreads)).rest_eq
    rw [hrest, List.append_nil] at hall
    refine ⟨Blanks.front text, .assign n space e, ?_, ?_⟩
    · rw [WrittenStatement.text_assign]
      exact hall
    · rw [← hlead.position_eq]
      exact (WrittenStatement.located_assign n space e _ hsign.position_eq).symm

end WorstCase
