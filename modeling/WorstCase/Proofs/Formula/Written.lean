import WorstCase.Formula.Parsing
import WorstCase.Proofs.Formula.Spelling

/-!
# Formulas as they are written

A syntax tree says what a formula means and where its parts stand. How the
formula was written it does not say: numbers are read, prefixes are applied,
brackets and operators are left as extents. `Written` is the formula before all
that, a tree of lexemes with the blanks after each. Its text can be written
out, and `Written.located` is the syntax tree that belongs to it where the text
starts at a given position.

The reader is related to this tree in both directions: what it accepts is the
text of some written formula, and the tree it gives is the located one; and the
text of every written formula that keeps to the precedence of operators is
accepted.

Every part of a formula is a **stretch**, a text with the blanks after it, and
the extent of a part is that of its stretch. Two stretches one after the other
make one stretch, whose blanks are those of the second. That is how the extent
of a node comes from those of its parts, and the reason why the blanks of a
part inside a node belong to the text of the node.
-/

namespace WorstCase

/-! ## Stretches -/

/-- Blanks, or none. -/
abbrev Blanks : Type := { cs : List Char // ∀ c ∈ cs, ParseFault.isBlank c = true }

/-- **A text and the blanks after it.** -/
structure Stretch where
  /-- The text itself. -/
  body : List Char
  /-- The blanks after it. -/
  space : Blanks

namespace Stretch

/-- The text with the blanks. -/
def text (s : Stretch) : List Char := s.body ++ s.space.val

/-- One stretch after another. -/
instance : Append Stretch := ⟨fun s t => ⟨s.text ++ t.body, t.space⟩⟩

theorem append_body (s t : Stretch) : (s ++ t).body = s.text ++ t.body := rfl

@[simp] theorem append_text (s t : Stretch) : (s ++ t).text = s.text ++ t.text := by
  show s.text ++ t.body ++ t.space.val = s.text ++ (t.body ++ t.space.val)
  rw [List.append_assoc]

/-- The extent of a stretch that starts at a position. -/
def extent (s : Stretch) (p : Position) : Extent :=
  ⟨⟨p, p.after s.body⟩, ⟨p.after s.body, p.after s.text⟩⟩

/-- The token that a stretch is. -/
def token (s : Stretch) (p : Position) : Token := ⟨s.body, s.extent p⟩

/-- **The extent of two stretches** goes from the start of the first to the end
of the second. -/
theorem through_extent {s : Stretch} {p : Position} {first : Extent}
    (h : first.span.start = p) (t : Stretch) :
    first.through (t.extent (p.after s.text)) = (s ++ t).extent p := by
  show Extent.mk ⟨first.span.start, (p.after s.text).after t.body⟩
      ⟨(p.after s.text).after t.body, (p.after s.text).after t.text⟩
    = ⟨⟨p, p.after (s ++ t).body⟩, ⟨p.after (s ++ t).body, p.after (s ++ t).text⟩⟩
  rw [h, append_body, append_text, Position.after_append, Position.after_append]

/-- One stretch after another, if there is another. -/
def optional (s : Stretch) : Option Stretch → Stretch
  | some t => s ++ t
  | none => s

@[simp] theorem optional_text (s : Stretch) (o : Option Stretch) :
    (s.optional o).text = s.text ++ (o.map text).getD [] := by
  cases o with
  | none => exact (List.append_nil _).symm
  | some t => exact append_text s t

end Stretch

/-- **A lexeme and the blanks after it.** -/
structure Spaced (α : Type) where
  /-- The lexeme. -/
  value : α
  /-- The blanks after it. -/
  space : Blanks

/-- The stretch of a lexeme, by the text it spells. -/
def Spaced.stretch {α : Type} (x : Spaced α) (text : α → List Char) : Stretch :=
  ⟨text x.value, x.space⟩

/-- A solid lexeme does not start with a blank. -/
theorem Spaced.stops_isBlank {α : Type} (x : Spaced α) {text : α → List Char}
    (h : Lexeme.Solid (text x.value)) (hne : text x.value ≠ []) (rest : List Char) :
    Lexeme.Stops ParseFault.isBlank ((x.stretch text).text ++ rest) := by
  show Lexeme.Stops _ (text x.value ++ x.space.val ++ rest)
  rw [List.append_assoc]
  exact h.stops_isBlank hne _

/-- The stretch of a mark that has no node in the tree. -/
def Blanks.behind (space : Blanks) (mark : List Char) : Stretch := ⟨mark, space⟩

/-- The characters of an operator. -/
def BinaryOperator.lexeme : BinaryOperator → List Char
  | .add => ['+']
  | .sub => ['-']
  | .mul => ['*']
  | .div => ['/']
  | .parallel => ['|']
  | .divider => ['/', '/']

theorem BinaryOperator.lexeme_ne_nil (op : BinaryOperator) : op.lexeme ≠ [] := by
  cases op <;> exact List.cons_ne_nil _ _

/-- They are those that messages show. -/
theorem BinaryOperator.toList_symbol (op : BinaryOperator) : op.symbol.toList = op.lexeme := by
  cases op <;> rfl

/-! ## Literals -/

namespace Lexeme

/-- The unit that a unit's character stands for. -/
def unitOf (c : CharOf isUnitChar) : UnitSymbol := (UnitSymbol.ofChar? c.val).get c.property

/-- What a prefix multiplies the number before it by. -/
def prefixFactor {dialect : Dialect} (metric : Option (CharOf (isPrefixChar dialect))) :
    Binary64 :=
  ((metric.bind fun c => MetricPrefix.ofChar? c.val).getD .one).factor

/-- The value of a coefficient. -/
def Coefficient.value (x : Coefficient) : Int := signedValue x.number

end Lexeme

open Lexeme (Numeral Magnitude Percentage Coefficient Name)

/-- **A literal as it is written.** Its numbers are in range. -/
structure WrittenLiteral (dialect : Dialect) where
  magnitude : Spaced (Magnitude dialect)
  tolerance : Option (Spaced Percentage)
  coefficient : Option (Spaced Coefficient)
  magnitude_isFinite : (readNumber magnitude.value.number.text).isFinite = true
  tolerance_isFinite : ∀ t, tolerance = some t →
    (readNumber t.value.number.text).isFinite = true
  coefficient_fits : ∀ x, coefficient = some x →
    -0x80000000 ≤ x.value.value ∧ x.value.value < 0x80000000

namespace WrittenLiteral

variable {dialect : Dialect}

/-- The magnitude as a stretch. -/
def first (l : WrittenLiteral dialect) : Stretch := l.magnitude.stretch Magnitude.text

/-- The magnitude and the tolerance, if there is one, as a stretch. -/
def second (l : WrittenLiteral dialect) : Stretch :=
  l.first.optional (l.tolerance.map (Spaced.stretch · Percentage.text))

/-- The literal as a stretch. -/
def stretch (l : WrittenLiteral dialect) : Stretch :=
  l.second.optional (l.coefficient.map (Spaced.stretch · Coefficient.text))

/-- **The literal that was written**, where its text starts at a position. -/
def located (l : WrittenLiteral dialect) (p : Position) : Literal Binary64 where
  value := readNumber l.magnitude.value.number.text
    * Lexeme.prefixFactor l.magnitude.value.metric
  unit := l.magnitude.value.unit.map fun c =>
    ⟨Lexeme.unitOf c, Stretch.extent ⟨[c.val], l.magnitude.space⟩
      (p.after (l.magnitude.value.number.text
        ++ Lexeme.optionalText l.magnitude.value.metric))⟩
  tolerance := l.tolerance.map fun t =>
    ⟨readNumber t.value.number.text,
      (t.stretch Percentage.text).extent (p.after l.first.text)⟩
  coefficient := l.coefficient.map fun x =>
    ⟨x.value.value, (x.stretch Coefficient.text).extent (p.after l.second.text)⟩

end WrittenLiteral

/-! ## Expressions -/

/-- **An expression as it is written.** The numbers in it are in range. -/
inductive Written (dialect : Dialect) where
  /-- Two operands joined by an operator. -/
  | binary (left : Written dialect) (op : Spaced BinaryOperator)
    (right : Written dialect)
  /-- A power, with the blanks behind the sign for powers. -/
  | power (base : Written dialect) (sign : Blanks) (exponent : Spaced Numeral)
    (isFinite : (readNumber exponent.value.text).isFinite = true)
  /-- A temperature, with the blanks behind the sign for temperatures, and
  those behind its unit if that is written. -/
  | atTemperature (base : Written dialect) (sign : Blanks)
    (degrees : Spaced Numeral) (unit : Option Blanks)
    (isFinite : (readNumber degrees.value.text).isFinite = true)
  /-- An expression in parentheses, with the blanks behind either. -/
  | group (opening : Blanks) (inner : Written dialect) (closing : Blanks)
  /-- A variable. -/
  | var (name : Spaced Name)
  /-- A literal. -/
  | literal (literal : WrittenLiteral dialect)

/-- A number and the unit of temperatures, if it is written. -/
def degreesStretch (degrees : Spaced Numeral) : Option Blanks → Stretch
  | some space => degrees.stretch Numeral.text ++ space.behind ['°', 'C']
  | none => degrees.stretch Numeral.text

namespace Written

variable {dialect : Dialect}

/-- The expression as a stretch. -/
def stretch : Written dialect → Stretch
  | binary left op right =>
    left.stretch ++ op.stretch BinaryOperator.lexeme ++ right.stretch
  | power base sign exponent _ =>
    base.stretch ++ sign.behind ['^'] ++ exponent.stretch Numeral.text
  | atTemperature base sign degrees unit _ =>
    base.stretch ++ sign.behind ['@'] ++ degreesStretch degrees unit
  | group opening inner closing =>
    opening.behind ['('] ++ inner.stretch ++ closing.behind [')']
  | var name => name.stretch Name.text
  | literal l => l.stretch

/-- **The text of the expression**, with the blanks after it. -/
def text (w : Written dialect) : List Char := w.stretch.text

/-- **The expression that was written**, where its text starts at a
position. -/
def located : Written dialect → Position → Expr Binary64
  | binary left op right, p =>
    .binary ((binary left op right).stretch.extent p)
      ⟨op.value, (op.stretch BinaryOperator.lexeme).extent (p.after left.text)⟩
      (left.located p)
      (right.located (p.after (left.text ++ (op.stretch BinaryOperator.lexeme).text)))
  | power base sign exponent h, p =>
    .power ((power base sign exponent h).stretch.extent p) (base.located p)
      ⟨readNumber exponent.value.text, (exponent.stretch Numeral.text).extent
        (p.after (base.text ++ (sign.behind ['^']).text))⟩
  | atTemperature base sign degrees unit h, p =>
    .atTemperature ((atTemperature base sign degrees unit h).stretch.extent p)
      (base.located p)
      ⟨readNumber degrees.value.text, (degreesStretch degrees unit).extent
        (p.after (base.text ++ (sign.behind ['@']).text))⟩
  | group opening inner closing, p =>
    .group ((group opening inner closing).stretch.extent p)
      (inner.located (p.after (opening.behind ['(']).text))
  | var name, p =>
    .var ((name.stretch Name.text).extent p) (String.ofList name.value.text)
  | literal l, p => .literal (l.stretch.extent p) (l.located p)

/-- It stands where its text does. -/
@[simp] theorem extent_located (w : Written dialect) (p : Position) :
    (w.located p).extent = w.stretch.extent p := by
  cases w <;> rfl

/-- It reaches to the end of what is behind it. -/
theorem through_located (w : Written dialect) (s t : Stretch) (p : Position) :
    (w.located p).extent.through (t.extent (p.after (w.text ++ s.text)))
      = (w.stretch ++ s ++ t).extent p := by
  rw [extent_located, text, ← Stretch.append_text]
  exact Stretch.through_extent rfl t

section Text

variable (left base inner right : Written dialect) (op : Spaced BinaryOperator)
  (sign opening closing : Blanks) (x : Spaced Numeral) (unit : Option Blanks)
  (h : (readNumber x.value.text).isFinite = true) (p : Position)

theorem text_binary :
    (binary left op right).text
      = left.text ++ (op.stretch BinaryOperator.lexeme).text ++ right.text := by
  rw [text, stretch, Stretch.append_text, Stretch.append_text]
  rfl

theorem text_power :
    (power base sign x h).text
      = base.text ++ (sign.behind ['^']).text ++ (x.stretch Numeral.text).text := by
  rw [text, stretch, Stretch.append_text, Stretch.append_text]
  rfl

theorem text_atTemperature :
    (atTemperature base sign x unit h).text
      = base.text ++ (sign.behind ['@']).text ++ (degreesStretch x unit).text := by
  rw [text, stretch, Stretch.append_text, Stretch.append_text]
  rfl

theorem text_group :
    (group opening inner closing).text
      = (opening.behind ['(']).text ++ inner.text ++ (closing.behind [')']).text := by
  rw [text, stretch, Stretch.append_text, Stretch.append_text]
  rfl

/-- Operands are joined where they stand. -/
theorem located_binary :
    (binary left op right).located p
      = (left.located p).join
          ⟨op.value, (op.stretch BinaryOperator.lexeme).extent (p.after left.text)⟩
          (right.located (p.after (left.text ++ (op.stretch BinaryOperator.lexeme).text))) := by
  have hextent :=
    left.through_located (op.stretch BinaryOperator.lexeme) right.stretch p
  rw [← extent_located] at hextent
  exact congrArg (Expr.binary · _ _ _) hextent.symm

/-- An expression is raised where it stands. -/
theorem located_power :
    (power base sign x h).located p
      = (base.located p).raise ⟨readNumber x.value.text,
          (x.stretch Numeral.text).extent
            (p.after (base.text ++ (sign.behind ['^']).text))⟩ :=
  congrArg (Expr.power · _ _) (base.through_located _ _ p).symm

/-- An expression is taken to a temperature where it stands. -/
theorem located_atTemperature :
    (atTemperature base sign x unit h).located p
      = (base.located p).shift ⟨readNumber x.value.text,
          (degreesStretch x unit).extent
            (p.after (base.text ++ (sign.behind ['@']).text))⟩ :=
  congrArg (Expr.atTemperature · _ _) (base.through_located _ _ p).symm

/-- A group reaches from bracket to bracket. -/
theorem located_group :
    (group opening inner closing).located p
      = .group (((opening.behind ['(']).extent p).through ((closing.behind [')']).extent
            (p.after ((opening.behind ['(']).text ++ inner.text))))
          (inner.located (p.after (opening.behind ['(']).text)) := by
  have hextent : ((opening.behind ['(']).extent p).through ((closing.behind [')']).extent
        (p.after (opening.behind ['('] ++ inner.stretch).text))
      = (group opening inner closing).stretch.extent p := Stretch.through_extent rfl _
  rw [Stretch.append_text] at hextent
  exact congrArg (Expr.group · _) hextent.symm

end Text

/-- **An expression starts with a lexeme**, and so not with a blank. -/
theorem stops_isBlank (w : Written dialect) (rest : List Char) :
    Lexeme.Stops ParseFault.isBlank (w.text ++ rest) := by
  induction w generalizing rest with
  | binary left op right ihl ihr =>
    rw [text_binary, List.append_assoc, List.append_assoc]
    exact ihl _
  | power base sign exponent h ih =>
    rw [text_power, List.append_assoc, List.append_assoc]
    exact ih _
  | atTemperature base sign degrees unit h ih =>
    rw [text_atTemperature, List.append_assoc, List.append_assoc]
    exact ih _
  | group opening inner closing ih =>
    rw [text_group, List.append_assoc, List.append_assoc]
    exact Lexeme.stops_cons rfl
  | var name => exact name.stops_isBlank name.value.solid name.value.ne_nil rest
  | literal l =>
    show Lexeme.Stops ParseFault.isBlank (l.stretch.text ++ rest)
    rw [WrittenLiteral.stretch, WrittenLiteral.second, Stretch.optional_text,
      Stretch.optional_text, List.append_assoc, List.append_assoc]
    exact l.magnitude.stops_isBlank l.magnitude.value.solid l.magnitude.value.ne_nil _

end Written

/-! ## Statements -/

/-- **A statement as it is written.** -/
inductive WrittenStatement (dialect : Dialect) where
  /-- An assignment, with the blanks behind the sign for assignments. -/
  | assign (name : Spaced Name) (sign : Blanks) (value : Written dialect)
  /-- An expression. -/
  | expression (value : Written dialect)

namespace WrittenStatement

variable {dialect : Dialect}

/-- The statement as a stretch. -/
def stretch : WrittenStatement dialect → Stretch
  | assign name sign value =>
    name.stretch Name.text ++ sign.behind ['='] ++ value.stretch
  | expression value => value.stretch

/-- **The text of the statement**, with the blanks after it. -/
def text (w : WrittenStatement dialect) : List Char := w.stretch.text

/-- **The statement that was written**, where its text starts at a
position. -/
def located : WrittenStatement dialect → Position → Statement Binary64
  | assign name sign value, p =>
    .assign ((assign name sign value).stretch.extent p)
      ⟨String.ofList name.value.text, (name.stretch Name.text).extent p⟩
      (value.located
        (p.after ((name.stretch Name.text).text ++ (sign.behind ['=']).text)))
  | expression value, p => .expression (value.located p)

section Text

variable (name : Spaced Name) (sign : Blanks) (value : Written dialect) (p : Position)

theorem text_assign :
    (assign name sign value).text
      = (name.stretch Name.text).text ++ (sign.behind ['=']).text ++ value.text := by
  rw [text, stretch, Stretch.append_text, Stretch.append_text]
  rfl

/-- An assignment reaches from its name to the end of its value. -/
theorem located_assign {q : Position}
    (hq : q = p.after ((name.stretch Name.text).text ++ (sign.behind ['=']).text)) :
    (assign name sign value).located p
      = .assign (((name.stretch Name.text).extent p).through (value.located q).extent)
          ⟨String.ofList name.value.text, (name.stretch Name.text).extent p⟩
          (value.located q) := by
  subst hq
  have hextent : ((name.stretch Name.text).extent p).through (value.stretch.extent
        (p.after (name.stretch Name.text ++ sign.behind ['=']).text))
      = (assign name sign value).stretch.extent p := Stretch.through_extent rfl _
  rw [Stretch.append_text, ← Written.extent_located] at hextent
  exact congrArg (Statement.assign · _ _) hextent.symm

end Text

/-- It stands where its text does. -/
@[simp] theorem extent_located (w : WrittenStatement dialect) (p : Position) :
    (w.located p).extent = w.stretch.extent p := by
  cases w with
  | expression e => exact e.extent_located p
  | assign => rfl

/-- A statement starts with a lexeme, too. -/
theorem stops_isBlank (w : WrittenStatement dialect) (rest : List Char) :
    Lexeme.Stops ParseFault.isBlank (w.text ++ rest) := by
  cases w with
  | expression e => exact e.stops_isBlank rest
  | assign name sign value =>
    rw [text_assign, List.append_assoc, List.append_assoc]
    exact name.stops_isBlank name.value.solid name.value.ne_nil _

end WrittenStatement

end WorstCase
