import WorstCase.Formula.ParseError
import WorstCase.Scalar.Rounded

/-!
# Tokens and literals

A **cursor** is a position in a text with the text that is left. A **token** is a lexeme with its
extent; taking one moves the cursor past it and past the blanks that follow. No token holds a blank, so
the text is the tokens with the blanks after each.

`Cursor.literal` reads a number with its unit, tolerance and coefficient. Numbers are read from the
lexeme's text and must be in range. The prefix and the unit are told from the end of the lexeme: a number
ends in a digit, so what is left of a magnitude after its last digit is a prefix or a unit or both.
-/

namespace WorstCase

/-- **A lexeme and where it stands.** -/
structure Token where
  /-- The characters. -/
  text : List Char
  /-- Where they stand. -/
  extent : Extent
  deriving DecidableEq, Repr

/-- The text of the token. -/
def Token.span (t : Token) : Span := t.extent.span

/-- A value read from a token. -/
def Token.node {α : Type} (t : Token) (value : α) : Node α := ⟨value, t.extent⟩

/-- **A place in a text, and the text from there.** -/
structure Cursor where
  /-- The place. -/
  position : Position
  /-- The text that is left. -/
  rest : List Char
  deriving DecidableEq, Repr

namespace Cursor

/-- The cursor past the blanks it is at. -/
def skipBlanks (c : Cursor) : Cursor :=
  ⟨c.position.after (c.rest.takeWhile ParseFault.isBlank), c.rest.dropWhile ParseFault.isBlank⟩

/-- The start of a text, past its leading blanks. -/
def ofText (text : List Char) : Cursor := skipBlanks ⟨Position.start, text⟩

/-- The token made of a lexeme that is next, and the cursor past it. -/
def accept (c : Cursor) (lexeme rest : List Char) : Token × Cursor :=
  let behind : Cursor := ⟨c.position.after lexeme, rest⟩
  let next := behind.skipBlanks
  (⟨lexeme, ⟨⟨c.position, behind.position⟩, ⟨behind.position, next.position⟩⟩⟩, next)

theorem skipBlanks_length_le (c : Cursor) : c.skipBlanks.rest.length ≤ c.rest.length :=
  (List.dropWhile_sublist _).length_le

theorem accept_length_le (c : Cursor) (lexeme rest : List Char) :
    (c.accept lexeme rest).2.rest.length ≤ rest.length :=
  skipBlanks_length_le _

/-- The token that a scan finds next, if it finds one. A number that breaks off is an error at the
character that should have been a digit. -/
def token (scan : List Char → Scan) (c : Cursor) : Except ParseError (Option (Token × Cursor)) :=
  match scan c.rest with
  | .absent => .ok none
  | .found lexeme rest => .ok (some (c.accept lexeme rest))
  | .broken part before mark =>
    let start := c.position.offset + byteSize before
    .error ⟨start + byteSize mark, .brokenNumber part start⟩

/-- As `token`, where the lexeme may be left out: the cursor stays if it is. -/
def optionalToken (scan : List Char → Scan) (c : Cursor) :
    Except ParseError (Option Token × Cursor) := do
  match ← c.token scan with
  | some (token, next) => return (some token, next)
  | none => return (none, c)

/-- A token leaves less text. -/
theorem token_length_lt {scan : List Char → Scan} {c next : Cursor} {t : Token}
    (nonempty : ∀ {cs lexeme rest}, scan cs = .found lexeme rest → lexeme ++ rest = cs ∧ lexeme ≠ [])
    (h : c.token scan = .ok (some (t, next))) : next.rest.length < c.rest.length := by
  unfold token at h
  generalize scanned : scan c.rest = s at h
  cases s with
  | absent => cases h
  | broken => cases h
  | found lexeme rest =>
    obtain ⟨whole, ne⟩ := nonempty scanned
    have next_eq : (c.accept lexeme rest).2 = next := by
      simp only [Except.ok.injEq, Option.some.injEq] at h
      rw [h]
    have shorter := accept_length_le c lexeme rest
    have total : lexeme.length + rest.length = c.rest.length := by
      rw [← whole, List.length_append]
    have pos := List.length_pos_iff.2 ne
    rw [next_eq] at shorter
    omega

theorem optionalToken_length_le {scan : List Char → Scan} {c next : Cursor} {t : Option Token}
    (nonempty : ∀ {cs lexeme rest}, scan cs = .found lexeme rest → lexeme ++ rest = cs ∧ lexeme ≠ [])
    (h : c.optionalToken scan = .ok (t, next)) : next.rest.length ≤ c.rest.length := by
  unfold optionalToken at h
  generalize read : c.token scan = r at h
  match r with
  | .error _ => cases h
  | .ok none =>
    cases h
    exact Nat.le_refl _
  | .ok (some (_, _)) =>
    cases h
    exact Nat.le_of_lt (token_length_lt nonempty read)

end Cursor

/-! ## Numbers -/

/-- The whole number that digits spell. -/
def digitsValue (digits : List Char) : Nat :=
  digits.foldl (fun value c => 10 * value + (c.toNat - '0'.toNat)) 0

/-- The whole number that digits with a sign, or without one, spell. -/
def signedValue (text : List Char) : Int :=
  match text with
  | '-' :: digits => -(digitsValue digits : Int)
  | '+' :: digits => digitsValue digits
  | digits => digitsValue digits

/-- Splits a magnitude's lexeme into the text of its number, its metric prefix and its unit, taking the
unit and then the prefix off the end. -/
structure MagnitudeParts where
  number : List Char
  metric : Option Char
  unit : Option Char
  deriving DecidableEq, Repr

namespace MagnitudeParts

/-- Takes the last character off a text if it is of a kind. -/
def popLast (p : Char → Bool) (text : List Char) : List Char × Option Char :=
  match text.getLast? with
  | some c => if p c then (text.dropLast, some c) else (text, none)
  | none => (text, none)

/-- **The parts of a magnitude's lexeme**, told from its end. -/
def split (lexeme : List Char) : MagnitudeParts :=
  let (text, unit) := popLast Lexeme.isUnitChar lexeme
  let (number, metric) := popLast (fun c => !c.isDigit) text
  ⟨number, metric, unit⟩

end MagnitudeParts

/-- **The number that the text of a number stands for**, rounded to the nearest. The text is a sign,
digits, a decimal point with digits, and an exponent, of which only the first digits must be there. -/
def readNumber (text : List Char) : Binary64 :=
  let (sign, body) := Lexeme.optional Lexeme.isSign text
  let mantissa := body.takeWhile (!Lexeme.isExponentMark ·)
  let exponent := (body.dropWhile (!Lexeme.isExponentMark ·)).drop 1
  let whole := mantissa.takeWhile (· != '.')
  let fraction := (mantissa.dropWhile (· != '.')).drop 1
  Binary64.ofDecimal (sign == ['-'])
    ⟨digitsValue (whole ++ fraction), signedValue exponent - fraction.length⟩

/-- The number that a piece of a token stands for, which must be in range. -/
def Token.readFinite (t : Token) (text : List Char) (fault : Span → ParseFault) :
    Except ParseError Binary64 :=
  let value := readNumber text
  if value.isFinite then .ok value else .error ⟨t.span.start.offset, fault t.span⟩

/-- The whole number of a coefficient's token, which must fit in 32 bits. -/
def Token.readCoefficient (t : Token) : Except ParseError Int :=
  let value := signedValue (t.text.dropLast.dropLast.dropLast)
  if -0x80000000 ≤ value ∧ value < 0x80000000 then .ok value
  else .error ⟨t.span.start.offset, .coefficientOutOfRange t.span⟩

namespace Literal

/-- The extent of the unit at the end of a magnitude's token. -/
def unitExtent (magnitude : Token) (unit : Char) : Extent :=
  let stop := magnitude.span.stop
  ⟨⟨stop.back unit.utf8Size, stop⟩, magnitude.extent.space⟩

/-- The unit of a magnitude. -/
def unitNode (magnitude : Token) (parts : MagnitudeParts) : Option (Node UnitSymbol) :=
  parts.unit.bind fun c => (UnitSymbol.ofChar? c).map fun unit => ⟨unit, unitExtent magnitude c⟩

/-- What the prefix of a magnitude multiplies its number by. -/
def prefixFactor (parts : MagnitudeParts) : Binary64 :=
  ((parts.metric.bind MetricPrefix.ofChar?).getD .one).factor

/-- A value that may be missing, read if it is there. -/
def readOptional {α : Type} (read : Token → Except ParseError α) :
    Option Token → Except ParseError (Option (Node α))
  | some t => (read t).map fun value => some (t.node value)
  | none => .ok none

/-- **The literal that its tokens spell.** -/
def ofTokens (magnitude : Token) (tolerance coefficient : Option Token) :
    Except ParseError (Literal Binary64) := do
  let parts := MagnitudeParts.split magnitude.text
  let number ← magnitude.readFinite parts.number .valueOutOfRange
  let tolerance ← readOptional (fun t => t.readFinite t.text.dropLast .toleranceOutOfRange) tolerance
  let coefficient ← readOptional Token.readCoefficient coefficient
  return {
    value := number * prefixFactor parts
    unit := unitNode magnitude parts
    tolerance
    coefficient }

end Literal

/-- **The literal that is next**, if one is. -/
def Cursor.literal (dialect : Dialect) (c : Cursor) :
    Except ParseError (Option (Expr Binary64 × Cursor)) := do
  match ← c.token (Lexeme.magnitude dialect) with
  | none => return none
  | some (magnitude, c) =>
    let (tolerance, c) ← c.optionalToken Lexeme.percentage
    let (coefficient, c) ← c.optionalToken Lexeme.coefficient
    let literal ← Literal.ofTokens magnitude tolerance coefficient
    let last := coefficient.getD (tolerance.getD magnitude)
    return some (.literal (magnitude.extent.through last.extent) literal, c)

/-- A literal leaves less text. -/
theorem Cursor.literal_length_lt {dialect : Dialect} {c next : Cursor} {e : Expr Binary64}
    (h : c.literal dialect = .ok (some (e, next))) : next.rest.length < c.rest.length := by
  unfold Cursor.literal at h
  generalize read : c.token (Lexeme.magnitude dialect) = r at h
  match r with
  | .error _ => cases h
  | .ok none => cases h
  | .ok (some (magnitude, c₁)) =>
    have first := token_length_lt Lexeme.magnitude_found read
    simp only [bind, Except.bind] at h
    split at h
    · cases h
    · rename_i second secondEq
      have le₂ := optionalToken_length_le Lexeme.percentage_found secondEq
      split at h
      · cases h
      · rename_i third thirdEq
        have le₃ := optionalToken_length_le Lexeme.coefficient_found thirdEq
        split at h
        · cases h
        · simp only [pure, Except.pure, Except.ok.injEq, Option.some.injEq, Prod.mk.injEq] at h
          rw [← h.2]
          omega

end WorstCase
