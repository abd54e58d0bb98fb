import WorstCase.Formula.Expr
import WorstCase.Formula.Lexeme
import WorstCase.MetricPrefix
import WorstCase.Source.Report

/-!
# Why a text is no formula

A parse error is an offset and a **fault**. Faults of incomplete constructs and of numbers out of range
name their **cause**: the operator, bracket or number that led there.

Beside its message, a parse error has remarks that depend on the text around it: where a bracket was
opened, what was probably meant by a unit that stands off its number, and the like.
-/

namespace WorstCase

/-- **What is wrong with a formula.** -/
inductive ParseFault where
  /-- There is no operand where the formula should start. -/
  | missingExpression
  /-- There is no operand after an operator. -/
  | missingOperand (op : BinaryOperator) (cause : Span)
  /-- There is no operand after an opening bracket. -/
  | emptyGroup (cause : Span)
  /-- A bracket is not closed. -/
  | unclosedGroup (cause : Span)
  /-- There is no number after the sign for powers. -/
  | missingExponent (cause : Span)
  /-- There is no number after the sign for temperatures. -/
  | missingTemperature (cause : Span)
  /-- There is nothing after the sign for assignments. -/
  | missingValue (cause : Span)
  /-- A value, an exponent or a temperature is out of range. -/
  | valueOutOfRange (cause : Span)
  /-- A tolerance is out of range. -/
  | toleranceOutOfRange (cause : Span)
  /-- A temperature coefficient does not fit in 32 bits. -/
  | coefficientOutOfRange (cause : Span)
  /-- Text is left over after a whole formula. -/
  | unexpectedText
  /-- A number breaks off, in the part that starts at the offset. -/
  | brokenNumber (part : NumberPart) (offset : Nat)
  deriving DecidableEq, Repr

/-- **A fault, and the byte offset where it shows.** -/
structure ParseError where
  /-- Where the text stopped being a formula. -/
  offset : Nat
  /-- Why. -/
  fault : ParseFault
  deriving DecidableEq, Repr

namespace ParseFault

/-- The construct or the number that is at fault. -/
def cause : ParseFault → Option Span
  | .missingOperand _ cause | .emptyGroup cause | .unclosedGroup cause | .missingExponent cause
  | .missingTemperature cause | .missingValue cause | .valueOutOfRange cause
  | .toleranceOutOfRange cause | .coefficientOutOfRange cause => some cause
  | .missingExpression | .unexpectedText | .brokenNumber .. => none

/-- The fault, in words. -/
def message : ParseFault → String
  | .missingExpression => "expected a quantity or a variable"
  | .missingOperand op _ => "expected second operand after `" ++ op.symbol ++ "`"
  | .emptyGroup _ => "expected expression inside parentheses"
  | .unclosedGroup _ => "unclosed `(`"
  | .missingExponent _ => "expected exponent after `^`"
  | .missingTemperature _ => "expected temperature after `@`"
  | .missingValue _ => "expected value after `=`"
  | .valueOutOfRange _ => "number is out of range"
  | .toleranceOutOfRange _ => "tolerance is out of range"
  | .coefficientOutOfRange _ => "temperature coefficient is out of range"
  | .unexpectedText => "unexpected token"
  | .brokenNumber .fraction _ => "expected digits after the decimal point"
  | .brokenNumber .exponent _ => "expected digits in the exponent"

/-! ## Remarks -/

/-- Where the bracket was opened that is empty or not closed. -/
def openedHere : ParseFault → List (Advice × Option Place)
  | .unclosedGroup cause | .emptyGroup cause =>
    [(.note "`(` opened here", some ⟨cause.start.offset, some cause.size⟩)]
  | _ => []

/-- Whether a character is a blank. -/
def isBlank (c : Char) : Bool := c == ' ' || c == '\t'

/-- Whether a character may stand in a word: a name, a number, or a number with its prefix and unit. -/
def isWordChar (c : Char) : Bool :=
  Lexeme.isNameChar c || c == '.' || (MetricPrefix.ofChar? c).isSome || Lexeme.isUnitChar c

/-- The last word of a text, the text's own trailing blanks apart. -/
def lastWord (text : List Char) : List Char :=
  ((text.reverse.dropWhile isBlank).takeWhile isWordChar).reverse

/-- Whether a word is a number: names start with a letter, numbers with a digit or a point. -/
def isNumberWord (word : List Char) : Bool :=
  word.head?.any (fun c => c.isDigit || c == '.') && word.getLast?.any Char.isDigit

/-- A prefix or a unit that stands off the number it belongs to. -/
def detachedUnit (before rest : List Char) : List (Advice × Option Place) :=
  let isUnit := rest.head?.any fun c => (MetricPrefix.ofChar? c).isSome || Lexeme.isUnitChar c
  if isUnit && isNumberWord (lastWord before) && before.getLast?.any isBlank then
    [(.help "write the prefix and unit directly after the number, as in `4.7kΩ`", none)]
  else []

/-- A percent sign that stands off its number. -/
def detachedPercent (rest : List Char) : List (Advice × Option Place) :=
  if rest.head? = some '%' then
    [(.help "write the tolerance directly after its number, as in `5%`", none)]
  else []

/-- Two stars where a power was meant. -/
def doubleStar (fault : ParseFault) (rest : List Char) : List (Advice × Option Place) :=
  match fault, rest with
  | .missingOperand .., '*' :: _ => [(.help "use `^` for powers, as in `v ^ 2`", none)]
  | _, _ => []

/-- What a temperature coefficient may be. -/
def coefficientRange : ParseFault → List (Advice × Option Place)
  | .coefficientOutOfRange _ =>
    [(.note "temperature coefficients are whole numbers of ppm per °C", none)]
  | _ => []

/-- What makes the number that breaks off a number. -/
def brokenHere : ParseFault → List (Advice × Option Place)
  | .brokenNumber .fraction offset => [(.note "because of `.` here", some ⟨offset, none⟩)]
  | .brokenNumber .exponent offset => [(.note "because of `e` here", some ⟨offset, none⟩)]
  | _ => []

/-- All remarks about a fault that shows between two parts of a text. -/
def remarks (fault : ParseFault) (before rest : List Char) : List (Advice × Option Place) :=
  openedHere fault ++ detachedUnit before rest ++ detachedPercent rest ++ doubleStar fault rest
    ++ coefficientRange fault ++ brokenHere fault

end ParseFault

/-- **The diagnosis of a parse error** in a text. -/
def ParseError.diagnosis (e : ParseError) (text : List Char) : Diagnosis where
  message := e.fault.message
  place := ⟨e.offset, none⟩
  advice := []
  remarks :=
    match splitAtByte? text e.offset with
    | some (before, rest) => e.fault.remarks before rest
    | none => []

end WorstCase
