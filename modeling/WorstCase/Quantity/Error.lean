import WorstCase.Interval
import WorstCase.Kind
import WorstCase.Operator
import WorstCase.Scalar.Rounded

/-!
# Temperatures, and why a quantity cannot be made

A resistance value holds at a **temperature**, or at none in particular when it was put together from
values at different temperatures. `QuantityError` lists every reason for which a quantity cannot be made
or combined; its texts are in `QuantityError.message`.
-/

namespace WorstCase

/-- **The temperature a resistance value holds at.** -/
inductive Temperature (S : Type) where
  /-- One temperature, in °C. -/
  | celsius (degrees : S)
  /-- The value combines resistances at different temperatures. -/
  | mixed
  deriving DecidableEq

namespace Temperature

variable {S : Type} [Scalar S]

/-- Whether two values hold at the same temperature. Two mixed ones count as such. -/
def same : Temperature S → Temperature S → Bool
  | .celsius s, .celsius t => Scalar.same s t
  | .mixed, .mixed => true
  | _, _ => false

/-- The temperature of a combination: that of its parts if they share one. -/
def combine : Temperature S → Temperature S → Temperature S
  | .celsius s, .celsius t => if Scalar.same s t then .celsius s else .mixed
  | _, _ => .mixed

/-- The temperature that resistances are stated at, 20 °C. -/
def reference : Temperature S := .celsius (Scalar.ofRat 20)

/-- The temperature in running text. -/
def text : Temperature Binary64 → String
  | .celsius degrees => degrees.text ++ "°C"
  | .mixed => "mixed temperature"

end Temperature

/-- The fault in a pair of bounds, in words. -/
def BoundsError.message : BoundsError Binary64 → String
  | .lowerNotNumber lower upper => "min must not be NaN in " ++ pair lower upper
  | .upperNotNumber lower upper => "max must not be NaN in " ++ pair lower upper
  | .reversed lower upper => "min must be less than or equal to max in " ++ pair lower upper
where
  /-- Both bounds, in parentheses. -/
  pair (lower upper : Binary64) : String := "(" ++ lower.text ++ ", " ++ upper.text ++ ")"

/-- **Why a quantity cannot be made or combined.** -/
inductive QuantityError (S : Type) where
  /-- A resistance must be positive. -/
  | invalidResistance (value : S)
  /-- A tolerance must be a finite number, and not negative. -/
  | invalidTolerance (tolerance : S)
  /-- A value must be a finite number. -/
  | invalidValue (value : S)
  /-- The bounds of a measure make no interval. -/
  | invalidBounds (fault : BoundsError S)
  /-- A resistance without a temperature coefficient cannot be taken to another temperature. -/
  | missingCoefficient
  /-- The resistances of a voltage divider must be at one temperature. -/
  | temperatureMismatch (left right : Temperature S)
  /-- The operator does not combine these kinds. -/
  | incompatibleOperands (op : Operator) (left right : Kind)
  /-- The operator does not apply to this kind. -/
  | unsupportedOperation (op : Operator) (kind : Kind)
  /-- A divisor has a bound of zero. -/
  | divisionByZero
  /-- A bound of the result is out of range. -/
  | nonFiniteResult (op : Operator)
  deriving DecidableEq

/-- The reason, in words. -/
def QuantityError.message : QuantityError Binary64 → String
  | .invalidResistance value => "resistance must be greater than zero, got " ++ value.text
  | .invalidTolerance tolerance => "tolerance must be a non-negative number, got " ++ tolerance.text
  | .invalidValue value => "value must be a finite number, got " ++ value.text
  | .invalidBounds fault => fault.message
  | .missingCoefficient =>
    "cannot change the temperature of a resistance without a temperature coefficient"
  | .temperatureMismatch left right =>
    "voltage divider needs both resistances at the same temperature, got " ++ left.text ++ " and "
      ++ right.text
  | .incompatibleOperands op left right =>
    "cannot apply `" ++ op.symbol ++ "` to " ++ left.name ++ " and " ++ right.name
  | .unsupportedOperation op kind => "`" ++ op.symbol ++ "` is not supported for " ++ kind.name
  | .divisionByZero => "cannot divide by a range that includes zero"
  | .nonFiniteResult op => "result of `" ++ op.symbol ++ "` is not a finite number"

end WorstCase
