/-!
# Operators

The operators of the formula language. The six **binary operators** join two operands and have a
precedence; a power and a temperature shift take a number instead of a second operand. `Operator` names
all eight, for messages.
-/

namespace WorstCase

/-- **The operators that join two operands.** -/
inductive BinaryOperator where
  /-- A sum; of resistances, their series connection. -/
  | add
  /-- A difference. -/
  | sub
  /-- A product. -/
  | mul
  /-- A quotient. -/
  | div
  /-- The parallel connection of two resistances. -/
  | parallel
  /-- The ratio of a voltage divider of two resistances. -/
  | divider
  deriving DecidableEq, Repr

/-- Every operator. -/
inductive Operator where
  | binary (op : BinaryOperator)
  /-- A power. -/
  | power
  /-- A resistance at another temperature. -/
  | atTemperature
  deriving DecidableEq, Repr

instance : Coe BinaryOperator Operator := ⟨.binary⟩

namespace BinaryOperator

/-- How the operator is written. -/
def symbol : BinaryOperator → String
  | .add => "+"
  | .sub => "-"
  | .mul => "*"
  | .div => "/"
  | .parallel => "|"
  | .divider => "//"

/-- Whether the operator binds as a sum does. All others bind as a product does, which is tighter. -/
def isAdditive : BinaryOperator → Bool
  | .add | .sub => true
  | .mul | .div | .parallel | .divider => false

end BinaryOperator

/-- How the operator is written. -/
def Operator.symbol : Operator → String
  | .binary op => op.symbol
  | .power => "^"
  | .atTemperature => "@"

end WorstCase
