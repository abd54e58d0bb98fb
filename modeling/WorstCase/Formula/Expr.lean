import WorstCase.Formula.Unit
import WorstCase.Operator
import WorstCase.Source.Span

/-!
# Expressions and statements

The syntax tree of a formula. Every node knows its **extent**: the stretch of text it was read from and
the blanks that follow it. The extents of a tree lie next to each other without a gap, so that the text
can be read off the tree again.

Numbers are of any scalar type. A tree that was read has rounded numbers in it; a tree for exact
evaluation has rational ones.
-/

namespace WorstCase

/-- **Where a node stands**: its text, and the blanks after it. -/
structure Extent where
  /-- The text of the node. -/
  span : Span
  /-- The blanks after it. -/
  space : Span
  deriving DecidableEq, Repr

/-- The extent from the start of one node to the end of another. -/
def Extent.through (first last : Extent) : Extent :=
  ⟨⟨first.span.start, last.span.stop⟩, last.space⟩

/-- A value with the extent it was read from. -/
structure Node (α : Type) where
  /-- The value. -/
  value : α
  /-- Where it stands. -/
  extent : Extent
  deriving DecidableEq, Repr

/-- **A number with a unit and a spread**, as it is written. -/
structure Literal (S : Type) where
  /-- The number, its prefix applied. -/
  value : S
  /-- The unit. A literal without one is a resistance. -/
  unit : Option (Node UnitSymbol)
  /-- The tolerance in percent. -/
  tolerance : Option (Node S)
  /-- The temperature coefficient in millionths per °C. -/
  coefficient : Option (Node Int)
  deriving DecidableEq

/-- **An expression.** -/
inductive Expr (S : Type) where
  /-- Two operands joined by an operator. -/
  | binary (extent : Extent) (op : Node BinaryOperator) (left right : Expr S)
  /-- A power. -/
  | power (extent : Extent) (base : Expr S) (exponent : Node S)
  /-- A resistance at a temperature in °C. -/
  | atTemperature (extent : Extent) (base : Expr S) (degrees : Node S)
  /-- An expression in parentheses. -/
  | group (extent : Extent) (inner : Expr S)
  /-- A variable. -/
  | var (extent : Extent) (name : String)
  /-- A literal. -/
  | literal (extent : Extent) (literal : Literal S)
  deriving DecidableEq

namespace Expr

variable {S : Type}

/-- Where the expression stands. -/
def extent : Expr S → Extent
  | .binary extent .. | .power extent .. | .atTemperature extent .. | .group extent _
  | .var extent _ | .literal extent _ => extent

/-- The text of the expression. -/
def span (e : Expr S) : Span := e.extent.span

/-- Two operands joined by an operator, standing where the operands do. -/
def join (left : Expr S) (op : Node BinaryOperator) (right : Expr S) : Expr S :=
  .binary (left.extent.through right.extent) op left right

/-- An expression raised to a power. -/
def raise (base : Expr S) (exponent : Node S) : Expr S :=
  .power (base.extent.through exponent.extent) base exponent

/-- An expression taken to a temperature. -/
def shift (base : Expr S) (degrees : Node S) : Expr S :=
  .atTemperature (base.extent.through degrees.extent) base degrees

/-- The names of the variables in an expression, from left to right. -/
def names : Expr S → List String
  | .binary _ _ left right => left.names ++ right.names
  | .power _ base _ => base.names
  | .atTemperature _ base _ => base.names
  | .group _ inner => inner.names
  | .var _ name => [name]
  | .literal .. => []

end Expr

/-- **A line of a formula**: an assignment, or an expression whose value is wanted. -/
inductive Statement (S : Type) where
  /-- An assignment to a name. -/
  | assign (extent : Extent) (name : Node String) (value : Expr S)
  /-- An expression. -/
  | expression (value : Expr S)
  deriving DecidableEq

namespace Statement

variable {S : Type}

/-- Where the statement stands. -/
def extent : Statement S → Extent
  | .assign extent .. => extent
  | .expression value => value.extent

end Statement

end WorstCase
