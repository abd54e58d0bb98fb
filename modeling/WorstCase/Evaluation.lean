import WorstCase.Formula.Expr
import WorstCase.Ledger
import WorstCase.Quantity.Basic
import WorstCase.Source.Report

/-!
# Evaluation

The value of an expression in an environment of named quantities. Operands are evaluated from left to
right, and each must be a quantity before the next is looked at. An undefined outcome is therefore a
fault inside an expression, and an outcome only as the whole of it.

The first fault met ends the evaluation. It is given with the span of the node it was met at: for an
operand that is no quantity the span of the operand, for a misplaced coefficient that of the unit, and
otherwise that of the operation, variable or literal.
-/

namespace WorstCase

/-- **The quantities that names stand for.** -/
abbrev Environment (S : Type) := Ledger (Quantity S)

/-- Outcomes that are no quantity. -/
inductive Untyped where
  | bounds
  | undefined
  deriving DecidableEq, Repr

/-- The outcome in running text. -/
def Untyped.text : Untyped → String
  | .bounds => "bare bounds"
  | .undefined => "an undefined result"

/-- The quantity an outcome is, or what else it is. -/
def Outcome.asQuantity {S : Type} : Outcome S → Except Untyped (Quantity S)
  | .quantity q => .ok q
  | .bounds _ => .error .bounds
  | .undefined => .error .undefined

/-- **What is wrong with an expression's value.** -/
inductive EvalFault (S : Type) where
  /-- The environment has no such name. -/
  | unknownVariable (name : String)
  /-- An operand is no quantity. -/
  | untypedOperand (op : Operator) (untyped : Untyped)
  /-- What is to be assigned is no quantity. -/
  | untypedAssignment (name : String) (untyped : Untyped)
  /-- A literal of another kind than resistance has a temperature coefficient. -/
  | coefficientWithoutResistance (unit : UnitSymbol)
  /-- Quantities do not combine. -/
  | quantity (error : QuantityError S)
  deriving DecidableEq

/-- **A fault, and where it was met.** -/
structure EvalError (S : Type) where
  /-- What is wrong. -/
  fault : EvalFault S
  /-- The part of the formula that has the fault. -/
  span : Span
  deriving DecidableEq

section Evaluate

variable {S : Type} [Scalar S]

/-- A result of the quantity algebra, whose error is met at the given span. -/
def metAt {α : Type} (span : Span) : Except (QuantityError S) α → Except (EvalError S) α
  | .ok value => .ok value
  | .error error => .error ⟨.quantity error, span⟩

/-- **The quantity a literal stands for.** Without a unit it is a resistance. -/
def Literal.eval (l : Literal S) (span : Span) : Except (EvalError S) (Quantity S) :=
  let tolerance : S := match l.tolerance with
    | some percent => percent.value / Scalar.ofRat 100
    | none => 0
  let coefficient := l.coefficient.map Node.value
  match l.unit with
  | none => metAt span ((Resistance.ofTolerance l.value tolerance coefficient).map .resistance)
  | some unit =>
    if unit.value.kind = .resistance then
      metAt span ((Resistance.ofTolerance l.value tolerance coefficient).map .resistance)
    else if coefficient.isSome then
      .error ⟨.coefficientWithoutResistance unit.value, unit.extent.span⟩
    else metAt span (Quantity.ofTolerance unit.value.kind l.value tolerance)

omit [Scalar S] in
/-- An outcome as the operand of an operator. -/
def asOperand (op : Operator) (span : Span) (outcome : Outcome S) :
    Except (EvalError S) (Quantity S) :=
  match outcome.asQuantity with
  | .ok q => .ok q
  | .error untyped => .error ⟨.untypedOperand op untyped, span⟩

/-- **The outcome of an expression** in an environment. -/
def Expr.eval (env : Environment S) : Expr S → Except (EvalError S) (Outcome S)
  | .binary extent op left right => do
    let p ← asOperand op.value left.span (← left.eval env)
    let q ← asOperand op.value right.span (← right.eval env)
    metAt extent.span (p.combine op.value q)
  | .power extent base exponent => do
    let q ← asOperand .power base.span (← base.eval env)
    metAt extent.span (q.power exponent.value)
  | .atTemperature extent base degrees => do
    let q ← asOperand .atTemperature base.span (← base.eval env)
    metAt extent.span ((q.atTemperature degrees.value).map .quantity)
  | .group _ inner => inner.eval env
  | .var extent name =>
    match env.get? name with
    | some q => .ok (.quantity q)
    | none => .error ⟨.unknownVariable name, extent.span⟩
  | .literal extent l => (l.eval extent.span).map .quantity

/-- The quantity to assign to a name. -/
def Expr.evalFor (env : Environment S) (name : String) (e : Expr S) :
    Except (EvalError S) (Quantity S) := do
  match (← e.eval env).asQuantity with
  | .ok q => return q
  | .error untyped => .error ⟨.untypedAssignment name untyped, e.span⟩

end Evaluate

/-! ## Diagnosis -/

/-- The fault, in words. -/
def EvalFault.message : EvalFault Binary64 → String
  | .unknownVariable name => "unknown variable `" ++ name ++ "`"
  | .untypedOperand op untyped =>
    "`" ++ op.symbol ++ "` needs a quantity with a unit, found " ++ untyped.text
  | .untypedAssignment name untyped => "cannot assign " ++ untyped.text ++ " to `" ++ name ++ "`"
  | .coefficientWithoutResistance unit =>
    "a temperature coefficient only applies to resistances, not to `" ++ unit.symbol.toString
      ++ "` values"
  | .quantity error => error.message

/-- Advice about a quantity that cannot be made. -/
def QuantityError.advice : QuantityError Binary64 → List Advice
  | .missingCoefficient =>
    [.help "give the resistance a temperature coefficient, as in `1k 1% 100ppm`"]
  | .temperatureMismatch .. => [.help "shift both resistances to the same temperature with `@`"]
  | .unsupportedOperation .power _ => [.note "only voltages and currents can be squared"]
  | .incompatibleOperands (.binary .parallel) .. | .incompatibleOperands (.binary .divider) .. =>
    [.note "`|` and `//` only combine resistances"]
  | _ => []

/-- Advice about a fault. -/
def EvalFault.advice : EvalFault Binary64 → List Advice
  | .unknownVariable name => [.help ("assign it on an earlier line, as in `" ++ name ++ " = 1k`")]
  | .untypedOperand .. | .untypedAssignment .. =>
    [.note "adding or subtracting factors, or a power other than 2, has no typed result"]
  | .coefficientWithoutResistance _ =>
    [.help "write the literal without a unit, or with `Ω`, to make it a resistance"]
  | .quantity error => error.advice

/-- **The diagnosis of an evaluation error.** -/
def EvalError.diagnosis (e : EvalError Binary64) : Diagnosis where
  message := e.fault.message
  place := e.span.place
  advice := e.fault.advice
  remarks := []

end WorstCase
