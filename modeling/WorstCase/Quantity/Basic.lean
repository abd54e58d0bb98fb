import WorstCase.Resistance

/-!
# Quantities

A **quantity** is a measure of some kind; a quantity of resistance has a temperature model besides. The
operations here are those of the formula language. What they combine is decided by the kinds, how they
combine it by the bounds: the mean and the tolerance of a result are recovered from its bounds.

An operation may also end without a quantity and yet without an error. A bare number as the second
operand leaves bounds of no kind, and sums of factors, differences of resistances and powers other than
squares are not defined. `Outcome` tells these apart.
-/

namespace WorstCase

/-- **A physical quantity with a worst-case spread.** -/
inductive Quantity (S : Type) where
  /-- A resistance, with its temperature model. -/
  | resistance (r : Resistance S)
  /-- A quantity of any other kind. -/
  | plain (kind : Kind) (measure : Measure S) (ne : kind ≠ .resistance)
  deriving DecidableEq

/-- **What an operation on quantities comes to.** -/
inductive Outcome (S : Type) where
  /-- A quantity. -/
  | quantity (q : Quantity S)
  /-- Bounds without a kind. -/
  | bounds (bounds : Interval S)
  /-- Nothing that has a kind or bounds. -/
  | undefined
  deriving DecidableEq

namespace Quantity

variable {S : Type} [Scalar S]

open Scalar

omit [Scalar S] in
/-- The kind of a quantity. -/
def kind : Quantity S → Kind
  | .resistance _ => .resistance
  | .plain kind _ _ => kind

omit [Scalar S] in
/-- The value of a quantity and its spread. -/
def measure : Quantity S → Measure S
  | .resistance r => r.measure
  | .plain _ measure _ => measure

omit [Scalar S] in
/-- The bounds of a quantity. -/
def bounds (q : Quantity S) : Interval S := q.measure.bounds

omit [Scalar S] in
/-- The quantity as a resistance, if it is one. -/
def resistance? : Quantity S → Option (Resistance S)
  | .resistance r => some r
  | .plain .. => none

/-- The quantity of a kind with a measure. A resistance gets no temperature coefficient. -/
def ofMeasure (kind : Kind) (measure : Measure S) (temperature : Temperature S) :
    Except (QuantityError S) (Quantity S) :=
  if h : kind = .resistance then
    (Resistance.ofMeasure measure none temperature).map .resistance
  else .ok (.plain kind measure h)

/-- The quantity of a kind with a relative tolerance. -/
def ofTolerance (kind : Kind) (mean tolerance : S) : Except (QuantityError S) (Quantity S) := do
  ofMeasure kind (← Measure.ofTolerance mean tolerance) .reference

/-- The quantity of a kind between two bounds, given in any order. -/
def between (kind : Kind) (x y : S) : Except (QuantityError S) (Quantity S) := do
  ofMeasure kind (← Measure.between x y) .reference

/-- The quantity an operation results in, from its bounds. -/
def ofResult (kind : Kind) (bounds : Interval S) (temperature : Temperature S) (op : Operator) :
    Except (QuantityError S) (Quantity S) :=
  if !bounds.isFinite then .error (.nonFiniteResult op)
  else do ofMeasure kind (← Measure.ofBounds bounds) temperature

/-- As `ofResult`, for bounds that may not exist. -/
def ofResult? (kind : Kind) (bounds : Option (Interval S)) (temperature : Temperature S)
    (op : Operator) : Except (QuantityError S) (Quantity S) :=
  match bounds with
  | some bounds => ofResult kind bounds temperature op
  | none => .error (.nonFiniteResult op)

/-- Bounds of no kind, as an operation with a bare number results in. -/
def ofScalarResult (bounds : Option (Interval S)) (op : Operator) :
    Except (QuantityError S) (Outcome S) :=
  match bounds with
  | some bounds => if bounds.isFinite then .ok (.bounds bounds) else .error (.nonFiniteResult op)
  | none => .error (.nonFiniteResult op)

/-- The quantity with another tolerance, and all else as it is. -/
def withTolerance (q : Quantity S) (tolerance : S) : Except (QuantityError S) (Quantity S) :=
  match q with
  | .resistance r => (r.withTolerance tolerance).map .resistance
  | .plain kind measure ne => (measure.withTolerance tolerance).map (.plain kind · ne)

/-- The temperature that a product or quotient inherits if it is a resistance: that of its first operand
which is one. -/
def inheritedTemperature (p q : Quantity S) : Temperature S :=
  match p.resistance?, q.resistance? with
  | some r, _ => r.temperature
  | none, some s => s.temperature
  | none, none => .reference

/-! ## Operations on two quantities -/

/-- The sum of two quantities of one kind. Resistances are put in series; factors have no sum. -/
def add (p q : Quantity S) : Except (QuantityError S) (Outcome S) :=
  let op : Operator := BinaryOperator.add
  if p.kind = .factor then .ok .undefined
  else if p.kind ≠ q.kind then .error (.incompatibleOperands op p.kind q.kind)
  else match p, q with
    | .resistance r, .resistance s => do return .quantity (.resistance (← r.series s))
    | p, q => do return .quantity (← ofResult p.kind (p.bounds + q.bounds) .reference op)

/-- The difference of two quantities of one kind. Neither factors nor resistances have one. -/
def sub (p q : Quantity S) : Except (QuantityError S) (Outcome S) :=
  let op : Operator := BinaryOperator.sub
  if p.kind = .factor then .ok .undefined
  else if p.kind ≠ q.kind then .error (.incompatibleOperands op p.kind q.kind)
  else if p.kind = .resistance then .ok .undefined
  else do return .quantity (← ofResult p.kind (p.bounds - q.bounds) .reference op)

/-- The product of two quantities whose kinds have one. -/
def mul (p q : Quantity S) : Except (QuantityError S) (Outcome S) :=
  let op : Operator := BinaryOperator.mul
  match p.kind.product q.kind with
  | none => .error (.incompatibleOperands op p.kind q.kind)
  | some kind => do
    let bounds := p.bounds.mulBounds q.bounds
    return .quantity (← ofResult? kind bounds (inheritedTemperature p q) op)

/-- The quotient of two quantities whose kinds have one. The divisor must not have a bound of zero. -/
def div (p q : Quantity S) : Except (QuantityError S) (Outcome S) :=
  let op : Operator := BinaryOperator.div
  match p.kind.quotient q.kind with
  | none => .error (.incompatibleOperands op p.kind q.kind)
  | some kind =>
    if q.bounds.hasZeroBound then .error .divisionByZero
    else do
      let bounds := p.bounds.divBounds q.bounds
      return .quantity (← ofResult? kind bounds (inheritedTemperature p q) op)

/-- Two resistances in parallel. -/
def parallel (p q : Quantity S) : Except (QuantityError S) (Quantity S) :=
  match p, q with
  | .resistance r, .resistance s => (r.parallel s).map .resistance
  | p, q => .error (.incompatibleOperands BinaryOperator.parallel p.kind q.kind)

/-- The ratio of a voltage divider, as a factor, with `p` as the lower resistor. -/
def dividerRatio (p q : Quantity S) : Except (QuantityError S) (Quantity S) :=
  match p, q with
  | .resistance r, .resistance s => (r.dividerRatio s).map (.plain .factor · (by decide))
  | p, q => .error (.incompatibleOperands BinaryOperator.divider p.kind q.kind)

/-- The voltage at the tap of a divider, or its ratio if no voltage is given. -/
def divider (p q : Quantity S) (voltage : Option (Quantity S)) :
    Except (QuantityError S) (Outcome S) := do
  let ratio ← dividerRatio p q
  match voltage with
  | some v => v.mul ratio
  | none => return .quantity ratio

/-- The operation that a binary operator stands for. -/
def combine (op : BinaryOperator) (p q : Quantity S) : Except (QuantityError S) (Outcome S) :=
  match op with
  | .add => p.add q
  | .sub => p.sub q
  | .mul => p.mul q
  | .div => p.div q
  | .parallel => (p.parallel q).map .quantity
  | .divider => p.divider q none

/-! ## Operations with a bare number -/

/-- The bounds moved up by a number. -/
def addScalar (q : Quantity S) (offset : S) : Except (QuantityError S) (Outcome S) :=
  if q.kind = .factor then .ok .undefined
  else ofScalarResult (q.bounds.shift offset) BinaryOperator.add

/-- The bounds moved down by a number. -/
def subScalar (q : Quantity S) (offset : S) : Except (QuantityError S) (Outcome S) :=
  if q.kind = .factor then .ok .undefined
  else ofScalarResult (q.bounds.shift (-offset)) BinaryOperator.sub

/-- The bounds times a number. -/
def mulScalar (q : Quantity S) (factor : S) : Except (QuantityError S) (Outcome S) :=
  ofScalarResult (q.bounds.scale factor) BinaryOperator.mul

/-- The bounds over a number other than zero. -/
def divScalar (q : Quantity S) (divisor : S) : Except (QuantityError S) (Outcome S) :=
  if same divisor 0 then .error .divisionByZero
  else ofScalarResult (q.bounds.scaleDown divisor) BinaryOperator.div

/-- A power of a voltage or a current. Only squares are defined. -/
def power (q : Quantity S) (exponent : S) : Except (QuantityError S) (Outcome S) :=
  match q.kind.squared with
  | none => .error (.unsupportedOperation .power q.kind)
  | some kind =>
    if !same exponent (ofRat 2) then .ok .undefined
    else do return .quantity (← ofResult kind q.bounds.squareBounds .reference .power)

/-- A resistance at another temperature. -/
def atTemperature (q : Quantity S) (degrees : S) : Except (QuantityError S) (Quantity S) :=
  match q with
  | .resistance r => (r.atTemperature degrees).map .resistance
  | .plain kind _ _ => .error (.unsupportedOperation .atTemperature kind)

end Quantity

end WorstCase
