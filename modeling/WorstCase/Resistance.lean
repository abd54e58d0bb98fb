import WorstCase.Measure

/-!
# Resistances

A resistance is a measure that holds at a temperature. With a **temperature coefficient** it can be taken
to another one. The value is then computed anew from the resistance at 20 °C, so that shifting a
resistance twice is shifting it once, to the last temperature.

Two resistances combine in series and in parallel, and into the ratio of a voltage divider. A combination
has no coefficient of its own. It holds at a temperature only if its parts share one, and a divider asks
that they do.
-/

namespace WorstCase

/-- **A resistance with a linear temperature model.** -/
structure Resistance (S : Type) where
  /-- The value and its spread. -/
  measure : Measure S
  /-- The temperature coefficient in millionths per °C, if known. -/
  coefficient : Option Int
  /-- The value at 20 °C. -/
  reference : S
  /-- The temperature the value holds at. -/
  temperature : Temperature S
  deriving DecidableEq

namespace Resistance

variable {S : Type} [Scalar S]

open Scalar

/-- A resistance whose mean is its value at 20 °C. -/
def ofMeasure (measure : Measure S) (coefficient : Option Int) (temperature : Temperature S) :
    Except (QuantityError S) (Resistance S) :=
  if measure.mean ≤ (0 : S) then .error (.invalidResistance measure.mean)
  else .ok ⟨measure, coefficient, measure.mean, temperature⟩

/-- A resistance at 20 °C with a relative tolerance. -/
def ofTolerance (mean tolerance : S) (coefficient : Option Int) :
    Except (QuantityError S) (Resistance S) := do
  ofMeasure (← Measure.ofTolerance mean tolerance) coefficient .reference

/-- A resistance at 20 °C between two bounds, given in any order. -/
def between (x y : S) (coefficient : Option Int) : Except (QuantityError S) (Resistance S) := do
  ofMeasure (← Measure.between x y) coefficient .reference

/-- What a coefficient multiplies the reference value by at a temperature. -/
def shiftFactor (coefficient : Int) (degrees : S) : S :=
  mulAdd (ofRat coefficient * ofRat (1 / 1000000)) (degrees - ofRat 20) 1

/-- **The resistance at another temperature**, `R₂₀ · (1 + α · (T - 20 °C))`. -/
def atTemperature (r : Resistance S) (degrees : S) : Except (QuantityError S) (Resistance S) :=
  match r.coefficient with
  | none => .error .missingCoefficient
  | some coefficient =>
    if !isFinite degrees then .error (.invalidValue degrees)
    else
      let value := r.reference * shiftFactor coefficient degrees
      if value ≤ 0 then .error (.invalidResistance value)
      else do
        let measure ← r.measure.rescaledTo value
        return { r with measure, temperature := .celsius degrees }

/-- A combination of two resistances with the given bounds. -/
def combined (r s : Resistance S) (bounds : Interval S) (op : Operator) :
    Except (QuantityError S) (Resistance S) :=
  if !bounds.isFinite then .error (.nonFiniteResult op)
  else do ofMeasure (← Measure.ofBounds bounds) none (r.temperature.combine s.temperature)

/-- Two resistances in series. -/
def series (r s : Resistance S) : Except (QuantityError S) (Resistance S) :=
  combined r s (r.measure.bounds + s.measure.bounds) BinaryOperator.add

/-- Two resistances in parallel. -/
def parallel (r s : Resistance S) : Except (QuantityError S) (Resistance S) :=
  match r.measure.bounds.parallel s.measure.bounds with
  | some bounds => combined r s bounds BinaryOperator.parallel
  | none => .error (.nonFiniteResult BinaryOperator.parallel)

/-- The ratios `lower / (lower + upper)` of a divider at the bounds of its two resistors. -/
def dividerRatios (lower upper : Interval S) : List S :=
  let ratio (l u : S) := l / (l + u)
  [ratio lower.lower upper.lower, ratio lower.lower upper.upper,
   ratio lower.upper upper.lower, ratio lower.upper upper.upper]

/-- The least and the greatest number in a list, or everything from minus to plus infinity if there is no
number in it. -/
def extremes (xs : List S) : S × S :=
  match xs.filter (!isNaN ·) with
  | [] => (-1 / 0, 1 / 0)
  | x :: rest => (rest.foldl lesser x, rest.foldl greater x)

/-- **The worst-case ratio of a voltage divider** with `r` as its lower resistor and `s` as its upper
one, taken over all combinations of bounds. -/
def dividerRatio (r s : Resistance S) : Except (QuantityError S) (Measure S) :=
  if !r.temperature.same s.temperature then
    .error (.temperatureMismatch r.temperature s.temperature)
  else
    let (low, high) := extremes (dividerRatios r.measure.bounds s.measure.bounds)
    match Interval.spanning low high with
    | some bounds => Measure.ofBounds bounds
    | none => .error (.nonFiniteResult BinaryOperator.divider)

/-- The resistance with another tolerance, and all else as it is. -/
def withTolerance (r : Resistance S) (tolerance : S) : Except (QuantityError S) (Resistance S) := do
  return { r with measure := (← r.measure.withTolerance tolerance) }

end Resistance

end WorstCase
