import WorstCase.Quantity.Error

/-!
# Measures

A **measure** is a mean with a worst-case spread. The spread is known as bounds and, if it can be, as a
relative tolerance: the fraction of the mean by which the bounds lie off it on either side.

A measure is made from either description. `Measure.ofTolerance` computes the bounds from the tolerance;
`Measure.ofBounds` keeps the bounds and recovers the rest (`meanAndTolerance`). Not all bounds have a
relative tolerance: not those around a mean of zero, not those wider than the mean on either side, and,
as a matter of convention, not a nonzero range of a single value, which comes from cancelled tolerances
rather than from an exact value.
-/

namespace WorstCase

variable {S : Type} [Scalar S]

open Scalar

/-- **The mean of a range and its relative tolerance**, if the range has one. -/
def meanAndTolerance (bounds : Interval S) : S × Option S :=
  if same bounds.lower 0 && same bounds.upper 0 then (0, some 0)
  else if same bounds.lower (-bounds.upper) then (0, none)
  else
    let mean := bounds.midpoint
    -- one value that is not zero is left when tolerances cancel, and is not called exact
    if same bounds.lower bounds.upper then (mean, none)
    else
      let tolerance := Scalar.abs ((bounds.upper - mean) / mean)
      if 1 < tolerance then (mean, none) else (mean, some tolerance)

/-- **A mean with a worst-case spread.** -/
structure Measure (S : Type) where
  /-- The nominal value. -/
  mean : S
  /-- The spread as a fraction of the mean, if it can be given so. -/
  tolerance : Option S
  /-- The least and the greatest value. -/
  bounds : Interval S
  deriving DecidableEq

namespace Measure

/-- The measure of a mean and a relative tolerance. For a negative mean the bounds come out in the other
order, so they are put in order. -/
def ofTolerance (mean tolerance : S) : Except (QuantityError S) (Measure S) :=
  if !isFinite mean then .error (.invalidValue mean)
  else if isNaN tolerance || decide (tolerance < 0) || !isFinite tolerance then
    .error (.invalidTolerance tolerance)
  else
    let low := mean * (1 - tolerance)
    let high := mean * (1 + tolerance)
    match Interval.ofBounds (lesser low high) (greater low high) with
    | .ok bounds => .ok ⟨mean, some tolerance, bounds⟩
    | .error fault => .error (.invalidBounds fault)

/-- The measure of a range within bounds, which are kept. -/
def ofBounds (bounds : Interval S) : Except (QuantityError S) (Measure S) :=
  if !isFinite bounds.lower then .error (.invalidValue bounds.lower)
  else if !isFinite bounds.upper then .error (.invalidValue bounds.upper)
  else
    let (mean, tolerance) := meanAndTolerance bounds
    .ok ⟨mean, tolerance, bounds⟩

/-- The measure of the range between two numbers, given in any order. -/
def between (x y : S) : Except (QuantityError S) (Measure S) :=
  match Interval.spanning x y with
  | some bounds => ofBounds bounds
  | none => .error (.invalidValue (if isNaN x then x else y))

/-- The measure of the same mean with another tolerance. -/
def withTolerance (m : Measure S) (tolerance : S) : Except (QuantityError S) (Measure S) :=
  ofTolerance m.mean tolerance

/-- **The measure moved to another mean.** A relative tolerance stays what it is; bounds without one keep
their ratio to the mean. -/
def rescaledTo (m : Measure S) (mean : S) : Except (QuantityError S) (Measure S) :=
  match m.tolerance with
  | some tolerance => ofTolerance mean tolerance
  | none =>
    let ratio := mean / m.mean
    match m.bounds.scale ratio with
    | some bounds => .ok ⟨mean, none, bounds⟩
    | none => .error (.invalidValue ratio)

end Measure

end WorstCase
