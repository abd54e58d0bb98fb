import WorstCase.Scalar

/-!
# Intervals

A closed range of numbers, given by its bounds, and the arithmetic on bounds that worst-case analysis
rests on.

Sums and differences are exact: the least sum is the sum of the least. Products, quotients and squares
**pair the bounds** instead of trying every combination, lower with lower for a product and lower with
upper for a quotient, and then put the two results in order. For two ranges without negative numbers the
pairs are the extremes. Otherwise the extremes may be elsewhere, and the pairing is an approximation.

An interval is just its two bounds. `Interval.ofBounds` accepts them only in order, and says which of
the two is at fault; `Interval.spanning` takes them in any order. The sums and differences are bounds
that were added, and where infinities cancel a bound may be no number.
-/

namespace WorstCase

/-- **A closed range of numbers.** -/
structure Interval (S : Type) where
  /-- The lower bound. -/
  lower : S
  /-- The upper bound. -/
  upper : S
  deriving DecidableEq

/-- Why two bounds do not make an interval. -/
inductive BoundsError (S : Type) where
  /-- The lower bound is no number. -/
  | lowerNotNumber (lower upper : S)
  /-- The upper bound is no number. -/
  | upperNotNumber (lower upper : S)
  /-- The lower bound exceeds the upper one. -/
  | reversed (lower upper : S)
  deriving DecidableEq

/-- Which side of zero a range lies on. -/
inductive Side where
  /-- No value is negative. -/
  | nonNegative
  /-- No value is positive, and some are negative. -/
  | nonPositive
  /-- There are values on both sides. -/
  | straddling
  deriving DecidableEq, Repr

namespace Interval

variable {S : Type} [Scalar S]

open Scalar

/-- The interval with the given bounds. -/
def ofBounds (lower upper : S) : Except (BoundsError S) (Interval S) :=
  if isNaN lower then .error (.lowerNotNumber lower upper)
  else if isNaN upper then .error (.upperNotNumber lower upper)
  else if lower ≤ upper then .ok ⟨lower, upper⟩
  else .error (.reversed lower upper)

/-- The interval between two numbers, whichever is greater. -/
def spanning (x y : S) : Option (Interval S) :=
  if isNaN x || isNaN y then none else some ⟨lesser x y, greater x y⟩

/-- The middle of the range. -/
def midpoint (i : Interval S) : S := Scalar.midpoint i.lower i.upper

/-- Half the width of the range. -/
def halfWidth (i : Interval S) : S := (i.upper - i.lower) / ofRat 2

/-- Whether both bounds are within range. -/
def isFinite (i : Interval S) : Bool := Scalar.isFinite i.lower && Scalar.isFinite i.upper

/-- Whether the range has more than one value. -/
def hasSpread (i : Interval S) : Bool := decide (i.lower < i.upper)

/-- Whether one of the bounds is zero. -/
def hasZeroBound (i : Interval S) : Bool := same i.lower 0 || same i.upper 0

/-- The side of zero the range lies on. -/
def side (i : Interval S) : Side :=
  if (0 : S) ≤ i.lower then .nonNegative
  else if i.upper ≤ (0 : S) then .nonPositive
  else .straddling

/-- The sums of the bounds. -/
protected def add (i j : Interval S) : Interval S := ⟨i.lower + j.lower, i.upper + j.upper⟩

/-- The differences of opposite bounds. -/
protected def sub (i j : Interval S) : Interval S := ⟨i.lower - j.upper, i.upper - j.lower⟩

instance : Add (Interval S) := ⟨Interval.add⟩
instance : Sub (Interval S) := ⟨Interval.sub⟩

/-- The products of like bounds, in order. -/
def mulBounds (i j : Interval S) : Option (Interval S) :=
  spanning (i.lower * j.lower) (i.upper * j.upper)

/-- The quotients of opposite bounds, in order. -/
def divBounds (i j : Interval S) : Option (Interval S) :=
  spanning (i.lower / j.upper) (i.upper / j.lower)

/-- The squares of the bounds, in order. -/
def squareBounds (i : Interval S) : Interval S :=
  let low := i.lower * i.lower
  let high := i.upper * i.upper
  ⟨lesser low high, greater low high⟩

/-- The bounds times a number. -/
def scale (i : Interval S) (factor : S) : Option (Interval S) :=
  spanning (i.lower * factor) (i.upper * factor)

/-- The bounds divided by a number. -/
def scaleDown (i : Interval S) (divisor : S) : Option (Interval S) :=
  spanning (i.lower / divisor) (i.upper / divisor)

/-- The bounds moved by a number. -/
def shift (i : Interval S) (offset : S) : Option (Interval S) :=
  spanning (i.lower + offset) (i.upper + offset)

/-- What two resistors in parallel come to, `a * b / (a + b)`, at like bounds. -/
def parallel (i j : Interval S) : Option (Interval S) :=
  spanning (i.lower * j.lower / (i.lower + j.lower)) (i.upper * j.upper / (i.upper + j.upper))

end Interval

end WorstCase
