/-!
# The arithmetic that quantities are written over

The rules for combining toleranced quantities do not depend on how numbers are rounded. They are written
once, over a **scalar**, and read twice: over `Binary64`, where every operation rounds and may overflow,
which is how the calculator runs, and over the rationals, where nothing is lost, which is how the rules
are meant.

The class asks for operations only. What holds of them differs between the two readings: over the
rationals `isNaN` is never true and every number is finite.
-/

namespace WorstCase

/-- **Numbers that quantities can be computed with.** -/
class Scalar (S : Type) extends Zero S, One S, Neg S, Add S, Sub S, Mul S, Div S, LT S, LE S where
  /-- The order can be tested. -/
  decidableLT : DecidableRel (fun x y : S => x < y)
  /-- The weak order can be tested. It fails between anything and a value that is no number. -/
  decidableLE : DecidableRel (fun x y : S => x ≤ y)
  /-- The scalar nearest to a rational constant. -/
  ofRat : Rat → S
  /-- The magnitude. -/
  abs : S → S
  /-- `mulAdd x y z` is `x * y + z`, rounded once. -/
  mulAdd : S → S → S → S
  /-- The scalar halfway between two, even where their sum is out of range. -/
  midpoint : S → S → S
  /-- Whether the value is the result of an operation that has none. -/
  isNaN : S → Bool
  /-- Whether the value is a number within range. -/
  isFinite : S → Bool

namespace Scalar

variable {S : Type} [Scalar S]

instance (x y : S) : Decidable (x < y) := Scalar.decidableLT x y
instance (x y : S) : Decidable (x ≤ y) := Scalar.decidableLE x y

/-- Whether two scalars are the same number. Zeros of unlike sign are; what is no number equals nothing. -/
def same (x y : S) : Bool := decide (x ≤ y) && decide (y ≤ x)

/-- The lesser of two scalars. Where one is no number, the other. -/
def lesser (x y : S) : S := if y < x ∨ isNaN x then y else x

/-- The greater of two scalars. Where one is no number, the other. -/
def greater (x y : S) : S := if x < y ∨ isNaN x then y else x

end Scalar

end WorstCase
