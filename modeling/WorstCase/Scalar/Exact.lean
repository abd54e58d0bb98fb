import Mathlib
import WorstCase.Scalar

/-!
# Exact scalars

The rationals as scalars: no operation rounds, overflows or lacks a result, except that a quotient by
zero is zero. Statements about what the rules for quantities mean, rather than how they are rounded, are
made over these.
-/

namespace WorstCase

instance : Scalar Rat where
  decidableLT := inferInstance
  decidableLE := inferInstance
  ofRat q := q
  abs q := if q < 0 then -q else q
  mulAdd x y z := x * y + z
  midpoint x y := (x + y) / 2
  isNaN _ := false
  isFinite _ := true

namespace Scalar

@[simp] theorem ofRat_rat (q : Rat) : (ofRat q : Rat) = q := rfl

@[simp] theorem isNaN_rat (q : Rat) : isNaN q = false := rfl

@[simp] theorem isFinite_rat (q : Rat) : isFinite q = true := rfl

@[simp] theorem midpoint_rat (x y : Rat) : midpoint x y = (x + y) / 2 := rfl

@[simp] theorem mulAdd_rat (x y z : Rat) : mulAdd x y z = x * y + z := rfl

end Scalar

end WorstCase
