import WorstCase.Scalar
import WorstCase.Binary64.Text

/-!
# Rounded scalars

`Binary64` as scalars: each operation is exact and then rounded once to the nearest number.
-/

namespace WorstCase

instance : Scalar Binary64 where
  decidableLT := inferInstance
  decidableLE := inferInstance
  ofRat := Binary64.ofRat
  abs := Binary64.abs
  mulAdd := Binary64.mulAdd
  midpoint := Binary64.midpoint
  isNaN := Binary64.isNaN
  isFinite := Binary64.isFinite

end WorstCase
