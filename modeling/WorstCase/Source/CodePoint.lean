/-!
# Code points

Classes of characters, each given by its **runs**: the code points of the class from a lowest to a highest
one.

The classes are those of version 17 of the Unicode standard.
-/

namespace WorstCase.CodePoint

/-- The lowest and the highest code point of a run of characters. -/
abbrev Run := Nat × Nat

/-- Whether a code point lies in one of the runs. -/
def isIn (runs : List Run) (code : Nat) : Bool :=
  runs.any fun run => decide (run.1 ≤ code) && decide (code ≤ run.2)

end WorstCase.CodePoint
