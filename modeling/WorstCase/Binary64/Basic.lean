import WorstCase.Decimal

/-!
# Binary floating point numbers of 64 bits

The numbers the calculator computes with. A number is kept as its sign and its **rank**: how many
representable magnitudes lie strictly below its own. Zero has rank 0, the least positive number rank 1,
and infinity the last rank. The rank is what the low 63 bits of the interchange format spell, so
`ofBits` and `toBits` only move the sign, and the order of magnitudes is the order of ranks.

Every finite magnitude is a whole number of **units** of `2 ^ (-1074)`, the least positive number, and
`unitsAt` counts them. So an exact sum, product or quotient of numbers is a quotient of whole numbers
before it is rounded, and `nearestRank` is the only rounding there is: to the nearest magnitude, a half
to the even one.

All not-a-number patterns are the one value `nan`.
-/

namespace WorstCase

namespace Binary64

/-- The rank of infinity, which is the last. -/
def infinityRank : Nat := 0x7ff0000000000000

end Binary64

/-- **A binary floating point number of 64 bits.** -/
inductive Binary64 where
  /-- The result of an operation that has none. -/
  | nan
  /-- A signed magnitude: zero, a finite number or infinity. -/
  | signed (negative : Bool) (rank : Nat) (rank_le : rank ≤ Binary64.infinityRank)
  deriving DecidableEq

namespace Binary64

/-- The magnitude of a given rank; a rank past the last one is infinity's. -/
def ofRank (negative : Bool) (rank : Nat) : Binary64 :=
  .signed negative (min rank infinityRank) (Nat.min_le_right _ _)

/-- Infinity, of either sign. -/
def infinity (negative : Bool) : Binary64 := .signed negative infinityRank (Nat.le_refl _)

/-- Zero, of either sign. -/
def zero (negative : Bool) : Binary64 := .signed negative 0 (Nat.zero_le _)

/-- How many ranks a binade has, `2 ^ 52`. -/
def binade : Nat := 0x10000000000000

/-- How many units of `2 ^ (-1074)` the magnitude of a rank is. The ranks of one binade lie evenly
spaced, each binade twice as wide as the one before; the first two share their spacing. -/
def unitsAt (rank : Nat) : Nat :=
  (if rank < binade then rank else binade + rank % binade) <<< (rank / binade - 1)

/-- **The rank nearest to a quotient of units**, a half going to the even rank. The binade's spacing is
`2 ^ k` units, chosen so that the rounded count of spacings has 53 binary digits at most. -/
def nearestRank (num den : Nat) : Nat :=
  let k := Nat.log2 (num / den) - 52
  k * binade + roundDiv .toEven num (den <<< k)

/-- How many units make one, `2 ^ 1074`. -/
def unitsPerOne : Nat := 1 <<< 1074

/-- The number nearest to a signed quotient of units. -/
def ofUnits (negative : Bool) (num den : Nat) : Binary64 :=
  ofRank negative (nearestRank num den)

/-! ## Interchange format -/

/-- What a minus sign adds to the bits, `2 ^ 63`. -/
def signBit : Nat := 0x8000000000000000

/-- The number that 64 bits, read as a whole number, stand for. -/
def ofBits (bits : Nat) : Binary64 :=
  let rank := bits % signBit
  if h : rank ≤ infinityRank then .signed (bits / signBit % 2 == 1) rank h else .nan

/-- The bits of a number, read as a whole number. -/
def toBits : Binary64 → Nat
  | .nan => infinityRank + binade / 2
  | .signed negative rank _ => (if negative then signBit else 0) + rank

/-! ## Classification and order -/

/-- Whether the value is no number. -/
def isNaN : Binary64 → Bool
  | .nan => true
  | .signed .. => false

/-- Whether the value is a number other than the infinities. -/
def isFinite : Binary64 → Bool
  | .nan => false
  | .signed _ rank _ => rank < infinityRank

/-- Whether the value is one of the infinities. -/
def isInfinite : Binary64 → Bool
  | .nan => false
  | .signed _ rank _ => rank == infinityRank

/-- Whether the value is a zero of either sign. -/
def isZero : Binary64 → Bool
  | .nan => false
  | .signed _ rank _ => rank == 0

/-- Whether the value carries a minus sign. -/
def isNegative : Binary64 → Bool
  | .nan => false
  | .signed negative _ _ => negative

/-- The place of a signed rank on the line of numbers. The two zeros share theirs. -/
def place (negative : Bool) (rank : Nat) : Int :=
  if negative then -rank else rank

/-- Strict order of numbers; `nan` is not ordered. -/
def less : Binary64 → Binary64 → Bool
  | .signed n r _, .signed m s _ => place n r < place m s
  | _, _ => false

/-- Order of numbers; `nan` is not ordered. -/
def lessOrEqual : Binary64 → Binary64 → Bool
  | .signed n r _, .signed m s _ => place n r ≤ place m s
  | _, _ => false

instance : LT Binary64 := ⟨fun x y => less x y = true⟩
instance : LE Binary64 := ⟨fun x y => lessOrEqual x y = true⟩

instance (x y : Binary64) : Decidable (x < y) := inferInstanceAs (Decidable (less x y = true))
instance (x y : Binary64) : Decidable (x ≤ y) := inferInstanceAs (Decidable (lessOrEqual x y = true))

/-- **The total order**: minus zero stands below zero, and `nan` above every number. -/
def totalLessOrEqual : Binary64 → Binary64 → Bool
  | _, .nan => true
  | .nan, .signed .. => false
  | .signed n r _, .signed m s _ =>
    place n r < place m s || (place n r == place m s && (n || !m))

end Binary64

end WorstCase
