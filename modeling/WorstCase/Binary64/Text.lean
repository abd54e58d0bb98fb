import WorstCase.Binary64.Arithmetic

/-!
# Reading and printing binary floating point numbers

`ofDecimal` reads a decimal to the nearest number. `shortest` goes the other way: **the decimal of the
fewest digits that reads back to the same number**, and of those the one nearest to it. `text` prints
that decimal in positional notation, and `fixedText` a given number of places, rounded from the exact
value.

A decimal reads back to a magnitude when it lies between the two midpoints towards the neighbouring
magnitudes; the midpoints themselves read back to it only if its rank is even. So to find the shortest
decimal it is enough to try the two neighbours of the value on the grids of one digit, two digits, and
so on: if a grid has a point between the midpoints, one of these two is such a point.
-/

namespace WorstCase.Binary64

/-- The number nearest to a signed decimal. A decimal far outside the range of numbers is told by its
exponent alone, so that no large power is computed. -/
def ofDecimal (negative : Bool) (d : Decimal) : Binary64 :=
  if d.coefficient = 0 then zero negative
  else match d.exponent with
    | .ofNat e =>
      -- the greatest number has 309 digits
      if e > 400 then infinity negative
      else ofUnits negative (d.coefficient * powerOfTen e * unitsPerOne) 1
    | .negSucc k =>
      -- half the least positive number is above 10 ^ (-324)
      if k > 400 + Nat.log2 d.coefficient then zero negative
      else ofUnits negative (d.coefficient * unitsPerOne) (powerOfTen (k + 1))

/-- The place of the leading decimal digit of a positive magnitude in units: `e` if it is at least
`10 ^ e` and less than `10 ^ (e + 1)`. Scaled by `10 ^ 324` every positive magnitude is at least one. -/
def leadingPlace (units : Nat) : Int :=
  (toString (units * powerOfTen 324 / unitsPerOne)).length - 1 - 324

/-- A magnitude in units as a quotient that counts steps of `10 ^ place`. -/
def gridQuotient (units : Nat) (place : Int) : Nat × Nat :=
  match place with
  | .ofNat p => (units, unitsPerOne * powerOfTen p)
  | .negSucc k => (units * powerOfTen (k + 1), unitsPerOne)

/-- Whether `count · 10 ^ place` reads back to the magnitude of a rank. The midpoints are compared in
half units, hence the factors of two. -/
def readsBack (rank count : Nat) (place : Int) : Bool :=
  let low := gridQuotient (unitsAt (rank - 1) + unitsAt rank) place
  let high := gridQuotient (unitsAt rank + unitsAt (rank + 1)) place
  if rank % 2 = 0 then low.1 ≤ 2 * count * low.2 && 2 * count * high.2 ≤ high.1
  else low.1 < 2 * count * low.2 && 2 * count * high.2 < high.1

/-- The neighbour of a magnitude on the grid of `10 ^ place` that reads back to it; of two, the nearer
one, and the greater of two equally near. -/
def gridNeighbour? (rank : Nat) (place : Int) : Option Nat :=
  let (num, den) := gridQuotient (unitsAt rank) place
  let below := num / den
  let above := below + 1
  match readsBack rank below place, readsBack rank above place with
  | true, true => some (if 2 * (num % den) < den then below else above)
  | true, false => some below
  | false, true => some above
  | false, false => none

/-- Searches the grids of more and more digits, from the grid of `10 ^ place` on. Seventeen digits are
always enough, so the last grid searched is taken as it is. -/
def shortestFrom (rank : Nat) : Nat → Int → Decimal
  | 0, place =>
    let (num, den) := gridQuotient (unitsAt rank) place
    ⟨roundDiv .up num den, place⟩
  | more + 1, place =>
    match gridNeighbour? rank place with
    | some count => ⟨count, place⟩
    | none => shortestFrom rank more (place - 1)

/-- A decimal without trailing zeros in its coefficient, as far as `steps` of them. -/
def dropZeros : Nat → Decimal → Decimal
  | 0, d => d
  | steps + 1, d =>
    if d.coefficient ≠ 0 ∧ d.coefficient % 10 = 0 then
      dropZeros steps ⟨d.coefficient / 10, d.exponent + 1⟩
    else d

/-- **The shortest decimal that reads back** to the finite magnitude of a rank. -/
def shortest (rank : Nat) : Decimal :=
  if rank = 0 then ⟨0, 0⟩
  else dropZeros 17 (shortestFrom rank 16 (leadingPlace (unitsAt rank)))

/-- A sign in front of the text of a magnitude. -/
def signText (negative : Bool) : String := if negative then "-" else ""

/-- The text of a number in its shortest positional notation: whole numbers have no decimal point. -/
def text : Binary64 → String
  | .nan => "NaN"
  | .signed negative rank _ =>
    signText negative ++ if rank = infinityRank then "inf" else (shortest rank).text

/-- The text of a number with a fixed count of places, rounded from the exact value, a half to the even
digit. -/
def fixedText (places : Nat) : Binary64 → String
  | .nan => "NaN"
  | .signed negative rank _ =>
    signText negative ++
      if rank = infinityRank then "inf"
      else Decimal.fixedText (roundDiv .toEven (unitsAt rank * powerOfTen places) unitsPerOne) places

/-- **A number rounded to `digits` significant decimal digits**, a half to the even digit, and read
back. -/
def roundSignificant (digits : Nat) : Binary64 → Binary64
  | .nan => .nan
  | .signed negative rank h =>
    if rank = 0 ∨ rank = infinityRank then .signed negative rank h
    else
      let place := leadingPlace (unitsAt rank) - (digits - 1 : Nat)
      let (num, den) := gridQuotient (unitsAt rank) place
      ofDecimal negative ⟨roundDiv .toEven num den, place⟩

/-- Whether two numbers agree up to rounding noise: equal, or no further apart than `10 ^ (-10)`, taken
absolutely or relative to the lesser magnitude. -/
def isClose (a b : Binary64) : Bool :=
  if a ≤ b ∧ b ≤ a then true
  else if a.isInfinite || b.isInfinite || a.isNaN || b.isNaN then false
  else
    let noise := ofDecimal false ⟨1, -10⟩
    let difference := abs (a - b)
    let least := if abs b < abs a then abs b else abs a
    difference ≤ noise * least || difference ≤ noise

end WorstCase.Binary64
