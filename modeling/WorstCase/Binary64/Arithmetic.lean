import WorstCase.Binary64.Basic

/-!
# Arithmetic on binary floating point numbers

Each operation is **exact and then rounded once**: its exact result is a quotient of units, which
`ofUnits` takes to the nearest number. What is left to say here is the sign of a zero and what the
infinities do.

Two zeros of unlike sign, and two numbers that cancel, sum to zero without a sign. An operation without
a result, such as the difference of two like infinities, is `nan`.
-/

namespace WorstCase.Binary64

/-- The number of the other sign. -/
def neg : Binary64 → Binary64
  | .nan => .nan
  | .signed negative rank h => .signed (!negative) rank h

/-- The magnitude, without a sign. -/
def abs : Binary64 → Binary64
  | .nan => .nan
  | .signed _ rank h => .signed false rank h

/-- A magnitude in units, with its sign. -/
def signedUnits (negative : Bool) (rank : Nat) : Int :=
  if negative then -(unitsAt rank : Int) else unitsAt rank

/-- The number nearest to `num / den` units, for a signed `num`. An exact zero has the sign given. -/
def ofSignedUnits (zeroNegative : Bool) (num : Int) (den : Nat) : Binary64 :=
  if num = 0 then zero zeroNegative else ofUnits (num < 0) num.natAbs den

/-- The sum. -/
def add : Binary64 → Binary64 → Binary64
  | .signed n r _, .signed m s _ =>
    if r = infinityRank then
      -- infinities of unlike sign do not cancel
      if s = infinityRank ∧ n ≠ m then .nan else infinity n
    else if s = infinityRank then infinity m
    else ofSignedUnits (n && m) (signedUnits n r + signedUnits m s) 1
  | _, _ => .nan

/-- The difference. -/
def sub (x y : Binary64) : Binary64 := add x (neg y)

/-- The product. -/
def mul : Binary64 → Binary64 → Binary64
  | .signed n r _, .signed m s _ =>
    if r = infinityRank ∨ s = infinityRank then
      if r = 0 ∨ s = 0 then .nan else infinity (n ^^ m)
    else ofUnits (n ^^ m) (unitsAt r * unitsAt s) unitsPerOne
  | _, _ => .nan

/-- The quotient. A number over zero is infinite, and zero over zero is `nan`. -/
def div : Binary64 → Binary64 → Binary64
  | .signed n r _, .signed m s _ =>
    if r = infinityRank then
      if s = infinityRank then .nan else infinity (n ^^ m)
    else if s = infinityRank then zero (n ^^ m)
    else if s = 0 then
      if r = 0 then .nan else infinity (n ^^ m)
    else ofUnits (n ^^ m) (unitsAt r * unitsPerOne) (unitsAt s)
  | _, _ => .nan

/-- **The product plus a summand, rounded once.** -/
def mulAdd : Binary64 → Binary64 → Binary64 → Binary64
  | .signed n r _, .signed m s _, .signed l t _ =>
    let negative := n ^^ m
    if r = infinityRank ∨ s = infinityRank then
      if r = 0 ∨ s = 0 then .nan
      else if t = infinityRank ∧ l ≠ negative then .nan
      else infinity negative
    else if t = infinityRank then infinity l
    else
      -- the product counts squares of units, so the summand is brought to these
      ofSignedUnits (negative && l)
        (signedUnits n r * signedUnits m s + signedUnits l t * unitsPerOne) unitsPerOne
  | _, _, _ => .nan

/-- The number nearest to a rational. -/
def ofRat (q : Rat) : Binary64 :=
  ofUnits (q.num < 0) (q.num.natAbs * unitsPerOne) q.den

instance : Zero Binary64 := ⟨zero false⟩
instance : One Binary64 := ⟨.signed false 0x3ff0000000000000 (by decide)⟩
instance : Neg Binary64 := ⟨neg⟩
instance : Add Binary64 := ⟨add⟩
instance : Sub Binary64 := ⟨sub⟩
instance : Mul Binary64 := ⟨mul⟩
instance : Div Binary64 := ⟨div⟩

/-- The greatest finite number. -/
def greatest : Binary64 := ofRank false (infinityRank - 1)

/-- The least positive number of full precision, `2 ^ (-1022)`. -/
def leastNormal : Binary64 := ofRank false binade

/-- **The number halfway between two numbers**, without overflow on the way: two numbers whose sum
might overflow are halved first, unless one of them is so small that halving it would lose digits. -/
def midpoint (a b : Binary64) : Binary64 :=
  let two := ofRat 2
  let half := greatest / two
  let low := leastNormal * two
  if abs a ≤ half ∧ abs b ≤ half then (a + b) / two
  else if abs a < low then a + b / two
  else if abs b < low then a / two + b
  else a / two + b / two

/-- The nearest whole number, a half going away from zero. The sign stays, also on a zero. -/
def round : Binary64 → Binary64
  | .nan => .nan
  | .signed negative rank h =>
    if rank = infinityRank then .signed negative rank h
    else ofUnits negative (roundDiv .up (unitsAt rank) unitsPerOne * unitsPerOne) 1

end WorstCase.Binary64
