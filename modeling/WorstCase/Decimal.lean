/-!
# Decimal numbers

A **decimal** is a whole coefficient times a power of ten. It is what a number literal says and what a
printed number shows, so reading and printing meet here: `Decimal.text` writes a decimal out in
positional notation, however long that gets, and `Decimal.fixedText` shows exactly as many places as
asked for.

`roundDiv` is the one place where a quotient is rounded to a whole number. Everything that rounds in
this library rounds through it, so `roundDiv_mul_le` and `le_roundDiv_mul`, which say that the result
is at most half a unit away, are the only facts about rounding the rest depends on.
-/

namespace WorstCase

/-- Where an exact half goes. -/
inductive Tie where
  /-- To the even neighbour. -/
  | toEven
  /-- To the greater neighbour. -/
  | up
  deriving DecidableEq, Repr

/-- **The whole number nearest to a quotient.** A half goes where the tie rule says. -/
def roundDiv (tie : Tie) (num den : Nat) : Nat :=
  if 2 * (num % den) < den then num / den
  else if den < 2 * (num % den) then num / den + 1
  else match tie with
    | .toEven => num / den + num / den % 2
    | .up => num / den + 1

/-- Rounding moves a quotient up by half a unit at most. -/
theorem roundDiv_mul_le (tie : Tie) (num den : Nat) :
    2 * (roundDiv tie num den * den) ≤ 2 * num + den := by
  have whole := Nat.div_add_mod num den
  have stay : num / den * den = den * (num / den) := Nat.mul_comm _ _
  have step : (num / den + 1) * den = den * (num / den) + den := by
    rw [Nat.add_mul, Nat.one_mul, Nat.mul_comm]
  have even : (num / den + num / den % 2) * den ≤ (num / den + 1) * den :=
    Nat.mul_le_mul_right _ (by omega)
  unfold roundDiv
  split
  · omega
  · split
    · omega
    · split <;> omega

/-- Rounding moves a quotient down by half a unit at most. -/
theorem le_roundDiv_mul (tie : Tie) (num : Nat) {den : Nat} (pos : 0 < den) :
    2 * num ≤ 2 * (roundDiv tie num den * den) + den := by
  have whole := Nat.div_add_mod num den
  have rest := Nat.mod_lt num pos
  have stay : num / den * den = den * (num / den) := Nat.mul_comm _ _
  have step : (num / den + 1) * den = den * (num / den) + den := by
    rw [Nat.add_mul, Nat.one_mul, Nat.mul_comm]
  have even : num / den * den ≤ (num / den + num / den % 2) * den :=
    Nat.mul_le_mul_right _ (by omega)
  unfold roundDiv
  split
  · omega
  · split
    · omega
    · split <;> omega

/-- A power of ten. -/
def powerOfTen (n : Nat) : Nat := Nat.pow 10 n

/-- **A decimal number**: `coefficient · 10 ^ exponent`. -/
structure Decimal where
  /-- The digits, read as a whole number. -/
  coefficient : Nat
  /-- The power of ten that the digits count. -/
  exponent : Int
  deriving DecidableEq, Repr

namespace Decimal

/-- A number of `coefficient` units of the last of so many places: `1205` with two places is `12.05`. No
place is dropped, so the last ones may be zeros. -/
def fixedText (coefficient places : Nat) : String :=
  let whole := toString (coefficient / powerOfTen places)
  if places = 0 then whole
  else
    let fraction := toString (coefficient % powerOfTen places)
    whole ++ "." ++ "".pushn '0' (places - fraction.length) ++ fraction

/-- **Positional notation**: no power of ten is written, zeros fill the gap to the decimal point
instead. -/
def text (d : Decimal) : String :=
  match d.exponent with
  | .ofNat e => toString (d.coefficient * powerOfTen e)
  | .negSucc k => fixedText d.coefficient (k + 1)

end Decimal

end WorstCase
