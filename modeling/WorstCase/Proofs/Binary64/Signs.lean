import WorstCase.Proofs.Binary64.Value

/-!
# Signs and magnitudes

Products, quotients and rounding treat the sign by itself: what they make of a number is what they make of
its magnitude, with the sign of the number (`withSign_mul` and those beside it). So a computation that only
scales a number can be followed on magnitudes, where a number is told by the rational that it is nearest to
(`IsNearest.eq_signed`).
-/

namespace WorstCase.Binary64

variable {x y : Binary64} {q : Rat}

/-- A magnitude with a sign. -/
def withSign (negative : Bool) : Binary64 → Binary64
  | .nan => .nan
  | .signed _ rank h => .signed negative rank h

theorem withSign_abs (x : Binary64) : withSign x.isNegative (abs x) = x := by
  cases x <;> rfl

theorem withSign_of_isNegative (h : x.isNegative = false) : withSign false x = x := by
  cases x with
  | nan => rfl
  | signed n r hr => exact congrArg (signed · r hr) h.symm

theorem isNegative_abs (x : Binary64) : (abs x).isNegative = false := by
  cases x <;> rfl

/-- **A product with a number that is not negative** has the sign of the other one. -/
theorem withSign_mul (negative : Bool) (hx : x.isNegative = false) (hy : y.isNegative = false) :
    withSign negative x * y = withSign negative (x * y) := by
  cases x with
  | nan => rfl
  | signed n r hr =>
    cases y with
    | nan => rfl
    | signed m s hs =>
      obtain rfl : n = false := hx
      obtain rfl : m = false := hy
      show mul _ _ = withSign negative (mul _ _)
      simp only [withSign, mul, Bool.xor_false]
      split
      · split <;> rfl
      · rfl

/-- So has a quotient. -/
theorem withSign_div (negative : Bool) (hx : x.isNegative = false) (hy : y.isNegative = false) :
    withSign negative x / y = withSign negative (x / y) := by
  cases x with
  | nan => rfl
  | signed n r hr =>
    cases y with
    | nan => rfl
    | signed m s hs =>
      obtain rfl : n = false := hx
      obtain rfl : m = false := hy
      show div _ _ = withSign negative (div _ _)
      simp only [withSign, div, Bool.xor_false]
      split
      · split <;> rfl
      · split
        · rfl
        · split
          · split <;> rfl
          · rfl

theorem isNegative_mul (hx : x.isNegative = false) (hy : y.isNegative = false) :
    (x * y).isNegative = false := by
  rw [← withSign_of_isNegative hx, withSign_mul false hx hy]
  cases x * y <;> rfl

theorem isNegative_div (hx : x.isNegative = false) (hy : y.isNegative = false) :
    (x / y).isNegative = false := by
  rw [← withSign_of_isNegative hx, withSign_div false hx hy]
  cases x / y <;> rfl

theorem withSign_round (negative : Bool) (x : Binary64) :
    round (withSign negative x) = withSign negative (round x) := by
  cases x with
  | nan => rfl
  | signed n r hr =>
    simp only [withSign, round]
    split <;> rfl

/-- Adding zero changes only zeros. -/
theorem signed_add_zero {rank : Nat} (negative : Bool) (h : rank ≤ infinityRank) (hpos : 0 < rank)
    (hfinite : rank < infinityRank) : signed negative rank h + 0 = signed negative rank h := by
  have hself : ofUnits negative (unitsAt rank) 1 = signed negative rank h := by
    have hnearest : nearestRank (unitsAt rank) 1 = rank := by
      simpa using nearestRank_unitsAt Nat.one_pos rank
    simp [ofUnits, ofRank, hnearest, h]
  have hunits : unitsAt rank ≠ 0 := fun hzero => hpos.ne' (unitsAt_eq_zero.mp hzero)
  show add (signed negative rank h) (signed false 0 (Nat.zero_le _)) = _
  rw [add, if_neg hfinite.ne, if_neg (by decide), signedUnits_zero, Int.add_zero, ofSignedUnits]
  cases negative with
  | false =>
    have hsigned : signedUnits false rank = unitsAt rank := rfl
    have hnonneg : ¬ (unitsAt rank : Int) < 0 := by omega
    rw [hsigned, if_neg (Int.natCast_ne_zero.mpr hunits), decide_eq_false hnonneg, Int.natAbs_natCast]
    exact hself
  | true =>
    have hsigned : signedUnits true rank = -(unitsAt rank : Int) := rfl
    have hneg : -(unitsAt rank : Int) < 0 := by omega
    rw [hsigned, if_neg hneg.ne, decide_eq_true hneg, Int.natAbs_neg, Int.natAbs_natCast]
    exact hself

theorem rankOf_le (q : Rat) : rankOf q ≤ infinityRank := min_le_right _ _

/-- A number that is not negative is told by what it is nearest to. -/
theorem IsNearest.eq_signed (hx : x.IsNearest q) (hsign : x.isNegative = false) (hq : 0 ≤ q) :
    x = signed false (rankOf q) (rankOf_le q) := by
  cases x with
  | nan => cases hx.isNaN
  | signed n r hr =>
    obtain rfl : n = false := hsign
    have hvalue : (unitsAt r / unitsPerOne : Rat) = unitsAt (rankOf q) / unitsPerOne :=
      hx.value.trans (rounded_of_nonneg hq)
    rw [div_left_inj' unitsPerOne_pos.ne', Nat.cast_inj] at hvalue
    have hrank : r = rankOf q :=
      le_antisymm (unitsAt_le_unitsAt.mp hvalue.le) (unitsAt_le_unitsAt.mp hvalue.ge)
    subst hrank
    rfl

end WorstCase.Binary64
