import WorstCase.Proofs.Quantity.Coherence

/-!
# Spanning a range and recovering it are inverse

A mean and a relative tolerance span a range, and a range gives back a mean and,
if it can, a tolerance. Over the rationals each undoes the other. Which ranges
give back a tolerance is a matter of where zero lies: half the width of a range
exceeds its mean exactly when zero is strictly inside
(`Interval.one_lt_spread_iff`). Of the other ranges only a nonzero single value
goes without, by convention.

The two ends of the scale differ for that reason. A tolerance of 100 % puts zero
on a bound, where it is still given back; no tolerance at all spans a single
value, and is not.
-/

namespace WorstCase

namespace Interval

variable {i : Interval Rat}

/-! ## What a range gives back -/

/-- The mean of a range is its middle, whatever becomes of the tolerance. -/
theorem mean_recovered (i : Interval Rat) :
    (meanAndTolerance i).1 = (i.lower + i.upper) / 2 := by
  have hcases := meanAndTolerance_cases i
  simp only [Scalar.same_rat] at hcases
  rcases hcases with ⟨⟨hlower, hupper⟩, heq⟩ | ⟨-, ⟨hopposite, heq⟩ | ⟨-, ⟨-, heq⟩ | ⟨-, -, heq⟩⟩⟩
  · rw [heq, hlower, hupper, add_zero, zero_div]
  · rw [heq, hopposite, neg_add_cancel, zero_div]
  · rw [heq]
    rfl
  · rw [heq]
    rfl

/-- The bounds of a range are further apart than they reach together when they
are on the two sides of zero. -/
theorem abs_add_lt_iff (hi : i.lower ≤ i.upper) :
    |i.lower + i.upper| < |i.upper - i.lower| ↔ i.lower < 0 ∧ 0 < i.upper := by
  rw [abs_of_nonneg (sub_nonneg.mpr hi), abs_lt]
  constructor
  · rintro ⟨hlow, hhigh⟩
    exact ⟨by linarith, by linarith⟩
  · rintro ⟨hlow, hhigh⟩
    exact ⟨by linarith, by linarith⟩

/-- **The spread of a range exceeds its mean** exactly when zero is strictly
inside. -/
theorem one_lt_spread_iff (hi : i.lower ≤ i.upper) (hmiddle : (i.lower + i.upper) / 2 ≠ 0) :
    1 < |(i.upper - (i.lower + i.upper) / 2) / ((i.lower + i.upper) / 2)|
      ↔ i.lower < 0 ∧ 0 < i.upper := by
  have hhalf : i.upper - (i.lower + i.upper) / 2 = (i.upper - i.lower) / 2 := by ring
  have hsum : i.lower + i.upper ≠ 0 := fun h => hmiddle (by rw [h, zero_div])
  rw [hhalf, div_div_div_cancel_right₀ two_ne_zero, abs_div, one_lt_div (abs_pos.mpr hsum),
    abs_add_lt_iff hi]

/-- **The tolerance that a range gives back**, with its conditions said by where
zero lies. -/
theorem tolerance_recovered (hi : i.lower ≤ i.upper) :
    (meanAndTolerance i).2
      = if i.lower = 0 ∧ i.upper = 0 then some 0
        else if i.lower = i.upper ∨ i.lower < 0 ∧ 0 < i.upper then none
        else some |(i.upper - (i.lower + i.upper) / 2) / ((i.lower + i.upper) / 2)| := by
  have hmidpoint : i.midpoint = (i.lower + i.upper) / 2 := rfl
  have hcases := meanAndTolerance_cases i
  simp only [Scalar.same_rat, Scalar.abs_rat, hmidpoint] at hcases
  rcases hcases with ⟨hzero, heq⟩ | ⟨hzero, ⟨hopposite, heq⟩ | ⟨hopposite, hcases⟩⟩
  · rw [heq, if_pos hzero]
  · -- opposite bounds that are not zero have it between them
    have hlow : i.lower < 0 :=
      lt_of_le_of_ne (by linarith) fun h => hzero ⟨h, by linarith⟩
    rw [heq, if_neg hzero, if_pos (.inr ⟨hlow, by linarith⟩)]
  · have hmiddle : (i.lower + i.upper) / 2 ≠ 0 := fun h => hopposite (by linarith)
    have hwide := one_lt_spread_iff hi hmiddle
    rcases hcases with ⟨hsingle | hspread, heq⟩ | ⟨hsingle, hspread, heq⟩
    · rw [heq, if_neg hzero, if_pos (.inl hsingle)]
    · rw [heq, if_neg hzero, if_pos (.inr (hwide.mp hspread))]
    · rw [heq, if_neg hzero, if_neg (not_or.mpr ⟨hsingle, fun h => hspread (hwide.mpr h)⟩)]

/-! ## What a mean and a tolerance span -/

variable {mean tolerance : Rat}

/-- The range around a mean reaches as far on one side as on the other. -/
theorem around_eq (ht : 0 ≤ tolerance) :
    around mean tolerance = ⟨mean - |mean| * tolerance, mean + |mean| * tolerance⟩ := by
  rcases lt_trichotomy mean 0 with hneg | rfl | hpos
  · rw [around_of_neg hneg ht, abs_of_neg hneg]
    congr 1 <;> ring
  · simp [around]
  · rw [around_of_pos hpos ht, abs_of_pos hpos]
    congr 1 <;> ring

section Around

variable (hmean : mean ≠ 0) (ht : 0 ≤ tolerance)

include hmean ht

/-- The range around a mean is a single value where the tolerance is zero. -/
theorem around_single_iff :
    (around mean tolerance).lower = (around mean tolerance).upper ↔ tolerance = 0 := by
  rw [around_eq ht]
  constructor
  · intro h
    have hzero : |mean| * tolerance = 0 := by linarith
    exact (mul_eq_zero.mp hzero).resolve_left (abs_pos.mpr hmean).ne'
  · rintro rfl
    simp

/-- It has zero strictly inside where the tolerance exceeds 100 %. -/
theorem around_inside_iff :
    (around mean tolerance).lower < 0 ∧ 0 < (around mean tolerance).upper ↔ 1 < tolerance := by
  rw [around_eq ht]
  show mean - |mean| * tolerance < 0 ∧ 0 < mean + |mean| * tolerance ↔ 1 < tolerance
  rw [sub_neg, ← neg_lt_iff_pos_add, and_comm, ← abs_lt,
    lt_mul_iff_one_lt_right (abs_pos.mpr hmean)]

/-- **A range around a mean other than zero gives the mean back**, and with it
the tolerance, if that is positive and 100 % at most. -/
theorem meanAndTolerance_around :
    meanAndTolerance (around mean tolerance)
      = (mean, if 0 < tolerance ∧ tolerance ≤ 1 then some tolerance else none) := by
  have hsum : (around mean tolerance).lower + (around mean tolerance).upper = 2 * mean := by
    rw [around_eq ht]
    ring
  have hmiddle : ((around mean tolerance).lower + (around mean tolerance).upper) / 2 = mean := by
    rw [hsum, mul_div_cancel_left₀ _ two_ne_zero]
  have hzero : ¬((around mean tolerance).lower = 0 ∧ (around mean tolerance).upper = 0) := by
    rintro ⟨hlow, hhigh⟩
    rw [hlow, hhigh] at hmiddle
    exact hmean (by rw [← hmiddle, add_zero, zero_div])
  have hspread : |((around mean tolerance).upper - mean) / mean| = tolerance := by
    rw [around_eq ht, add_sub_cancel_left, abs_div, abs_mul, abs_abs,
      mul_div_cancel_left₀ _ (abs_pos.mpr hmean).ne', abs_of_nonneg ht]
  have hwithout : (around mean tolerance).lower = (around mean tolerance).upper
      ∨ (around mean tolerance).lower < 0 ∧ 0 < (around mean tolerance).upper
      ↔ ¬(0 < tolerance ∧ tolerance ≤ 1) := by
    rw [around_single_iff hmean ht, around_inside_iff hmean ht, not_and_or, not_lt, not_le]
    exact or_congr_left ⟨fun h => h.le, fun h => h.antisymm ht⟩
  refine Prod.ext ((mean_recovered _).trans hmiddle) ?_
  rw [tolerance_recovered min_le_max, if_neg hzero, hmiddle, hspread]
  simp only [hwithout, ite_not]

end Around

end Interval

/-- **Spanning and recovering are inverse.** A range gives back a tolerance
exactly when it is zero alone or has more than one value and not zero strictly
inside, and then its mean and its tolerance span it. And a mean other than zero
is given back by the range it spans with any tolerance, together with the
tolerance if that is positive and 100 % at most, and without one otherwise. -/
theorem Measure.recovering_inverts_spanning :
    (∀ i : Interval Rat, i.lower ≤ i.upper →
      ((∃ t, (meanAndTolerance i).2 = some t)
        ↔ i.lower = 0 ∧ i.upper = 0 ∨ i.lower ≠ i.upper ∧ ¬(i.lower < 0 ∧ 0 < i.upper))
      ∧ ∀ mean t, meanAndTolerance i = (mean, some t) →
        Measure.ofTolerance mean t = .ok ⟨mean, some t, i⟩)
    ∧ ∀ mean t : Rat, mean ≠ 0 → 0 ≤ t →
      ∃ m, Measure.ofTolerance mean t = .ok m
        ∧ meanAndTolerance m.bounds = (mean, if 0 < t ∧ t ≤ 1 then some t else none) := by
  refine ⟨fun i hi => ⟨?_, fun mean t h => ?_⟩, fun mean t hmean ht => ?_⟩
  · rw [Interval.tolerance_recovered hi]
    split
    · rename_i hzero
      exact ⟨fun _ => .inl hzero, fun _ => ⟨0, rfl⟩⟩
    · rename_i hzero
      rw [or_iff_right hzero, ← not_or]
      split
      · rename_i hwithout
        exact ⟨fun ⟨t, h⟩ => (nomatch h), fun h => absurd hwithout h⟩
      · rename_i hwithout
        exact ⟨fun _ => hwithout, fun _ => ⟨_, rfl⟩⟩
  · obtain ⟨ht, haround⟩ := around_of_recovered hi h
    exact Measure.ofTolerance_eq_ok.mpr ⟨ht, by rw [← haround]⟩
  · exact ⟨_, Measure.ofTolerance_eq_ok.mpr ⟨ht, rfl⟩, Interval.meanAndTolerance_around hmean ht⟩

/-- The range from -12 to -8 has a mean of -10 and a tolerance of 20 %, which
span it, and which it gives back. -/
theorem Measure.recovering_inverts_spanning_negative :
    (-12 : Rat) ≤ -8 ∧ meanAndTolerance ⟨(-12 : Rat), -8⟩ = (-10, some (1 / 5))
      ∧ Measure.ofTolerance (-10 : Rat) (1 / 5) = .ok ⟨-10, some (1 / 5), ⟨-12, -8⟩⟩
      ∧ (-10 : Rat) ≠ 0 ∧ (0 : Rat) ≤ 1 / 5
      ∧ ∃ m, Measure.ofTolerance (-10 : Rat) (1 / 5) = .ok m
        ∧ meanAndTolerance m.bounds = (-10, some (1 / 5)) := by
  have hle : (-12 : Rat) ≤ -8 := by decide
  have hrecovered : meanAndTolerance ⟨(-12 : Rat), -8⟩ = (-10, some (1 / 5)) := by
    decide +kernel
  have hmean : (-10 : Rat) ≠ 0 := by decide
  have ht : (0 : Rat) < 1 / 5 ∧ (1 / 5 : Rat) ≤ 1 := by decide +kernel
  have hback := recovering_inverts_spanning.2 _ _ hmean ht.1.le
  rw [if_pos ht] at hback
  exact ⟨hle, hrecovered, (recovering_inverts_spanning.1 _ hle).2 _ _ hrecovered, hmean,
    ht.1.le, hback⟩

end WorstCase
