import WorstCase.Proofs.Binary64.Distance

/-!
# Results out of range

A result out of range stays so in sums and products, but not in every quotient:
what is in range over what is not is zero. A computation that ends in a quotient
therefore tells of an overflow only if the numerator overflows with the
denominator. A product over a sum of the same two numbers is of that kind
(`isFinite_of_isFinite_mul_div_add`), since numbers great enough for their sum to
overflow have a product that does (`isFinite_add_of_isFinite_mul`).
-/

namespace WorstCase.Binary64

variable {x y : Binary64} {q : Rat}

@[simp] theorem isFinite_abs (x : Binary64) : (abs x).isFinite = x.isFinite := by
  cases x <;> rfl

theorem isInfinite_iff : x.isInfinite = true ↔ x.isNaN = false ∧ x.isFinite = false := by
  cases x with
  | nan => exact iff_of_false nofun fun h => (nomatch h.1)
  | signed n r hr =>
    rw [isInfinite, isFinite, isNaN, beq_iff_eq, decide_eq_false_iff_not, and_iff_right rfl]
    omega

theorem abs_value_le_greatest (hx : x.isFinite = true) : |x.value| ≤ greatest.value := by
  rw [← value_abs]
  exact value_le_greatest ((isFinite_abs x).trans hx)

/-- Infinity is not beyond the double of the greatest number. So what rounds to a
number in range is below that. -/
theorem IsNearest.abs_lt_of_isFinite (hx : x.IsNearest q) (h : x.isFinite = true) :
    |q| < 2 * greatest.value := by
  have hnext : greatest.value < (infinity false).value := by
    have hlt : greatest < infinity false := by decide
    exact (lt_iff.mp hlt).2.2
  have hdouble : (infinity false).value ≤ 2 * greatest.value := by
    have hhalf : signed false (infinityRank - binade) (by decide) ≤ greatest := by decide
    have hinfinity : (infinity false).value
      = 2 * (signed false (infinityRank - binade) (by decide)).value :=
      value_eq_two_mul (by decide)
    linarith [(le_iff.mp hhalf).2.2]
  by_contra hge
  have hle := hx.le_abs_value (y := infinity false) rfl (hdouble.trans (not_lt.mp hge))
  linarith [abs_value_le_greatest h]

/-- **Numbers whose product is in range have a sum that is.** -/
theorem isFinite_add_of_isFinite_mul (hx : x.isFinite = true) (hy : y.isFinite = true)
    (h : (x * y).isFinite = true) : (x + y).isFinite = true := by
  have hproduct := (isNearest_mul hx hy).abs_lt_of_isFinite h
  rw [abs_mul] at hproduct
  refine (isNearest_add hx hy).isFinite_of_abs_le ((abs_add_le _ _).trans ?_)
  have hxle := abs_value_le_greatest hx
  have hyle := abs_value_le_greatest hy
  have hnonneg := (abs_nonneg _).trans hxle
  by_contra hlt
  -- either of them makes up for what the other one is short of
  have hpos : 0 < (|x.value| - 4) * (|y.value| - 4) :=
    mul_pos (by linarith) (by linarith)
  linarith

theorem infinity_div_infinity (hx : x.isNaN = false) (hy : y.isNaN = false)
    (hxfinite : ¬x.isFinite = true) (hyfinite : ¬y.isFinite = true) : x / y = nan := by
  cases x with
  | nan => cases hx
  | signed n r hr =>
    cases y with
    | nan => cases hy
    | signed m s hs =>
      have hr' : r = infinityRank := le_antisymm hr (not_lt.mp fun h => hxfinite (decide_eq_true h))
      have hs' : s = infinityRank := le_antisymm hs (not_lt.mp fun h => hyfinite (decide_eq_true h))
      show div _ _ = nan
      rw [div, if_pos hr', if_pos hs']

/-- A quotient in range is of numbers in range, if the numerator is out of range
where the denominator is. -/
theorem isFinite_of_isFinite_div (hx : x.isNaN = false) (hy : y.isNaN = false)
    (himp : x.isFinite = true → y.isFinite = true) (h : (x / y).isFinite = true) :
    x.isFinite = true ∧ y.isFinite = true := by
  by_cases hyfinite : y.isFinite = true
  · rw [← isFinite_abs] at h
    rcases abs_div_cases hx hyfinite with ⟨-, -, hnan⟩ | hinfinite | ⟨hxfinite, -⟩
    · rw [hnan] at h
      cases h
    · rw [hinfinite] at h
      cases h
    · exact ⟨hxfinite, hyfinite⟩
  · rw [infinity_div_infinity hx hy (mt himp hyfinite) hyfinite] at h
    cases h

/-- **A product over a sum tells of every overflow** on the way to it. -/
theorem isFinite_of_isFinite_mul_div_add (hx : x.isFinite = true) (hy : y.isFinite = true)
    (h : (x * y / (x + y)).isFinite = true) :
    (x * y).isFinite = true ∧ (x + y).isFinite = true :=
  isFinite_of_isFinite_div (isNearest_mul hx hy).isNaN (isNearest_add hx hy).isNaN
    (isFinite_add_of_isFinite_mul hx hy) h

end WorstCase.Binary64
