import WorstCase.Proofs.Interval.Extremes
import WorstCase.Proofs.Quantity.Recovery
import WorstCase.Scalar.Exact

/-!
# Pairing bounds of positive ranges loses nothing

Over the rationals and for ranges of positive numbers, what an operator makes
of the bounds of two ranges holds whatever it makes of numbers in them. Every
operator has its own reason. A sum, a product and a parallel connection grow
with both operands, so like bounds are paired; a difference and a quotient
grow with the first and fall with the second, so opposite bounds are; and the
ratio of a divider does that too, though its four corners are all tried.

`BinaryOperator.mem_pairing` says it for all of them at once.
-/

namespace WorstCase

namespace Scalar

theorem lesser_rat (x y : Rat) : lesser x y = min x y := by
  unfold lesser
  rw [isNaN_rat, min_def]
  by_cases h : x ≤ y
  · rw [if_pos h, if_neg (by simpa using h)]
  · rw [if_neg h, if_pos (by simpa using h)]

theorem greater_rat (x y : Rat) : greater x y = max x y := by
  unfold greater
  rw [isNaN_rat, max_def]
  by_cases h : x < y
  · rw [if_pos h.le, if_pos (Or.inl h)]
  · rw [if_neg (by simpa using h)]
    by_cases hxy : x ≤ y
    · rw [if_pos hxy]
      exact le_antisymm hxy (not_lt.mp h)
    · rw [if_neg hxy]

/-- The rationals are ordered. -/
theorem lawfulOrder_rat : LawfulOrder Rat where
  le_refl x _ := le_refl x
  le_trans _ _ _ := le_trans
  lesser_le x y _ _ := by
    rw [lesser_rat]
    exact ⟨min_le_left x y, min_le_right x y⟩
  le_greater x y _ _ := by
    rw [greater_rat]
    exact ⟨le_max_left x y, le_max_right x y⟩

theorem same_rat (x y : Rat) : same x y = true ↔ x = y := by
  unfold same
  rw [Bool.and_eq_true, decide_eq_true_iff, decide_eq_true_iff]
  exact le_antisymm_iff.symm

theorem abs_rat (x : Rat) : abs x = |x| := by
  show (if x < 0 then -x else x) = |x|
  by_cases h : x < 0
  · rw [if_pos h, abs_of_neg h]
  · rw [if_neg h, abs_of_nonneg (not_lt.mp h)]

end Scalar

namespace Interval

/-- A number lies in a range when it lies between the bounds. -/
instance {S : Type} [Scalar S] : Membership S (Interval S) :=
  ⟨fun i x => i.lower ≤ x ∧ x ≤ i.upper⟩

/-- Over the rationals there is a range between any two numbers. -/
theorem spanning_rat (x y : Rat) :
    spanning x y = some ⟨min x y, max x y⟩ := by
  unfold spanning
  rw [Scalar.isNaN_rat, Scalar.isNaN_rat, Scalar.lesser_rat, Scalar.greater_rat]
  rfl

variable {i j k : Interval Rat} {x y z : Rat}

/-- What lies between two numbers lies in the range between them. -/
theorem mem_of_spanning (h : spanning x y = some k) (hx : x ≤ z) (hy : z ≤ y) :
    z ∈ k := by
  rw [spanning_rat] at h
  cases h
  exact ⟨(min_le_left x y).trans hx, hy.trans (le_max_right x y)⟩

/-- The bounds of a range between two numbers are in order. -/
theorem ordered_of_spanning (h : spanning x y = some k) :
    k.lower ≤ k.upper := by
  rw [spanning_rat] at h
  cases h
  exact min_le_max

/-! ## The extremes of a list -/

/-- No number of a list is outside its extremes. -/
theorem mem_extremes {xs : List Rat} (hx : x ∈ xs) :
    (Resistance.extremes xs).1 ≤ x ∧ x ≤ (Resistance.extremes xs).2 :=
  (Resistance.extremes_enclose Scalar.lawfulOrder_rat ⟨x, hx, rfl⟩).2.2 x hx rfl

/-! ## Two resistors -/

/-- Two resistors in parallel come to more when either is more. -/
theorem parallel_le_parallel {a b : Rat} (ha : 0 < a) (hb : 0 < b)
    (hax : a ≤ x) (hby : b ≤ y) : a * b / (a + b) ≤ x * y / (x + y) := by
  have hx : 0 < x := ha.trans_le hax
  have hy : 0 < y := hb.trans_le hby
  rw [div_le_div_iff₀ (add_pos ha hb) (add_pos hx hy)]
  have h₁ : 0 ≤ x * a * (y - b) :=
    mul_nonneg (mul_pos hx ha).le (sub_nonneg.mpr hby)
  have h₂ : 0 ≤ y * b * (x - a) :=
    mul_nonneg (mul_pos hy hb).le (sub_nonneg.mpr hax)
  linarith

/-- The ratio of a divider grows with its lower resistor and falls with its
upper one. -/
theorem ratio_le_ratio {a b : Rat} (ha : 0 < a) (hax : a ≤ x) (hy : 0 < y)
    (hyb : y ≤ b) : a / (a + b) ≤ x / (x + y) := by
  have hx : 0 < x := ha.trans_le hax
  rw [div_le_div_iff₀ (add_pos ha (hy.trans_le hyb)) (add_pos hx hy)]
  have h : a * y ≤ x * b := mul_le_mul hax hyb hy.le hx.le
  linarith

/-! ## One operator after the other -/

theorem mem_add (hx : x ∈ i) (hy : y ∈ j) : x + y ∈ i + j :=
  ⟨add_le_add hx.1 hy.1, add_le_add hx.2 hy.2⟩

theorem mem_sub (hx : x ∈ i) (hy : y ∈ j) : x - y ∈ i - j :=
  ⟨sub_le_sub hx.1 hy.2, sub_le_sub hx.2 hy.1⟩

variable (hi : 0 < i.lower) (hj : 0 < j.lower)

include hi in
theorem mem_squareBounds (hx : x ∈ i) : x * x ∈ i.squareBounds := by
  have hpos : 0 < x := hi.trans_le hx.1
  refine mem_of_spanning (x := i.lower * i.lower) (y := i.upper * i.upper) rfl ?_ ?_
  · exact mul_le_mul hx.1 hx.1 hi.le hpos.le
  · exact mul_le_mul hx.2 hx.2 hpos.le (hpos.le.trans hx.2)

include hi hj

theorem mem_mulBounds (hx : x ∈ i) (hy : y ∈ j)
    (h : i.mulBounds j = some k) : x * y ∈ k := by
  have hpos : 0 < x := hi.trans_le hx.1
  have hpos' : 0 < y := hj.trans_le hy.1
  refine mem_of_spanning h ?_ ?_
  · exact mul_le_mul hx.1 hy.1 hj.le hpos.le
  · exact mul_le_mul hx.2 hy.2 hpos'.le (hpos.le.trans hx.2)

theorem mem_divBounds (hx : x ∈ i) (hy : y ∈ j)
    (h : i.divBounds j = some k) : x / y ∈ k := by
  have hpos : 0 < x := hi.trans_le hx.1
  have hpos' : 0 < y := hj.trans_le hy.1
  refine mem_of_spanning h ?_ ?_
  · exact div_le_div₀ hpos.le hx.1 hpos' hy.2
  · exact div_le_div₀ (hpos.le.trans hx.2) hx.2 hj hy.1

theorem mem_parallel (hx : x ∈ i) (hy : y ∈ j)
    (h : i.parallel j = some k) : x * y / (x + y) ∈ k := by
  refine mem_of_spanning h ?_ ?_
  · exact parallel_le_parallel hi hj hx.1 hy.1
  · exact parallel_le_parallel (hi.trans_le hx.1) (hj.trans_le hy.1) hx.2 hy.2

theorem mem_divider (hx : x ∈ i) (hy : y ∈ j)
    (h : i.divider j = some k) : x / (x + y) ∈ k := by
  have hlow : i.lower / (i.lower + j.upper) ∈ Resistance.dividerRatios i j :=
    List.mem_cons_of_mem _ List.mem_cons_self
  have hhigh : i.upper / (i.upper + j.lower) ∈ Resistance.dividerRatios i j :=
    List.mem_cons_of_mem _ (List.mem_cons_of_mem _ List.mem_cons_self)
  have hpos : 0 < x := hi.trans_le hx.1
  have hpos' : 0 < y := hj.trans_le hy.1
  refine mem_of_spanning h ?_ ?_
  · exact (mem_extremes hlow).1.trans (ratio_le_ratio hi hx.1 hpos' hy.2)
  · exact (ratio_le_ratio hpos hx.2 hj hy.1).trans (mem_extremes hhigh).2

end Interval

namespace BinaryOperator

/-- **What an operator makes of two numbers.** -/
def apply : BinaryOperator → Rat → Rat → Rat
  | .add, x, y => x + y
  | .sub, x, y => x - y
  | .mul, x, y => x * y
  | .div, x, y => x / y
  | .parallel, x, y => x * y / (x + y)
  | .divider, x, y => x / (x + y)

/-- **The paired bounds hold what the operator makes of numbers within the
bounds**, if these are positive. -/
theorem mem_pairing {op : BinaryOperator} {i j k : Interval Rat} {x y : Rat}
    (hi : 0 < i.lower) (hj : 0 < j.lower) (hx : x ∈ i) (hy : y ∈ j)
    (h : op.pairing? i j = some k) : op.apply x y ∈ k := by
  cases op with
  | add =>
    cases h
    exact Interval.mem_add hx hy
  | sub =>
    cases h
    exact Interval.mem_sub hx hy
  | mul => exact Interval.mem_mulBounds hi hj hx hy h
  | div => exact Interval.mem_divBounds hi hj hx hy h
  | parallel => exact Interval.mem_parallel hi hj hx hy h
  | divider => exact Interval.mem_divider hi hj hx hy h

/-- Paired bounds are in order if the bounds are. -/
theorem ordered_pairing {op : BinaryOperator} {i j k : Interval Rat}
    (hi : i.lower ≤ i.upper) (hj : j.lower ≤ j.upper)
    (h : op.pairing? i j = some k) : k.lower ≤ k.upper := by
  cases op with
  | add =>
    cases h
    exact add_le_add hi hj
  | sub =>
    cases h
    exact sub_le_sub hi hj
  | mul | div | parallel | divider => exact Interval.ordered_of_spanning h

end BinaryOperator

end WorstCase
