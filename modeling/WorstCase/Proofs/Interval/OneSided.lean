import WorstCase.Proofs.Interval.Exact

/-!
# Ranges on one side of zero

Products and quotients pair two of the four corners that the bounds of two ranges
have. For ranges on one side of zero the extremes are at corners, but at which
ones depends on the two sides. On the same side they are the ones that are
paired. On opposite sides they are the other two: the least product is the one
furthest from zero, the upper bound of the positive range times the lower bound
of the negative one. Then the paired range is too narrow, unless one of the two
ranges is a single value and leaves only two corners
(`Interval.pairing_exact_iff`).

Squares have no such case, since a range is on the same side as itself.

Bounds are rationals here, and the numbers between them are those of any ordered
field (`Interval.numbers`), the rationals themselves as well as the reals. Among
the rationals not every number between two squares is a square.
-/

namespace WorstCase

open Set
open scoped Pointwise

section Field

variable {K : Type} [Field K] [LinearOrder K] [IsStrictOrderedRing K] {a b c d : K}

/-! ## Products of ranges -/

/-- **Positive ranges multiply by their like bounds**, and reach every number
between. The upper bound of the first is reached with the lower bound of the
second, and only then does the second grow. -/
theorem Icc_mul_Icc_of_nonneg (ha : 0 ≤ a) (hab : a ≤ b) (hc : 0 ≤ c) (hcd : c ≤ d) :
    Icc a b * Icc c d = Icc (a * c) (b * d) := by
  have hb : 0 ≤ b := ha.trans hab
  refine Subset.antisymm ?_ fun z ⟨hlow, hhigh⟩ => ?_
  · rintro _ ⟨x, ⟨hax, hxb⟩, y, ⟨hcy, hyd⟩, rfl⟩
    exact ⟨mul_le_mul hax hcy hc (ha.trans hax), mul_le_mul hxb hyd (hc.trans hcy) hb⟩
  · rcases le_or_gt z (b * c) with hz | hz
    · rcases hc.eq_or_lt with rfl | hc
      · rw [mul_zero] at hlow hz
        exact ⟨a, ⟨le_rfl, hab⟩, 0, ⟨le_rfl, hcd⟩, (mul_zero a).trans (hlow.antisymm hz)⟩
      · exact ⟨z / c, ⟨(le_div_iff₀ hc).mpr hlow, (div_le_iff₀ hc).mpr hz⟩, c, ⟨le_rfl, hcd⟩,
          div_mul_cancel₀ z hc.ne'⟩
    · have hb : 0 < b := by
        refine hb.lt_of_ne fun hzero => hz.not_ge ?_
        rwa [← hzero, zero_mul] at hhigh ⊢
      exact ⟨b, ⟨hab, le_rfl⟩, z / b, ⟨(le_div_iff₀' hb).mpr hz.le, (div_le_iff₀' hb).mpr hhigh⟩,
        mul_div_cancel₀ z hb.ne'⟩

/-- So do negative ranges, with the order turned. -/
theorem Icc_mul_Icc_of_nonpos (hab : a ≤ b) (hb : b ≤ 0) (hcd : c ≤ d) (hd : d ≤ 0) :
    Icc a b * Icc c d = Icc (b * d) (a * c) := by
  rw [← neg_neg (Icc a b), ← neg_neg (Icc c d), neg_mul_neg, neg_Icc, neg_Icc,
    Icc_mul_Icc_of_nonneg (neg_nonneg.mpr hb) (neg_le_neg hab) (neg_nonneg.mpr hd)
      (neg_le_neg hcd), neg_mul_neg, neg_mul_neg]

/-- **On opposite sides of zero it is the opposite bounds that count.** -/
theorem Icc_mul_Icc_of_opposite (ha : 0 ≤ a) (hab : a ≤ b) (hcd : c ≤ d) (hd : d ≤ 0) :
    Icc a b * Icc c d = Icc (b * c) (a * d) := by
  rw [← neg_neg (Icc c d), mul_neg, neg_Icc, Icc_mul_Icc_of_nonneg ha hab (neg_nonneg.mpr hd)
    (neg_le_neg hcd), neg_Icc, mul_neg, mul_neg, neg_neg, neg_neg]

/-- The reciprocals of a positive range. -/
theorem inv_Icc_of_pos (ha : 0 < a) (hab : a ≤ b) : (Icc a b)⁻¹ = Icc b⁻¹ a⁻¹ := by
  have hb : 0 < b := ha.trans_le hab
  ext x
  rw [Set.mem_inv, mem_Icc, mem_Icc]
  constructor
  · rintro ⟨hlow, hhigh⟩
    have hx : 0 < x := inv_pos.mp (ha.trans_le hlow)
    exact ⟨(inv_le_comm₀ hx hb).mp hhigh, (le_inv_comm₀ ha hx).mp hlow⟩
  · rintro ⟨hlow, hhigh⟩
    have hx : 0 < x := (inv_pos.mpr hb).trans_le hlow
    exact ⟨(le_inv_comm₀ hx ha).mp hhigh, (inv_le_comm₀ hb hx).mp hlow⟩

/-- **The reciprocals of a range without zero** are between the reciprocals of its
bounds. -/
theorem inv_Icc_of_side (hab : a ≤ b) (h : 0 < a ∨ b < 0) : (Icc a b)⁻¹ = Icc b⁻¹ a⁻¹ := by
  rcases h with ha | hb
  · exact inv_Icc_of_pos ha hab
  · rw [← neg_neg (Icc a b), inv_neg, neg_Icc, inv_Icc_of_pos (neg_pos.mpr hb) (neg_le_neg hab),
      neg_Icc, inv_neg, inv_neg, neg_neg, neg_neg]

/-- **The squares of a positive range** are the squares between those of its
bounds. -/
theorem image_mul_self_of_nonneg (ha : 0 ≤ a) (hab : a ≤ b) :
    (fun x => x * x) '' Icc a b = Icc (a * a) (b * b) ∩ {z | IsSquare z} := by
  have hb : 0 ≤ b := ha.trans hab
  ext z
  constructor
  · rintro ⟨x, ⟨hax, hxb⟩, rfl⟩
    have hx : 0 ≤ x := ha.trans hax
    exact ⟨⟨mul_self_le_mul_self ha hax, mul_self_le_mul_self hx hxb⟩, x, rfl⟩
  · rintro ⟨⟨hlow, hhigh⟩, x, rfl⟩
    rw [← abs_mul_abs_self x] at hlow hhigh
    exact ⟨|x|, ⟨(mul_self_le_mul_self_iff ha (abs_nonneg x)).mpr hlow,
      (mul_self_le_mul_self_iff (abs_nonneg x) hb).mpr hhigh⟩, abs_mul_abs_self x⟩

/-- So are those of a negative one, whose squares come in the other order. -/
theorem image_mul_self_of_nonpos (hab : a ≤ b) (hb : b ≤ 0) :
    (fun x => x * x) '' Icc a b = Icc (b * b) (a * a) ∩ {z | IsSquare z} := by
  have hneg : (fun x => x * x) '' Icc a b = (fun x => x * x) '' Icc (-b) (-a) := by
    rw [← neg_Icc, ← image_neg_eq_neg, image_image]
    simp only [neg_mul_neg]
  rw [hneg, image_mul_self_of_nonneg (neg_nonneg.mpr hb) (neg_le_neg hab), neg_mul_neg,
    neg_mul_neg]

end Field

namespace Interval

/-- **The numbers of a range**, among those of an ordered field. -/
def numbers (K : Type) [Field K] [LinearOrder K] (i : Interval Rat) : Set K :=
  Icc (i.lower : K) (i.upper : K)

variable {i j k : Interval Rat}

/-! ## Sides -/

theorem side_eq_nonNegative : i.side = .nonNegative ↔ 0 ≤ i.lower := by
  unfold side
  split
  · rename_i h
    exact iff_of_true rfl h
  · rename_i h
    refine iff_of_false ?_ h
    split <;> nofun

theorem side_eq_nonPositive : i.side = .nonPositive ↔ i.lower < 0 ∧ i.upper ≤ 0 := by
  unfold side
  split
  · rename_i h
    exact iff_of_false nofun fun h' => h.not_gt h'.1
  · rename_i h
    rw [and_iff_right (not_le.mp h)]
    split
    · rename_i h'
      exact iff_of_true rfl h'
    · rename_i h'
      exact iff_of_false nofun h'

/-- A range that does not straddle zero is on one side of it. -/
theorem side_cases (h : i.side ≠ .straddling) : 0 ≤ i.lower ∨ i.lower < 0 ∧ i.upper ≤ 0 := by
  rw [← side_eq_nonNegative, ← side_eq_nonPositive]
  cases hside : i.side with
  | nonNegative => exact .inl rfl
  | nonPositive => exact .inr rfl
  | straddling => exact absurd hside h

/-! ## Corners -/

section Corners

variable {l u l' u' : Rat}

/-- **The paired corners of ranges on opposite sides** lie between the other
two. -/
theorem opposite_le_paired (hl : 0 ≤ l) (hlu : l ≤ u) (hlu' : l' ≤ u') (hu' : u' ≤ 0) :
    u * l' ≤ min (l * l') (u * u') ∧ max (l * l') (u * u') ≤ l * u' := by
  have hu : 0 ≤ u := hl.trans hlu
  have hl' : l' ≤ 0 := hlu'.trans hu'
  exact ⟨le_min (mul_le_mul_of_nonpos_right hlu hl') (mul_le_mul_of_nonneg_left hlu' hu),
    max_le (mul_le_mul_of_nonneg_left hlu' hl) (mul_le_mul_of_nonpos_right hlu hu')⟩

/-- **They are the other two** only where one of the ranges is a single value. -/
theorem paired_eq_opposite_iff (hl : 0 ≤ l) (hlu : l ≤ u) (hlu' : l' ≤ u') (hu' : u' ≤ 0) :
    (min (l * l') (u * u') = u * l' ∧ max (l * l') (u * u') = l * u') ↔ l = u ∨ l' = u' := by
  have hu : 0 ≤ u := hl.trans hlu
  have hl' : l' ≤ 0 := hlu'.trans hu'
  constructor
  · rintro ⟨hmin, -⟩
    rcases min_choice (l * l') (u * u') with hchoice | hchoice <;> rw [hchoice] at hmin
    · rcases mul_eq_mul_right_iff.mp hmin with h | h
      · exact .inl h
      · exact .inr (hlu'.antisymm (h ▸ hu'))
    · rcases mul_eq_mul_left_iff.mp hmin with h | h
      · exact .inr h.symm
      · exact .inl (hlu.antisymm (h ▸ hl))
  · rintro (rfl | rfl)
    · have h : l * l' ≤ l * u' := mul_le_mul_of_nonneg_left hlu' hu
      exact ⟨min_eq_left h, max_eq_right h⟩
    · have h : u * l' ≤ l * l' := mul_le_mul_of_nonpos_right hlu hl'
      exact ⟨min_eq_right h, max_eq_left h⟩

end Corners

/-! ## Products -/

/-- **Ranges that are aligned**: both on the same side of zero, or one of them a
single value. -/
def Aligned (i j : Interval Rat) : Prop :=
  i.side = j.side ∨ i.lower = i.upper ∨ j.lower = j.upper

theorem Aligned.symm (h : i.Aligned j) : j.Aligned i :=
  h.imp Eq.symm Or.symm

theorem mulBounds_comm (i j : Interval Rat) : i.mulBounds j = j.mulBounds i := by
  rw [mulBounds, mulBounds, mul_comm i.lower, mul_comm i.upper]

section Products

variable (K : Type) [Field K] [LinearOrder K]

/-- **The product of two ranges is a range of products**, and of all of them if
the ranges are aligned. -/
structure ProductOf (k i j : Interval Rat) : Prop where
  /-- Every number in it is a product. -/
  subset : k.numbers K ⊆ i.numbers K * j.numbers K
  /-- Every product is in it exactly for aligned ranges. -/
  exact_iff : k.numbers K = i.numbers K * j.numbers K ↔ i.Aligned j

variable {K}

theorem ProductOf.symm (h : k.ProductOf K i j) : k.ProductOf K j i where
  subset := mul_comm (i.numbers K) _ ▸ h.subset
  exact_iff := by
    rw [mul_comm, h.exact_iff]
    exact ⟨.symm, .symm⟩

theorem ProductOf.of_eq (h : k.numbers K = i.numbers K * j.numbers K) (hside : i.side = j.side) :
    k.ProductOf K i j :=
  ⟨h.subset, iff_of_true h (.inl hside)⟩

variable [IsStrictOrderedRing K] (hi : i.lower ≤ i.upper) (hj : j.lower ≤ j.upper)

include hi hj

theorem mulBounds_of_nonneg (hi' : 0 ≤ i.lower) (hj' : 0 ≤ j.lower)
    (h : i.mulBounds j = some k) : k.ProductOf K i j := by
  have hle : i.lower * j.lower ≤ i.upper * j.upper := mul_le_mul hi hj hj' (hi'.trans hi)
  rw [mulBounds, spanning_rat, min_eq_left hle, max_eq_right hle] at h
  cases h
  refine .of_eq ?_ ((side_eq_nonNegative.mpr hi').trans (side_eq_nonNegative.mpr hj').symm)
  unfold numbers
  rw [Icc_mul_Icc_of_nonneg (by exact_mod_cast hi') (by exact_mod_cast hi)
    (by exact_mod_cast hj') (by exact_mod_cast hj)]
  push_cast
  rfl

theorem mulBounds_of_nonpos (hi' : i.lower < 0 ∧ i.upper ≤ 0) (hj' : j.lower < 0 ∧ j.upper ≤ 0)
    (h : i.mulBounds j = some k) : k.ProductOf K i j := by
  have hle : i.upper * j.upper ≤ i.lower * j.lower :=
    mul_le_mul_of_nonpos_of_nonpos' hi hj hi'.2 hj'.1.le
  rw [mulBounds, spanning_rat, min_eq_right hle, max_eq_left hle] at h
  cases h
  refine .of_eq ?_ ((side_eq_nonPositive.mpr hi').trans (side_eq_nonPositive.mpr hj').symm)
  unfold numbers
  rw [Icc_mul_Icc_of_nonpos (by exact_mod_cast hi) (by exact_mod_cast hi'.2)
    (by exact_mod_cast hj) (by exact_mod_cast hj'.2)]
  push_cast
  rfl

theorem mulBounds_of_opposite (hi' : 0 ≤ i.lower) (hj' : j.lower < 0 ∧ j.upper ≤ 0)
    (h : i.mulBounds j = some k) : k.ProductOf K i j := by
  rw [mulBounds, spanning_rat] at h
  cases h
  have hproducts : i.numbers K * j.numbers K
      = Icc ((i.upper * j.lower : Rat) : K) (i.lower * j.upper : Rat) := by
    unfold numbers
    rw [Icc_mul_Icc_of_opposite (by exact_mod_cast hi') (by exact_mod_cast hi)
      (by exact_mod_cast hj) (by exact_mod_cast hj'.2)]
    push_cast
    rfl
  have hbetween := opposite_le_paired hi' hi hj hj'.2
  have hside : i.side ≠ j.side := by
    rw [side_eq_nonNegative.mpr hi', side_eq_nonPositive.mpr hj']
    nofun
  constructor
  · rw [hproducts]
    exact Icc_subset_Icc (Rat.cast_le.mpr hbetween.1) (Rat.cast_le.mpr hbetween.2)
  · rw [hproducts, Aligned, or_iff_right hside, ← paired_eq_opposite_iff hi' hi hj hj'.2,
      numbers, Icc_eq_Icc_iff (Rat.cast_le.mpr min_le_max), Rat.cast_inj, Rat.cast_inj]

/-- **The product of two ranges**, each of them on one side of zero. -/
theorem productOf_mulBounds (hi' : i.side ≠ .straddling) (hj' : j.side ≠ .straddling)
    (h : i.mulBounds j = some k) : k.ProductOf K i j := by
  rcases side_cases hi' with hi' | hi' <;> rcases side_cases hj' with hj' | hj'
  · exact mulBounds_of_nonneg hi hj hi' hj' h
  · exact mulBounds_of_opposite hi hj hi' hj' h
  · exact (mulBounds_of_opposite hj hi hj' hi' (mulBounds_comm i j ▸ h)).symm
  · exact mulBounds_of_nonpos hi hj hi' hj' h

end Products

/-! ## Quotients -/

/-- The range of the reciprocals of a range. -/
def reciprocal (i : Interval Rat) : Interval Rat := ⟨i.upper⁻¹, i.lower⁻¹⟩

/-- A quotient is a product with the reciprocals. -/
theorem divBounds_eq (i j : Interval Rat) : i.divBounds j = i.mulBounds j.reciprocal := by
  rw [divBounds, div_eq_mul_inv, div_eq_mul_inv]
  rfl

theorem hasZeroBound_eq_false :
    i.hasZeroBound = false ↔ i.lower ≠ 0 ∧ i.upper ≠ 0 := by
  rw [← Bool.not_eq_true, hasZeroBound, Bool.or_eq_true, Scalar.same_rat, Scalar.same_rat, not_or]

section Reciprocal

variable (hi : i.lower ≤ i.upper) (hi' : i.side ≠ .straddling) (hzero : i.hasZeroBound = false)

include hi hi' hzero

omit hi in
/-- A range on one side of zero that has no bound there is off zero. -/
theorem off_zero : 0 < i.lower ∨ i.upper < 0 := by
  obtain ⟨hlower, hupper⟩ := hasZeroBound_eq_false.mp hzero
  exact (side_cases hi').imp (fun h => h.lt_of_ne' hlower) fun h => h.2.lt_of_ne hupper

theorem ordered_reciprocal : i.reciprocal.lower ≤ i.reciprocal.upper := by
  rcases off_zero hi' hzero with h | h
  · exact inv_anti₀ h hi
  · exact (inv_le_inv_of_neg h (hi.trans_lt h)).mpr hi

theorem side_reciprocal : i.reciprocal.side = i.side := by
  rcases off_zero hi' hzero with h | h
  · rw [side_eq_nonNegative.mpr h.le]
    exact side_eq_nonNegative.mpr (inv_nonneg.mpr (h.le.trans hi))
  · rw [side_eq_nonPositive.mpr ⟨hi.trans_lt h, h.le⟩]
    exact side_eq_nonPositive.mpr ⟨inv_lt_zero.mpr h, inv_nonpos.mpr (hi.trans h.le)⟩

theorem numbers_reciprocal {K : Type} [Field K] [LinearOrder K] [IsStrictOrderedRing K] :
    i.reciprocal.numbers K = (i.numbers K)⁻¹ := by
  unfold numbers
  rw [inv_Icc_of_side (by exact_mod_cast hi)
    ((off_zero hi' hzero).imp (by exact_mod_cast ·) (by exact_mod_cast ·))]
  simp [reciprocal]

/-- Reciprocals are aligned with what the numbers are aligned with. -/
theorem aligned_reciprocal : j.Aligned i.reciprocal ↔ j.Aligned i := by
  rw [Aligned, side_reciprocal hi hi' hzero]
  show _ ∨ _ ∨ i.upper⁻¹ = i.lower⁻¹ ↔ _
  rw [inv_inj, eq_comm (a := i.upper)]
  rfl

end Reciprocal

/-! ## Squares -/

theorem squareBounds_rat (i : Interval Rat) :
    i.squareBounds
      = ⟨min (i.lower * i.lower) (i.upper * i.upper), max (i.lower * i.lower) (i.upper * i.upper)⟩ := by
  rw [← Scalar.lesser_rat, ← Scalar.greater_rat]
  rfl

/-- **The squared bounds of a range on one side of zero** hold its squares, and
no others. -/
theorem image_mul_self_numbers {K : Type} [Field K] [LinearOrder K] [IsStrictOrderedRing K]
    (hi : i.lower ≤ i.upper) (hi' : i.side ≠ .straddling) :
    (fun x => x * x) '' i.numbers K = i.squareBounds.numbers K ∩ {z | IsSquare z} := by
  rw [squareBounds_rat]
  unfold numbers
  rcases side_cases hi' with h | h
  · have hle : i.lower * i.lower ≤ i.upper * i.upper := mul_self_le_mul_self h hi
    rw [image_mul_self_of_nonneg (by exact_mod_cast h) (by exact_mod_cast hi), min_eq_left hle,
      max_eq_right hle]
    push_cast
    rfl
  · have hle : i.upper * i.upper ≤ i.lower * i.lower :=
      mul_le_mul_of_nonpos_of_nonpos' hi hi h.2 h.1.le
    rw [image_mul_self_of_nonpos (by exact_mod_cast hi) (by exact_mod_cast h.2),
      min_eq_right hle, max_eq_left hle]
    push_cast
    rfl

/-- **Where pairing the bounds is exact.** Of two ranges, each on one side of
zero, the paired products and quotients are products and quotients of numbers in
the ranges. They are all of them exactly if the ranges are aligned: on the same
side, or one of them a single value. The squared bounds always hold the squares
and no others. -/
theorem pairing_exact_iff (K : Type) [Field K] [LinearOrder K] [IsStrictOrderedRing K]
    (hi : i.lower ≤ i.upper) (hj : j.lower ≤ j.upper) (hi' : i.side ≠ .straddling)
    (hj' : j.side ≠ .straddling) :
    (∃ k, i.mulBounds j = some k ∧ k.numbers K ⊆ i.numbers K * j.numbers K
      ∧ (k.numbers K = i.numbers K * j.numbers K ↔ i.Aligned j))
    ∧ (j.hasZeroBound = false →
      ∃ k, i.divBounds j = some k ∧ k.numbers K ⊆ i.numbers K / j.numbers K
        ∧ (k.numbers K = i.numbers K / j.numbers K ↔ i.Aligned j))
    ∧ (fun x => x * x) '' i.numbers K = i.squareBounds.numbers K ∩ {z | IsSquare z} := by
  refine ⟨?_, fun hzero => ?_, image_mul_self_numbers hi hi'⟩
  · have hmul := productOf_mulBounds (K := K) hi hj hi' hj' (spanning_rat _ _)
    exact ⟨_, spanning_rat _ _, hmul.subset, hmul.exact_iff⟩
  · have hside : j.reciprocal.side ≠ .straddling := side_reciprocal hj hj' hzero ▸ hj'
    have hmul := productOf_mulBounds (K := K) hi (ordered_reciprocal hj hj' hzero) hi' hside
      (spanning_rat _ _)
    rw [div_eq_mul_inv, ← numbers_reciprocal hj hj' hzero, divBounds_eq,
      ← aligned_reciprocal hj hj' hzero]
    exact ⟨_, spanning_rat _ _, hmul.subset, hmul.exact_iff⟩

/-- Two negative ranges are aligned: the products of numbers from -3 to -2 and
from -5 to -4 are the numbers from 8 to 15, and the quotients those from 2/5 to
3/4. -/
theorem pairing_exact_iff_negative :
    let i : Interval Rat := ⟨-3, -2⟩
    let j : Interval Rat := ⟨-5, -4⟩
    i.lower ≤ i.upper ∧ j.lower ≤ j.upper ∧ i.side ≠ .straddling ∧ j.side ≠ .straddling
      ∧ j.hasZeroBound = false ∧ i.Aligned j
      ∧ numbers ℝ ⟨8, 15⟩ = i.numbers ℝ * j.numbers ℝ
      ∧ numbers ℝ ⟨2 / 5, 3 / 4⟩ = i.numbers ℝ / j.numbers ℝ
      ∧ (fun x => x * x) '' i.numbers ℝ = numbers ℝ ⟨4, 9⟩ ∩ {z | IsSquare z} := by
  intro i j
  have hi : i.lower ≤ i.upper := by decide
  have hj : j.lower ≤ j.upper := by decide
  have hi' : i.side ≠ .straddling := by decide +kernel
  have hj' : j.side ≠ .straddling := by decide +kernel
  have hzero : j.hasZeroBound = false := by decide +kernel
  have haligned : i.Aligned j := .inl (by decide +kernel)
  obtain ⟨⟨k, hk, -, hmul⟩, hdiv, hsquare⟩ := pairing_exact_iff ℝ hi hj hi' hj'
  obtain ⟨k', hk', -, hdiv⟩ := hdiv hzero
  have hk8 : i.mulBounds j = some ⟨8, 15⟩ := by decide +kernel
  have hk2 : i.divBounds j = some ⟨2 / 5, 3 / 4⟩ := by decide +kernel
  cases hk.symm.trans hk8
  cases hk'.symm.trans hk2
  exact ⟨hi, hj, hi', hj', hzero, haligned, hmul.mpr haligned, hdiv.mpr haligned,
    hsquare.trans (by rw [show i.squareBounds = ⟨4, 9⟩ by decide +kernel])⟩

/-- **On opposite sides the paired range may collapse.** From 1 to 2 and from -2
to -1, the products of like bounds are both -2 and the quotients of opposite
ones both -1. But 2 times -2 is -4, and 2 by -1 is -2. -/
theorem pairing_of_opposite :
    let i : Interval Rat := ⟨1, 2⟩
    let j : Interval Rat := ⟨-2, -1⟩
    i.side = .nonNegative ∧ j.side = .nonPositive ∧ j.hasZeroBound = false
      ∧ i.mulBounds j = some ⟨-2, -2⟩ ∧ i.divBounds j = some ⟨-1, -1⟩
      ∧ (2 ∈ i ∧ -2 ∈ j ∧ ¬2 * -2 ∈ (⟨-2, -2⟩ : Interval Rat))
      ∧ 2 ∈ i ∧ -1 ∈ j ∧ ¬2 / -1 ∈ (⟨-1, -1⟩ : Interval Rat) := by
  refine ⟨?_, ?_, ?_, ?_, ?_, ⟨⟨?_, ?_⟩, ⟨?_, ?_⟩, fun h => absurd h.1 ?_⟩,
    ⟨?_, ?_⟩, ⟨?_, ?_⟩, fun h => absurd h.1 ?_⟩ <;> decide +kernel

end Interval

end WorstCase
