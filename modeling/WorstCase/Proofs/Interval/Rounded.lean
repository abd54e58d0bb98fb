import WorstCase.Proofs.Binary64.Between
import WorstCase.Proofs.Interval.Extremes
import WorstCase.Proofs.Quantity.Recovery

/-!
# Computed bounds are in order

With rounding, that the bounds of a result come out in order is a matter of how
they are computed. Most operators put them in order themselves
(`Interval.le_of_spanning`). Sums and differences do not: their bounds are in
order because rounding keeps it, and only if both are in range, since infinities
may cancel. `BinaryOperator.le_pairing` says it for all operators at once.
-/

namespace WorstCase

namespace Binary64

variable {x y z : Binary64}

theorem le_of_not_lt (hx : x.isNaN = false) (hy : y.isNaN = false) (h : ¬y < x) : x ≤ y :=
  le_iff.mpr ⟨hx, hy, not_lt.mp fun hlt => h (lt_iff.mpr ⟨hy, hx, hlt⟩)⟩

theorem le_of_lt (h : x < y) : x ≤ y := by
  obtain ⟨hx, hy, hlt⟩ := lt_iff.mp h
  exact le_iff.mpr ⟨hx, hy, hlt.le⟩

/-- What is in range and not negative has a value that is not. -/
theorem value_nonneg (hx : x.isFinite = true) (h : ¬x < 0) : 0 ≤ x.value := by
  have hle : 0 ≤ x := le_of_not_lt rfl (isNaN_of_isFinite hx) h
  rw [← value_zero]
  exact (le_iff.mp hle).2.2

protected theorem le_refl (hx : x.isNaN = false) : x ≤ x := le_iff.mpr ⟨hx, hx, le_rfl⟩

protected theorem le_trans (h : x ≤ y) (h' : y ≤ z) : x ≤ z := by
  rw [le_iff] at h h' ⊢
  exact ⟨h.1, h'.2.1, h.2.2.trans h'.2.2⟩

/-- The same number is in order with itself. -/
theorem le_of_same (h : Scalar.same x y = true) : x ≤ y ∧ y ≤ x := by
  rwa [Scalar.same, Bool.and_eq_true, decide_eq_true_iff, decide_eq_true_iff] at h

/-- Numbers are the same when their values are. -/
theorem same_iff :
    Scalar.same x y = true ↔ x.isNaN = false ∧ y.isNaN = false ∧ x.value = y.value := by
  constructor
  · intro h
    obtain ⟨hle, hge⟩ := le_of_same h
    obtain ⟨hx, hy, hle⟩ := le_iff.mp hle
    exact ⟨hx, hy, le_antisymm hle (le_iff.mp hge).2.2⟩
  · rintro ⟨hx, hy, h⟩
    exact Bool.and_eq_true_iff.mpr ⟨decide_eq_true (le_iff.mpr ⟨hx, hy, h.le⟩),
      decide_eq_true (le_iff.mpr ⟨hy, hx, h.ge⟩)⟩

/-- Every number has a square. -/
theorem isNaN_mul_self (hx : x.isNaN = false) : (x * x).isNaN = false := by
  cases x with
  | nan => cases hx
  | signed n r hr =>
    have hne : infinityRank ≠ 0 := by decide
    show (mul _ _).isNaN = false
    rw [mul]
    by_cases hinf : r = infinityRank
    · rw [if_pos (.inl hinf), if_neg (by omega)]
      rfl
    · rw [if_neg (by omega)]
      rfl

section Pair

variable (hx : x.isNaN = false) (hy : y.isNaN = false)

include hx hy

/-- The lesser of two numbers is not above either. -/
theorem lesser_le : Scalar.lesser x y ≤ x ∧ Scalar.lesser x y ≤ y := by
  unfold Scalar.lesser
  split
  · rename_i h
    have hlt : y < x := h.resolve_right (Bool.not_eq_true _ ▸ hx)
    exact ⟨le_of_lt hlt, Binary64.le_refl hy⟩
  · rename_i h
    exact ⟨Binary64.le_refl hx, le_of_not_lt hx hy fun hlt => h (.inl hlt)⟩

/-- The greater of two numbers is not below either. -/
theorem le_greater : x ≤ Scalar.greater x y ∧ y ≤ Scalar.greater x y := by
  unfold Scalar.greater
  split
  · rename_i h
    have hlt : x < y := h.resolve_right (Bool.not_eq_true _ ▸ hx)
    exact ⟨le_of_lt hlt, Binary64.le_refl hy⟩
  · rename_i h
    exact ⟨Binary64.le_refl hx, le_of_not_lt hy hx fun hlt => h (.inl hlt)⟩

theorem lesser_le_greater : Scalar.lesser x y ≤ Scalar.greater x y :=
  Binary64.le_trans (lesser_le hx hy).1 (le_greater hx hy).1

end Pair

/-- Numbers are ordered. -/
theorem lawfulOrder : Scalar.LawfulOrder Binary64 where
  le_refl _ := Binary64.le_refl
  le_trans _ _ _ := Binary64.le_trans
  lesser_le _ _ := lesser_le
  le_greater _ _ := le_greater

/-- What lies between two numbers, in whichever order they are, lies between the
lesser and the greater. -/
theorem mem_lesser_greater (h : x ≤ z ∧ z ≤ y ∨ y ≤ z ∧ z ≤ x) :
    Scalar.lesser x y ≤ z ∧ z ≤ Scalar.greater x y := by
  rcases h with ⟨hx, hy⟩ | ⟨hy, hx⟩
  · have hxnum := (le_iff.mp hx).1
    have hynum := (le_iff.mp hy).2.1
    exact ⟨Binary64.le_trans (lesser_le hxnum hynum).1 hx,
      Binary64.le_trans hy (le_greater hxnum hynum).2⟩
  · have hxnum := (le_iff.mp hx).2.1
    have hynum := (le_iff.mp hy).1
    exact ⟨Binary64.le_trans (lesser_le hxnum hynum).2 hy,
      Binary64.le_trans hx (le_greater hxnum hynum).1⟩

end Binary64

namespace Interval

variable {i j k : Interval Binary64} {x y : Binary64}

/-- Bounds in order make an interval. -/
theorem ofBounds_of_le (h : x ≤ y) : ofBounds x y = .ok ⟨x, y⟩ := by
  obtain ⟨hx, hy, -⟩ := Binary64.le_iff.mp h
  have hxnum : Scalar.isNaN x = false := hx
  have hynum : Scalar.isNaN y = false := hy
  unfold ofBounds
  rw [hxnum, hynum, if_neg Bool.false_ne_true, if_neg Bool.false_ne_true]
  exact if_pos h

/-- Between two numbers there is a range. -/
theorem spanning_eq_some (hx : x.isNaN = false) (hy : y.isNaN = false) :
    spanning x y = some ⟨Scalar.lesser x y, Scalar.greater x y⟩ := by
  have hxnum : Scalar.isNaN x = false := hx
  have hynum : Scalar.isNaN y = false := hy
  unfold spanning
  rw [hxnum, hynum]
  rfl

/-- **The bounds of a range between two numbers are in order.** -/
theorem le_of_spanning (h : spanning x y = some k) : k.lower ≤ k.upper := by
  unfold spanning at h
  split at h
  · cases h
  · rename_i hnum
    rw [Bool.or_eq_true, not_or, Bool.not_eq_true, Bool.not_eq_true] at hnum
    cases h
    exact Binary64.lesser_le_greater hnum.1 hnum.2

theorem isFinite_lower (h : i.isFinite = true) : i.lower.isFinite = true :=
  (Bool.and_eq_true_iff.mp h).1

theorem isFinite_upper (h : i.isFinite = true) : i.upper.isFinite = true :=
  (Bool.and_eq_true_iff.mp h).2

/-- The lesser and the greater of two numbers are in range when both numbers
are. -/
theorem isFinite_lesser_greater (hx : x.isNaN = false)
    (hy : y.isNaN = false) :
    (⟨Scalar.lesser x y, Scalar.greater x y⟩ : Interval Binary64).isFinite = true
      ↔ x.isFinite = true ∧ y.isFinite = true := by
  constructor
  · intro h
    have hlow : (Scalar.lesser x y).isFinite = true := isFinite_lower h
    have hhigh : (Scalar.greater x y).isFinite = true := isFinite_upper h
    obtain ⟨hlx, hly⟩ := Binary64.lesser_le hx hy
    obtain ⟨hgx, hgy⟩ := Binary64.le_greater hx hy
    exact ⟨Binary64.isFinite_of_mem hlow hhigh hlx hgx, Binary64.isFinite_of_mem hlow hhigh hly hgy⟩
  · rintro ⟨hx, hy⟩
    refine Bool.and_eq_true_iff.mpr ⟨?_, ?_⟩
    · unfold Scalar.lesser
      split
      · exact hy
      · exact hx
    · unfold Scalar.greater
      split
      · exact hy
      · exact hx

/-- **A range between two numbers is in range** when both are. -/
theorem isFinite_of_spanning (h : spanning x y = some k) (hk : k.isFinite = true) :
    x.isFinite = true ∧ y.isFinite = true := by
  unfold spanning at h
  split at h
  · cases h
  · rename_i hnum
    rw [Bool.or_eq_true, not_or, Bool.not_eq_true, Bool.not_eq_true] at hnum
    cases h
    exact (isFinite_lesser_greater hnum.1 hnum.2).mp hk

theorem le_add (hi : i.lower ≤ i.upper) (hj : j.lower ≤ j.upper) (h : (i + j).isFinite = true) :
    (i + j).lower ≤ (i + j).upper :=
  Binary64.add_le_add_of_isFinite (isFinite_lower h) (isFinite_upper h) hi hj

theorem le_sub (hi : i.lower ≤ i.upper) (hj : j.lower ≤ j.upper) (h : (i - j).isFinite = true) :
    (i - j).lower ≤ (i - j).upper :=
  Binary64.add_le_add_of_isFinite (isFinite_lower h) (isFinite_upper h) hi
    (Binary64.neg_le_neg_of_le hj)

theorem le_squareBounds (hi : i.lower ≤ i.upper) :
    i.squareBounds.lower ≤ i.squareBounds.upper := by
  obtain ⟨hlower, hupper, -⟩ := Binary64.le_iff.mp hi
  exact Binary64.lesser_le_greater (Binary64.isNaN_mul_self hlower)
    (Binary64.isNaN_mul_self hupper)

end Interval

/-- **Bounds in range that an operator has paired are in order.** -/
theorem BinaryOperator.le_pairing {op : BinaryOperator} {i j k : Interval Binary64}
    (hi : i.lower ≤ i.upper) (hj : j.lower ≤ j.upper) (h : op.pairing? i j = some k)
    (hk : k.isFinite = true) : k.lower ≤ k.upper := by
  cases op with
  | add =>
    cases h
    exact Interval.le_add hi hj hk
  | sub =>
    cases h
    exact Interval.le_sub hi hj hk
  | mul | div | parallel | divider => exact Interval.le_of_spanning h

end WorstCase
