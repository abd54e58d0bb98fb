import WorstCase.Proofs.Binary64.Distance
import WorstCase.Proofs.Interval.Rounded

/-!
# Recovered tolerances

The tolerance that is recovered from a range is the spread of its upper bound
around its middle. The exceptions are told by comparing the bounds, before the
middle is rounded: bounds of zero have a tolerance of zero, and opposite bounds
and a single value have none.

Rounding moves the middle of neighbouring numbers onto one of them, and so past
both tests. If that is the upper bound, the tolerance comes out as zero for a
range of two values. And where the upper bound is zero besides, the middle is
zero for bounds that are not opposite, the spread is zero by zero, and the
tolerance that is no number passes the comparison with 100 %. Only one range is
like that, the one between zero and the number next below it
(`Measure.recoveredTolerance_mem`).
-/

namespace WorstCase

open Binary64

namespace Binary64

variable {x : Binary64}

/-- The number next below zero. -/
def leastNegative : Binary64 := .signed true 1 (by decide)

/-- Between zero and any other number below it there is a number. -/
theorem eq_leastNegative (hx : x < 0) (h : ∀ c, ¬(x < c ∧ c < 0)) : x = leastNegative := by
  cases x with
  | nan => cases (lt_iff.mp hx).1
  | signed n r hr =>
    have hbelow : place n r < 0 := of_decide_eq_true hx
    have hnone : ¬(place n r < -1 ∧ (-1 : Int) < 0) := fun hbetween =>
      h leastNegative ⟨decide_eq_true hbetween.1, decide_eq_true hbetween.2⟩
    unfold place at hbelow hnone
    cases n with
    | false =>
      rw [if_neg Bool.false_ne_true] at hbelow
      omega
    | true =>
      rw [if_pos rfl] at hbelow hnone
      obtain rfl : r = 1 := by omega
      rfl

end Binary64

namespace Measure

section Recovered

variable {bounds : Interval Binary64} {t : Binary64} (hfinite : bounds.isFinite = true)
  (hle : bounds.lower ≤ bounds.upper)

include hfinite hle

/-- The mean is the middle, or zero. -/
theorem isFinite_recoveredMean : (meanAndTolerance bounds).1.isFinite = true := by
  have hlow := Interval.isFinite_lower hfinite
  have hhigh := Interval.isFinite_upper hfinite
  have hmiddle := midpoint_mem hlow hhigh hle
  have hmiddle : bounds.midpoint.isFinite = true :=
    isFinite_of_mem hlow hhigh hmiddle.1 hmiddle.2
  rcases meanAndTolerance_cases bounds with
    ⟨-, heq⟩ | ⟨-, ⟨-, heq⟩ | ⟨-, ⟨-, heq⟩ | ⟨-, -, heq⟩⟩⟩ <;> rw [heq]
  · rfl
  · rfl
  · exact hmiddle
  · exact hmiddle

/-- **What a recovered tolerance may be.** Where the middle is the upper bound, or
both are zero, no number is strictly inside. -/
theorem recoveredTolerance_cases (h : (meanAndTolerance bounds).2 = some t) :
    t = nan ∧ bounds.lower = leastNegative ∧ bounds.upper.value = 0
      ∨ t = 0 ∧ bounds.lower.value = 0 ∧ bounds.upper.value = 0
      ∨ t.isNaN = false ∧ bounds.lower.value ≠ bounds.upper.value ∧ 0 ≤ t.value ∧ t.value ≤ 1
        ∧ (t.value = 0 ↔ (meanAndTolerance bounds).1.value = bounds.upper.value)
        ∧ (meanAndTolerance bounds).1.value ≠ 0
        ∧ (t.value = 0 → ∀ c, ¬(bounds.lower < c ∧ c < bounds.upper)) := by
  have hlow := Interval.isFinite_lower hfinite
  have hhigh := Interval.isFinite_upper hfinite
  rcases meanAndTolerance_eq_some h with
    ⟨hlower, hupper, -, ht⟩ | ⟨-, hsingle, hmean, ht, hwide⟩
  · have hzero {x : Binary64} (hx : Scalar.same x 0 = true) : x.value = 0 :=
      value_zero ▸ (same_iff.mp hx).2.2
    exact .inr (.inl ⟨ht, hzero hlower, hzero hupper⟩)
  · obtain ⟨hlownum, hhighnum, hle'⟩ := le_iff.mp hle
    have hne : bounds.lower.value ≠ bounds.upper.value :=
      fun heq => hsingle (same_iff.mpr ⟨hlownum, hhighnum, heq⟩)
    have hmiddle := isFinite_recoveredMean hfinite hle
    rw [hmean] at hmiddle ⊢
    have hnone (heq : bounds.midpoint.value = bounds.upper.value) (c : Binary64) :
        ¬(bounds.lower < c ∧ c < bounds.upper) :=
      fun hbetween => midpoint_ne hlow hhigh hbetween.1 hbetween.2 heq
    obtain rfl : t = abs ((bounds.upper - bounds.midpoint) / bounds.midpoint) := ht
    rcases spread_cases hhigh hmiddle hwide with ⟨hupper, hzero, hnan⟩ | ⟨hmiddle0, hnum, hiff⟩
    · have hbelow {x : Binary64} : x < bounds.upper ↔ x < 0 := by
        rw [lt_iff, lt_iff, hupper, value_zero, hhighnum]
        rfl
      refine .inl ⟨hnan, eq_leastNegative ?_ fun c hbetween => ?_, hupper⟩
      · exact hbelow.mp (lt_iff.mpr ⟨hlownum, hhighnum, lt_of_le_of_ne hle' hne⟩)
      · exact hnone (hzero.trans hupper.symm) c (hbetween.imp_right hbelow.mpr)
    · refine .inr (.inr ⟨hnum, hne, ?_, ?_, hiff, hmiddle0, fun hzero => hnone (hiff.mp hzero)⟩)
      · rw [value_abs]
        exact abs_nonneg _
      · have hle1 := le_of_not_lt hnum rfl hwide
        rw [← value_one]
        exact (le_iff.mp hle1).2.2

omit hfinite hle in
/-- Zero and the number next below it have a middle of zero. -/
theorem recoveredTolerance_leastNegative {upper : Binary64} (hupper : upper.isZero = true) :
    (meanAndTolerance ⟨leastNegative, upper⟩).2 = some nan := by
  cases upper with
  | nan => cases hupper
  | signed n r hr =>
    obtain rfl : r = 0 := beq_iff_eq.mp hupper
    show (meanAndTolerance ⟨leastNegative, zero n⟩).2 = some nan
    cases n <;> decide +kernel

/-- **A recovered tolerance is a number** between zero and one, with one exception:
where the bounds are zero and the number next below it, their middle is zero, and
so is the distance of the upper one from it. It is zero where both bounds are, and
where the middle is rounded onto the upper bound, which is only where no number is
strictly inside. -/
theorem recoveredTolerance_mem :
    (meanAndTolerance bounds).1.isFinite = true
    ∧ ((meanAndTolerance bounds).2 = some nan
      ↔ bounds.lower = leastNegative ∧ bounds.upper.isZero = true)
    ∧ ∀ t, (meanAndTolerance bounds).2 = some t → t ≠ nan →
      0 ≤ t ∧ t ≤ 1
      ∧ (t.isZero = true ↔ bounds.lower.isZero = true ∧ bounds.upper.isZero = true
        ∨ bounds.upper.isZero = false ∧ (meanAndTolerance bounds).1.value = bounds.upper.value)
      ∧ (t.isZero = true → ∀ c, ¬(bounds.lower < c ∧ c < bounds.upper)) := by
  have hlow := isNaN_of_isFinite (Interval.isFinite_lower hfinite)
  have hhigh := isNaN_of_isFinite (Interval.isFinite_upper hfinite)
  refine ⟨isFinite_recoveredMean hfinite hle, ⟨fun h => ?_, fun h => ?_⟩, fun t h hnum => ?_⟩
  · rw [← value_eq_zero hhigh]
    rcases recoveredTolerance_cases hfinite hle h with ⟨-, hbounds⟩ | ⟨ht, -⟩ | ⟨ht, -⟩
    · exact hbounds
    · cases ht
    · cases ht
  · obtain ⟨lower, upper⟩ := bounds
    obtain ⟨rfl, hupper⟩ := h
    exact recoveredTolerance_leastNegative hupper
  · rw [← value_eq_zero hlow, ← value_eq_zero hhigh, ← Bool.not_eq_true, ← value_eq_zero hhigh]
    rcases recoveredTolerance_cases hfinite hle h with
      ⟨ht, -⟩ | ⟨rfl, hlower, hupper⟩ | ⟨ht, hne, hnonneg, hone, hiff, hmean, hnone⟩
    · exact absurd ht hnum
    · refine ⟨by decide, by decide, iff_of_true rfl (.inl ⟨hlower, hupper⟩), fun _ c hbetween => ?_⟩
      have hlt := (lt_iff.mp hbetween.1).2.2.trans (lt_iff.mp hbetween.2).2.2
      exact hlt.ne (hlower.trans hupper.symm)
    · rw [← value_eq_zero ht]
      refine ⟨le_iff.mpr ⟨rfl, ht, value_zero ▸ hnonneg⟩, le_iff.mpr ⟨ht, rfl, value_one ▸ hone⟩,
        ⟨fun hzero => ?_, ?_⟩, hnone⟩
      · have hupper := hiff.mp hzero
        exact .inr ⟨hupper ▸ hmean, hupper⟩
      · rintro (⟨hlower, hupper⟩ | ⟨-, hupper⟩)
        · exact absurd (hlower.trans hupper.symm) hne
        · exact hiff.mpr hupper

end Recovered

/-- The range from 2 to 3 has a tolerance of a fifth. -/
theorem recoveredTolerance_mem_fifth :
    (⟨ofRat 2, ofRat 3⟩ : Interval Binary64).isFinite = true ∧ ofRat 2 ≤ ofRat 3
      ∧ (meanAndTolerance ⟨ofRat 2, ofRat 3⟩).2 = some (ofRat (1 / 5))
      ∧ 0 ≤ ofRat (1 / 5) ∧ ofRat (1 / 5) ≤ 1 := by
  have hfinite : (⟨ofRat 2, ofRat 3⟩ : Interval Binary64).isFinite = true := by decide +kernel
  have hle : ofRat 2 ≤ ofRat 3 := by decide +kernel
  have ht : (meanAndTolerance ⟨ofRat 2, ofRat 3⟩).2 = some (ofRat (1 / 5)) := by decide +kernel
  obtain ⟨-, -, hmem⟩ := recoveredTolerance_mem hfinite hle
  obtain ⟨hnonneg, hone, -⟩ := hmem _ ht (by decide +kernel)
  exact ⟨hfinite, hle, ht, hnonneg, hone⟩

/-- **The tolerance of neighbouring numbers says nothing.** From the number next
below zero up to zero it is no number, and between two neighbours above one it is
zero. -/
theorem recoveredTolerance_of_neighbours :
    let one := (1 : Binary64).toBits
    (⟨leastNegative, 0⟩ : Interval Binary64).isFinite = true ∧ leastNegative < 0
      ∧ meanAndTolerance ⟨leastNegative, 0⟩ = (zero true, some nan)
      ∧ ofBits (one + 1) < ofBits (one + 2)
      ∧ meanAndTolerance ⟨ofBits (one + 1), ofBits (one + 2)⟩ = (ofBits (one + 2), some 0) := by
  decide +kernel

end Measure

end WorstCase
