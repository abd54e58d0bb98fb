import WorstCase.Proofs.Interval.Exact
import WorstCase.Proofs.Quantity.Constructible
import WorstCase.Proofs.Quantity.Temperature

/-!
# The parts of a quantity fit together

Over the rationals, the bounds of a quantity that was made are in order, and
where it has a relative tolerance they are what its mean and its tolerance
span (`MadeQuantity.coherent`). That is not a matter of course: the bounds of a result are computed
first, and mean and tolerance are recovered from them. Recovering is exact,
since a range that is given a tolerance is one that its middle and that
tolerance span (`around_of_recovered`).

It matters where a resistance is taken to another temperature. The new bounds
are then spanned by the new mean and the old tolerance, and they are the old
bounds moved along with the mean only if the old ones were spanned that way.
-/

namespace WorstCase

/-- **The range that a mean and a relative tolerance span.** -/
def Interval.around (mean tolerance : Rat) : Interval Rat :=
  ⟨min (mean * (1 - tolerance)) (mean * (1 + tolerance)),
    max (mean * (1 - tolerance)) (mean * (1 + tolerance))⟩

/-- Around a positive mean the lower bound comes from taking the tolerance
off. -/
theorem Interval.around_of_pos {mean tolerance : Rat} (hmean : 0 < mean)
    (ht : 0 ≤ tolerance) :
    around mean tolerance
      = ⟨mean * (1 - tolerance), mean * (1 + tolerance)⟩ := by
  have h : mean * (1 - tolerance) ≤ mean * (1 + tolerance) :=
    mul_le_mul_of_nonneg_left (by linarith) hmean.le
  rw [around, min_eq_left h, max_eq_right h]

/-- Around a negative mean it comes from adding the tolerance. -/
theorem Interval.around_of_neg {mean tolerance : Rat} (hmean : mean < 0)
    (ht : 0 ≤ tolerance) :
    around mean tolerance
      = ⟨mean * (1 + tolerance), mean * (1 - tolerance)⟩ := by
  have h : mean * (1 + tolerance) ≤ mean * (1 - tolerance) :=
    mul_le_mul_of_nonpos_left (by linarith) hmean.le
  rw [around, min_eq_right h, max_eq_left h]

/-- **A range is spanned around its middle**: relative to the middle, half its
width is the tolerance. -/
theorem Interval.around_half {middle half : Rat} (hmiddle : middle ≠ 0)
    (hhalf : 0 ≤ half) :
    around middle (Scalar.abs (half / middle)) = ⟨middle - half, middle + half⟩ := by
  have hcancel : middle * (half / middle) = half := mul_div_cancel₀ _ hmiddle
  rw [Scalar.abs_rat]
  rcases lt_or_gt_of_ne hmiddle with hneg | hpos
  · have hle : half / middle ≤ 0 := div_nonpos_of_nonneg_of_nonpos hhalf hneg.le
    rw [abs_of_nonpos hle, around_of_neg hneg (neg_nonneg.mpr hle), sub_neg_eq_add,
      ← sub_eq_add_neg, mul_sub, mul_add, mul_one, hcancel]
  · have hle : 0 ≤ half / middle := div_nonneg hhalf hpos.le
    rw [abs_of_nonneg hle, around_of_pos hpos hle, mul_sub, mul_add, mul_one, hcancel]

/-- **Recovering is exact**: a range that is given a tolerance is the one that
its mean and the tolerance span. -/
theorem around_of_recovered {i : Interval Rat} {mean tolerance : Rat}
    (hi : i.lower ≤ i.upper)
    (h : meanAndTolerance i = (mean, some tolerance)) :
    0 ≤ tolerance ∧ i = Interval.around mean tolerance := by
  obtain ⟨lower, upper⟩ := i
  have htolerance : (meanAndTolerance ⟨lower, upper⟩).2 = some tolerance := by rw [h]
  have hcases := meanAndTolerance_eq_some htolerance
  rw [h, Scalar.same_rat, Scalar.same_rat, Scalar.same_rat] at hcases
  rcases hcases with ⟨hlower, hupper, hmean, ht⟩ | ⟨hopposite, -, hmean, ht, -⟩
  · obtain rfl : lower = 0 := hlower
    obtain rfl : upper = 0 := hupper
    obtain rfl : mean = 0 := hmean
    refine ⟨ht.ge, ?_⟩
    rw [Interval.around, zero_mul, zero_mul, min_self, max_self]
  · cases hmean
    cases ht
    change lower ≤ upper at hi
    -- opposite bounds apart, the middle is not zero
    have hmiddle : (lower + upper) / 2 ≠ 0 := by
      intro hzero
      exact hopposite (by linarith)
    have hhalf : 0 ≤ upper - (lower + upper) / 2 := by linarith
    refine ⟨Scalar.abs_rat _ ▸ abs_nonneg _, ?_⟩
    refine Eq.trans ?_ (Interval.around_half hmiddle hhalf).symm
    congr 1 <;> ring

/-! ## Measures -/

/-- **A measure whose parts fit together.** -/
structure Measure.Coherent (m : Measure Rat) : Prop where
  /-- The bounds are in order. -/
  ordered : m.bounds.lower ≤ m.bounds.upper
  /-- A tolerance is not negative. -/
  nonneg : ∀ t, m.tolerance = some t → 0 ≤ t
  /-- Where there is a tolerance, the bounds are what it spans around the
  mean. -/
  around : ∀ t, m.tolerance = some t → m.bounds = Interval.around m.mean t

namespace Measure

/-- A measure is made from any mean and any tolerance that is not
negative. -/
theorem ofTolerance_eq_ok {mean tolerance : Rat} {m : Measure Rat} :
    ofTolerance mean tolerance = .ok m
      ↔ 0 ≤ tolerance
        ∧ m = ⟨mean, some tolerance, Interval.around mean tolerance⟩ := by
  have hbounds : Interval.ofBounds
      (Scalar.lesser (mean * (1 - tolerance)) (mean * (1 + tolerance)))
      (Scalar.greater (mean * (1 - tolerance)) (mean * (1 + tolerance)))
      = .ok (Interval.around mean tolerance) := by
    rw [Scalar.lesser_rat, Scalar.greater_rat]
    exact if_pos min_le_max
  unfold ofTolerance
  dsimp only
  rw [hbounds]
  by_cases ht : tolerance < 0
  · simp [ht]
  · simp [ht, not_lt.mp ht, eq_comm]

theorem Coherent.ofTolerance {mean tolerance : Rat} {m : Measure Rat}
    (h : Measure.ofTolerance mean tolerance = .ok m) : m.Coherent := by
  obtain ⟨ht, rfl⟩ := ofTolerance_eq_ok.mp h
  refine ⟨min_le_max, ?_, ?_⟩
  · rintro _ ⟨⟩
    exact ht
  · rintro _ ⟨⟩
    rfl

/-- A measure is made from any bounds. -/
theorem ofBounds_eq_ok {bounds : Interval Rat} {m : Measure Rat} :
    ofBounds bounds = .ok m
      ↔ m = ⟨(meanAndTolerance bounds).1, (meanAndTolerance bounds).2, bounds⟩ := by
  show Except.ok (⟨(meanAndTolerance bounds).1, (meanAndTolerance bounds).2, bounds⟩
    : Measure Rat) = Except.ok m ↔ _
  rw [Except.ok.injEq, eq_comm]

theorem Coherent.ofBounds {bounds : Interval Rat} {m : Measure Rat}
    (hb : bounds.lower ≤ bounds.upper)
    (h : Measure.ofBounds bounds = .ok m) : m.Coherent := by
  rw [ofBounds_eq_ok.mp h]
  have hrec : ∀ t, (meanAndTolerance bounds).2 = some t →
      0 ≤ t ∧ bounds = Interval.around (meanAndTolerance bounds).1 t :=
    fun t ht => around_of_recovered hb (Prod.ext rfl ht)
  exact ⟨hb, fun t ht => (hrec t ht).1, fun t ht => (hrec t ht).2⟩

theorem Coherent.between {x y : Rat} {m : Measure Rat}
    (h : Measure.between x y = .ok m) : m.Coherent := by
  unfold Measure.between at h
  split at h
  · rename_i i hi
    exact .ofBounds (Interval.ordered_of_spanning hi) h
  · cases h

theorem Coherent.entered {m : Measure Rat} (h : m.Entered) : m.Coherent := by
  cases h with
  | ofTolerance h => exact .ofTolerance h
  | between h => exact .between h

/-- **Moving a measure to another mean moves every value along.** -/
theorem mem_rescaledTo {m n : Measure Rat} {mean x : Rat} (hm : m.Coherent)
    (hpos : 0 < m.mean) (hmean : 0 < mean) (h : m.rescaledTo mean = .ok n)
    (hx : x ∈ m.bounds) : x * (mean / m.mean) ∈ n.bounds := by
  have hratio : 0 < mean / m.mean := div_pos hmean hpos
  have hmove : m.mean * (mean / m.mean) = mean := mul_div_cancel₀ _ hpos.ne'
  unfold rescaledTo at h
  split at h
  · rename_i t ht
    obtain ⟨hnonneg, rfl⟩ := ofTolerance_eq_ok.mp h
    -- both ranges are spanned by the same tolerance
    rw [hm.around t ht, Interval.around_of_pos hpos hnonneg] at hx
    rw [Interval.around_of_pos hmean hnonneg]
    obtain ⟨hlow, hhigh⟩ := hx
    constructor
    · calc mean * (1 - t) = m.mean * (1 - t) * (mean / m.mean) := by
            rw [mul_right_comm, hmove]
        _ ≤ x * (mean / m.mean) := mul_le_mul_of_nonneg_right hlow hratio.le
    · calc x * (mean / m.mean) ≤ m.mean * (1 + t) * (mean / m.mean) :=
            mul_le_mul_of_nonneg_right hhigh hratio.le
        _ = mean * (1 + t) := by rw [mul_right_comm, hmove]
  · dsimp only at h
    split at h
    · rename_i i hi
      cases h
      exact Interval.mem_of_spanning hi
        (mul_le_mul_of_nonneg_right hx.1 hratio.le)
        (mul_le_mul_of_nonneg_right hx.2 hratio.le)
    · cases h

theorem Coherent.rescaledTo {m n : Measure Rat} {mean : Rat}
    (h : m.rescaledTo mean = .ok n) : n.Coherent := by
  unfold Measure.rescaledTo at h
  split at h
  · exact .ofTolerance h
  · dsimp only at h
    split at h
    · rename_i i hi
      cases h
      exact ⟨Interval.ordered_of_spanning hi, nofun, nofun⟩
    · cases h

end Measure

/-! ## Quantities -/

/-- **A quantity whose parts fit together.** -/
structure Quantity.Coherent (q : Quantity Rat) : Prop where
  /-- Mean, tolerance and bounds do. -/
  measure : q.measure.Coherent
  /-- The mean of a resistance is positive. -/
  positive : ∀ r, q = .resistance r → 0 < r.measure.mean

namespace Quantity

theorem Coherent.ofResistance {coefficient : Option Int} {m : Measure Rat}
    {t : Temperature Rat} {r : Resistance Rat} (hm : m.Coherent)
    (h : Resistance.ofMeasure m coefficient t = .ok r) :
    (Quantity.resistance r).Coherent := by
  obtain ⟨hpos, rfl⟩ := Resistance.ofMeasure_eq_ok.mp h
  refine ⟨hm, ?_⟩
  rintro _ ⟨⟩
  exact not_le.mp hpos

/-- What is recovered from bounds in order is coherent. -/
theorem RecoveredFrom.coherent {q : Quantity Rat} {bounds : Interval Rat}
    (h : q.RecoveredFrom bounds) (hb : bounds.lower ≤ bounds.upper) :
    q.Coherent := by
  refine ⟨.ofBounds hb h.measure, ?_⟩
  intro r hr
  exact not_le.mp (Resistance.ofMeasure_eq_ok.mp (h.resistance r hr)).1

/-- What a quantity recovered from bounds is bounded by. -/
theorem RecoveredFrom.bounds_eq {S : Type} [Scalar S] {q : Quantity S}
    {bounds : Interval S} (h : q.RecoveredFrom bounds) : q.bounds = bounds :=
  Measure.bounds_ofBounds h.measure

/-- Another tolerance leaves the mean where it is. -/
theorem Coherent.withTolerance {p q : Quantity Rat} {tolerance : Rat}
    (hp : p.Coherent) (h : p.withTolerance tolerance = .ok q) : q.Coherent := by
  unfold Quantity.withTolerance at h
  split at h
  · rename_i r
    obtain ⟨t, ht, rfl⟩ := Except.map_eq_ok.mp h
    obtain ⟨m, hm, ht⟩ := Except.bind_eq_ok.mp ht
    cases ht
    refine ⟨.ofTolerance hm, ?_⟩
    rintro _ ⟨⟩
    rw [(Measure.ofTolerance_eq_ok.mp hm).2]
    exact hp.positive r rfl
  · obtain ⟨m, hm, rfl⟩ := Except.map_eq_ok.mp h
    refine ⟨.ofTolerance hm, ?_⟩
    rintro _ ⟨⟩

/-- The result of an operator on coherent quantities is coherent. -/
theorem Coherent.combine (op : BinaryOperator) {p q r : Quantity Rat}
    (hp : p.Coherent) (hq : q.Coherent)
    (h : p.combine op q = .ok (.quantity r)) : r.Coherent := by
  obtain ⟨i, hi, hr⟩ := recoveredFrom_combine h
  exact hr.coherent
    (BinaryOperator.ordered_pairing hp.measure.ordered hq.measure.ordered hi)

/-- A resistance taken to another temperature has a positive mean, and its
measure is the one moved there. -/
theorem atTemperature_eq_ok {q s : Quantity Rat} {degrees : Rat}
    (h : q.atTemperature degrees = .ok s) :
    ∃ r t, q = .resistance r ∧ s = .resistance t ∧ 0 < t.measure.mean
      ∧ r.measure.rescaledTo t.measure.mean = .ok t.measure := by
  obtain ⟨r, t, rfl, rfl, ht⟩ := atTemperature_eq_resistance h
  obtain ⟨coefficient, m, -, -, hpos, hm, rfl⟩ := Resistance.atTemperature_eq_ok.mp ht
  refine ⟨r, _, rfl, rfl, ?_⟩
  dsimp only
  rw [Measure.mean_rescaledTo hm]
  exact ⟨not_le.mp hpos, hm⟩

/-- **Every way to make quantities keeps them coherent.** -/
theorem keptByMaking_coherent : KeptByMaking Quantity.Coherent where
  resistance hm h := .ofResistance (.entered hm) h
  plain _ hm := ⟨.entered hm, nofun⟩
  withTolerance hp h := hp.withTolerance h
  combine hp hq h := hp.combine _ hq h
  power _ h := (recoveredFrom_power h).coherent (Interval.ordered_of_spanning rfl)
  atTemperature _ h := by
    obtain ⟨r, t, rfl, rfl, hpos, hm⟩ := atTemperature_eq_ok h
    refine ⟨.rescaledTo hm, ?_⟩
    rintro _ ⟨⟩
    exact hpos

end Quantity

/-- **A quantity that was made is coherent.** -/
theorem MadeQuantity.coherent (q : MadeQuantity Rat) : q.quantity.Coherent :=
  q.has Quantity.keptByMaking_coherent

end WorstCase
