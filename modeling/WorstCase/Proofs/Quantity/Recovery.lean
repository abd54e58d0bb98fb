import WorstCase.Proofs.Except
import WorstCase.Quantity.Basic

/-!
# Results are recovered from their bounds

Every operation on quantities pairs the bounds of its operands, and recovers
the rest of the result from the paired bounds. What is paired with what is the
whole difference between the operators, and `BinaryOperator.pairing?` says it
in one place; kinds and temperatures only decide whether there is a result.

An operation that has a quantity for its result has it in one way only. What it
asked of its operands, and what it then made of their bounds, is said once for
each (`Quantity.add_eq_quantity` and those beside it). So an operator's result
is known from its pairing (`Quantity.recoveredFrom_combine`), and what is to be
proved about results is proved about bounds.
-/

namespace WorstCase

variable {S : Type} [Scalar S]

/-- The ratios of a voltage divider, as far apart as they get. -/
def Interval.divider (i j : Interval S) : Option (Interval S) :=
  let ends := Resistance.extremes (Resistance.dividerRatios i j)
  spanning ends.1 ends.2

/-- **How an operator pairs the bounds of its operands.** -/
def BinaryOperator.pairing? :
    BinaryOperator → Interval S → Interval S → Option (Interval S)
  | .add, i, j => some (i + j)
  | .sub, i, j => some (i - j)
  | .mul, i, j => i.mulBounds j
  | .div, i, j => i.divBounds j
  | .parallel, i, j => i.parallel j
  | .divider, i, j => i.divider j

/-- **A quantity recovered from its bounds**: they give its mean and its
tolerance, and a resistance among them is one without a coefficient. -/
structure Quantity.RecoveredFrom (q : Quantity S) (bounds : Interval S) :
    Prop where
  /-- The measure is the one of the bounds. -/
  measure : Measure.ofBounds bounds = .ok q.measure
  /-- A resistance is made from the measure alone. -/
  resistance : ∀ r, q = .resistance r →
    Resistance.ofMeasure r.measure none r.temperature = .ok r

/-! ## What bounds give back -/

section MeanAndTolerance

open Scalar

variable {bounds : Interval S} {t : S}

/-- **The ways in which a mean and a tolerance are recovered**, in the order in
which they are tried. -/
theorem meanAndTolerance_cases (bounds : Interval S) :
    (same bounds.lower 0 = true ∧ same bounds.upper 0 = true)
        ∧ meanAndTolerance bounds = (0, some 0)
      ∨ ¬(same bounds.lower 0 = true ∧ same bounds.upper 0 = true)
        ∧ (same bounds.lower (-bounds.upper) = true ∧ meanAndTolerance bounds = (0, none)
          ∨ ¬same bounds.lower (-bounds.upper) = true
            ∧ ((same bounds.lower bounds.upper = true
                  ∨ 1 < Scalar.abs ((bounds.upper - bounds.midpoint) / bounds.midpoint))
                ∧ meanAndTolerance bounds = (bounds.midpoint, none)
              ∨ ¬same bounds.lower bounds.upper = true
                ∧ ¬1 < Scalar.abs ((bounds.upper - bounds.midpoint) / bounds.midpoint)
                ∧ meanAndTolerance bounds
                  = (bounds.midpoint,
                    some (Scalar.abs ((bounds.upper - bounds.midpoint) / bounds.midpoint))))) := by
  unfold meanAndTolerance
  dsimp only
  by_cases hzero : same bounds.lower 0 = true ∧ same bounds.upper 0 = true
  · rw [if_pos (Bool.and_eq_true_iff.mpr hzero)]
    exact .inl ⟨hzero, rfl⟩
  · rw [if_neg (mt Bool.and_eq_true_iff.mp hzero)]
    refine .inr ⟨hzero, ?_⟩
    by_cases hopposite : same bounds.lower (-bounds.upper) = true
    · rw [if_pos hopposite]
      exact .inl ⟨hopposite, rfl⟩
    · rw [if_neg hopposite]
      refine .inr ⟨hopposite, ?_⟩
      by_cases hsingle : same bounds.lower bounds.upper = true
      · rw [if_pos hsingle]
        exact .inl ⟨.inl hsingle, rfl⟩
      · rw [if_neg hsingle]
        by_cases hwide : 1 < Scalar.abs ((bounds.upper - bounds.midpoint) / bounds.midpoint)
        · rw [if_pos hwide]
          exact .inl ⟨.inr hwide, rfl⟩
        · rw [if_neg hwide]
          exact .inr ⟨hsingle, hwide, rfl⟩

/-- **Where a tolerance comes from**: a range that is zero alone, or one that has
more than one value and is not too wide for its middle. -/
theorem meanAndTolerance_eq_some (h : (meanAndTolerance bounds).2 = some t) :
    same bounds.lower 0 = true ∧ same bounds.upper 0 = true
        ∧ (meanAndTolerance bounds).1 = 0 ∧ t = 0
      ∨ ¬same bounds.lower (-bounds.upper) = true ∧ ¬same bounds.lower bounds.upper = true
        ∧ (meanAndTolerance bounds).1 = bounds.midpoint
        ∧ t = Scalar.abs ((bounds.upper - bounds.midpoint) / bounds.midpoint) ∧ ¬1 < t := by
  rcases meanAndTolerance_cases bounds with
    ⟨⟨hlower, hupper⟩, heq⟩ | ⟨-, ⟨-, heq⟩ | ⟨hopposite, ⟨-, heq⟩ | ⟨hsingle, hwide, heq⟩⟩⟩ <;>
    rw [heq] at h ⊢ <;> cases h
  · exact .inl ⟨hlower, hupper, rfl, rfl⟩
  · exact .inr ⟨hopposite, hsingle, rfl, rfl, hwide⟩

end MeanAndTolerance

namespace Measure

/-- A measure is made from bounds in range, which give the rest of it. -/
theorem eq_of_ofBounds {bounds : Interval S} {m : Measure S} (h : ofBounds bounds = .ok m) :
    bounds.isFinite = true
      ∧ m = ⟨(meanAndTolerance bounds).1, (meanAndTolerance bounds).2, bounds⟩ := by
  unfold ofBounds at h
  split at h
  · cases h
  · rename_i hlower
    split at h
    · cases h
    · rename_i hupper
      cases h
      rw [Bool.not_eq_true', Bool.not_eq_false] at hlower hupper
      exact ⟨Bool.and_eq_true_iff.mpr ⟨hlower, hupper⟩, rfl⟩

/-- Bounds that a measure is made from are kept. -/
theorem bounds_ofBounds {bounds : Interval S} {m : Measure S}
    (h : ofBounds bounds = .ok m) : m.bounds = bounds := by
  rw [(eq_of_ofBounds h).2]

/-- A measure is made from all bounds in range. -/
theorem exists_ofBounds_eq_ok {bounds : Interval S} :
    (∃ m, ofBounds bounds = .ok m) ↔ bounds.isFinite = true := by
  refine ⟨fun ⟨m, h⟩ => (eq_of_ofBounds h).1, fun h => ?_⟩
  obtain ⟨hlower, hupper⟩ := Bool.and_eq_true_iff.mp h
  refine ⟨⟨(meanAndTolerance bounds).1, (meanAndTolerance bounds).2, bounds⟩, ?_⟩
  unfold ofBounds
  rw [hlower, hupper]
  rfl

end Measure

/-- What is recovered from bounds has them in range. -/
theorem Quantity.RecoveredFrom.isFinite {q : Quantity S} {bounds : Interval S}
    (h : q.RecoveredFrom bounds) : q.bounds.isFinite = true := by
  rw [Quantity.bounds, Measure.bounds_ofBounds h.measure]
  exact (Measure.eq_of_ofBounds h.measure).1

/-! ## Resistances -/

namespace Resistance

/-- A resistance is made from a measure with a positive mean, which it keeps
as its value at 20 °C. -/
theorem ofMeasure_eq_ok {m : Measure S} {coefficient : Option Int}
    {t : Temperature S} {r : Resistance S} :
    ofMeasure m coefficient t = .ok r
      ↔ ¬m.mean ≤ (0 : S) ∧ r = ⟨m, coefficient, m.mean, t⟩ := by
  unfold ofMeasure
  by_cases hm : m.mean ≤ (0 : S)
  · rw [if_pos hm]
    exact ⟨fun h => (nomatch h), fun h => absurd hm h.1⟩
  · rw [if_neg hm, Except.ok.injEq]
    exact ⟨fun h => ⟨hm, h.symm⟩, fun h => h.2.symm⟩

/-- A combination is made from finite bounds. -/
theorem combined_eq_ok {r s t : Resistance S} {bounds : Interval S} {op : Operator} :
    combined r s bounds op = .ok t
      ↔ bounds.isFinite = true ∧ ∃ m, Measure.ofBounds bounds = .ok m
        ∧ ofMeasure m none (r.temperature.combine s.temperature) = .ok t := by
  unfold combined
  cases bounds.isFinite with
  | false => exact ⟨fun h => (nomatch h), fun h => (nomatch h.1)⟩
  | true => exact Except.bind_eq_ok.trans (and_iff_right rfl).symm

/-- A parallel connection has bounds. -/
theorem parallel_eq_ok {r s t : Resistance S} :
    r.parallel s = .ok t
      ↔ ∃ i, r.measure.bounds.parallel s.measure.bounds = some i
        ∧ combined r s i BinaryOperator.parallel = .ok t := by
  unfold parallel
  cases r.measure.bounds.parallel s.measure.bounds with
  | none => exact ⟨fun h => (nomatch h), fun ⟨_, h, _⟩ => (nomatch h)⟩
  | some i =>
    refine ⟨fun h => ⟨i, rfl, h⟩, ?_⟩
    rintro ⟨_, ⟨⟩, h⟩
    exact h

/-- The resistances of a divider are at one temperature. -/
theorem dividerRatio_eq_ok {r s : Resistance S} {m : Measure S} :
    r.dividerRatio s = .ok m
      ↔ r.temperature.same s.temperature = true
        ∧ ∃ i, r.measure.bounds.divider s.measure.bounds = some i
          ∧ Measure.ofBounds i = .ok m := by
  unfold dividerRatio Interval.divider
  dsimp only
  cases r.temperature.same s.temperature with
  | false =>
    refine ⟨fun h => (nomatch h), ?_⟩
    rintro ⟨⟨⟩, -⟩
  | true =>
    rw [and_iff_right rfl, if_neg (by decide)]
    generalize extremes (dividerRatios r.measure.bounds s.measure.bounds) = ends
    cases Interval.spanning ends.1 ends.2 with
    | none =>
      refine ⟨fun h => (nomatch h), ?_⟩
      rintro ⟨_, ⟨⟩, -⟩
    | some i =>
      refine ⟨fun h => ⟨i, rfl, h⟩, ?_⟩
      rintro ⟨_, ⟨⟩, h⟩
      exact h

/-- A combination of two resistances is recovered from its bounds. -/
theorem recoveredFrom_combined {r s t : Resistance S} {bounds : Interval S}
    {op : Operator} (h : combined r s bounds op = .ok t) :
    (Quantity.resistance t).RecoveredFrom bounds := by
  obtain ⟨-, m, hm, h⟩ := combined_eq_ok.mp h
  obtain ⟨-, rfl⟩ := ofMeasure_eq_ok.mp h
  refine ⟨hm, ?_⟩
  rintro _ ⟨⟩
  exact h

end Resistance

namespace Quantity

/-! ## Results -/

/-- A quantity of a kind is made from its measure. A resistance gets no
coefficient. -/
theorem ofMeasure_eq_ok {kind : Kind} {m : Measure S} {t : Temperature S}
    {q : Quantity S} (h : ofMeasure kind m t = .ok q) :
    (kind = .resistance ∧ ∃ r, q = .resistance r ∧ Resistance.ofMeasure m none t = .ok r)
      ∨ ∃ hkind, q = .plain kind m hkind := by
  unfold ofMeasure at h
  split at h
  · rename_i hkind
    obtain ⟨r, hr, rfl⟩ := Except.map_eq_ok.mp h
    exact .inl ⟨hkind, r, rfl, hr⟩
  · rename_i hkind
    cases h
    exact .inr ⟨hkind, rfl⟩

/-- **Only a resistance may fail to be made**, for a mean of zero or less. -/
theorem exists_ofMeasure_eq_ok {kind : Kind} {m : Measure S} {t : Temperature S} :
    (∃ q, ofMeasure kind m t = .ok q) ↔ (kind = .resistance → ¬m.mean ≤ 0) := by
  unfold ofMeasure
  split
  · rename_i hkind
    rw [forall_prop_of_true hkind]
    constructor
    · rintro ⟨q, h⟩
      obtain ⟨r, hr, -⟩ := Except.map_eq_ok.mp h
      exact (Resistance.ofMeasure_eq_ok.mp hr).1
    · intro hmean
      exact ⟨_, Except.map_eq_ok.mpr ⟨_, Resistance.ofMeasure_eq_ok.mpr ⟨hmean, rfl⟩, rfl⟩⟩
  · rename_i hkind
    exact iff_of_true ⟨_, rfl⟩ fun h => absurd h hkind

/-- A result is made from finite bounds. -/
theorem ofResult_eq_ok {kind : Kind} {bounds : Interval S} {t : Temperature S}
    {op : Operator} {q : Quantity S} :
    ofResult kind bounds t op = .ok q
      ↔ bounds.isFinite = true ∧ ∃ m, Measure.ofBounds bounds = .ok m
        ∧ ofMeasure kind m t = .ok q := by
  unfold ofResult
  cases bounds.isFinite with
  | false => exact ⟨fun h => (nomatch h), fun h => (nomatch h.1)⟩
  | true => exact Except.bind_eq_ok.trans (and_iff_right rfl).symm

/-- **What has a result**: bounds in range, unless their middle is that of no
resistance. -/
theorem exists_ofResult_eq_ok {kind : Kind} {bounds : Interval S} {t : Temperature S}
    {op : Operator} :
    (∃ q, ofResult kind bounds t op = .ok q)
      ↔ bounds.isFinite = true
        ∧ (kind = .resistance → ¬(meanAndTolerance bounds).1 ≤ 0) := by
  constructor
  · rintro ⟨q, h⟩
    obtain ⟨hfinite, m, hm, h⟩ := ofResult_eq_ok.mp h
    have hmade := exists_ofMeasure_eq_ok.mp ⟨q, h⟩
    rw [(Measure.eq_of_ofBounds hm).2] at hmade
    exact ⟨hfinite, hmade⟩
  · rintro ⟨hfinite, hmean⟩
    obtain ⟨m, hm⟩ := Measure.exists_ofBounds_eq_ok.mpr hfinite
    rw [show (meanAndTolerance bounds).1 = m.mean by rw [(Measure.eq_of_ofBounds hm).2]] at hmean
    obtain ⟨q, hq⟩ := exists_ofMeasure_eq_ok (t := t).mpr hmean
    exact ⟨q, ofResult_eq_ok.mpr ⟨hfinite, m, hm, hq⟩⟩

/-- A result whose bounds may not exist has some. -/
theorem ofResult?_eq_ok {kind : Kind} {bounds : Option (Interval S)}
    {t : Temperature S} {op : Operator} {q : Quantity S} :
    ofResult? kind bounds t op = .ok q
      ↔ ∃ i, bounds = some i ∧ ofResult kind i t op = .ok q := by
  cases bounds with
  | none => exact ⟨fun h => (nomatch h), fun ⟨_, h, _⟩ => (nomatch h)⟩
  | some i =>
    refine ⟨fun h => ⟨i, rfl, h⟩, ?_⟩
    rintro ⟨_, ⟨⟩, h⟩
    exact h

/-- A result is recovered from its bounds. -/
theorem recoveredFrom_ofResult {kind : Kind} {bounds : Interval S}
    {t : Temperature S} {op : Operator} {q : Quantity S}
    (h : ofResult kind bounds t op = .ok q) : q.RecoveredFrom bounds := by
  obtain ⟨-, m, hm, h⟩ := ofResult_eq_ok.mp h
  rcases ofMeasure_eq_ok h with ⟨-, r, rfl, hr⟩ | ⟨hkind, rfl⟩
  · obtain ⟨-, rfl⟩ := Resistance.ofMeasure_eq_ok.mp hr
    refine ⟨hm, ?_⟩
    rintro _ ⟨⟩
    exact hr
  · exact ⟨hm, nofun⟩

/-- A result is of the kind it is made for. -/
theorem kind_ofResult {kind : Kind} {bounds : Interval S} {t : Temperature S}
    {op : Operator} {q : Quantity S} (h : ofResult kind bounds t op = .ok q) :
    q.kind = kind := by
  obtain ⟨-, m, -, h⟩ := ofResult_eq_ok.mp h
  rcases ofMeasure_eq_ok h with ⟨rfl, r, rfl, -⟩ | ⟨hkind, rfl⟩
  · rfl
  · rfl

/-! ## The operators -/

omit [Scalar S] in
/-- What has the kind of a resistance is one. -/
theorem exists_resistance {p : Quantity S} (h : p.kind = .resistance) :
    ∃ s, p = .resistance s := by
  cases p with
  | resistance s => exact ⟨s, rfl⟩
  | plain kind measure ne => exact absurd h ne

variable {p q r : Quantity S}

/-- A sum is of two quantities of one kind, and not of factors. Resistances are
put in series. -/
theorem add_eq_quantity (h : p.add q = .ok (.quantity r)) :
    p.kind ≠ .factor ∧ p.kind = q.kind
      ∧ ((∃ s t u, p = .resistance s ∧ q = .resistance t ∧ r = .resistance u
          ∧ s.series t = .ok u)
        ∨ p.kind ≠ .resistance
          ∧ ofResult p.kind (p.bounds + q.bounds) .reference BinaryOperator.add = .ok r) := by
  unfold add at h
  dsimp only at h
  split at h
  · cases h
  · rename_i hfactor
    split at h
    · cases h
    · rename_i hsame
      refine ⟨hfactor, Decidable.not_not.mp hsame, ?_⟩
      split at h
      · rename_i s t
        obtain ⟨u, hu, h⟩ := Except.bind_eq_ok.mp h
        cases h
        exact .inl ⟨s, t, u, rfl, rfl, rfl, hu⟩
      · rename_i hnot
        obtain ⟨t, ht, h⟩ := Except.bind_eq_ok.mp h
        cases h
        refine .inr ⟨fun hp => ?_, ht⟩
        obtain ⟨s, rfl⟩ := exists_resistance hp
        obtain ⟨t, rfl⟩ := exists_resistance ((Decidable.not_not.mp hsame).symm.trans hp)
        exact hnot s t rfl rfl

/-- A difference is of two quantities of one kind, and neither of factors nor of
resistances. -/
theorem sub_eq_quantity (h : p.sub q = .ok (.quantity r)) :
    p.kind ≠ .factor ∧ p.kind = q.kind ∧ p.kind ≠ .resistance
      ∧ ofResult p.kind (p.bounds - q.bounds) .reference BinaryOperator.sub = .ok r := by
  unfold sub at h
  dsimp only at h
  split at h
  · cases h
  · rename_i hfactor
    split at h
    · cases h
    · rename_i hsame
      split at h
      · cases h
      · rename_i hresistance
        obtain ⟨t, ht, h⟩ := Except.bind_eq_ok.mp h
        cases h
        exact ⟨hfactor, Decidable.not_not.mp hsame, hresistance, ht⟩

/-- A product is of two quantities whose kinds have one. -/
theorem mul_eq_quantity (h : p.mul q = .ok (.quantity r)) :
    ∃ kind, p.kind.product q.kind = some kind
      ∧ ofResult? kind (p.bounds.mulBounds q.bounds) (inheritedTemperature p q)
        BinaryOperator.mul = .ok r := by
  unfold mul at h
  dsimp only at h
  split at h
  · cases h
  · rename_i kind hkind
    obtain ⟨t, ht, h⟩ := Except.bind_eq_ok.mp h
    cases h
    exact ⟨kind, hkind, ht⟩

/-- A quotient is of two quantities whose kinds have one, and the divisor has no
bound of zero. -/
theorem div_eq_quantity (h : p.div q = .ok (.quantity r)) :
    ∃ kind, p.kind.quotient q.kind = some kind ∧ ¬q.bounds.hasZeroBound = true
      ∧ ofResult? kind (p.bounds.divBounds q.bounds) (inheritedTemperature p q)
        BinaryOperator.div = .ok r := by
  unfold div at h
  dsimp only at h
  split at h
  · cases h
  · rename_i kind hkind
    split at h
    · cases h
    · rename_i hzero
      obtain ⟨t, ht, h⟩ := Except.bind_eq_ok.mp h
      cases h
      exact ⟨kind, hkind, hzero, ht⟩

/-- A parallel connection is of two resistances. -/
theorem parallel_eq_ok (h : p.parallel q = .ok r) :
    ∃ s t u, p = .resistance s ∧ q = .resistance t ∧ r = .resistance u
      ∧ s.parallel t = .ok u := by
  unfold parallel at h
  split at h
  · rename_i s t
    obtain ⟨u, hu, rfl⟩ := Except.map_eq_ok.mp h
    exact ⟨s, t, u, rfl, rfl, rfl, hu⟩
  · cases h

/-- A divider is of two resistances, and its ratio is a factor. -/
theorem dividerRatio_eq_ok (h : p.dividerRatio q = .ok r) :
    ∃ s t m, p = .resistance s ∧ q = .resistance t ∧ r = .plain .factor m (by decide)
      ∧ s.dividerRatio t = .ok m := by
  unfold dividerRatio at h
  split at h
  · rename_i s t
    obtain ⟨m, hm, rfl⟩ := Except.map_eq_ok.mp h
    exact ⟨s, t, m, rfl, rfl, rfl, hm⟩
  · cases h

/-- A divider without a voltage is its ratio. -/
theorem divider_none_eq_ok {o : Outcome S} :
    p.divider q none = .ok o ↔ ∃ r, p.dividerRatio q = .ok r ∧ .quantity r = o := by
  unfold divider
  rw [Except.bind_eq_ok]
  refine exists_congr fun r => and_congr_right fun _ => ?_
  show Except.ok (Outcome.quantity r) = Except.ok o ↔ _
  rw [Except.ok.injEq]

/-- A divider with a voltage multiplies it by the ratio. -/
theorem divider_some_eq_ok {v : Quantity S} {o : Outcome S} :
    p.divider q (some v) = .ok o ↔ ∃ r, p.dividerRatio q = .ok r ∧ v.mul r = .ok o := by
  unfold divider
  exact Except.bind_eq_ok

/-- A power is the square of a quantity whose kind has one. -/
theorem power_eq_quantity {exponent : S} (h : p.power exponent = .ok (.quantity r)) :
    ∃ kind, p.kind.squared = some kind ∧ Scalar.same exponent (Scalar.ofRat 2) = true
      ∧ ofResult kind p.bounds.squareBounds .reference .power = .ok r := by
  unfold power at h
  split at h
  · cases h
  · rename_i kind hkind
    split at h
    · cases h
    · rename_i htwo
      rw [Bool.not_eq_true', Bool.not_eq_false] at htwo
      obtain ⟨t, ht, h⟩ := Except.bind_eq_ok.mp h
      cases h
      exact ⟨kind, hkind, htwo, ht⟩

/-! ## Recovery -/

theorem recoveredFrom_add (h : p.add q = .ok (.quantity r)) :
    r.RecoveredFrom (p.bounds + q.bounds) := by
  obtain ⟨-, -, h⟩ := add_eq_quantity h
  rcases h with ⟨s, t, u, rfl, rfl, rfl, hu⟩ | ⟨-, h⟩
  · exact Resistance.recoveredFrom_combined hu
  · exact recoveredFrom_ofResult h

theorem recoveredFrom_sub (h : p.sub q = .ok (.quantity r)) :
    r.RecoveredFrom (p.bounds - q.bounds) := by
  obtain ⟨-, -, -, h⟩ := sub_eq_quantity h
  exact recoveredFrom_ofResult h

theorem recoveredFrom_mul (h : p.mul q = .ok (.quantity r)) :
    ∃ i, p.bounds.mulBounds q.bounds = some i ∧ r.RecoveredFrom i := by
  obtain ⟨kind, -, h⟩ := mul_eq_quantity h
  obtain ⟨i, hi, h⟩ := ofResult?_eq_ok.mp h
  exact ⟨i, hi, recoveredFrom_ofResult h⟩

theorem recoveredFrom_div (h : p.div q = .ok (.quantity r)) :
    ∃ i, p.bounds.divBounds q.bounds = some i ∧ r.RecoveredFrom i := by
  obtain ⟨kind, -, -, h⟩ := div_eq_quantity h
  obtain ⟨i, hi, h⟩ := ofResult?_eq_ok.mp h
  exact ⟨i, hi, recoveredFrom_ofResult h⟩

theorem recoveredFrom_parallel (h : p.parallel q = .ok r) :
    ∃ i, p.bounds.parallel q.bounds = some i ∧ r.RecoveredFrom i := by
  obtain ⟨s, t, u, rfl, rfl, rfl, hu⟩ := parallel_eq_ok h
  obtain ⟨i, hi, hu⟩ := Resistance.parallel_eq_ok.mp hu
  exact ⟨i, hi, Resistance.recoveredFrom_combined hu⟩

theorem recoveredFrom_dividerRatio (h : p.dividerRatio q = .ok r) :
    ∃ i, p.bounds.divider q.bounds = some i ∧ r.RecoveredFrom i := by
  obtain ⟨s, t, m, rfl, rfl, rfl, hm⟩ := dividerRatio_eq_ok h
  obtain ⟨-, i, hi, hm⟩ := Resistance.dividerRatio_eq_ok.mp hm
  exact ⟨i, hi, ⟨hm, nofun⟩⟩

/-- **The result of an operator is recovered from the bounds it pairs.** -/
theorem recoveredFrom_combine {op : BinaryOperator}
    (h : p.combine op q = .ok (.quantity r)) :
    ∃ i, op.pairing? p.bounds q.bounds = some i ∧ r.RecoveredFrom i := by
  cases op with
  | add => exact ⟨_, rfl, recoveredFrom_add h⟩
  | sub => exact ⟨_, rfl, recoveredFrom_sub h⟩
  | mul => exact recoveredFrom_mul h
  | div => exact recoveredFrom_div h
  | parallel =>
    obtain ⟨s, hs, h⟩ := Except.map_eq_ok.mp h
    cases h
    exact recoveredFrom_parallel hs
  | divider =>
    obtain ⟨s, hs, h⟩ := divider_none_eq_ok.mp h
    cases h
    exact recoveredFrom_dividerRatio hs

/-- **A power is recovered from the squares of the bounds.** -/
theorem recoveredFrom_power {exponent : S}
    (h : p.power exponent = .ok (.quantity r)) :
    r.RecoveredFrom p.bounds.squareBounds := by
  obtain ⟨kind, -, -, h⟩ := power_eq_quantity h
  exact recoveredFrom_ofResult h

end Quantity

end WorstCase
