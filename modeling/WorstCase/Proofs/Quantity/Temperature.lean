import WorstCase.Proofs.Evaluation.Success
import WorstCase.Proofs.Quantity.Recovery

/-!
# Resistances at other temperatures

A resistance is taken to another temperature from its value at 20 °C, which the
shift leaves as it is. So the mean it gets does not depend on where it was
before. Its bounds do not either, as long as they are made from the mean and a
relative tolerance; without a tolerance they are the current bounds scaled from
the current mean, and every shift rounds them once more.

No resistance that evaluation comes to is of the second sort. Literals are made
with a tolerance, and only they bring a coefficient in: what an operator makes
of resistances has none, and cannot be shifted at all. That is the invariant
here (`Quantity.Proportional`), and under it a second shift replaces the first
(`Quantity.atTemperature_atTemperature`).
-/

namespace WorstCase

variable {S : Type} [Scalar S]

namespace Measure

variable {m n : Measure S} {mean tolerance : S}

/-- A measure is made with the mean and the tolerance that are stated. -/
theorem exists_bounds_of_ofTolerance (h : ofTolerance mean tolerance = .ok m) :
    ∃ bounds, m = ⟨mean, some tolerance, bounds⟩ := by
  unfold ofTolerance at h
  split at h
  · cases h
  · split at h
    · cases h
    · dsimp only at h
      split at h
      · rename_i bounds _
        cases h
        exact ⟨bounds, rfl⟩
      · cases h

/-- A measure made with a tolerance has it. -/
theorem tolerance_ofTolerance (h : ofTolerance mean tolerance = .ok m) :
    m.tolerance = some tolerance := by
  obtain ⟨bounds, rfl⟩ := exists_bounds_of_ofTolerance h
  rfl

/-- A measure made with a mean has it. -/
theorem mean_ofTolerance (h : ofTolerance mean tolerance = .ok m) : m.mean = mean := by
  obtain ⟨bounds, rfl⟩ := exists_bounds_of_ofTolerance h
  rfl

/-- A measure moved to another mean has it. -/
theorem mean_rescaledTo (h : m.rescaledTo mean = .ok n) : n.mean = mean := by
  unfold rescaledTo at h
  split at h
  · exact mean_ofTolerance h
  · dsimp only at h
    split at h
    · cases h
      rfl
    · cases h

/-- With a tolerance, nothing else of a measure is moved to another mean. -/
theorem rescaledTo_of_tolerance (hm : m.tolerance = some tolerance) (mean : S) :
    m.rescaledTo mean = ofTolerance mean tolerance := by
  rw [rescaledTo, hm]

/-- A tolerance stays what it is. -/
theorem tolerance_rescaledTo (hm : m.tolerance = some tolerance)
    (h : m.rescaledTo mean = .ok n) : n.tolerance = some tolerance := by
  rw [rescaledTo_of_tolerance hm] at h
  exact tolerance_ofTolerance h

end Measure

/-! ## Resistances -/

namespace Resistance

variable {r s : Resistance S} {degrees : S}

/-- **A resistance is taken to another temperature** from its value at 20 °C,
and keeps it and its coefficient. -/
theorem atTemperature_eq_ok : r.atTemperature degrees = .ok s
      ↔ ∃ coefficient m, r.coefficient = some coefficient
        ∧ Scalar.isFinite degrees = true
        ∧ ¬r.reference * shiftFactor coefficient degrees ≤ 0
        ∧ r.measure.rescaledTo (r.reference * shiftFactor coefficient degrees) = .ok m
        ∧ s = { r with measure := m, temperature := .celsius degrees } := by
  unfold atTemperature
  cases r.coefficient with
  | none => exact ⟨fun h => (nomatch h), fun ⟨_, _, h, _⟩ => (nomatch h)⟩
  | some coefficient =>
    dsimp only
    cases Scalar.isFinite degrees with
    | false => exact ⟨fun h => (nomatch h), fun ⟨_, _, _, h, _⟩ => (nomatch h)⟩
    | true =>
      rw [if_neg (by decide)]
      by_cases hvalue : r.reference * shiftFactor coefficient degrees ≤ 0
      · rw [if_pos hvalue]
        refine ⟨fun h => (nomatch h), ?_⟩
        rintro ⟨_, _, ⟨⟩, -, hpos, -⟩
        exact absurd hvalue hpos
      · rw [if_neg hvalue, Except.bind_eq_ok]
        constructor
        · rintro ⟨m, hm, h⟩
          exact ⟨coefficient, m, rfl, rfl, hvalue, hm, (Except.ok.inj h).symm⟩
        · rintro ⟨_, m, ⟨⟩, -, -, hm, rfl⟩
          exact ⟨m, hm, rfl⟩

/-- **A resistance whose spread follows its mean**: if it has a coefficient, it
has a relative tolerance. -/
def Proportional (r : Resistance S) : Prop :=
  r.coefficient.isSome → r.measure.tolerance.isSome

/-- A shift keeps the tolerance, and there is one to keep. -/
theorem Proportional.tolerance_atTemperature (hr : r.Proportional)
    (h : r.atTemperature degrees = .ok s) :
    ∃ tolerance, r.measure.tolerance = some tolerance
      ∧ s.measure.tolerance = some tolerance := by
  obtain ⟨coefficient, m, hcoefficient, -, -, hm, rfl⟩ := atTemperature_eq_ok.mp h
  obtain ⟨tolerance, ht⟩ :=
    Option.isSome_iff_exists.mp (hr (Option.isSome_of_eq_some hcoefficient))
  exact ⟨tolerance, ht, Measure.tolerance_rescaledTo ht hm⟩

theorem Proportional.atTemperature (hr : r.Proportional)
    (h : r.atTemperature degrees = .ok s) : s.Proportional := by
  obtain ⟨tolerance, -, ht⟩ := hr.tolerance_atTemperature h
  exact fun _ => Option.isSome_of_eq_some ht

/-- **A second shift replaces the first**: only the last temperature counts. -/
theorem atTemperature_atTemperature (hr : r.Proportional)
    (h : r.atTemperature degrees = .ok s) (last : S) :
    s.atTemperature last = r.atTemperature last := by
  obtain ⟨tolerance, hbefore, hafter⟩ := hr.tolerance_atTemperature h
  have hrescale : s.measure.rescaledTo = r.measure.rescaledTo := by
    funext mean
    rw [Measure.rescaledTo_of_tolerance hafter, Measure.rescaledTo_of_tolerance hbefore]
  -- coefficient and reference are as they were
  obtain ⟨coefficient, m, -, -, -, -, rfl⟩ := atTemperature_eq_ok.mp h
  unfold atTemperature
  rw [hrescale]

end Resistance

/-! ## Quantities -/

namespace Quantity

variable {p q : Quantity S} {degrees : S}

/-- Only a resistance is taken to another temperature, and it stays one. -/
theorem atTemperature_eq_resistance (h : p.atTemperature degrees = .ok q) :
    ∃ r s, p = .resistance r ∧ q = .resistance s ∧ r.atTemperature degrees = .ok s := by
  unfold atTemperature at h
  split at h
  · rename_i r
    obtain ⟨s, hs, rfl⟩ := Except.map_eq_ok.mp h
    exact ⟨r, s, rfl, rfl, hs⟩
  · cases h

/-- **A quantity that can be shifted without loss**: if it is a resistance, its
spread follows its mean. -/
def Proportional (q : Quantity S) : Prop := ∀ r, q = .resistance r → r.Proportional

/-- **A second shift replaces the first**, and fails as a single one does. -/
theorem atTemperature_atTemperature (hp : p.Proportional)
    (h : p.atTemperature degrees = .ok q) (last : S) :
    q.atTemperature last = p.atTemperature last := by
  obtain ⟨r, s, rfl, rfl, hs⟩ := atTemperature_eq_resistance h
  unfold atTemperature
  dsimp only
  rw [Resistance.atTemperature_atTemperature (hp r rfl) hs]

/-- What is recovered from bounds has no coefficient. -/
theorem RecoveredFrom.proportional {bounds : Interval S} (h : q.RecoveredFrom bounds) :
    q.Proportional := by
  intro r hr hcoefficient
  rw [(Resistance.ofMeasure_eq_ok.mp (h.resistance r hr)).2] at hcoefficient
  cases hcoefficient

/-- A literal is made with a tolerance. -/
theorem Proportional.literal {l : Literal S} {span : Span} (h : l.eval span = .ok q) :
    q.Proportional := by
  rcases Literal.eval_eq_ok h with ⟨-, r, rfl, hr⟩ | ⟨hkind, -, hq⟩
  · rintro _ ⟨⟩ -
    obtain ⟨m, hm, hr⟩ := Except.bind_eq_ok.mp hr
    obtain ⟨-, rfl⟩ := Resistance.ofMeasure_eq_ok.mp hr
    exact Option.isSome_of_eq_some (Measure.tolerance_ofTolerance hm)
  · obtain ⟨m, -, hq⟩ := Except.bind_eq_ok.mp hq
    rcases ofMeasure_eq_ok hq with ⟨hresistance, -⟩ | ⟨-, rfl⟩
    · exact absurd hresistance hkind
    · exact nofun

/-- **Evaluation comes to nothing else.** -/
theorem keptByEvaluation_proportional : KeptByEvaluation (Proportional (S := S)) where
  literal := .literal
  combine _ _ h := by
    obtain ⟨i, -, hr⟩ := recoveredFrom_combine h
    exact hr.proportional
  power _ h := (recoveredFrom_power h).proportional
  atTemperature hp h := by
    obtain ⟨r, s, rfl, rfl, hs⟩ := atTemperature_eq_resistance h
    rintro _ ⟨⟩
    exact (hp r rfl).atTemperature hs

end Quantity

end WorstCase
