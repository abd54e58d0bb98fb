import WorstCase.Proofs.Measure.Tolerance
import WorstCase.Proofs.Quantity.Ordered

/-!
# Resistances are positive, and remember where they come from

A resistance is made with a mean, and that is its reference from then on: whatever temperature it is taken
to, and whatever tolerance it is given, the reference is the mean it was first made with. What combines
resistances, or comes to a resistance by a product or a quotient, makes a new one.

All of them are positive. That is not a matter of the bounds, which may be negative, so that sums and
products of bounds may have a middle that is negative or zero. It is a matter of tests, and there are two:
one where a resistance is first made, and one where it is taken to another temperature. Another tolerance is
not tested at all. So positivity is an invariant of how resistances come about (`Resistance.MadeFrom`), and
not of the single operations. A resistance that carries where it comes from (`Resistance.Traced`) has it.

Both tests are for a mean of zero or less, which a mean that is no number passes. None comes up: means that
are stated are tested to be numbers, means that are recovered are in range because the bounds are, and the
mean that a shift computes is a number wherever bounds can be moved to it
(`Measure.isNaN_of_rescaledTo`).
-/

namespace WorstCase

open Binary64

/-! ## Means that are numbers -/

/-- What is not zero or less, and is a number, is positive. -/
theorem Binary64.pos_of_not_le {x : Binary64} (hx : x.isNaN = false) (h : ¬x ≤ 0) : 0 < x :=
  lt_iff.mpr ⟨rfl, hx, not_le.mp fun hle => h (le_iff.mpr ⟨hx, rfl, hle⟩)⟩

theorem Binary64.not_le_of_pos {x : Binary64} (h : 0 < x) : ¬x ≤ 0 := fun hle =>
  (lt_iff.mp h).2.2.not_ge (le_iff.mp hle).2.2

/-- Times what is no number is no number. -/
theorem Binary64.isNaN_of_isNaN_mul {x y : Binary64} (h : (x * y).isNaN = false) :
    y.isNaN = false := by
  cases y with
  | nan => cases x <;> cases h
  | signed n r hr => rfl

/-- A part of what is no number is no number. -/
theorem Binary64.isNaN_of_isNaN_div {x y : Binary64} (h : (x / y).isNaN = false) :
    x.isNaN = false := by
  cases x with
  | nan => cases h
  | signed n r hr => rfl

namespace Measure

variable {m n : Measure Binary64} {mean tolerance : Binary64} {bounds : Interval Binary64}

/-- A stated mean is a number. -/
theorem isNaN_of_ofTolerance (h : ofTolerance mean tolerance = .ok m) : mean.isNaN = false :=
  isNaN_of_isFinite (eq_of_ofTolerance h).1

/-- A mean recovered from bounds in order is a number. -/
theorem isNaN_of_ofBounds (hle : bounds.lower ≤ bounds.upper) (h : ofBounds bounds = .ok m) :
    m.mean.isNaN = false := by
  obtain ⟨hfinite, rfl⟩ := eq_of_ofBounds h
  exact isNaN_of_isFinite (isFinite_recoveredMean hfinite hle)

/-- A measure between two bounds is made from the range between them. -/
theorem exists_spanning_of_between {x y : Binary64} (h : between x y = .ok m) :
    ∃ i, Interval.spanning x y = some i ∧ ofBounds i = .ok m := by
  unfold between at h
  split at h
  · rename_i i hi
    exact ⟨i, hi, h⟩
  · cases h

/-- **A measure is only moved to a mean that is a number.** The mean itself is tested only if there is a
tolerance; without one, bounds times what is no number are no bounds. -/
theorem isNaN_of_rescaledTo (h : m.rescaledTo mean = .ok n) : mean.isNaN = false := by
  unfold rescaledTo at h
  split at h
  · exact isNaN_of_ofTolerance h
  · dsimp only at h
    split at h
    · rename_i i hi
      have hlower : (m.bounds.lower * (mean / m.mean)).isNaN = false := by
        unfold Interval.scale Interval.spanning at hi
        split at hi
        · cases hi
        · rename_i hnum
          rw [Bool.or_eq_true, not_or, Bool.not_eq_true, Bool.not_eq_true] at hnum
          exact hnum.1
      exact isNaN_of_isNaN_div (isNaN_of_isNaN_mul hlower)
    · cases h

end Measure

/-! ## How resistances come about -/

namespace Resistance

section Attempts

variable {S : Type} [Scalar S]

/-- **The resistances that can be made**, each with the mean that it was first made with, one rule for each
way to make one. -/
inductive MadeFrom : S → Resistance S → Prop where
  /-- From a mean and a relative tolerance. -/
  | ofTolerance {mean tolerance : S} {coefficient : Option Int} {r : Resistance S}
    (h : Resistance.ofTolerance mean tolerance coefficient = .ok r) : MadeFrom r.measure.mean r
  /-- Between two bounds. -/
  | between {x y : S} {coefficient : Option Int} {r : Resistance S}
    (h : Resistance.between x y coefficient = .ok r) : MadeFrom r.measure.mean r
  /-- In series. -/
  | series {a b : S} {r s t : Resistance S} (hr : MadeFrom a r) (hs : MadeFrom b s)
    (h : r.series s = .ok t) : MadeFrom t.measure.mean t
  /-- In parallel. -/
  | parallel {a b : S} {r s t : Resistance S} (hr : MadeFrom a r) (hs : MadeFrom b s)
    (h : r.parallel s = .ok t) : MadeFrom t.measure.mean t
  /-- As a product of quantities. -/
  | mul {p q : Quantity S} {r : Resistance S} (h : p.mul q = .ok (.quantity (.resistance r))) :
    MadeFrom r.measure.mean r
  /-- As a quotient of quantities. -/
  | div {p q : Quantity S} {r : Resistance S} (h : p.div q = .ok (.quantity (.resistance r))) :
    MadeFrom r.measure.mean r
  /-- By a change of temperature. -/
  | atTemperature {origin degrees : S} {r s : Resistance S} (hr : MadeFrom origin r)
    (h : r.atTemperature degrees = .ok s) : MadeFrom origin s
  /-- With another tolerance. -/
  | withTolerance {origin tolerance : S} {r s : Resistance S} (hr : MadeFrom origin r)
    (h : r.withTolerance tolerance = .ok s) : MadeFrom origin s

/-- **A resistance with where it comes from.** -/
structure Traced (S : Type) [Scalar S] where
  /-- The mean that it was first made with. -/
  origin : S
  /-- The resistance. -/
  resistance : Resistance S
  /-- It was made with that mean, and then shifted or given other tolerances. -/
  made : resistance.MadeFrom origin

/-- What comes of making a resistance, as the outcome of an operation on quantities. -/
def outcome (x : Except (QuantityError S) (Resistance S)) : Except (QuantityError S) (Outcome S) :=
  x.map (.quantity ∘ .resistance)

/-- **An attempt at a resistance, with the mean that it would have**, one rule for each way to make one. The
mean is what the operation computes before it tests it. -/
inductive Attempt : S → Except (QuantityError S) (Outcome S) → Prop where
  | ofTolerance {mean tolerance : S} {m : Measure S} (h : Measure.ofTolerance mean tolerance = .ok m)
    (coefficient : Option Int) :
    Attempt m.mean (outcome (Resistance.ofTolerance mean tolerance coefficient))
  | between {x y : S} {m : Measure S} (h : Measure.between x y = .ok m) (coefficient : Option Int) :
    Attempt m.mean (outcome (Resistance.between x y coefficient))
  | series {r s : Resistance S} {m : Measure S}
    (h : Measure.ofBounds (r.measure.bounds + s.measure.bounds) = .ok m) :
    Attempt m.mean (outcome (r.series s))
  | parallel {r s : Resistance S} {bounds : Interval S} {m : Measure S}
    (hbounds : r.measure.bounds.parallel s.measure.bounds = some bounds)
    (h : Measure.ofBounds bounds = .ok m) : Attempt m.mean (outcome (r.parallel s))
  | mul {p q : Quantity S} {bounds : Interval S} {m : Measure S}
    (hkind : p.kind.product q.kind = some .resistance)
    (hbounds : p.bounds.mulBounds q.bounds = some bounds) (h : Measure.ofBounds bounds = .ok m) :
    Attempt m.mean (p.mul q)
  | div {p q : Quantity S} {bounds : Interval S} {m : Measure S}
    (hkind : p.kind.quotient q.kind = some .resistance) (hzero : q.bounds.hasZeroBound = false)
    (hbounds : p.bounds.divBounds q.bounds = some bounds) (h : Measure.ofBounds bounds = .ok m) :
    Attempt m.mean (p.div q)
  | atTemperature {r : Resistance S} {coefficient : Int} {degrees : S}
    (hcoefficient : r.coefficient = some coefficient) (hdegrees : Scalar.isFinite degrees = true) :
    Attempt (r.reference * shiftFactor coefficient degrees) (outcome (r.atTemperature degrees))
  | withTolerance (r : Traced S) (tolerance : S) :
    Attempt r.resistance.measure.mean (outcome (r.resistance.withTolerance tolerance))

end Attempts

/-! ## Positive, with a reference -/

/-- **A resistance as it should be**, first made with a mean. -/
structure Positive (origin : Binary64) (r : Resistance Binary64) : Prop where
  /-- The mean is positive. -/
  mean : 0 < r.measure.mean
  /-- The mean that it was first made with is. -/
  origin_pos : 0 < origin
  /-- The reference is that mean. -/
  reference : r.reference = origin
  /-- With a coefficient, it is at one temperature. -/
  temperature : r.coefficient.isSome = true → ∃ degrees, r.temperature = .celsius degrees
  /-- Its bounds are in order, so that those of a series are. -/
  ordered : r.measure.Ordered

namespace Positive

variable {origin a b : Binary64} {r s t : Resistance Binary64}

/-- **What is made from a measure is tested**, and its mean is its reference. -/
theorem ofMeasure {m : Measure Binary64} {coefficient : Option Int} {temperature : Temperature Binary64}
    (hm : m.Ordered) (hnum : m.mean.isNaN = false)
    (htemperature : coefficient.isSome = true → ∃ degrees, temperature = .celsius degrees)
    (h : Resistance.ofMeasure m coefficient temperature = .ok r) : r.Positive r.measure.mean := by
  obtain ⟨hpos, rfl⟩ := ofMeasure_eq_ok.mp h
  have hmean := pos_of_not_le hnum hpos
  exact ⟨hmean, hmean, rfl, htemperature, hm⟩

/-- What an operation recovers from bounds in order has no coefficient. -/
theorem recovered {bounds : Interval Binary64} (hle : bounds.lower ≤ bounds.upper)
    (h : (Quantity.resistance r).RecoveredFrom bounds) : r.Positive r.measure.mean := by
  refine .ofMeasure (.ofBounds hle h.measure) (Measure.isNaN_of_ofBounds hle h.measure) ?_
    (h.resistance r rfl)
  exact nofun

theorem series (hr : r.Positive a) (hs : s.Positive b) (h : r.series s = .ok t) :
    t.Positive t.measure.mean := by
  have hrecovered := recoveredFrom_combined h
  have hfinite := (Measure.eq_of_ofBounds hrecovered.measure).1
  exact .recovered (Interval.le_add hr.ordered.bounds hs.ordered.bounds hfinite) hrecovered

theorem parallel (h : r.parallel s = .ok t) : t.Positive t.measure.mean := by
  obtain ⟨i, hi, ht⟩ := parallel_eq_ok.mp h
  exact .recovered (Interval.le_of_spanning hi) (recoveredFrom_combined ht)

/-- **A shift is tested as well**, and leaves the reference as it is. -/
theorem atTemperature {degrees : Binary64} (hr : r.Positive origin)
    (h : r.atTemperature degrees = .ok s) : s.Positive origin := by
  obtain ⟨coefficient, m, -, -, hpos, hm, rfl⟩ := atTemperature_eq_ok.mp h
  refine ⟨?_, hr.origin_pos, hr.reference, fun _ => ⟨degrees, rfl⟩, .rescaledTo hm⟩
  show 0 < m.mean
  rw [Measure.mean_rescaledTo hm]
  exact pos_of_not_le (Measure.isNaN_of_rescaledTo hm) hpos

/-- **Another tolerance is not tested**, but leaves the mean where it is. -/
theorem withTolerance {tolerance : Binary64} (hr : r.Positive origin)
    (h : r.withTolerance tolerance = .ok s) : s.Positive origin := by
  obtain ⟨m, hm, h⟩ := Except.bind_eq_ok.mp h
  cases h
  refine ⟨?_, hr.origin_pos, hr.reference, hr.temperature, .ofTolerance hm⟩
  show 0 < m.mean
  rw [Measure.mean_ofTolerance hm]
  exact hr.mean

end Positive

/-- **Every resistance that can be made is positive**, and its reference is the mean that it was first made
with. -/
theorem MadeFrom.positive {origin : Binary64} {r : Resistance Binary64} (h : r.MadeFrom origin) :
    r.Positive origin := by
  induction h with
  | ofTolerance h =>
    obtain ⟨m, hm, h⟩ := Except.bind_eq_ok.mp h
    have hnum := Measure.isNaN_of_ofTolerance hm
    rw [← Measure.mean_ofTolerance hm] at hnum
    exact .ofMeasure (.ofTolerance hm) hnum (fun _ => ⟨_, rfl⟩) h
  | between h =>
    obtain ⟨m, hm, h⟩ := Except.bind_eq_ok.mp h
    obtain ⟨i, hi, hm⟩ := Measure.exists_spanning_of_between hm
    have hle := Interval.le_of_spanning hi
    exact .ofMeasure (.ofBounds hle hm) (Measure.isNaN_of_ofBounds hle hm) (fun _ => ⟨_, rfl⟩) h
  | series hr hs h ihr ihs => exact ihr.series ihs h
  | parallel hr hs h ihr ihs => exact .parallel h
  | mul h =>
    obtain ⟨i, hi, hr⟩ := Quantity.recoveredFrom_mul h
    exact .recovered (Interval.le_of_spanning hi) hr
  | div h =>
    obtain ⟨i, hi, hr⟩ := Quantity.recoveredFrom_div h
    exact .recovered (Interval.le_of_spanning hi) hr
  | atTemperature hr h ih => exact ih.atTemperature h
  | withTolerance hr h ih => exact ih.withTolerance h

/-- **A resistance that was made is positive**, and its reference is the mean that it was first made with. -/
theorem Traced.positive (r : Traced Binary64) : r.resistance.Positive r.origin := r.made.positive

/-! ## What is not positive is not made -/

section Attempts

variable {mean : Binary64} {x : Except (QuantityError Binary64) (Outcome Binary64)}

/-- **What an attempt comes to**: with a mean of zero or less, to the error that says so, and otherwise to
nothing else than a resistance of that mean. -/
structure Decided (mean : Binary64) (x : Except (QuantityError Binary64) (Outcome Binary64)) : Prop where
  rejected : mean ≤ 0 → x = .error (.invalidResistance mean)
  mean : ∀ r, x = .ok (.quantity (.resistance r)) → r.measure.mean = mean

theorem outcome_eq_ok {x : Except (QuantityError Binary64) (Resistance Binary64)}
    {r : Resistance Binary64} (h : outcome x = .ok (.quantity (.resistance r))) : x = .ok r := by
  obtain ⟨s, rfl, hs⟩ := Except.map_eq_ok.mp h
  cases hs
  rfl

/-- To make a resistance from a measure is to test its mean. -/
theorem Decided.ofMeasure (m : Measure Binary64) (coefficient : Option Int)
    (temperature : Temperature Binary64) :
    Decided m.mean (outcome (Resistance.ofMeasure m coefficient temperature)) := by
  refine ⟨fun hle => ?_, fun r hr => ?_⟩
  · unfold Resistance.ofMeasure
    rw [if_pos hle]
    rfl
  · obtain ⟨-, rfl⟩ := ofMeasure_eq_ok.mp (outcome_eq_ok hr)
    rfl

theorem Decided.combined {r s : Resistance Binary64} {bounds : Interval Binary64} {m : Measure Binary64}
    (h : Measure.ofBounds bounds = .ok m) (op : Operator) :
    Decided m.mean (outcome (Resistance.combined r s bounds op)) := by
  have hfinite := (Measure.eq_of_ofBounds h).1
  unfold Resistance.combined
  rw [hfinite, if_neg (by decide), h, Except.ok_bind]
  exact .ofMeasure _ _ _

theorem Decided.ofResult {bounds : Interval Binary64} {m : Measure Binary64}
    (h : Measure.ofBounds bounds = .ok m) (temperature : Temperature Binary64) (op : Operator) :
    Decided m.mean (Quantity.ofResult? .resistance (some bounds) temperature op >>=
      fun q => pure (.quantity q)) := by
  have hfinite := (Measure.eq_of_ofBounds h).1
  have hresult : Quantity.ofResult? .resistance (some bounds) temperature op
      = (Resistance.ofMeasure m none temperature).map .resistance := by
    show Quantity.ofResult .resistance bounds temperature op = _
    unfold Quantity.ofResult
    rw [hfinite, if_neg (by decide), h]
    rfl
  rw [hresult]
  have hdecided := Decided.ofMeasure m none temperature
  unfold outcome at hdecided
  cases hmade : Resistance.ofMeasure m none temperature with
  | error e => rwa [hmade] at hdecided
  | ok r => rwa [hmade] at hdecided

/-- **Every attempt is decided by its mean.** -/
theorem Attempt.decided (h : Attempt mean x) : Decided mean x := by
  cases h with
  | ofTolerance h coefficient =>
    unfold Resistance.ofTolerance
    rw [h, Except.ok_bind]
    exact .ofMeasure _ _ _
  | between h coefficient =>
    unfold Resistance.between
    rw [h, Except.ok_bind]
    exact .ofMeasure _ _ _
  | series h => exact .combined h _
  | parallel hbounds h =>
    unfold Resistance.parallel
    rw [hbounds]
    exact .combined h _
  | mul hkind hbounds h =>
    unfold Quantity.mul
    rw [hkind, hbounds]
    exact .ofResult h _ _
  | div hkind hzero hbounds h =>
    unfold Quantity.div
    rw [hkind, hzero, hbounds]
    exact .ofResult h _ _
  | @atTemperature r coefficient degrees hcoefficient hdegrees =>
    refine ⟨fun hle => ?_, fun s hs => ?_⟩
    · unfold Resistance.atTemperature
      rw [hcoefficient]
      dsimp only
      rw [hdegrees, if_neg (by decide), if_pos hle]
      rfl
    · obtain ⟨coefficient', m, hsame, -, -, hm, rfl⟩ := atTemperature_eq_ok.mp (outcome_eq_ok hs)
      cases hcoefficient.symm.trans hsame
      exact Measure.mean_rescaledTo hm
  | withTolerance r tolerance =>
    refine ⟨fun hle => ?_, fun s hs => ?_⟩
    · -- the mean is positive, so that there is nothing to test
      exact absurd hle (not_le_of_pos r.positive.mean)
    · obtain ⟨m, hm, hs⟩ := Except.bind_eq_ok.mp (outcome_eq_ok hs)
      cases hs
      exact Measure.mean_ofTolerance hm

end Attempts

/-- **Whatever was made is what an attempt came to**, at the mean that it has. -/
theorem MadeFrom.attempt {origin : Binary64} {r : Resistance Binary64} (h : r.MadeFrom origin) :
    Attempt r.measure.mean (.ok (.quantity (.resistance r))) := by
  -- the mean of an attempt is that of the resistance it came to
  have hmade {mean : Binary64} {x : Except (QuantityError Binary64) (Outcome Binary64)}
      {r : Resistance Binary64} (hx : Attempt mean x) (h : x = .ok (.quantity (.resistance r))) :
      Attempt r.measure.mean (.ok (.quantity (.resistance r))) := by
    rw [hx.decided.mean r h, ← h]
    exact hx
  cases h with
  | ofTolerance h =>
    obtain ⟨m, hm, -⟩ := Except.bind_eq_ok.mp h
    exact hmade (.ofTolerance hm _) (congrArg outcome h)
  | between h =>
    obtain ⟨m, hm, -⟩ := Except.bind_eq_ok.mp h
    exact hmade (.between hm _) (congrArg outcome h)
  | series hr hs h =>
    obtain ⟨-, m, hm, -⟩ := combined_eq_ok.mp h
    exact hmade (.series hm) (congrArg outcome h)
  | parallel hr hs h =>
    obtain ⟨i, hi, ht⟩ := parallel_eq_ok.mp h
    obtain ⟨-, m, hm, -⟩ := combined_eq_ok.mp ht
    exact hmade (.parallel hi hm) (congrArg outcome h)
  | mul h =>
    obtain ⟨kind, hkind, hr⟩ := Quantity.mul_eq_quantity h
    obtain ⟨i, hi, hr⟩ := Quantity.ofResult?_eq_ok.mp hr
    obtain ⟨-, m, hm, -⟩ := Quantity.ofResult_eq_ok.mp hr
    cases Quantity.kind_ofResult hr
    exact hmade (.mul hkind hi hm) h
  | div h =>
    obtain ⟨kind, hkind, hzero, hr⟩ := Quantity.div_eq_quantity h
    obtain ⟨i, hi, hr⟩ := Quantity.ofResult?_eq_ok.mp hr
    obtain ⟨-, m, hm, -⟩ := Quantity.ofResult_eq_ok.mp hr
    cases Quantity.kind_ofResult hr
    exact hmade (.div hkind (Bool.not_eq_true _ ▸ hzero) hi hm) h
  | atTemperature hr h =>
    obtain ⟨coefficient, m, hcoefficient, hdegrees, -⟩ := atTemperature_eq_ok.mp h
    exact hmade (.atTemperature hcoefficient hdegrees) (congrArg outcome h)
  | withTolerance hr h => exact hmade (.withTolerance ⟨_, _, hr⟩ _) (congrArg outcome h)

/-- **Resistances are positive, and keep the reference they were made with.** Whatever sequence of
constructors and operations a resistance comes from, its mean and its reference are positive, the reference
is the mean that the resistance was first made with, and with a coefficient it is at one temperature. An
attempt that would give a mean of zero or less fails with the error that says so, and any other that comes
to a resistance gives it the mean of the attempt; every resistance that was made came of such an attempt.
Without a coefficient there is no other temperature. -/
theorem positive_with_reference :
    (∀ traced : Traced Binary64,
      let r := traced.resistance
      0 < r.measure.mean ∧ 0 < r.reference ∧ r.reference = traced.origin
        ∧ (r.coefficient.isSome = true → ∃ degrees, r.temperature = .celsius degrees)
        ∧ Attempt r.measure.mean (.ok (.quantity (.resistance r))))
    ∧ (∀ (mean : Binary64) (x : Except (QuantityError Binary64) (Outcome Binary64)), Attempt mean x →
      (mean ≤ 0 → x = .error (.invalidResistance mean))
        ∧ ∀ r, x = .ok (.quantity (.resistance r)) → r.measure.mean = mean)
    ∧ ∀ (r : Resistance Binary64) (degrees : Binary64), r.coefficient = none →
      r.atTemperature degrees = .error .missingCoefficient := by
  refine ⟨fun traced => ?_, fun mean x hx => ⟨hx.decided.rejected, hx.decided.mean⟩,
    fun r degrees hr => ?_⟩
  · have hpositive := traced.positive
    refine ⟨hpositive.mean, ?_, hpositive.reference, hpositive.temperature, traced.made.attempt⟩
    rw [hpositive.reference]
    exact hpositive.origin_pos
  · unfold atTemperature
    rw [hr]

/-- A resistor of 100 Ω with a tolerance of five percent and a coefficient of 200 ppm. -/
def wirewound : Resistance Binary64 :=
  ⟨⟨ofRat 100, some (ofRat (1 / 20)), ⟨ofRat 95, ofRat 105⟩⟩, some 200, ofRat 100, .reference⟩

/-- The resistor is taken to 70 °C and then given a tolerance of one percent. It cannot be taken to
-5000 °C, where its value would be negative. -/
theorem positive_with_reference_wirewound :
    (∃ s t, wirewound.atTemperature (ofRat 70) = .ok s ∧ s.withTolerance (ofRat (1 / 100)) = .ok t
      ∧ 0 < t.measure.mean ∧ t.reference = ofRat 100)
    ∧ wirewound.atTemperature (ofRat (-5000))
      = .error (.invalidResistance (ofRat 100 * shiftFactor 200 (ofRat (-5000))))
    ∧ atTemperature { wirewound with coefficient := none } (ofRat 70) = .error .missingCoefficient := by
  obtain ⟨hmade, hattempt, hmissing⟩ := positive_with_reference
  have hbase : MadeFrom (ofRat 100) wirewound :=
    .ofTolerance (show ofTolerance (ofRat 100) (ofRat (1 / 20)) (some 200) = .ok wirewound by
      decide +kernel)
  refine ⟨?_, ?_, hmissing _ _ rfl⟩
  · cases hs : wirewound.atTemperature (ofRat 70) with
    | error e =>
      have hok : (wirewound.atTemperature (ofRat 70)).isOk = true := by decide +kernel
      rw [hs] at hok
      cases hok
    | ok s =>
      cases ht : s.withTolerance (ofRat (1 / 100)) with
      | error e =>
        have hok : (wirewound.atTemperature (ofRat 70) >>= (·.withTolerance (ofRat (1 / 100)))).isOk
            = true := by decide +kernel
        rw [hs, Except.ok_bind, ht] at hok
        cases hok
      | ok t =>
        have htraced := (hbase.atTemperature hs).withTolerance ht
        obtain ⟨hmean, -, hreference, -⟩ := hmade ⟨ofRat 100, t, htraced⟩
        exact ⟨s, t, rfl, ht, hmean, hreference⟩
  · have hrejected := (hattempt _ _ (.atTemperature (r := wirewound) rfl (by decide +kernel))).1
      (show ofRat 100 * shiftFactor 200 (ofRat (-5000)) ≤ 0 by decide +kernel)
    exact Except.map_eq_error.mp hrejected

end Resistance

end WorstCase
