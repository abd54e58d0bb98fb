import WorstCase.Proofs.Interval.Rounded
import WorstCase.Proofs.Quantity.Constructible
import WorstCase.Proofs.Quantity.Temperature

/-!
# The bounds of a quantity are in order, and its mean is between them

That much survives rounding and overflow. The bounds of a quantity that was
made are numbers in order, and if it has a relative tolerance its mean lies
between them (`MadeQuantity.ordered`): a mean recovered from bounds is rounded to a number between them
(`Binary64.midpoint_mem`), and bounds spanned around a mean are rounded to its
two sides (`Binary64.mem_spread`). Without a tolerance the mean may lie
anywhere, since bounds scaled to a new mean are rounded on their own.

Only bounds spanned around a mean are tested for their order. They always pass
(`Measure.boundsAccepted_ofTolerance`), so whatever is attempted with
quantities that were made, the test is not what fails.
-/

namespace WorstCase

open Binary64

/-- **A measure that is in order.** -/
structure Measure.Ordered (m : Measure Binary64) : Prop where
  /-- The bounds are. Neither is then `nan`, which is in order with nothing. -/
  bounds : m.bounds.lower ≤ m.bounds.upper
  /-- Where there is a tolerance, the mean is between the bounds. -/
  mean : ∀ t, m.tolerance = some t → m.bounds.lower ≤ m.mean ∧ m.mean ≤ m.bounds.upper

/-- **The bounds of a measure are not at fault**: what came out is no rejection
of bounds. -/
def BoundsAccepted {S α : Type} (x : Except (QuantityError S) α) : Prop :=
  ∀ fault, x ≠ .error (.invalidBounds fault)

namespace BoundsAccepted

variable {S α β : Type}

theorem ok (a : α) : BoundsAccepted (.ok a : Except (QuantityError S) α) := nofun

theorem bind {x : Except (QuantityError S) α} {f : α → Except (QuantityError S) β}
    (hx : BoundsAccepted x) (hf : ∀ a, BoundsAccepted (f a)) : BoundsAccepted (x >>= f) := by
  intro fault h
  rcases Except.bind_eq_error.mp h with h | ⟨a, -, h⟩
  · exact hx fault h
  · exact hf a fault h

theorem map {x : Except (QuantityError S) α} (hx : BoundsAccepted x) (f : α → β) :
    BoundsAccepted (x.map f) :=
  fun fault h => hx fault (Except.map_eq_error.mp h)

theorem ite {c : Prop} [Decidable c] {x y : Except (QuantityError S) α} (hx : BoundsAccepted x)
    (hy : BoundsAccepted y) : BoundsAccepted (if c then x else y) := by
  split
  · exact hx
  · exact hy

end BoundsAccepted

/-! ## Measures -/

namespace Measure

variable {mean tolerance : Binary64} {m : Measure Binary64} {bounds : Interval Binary64}

/-- The bounds spanned around a mean have the mean between them. -/
theorem mem_spread (hmean : mean.isFinite = true) (ht : tolerance.isFinite = true)
    (hneg : ¬tolerance < 0) :
    Scalar.lesser (mean * (1 - tolerance)) (mean * (1 + tolerance)) ≤ mean
      ∧ mean ≤ Scalar.greater (mean * (1 - tolerance)) (mean * (1 + tolerance)) :=
  mem_lesser_greater (Binary64.mem_spread hmean ht (value_nonneg ht hneg))

/-- **Bounds spanned around a mean pass the test.** -/
theorem ofTolerance_eq (hmean : mean.isFinite = true) (ht : tolerance.isFinite = true)
    (hneg : ¬tolerance < 0) :
    ofTolerance mean tolerance = .ok ⟨mean, some tolerance,
      ⟨Scalar.lesser (mean * (1 - tolerance)) (mean * (1 + tolerance)),
        Scalar.greater (mean * (1 - tolerance)) (mean * (1 + tolerance))⟩⟩ := by
  obtain ⟨hlow, hhigh⟩ := mem_spread hmean ht hneg
  have hmean' : Scalar.isFinite mean = true := hmean
  have ht' : Scalar.isFinite tolerance = true := ht
  have hnum : Scalar.isNaN tolerance = false := isNaN_of_isFinite ht
  unfold ofTolerance
  dsimp only
  rw [Interval.ofBounds_of_le (Binary64.le_trans hlow hhigh)]
  simp [hmean', ht', hnum, hneg]

/-- A mean out of range and a tolerance that is none are what is rejected. -/
theorem ofTolerance_cases (mean tolerance : Binary64) :
    ofTolerance mean tolerance = .error (.invalidValue mean)
      ∨ ofTolerance mean tolerance = .error (.invalidTolerance tolerance)
      ∨ mean.isFinite = true ∧ tolerance.isFinite = true ∧ ¬tolerance < 0 := by
  unfold ofTolerance
  split
  · exact .inl rfl
  · rename_i hmean
    split
    · exact .inr (.inl rfl)
    · rename_i ht
      simp only [Bool.or_eq_true, not_or, Bool.not_eq_true', Bool.not_eq_false,
        decide_eq_true_iff] at hmean ht
      exact .inr (.inr ⟨hmean, ht.2, ht.1.2⟩)

/-- **A stated measure** has a mean in range and a tolerance that is one, and the
bounds that they span. -/
theorem eq_of_ofTolerance (h : ofTolerance mean tolerance = .ok m) :
    mean.isFinite = true ∧ tolerance.isFinite = true ∧ ¬tolerance < 0
      ∧ m = ⟨mean, some tolerance,
        ⟨Scalar.lesser (mean * (1 - tolerance)) (mean * (1 + tolerance)),
          Scalar.greater (mean * (1 - tolerance)) (mean * (1 + tolerance))⟩⟩ := by
  rcases ofTolerance_cases mean tolerance with hfault | hfault | ⟨hmean, ht, hneg⟩
  · cases hfault.symm.trans h
  · cases hfault.symm.trans h
  · exact ⟨hmean, ht, hneg, Except.ok.inj (h.symm.trans (ofTolerance_eq hmean ht hneg))⟩

theorem Ordered.ofTolerance (h : Measure.ofTolerance mean tolerance = .ok m) : m.Ordered := by
  obtain ⟨hmean, ht, hneg, rfl⟩ := eq_of_ofTolerance h
  have hmem := mem_spread hmean ht hneg
  exact ⟨Binary64.le_trans hmem.1 hmem.2, fun _ _ => hmem⟩

/-- **The bounds spanned around a mean are accepted**, whatever the mean and the
tolerance are. -/
theorem boundsAccepted_ofTolerance (mean tolerance : Binary64) :
    BoundsAccepted (ofTolerance mean tolerance) := by
  rcases ofTolerance_cases mean tolerance with h | h | ⟨hmean, ht, hneg⟩
  · rw [h]
    exact nofun
  · rw [h]
    exact nofun
  · rw [ofTolerance_eq hmean ht hneg]
    exact .ok _

/-- A mean recovered together with a tolerance is between the bounds. -/
theorem mem_meanAndTolerance {t : Binary64} (hfinite : bounds.isFinite = true)
    (hle : bounds.lower ≤ bounds.upper) (ht : (meanAndTolerance bounds).2 = some t) :
    bounds.lower ≤ (meanAndTolerance bounds).1 ∧ (meanAndTolerance bounds).1 ≤ bounds.upper := by
  rcases meanAndTolerance_eq_some ht with ⟨hlower, hupper, hmean, -⟩ | ⟨-, -, hmean, -⟩
  · rw [hmean]
    exact ⟨(le_of_same hlower).1, (le_of_same hupper).2⟩
  · rw [hmean]
    exact midpoint_mem (Interval.isFinite_lower hfinite) (Interval.isFinite_upper hfinite) hle

theorem Ordered.ofBounds (hle : bounds.lower ≤ bounds.upper)
    (h : Measure.ofBounds bounds = .ok m) : m.Ordered := by
  obtain ⟨hfinite, rfl⟩ := eq_of_ofBounds h
  exact ⟨hle, fun _ => mem_meanAndTolerance hfinite hle⟩

theorem Ordered.between {x y : Binary64} (h : Measure.between x y = .ok m) : m.Ordered := by
  unfold Measure.between at h
  split at h
  · rename_i i hi
    exact .ofBounds (Interval.le_of_spanning hi) h
  · cases h

theorem Ordered.entered (h : m.Entered) : m.Ordered := by
  cases h with
  | ofTolerance h => exact .ofTolerance h
  | between h => exact .between h

theorem Ordered.rescaledTo {n : Measure Binary64} (h : m.rescaledTo mean = .ok n) :
    n.Ordered := by
  unfold Measure.rescaledTo at h
  split at h
  · exact .ofTolerance h
  · dsimp only at h
    split at h
    · rename_i i hi
      cases h
      exact ⟨Interval.le_of_spanning hi, nofun⟩
    · cases h

end Measure

/-! ## Quantities -/

namespace Quantity

variable {p q r : Quantity Binary64} {bounds : Interval Binary64}

/-- What is recovered from bounds in order is in order. -/
theorem RecoveredFrom.ordered (h : q.RecoveredFrom bounds) (hle : bounds.lower ≤ bounds.upper) :
    q.measure.Ordered :=
  .ofBounds hle h.measure

theorem ordered_withTolerance {tolerance : Binary64} (h : p.withTolerance tolerance = .ok q) :
    q.measure.Ordered := by
  unfold withTolerance at h
  split at h
  · obtain ⟨s, hs, rfl⟩ := Except.map_eq_ok.mp h
    obtain ⟨m, hm, hs⟩ := Except.bind_eq_ok.mp hs
    cases hs
    exact .ofTolerance hm
  · obtain ⟨m, hm, rfl⟩ := Except.map_eq_ok.mp h
    exact .ofTolerance hm

theorem ordered_combine (op : BinaryOperator) (hp : p.measure.Ordered) (hq : q.measure.Ordered)
    (h : p.combine op q = .ok (.quantity r)) : r.measure.Ordered := by
  obtain ⟨i, hi, hr⟩ := recoveredFrom_combine h
  exact hr.ordered (BinaryOperator.le_pairing hp.bounds hq.bounds hi
    (Measure.eq_of_ofBounds hr.measure).1)

theorem ordered_atTemperature {degrees : Binary64} (h : p.atTemperature degrees = .ok q) :
    q.measure.Ordered := by
  obtain ⟨s, t, rfl, rfl, ht⟩ := atTemperature_eq_resistance h
  obtain ⟨coefficient, m, -, -, -, hm, rfl⟩ := Resistance.atTemperature_eq_ok.mp ht
  exact .rescaledTo hm

/-- **Every way to make quantities keeps them in order.** -/
theorem keptByMaking_ordered :
    KeptByMaking fun q : Quantity Binary64 => q.measure.Ordered where
  resistance hm h := by
    obtain ⟨-, rfl⟩ := Resistance.ofMeasure_eq_ok.mp h
    exact .entered hm
  plain _ hm := .entered hm
  withTolerance _ h := ordered_withTolerance h
  combine hp hq h := ordered_combine _ hp hq h
  power hp h := (recoveredFrom_power h).ordered (Interval.le_squareBounds hp.bounds)
  atTemperature _ h := ordered_atTemperature h

end Quantity

/-- **A quantity that was made is in order.** -/
theorem MadeQuantity.ordered (q : MadeQuantity Binary64) : q.quantity.measure.Ordered :=
  q.has Quantity.keptByMaking_ordered

/-! ## Attempts -/

section Attempts

variable {S : Type} [Scalar S]

/-- **What comes of an attempt** to make a quantity, or to do something with
quantities that were made. There is one rule for each way to make one and for
each operation. -/
inductive Quantity.Attempt : Except (QuantityError S) (Outcome S) → Prop where
  | ofTolerance (kind : Kind) (mean tolerance : S) :
    Attempt ((Quantity.ofTolerance kind mean tolerance).map .quantity)
  | between (kind : Kind) (x y : S) : Attempt ((Quantity.between kind x y).map .quantity)
  | resistanceOfTolerance (mean tolerance : S) (coefficient : Option Int) :
    Attempt ((Resistance.ofTolerance mean tolerance coefficient).map (.quantity ∘ .resistance))
  | resistanceBetween (x y : S) (coefficient : Option Int) :
    Attempt ((Resistance.between x y coefficient).map (.quantity ∘ .resistance))
  | withTolerance (p : MadeQuantity S) (tolerance : S) :
    Attempt ((p.quantity.withTolerance tolerance).map .quantity)
  | combine (op : BinaryOperator) (p q : MadeQuantity S) :
    Attempt (p.quantity.combine op q.quantity)
  | divider (p q v : MadeQuantity S) :
    Attempt (p.quantity.divider q.quantity (some v.quantity))
  | power (p : MadeQuantity S) (exponent : S) : Attempt (p.quantity.power exponent)
  | atTemperature (p : MadeQuantity S) (degrees : S) :
    Attempt ((p.quantity.atTemperature degrees).map .quantity)
  | addScalar (p : MadeQuantity S) (x : S) : Attempt (p.quantity.addScalar x)
  | subScalar (p : MadeQuantity S) (x : S) : Attempt (p.quantity.subScalar x)
  | mulScalar (p : MadeQuantity S) (x : S) : Attempt (p.quantity.mulScalar x)
  | divScalar (p : MadeQuantity S) (x : S) : Attempt (p.quantity.divScalar x)

namespace Quantity

/-- An operation with a bare number does not come to a quantity. -/
theorem ofScalarResult_ne_quantity (bounds : Option (Interval S)) (op : Operator)
    (q : Quantity S) : ofScalarResult bounds op ≠ .ok (.quantity q) := by
  unfold ofScalarResult
  split
  · split <;> nofun
  · nofun

theorem Attempt.constructible {x : Except (QuantityError S) (Outcome S)} {q : Quantity S}
    (h : Attempt x) (hx : x = .ok (.quantity q)) : q.Constructible := by
  cases h with
  | ofTolerance kind mean tolerance =>
    obtain ⟨r, hr, h⟩ := Except.map_eq_ok.mp hx
    cases h
    exact .ofTolerance hr
  | between kind x y =>
    obtain ⟨r, hr, h⟩ := Except.map_eq_ok.mp hx
    cases h
    exact .between hr
  | resistanceOfTolerance mean tolerance coefficient =>
    obtain ⟨r, hr, h⟩ := Except.map_eq_ok.mp hx
    cases h
    exact .resistanceOfTolerance hr
  | resistanceBetween x y coefficient =>
    obtain ⟨r, hr, h⟩ := Except.map_eq_ok.mp hx
    cases h
    exact .resistanceBetween hr
  | withTolerance p tolerance =>
    obtain ⟨r, hr, h⟩ := Except.map_eq_ok.mp hx
    cases h
    exact .withTolerance p.made hr
  | combine op p q => exact .combine p.made q.made hx
  | divider p q v => exact .divider p.made q.made v.made hx
  | power p exponent => exact .power p.made hx
  | atTemperature p degrees =>
    obtain ⟨r, hr, h⟩ := Except.map_eq_ok.mp hx
    cases h
    exact .atTemperature p.made hr
  | addScalar p x =>
    unfold Quantity.addScalar at hx
    split at hx
    · cases hx
    · exact absurd hx (ofScalarResult_ne_quantity _ _ _)
  | subScalar p x =>
    unfold Quantity.subScalar at hx
    split at hx
    · cases hx
    · exact absurd hx (ofScalarResult_ne_quantity _ _ _)
  | mulScalar p x => exact absurd hx (ofScalarResult_ne_quantity _ _ _)
  | divScalar p x =>
    unfold Quantity.divScalar at hx
    split at hx
    · cases hx
    · exact absurd hx (ofScalarResult_ne_quantity _ _ _)

/-- **The quantities that can be made are those that come of attempts.** -/
theorem constructible_iff_attempt {q : Quantity S} :
    q.Constructible ↔ Attempt (.ok (.quantity q)) := by
  refine ⟨fun h => ?_, fun h => h.constructible rfl⟩
  have hmade {α : Type} {f : α → Outcome S} {x : Except (QuantityError S) α} {a : α}
      (hx : Attempt (x.map f)) (h : x = .ok a) : Attempt (.ok (f a)) := by
    subst h
    exact hx
  cases h with
  | ofTolerance h => exact hmade (.ofTolerance _ _ _) h
  | between h => exact hmade (.between _ _ _) h
  | resistanceOfTolerance h =>
    exact hmade (f := .quantity ∘ .resistance) (.resistanceOfTolerance _ _ _) h
  | resistanceBetween h =>
    exact hmade (f := .quantity ∘ .resistance) (.resistanceBetween _ _ _) h
  | withTolerance hp h => exact hmade (.withTolerance ⟨_, hp⟩ _) h
  | combine hp hq h => exact h ▸ .combine _ ⟨_, hp⟩ ⟨_, hq⟩
  | divider hp hq hv h => exact h ▸ .divider ⟨_, hp⟩ ⟨_, hq⟩ ⟨_, hv⟩
  | power hp h => exact h ▸ .power ⟨_, hp⟩ _
  | atTemperature hp h => exact hmade (.atTemperature ⟨_, hp⟩ _) h

end Quantity

end Attempts

/-! ## Bounds are accepted -/

namespace BoundsAccepted

section Generic

variable {S : Type} [Scalar S]

theorem ofBounds (bounds : Interval S) : BoundsAccepted (Measure.ofBounds bounds) :=
  .ite nofun (.ite nofun (.ok _))

theorem between (x y : S) : BoundsAccepted (Measure.between x y) := by
  unfold Measure.between
  split
  · exact ofBounds _
  · exact nofun

theorem ofResistance (m : Measure S) (coefficient : Option Int) (t : Temperature S) :
    BoundsAccepted (Resistance.ofMeasure m coefficient t) :=
  .ite nofun (.ok _)

theorem ofMeasure (kind : Kind) (m : Measure S) (t : Temperature S) :
    BoundsAccepted (Quantity.ofMeasure kind m t) := by
  unfold Quantity.ofMeasure
  split
  · exact (ofResistance m none t).map _
  · exact .ok _

theorem ofResult (kind : Kind) (bounds : Interval S) (t : Temperature S) (op : Operator) :
    BoundsAccepted (Quantity.ofResult kind bounds t op) :=
  .ite nofun (.bind (ofBounds _) fun _ => ofMeasure _ _ _)

theorem ofResult? (kind : Kind) (bounds : Option (Interval S)) (t : Temperature S)
    (op : Operator) : BoundsAccepted (Quantity.ofResult? kind bounds t op) := by
  cases bounds with
  | none => exact nofun
  | some bounds => exact ofResult kind bounds t op

theorem ofScalarResult (bounds : Option (Interval S)) (op : Operator) :
    BoundsAccepted (Quantity.ofScalarResult bounds op) := by
  cases bounds with
  | none => exact nofun
  | some bounds => exact .ite (.ok _) nofun

theorem combined (r s : Resistance S) (bounds : Interval S) (op : Operator) :
    BoundsAccepted (r.combined s bounds op) :=
  .ite nofun (.bind (ofBounds _) fun _ => ofResistance _ _ _)

theorem parallel (p q : Quantity S) : BoundsAccepted (p.parallel q) := by
  unfold Quantity.parallel
  split
  · rename_i r s
    refine .map ?_ _
    unfold Resistance.parallel
    split
    · exact combined r s _ _
    · exact nofun
  · exact nofun

theorem dividerRatio (p q : Quantity S) : BoundsAccepted (p.dividerRatio q) := by
  unfold Quantity.dividerRatio
  split
  · rename_i r s
    refine .map ?_ _
    unfold Resistance.dividerRatio
    dsimp only
    refine .ite nofun ?_
    split
    · exact ofBounds _
    · exact nofun
  · exact nofun

theorem mul (p q : Quantity S) : BoundsAccepted (p.mul q) := by
  unfold Quantity.mul
  dsimp only
  split
  · exact nofun
  · exact .bind (ofResult? _ _ _ _) fun _ => .ok _

/-- The bounds that an operator pairs are not tested for their order. -/
theorem combine (op : BinaryOperator) (p q : Quantity S) : BoundsAccepted (p.combine op q) := by
  cases op with
  | add =>
    refine .ite nofun (.ite nofun ?_)
    split
    · rename_i r s
      exact .bind (combined r s _ _) fun _ => .ok _
    · exact .bind (ofResult _ _ _ _) fun _ => .ok _
  | sub => exact .ite nofun (.ite nofun (.ite nofun (.bind (ofResult _ _ _ _) fun _ => .ok _)))
  | mul => exact mul p q
  | div =>
    show BoundsAccepted (p.div q)
    unfold Quantity.div
    dsimp only
    split
    · exact nofun
    · exact .ite nofun (.bind (ofResult? _ _ _ _) fun _ => .ok _)
  | parallel => exact (parallel p q).map _
  | divider => exact .bind (dividerRatio p q) fun _ => .ok _

theorem divider (p q v : Quantity S) : BoundsAccepted (p.divider q (some v)) :=
  .bind (dividerRatio p q) fun ratio => mul v ratio

theorem power (p : Quantity S) (exponent : S) : BoundsAccepted (p.power exponent) := by
  unfold Quantity.power
  split
  · exact nofun
  · exact .ite nofun (.bind (ofResult _ _ _ _) fun _ => .ok _)

end Generic

theorem rescaledTo (m : Measure Binary64) (mean : Binary64) :
    BoundsAccepted (m.rescaledTo mean) := by
  unfold Measure.rescaledTo
  split
  · exact Measure.boundsAccepted_ofTolerance _ _
  · dsimp only
    split <;> nofun

theorem withTolerance (p : Quantity Binary64) (tolerance : Binary64) :
    BoundsAccepted (p.withTolerance tolerance) := by
  cases p with
  | resistance r =>
    have hr : BoundsAccepted (r.withTolerance tolerance) :=
      .bind (Measure.boundsAccepted_ofTolerance _ _) fun _ => .ok _
    exact hr.map Quantity.resistance
  | plain kind m ne => exact .map (Measure.boundsAccepted_ofTolerance _ _) _

theorem atTemperature (p : Quantity Binary64) (degrees : Binary64) :
    BoundsAccepted (p.atTemperature degrees) := by
  cases p with
  | plain kind m ne => exact nofun
  | resistance r =>
    refine .map ?_ _
    unfold Resistance.atTemperature
    split
    · exact nofun
    · exact .ite nofun (.ite nofun (.bind (rescaledTo _ _) fun _ => .ok _))

/-- **No attempt fails for bounds at fault.** -/
theorem of_attempt {x : Except (QuantityError Binary64) (Outcome Binary64)}
    (h : Quantity.Attempt x) : BoundsAccepted x := by
  cases h with
  | ofTolerance kind mean tolerance =>
    exact .map (.bind (Measure.boundsAccepted_ofTolerance _ _) fun _ => ofMeasure _ _ _) _
  | between kind x y => exact .map (.bind (between _ _) fun _ => ofMeasure _ _ _) _
  | resistanceOfTolerance mean tolerance coefficient =>
    exact .map (.bind (Measure.boundsAccepted_ofTolerance _ _) fun _ => ofResistance _ _ _) _
  | resistanceBetween x y coefficient =>
    exact .map (.bind (between _ _) fun _ => ofResistance _ _ _) _
  | withTolerance p tolerance => exact .map (withTolerance _ _) _
  | combine op p q => exact combine op _ _
  | divider p q v => exact divider _ _ _
  | power p exponent => exact power _ _
  | atTemperature p degrees => exact .map (atTemperature _ _) _
  | addScalar p x => exact .ite nofun (ofScalarResult _ _)
  | subScalar p x => exact .ite nofun (ofScalarResult _ _)
  | mulScalar p x => exact ofScalarResult _ _
  | divScalar p x => exact .ite nofun (ofScalarResult _ _)

end BoundsAccepted

/-- **Bounds stay in order.** Of a quantity that was made, both bounds are
numbers and they are in order, and with a relative tolerance the mean is between
them; and nothing that is attempted with such quantities comes to a rejection
of bounds. -/
theorem Quantity.ordered_and_boundsAccepted :
    (∀ q : MadeQuantity Binary64,
      q.quantity.bounds.lower.isNaN = false ∧ q.quantity.bounds.upper.isNaN = false
        ∧ q.quantity.bounds.lower ≤ q.quantity.bounds.upper
        ∧ ∀ t, q.quantity.measure.tolerance = some t →
          q.quantity.bounds.lower ≤ q.quantity.measure.mean
            ∧ q.quantity.measure.mean ≤ q.quantity.bounds.upper)
      ∧ ∀ x : Except (QuantityError Binary64) (Outcome Binary64), Quantity.Attempt x →
        ∀ fault, x ≠ .error (.invalidBounds fault) := by
  refine ⟨fun q => ?_, fun x hx => BoundsAccepted.of_attempt hx⟩
  obtain ⟨hlower, hupper, -⟩ := le_iff.mp q.ordered.bounds
  exact ⟨hlower, hupper, q.ordered.bounds, q.ordered.mean⟩

theorem Kind.voltage_ne_resistance : Kind.voltage ≠ .resistance := by decide

/-- A negative voltage, whose lower bound is the one further from zero. -/
def voltageDrop : Quantity Binary64 :=
  .plain .voltage ⟨ofRat (-5), some (ofRat (1 / 10)), ⟨ofRat (-11 / 2), ofRat (-9 / 2)⟩⟩
    Kind.voltage_ne_resistance

theorem Quantity.ordered_and_boundsAccepted_voltageDrop :
    Quantity.ofTolerance .voltage (ofRat (-5)) (ofRat (1 / 10)) = .ok voltageDrop
      ∧ voltageDrop.bounds.lower ≤ voltageDrop.measure.mean
      ∧ voltageDrop.measure.mean ≤ voltageDrop.bounds.upper
      ∧ ∀ fault, voltageDrop.combine .sub voltageDrop ≠ .error (.invalidBounds fault) := by
  have hmade : Quantity.ofTolerance .voltage (ofRat (-5)) (ofRat (1 / 10)) = .ok voltageDrop := by
    decide +kernel
  let drop : MadeQuantity Binary64 := ⟨voltageDrop, .ofTolerance hmade⟩
  obtain ⟨hordered, haccepted⟩ := ordered_and_boundsAccepted
  obtain ⟨-, -, -, hmean⟩ := hordered drop
  obtain ⟨hlow, hhigh⟩ := hmean _ rfl
  exact ⟨hmade, hlow, hhigh, haccepted _ (.combine .sub drop drop)⟩

end WorstCase
