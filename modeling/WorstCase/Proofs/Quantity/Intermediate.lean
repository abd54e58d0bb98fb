import WorstCase.Proofs.Binary64.Range
import WorstCase.Proofs.Evaluation.Dimensions
import WorstCase.Proofs.Interval.Rounded

/-!
# Overflow on the way to a result

An operation computes numbers from the bounds of its operands before it recovers
a mean and a tolerance. That the bounds of a result are in range says something
about these numbers only where an overflow on the way cannot get lost. In most
operations it cannot: what is computed is a bound itself, or, for a parallel
connection, is out of range together with the bound
(`Binary64.isFinite_of_isFinite_mul_div_add`).

A voltage divider loses it twice. A sum out of range makes a ratio of zero, and
a ratio that is no number is left out when the least and the greatest one are
looked for. So the numbers an operation computes come in two lists,
`Operation.tested` and `Operation.passedOver`, and only a divider has any in the
second one.

So for a divider the question is not which numbers are out of range but when it
fails, and that has an answer of its own: where its ratio does, and with a
voltage also where the product of voltage and ratio does
(`Operation.divider_fails_iff`, `Operation.tap_fails_iff`).
-/

namespace WorstCase

open Binary64

section Computed

variable {S : Type} [Scalar S]

/-! ## What is computed -/

/-- **The numbers that an operator computes from the bounds of two ranges**, and
that have to be in range for the result to be. -/
def BinaryOperator.tested : BinaryOperator → Interval S → Interval S → List S
  | .add, i, j => [i.lower + j.lower, i.upper + j.upper]
  | .sub, i, j => [i.lower - j.upper, i.upper - j.lower]
  | .mul, i, j => [i.lower * j.lower, i.upper * j.upper]
  | .div, i, j => [i.lower / j.upper, i.upper / j.lower]
  | .parallel, i, j =>
    let ofBound (x y : S) := [x * y, x + y, x * y / (x + y)]
    ofBound i.lower j.lower ++ ofBound i.upper j.upper
  | .divider, i, j => (Resistance.dividerRatios i j).filter (!Scalar.isNaN ·)

/-- What a divider computes besides: the sums that are the denominators of the
ratios, and the ratios that are no numbers. -/
def Interval.passedOver (i j : Interval S) : List S :=
  [i.lower + j.lower, i.lower + j.upper, i.upper + j.lower, i.upper + j.upper]
    ++ (Resistance.dividerRatios i j).filter Scalar.isNaN

/-- The numbers that an operator computes from the bounds of two quantities. It
computes none if it does not join their kinds. -/
def Quantity.tested (op : BinaryOperator) (p q : Quantity S) : List S :=
  if (op.kind? p.kind q.kind).isSome then op.tested p.bounds q.bounds else []

/-- **An operation** that computes with the bounds of quantities. -/
inductive Operation (S : Type) where
  /-- An operator between two quantities. -/
  | combine (op : BinaryOperator) (p q : Quantity S)
  /-- The voltage at the tap of a divider. -/
  | tap (p q voltage : Quantity S)
  /-- A square. -/
  | square (p : Quantity S)
  | addScalar (p : Quantity S) (offset : S)
  | subScalar (p : Quantity S) (offset : S)
  | mulScalar (p : Quantity S) (factor : S)
  | divScalar (p : Quantity S) (divisor : S)

namespace Operation

/-- What it comes to. -/
def outcome : Operation S → Except (QuantityError S) (Outcome S)
  | .combine op p q => p.combine op q
  | .tap p q voltage => p.divider q (some voltage)
  | .square p => p.power (Scalar.ofRat 2)
  | .addScalar p offset => p.addScalar offset
  | .subScalar p offset => p.subScalar offset
  | .mulScalar p factor => p.mulScalar factor
  | .divScalar p divisor => p.divScalar divisor

/-- The quantities it computes with. -/
def operands : Operation S → List (Quantity S)
  | .combine _ p q => [p, q]
  | .tap p q voltage => [p, q, voltage]
  | .square p | .addScalar p _ | .subScalar p _ | .mulScalar p _ | .divScalar p _ => [p]

/-- **The numbers it computes** that have to be in range. -/
def tested : Operation S → List S
  | .combine op p q => p.tested op q
  | .tap p q voltage =>
    p.tested .divider q
      ++ match p.dividerRatio q with
        | .ok ratio => voltage.tested .mul ratio
        | .error _ => []
  | .square p => [p.bounds.lower * p.bounds.lower, p.bounds.upper * p.bounds.upper]
  | .addScalar p offset =>
    if p.kind = .factor then [] else [p.bounds.lower + offset, p.bounds.upper + offset]
  | .subScalar p offset =>
    if p.kind = .factor then [] else [p.bounds.lower + -offset, p.bounds.upper + -offset]
  | .mulScalar p factor => [p.bounds.lower * factor, p.bounds.upper * factor]
  | .divScalar p divisor => [p.bounds.lower / divisor, p.bounds.upper / divisor]

/-- **The other numbers it computes.** -/
def passedOver : Operation S → List S
  | .combine .divider (.resistance r) (.resistance s)
  | .tap (.resistance r) (.resistance s) _ => r.measure.bounds.passedOver s.measure.bounds
  | _ => []

end Operation

/-- Bounds of no kind are in range. -/
theorem Quantity.ofScalarResult_eq_ok {bounds : Option (Interval S)} {op : Operator}
    {o : Outcome S} (h : ofScalarResult bounds op = .ok o) :
    ∃ i, bounds = some i ∧ i.isFinite = true := by
  unfold ofScalarResult at h
  split at h
  · rename_i i
    split at h
    · rename_i hfinite
      exact ⟨i, rfl, hfinite⟩
    · cases h
  · cases h

end Computed

/-! ## The least and the greatest number of a list -/

/-- **The extremes of a list are in range** when there is a number in it and every
number in it is in range. -/
theorem Interval.exists_spanning_extremes (xs : List Binary64) :
    ∃ k, spanning (Resistance.extremes xs).1 (Resistance.extremes xs).2 = some k
      ∧ (k.isFinite = true
        ↔ (∃ x ∈ xs, x.isNaN = false) ∧ ∀ x ∈ xs, x.isNaN = false → x.isFinite = true) := by
  by_cases hnum : ∃ x ∈ xs, x.isNaN = false
  · obtain ⟨⟨hlow, hlownum⟩, ⟨hhigh, hhighnum⟩, hrange⟩ :=
      Resistance.extremes_enclose lawfulOrder hnum
    refine ⟨_, spanning_eq_some hlownum hhighnum, ?_⟩
    rw [isFinite_lesser_greater hlownum hhighnum, and_iff_right hnum]
    constructor
    · rintro ⟨hlow, hhigh⟩ x hx hxnum
      obtain ⟨hle, hge⟩ := hrange x hx hxnum
      exact isFinite_of_mem hlow hhigh hle hge
    · intro hall
      exact ⟨hall _ hlow hlownum, hall _ hhigh hhighnum⟩
  · have hnone (x : Binary64) (hx : x ∈ xs) : Scalar.isNaN x = true :=
      (Bool.not_eq_false _).mp fun hxnum => hnum ⟨x, hx, hxnum⟩
    rw [Resistance.extremes_of_isNaN hnone]
    exact ⟨⟨infinity true, infinity false⟩, by decide +kernel,
      iff_of_false (by decide) fun h => hnum h.1⟩

/-! ## What is in range with a result -/

theorem forall_mem_pair {α : Type} {P : α → Prop} {x y : α} : (∀ z ∈ [x, y], P z) ↔ P x ∧ P y := by
  rw [List.forall_mem_cons, List.forall_mem_singleton]

variable {i j k : Interval Binary64} {x : Binary64}

/-- **What an operator tests is in range where the bounds it pairs are.** -/
theorem BinaryOperator.isFinite_of_pairing {op : BinaryOperator} (hi : i.isFinite = true)
    (hj : j.isFinite = true) (h : op.pairing? i j = some k) (hk : k.isFinite = true) :
    ∀ x ∈ op.tested i j, x.isFinite = true := by
  cases op with
  | add | sub =>
    cases h
    exact forall_mem_pair.mpr ⟨Interval.isFinite_lower hk, Interval.isFinite_upper hk⟩
  | mul | div => exact forall_mem_pair.mpr (Interval.isFinite_of_spanning h hk)
  | parallel =>
    have hbound {x y : Binary64} (hx : x.isFinite = true) (hy : y.isFinite = true)
        (h : (x * y / (x + y)).isFinite = true) :
        ∀ z ∈ [x * y, x + y, x * y / (x + y)], z.isFinite = true := by
      obtain ⟨hproduct, hsum⟩ := isFinite_of_isFinite_mul_div_add hx hy h
      exact List.forall_mem_cons.mpr ⟨hproduct, forall_mem_pair.mpr ⟨hsum, h⟩⟩
    obtain ⟨hlow, hhigh⟩ := Interval.isFinite_of_spanning h hk
    exact List.forall_mem_append.mpr
      ⟨hbound (Interval.isFinite_lower hi) (Interval.isFinite_lower hj) hlow,
        hbound (Interval.isFinite_upper hi) (Interval.isFinite_upper hj) hhigh⟩
  | divider =>
    obtain ⟨k', hk', hiff⟩ := Interval.exists_spanning_extremes (Resistance.dividerRatios i j)
    obtain rfl : k' = k := Option.some.inj (hk'.symm.trans h)
    intro x hx
    obtain ⟨hx, hnum⟩ := List.mem_filter.mp hx
    exact (hiff.mp hk).2 x hx ((Bool.not_eq_true' _).mp hnum)

namespace Quantity

variable {p q : Quantity Binary64} {o : Outcome Binary64}

/-- What an operator tests is in range where it joins two quantities. -/
theorem isFinite_of_combine (op : BinaryOperator) (hp : p.bounds.isFinite = true)
    (hq : q.bounds.isFinite = true) (h : p.combine op q = .ok o) :
    ∀ x ∈ p.tested op q, x.isFinite = true := by
  unfold tested
  split
  · rename_i hkind
    obtain ⟨kind, hkind⟩ := Option.isSome_iff_exists.mp hkind
    obtain ⟨r, rfl⟩ := exists_quantity_of_combine hkind h
    obtain ⟨k, hk, hr⟩ := recoveredFrom_combine h
    exact BinaryOperator.isFinite_of_pairing hp hq hk (Measure.eq_of_ofBounds hr.measure).1
  · exact nofun

/-- **Quantities whose kinds have a product have one**, unless the paired bounds are
out of range or those of a resistance of zero or less. -/
theorem exists_mul_eq_ok {S : Type} [Scalar S] {p q : Quantity S} {kind : Kind}
    (hkind : p.kind.product q.kind = some kind) :
    (∃ o, p.mul q = .ok o) ↔ ∃ k, p.bounds.mulBounds q.bounds = some k ∧ k.isFinite = true
      ∧ (kind = .resistance → ¬(meanAndTolerance k).1 ≤ 0) := by
  unfold mul
  rw [hkind]
  constructor
  · rintro ⟨o, h⟩
    obtain ⟨r, h, -⟩ := Except.bind_eq_ok.mp h
    obtain ⟨k, hk, hr⟩ := ofResult?_eq_ok.mp h
    exact ⟨k, hk, exists_ofResult_eq_ok.mp ⟨r, hr⟩⟩
  · rintro ⟨k, hk, hresult⟩
    obtain ⟨r, hr⟩ := exists_ofResult_eq_ok.mpr hresult
    exact ⟨_, Except.bind_eq_ok.mpr ⟨r, ofResult?_eq_ok.mpr ⟨k, hk, hr⟩, rfl⟩⟩

/-- **When a product fails**: where one of the two bounds is out of range, or where
the result is a resistance of zero or less. -/
theorem mul_fails_iff {kind : Kind} (hkind : p.kind.product q.kind = some kind)
    (hp : p.bounds.isFinite = true) (hq : q.bounds.isFinite = true) :
    (∃ e, p.mul q = .error e)
      ↔ (∃ x ∈ [p.bounds.lower * q.bounds.lower, p.bounds.upper * q.bounds.upper],
          x.isFinite = false)
        ∨ kind = .resistance
          ∧ ∃ k, p.bounds.mulBounds q.bounds = some k ∧ (meanAndTolerance k).1 ≤ 0 := by
  -- numbers in range have a product that is a number
  have hlow := (isNearest_mul (Interval.isFinite_lower hp) (Interval.isFinite_lower hq)).isNaN
  have hhigh := (isNearest_mul (Interval.isFinite_upper hp) (Interval.isFinite_upper hq)).isNaN
  have hbounds := Interval.spanning_eq_some hlow hhigh
  have hfinite := Interval.isFinite_lesser_greater hlow hhigh
  rw [← forall_mem_pair (P := fun x : Binary64 => x.isFinite = true)] at hfinite
  rw [Except.exists_eq_error_iff, exists_mul_eq_ok hkind]
  unfold Interval.mulBounds
  simp only [hbounds, Option.some.injEq, exists_eq_left', hfinite]
  rw [not_and_or, Classical.not_imp, not_not]
  push Not
  simp only [ne_eq, Bool.not_eq_true]

/-- A square that is defined is of a quantity whose bounds have theirs in range. -/
theorem isFinite_of_square (hp : p.bounds.isFinite = true) (h : p.power (Scalar.ofRat 2) = .ok o) :
    ∀ x ∈ [p.bounds.lower * p.bounds.lower, p.bounds.upper * p.bounds.upper],
      x.isFinite = true := by
  have htwo : Scalar.same (Scalar.ofRat 2 : Binary64) (Scalar.ofRat 2) = true := by decide +kernel
  obtain ⟨r, rfl⟩ : ∃ r, o = .quantity r := by
    unfold power at h
    split at h
    · cases h
    · rw [htwo] at h
      exact exists_quantity_of_bind (f := id) h
  have hnum {x : Binary64} (hx : x.isFinite = true) : (x * x).isNaN = false :=
    isNaN_mul_self (isNaN_of_isFinite hx)
  have hsquares := (Measure.eq_of_ofBounds (recoveredFrom_power h).measure).1
  exact forall_mem_pair.mpr ((Interval.isFinite_lesser_greater (hnum (Interval.isFinite_lower hp))
    (hnum (Interval.isFinite_upper hp))).mp hsquares)

theorem isFinite_of_ofScalarResult {x y : Binary64} {op : Operator}
    (h : ofScalarResult (Interval.spanning x y) op = .ok o) :
    ∀ z ∈ [x, y], z.isFinite = true := by
  obtain ⟨k, hk, hfinite⟩ := ofScalarResult_eq_ok h
  exact forall_mem_pair.mpr (Interval.isFinite_of_spanning hk hfinite)

end Quantity

namespace Operation

/-- **What an operation tests is in range where it comes to something.** -/
theorem isFinite_of_outcome {c : Operation Binary64} {o : Outcome Binary64}
    (hc : ∀ q ∈ c.operands, q.bounds.isFinite = true) (h : c.outcome = .ok o) :
    ∀ x ∈ c.tested, x.isFinite = true := by
  cases c with
  | combine op p q =>
    obtain ⟨hp, hq⟩ := forall_mem_pair.mp hc
    exact Quantity.isFinite_of_combine op hp hq h
  | tap p q voltage =>
    obtain ⟨hp, hc⟩ := List.forall_mem_cons.mp hc
    obtain ⟨hq, hvoltage⟩ := forall_mem_pair.mp hc
    -- the ratio is a quantity of its own, and the voltage is multiplied by it
    obtain ⟨ratio, hratio, h⟩ := Quantity.divider_some_eq_ok.mp h
    have hdivided := Quantity.divider_none_eq_ok.mpr ⟨ratio, hratio, rfl⟩
    obtain ⟨k, -, hrecovered⟩ := Quantity.recoveredFrom_dividerRatio hratio
    rw [tested, hratio]
    exact List.forall_mem_append.mpr ⟨Quantity.isFinite_of_combine .divider hp hq hdivided,
      Quantity.isFinite_of_combine .mul hvoltage hrecovered.isFinite h⟩
  | square p =>
    exact Quantity.isFinite_of_square (hc p List.mem_cons_self) h
  | addScalar p offset | subScalar p offset =>
    rw [tested]
    split
    · exact nofun
    · rename_i hkind
      exact Quantity.isFinite_of_ofScalarResult ((if_neg hkind).symm.trans h)
  | mulScalar p factor => exact Quantity.isFinite_of_ofScalarResult h
  | divScalar p divisor =>
    change p.divScalar divisor = .ok o at h
    unfold Quantity.divScalar at h
    split at h
    · cases h
    · exact Quantity.isFinite_of_ofScalarResult h

/-- A ratio of resistances at one temperature fails exactly where one of the four is
infinite or none of them is a number. -/
theorem dividerRatio_fails_iff {r s : Resistance Binary64}
    (hsame : r.temperature.same s.temperature = true) :
    (∃ e, r.dividerRatio s = .error e)
      ↔ (∃ x ∈ Resistance.dividerRatios r.measure.bounds s.measure.bounds, x.isInfinite = true)
        ∨ ∀ x ∈ Resistance.dividerRatios r.measure.bounds s.measure.bounds, x.isNaN = true := by
  generalize hratios : Resistance.dividerRatios r.measure.bounds s.measure.bounds = ratios
  obtain ⟨k, hk, hiff⟩ := Interval.exists_spanning_extremes ratios
  have hok : (∃ m, r.dividerRatio s = .ok m) ↔ k.isFinite = true := by
    subst hratios
    constructor
    · rintro ⟨m, hm⟩
      obtain ⟨-, i, hi, hm⟩ := Resistance.dividerRatio_eq_ok.mp hm
      obtain rfl : i = k := Option.some.inj (hi.symm.trans hk)
      exact (Measure.eq_of_ofBounds hm).1
    · intro hfinite
      obtain ⟨m, hm⟩ := Measure.exists_ofBounds_eq_ok.mpr hfinite
      exact ⟨m, Resistance.dividerRatio_eq_ok.mpr ⟨hsame, k, hk, hm⟩⟩
  rw [Except.exists_eq_error_iff, hok, hiff, not_and_or, or_comm]
  push Not
  simp only [ne_eq, Bool.not_eq_true, Bool.not_eq_false, isInfinite_iff]

/-- A divider fails where its ratio does. -/
theorem divider_fails_iff {r s : Resistance Binary64} :
    (∃ e, (combine .divider (.resistance r) (.resistance s)).outcome = .error e)
      ↔ ∃ e, r.dividerRatio s = .error e := by
  refine exists_congr fun e => ?_
  show (r.dividerRatio s).map _ >>= _ = .error e ↔ _
  rw [Except.bind_eq_error, Except.map_eq_error, or_iff_left_iff_imp]
  rintro ⟨q, -, ⟨⟩⟩

/-- With a voltage it also fails where the voltage times the ratio does. -/
theorem tap_fails_iff {r s : Resistance Binary64} {voltage : Quantity Binary64}
    (hvoltage : voltage.bounds.isFinite = true) :
    (∃ e, (tap (.resistance r) (.resistance s) voltage).outcome = .error e)
      ↔ (∃ e, r.dividerRatio s = .error e)
        ∨ ∃ ratio, r.dividerRatio s = .ok ratio
          ∧ ((∃ x ∈ [voltage.bounds.lower * ratio.bounds.lower,
                voltage.bounds.upper * ratio.bounds.upper], x.isFinite = false)
            ∨ voltage.kind = .resistance
              ∧ ∃ k, voltage.bounds.mulBounds ratio.bounds = some k
                ∧ (meanAndTolerance k).1 ≤ 0) := by
  show (∃ e, ((r.dividerRatio s).map _ >>= _) = .error e) ↔ _
  cases hratio : r.dividerRatio s with
  | error e => exact iff_of_true ⟨e, rfl⟩ (.inl ⟨e, rfl⟩)
  | ok ratio =>
    obtain ⟨-, k, -, hk⟩ := Resistance.dividerRatio_eq_ok.mp hratio
    have hfinite : ratio.bounds.isFinite = true :=
      Measure.bounds_ofBounds hk ▸ (Measure.eq_of_ofBounds hk).1
    refine (Quantity.mul_fails_iff (q := .plain .factor ratio (by decide))
      (Kind.product_factor voltage.kind) hvoltage hfinite).trans ?_
    constructor
    · exact fun h => .inr ⟨ratio, rfl, h⟩
    · rintro (⟨e, h⟩ | ⟨found, hfound, h⟩)
      · cases h
      · cases hfound
        exact h

/-- **What is out of range on the way makes an error**, unless it is passed over. A
divider of resistances at one temperature makes one exactly where a ratio is
infinite or none of the ratios is a number, whatever its sums are. With a voltage
it makes one besides where a bound of the voltage times one of the ratio is out of
range, or where a resistance is given for the voltage and would be scaled to zero or
less. -/
theorem overflow_reported {c : Operation Binary64}
    (hc : ∀ q ∈ c.operands, q.bounds.isFinite = true) :
    (∀ x ∈ c.tested, x.isFinite = false → ∃ e, c.outcome = .error e)
    ∧ (∀ r s, c = .combine .divider (.resistance r) (.resistance s) →
      r.temperature.same s.temperature = true →
        ((∃ e, c.outcome = .error e)
          ↔ (∃ x ∈ Resistance.dividerRatios r.measure.bounds s.measure.bounds,
              x.isInfinite = true)
            ∨ ∀ x ∈ Resistance.dividerRatios r.measure.bounds s.measure.bounds,
              x.isNaN = true))
    ∧ ∀ r s voltage, c = .tap (.resistance r) (.resistance s) voltage →
      r.temperature.same s.temperature = true →
        ((∃ e, c.outcome = .error e)
          ↔ ((∃ x ∈ Resistance.dividerRatios r.measure.bounds s.measure.bounds,
                x.isInfinite = true)
              ∨ ∀ x ∈ Resistance.dividerRatios r.measure.bounds s.measure.bounds,
                x.isNaN = true)
            ∨ ∃ ratio, r.dividerRatio s = .ok ratio
              ∧ ((∃ x ∈ [voltage.bounds.lower * ratio.bounds.lower,
                    voltage.bounds.upper * ratio.bounds.upper], x.isFinite = false)
                ∨ voltage.kind = .resistance
                  ∧ ∃ k, voltage.bounds.mulBounds ratio.bounds = some k
                    ∧ (meanAndTolerance k).1 ≤ 0)) := by
  refine ⟨fun x hx hinfinite => ?_, ?_, ?_⟩
  · cases h : c.outcome with
    | error e => exact ⟨e, rfl⟩
    | ok o => cases hinfinite.symm.trans (isFinite_of_outcome hc h x hx)
  · rintro r s rfl hsame
    exact divider_fails_iff.trans (dividerRatio_fails_iff hsame)
  · rintro r s voltage rfl hsame
    obtain ⟨-, hc⟩ := List.forall_mem_cons.mp hc
    have hvoltage := (forall_mem_pair.mp hc).2
    rw [tap_fails_iff hvoltage, dividerRatio_fails_iff hsame]

/-- A resistance of which two have a sum out of range. -/
def hugeResistance : Resistance Binary64 :=
  ⟨⟨ofRat (10 ^ 308), some 0, ⟨ofRat (10 ^ 308), ofRat (10 ^ 308)⟩⟩, none, ofRat (10 ^ 308),
    .reference⟩

/-- The parallel connection of two of them is an error, and their divider is none. -/
theorem overflow_reported_parallel :
    let ofHuge (op : BinaryOperator) :=
      Operation.combine op (.resistance hugeResistance) (.resistance hugeResistance)
    Resistance.ofTolerance (ofRat (10 ^ 308)) 0 none = .ok hugeResistance
      ∧ (∀ op, ∀ q ∈ (ofHuge op).operands, q.bounds.isFinite = true)
      ∧ infinity false ∈ (ofHuge .parallel).tested ∧ (infinity false).isFinite = false
      ∧ (∃ e, (ofHuge .parallel).outcome = .error e)
      ∧ hugeResistance.temperature.same hugeResistance.temperature = true
      ∧ ¬∃ e, (ofHuge .divider).outcome = .error e := by
  intro ofHuge
  have hmade : Resistance.ofTolerance (ofRat (10 ^ 308)) 0 none = .ok hugeResistance := by
    decide +kernel
  have hfinite : hugeResistance.measure.bounds.isFinite = true := by decide +kernel
  have hhuge (op : BinaryOperator) : ∀ q ∈ (ofHuge op).operands, q.bounds.isFinite = true :=
    forall_mem_pair.mpr ⟨hfinite, hfinite⟩
  have hmem : infinity false ∈ (ofHuge .parallel).tested := by decide +kernel
  have hinfinite : (infinity false).isFinite = false := by decide
  have hsame : hugeResistance.temperature.same hugeResistance.temperature = true := by
    decide +kernel
  have herror := (overflow_reported (hhuge .parallel)).1 _ hmem hinfinite
  refine ⟨hmade, hhuge, hmem, hinfinite, herror, hsame, ?_⟩
  rw [(overflow_reported (hhuge .divider)).2.1 _ _ rfl hsame]
  decide +kernel

/-- **A divider of two resistances whose sum is out of range has a ratio.** For
equal resistances it should be a half, and it is zero. -/
theorem overflow_of_divider :
    let c := Operation.combine .divider (.resistance hugeResistance) (.resistance hugeResistance)
    infinity false ∈ c.passedOver
      ∧ c.outcome = .ok (.quantity (.plain .factor ⟨0, some 0, ⟨0, 0⟩⟩ (by decide))) := by
  decide +kernel

end Operation

end WorstCase
