import Mathlib.Control.Monad.Basic
import WorstCase.Proofs.Except
import WorstCase.Quantity.Basic

/-!
# Operands that may change places

Sums and products of numbers do not depend on the order of their operands, and this holds of computed
ones as well: what is rounded is the same exact result, with the same sign where it is zero
(`Binary64.add_comm`, `Binary64.mul_comm`). So an operator that pairs like bounds has the same bounds in
both orders, and since everything else of a result is recovered from its bounds, it either has the same
mean and tolerance in both orders or fails in both with the same error.

A temperature is not recovered from anything. A combination of resistances takes the one of its first
operand if that is the one of the second, and two temperatures are the same number also where one of them
is minus zero. Two resistances in one order and in the other may differ in this sign, and in nothing else
(`Resistance.Alike`). A product takes the temperature of a resistance among its operands, and there is
only one, because resistances have no product with each other.
-/

namespace WorstCase

/-! ## Numbers -/

namespace Binary64

/-- **A sum does not depend on the order**, down to the sign of a zero. -/
protected theorem add_comm (x y : Binary64) : x + y = y + x := by
  show add x y = add y x
  cases x with
  | nan => cases y <;> rfl
  | signed n r hr =>
    cases y with
    | nan => rfl
    | signed m s hs =>
      rw [add, add, Bool.and_comm, Int.add_comm (signedUnits n r)]
      by_cases hx : r = infinityRank
      · by_cases hy : s = infinityRank
        · rw [if_pos hx, if_pos hy]
          by_cases hsign : n = m
          · rw [if_neg fun h => h.2 hsign, if_neg fun h => h.2 hsign.symm, hsign]
          · rw [if_pos ⟨hy, hsign⟩, if_pos ⟨hx, Ne.symm hsign⟩]
        · rw [if_pos hx, if_neg fun h => hy h.1, if_neg hy, if_pos hx]
      · by_cases hy : s = infinityRank
        · rw [if_neg hx, if_pos hy, if_pos hy, if_neg fun h => hx h.1]
        · rw [if_neg hx, if_neg hy, if_neg hy, if_neg hx]

/-- **A product does not depend on the order**, down to the sign of a zero. -/
protected theorem mul_comm (x y : Binary64) : x * y = y * x := by
  show mul x y = mul y x
  cases x with
  | nan => cases y <;> rfl
  | signed n r hr =>
    cases y with
    | nan => rfl
    | signed m s hs =>
      simp only [mul, Bool.xor_comm n m, Nat.mul_comm (unitsAt r), or_comm (a := r = _)]

end Binary64

/-! ## Bounds -/

namespace Interval

variable (i j : Interval Binary64)

protected theorem add_comm : i + j = j + i := by
  show Interval.add i j = Interval.add j i
  rw [Interval.add, Interval.add, Binary64.add_comm i.lower, Binary64.add_comm i.upper]

theorem mulBounds_swap : i.mulBounds j = j.mulBounds i := by
  rw [mulBounds, mulBounds, Binary64.mul_comm i.lower, Binary64.mul_comm i.upper]

theorem parallel_swap : i.parallel j = j.parallel i := by
  rw [parallel, parallel, Binary64.mul_comm i.lower, Binary64.mul_comm i.upper,
    Binary64.add_comm i.lower, Binary64.add_comm i.upper]

end Interval

/-! ## Resistances -/

section Resistances

variable {S : Type} [Scalar S]

/-- Whether numbers are the same does not depend on the order. -/
theorem Scalar.same_comm (x y : S) : same x y = same y x :=
  Bool.and_comm _ _

/-- **The temperature of a combination** is the same in both orders. -/
theorem Temperature.same_combine_swap (s t : Temperature S) :
    (s.combine t).same (t.combine s) = true := by
  cases s with
  | mixed => cases t <;> rfl
  | celsius x =>
    cases t with
    | mixed => rfl
    | celsius y =>
      rw [combine, combine, Scalar.same_comm y x]
      cases h : Scalar.same x y with
      | true => exact h
      | false => rfl

namespace Resistance

/-- **Resistances that differ in the sign of a zero temperature at most**: mean, tolerance and bounds,
the coefficient and the value at 20 °C are what they are, and the temperatures are the same number. -/
structure Alike (r s : Resistance S) : Prop where
  measure : r.measure = s.measure
  coefficient : r.coefficient = s.coefficient
  reference : r.reference = s.reference
  temperature : r.temperature.same s.temperature = true

/-- What is made of given bounds does not depend on which operand comes first. -/
theorem combined_alike (r s : Resistance S) (bounds : Interval S) (op : Operator) :
    Except.Rel Eq Alike (combined r s bounds op) (combined s r bounds op) := by
  unfold combined
  cases bounds.isFinite with
  | false => exact .error rfl
  | true =>
    show Except.Rel Eq Alike (Measure.ofBounds bounds >>= _) (Measure.ofBounds bounds >>= _)
    cases Measure.ofBounds bounds with
    | error e => exact .error rfl
    | ok m =>
      show Except.Rel Eq Alike (ofMeasure m none _) (ofMeasure m none _)
      by_cases hm : m.mean ≤ (0 : S)
      · rw [ofMeasure, ofMeasure, if_pos hm, if_pos hm]
        exact .error rfl
      · rw [ofMeasure, ofMeasure, if_neg hm, if_neg hm]
        exact .ok ⟨rfl, rfl, rfl, Temperature.same_combine_swap _ _⟩

end Resistance

end Resistances

namespace Resistance

variable (r s : Resistance Binary64)

theorem series_alike : Except.Rel Eq Alike (r.series s) (s.series r) := by
  rw [series, series, Interval.add_comm s.measure.bounds]
  exact combined_alike r s _ _

theorem parallel_alike : Except.Rel Eq Alike (r.parallel s) (s.parallel r) := by
  rw [parallel, parallel, Interval.parallel_swap s.measure.bounds]
  cases r.measure.bounds.parallel s.measure.bounds with
  | none => exact .error rfl
  | some bounds => exact combined_alike r s bounds _

end Resistance

/-! ## Quantities -/

/-- A product has one kind in both orders. -/
theorem Kind.product_comm {a b : Kind} (h : a.product b ≠ none) (h' : b.product a ≠ none) :
    a.product b = b.product a := by
  cases a <;> cases b <;> first | rfl | exact absurd rfl h | exact absurd rfl h'

namespace Quantity

variable {p q : Quantity Binary64}

/-- Sums of quantities other than resistances pair their bounds. -/
theorem add_eq_ofResult (hkind : p.kind = q.kind) (hfactor : p.kind ≠ .factor)
    (hresistance : p.kind ≠ .resistance) : p.add q = do
      return .quantity (← ofResult p.kind (p.bounds + q.bounds) .reference BinaryOperator.add) := by
  cases p with
  | resistance r => exact absurd rfl hresistance
  | plain kind measure ne =>
    rw [add, if_neg hfactor, if_neg (not_not_intro hkind)]
    intro r s hp _
    cases hp

/-- **A sum of like quantities** does not depend on the order. -/
theorem add_swap (hkind : p.kind = q.kind) (hfactor : p.kind ≠ .factor)
    (hresistance : p.kind ≠ .resistance) : p.add q = q.add p := by
  rw [add_eq_ofResult hkind hfactor hresistance,
    add_eq_ofResult hkind.symm (hkind ▸ hfactor) (hkind ▸ hresistance), hkind,
    Interval.add_comm p.bounds]

/-- Of two operands that have a product, one is a resistance at most. -/
theorem inheritedTemperature_swap (h : p.kind.product q.kind ≠ none) :
    inheritedTemperature p q = inheritedTemperature q p := by
  cases p with
  | plain => cases q <;> rfl
  | resistance r =>
    cases q with
    | plain => rfl
    | resistance s => exact absurd rfl h

/-- **A product that exists in both orders** does not depend on the order. -/
theorem mul_swap (h : p.kind.product q.kind ≠ none) (h' : q.kind.product p.kind ≠ none) :
    p.mul q = q.mul p := by
  unfold mul
  rw [← Kind.product_comm h h', Interval.mulBounds_swap q.bounds, ← inheritedTemperature_swap h]
  cases hkind : p.kind.product q.kind with
  | none => exact absurd hkind h
  | some kind => rfl

/-- **Symmetric operations go alike in both orders**: they fail with the same error, or succeed with
results that have the same mean, tolerance and bounds. Of resistances in series and in parallel the
coefficient and the value at 20 °C are the same as well, and so is the temperature, but for the sign of a
zero. A sum of other like quantities, and a product that exists in both orders, is the same in all there
is; should its tolerance be no number in one order, it is none in the other either. -/
theorem symmetric_operations :
    (∀ r s : Resistance Binary64, Except.Rel Eq Resistance.Alike (r.series s) (s.series r)
      ∧ Except.Rel Eq Resistance.Alike (r.parallel s) (s.parallel r))
    ∧ (∀ p q : Quantity Binary64, p.kind = q.kind → p.kind ≠ .factor → p.kind ≠ .resistance →
      p.add q = q.add p)
    ∧ ∀ p q : Quantity Binary64, p.kind.product q.kind ≠ none → q.kind.product p.kind ≠ none →
      p.mul q = q.mul p := by
  refine ⟨fun r s => ⟨r.series_alike s, r.parallel_alike s⟩, ?_, ?_⟩
  · intro p q hkind hfactor hresistance
    exact add_swap hkind hfactor hresistance
  · intro p q h h'
    exact mul_swap h h'

/-! ### A resistance at zero degrees, and one at minus zero -/

/-- 1 kΩ at 0 °C. -/
def atZero : Resistance Binary64 :=
  let mean := Binary64.ofRat 1000
  ⟨⟨mean, some 0, ⟨mean, mean⟩⟩, some 100, mean, .celsius 0⟩

/-- 2 kΩ at -0 °C. -/
def atMinusZero : Resistance Binary64 :=
  let mean := Binary64.ofRat 2000
  ⟨⟨mean, some 0, ⟨mean, mean⟩⟩, some 100, mean, .celsius (-0)⟩

/-- 3 V between its bounds. -/
def threeVolts : Quantity Binary64 :=
  .plain .voltage ⟨.ofRat 3, some (.ofRat (1 / 10)), ⟨.ofRat (27 / 10), .ofRat (33 / 10)⟩⟩ nofun

/-- 2 V without a spread. -/
def twoVolts : Quantity Binary64 :=
  .plain .voltage ⟨.ofRat 2, some 0, ⟨.ofRat 2, .ofRat 2⟩⟩ nofun

/-- 2 A without a spread. -/
def twoAmperes : Quantity Binary64 :=
  .plain .current ⟨.ofRat 2, some 0, ⟨.ofRat 2, .ofRat 2⟩⟩ nofun

/-- Two resistances put in series have a temperature of zero in the one order and of minus zero in the
other, and are alike all the same. -/
theorem symmetric_operations_zero :
    (∃ r s, atZero.series atMinusZero = .ok r ∧ atMinusZero.series atZero = .ok s
      ∧ r.temperature = .celsius 0 ∧ s.temperature = .celsius (-0) ∧ r.Alike s)
    ∧ threeVolts.kind = twoVolts.kind ∧ threeVolts.kind ≠ .factor ∧ threeVolts.kind ≠ .resistance
    ∧ threeVolts.add twoVolts = twoVolts.add threeVolts
    ∧ threeVolts.kind.product twoAmperes.kind ≠ none ∧ twoAmperes.kind.product threeVolts.kind ≠ none
    ∧ threeVolts.mul twoAmperes = twoAmperes.mul threeVolts := by
  obtain ⟨hresistances, hsum, hproduct⟩ := symmetric_operations
  have hkind : threeVolts.kind = twoVolts.kind := by decide
  refine ⟨?_, hkind, by decide, by decide, hsum _ _ hkind (by decide) (by decide), by decide,
    by decide, hproduct _ _ (by decide) (by decide)⟩
  have hseries := (hresistances atZero atMinusZero).1
  have hzero : (atZero.series atMinusZero).map (·.temperature) = .ok (.celsius 0) := by
    decide +kernel
  have hminus : (atMinusZero.series atZero).map (·.temperature) = .ok (.celsius (-0)) := by
    decide +kernel
  obtain ⟨r, hr, hrzero⟩ := Except.map_eq_ok.mp hzero
  obtain ⟨s, hs, hsminus⟩ := Except.map_eq_ok.mp hminus
  refine ⟨r, s, hr, hs, hrzero, hsminus, ?_⟩
  generalize atZero.series atMinusZero = x at hr hseries
  generalize atMinusZero.series atZero = y at hs hseries
  subst hr hs
  cases hseries with
  | ok halike => exact halike

end Quantity

end WorstCase
