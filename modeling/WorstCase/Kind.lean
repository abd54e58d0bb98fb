/-!
# Kinds of quantity

The physical kinds the calculator knows, and which products and quotients of them it knows. A product or
quotient that is not listed here has no kind, and quantities of those kinds cannot be multiplied or
divided. Squared voltages and squared currents are there for `P = U² / R` and `P = I² · R`.

The tables are a choice, but not a free one: `Kind.dimension_product` and `Kind.dimension_quotient` say
that every listed entry has the dimension it must have.
-/

namespace WorstCase

/-- **The physical kind of a quantity.** -/
inductive Kind where
  | voltage
  | current
  | resistance
  | power
  | energy
  | time
  | factor
  | squaredVoltage
  | squaredCurrent
  deriving DecidableEq, Repr

namespace Kind

/-- The name of the kind in running text. -/
def name : Kind → String
  | .voltage => "voltage"
  | .current => "current"
  | .resistance => "resistance"
  | .power => "power"
  | .energy => "energy"
  | .time => "time"
  | .factor => "factor"
  | .squaredVoltage => "squared voltage"
  | .squaredCurrent => "squared current"

/-- The unit that follows a value of the kind. -/
def unitLabel : Kind → String
  | .voltage => "V"
  | .current => "A"
  | .resistance => "Ω"
  | .power => "W"
  | .energy => "J"
  | .time => "s"
  | .factor => ""
  | .squaredVoltage => "V²"
  | .squaredCurrent => "A²"

/-- The kind of a product. -/
def product : Kind → Kind → Option Kind
  | .current, .resistance => some .voltage
  | .current, .current => some .squaredCurrent
  | .current, .voltage => some .power
  | .current, .factor => some .current
  | .voltage, .current => some .power
  | .voltage, .voltage => some .squaredVoltage
  | .voltage, .factor => some .voltage
  | .resistance, .current => some .voltage
  | .resistance, .factor => some .resistance
  | .power, .factor => some .power
  | .power, .time => some .energy
  | .energy, .factor => some .energy
  | .time, .factor => some .time
  | .squaredVoltage, .factor => some .squaredVoltage
  | .squaredCurrent, .factor => some .squaredCurrent
  | .squaredCurrent, .resistance => some .power
  | .factor, .voltage => some .voltage
  | .factor, .current => some .current
  | .factor, .resistance => some .resistance
  | .factor, .power => some .power
  | .factor, .factor => some .factor
  | _, _ => none

/-- Times a factor, every kind stays what it is. -/
theorem product_factor (kind : Kind) : kind.product .factor = some kind := by
  cases kind <;> rfl

/-- The kind of a quotient. -/
def quotient : Kind → Kind → Option Kind
  | .current, .current => some .factor
  | .current, .factor => some .current
  | .voltage, .resistance => some .current
  | .voltage, .current => some .resistance
  | .voltage, .voltage => some .factor
  | .voltage, .factor => some .voltage
  | .resistance, .resistance => some .factor
  | .resistance, .factor => some .resistance
  | .power, .voltage => some .current
  | .power, .current => some .voltage
  | .power, .power => some .factor
  | .power, .factor => some .power
  | .energy, .time => some .power
  | .energy, .energy => some .factor
  | .energy, .factor => some .energy
  | .time, .time => some .factor
  | .time, .factor => some .time
  | .squaredVoltage, .resistance => some .power
  | .squaredVoltage, .power => some .resistance
  | .squaredVoltage, .voltage => some .voltage
  | .squaredVoltage, .squaredVoltage => some .factor
  | .squaredVoltage, .factor => some .squaredVoltage
  | .squaredCurrent, .current => some .current
  | .squaredCurrent, .squaredCurrent => some .factor
  | .squaredCurrent, .factor => some .squaredCurrent
  | .factor, .factor => some .factor
  | _, _ => none

/-- The kind of a square. Only voltages and currents can be squared. -/
def squared : Kind → Option Kind
  | .voltage => some .squaredVoltage
  | .current => some .squaredCurrent
  | _ => none

end Kind

/-! ## Dimensions -/

/-- **A physical dimension**, as the exponents of volt, ampere and second. -/
structure Dimension where
  volt : Int
  ampere : Int
  second : Int
  deriving DecidableEq, Repr

namespace Dimension

instance : Zero Dimension := ⟨⟨0, 0, 0⟩⟩
instance : Add Dimension := ⟨fun d e => ⟨d.volt + e.volt, d.ampere + e.ampere, d.second + e.second⟩⟩
instance : Sub Dimension := ⟨fun d e => ⟨d.volt - e.volt, d.ampere - e.ampere, d.second - e.second⟩⟩

end Dimension

namespace Kind

/-- The dimension of a kind. -/
def dimension : Kind → Dimension
  | .voltage => ⟨1, 0, 0⟩
  | .current => ⟨0, 1, 0⟩
  | .resistance => ⟨1, -1, 0⟩
  | .power => ⟨1, 1, 0⟩
  | .energy => ⟨1, 1, 1⟩
  | .time => ⟨0, 0, 1⟩
  | .factor => ⟨0, 0, 0⟩
  | .squaredVoltage => ⟨2, 0, 0⟩
  | .squaredCurrent => ⟨0, 2, 0⟩

/-- Exponents add in a product. -/
theorem dimension_product {a b c : Kind} (h : a.product b = some c) :
    c.dimension = a.dimension + b.dimension := by
  cases a <;> cases b <;> simp [product] at h <;> subst h <;> rfl

/-- Exponents subtract in a quotient. -/
theorem dimension_quotient {a b c : Kind} (h : a.quotient b = some c) :
    c.dimension = a.dimension - b.dimension := by
  cases a <;> cases b <;> simp [quotient] at h <;> subst h <;> rfl

/-- Exponents double in a square. -/
theorem dimension_squared {a c : Kind} (h : a.squared = some c) :
    c.dimension = a.dimension + a.dimension := by
  cases a <;> simp [squared] at h <;> subst h <;> rfl

end Kind

end WorstCase
