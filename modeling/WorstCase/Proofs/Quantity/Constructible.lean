import WorstCase.Proofs.Evaluation.Success
import WorstCase.Proofs.Quantity.Recovery

/-!
# Quantities that can be made

A quantity keeps its mean, its tolerance and its bounds side by side, and no
field says that they fit together. What says so is how quantities come about:
from a mean and a tolerance, from two bounds, and from other quantities by the
operations. `Quantity.Constructible` is that, and nothing else.

`MadeQuantity` is a quantity together with how it came about. That is the type
in which quantities are quantified over where their parts must fit together, and
what holds of it holds once and for all: a property that every way to make a
quantity keeps (`KeptByMaking`) is one of every quantity that was made
(`MadeQuantity.has`).

Evaluation makes no other quantities (`MadeEnvironment.eval`), so in an
environment of made quantities an expression has a made one for its value.
-/

namespace WorstCase

variable {S : Type} [Scalar S]

/-- **The quantities that can be made**, one rule for each way to make
them. -/
inductive Quantity.Constructible : Quantity S → Prop where
  /-- From a mean and a relative tolerance. -/
  | ofTolerance {kind : Kind} {mean tolerance : S} {q : Quantity S}
    (h : Quantity.ofTolerance kind mean tolerance = .ok q) : Constructible q
  /-- Between two bounds. -/
  | between {kind : Kind} {x y : S} {q : Quantity S}
    (h : Quantity.between kind x y = .ok q) : Constructible q
  /-- A resistance from a mean and a tolerance, with a coefficient or
  without. -/
  | resistanceOfTolerance {mean tolerance : S} {coefficient : Option Int}
    {r : Resistance S}
    (h : Resistance.ofTolerance mean tolerance coefficient = .ok r) :
    Constructible (.resistance r)
  /-- A resistance between two bounds. -/
  | resistanceBetween {x y : S} {coefficient : Option Int} {r : Resistance S}
    (h : Resistance.between x y coefficient = .ok r) :
    Constructible (.resistance r)
  /-- With another tolerance. -/
  | withTolerance {p q : Quantity S} {tolerance : S} (hp : Constructible p)
    (h : p.withTolerance tolerance = .ok q) : Constructible q
  /-- By an operator that joins two operands. -/
  | combine {op : BinaryOperator} {p q r : Quantity S} (hp : Constructible p)
    (hq : Constructible q) (h : p.combine op q = .ok (.quantity r)) :
    Constructible r
  /-- By a voltage divider that a voltage is given to. -/
  | divider {p q v r : Quantity S} (hp : Constructible p)
    (hq : Constructible q) (hv : Constructible v)
    (h : p.divider q (some v) = .ok (.quantity r)) : Constructible r
  /-- By a power. -/
  | power {p q : Quantity S} {exponent : S} (hp : Constructible p)
    (h : p.power exponent = .ok (.quantity q)) : Constructible q
  /-- By a change of temperature. -/
  | atTemperature {p q : Quantity S} {degrees : S} (hp : Constructible p)
    (h : p.atTemperature degrees = .ok q) : Constructible q

/-! ## What holds of quantities because they were made -/

/-- **A measure as it is stated**, around a mean or between bounds. -/
inductive Measure.Entered : Measure S → Prop where
  /-- With a mean and a relative tolerance. -/
  | ofTolerance {mean tolerance : S} {m : Measure S}
    (h : Measure.ofTolerance mean tolerance = .ok m) : Entered m
  /-- Between two bounds. -/
  | between {x y : S} {m : Measure S} (h : Measure.between x y = .ok m) :
    Entered m

/-- **A property of quantities that every way to make them keeps.** What is
stated has it, and so has what an operation makes of quantities that have it.
A divider that is given a voltage is not among the ways: it multiplies the
voltage by the ratio, and the ratio is a quantity of its own. -/
structure KeptByMaking (P : Quantity S → Prop) : Prop where
  resistance : ∀ {m : Measure S} {coefficient : Option Int} {r : Resistance S},
    m.Entered → Resistance.ofMeasure m coefficient .reference = .ok r →
    P (.resistance r)
  plain : ∀ {kind : Kind} {m : Measure S} (ne : kind ≠ .resistance),
    m.Entered → P (.plain kind m ne)
  withTolerance : ∀ {p q : Quantity S} {tolerance : S}, P p →
    p.withTolerance tolerance = .ok q → P q
  combine : ∀ {op : BinaryOperator} {p q r : Quantity S}, P p → P q →
    p.combine op q = .ok (.quantity r) → P r
  power : ∀ {p q : Quantity S} {exponent : S}, P p →
    p.power exponent = .ok (.quantity q) → P q
  atTemperature : ∀ {p q : Quantity S} {degrees : S}, P p →
    p.atTemperature degrees = .ok q → P q

/-- **What every way to make quantities keeps holds of all that can be
made.** -/
theorem KeptByMaking.of_constructible {P : Quantity S → Prop}
    (hP : KeptByMaking P) {q : Quantity S} (h : q.Constructible) : P q := by
  have hentered {kind : Kind} {m : Measure S} {q : Quantity S} (hm : m.Entered)
      (h : Quantity.ofMeasure kind m .reference = .ok q) : P q := by
    rcases Quantity.ofMeasure_eq_ok h with ⟨-, r, rfl, hr⟩ | ⟨hkind, rfl⟩
    · exact hP.resistance hm hr
    · exact hP.plain hkind hm
  induction h with
  | ofTolerance h =>
    obtain ⟨m, hm, h⟩ := Except.bind_eq_ok.mp h
    exact hentered (.ofTolerance hm) h
  | between h =>
    obtain ⟨m, hm, h⟩ := Except.bind_eq_ok.mp h
    exact hentered (.between hm) h
  | resistanceOfTolerance h =>
    obtain ⟨m, hm, h⟩ := Except.bind_eq_ok.mp h
    exact hP.resistance (.ofTolerance hm) h
  | resistanceBetween h =>
    obtain ⟨m, hm, h⟩ := Except.bind_eq_ok.mp h
    exact hP.resistance (.between hm) h
  | withTolerance hp h ih => exact hP.withTolerance ih h
  | combine hp hq h ihp ihq => exact hP.combine ihp ihq h
  | divider hp hq hv h ihp ihq ihv =>
    obtain ⟨ratio, hratio, h⟩ := Quantity.divider_some_eq_ok.mp h
    have hdivided := Quantity.divider_none_eq_ok.mpr ⟨ratio, hratio, rfl⟩
    have hratio := hP.combine ihp ihq (show Quantity.combine .divider _ _ = _ from hdivided)
    exact hP.combine ihv hratio (show Quantity.combine .mul _ _ = _ from h)
  | power hp h ih => exact hP.power ih h
  | atTemperature hp h ih => exact hP.atTemperature ih h

/-! ## Quantities with how they came about -/

/-- **A quantity that was made.** -/
structure MadeQuantity (S : Type) [Scalar S] where
  /-- The quantity. -/
  quantity : Quantity S
  /-- It came about by the constructors and operations. -/
  made : quantity.Constructible

/-- What every way to make quantities keeps, a quantity that was made has. -/
theorem MadeQuantity.has {P : Quantity S → Prop} (hP : KeptByMaking P)
    (q : MadeQuantity S) : P q.quantity :=
  hP.of_constructible q.made

/-- **A resistance that was made.** -/
structure MadeResistance (S : Type) [Scalar S] where
  /-- The resistance. -/
  resistance : Resistance S
  /-- As a quantity it came about by the constructors and operations. -/
  made : (Quantity.resistance resistance).Constructible

/-- The quantity that a resistance is. -/
def MadeResistance.toQuantity (r : MadeResistance S) : MadeQuantity S :=
  ⟨.resistance r.resistance, r.made⟩

/-- **An environment of quantities that were made.** -/
structure MadeEnvironment (S : Type) [Scalar S] where
  /-- The quantities, by their names. -/
  quantities : Environment S
  /-- Each of them was made. -/
  made : quantities.All Quantity.Constructible

namespace MadeEnvironment

/-- The environment without variables. -/
def empty : MadeEnvironment S := ⟨.empty, .empty _⟩

/-- The environment with a quantity assigned to a variable. -/
def assign (env : MadeEnvironment S) (name : String) (q : MadeQuantity S) :
    MadeEnvironment S :=
  ⟨env.quantities.assign name q.quantity, env.made.assign q.made⟩

end MadeEnvironment

/-- A literal stands for a quantity that can be made. -/
theorem Literal.constructible_eval {l : Literal S} {span : Span}
    {q : Quantity S} (h : l.eval span = .ok q) : q.Constructible := by
  rcases l.eval_eq_ok h with ⟨-, r, rfl, hr⟩ | ⟨-, -, hq⟩
  · exact .resistanceOfTolerance hr
  · exact .ofTolerance hq

/-- **Evaluation makes no other quantities.** -/
def MadeEnvironment.eval (env : MadeEnvironment S) {e : Expr S} {q : Quantity S}
    (h : e.eval env.quantities = .ok (.quantity q)) : MadeQuantity S :=
  ⟨q, KeptByEvaluation.eval
    ⟨Literal.constructible_eval, .combine, .power, .atTemperature⟩ env.made h⟩

end WorstCase
