import Mathlib.Control.Monad.Basic
import WorstCase.Proofs.Evaluation.Success
import WorstCase.Proofs.Quantity.Recovery
import WorstCase.Scalar.Rounded

/-!
# Results have the dimension they must have

Which kinds multiply to which is written down in tables, and squares, dividers and sums have rules of
their own. A wrong entry in any of them would be a value with a wrong unit, and nothing else would show
it. What the entries must agree with is the **dimension**: exponents add in a product, subtract in a
quotient and double in a square, a sum joins what has the same dimension, and a ratio has none.

The dimension of an expression is computed from its text and the kinds of its variables, without any
numbers (`Expr.dimension?`). If an expression has a quantity for its value, it has a dimension, and it is
that of the quantity (`Expr.dimension_eval`). No two kinds share a dimension, so the kind of the value is
then known before it is evaluated.
-/

namespace WorstCase

/-- **A kind is known by its dimension.** -/
theorem Kind.dimension_injective {a b : Kind} (h : a.dimension = b.dimension) : a = b := by
  revert h
  cases a <;> cases b <;> decide

/-! ## Operators -/

namespace BinaryOperator

/-- **The kind that an operator makes of two kinds**, if it makes one. -/
def kind? : BinaryOperator → Kind → Kind → Option Kind
  | .add, a, b => if a ≠ .factor ∧ a = b then some a else none
  | .sub, a, b => if a ≠ .factor ∧ a = b ∧ a ≠ .resistance then some a else none
  | .mul, a, b => a.product b
  | .div, a, b => a.quotient b
  | .parallel, a, b => if a = .resistance ∧ b = .resistance then some .resistance else none
  | .divider, a, b => if a = .resistance ∧ b = .resistance then some .factor else none

/-- **The dimension that an operator makes of two dimensions.** What is added up, subtracted or put in
parallel must have the same. -/
def dimension? : BinaryOperator → Dimension → Dimension → Option Dimension
  | .add, d, e | .sub, d, e | .parallel, d, e => if d = e then some d else none
  | .mul, d, e => some (d + e)
  | .div, d, e => some (d - e)
  | .divider, _, _ => some 0

/-- **The kinds keep to the dimensions.** -/
theorem dimension_kind {op : BinaryOperator} {a b c : Kind} (h : op.kind? a b = some c) :
    op.dimension? a.dimension b.dimension = some c.dimension := by
  cases op with
  | add =>
    obtain ⟨⟨-, rfl⟩, ⟨⟩⟩ := Option.ite_none_right_eq_some.mp h
    exact if_pos rfl
  | sub =>
    obtain ⟨⟨-, rfl, -⟩, ⟨⟩⟩ := Option.ite_none_right_eq_some.mp h
    exact if_pos rfl
  | mul => exact congrArg some (Kind.dimension_product h).symm
  | div => exact congrArg some (Kind.dimension_quotient h).symm
  | parallel =>
    obtain ⟨⟨rfl, rfl⟩, ⟨⟩⟩ := Option.ite_none_right_eq_some.mp h
    rfl
  | divider =>
    obtain ⟨-, ⟨⟩⟩ := Option.ite_none_right_eq_some.mp h
    rfl

end BinaryOperator

namespace Quantity

variable {S : Type} [Scalar S] {p q r : Quantity S}

/-- **The kind of a result** is what the operator makes of the kinds. -/
theorem kind_combine {op : BinaryOperator} (h : p.combine op q = .ok (.quantity r)) :
    op.kind? p.kind q.kind = some r.kind := by
  cases op with
  | add =>
    obtain ⟨hfactor, hsame, h⟩ := add_eq_quantity h
    refine Option.ite_none_right_eq_some.mpr ⟨⟨hfactor, hsame⟩, congrArg some ?_⟩
    rcases h with ⟨s, t, u, rfl, rfl, rfl, -⟩ | ⟨-, h⟩
    · rfl
    · exact (kind_ofResult h).symm
  | sub =>
    obtain ⟨hfactor, hsame, hresistance, h⟩ := sub_eq_quantity h
    exact Option.ite_none_right_eq_some.mpr
      ⟨⟨hfactor, hsame, hresistance⟩, congrArg some (kind_ofResult h).symm⟩
  | mul =>
    obtain ⟨kind, hkind, h⟩ := mul_eq_quantity h
    obtain ⟨i, -, h⟩ := ofResult?_eq_ok.mp h
    exact hkind.trans (congrArg some (kind_ofResult h).symm)
  | div =>
    obtain ⟨kind, hkind, -, h⟩ := div_eq_quantity h
    obtain ⟨i, -, h⟩ := ofResult?_eq_ok.mp h
    exact hkind.trans (congrArg some (kind_ofResult h).symm)
  | parallel =>
    obtain ⟨t, ht, h⟩ := Except.map_eq_ok.mp h
    cases h
    obtain ⟨s, t, u, rfl, rfl, rfl, -⟩ := parallel_eq_ok ht
    rfl
  | divider =>
    obtain ⟨t, ht, h⟩ := divider_none_eq_ok.mp h
    cases h
    obtain ⟨s, t, m, rfl, rfl, rfl, -⟩ := dividerRatio_eq_ok ht
    rfl

omit [Scalar S] in
/-- What ends in a quantity comes to one. -/
theorem exists_quantity_of_bind {α : Type} {x : Except (QuantityError S) α} {f : α → Quantity S}
    {o : Outcome S} (h : (do return Outcome.quantity (f (← x))) = .ok o) :
    ∃ r, o = .quantity r := by
  obtain ⟨a, -, h⟩ := Except.bind_eq_ok.mp h
  exact ⟨f a, (Except.ok.inj h).symm⟩

/-- Operands whose kinds an operator joins come to a quantity. -/
theorem exists_quantity_of_combine {op : BinaryOperator} {kind : Kind} {o : Outcome S}
    (hkind : op.kind? p.kind q.kind = some kind) (h : p.combine op q = .ok o) :
    ∃ r, o = .quantity r := by
  cases op with
  | add =>
    obtain ⟨⟨hfactor, hsame⟩, -⟩ := Option.ite_none_right_eq_some.mp hkind
    change p.add q = .ok o at h
    unfold add at h
    dsimp only at h
    rw [if_neg hfactor, if_neg (not_not.mpr hsame)] at h
    split at h
    · exact exists_quantity_of_bind h
    · exact exists_quantity_of_bind (f := id) h
  | sub =>
    obtain ⟨⟨hfactor, hsame, hresistance⟩, -⟩ := Option.ite_none_right_eq_some.mp hkind
    change p.sub q = .ok o at h
    unfold sub at h
    dsimp only at h
    rw [if_neg hfactor, if_neg (not_not.mpr hsame), if_neg hresistance] at h
    exact exists_quantity_of_bind (f := id) h
  | mul =>
    have hproduct : p.kind.product q.kind = some kind := hkind
    change p.mul q = .ok o at h
    unfold mul at h
    dsimp only at h
    rw [hproduct] at h
    exact exists_quantity_of_bind (f := id) h
  | div =>
    have hquotient : p.kind.quotient q.kind = some kind := hkind
    change p.div q = .ok o at h
    unfold div at h
    dsimp only at h
    rw [hquotient] at h
    dsimp only at h
    split at h
    · cases h
    · exact exists_quantity_of_bind (f := id) h
  | parallel =>
    obtain ⟨u, -, h⟩ := Except.map_eq_ok.mp h
    exact ⟨u, h.symm⟩
  | divider =>
    obtain ⟨u, -, h⟩ := divider_none_eq_ok.mp h
    exact ⟨u, h.symm⟩

/-- The kind of a power is the square of the kind. -/
theorem kind_power {exponent : S} (h : p.power exponent = .ok (.quantity r)) :
    p.kind.squared = some r.kind := by
  obtain ⟨kind, hkind, -, h⟩ := power_eq_quantity h
  exact hkind.trans (congrArg some (kind_ofResult h).symm)

/-- A change of temperature leaves the kind as it is. -/
theorem kind_atTemperature {degrees : S} (h : p.atTemperature degrees = .ok r) :
    r.kind = p.kind := by
  unfold atTemperature at h
  split at h
  · obtain ⟨s, -, rfl⟩ := Except.map_eq_ok.mp h
    rfl
  · cases h

end Quantity

/-! ## Expressions -/

variable {S : Type} [Scalar S]

/-- A literal stands for a quantity of its kind. -/
theorem Literal.kind_eval {l : Literal S} {span : Span} {q : Quantity S}
    (h : l.eval span = .ok q) : q.kind = l.kind := by
  rcases l.eval_eq_ok h with ⟨hkind, r, rfl, -⟩ | ⟨hkind, -, h⟩
  · exact hkind.symm
  · obtain ⟨m, -, h⟩ := Except.bind_eq_ok.mp h
    rcases Quantity.ofMeasure_eq_ok h with ⟨hresistance, -⟩ | ⟨hplain, rfl⟩
    · exact absurd hresistance hkind
    · rfl

omit [Scalar S] in
/-- The kinds of the variables of an environment. -/
def Environment.kindOf (env : Environment S) (name : String) : Option Kind :=
  (env.get? name).map Quantity.kind

namespace Expr

omit [Scalar S] in
/-- **The dimension of an expression**, from the kinds of its variables and literals alone. -/
def dimension? (kindOf : String → Option Kind) : Expr S → Option Dimension
  | .binary _ op left right => do
    op.value.dimension? (← left.dimension? kindOf) (← right.dimension? kindOf)
  | .power _ base _ => do
    let d ← base.dimension? kindOf
    return d + d
  | .atTemperature _ base _ => base.dimension? kindOf
  | .group _ inner => inner.dimension? kindOf
  | .var _ name => (kindOf name).map Kind.dimension
  | .literal _ l => some l.kind.dimension

/-- **A value has the dimension of its expression.** By induction on the expression: each operation keeps
to the dimensions of its operands. -/
theorem dimension_eval {env : Environment S} {e : Expr S} {q : Quantity S}
    (h : e.eval env = .ok (.quantity q)) : e.dimension? env.kindOf = some q.kind.dimension := by
  induction e generalizing q with
  | binary extent op left right ihl ihr =>
    obtain ⟨p, r, hp, hr, h⟩ := eval_binary_eq_ok.mp h
    rw [dimension?, ihl hp, ihr hr]
    exact BinaryOperator.dimension_kind (Quantity.kind_combine h)
  | power extent base exponent ih =>
    obtain ⟨p, hp, h⟩ := eval_power_eq_ok.mp h
    rw [dimension?, ih hp]
    exact congrArg some (Kind.dimension_squared (Quantity.kind_power h)).symm
  | atTemperature extent base degrees ih =>
    obtain ⟨p, r, hp, hr, h⟩ := eval_atTemperature_eq_ok.mp h
    cases h
    rw [dimension?, ih hp, Quantity.kind_atTemperature hr]
  | group extent inner ih => exact ih h
  | var extent name =>
    obtain ⟨p, hp, h⟩ := eval_var_eq_ok.mp h
    cases h
    rw [dimension?, Environment.kindOf, hp]
    rfl
  | literal extent l =>
    obtain ⟨p, hp, h⟩ := eval_literal_eq_ok.mp h
    cases h
    rw [dimension?, Literal.kind_eval hp]

omit [Scalar S] in
/-- The dimension depends on the kinds of the variables that occur. -/
theorem dimension_congr {kindOf other : String → Option Kind} {e : Expr S}
    (h : ∀ name ∈ e.names, other name = kindOf name) :
    e.dimension? other = e.dimension? kindOf := by
  induction e with
  | binary extent op left right ihl ihr =>
    have hleft := ihl fun name hname => h name (List.mem_append_left _ hname)
    have hright := ihr fun name hname => h name (List.mem_append_right _ hname)
    rw [dimension?, dimension?, hleft, hright]
  | power extent base exponent ih => rw [dimension?, dimension?, ih h]
  | atTemperature extent base degrees ih => exact ih h
  | group extent inner ih => exact ih h
  | var extent name => rw [dimension?, dimension?, h name List.mem_cons_self]
  | literal extent l => rfl

/-- **Evaluation is dimensionally sound.** If an expression has a quantity for its value, the expression
has a dimension, computed from the kinds of its variables and literals alone, and the kind of the
quantity is of that dimension. In two environments that agree on the kinds of the variables that occur,
its values are therefore of one kind. -/
theorem eval_dimension (env : Environment S) (e : Expr S) (q : Quantity S)
    (h : e.eval env = .ok (.quantity q)) :
    e.dimension? env.kindOf = some q.kind.dimension
    ∧ ∀ (other : Environment S) (r : Quantity S),
      (∀ name ∈ e.names, other.kindOf name = env.kindOf name) →
      e.eval other = .ok (.quantity r) → r.kind = q.kind := by
  refine ⟨dimension_eval h, fun other r hkinds hr => Kind.dimension_injective ?_⟩
  have hdimension := (dimension_congr hkinds).symm.trans (dimension_eval hr)
  rw [dimension_eval h] at hdimension
  exact (Option.some.inj hdimension).symm

/-! ### The heat of a resistor

A current `i` through a resistance `r` for a time `t` heats it by `i ^ 2 * r * t`, and there were 2 J
before. -/

/-- The heat, `i ^ 2 * r * t + 2J`, with all nodes at the start. -/
def heat : Expr Binary64 :=
  let extent : Extent := ⟨⟨.start, .start⟩, ⟨.start, .start⟩⟩
  let power : Expr Binary64 :=
    .binary extent ⟨.mul, extent⟩ (.power extent (.var extent "i") ⟨.ofRat 2, extent⟩)
      (.var extent "r")
  .binary extent ⟨.add, extent⟩
    (.binary extent ⟨.mul, extent⟩ power (.var extent "t"))
    (.literal extent ⟨.ofRat 2, some ⟨.joule, extent⟩, none, none⟩)

/-- A current through a resistor of 1 Ω for 2 s. -/
def heatInput (i : Measure Binary64) : Environment Binary64 :=
  let exactly (x : Rat) : Measure Binary64 :=
    ⟨.ofRat x, some 0, ⟨.ofRat x, .ofRat x⟩⟩
  ⟨[("i", .plain .current i (by decide)),
    ("r", .resistance ⟨exactly 1, none, .ofRat 1, .celsius (.ofRat 20)⟩),
    ("t", .plain .time (exactly 2) (by decide))],
    show ["i", "r", "t"].Nodup by decide⟩

/-- With 4 A ± 25 % it is between 20 J and 52 J, and with -2 A it is 10 J: an energy with either. -/
theorem eval_dimension_heat :
    let swinging := heatInput ⟨.ofRat 4, some (.ofRat (1 / 4)), ⟨.ofRat 3, .ofRat 5⟩⟩
    let reversed := heatInput ⟨.ofRat (-2), some 0, ⟨.ofRat (-2), .ofRat (-2)⟩⟩
    ∃ q r, heat.eval swinging = .ok (.quantity q) ∧ heat.eval reversed = .ok (.quantity r)
      ∧ heat.dimension? swinging.kindOf = some ⟨1, 1, 1⟩ ∧ q.kind = .energy
      ∧ (∀ name ∈ heat.names, reversed.kindOf name = swinging.kindOf name) ∧ r.kind = q.kind := by
  intro swinging reversed
  have hq : heat.eval swinging = .ok (.quantity (.plain .energy
      ⟨.ofRat 36, some (.ofRat (4 / 9)), ⟨.ofRat 20, .ofRat 52⟩⟩ (by decide))) := by
    decide +kernel
  have hr : heat.eval reversed = .ok (.quantity (.plain .energy
      ⟨.ofRat 10, none, ⟨.ofRat 10, .ofRat 10⟩⟩ (by decide))) := by
    decide +kernel
  have hkinds : ∀ name ∈ heat.names, reversed.kindOf name = swinging.kindOf name := by
    decide +kernel
  obtain ⟨hdimension, hsame⟩ := eval_dimension swinging heat _ hq
  exact ⟨_, _, hq, hr, hdimension, rfl, hkinds, hsame reversed _ hkinds hr⟩

end Expr

end WorstCase
