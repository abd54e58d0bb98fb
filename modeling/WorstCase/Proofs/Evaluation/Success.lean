import WorstCase.Evaluation
import WorstCase.Proofs.Except

/-!
# Expressions that have a value

An expression has an outcome only if its operands have quantities as theirs,
and then its outcome is what the quantity algebra makes of them. For every
form of expression this is one equivalence, so a proof about outcomes follows
the expression and never meets spans or faults.

A property of quantities that literals have, and that the operations keep, is
one of every quantity that evaluation comes to (`KeptByEvaluation.eval`). An
invariant is proved once for each operation, and never by induction on
expressions again.
-/

namespace WorstCase

variable {S : Type} [Scalar S]

omit [Scalar S] in
/-- The place where a fault is met is no concern of a success. -/
theorem metAt_eq_ok {α : Type} {span : Span} {x : Except (QuantityError S) α}
    {a : α} : metAt span x = .ok a ↔ x = .ok a := by
  cases x with
  | error e => exact ⟨fun h => (nomatch h), fun h => (nomatch h)⟩
  | ok b =>
    show Except.ok b = Except.ok a ↔ _
    rw [Except.ok.injEq, Except.ok.injEq]

omit [Scalar S] in
/-- Only a quantity is an operand. -/
theorem asOperand_eq_ok {op : Operator} {span : Span} {o : Outcome S}
    {q : Quantity S} : asOperand op span o = .ok q ↔ o = .quantity q := by
  cases o with
  | quantity p =>
    show Except.ok p = Except.ok q ↔ _
    rw [Except.ok.injEq, Outcome.quantity.injEq]
  | bounds i => exact ⟨fun h => (nomatch h), fun h => (nomatch h)⟩
  | undefined => exact ⟨fun h => (nomatch h), fun h => (nomatch h)⟩

/-! ## Literals -/

/-- The kind of quantity that a literal stands for. -/
def Literal.kind (l : Literal S) : Kind :=
  match l.unit with
  | some unit => unit.value.kind
  | none => .resistance

/-- The tolerance of a literal as a fraction. A literal without one is exact. -/
def Literal.fraction (l : Literal S) : S :=
  match l.tolerance with
  | some percent => percent.value / Scalar.ofRat 100
  | none => 0

/-- **A literal is a resistance**, which may have a coefficient, or a quantity
of another kind, which may not. -/
theorem Literal.eval_eq_ok {l : Literal S} {span : Span} {q : Quantity S}
    (h : l.eval span = .ok q) :
    (l.kind = .resistance ∧ ∃ r, q = .resistance r
      ∧ Resistance.ofTolerance l.value l.fraction (l.coefficient.map Node.value) = .ok r)
    ∨ (l.kind ≠ .resistance ∧ l.coefficient = none
      ∧ Quantity.ofTolerance l.kind l.value l.fraction = .ok q) := by
  unfold Literal.eval at h
  dsimp only at h
  unfold Literal.kind
  cases hunit : l.unit with
  | none =>
    rw [hunit] at h
    obtain ⟨r, hr, rfl⟩ := Except.map_eq_ok.mp (metAt_eq_ok.mp h)
    exact .inl ⟨rfl, r, rfl, hr⟩
  | some unit =>
    rw [hunit] at h
    dsimp only at h
    split at h
    · rename_i hkind
      obtain ⟨r, hr, rfl⟩ := Except.map_eq_ok.mp (metAt_eq_ok.mp h)
      exact .inl ⟨hkind, r, rfl, hr⟩
    · rename_i hkind
      split at h
      · cases h
      · rename_i hcoefficient
        rw [Option.isSome_map, Bool.not_eq_true, Option.isSome_eq_false_iff,
          Option.isNone_iff_eq_none] at hcoefficient
        exact .inr ⟨hkind, hcoefficient, metAt_eq_ok.mp h⟩

namespace Expr

/-! ## Expressions -/

variable {env : Environment S} {extent : Extent} {e left right : Expr S}
  {o : Outcome S}

/-- An operand has a quantity where its outcome is one. -/
theorem bind_asOperand_eq_ok {α : Type} {op : Operator} {span : Span}
    {f : Quantity S → Except (EvalError S) α} {a : α} :
    (do f (← asOperand op span (← e.eval env))) = .ok a
      ↔ ∃ q, e.eval env = .ok (.quantity q) ∧ f q = .ok a := by
  rw [Except.bind_eq_ok]
  constructor
  · rintro ⟨o, ho, h⟩
    obtain ⟨q, hq, hf⟩ := Except.bind_eq_ok.mp h
    rw [asOperand_eq_ok.mp hq] at ho
    exact ⟨q, ho, hf⟩
  · rintro ⟨q, hq, hf⟩
    exact ⟨_, hq, Except.bind_eq_ok.mpr ⟨q, rfl, hf⟩⟩

/-- **Two operands joined by an operator.** -/
theorem eval_binary_eq_ok {op : Node BinaryOperator} :
    (Expr.binary extent op left right).eval env = .ok o
      ↔ ∃ p q, left.eval env = .ok (.quantity p)
        ∧ right.eval env = .ok (.quantity q) ∧ p.combine op.value q = .ok o := by
  rw [Expr.eval, bind_asOperand_eq_ok]
  constructor
  · rintro ⟨p, hp, h⟩
    obtain ⟨q, hq, h⟩ := bind_asOperand_eq_ok.mp h
    exact ⟨p, q, hp, hq, metAt_eq_ok.mp h⟩
  · rintro ⟨p, q, hp, hq, h⟩
    exact ⟨p, hp, bind_asOperand_eq_ok.mpr ⟨q, hq, metAt_eq_ok.mpr h⟩⟩

/-- **A power.** -/
theorem eval_power_eq_ok {exponent : Node S} :
    (Expr.power extent e exponent).eval env = .ok o
      ↔ ∃ q, e.eval env = .ok (.quantity q) ∧ q.power exponent.value = .ok o := by
  rw [Expr.eval, bind_asOperand_eq_ok]
  exact exists_congr fun q => and_congr_right fun _ => metAt_eq_ok

/-- **A resistance taken to a temperature.** -/
theorem eval_atTemperature_eq_ok {degrees : Node S} :
    (Expr.atTemperature extent e degrees).eval env = .ok o
      ↔ ∃ q r, e.eval env = .ok (.quantity q)
        ∧ q.atTemperature degrees.value = .ok r ∧ o = .quantity r := by
  rw [Expr.eval, bind_asOperand_eq_ok]
  constructor
  · rintro ⟨q, hq, h⟩
    obtain ⟨r, hr, rfl⟩ := Except.map_eq_ok.mp (metAt_eq_ok.mp h)
    exact ⟨q, r, hq, hr, rfl⟩
  · rintro ⟨q, r, hq, hr, rfl⟩
    exact ⟨q, hq, metAt_eq_ok.mpr (Except.map_eq_ok.mpr ⟨r, hr, rfl⟩)⟩

/-- **A variable** has the quantity under its name. -/
theorem eval_var_eq_ok {name : String} :
    (Expr.var extent name).eval env = .ok o
      ↔ ∃ q, env.get? name = some q ∧ o = .quantity q := by
  rw [Expr.eval]
  cases env.get? name with
  | none => exact ⟨fun h => (nomatch h), fun ⟨_, h, _⟩ => (nomatch h)⟩
  | some q =>
    constructor
    · intro h
      exact ⟨q, rfl, (Except.ok.inj h).symm⟩
    · rintro ⟨p, hp, rfl⟩
      rw [Option.some.inj hp]

/-- **A literal** has the quantity it stands for. -/
theorem eval_literal_eq_ok {l : Literal S} :
    (Expr.literal extent l).eval env = .ok o
      ↔ ∃ q, l.eval extent.span = .ok q ∧ o = .quantity q := by
  rw [Expr.eval, Except.map_eq_ok]
  exact exists_congr fun q => and_congr_right fun _ => eq_comm

end Expr

/-! ## Properties that evaluation keeps -/

omit [Scalar S] in
/-- **All values of an environment have a property.** -/
def Environment.All (P : Quantity S → Prop) (env : Environment S) : Prop :=
  ∀ name q, env.get? name = some q → P q

omit [Scalar S] in
theorem Environment.All.empty (P : Quantity S → Prop) : Environment.All P .empty := by
  intro name q h
  cases h

omit [Scalar S] in
theorem Environment.All.assign {P : Quantity S → Prop} {env : Environment S}
    (henv : env.All P) {name : String} {q : Quantity S} (hq : P q) :
    Environment.All P (env.assign name q) := by
  intro other p hp
  rw [Ledger.get?_assign] at hp
  split at hp
  · exact Option.some.inj hp ▸ hq
  · exact henv other p hp

/-- **A property of quantities that evaluation keeps**: a literal has it, and so
has what an operation makes of quantities that have it. -/
structure KeptByEvaluation (P : Quantity S → Prop) : Prop where
  literal : ∀ {l : Literal S} {span : Span} {q : Quantity S}, l.eval span = .ok q → P q
  combine : ∀ {op : BinaryOperator} {p q r : Quantity S}, P p → P q →
    p.combine op q = .ok (.quantity r) → P r
  power : ∀ {p q : Quantity S} {exponent : S}, P p →
    p.power exponent = .ok (.quantity q) → P q
  atTemperature : ∀ {p q : Quantity S} {degrees : S}, P p →
    p.atTemperature degrees = .ok q → P q

/-- **What evaluation comes to has every property that evaluation keeps**, if
the values of the environment have it. -/
theorem KeptByEvaluation.eval {P : Quantity S → Prop} (hP : KeptByEvaluation P)
    {env : Environment S} (henv : env.All P) {e : Expr S} {q : Quantity S}
    (h : e.eval env = .ok (.quantity q)) : P q := by
  induction e generalizing q with
  | binary extent op left right ihl ihr =>
    obtain ⟨p, r, hp, hr, h⟩ := Expr.eval_binary_eq_ok.mp h
    exact hP.combine (ihl hp) (ihr hr) h
  | power extent base exponent ih =>
    obtain ⟨p, hp, h⟩ := Expr.eval_power_eq_ok.mp h
    exact hP.power (ih hp) h
  | atTemperature extent base degrees ih =>
    obtain ⟨p, r, hp, hr, h⟩ := Expr.eval_atTemperature_eq_ok.mp h
    cases h
    exact hP.atTemperature (ih hp) hr
  | group extent inner ih => exact ih h
  | var extent name =>
    obtain ⟨p, hp, h⟩ := Expr.eval_var_eq_ok.mp h
    cases h
    exact henv name q hp
  | literal extent l =>
    obtain ⟨p, hp, h⟩ := Expr.eval_literal_eq_ok.mp h
    cases h
    exact hP.literal hp

end WorstCase
