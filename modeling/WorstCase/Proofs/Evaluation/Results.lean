import WorstCase.Evaluation
import WorstCase.Proofs.Except

/-!
# What an expression comes to, wherever it stands

An evaluation that fails names the span where the fault was met, so a formula
that is moved in its line, or given more parentheses, fails with another error.
The **result** of an expression is its evaluation without the spans: an outcome,
or the fault alone.

The result of an expression is computed from the results of its operands, and
nothing else of them matters (`Expr.result_binary` and the equations beside it).
So what may be put for what is decided by results: an expression keeps its
result when all that is taken from it are the parentheses and the places of its
parts (`Expr.result_bare`).
-/

namespace WorstCase

variable {S : Type} [Scalar S]

/-- **What an expression comes to** in an environment, wherever its parts
stand. -/
def Expr.result (env : Environment S) (e : Expr S) : Except (EvalFault S) (Outcome S) :=
  (e.eval env).mapError EvalError.fault

/-- A result is an outcome where the evaluation is. -/
theorem Expr.result_eq_ok {env : Environment S} {e : Expr S} {o : Outcome S} :
    e.result env = .ok o ↔ e.eval env = .ok o :=
  Except.mapError_eq_ok

/-! ## The result is that of the operands -/

omit [Scalar S] in
/-- An outcome as the operand of an operator. -/
def Outcome.operand (op : Operator) (o : Outcome S) : Except (EvalFault S) (Quantity S) :=
  o.asQuantity.mapError (.untypedOperand op)

omit [Scalar S] in
/-- The place of an operand is only told. -/
theorem mapError_asOperand (op : Operator) (span : Span) (o : Outcome S) :
    (asOperand op span o).mapError EvalError.fault = o.operand op := by
  cases o <;> rfl

omit [Scalar S] in
/-- The place of a fault is only told. -/
theorem mapError_metAt {α : Type} (span : Span) (x : Except (QuantityError S) α) :
    (metAt span x).mapError EvalError.fault = x.mapError .quantity := by
  cases x <;> rfl

namespace Expr

variable {env : Environment S} {extent : Extent} {e left right : Expr S}

/-- An operand is taken from a result. -/
theorem mapError_bind_asOperand {α : Type} (op : Operator) (span : Span)
    (f : Quantity S → Except (EvalError S) α) :
    Except.mapError EvalError.fault (do f (← asOperand op span (← e.eval env)))
      = (do (f (← (← e.result env).operand op)).mapError EvalError.fault) := by
  rw [Except.mapError_bind]
  refine congrArg (e.result env >>= ·) (funext fun o => ?_)
  rw [Except.mapError_bind, mapError_asOperand]

theorem result_binary {op : Node BinaryOperator} :
    (binary extent op left right).result env = (do
      let p ← (← left.result env).operand op.value
      let q ← (← right.result env).operand op.value
      (p.combine op.value q).mapError .quantity) := by
  rw [result, eval, mapError_bind_asOperand]
  refine congrArg (left.result env >>= ·) (funext fun o => ?_)
  refine congrArg (o.operand op.value >>= ·) (funext fun p => ?_)
  rw [mapError_bind_asOperand]
  simp only [mapError_metAt]

theorem result_power {exponent : Node S} :
    (power extent e exponent).result env = (do
      let q ← (← e.result env).operand .power
      (q.power exponent.value).mapError .quantity) := by
  rw [result, eval, mapError_bind_asOperand]
  simp only [mapError_metAt]

theorem result_atTemperature {degrees : Node S} :
    (atTemperature extent e degrees).result env = (do
      let q ← (← e.result env).operand .atTemperature
      ((q.atTemperature degrees.value).map .quantity).mapError .quantity) := by
  rw [result, eval, mapError_bind_asOperand]
  simp only [mapError_metAt]

/-- Parentheses do nothing. -/
theorem result_group : (group extent e).result env = e.result env := rfl

/-- A variable has its value for a result, wherever it stands. -/
theorem result_var {name : String} :
    (var extent name).result env
      = (env.get? name).elim (.error (.unknownVariable name)) (.ok ∘ .quantity) := by
  rw [result, eval]
  cases env.get? name <;> rfl

theorem result_literal {l : Literal S} :
    (literal extent l).result env
      = ((l.eval extent.span).mapError EvalError.fault).map .quantity :=
  Except.mapError_map _ _ _

end Expr

/-! ## Without parentheses and places -/

/-- The extent of what stands nowhere in particular. -/
def Extent.nowhere : Extent := ⟨⟨.start, .start⟩, ⟨.start, .start⟩⟩

/-- A node that stands nowhere in particular. -/
def Node.bare {α : Type} (n : Node α) : Node α := ⟨n.value, .nowhere⟩

omit [Scalar S] in
/-- The literal without the places of its parts. -/
def Literal.bare (l : Literal S) : Literal S :=
  ⟨l.value, l.unit.map Node.bare, l.tolerance.map Node.bare, l.coefficient.map Node.bare⟩

omit [Scalar S] in
/-- **What is left of an expression** without its parentheses and the places of
its parts. Two expressions that leave the same differ in layout only. -/
def Expr.bare : Expr S → Expr S
  | .binary _ op left right => .binary .nowhere op.bare left.bare right.bare
  | .power _ base exponent => .power .nowhere base.bare exponent.bare
  | .atTemperature _ base degrees => .atTemperature .nowhere base.bare degrees.bare
  | .group _ inner => inner.bare
  | .var _ name => .var .nowhere name
  | .literal _ l => .literal .nowhere l.bare

/-- A literal comes to the same wherever it stands. -/
theorem Literal.mapError_eval_bare (l : Literal S) (span here : Span) :
    (l.bare.eval here).mapError EvalError.fault
      = (l.eval span).mapError EvalError.fault := by
  obtain ⟨value, unit, tolerance, coefficient⟩ := l
  have hcoefficient : (coefficient.map Node.bare).map Node.value
      = coefficient.map Node.value := by
    cases coefficient <;> rfl
  unfold Literal.eval Literal.bare
  dsimp only
  rw [hcoefficient]
  cases unit with
  | none => cases tolerance <;> exact (mapError_metAt _ _).trans (mapError_metAt _ _).symm
  | some unit =>
    dsimp only [Option.map_some, Node.bare]
    by_cases hkind : unit.value.kind = .resistance
    · rw [if_pos hkind, if_pos hkind]
      cases tolerance <;> exact (mapError_metAt _ _).trans (mapError_metAt _ _).symm
    · rw [if_neg hkind, if_neg hkind]
      cases coefficient with
      | some ppm => rfl
      | none =>
        cases tolerance <;> exact (mapError_metAt _ _).trans (mapError_metAt _ _).symm

/-- **An expression keeps its result** without its parentheses and places. -/
theorem Expr.result_bare (env : Environment S) (e : Expr S) :
    e.bare.result env = e.result env := by
  induction e with
  | binary extent op left right ihl ihr =>
    rw [bare, result_binary, result_binary, ihl, ihr]
    rfl
  | power extent base exponent ih =>
    rw [bare, result_power, result_power, ih]
    rfl
  | atTemperature extent base degrees ih =>
    rw [bare, result_atTemperature, result_atTemperature, ih]
    rfl
  | group extent inner ih => rw [bare, result_group, ih]
  | var extent name => rw [bare, result_var, result_var]
  | literal extent l =>
    rw [bare, result_literal, result_literal, Literal.mapError_eval_bare]

/-- **Layout does not matter**: two expressions that differ in it only have the
same result. -/
theorem Expr.result_eq_of_bare_eq {e other : Expr S} (h : other.bare = e.bare)
    (env : Environment S) : other.result env = e.result env := by
  rw [← result_bare env other, h, result_bare]

end WorstCase
