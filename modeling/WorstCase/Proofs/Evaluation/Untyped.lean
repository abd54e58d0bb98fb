import WorstCase.Proofs.Evaluation.Dimensions
import WorstCase.Proofs.Evaluation.Failure
import WorstCase.Proofs.Interval.Rounded
import WorstCase.Proofs.Quantity.Network
import WorstCase.Proofs.Quantity.Ordered

/-!
# Which expressions have no type

Evaluation may end without a quantity and yet without an error. The formula language promises that it
does so for three forms only: a sum or a difference that starts with a factor, a difference of two
resistances, and a power of a voltage or of a current that is no square. What is none of these, and has a
value, is a quantity; bounds of no kind come from operations with a bare number, which the language does
not write.

The order in which the algebra looks at its operands is what the three forms are sensitive to. A factor
is noticed before the kinds are compared, two resistances after that, and a kind that cannot be squared
before the exponent is read. So `Quantity.combine_cases` and `Quantity.power_cases` say of every outcome
which of the two it is, and `Quantity.combine_undefined` and `Quantity.power_undefined` that the forms
are never anything else. From there the expressions follow, since an operand that has no type is an error
(`Expr.eval_operation_undefined`).
-/

namespace WorstCase

/-! ## Operators -/

/-- **The kinds that an operator leaves without a type.** -/
def BinaryOperator.LeavesUntyped (op : BinaryOperator) (a b : Kind) : Prop :=
  (op = .add ∨ op = .sub) ∧ a = .factor ∨ op = .sub ∧ a = .resistance ∧ b = .resistance

namespace Quantity

variable {S : Type} [Scalar S] {p q : Quantity S} {o : Outcome S}

/-- **Operands come to a quantity, or are left without a type.** -/
theorem combine_cases {op : BinaryOperator} (h : p.combine op q = .ok o) :
    (∃ r, o = .quantity r) ∨ o = .undefined ∧ op.LeavesUntyped p.kind q.kind := by
  cases hkind : op.kind? p.kind q.kind with
  | some kind => exact .inl (exists_quantity_of_combine hkind h)
  | none =>
    -- kinds that no operator joins are an error, unless there is something to say before that
    cases op with
    | add =>
      change p.add q = .ok o at h
      unfold add at h
      dsimp only at h
      split at h
      · rename_i hfactor
        cases h
        exact .inr ⟨rfl, .inl ⟨.inl rfl, hfactor⟩⟩
      · rename_i hfactor
        split at h
        · cases h
        · rename_i hsame
          exact absurd (if_pos ⟨hfactor, not_not.mp hsame⟩)
            (ne_of_eq_of_ne hkind (Option.some_ne_none p.kind).symm)
    | sub =>
      change p.sub q = .ok o at h
      unfold sub at h
      dsimp only at h
      split at h
      · rename_i hfactor
        cases h
        exact .inr ⟨rfl, .inl ⟨.inr rfl, hfactor⟩⟩
      · rename_i hfactor
        split at h
        · cases h
        · rename_i hsame
          split at h
          · rename_i hresistance
            cases h
            exact .inr ⟨rfl, .inr ⟨rfl, hresistance, (not_not.mp hsame).symm.trans hresistance⟩⟩
          · rename_i hresistance
            exact absurd (if_pos ⟨hfactor, not_not.mp hsame, hresistance⟩)
              (ne_of_eq_of_ne hkind (Option.some_ne_none p.kind).symm)
    | mul =>
      have hproduct : p.kind.product q.kind = none := hkind
      change p.mul q = .ok o at h
      unfold mul at h
      dsimp only at h
      rw [hproduct] at h
      cases h
    | div =>
      have hquotient : p.kind.quotient q.kind = none := hkind
      change p.div q = .ok o at h
      unfold div at h
      dsimp only at h
      rw [hquotient] at h
      cases h
    | parallel =>
      obtain ⟨u, -, h⟩ := Except.map_eq_ok.mp h
      exact .inl ⟨u, h.symm⟩
    | divider =>
      obtain ⟨u, -, h⟩ := divider_none_eq_ok.mp h
      exact .inl ⟨u, h.symm⟩

/-- Kinds that are left without a type are never an error. -/
theorem combine_undefined {op : BinaryOperator} (h : op.LeavesUntyped p.kind q.kind) :
    p.combine op q = .ok .undefined := by
  rcases h with ⟨rfl | rfl, hfactor⟩ | ⟨rfl, hp, hq⟩
  · exact if_pos hfactor
  · exact if_pos hfactor
  · have hfactor : p.kind ≠ .factor := hp ▸ nofun
    show p.sub q = _
    unfold sub
    rw [if_neg hfactor, if_neg (not_not.mpr (hp.trans hq.symm)), if_pos hp]

/-- **A power is a quantity, or no square.** -/
theorem power_cases {exponent : S} (h : p.power exponent = .ok o) :
    (∃ r, o = .quantity r)
    ∨ o = .undefined ∧ p.kind.squared ≠ none ∧ Scalar.same exponent (Scalar.ofRat 2) = false := by
  unfold power at h
  split at h
  · cases h
  · rename_i kind hkind
    split at h
    · rename_i hexponent
      cases h
      exact .inr ⟨rfl, hkind ▸ nofun, Bool.not_eq_true' _ ▸ hexponent⟩
    · exact .inl (exists_quantity_of_bind (f := id) h)

/-- What has a square has no other power, and that is no error. -/
theorem power_undefined {exponent : S} (hkind : p.kind.squared ≠ none)
    (hexponent : Scalar.same exponent (Scalar.ofRat 2) = false) : p.power exponent = .ok .undefined := by
  obtain ⟨kind, hkind⟩ := Option.ne_none_iff_exists'.mp hkind
  unfold power
  rw [hkind, hexponent]
  rfl

end Quantity

/-- Voltages and currents have squares, and nothing else does. -/
theorem Kind.squared_ne_none {kind : Kind} : kind.squared ≠ none ↔ kind = .voltage ∨ kind = .current := by
  cases kind <;> decide

/-- **There is one number that is two.** A number and its place among all numbers are the same thing, but for
the two zeros. -/
theorem Binary64.same_two {x : Binary64} : Scalar.same x (.ofRat 2) = false ↔ x ≠ .ofRat 2 := by
  have htwo : Binary64.ofRat 2 = .signed false 0x4000000000000000 (by decide) := by decide +kernel
  rw [← Bool.not_eq_true, htwo]
  refine not_congr ?_
  cases x with
  | nan => exact ⟨nofun, nofun⟩
  | signed negative rank hrank =>
    show (decide (lessOrEqual _ _ = true) && decide (lessOrEqual _ _ = true)) = true ↔ _
    simp only [lessOrEqual, place, Bool.and_eq_true, Binary64.signed.injEq]
    cases negative <;> simp <;> omega

/-! ## Expressions -/

namespace Expr

section AnyScalar

variable {S : Type}

/-- The expression without the parentheses around it. -/
def ungrouped : Expr S → Expr S
  | .group _ inner => inner.ungrouped
  | e => e

/-- **The operation that an expression is**: its operator, its left operand, and the right one of those
that have two. -/
def operation? : Expr S → Option (Operator × Expr S × Option (Expr S))
  | .binary _ op left right => some (op.value, left, some right)
  | .power _ base _ => some (.power, base, none)
  | .atTemperature _ base _ => some (.atTemperature, base, none)
  | .group .. | .var .. | .literal .. => none

variable [Scalar S] {env : Environment S} {e : Expr S} {o : Outcome S} {err : EvalError S}

/-- **No expression comes to bounds of no kind.** -/
theorem eval_cases (h : e.eval env = .ok o) : (∃ q, o = .quantity q) ∨ o = .undefined := by
  induction e with
  | binary extent op left right =>
    obtain ⟨p, q, -, -, h⟩ := eval_binary_eq_ok.mp h
    exact (Quantity.combine_cases h).imp_right And.left
  | power extent base exponent =>
    obtain ⟨q, -, h⟩ := eval_power_eq_ok.mp h
    exact (Quantity.power_cases h).imp_right And.left
  | atTemperature extent base degrees =>
    obtain ⟨-, r, -, -, rfl⟩ := eval_atTemperature_eq_ok.mp h
    exact .inl ⟨r, rfl⟩
  | group extent inner ih => exact ih h
  | var extent name =>
    obtain ⟨q, -, rfl⟩ := eval_var_eq_ok.mp h
    exact .inl ⟨q, rfl⟩
  | literal extent l =>
    obtain ⟨q, -, rfl⟩ := eval_literal_eq_ok.mp h
    exact .inl ⟨q, rfl⟩

/-- **The three ways in which what has an operand fails**: the operand has no value, its value has no
type, or there is no result for it. -/
theorem bind_asOperand_eq_error {α : Type} {op : Operator} {span : Span}
    {f : Quantity S → Except (EvalError S) α} :
    (do f (← asOperand op span (← e.eval env))) = .error err
      ↔ e.eval env = .error err
        ∨ (e.eval env = .ok .undefined ∧ err = ⟨.untypedOperand op .undefined, span⟩)
        ∨ ∃ q, e.eval env = .ok (.quantity q) ∧ f q = .error err := by
  cases he : e.eval env with
  | error other =>
    show Except.error other = .error err ↔ _
    simp
  | ok o =>
    rcases eval_cases he with ⟨q, rfl⟩ | rfl
    · show f q = .error err ↔ _
      simp
    · show Except.error (EvalError.mk (.untypedOperand op .undefined) span) = .error err ↔ _
      simp [eq_comm]

/-- An assignment fails as its expression does, or has nothing to assign. -/
theorem evalFor_eq_error {name : String} :
    e.evalFor env name = .error err
      ↔ e.eval env = .error err
        ∨ e.eval env = .ok .undefined ∧ err = ⟨.untypedAssignment name .undefined, e.span⟩ := by
  unfold evalFor
  cases he : e.eval env with
  | error other =>
    show Except.error other = .error err ↔ _
    simp
  | ok o =>
    rcases eval_cases he with ⟨q, rfl⟩ | rfl
    · show Except.ok q = .error err ↔ _
      simp
    · show Except.error (EvalError.mk (.untypedAssignment name .undefined) e.span) = .error err ↔ _
      simp [eq_comm]

/-- **An operation on what has no type fails**, at the operand. The right operand is only looked at where
the left one has a type. -/
theorem eval_operation_undefined {op : Operator} {left : Expr S} {right : Option (Expr S)}
    (hop : e.operation? = some (op, left, right)) :
    (left.eval env = .ok .undefined →
      e.eval env = .error ⟨.untypedOperand op .undefined, left.span⟩)
    ∧ ∀ q second, left.eval env = .ok (.quantity q) → right = some second →
      second.eval env = .ok .undefined →
      e.eval env = .error ⟨.untypedOperand op .undefined, second.span⟩ := by
  cases e with
  | binary extent symbol first second =>
    cases hop
    refine ⟨fun hleft => ?_, fun q second hleft hright hsecond => ?_⟩
    · exact bind_asOperand_eq_error.mpr (.inr (.inl ⟨hleft, rfl⟩))
    · cases hright
      refine bind_asOperand_eq_error.mpr (.inr (.inr ⟨q, hleft, ?_⟩))
      exact bind_asOperand_eq_error.mpr (.inr (.inl ⟨hsecond, rfl⟩))
  | power extent base exponent =>
    cases hop
    exact ⟨fun hleft => bind_asOperand_eq_error.mpr (.inr (.inl ⟨hleft, rfl⟩)), nofun⟩
  | atTemperature extent base degrees =>
    cases hop
    exact ⟨fun hleft => bind_asOperand_eq_error.mpr (.inr (.inl ⟨hleft, rfl⟩)), nofun⟩
  | group extent inner => cases hop
  | var extent name => cases hop
  | literal extent l => cases hop

end AnyScalar

end Expr

section Faults

variable {S : Type}

/-- **A fault that blames bounds of no kind.** -/
inductive EvalFault.BlamesBounds : EvalFault S → Prop where
  | operand (op : Operator) : BlamesBounds (.untypedOperand op .bounds)
  | assignment (name : String) : BlamesBounds (.untypedAssignment name .bounds)

/-- What the algebra says is not about bounds. -/
theorem not_blamesBounds_metAt {α : Type} {span : Span} {x : Except (QuantityError S) α}
    {err : EvalError S} (h : metAt span x = .error err) : ¬err.fault.BlamesBounds := by
  cases x with
  | error error => cases h; exact nofun
  | ok a => cases h

variable [Scalar S]

theorem Literal.not_blamesBounds {l : Literal S} {span : Span} {err : EvalError S}
    (h : l.eval span = .error err) : ¬err.fault.BlamesBounds := by
  unfold Literal.eval at h
  dsimp only at h
  split at h
  · exact not_blamesBounds_metAt h
  · split at h
    · exact not_blamesBounds_metAt h
    · split at h
      · cases h; exact nofun
      · exact not_blamesBounds_metAt h

namespace Expr

variable {env : Environment S} {e : Expr S} {err : EvalError S}

/-- An operand blames no bounds where it does not by itself. -/
theorem not_blamesBounds_bind {α : Type} {op : Operator} {span : Span}
    {f : Quantity S → Except (EvalError S) α}
    (h : (do f (← asOperand op span (← e.eval env))) = .error err)
    (he : e.eval env = .error err → ¬err.fault.BlamesBounds)
    (hf : ∀ q, f q = .error err → ¬err.fault.BlamesBounds) : ¬err.fault.BlamesBounds := by
  rcases bind_asOperand_eq_error.mp h with h | ⟨-, rfl⟩ | ⟨q, -, h⟩
  · exact he h
  · exact nofun
  · exact hf q h

/-- **No error blames bounds of no kind.** -/
theorem not_blamesBounds_eval (h : e.eval env = .error err) : ¬err.fault.BlamesBounds := by
  induction e with
  | binary extent op left right ihl ihr =>
    refine not_blamesBounds_bind h ihl fun p h => ?_
    exact not_blamesBounds_bind h ihr fun q h => not_blamesBounds_metAt h
  | power extent base exponent ih =>
    exact not_blamesBounds_bind h ih fun q h => not_blamesBounds_metAt h
  | atTemperature extent base degrees ih =>
    exact not_blamesBounds_bind h ih fun q h => not_blamesBounds_metAt h
  | group extent inner ih => exact ih h
  | var extent name =>
    rw [eval] at h
    cases hget : env.get? name with
    | some q => rw [hget] at h; cases h
    | none =>
      rw [hget] at h
      cases h
      rintro ⟨⟩
  | literal extent l => exact Literal.not_blamesBounds (Except.map_eq_error.mp h)

/-- Nor does one of an assignment. -/
theorem not_blamesBounds_evalFor {name : String} (h : e.evalFor env name = .error err) :
    ¬err.fault.BlamesBounds := by
  rcases evalFor_eq_error.mp h with h | ⟨-, rfl⟩
  · exact not_blamesBounds_eval h
  · exact nofun

end Expr

end Faults

/-! ## The undefined forms -/

namespace Expr

/-- **The forms that have no type**, with quantities for their operands. -/
inductive IsUndefinedForm (env : Environment Binary64) : Expr Binary64 → Prop where
  /-- A sum or a difference that starts with a factor. -/
  | factor {extent op left right p q} : op.value = .add ∨ op.value = .sub →
      left.eval env = .ok (.quantity p) → right.eval env = .ok (.quantity q) →
      p.kind = .factor → IsUndefinedForm env (.binary extent op left right)
  /-- A difference of resistances. -/
  | resistances {extent op left right p q} : op.value = .sub →
      left.eval env = .ok (.quantity p) → right.eval env = .ok (.quantity q) →
      p.kind = .resistance → q.kind = .resistance →
      IsUndefinedForm env (.binary extent op left right)
  /-- A power of a voltage or of a current that is no square. -/
  | power {extent base exponent q} : base.eval env = .ok (.quantity q) →
      q.kind = .voltage ∨ q.kind = .current → exponent.value ≠ .ofRat 2 →
      IsUndefinedForm env (.power extent base exponent)

variable {env : Environment Binary64} {e : Expr Binary64}

/-- Parentheses have nothing to do with it. -/
theorem eval_ungrouped (e : Expr Binary64) : e.ungrouped.eval env = e.eval env := by
  induction e with
  | group extent inner ih => exact ih
  | _ => rfl

/-- What has no type has one of the forms. -/
theorem isUndefinedForm_of_eval (h : e.eval env = .ok .undefined) :
    e.ungrouped.IsUndefinedForm env := by
  induction e with
  | binary extent op left right =>
    obtain ⟨p, q, hp, hq, h⟩ := eval_binary_eq_ok.mp h
    rcases Quantity.combine_cases h with ⟨r, hr⟩ | ⟨-, ⟨hop, hfactor⟩ | ⟨hop, hpk, hqk⟩⟩
    · cases hr
    · exact .factor hop hp hq hfactor
    · exact .resistances hop hp hq hpk hqk
  | power extent base exponent =>
    obtain ⟨q, hq, h⟩ := eval_power_eq_ok.mp h
    rcases Quantity.power_cases h with ⟨r, hr⟩ | ⟨-, hkind, hexponent⟩
    · cases hr
    · exact .power hq (Kind.squared_ne_none.mp hkind) (Binary64.same_two.mp hexponent)
  | atTemperature extent base degrees =>
    obtain ⟨-, r, -, -, hr⟩ := eval_atTemperature_eq_ok.mp h
    cases hr
  | group extent inner ih => exact ih h
  | var extent name =>
    obtain ⟨q, -, hq⟩ := eval_var_eq_ok.mp h
    cases hq
  | literal extent l =>
    obtain ⟨q, -, hq⟩ := eval_literal_eq_ok.mp h
    cases hq

/-- What has one of the forms has no type. -/
theorem IsUndefinedForm.eval (h : e.IsUndefinedForm env) : e.eval env = .ok .undefined := by
  cases h with
  | factor hop hp hq hfactor =>
    exact eval_binary_eq_ok.mpr ⟨_, _, hp, hq, Quantity.combine_undefined (.inl ⟨hop, hfactor⟩)⟩
  | resistances hop hp hq hpk hqk =>
    exact eval_binary_eq_ok.mpr
      ⟨_, _, hp, hq, Quantity.combine_undefined (.inr ⟨hop, hpk, hqk⟩)⟩
  | power hq hkind hexponent =>
    exact eval_power_eq_ok.mpr ⟨_, hq, Quantity.power_undefined (Kind.squared_ne_none.mpr hkind)
      (Binary64.same_two.mpr hexponent)⟩

/-- **Untyped results are those that the language documents, and no others.** An expression never comes to
bounds of no kind. It comes to nothing that has a type exactly if it is, within its parentheses, a sum or
a difference of quantities that starts with a factor, a difference of two resistances, or a power of a
voltage or a current whose exponent is not two.

An operation whose left operand comes to such a result fails at that operand, and so does one whose left
operand is a quantity and whose right operand comes to such a result; the error names the operator. No
error, of an expression or of an assignment, is ever about bounds of no kind. -/
theorem untyped_iff_undefined_form (env : Environment Binary64) (e : Expr Binary64) :
    (∀ i, e.eval env ≠ .ok (.bounds i))
    ∧ (e.eval env = .ok .undefined ↔ e.ungrouped.IsUndefinedForm env)
    ∧ (∀ op left right, e.operation? = some (op, left, right) →
      (left.eval env = .ok .undefined →
        e.eval env = .error ⟨.untypedOperand op .undefined, left.span⟩)
      ∧ ∀ q second, left.eval env = .ok (.quantity q) → right = some second →
        second.eval env = .ok .undefined →
        e.eval env = .error ⟨.untypedOperand op .undefined, second.span⟩)
    ∧ (∀ err, e.eval env = .error err → ¬err.fault.BlamesBounds)
    ∧ ∀ name err, e.evalFor env name = .error err → ¬err.fault.BlamesBounds := by
  refine ⟨fun i h => ?_, ⟨isUndefinedForm_of_eval, fun h => ?_⟩, ?_, ?_, ?_⟩
  · rcases eval_cases h with ⟨q, hq⟩ | hundefined
    · cases hq
    · cases hundefined
  · rw [← eval_ungrouped]
    exact h.eval
  · exact fun op left right hop => eval_operation_undefined hop
  · exact fun err h => not_blamesBounds_eval h
  · exact fun name err h => not_blamesBounds_evalFor h

end Expr

/-! ### A factor that comes first

The variable `g` is a factor and `u` a voltage. Their kinds do not agree, and yet `g + u` is no error by
itself. As an operand it is one, as in `u * (g + u)`. -/

/-- The extent of what stands between two columns of the first line, without blanks behind it. -/
def Extent.columns (first last : Nat) : Extent :=
  ⟨⟨⟨first, 1, first + 1⟩, ⟨last, 1, last + 1⟩⟩, ⟨⟨last, 1, last + 1⟩, ⟨last, 1, last + 1⟩⟩⟩

namespace Expr

/-- A gain, and the voltage it is for. -/
def gain : Environment Binary64 :=
  ⟨[("g", .plain .factor ⟨.ofRat 5, some 0, ⟨.ofRat 5, .ofRat 5⟩⟩ Kind.factor_ne_resistance),
    ("u", .plain .voltage ⟨.ofRat 12, some 0, ⟨.ofRat 12, .ofRat 12⟩⟩ Kind.voltage_ne_resistance)],
    by decide⟩

/-- `(g + u)`, from the fifth column on. -/
def offsetGain : Expr Binary64 :=
  .group (.columns 4 11) (.binary (.columns 5 10) ⟨.add, .columns 7 8⟩
    (.var (.columns 5 6) "g") (.var (.columns 9 10) "u"))

/-- `u * (g + u)`. -/
def offsetProduct : Expr Binary64 :=
  .binary (.columns 0 11) ⟨.mul, .columns 2 3⟩ (.var (.columns 0 1) "u") offsetGain

theorem untyped_iff_undefined_form_gain :
    offsetGain.ungrouped.IsUndefinedForm gain
    ∧ offsetProduct.eval gain
      = .error ⟨.untypedOperand (.binary .mul) .undefined, (Extent.columns 4 11).span⟩
    ∧ ¬offsetProduct.ungrouped.IsUndefinedForm gain
    ∧ ∀ err, offsetProduct.evalFor gain "y" = .error err → ¬err.fault.BlamesBounds := by
  have hu : (Expr.var (.columns 0 1) "u").eval gain = .ok (.quantity (.plain .voltage
      ⟨.ofRat 12, some 0, ⟨.ofRat 12, .ofRat 12⟩⟩ Kind.voltage_ne_resistance)) := by decide +kernel
  have hsum : offsetGain.eval gain = .ok .undefined := by decide +kernel
  obtain ⟨-, hform, -⟩ := untyped_iff_undefined_form gain offsetGain
  obtain ⟨-, hproduct, hoperation, -, hassigned⟩ := untyped_iff_undefined_form gain offsetProduct
  have herror := (hoperation _ _ _ rfl).2 _ _ hu rfl hsum
  refine ⟨hform.mp hsum, herror, fun h => ?_, fun err => hassigned "y" err⟩
  have hok := hproduct.mpr h
  rw [herror] at hok
  cases hok

end Expr

end WorstCase
