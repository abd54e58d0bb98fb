import WorstCase.Evaluation
import WorstCase.Proofs.Except
import WorstCase.Proofs.Formula.Extents

/-!
# Where an expression fails

An expression that has no value fails at a node of its own: the span of the
error is the span of one of its extents (`Expr.eval_met`). Which node it is
depends on the fault, and does not matter for where the error can be shown.
-/

namespace WorstCase

variable {S : Type} [Scalar S]

omit [Scalar S] in
/-- **A fault met at one of the given extents.** -/
def EvalError.MetAmong (extents : List Extent) (err : EvalError S) : Prop :=
  ∃ x ∈ extents, err.span = x.span

omit [Scalar S] in
theorem EvalError.MetAmong.mono {some all : List Extent} {err : EvalError S}
    (h : err.MetAmong some) (hsub : ∀ x ∈ some, x ∈ all) : err.MetAmong all := by
  obtain ⟨x, hx, hspan⟩ := h
  exact ⟨x, hsub x hx, hspan⟩

omit [Scalar S] in
/-- An error of the algebra is met where it is said to be. -/
theorem metAt_eq_error {α : Type} {span : Span} {x : Except (QuantityError S) α}
    {err : EvalError S} (h : metAt span x = .error err) : err.span = span := by
  cases x with
  | error e => cases h; rfl
  | ok a => cases h

omit [Scalar S] in
/-- An outcome that is no operand is one where it is said to be. -/
theorem asOperand_eq_error {op : Operator} {span : Span} {o : Outcome S}
    {err : EvalError S} (h : asOperand op span o = .error err) : err.span = span := by
  cases o with
  | quantity q => cases h
  | bounds i => cases h; rfl
  | undefined => cases h; rfl

/-- A literal fails as a whole, or at its unit. -/
theorem Literal.eval_met {l : Literal S} {span : Span} {err : EvalError S}
    (h : l.eval span = .error err) : err.span = span ∨ err.MetAmong l.extents := by
  unfold Literal.eval at h
  dsimp only at h
  split at h
  · exact .inl (metAt_eq_error h)
  · rename_i unit hunit
    split at h
    · exact .inl (metAt_eq_error h)
    · split at h
      · cases h
        refine .inr ⟨unit.extent, ?_, rfl⟩
        rw [Literal.extents, hunit]
        exact List.mem_cons_self
      · exact .inl (metAt_eq_error h)

namespace Expr

variable {env : Environment S} {e : Expr S} {err : EvalError S} {extents : List Extent}

/-- An operand fails in itself, or is none; or what it is an operand of fails. -/
theorem bind_asOperand_met {α : Type} {op : Operator}
    {f : Quantity S → Except (EvalError S) α}
    (h : (do f (← asOperand op e.span (← e.eval env))) = .error err)
    (hsub : ∀ x ∈ e.extents, x ∈ extents)
    (he : e.eval env = .error err → err.MetAmong e.extents)
    (hf : ∀ q, f q = .error err → err.MetAmong extents) : err.MetAmong extents := by
  rcases Except.bind_eq_error.mp h with h | ⟨o, -, h⟩
  · exact (he h).mono hsub
  · rcases Except.bind_eq_error.mp h with h | ⟨q, -, h⟩
    · exact ⟨e.extent, hsub _ e.extent_mem_extents, asOperand_eq_error h⟩
    · exact hf q h

/-- **An expression fails at one of its nodes.** -/
theorem eval_met (h : e.eval env = .error err) : err.MetAmong e.extents := by
  induction e with
  | binary extent op left right ihl ihr =>
    have hleft : ∀ x ∈ left.extents, x ∈ (Expr.binary extent op left right).extents :=
      fun x hx => List.mem_cons_of_mem _ (List.mem_cons_of_mem _ (List.mem_append_left _ hx))
    have hright : ∀ x ∈ right.extents, x ∈ (Expr.binary extent op left right).extents :=
      fun x hx => List.mem_cons_of_mem _ (List.mem_cons_of_mem _ (List.mem_append_right _ hx))
    refine bind_asOperand_met h hleft ihl ?_
    intro p h
    refine bind_asOperand_met h hright ihr ?_
    intro q h
    exact ⟨extent, List.mem_cons_self, metAt_eq_error h⟩
  | power extent base exponent ih =>
    have hbase : ∀ x ∈ base.extents, x ∈ (Expr.power extent base exponent).extents :=
      fun x hx => List.mem_cons_of_mem _ (List.mem_cons_of_mem _ hx)
    refine bind_asOperand_met h hbase ih ?_
    intro q h
    exact ⟨extent, List.mem_cons_self, metAt_eq_error h⟩
  | atTemperature extent base degrees ih =>
    have hbase : ∀ x ∈ base.extents, x ∈ (Expr.atTemperature extent base degrees).extents :=
      fun x hx => List.mem_cons_of_mem _ (List.mem_cons_of_mem _ hx)
    refine bind_asOperand_met h hbase ih ?_
    intro q h
    exact ⟨extent, List.mem_cons_self, metAt_eq_error h⟩
  | group extent inner ih =>
    exact (ih h).mono fun x hx => List.mem_cons_of_mem _ hx
  | var extent name =>
    rw [Expr.eval] at h
    split at h
    · cases h
    · cases h
      exact ⟨extent, List.mem_cons_self, rfl⟩
  | literal extent l =>
    rcases Literal.eval_met (Except.map_eq_error.mp h) with hspan | hmet
    · exact ⟨extent, List.mem_cons_self, hspan⟩
    · exact hmet.mono fun x hx => List.mem_cons_of_mem _ hx

/-- A value that cannot be assigned fails at one of the nodes too. -/
theorem evalFor_met {name : String} (h : e.evalFor env name = .error err) :
    err.MetAmong e.extents := by
  unfold evalFor at h
  rcases Except.bind_eq_error.mp h with h | ⟨o, -, h⟩
  · exact eval_met h
  · split at h
    · cases h
    · cases h
      exact ⟨e.extent, e.extent_mem_extents, rfl⟩

end Expr

end WorstCase
