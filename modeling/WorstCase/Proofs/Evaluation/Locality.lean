import WorstCase.Evaluation

/-!
# What a value depends on

An expression reads the environment where it names a variable, and nowhere else (`Expr.eval_congr`). So
its outcome, value or error, is the same in two environments that agree on the names that occur in it,
whatever else is in them and in whatever order.
-/

namespace WorstCase.Expr

variable {S : Type} [Scalar S] {env other : Environment S} {e : Expr S}

/-- **An outcome depends on the variables that occur**, and on nothing else in the environment. -/
theorem eval_congr (h : ∀ name ∈ e.names, other.get? name = env.get? name) :
    e.eval other = e.eval env := by
  induction e with
  | binary extent op left right ihl ihr =>
    have hleft := ihl fun name hname => h name (List.mem_append_left _ hname)
    have hright := ihr fun name hname => h name (List.mem_append_right _ hname)
    rw [eval, eval, hleft, hright]
  | power extent base exponent ih => rw [eval, eval, ih h]
  | atTemperature extent base degrees ih => rw [eval, eval, ih h]
  | group extent inner ih => rw [eval, eval, ih h]
  | var extent name => rw [eval, eval, h name List.mem_cons_self]
  | literal extent l => rfl

end WorstCase.Expr
