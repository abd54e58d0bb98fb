import Mathlib.Control.Monad.Basic
import WorstCase.Proofs.Evaluation.Results
import WorstCase.Scalar.Rounded

/-!
# A name for an intermediate result

A result may be given a name and the name be used in its place, or be written
out wherever it is needed. Neither way of writing a calculation changes what it
comes to. An environment keeps a quantity with everything that later operations
read of it, also what is not shown, such as the value of a resistance at 20 °C;
and where an operator asks for a quantity it does not ask how its operand came
to be one. So the variable and the expression behind it have the same result
(`Expr.result_substitute`), and what is computed from them is the same.

Written out, an expression stands elsewhere, and its definitions may need
parentheses. That is layout, and does not matter either
(`Expr.result_eq_of_bare_eq`).
-/

namespace WorstCase.Expr

variable {S : Type} [Scalar S]

omit [Scalar S] in
/-- **The expression with a variable written out**: in every place where the
variable occurs stands its definition. -/
def substitute : Expr S → String → Expr S → Expr S
  | .binary extent op left right, name, definition =>
    .binary extent op (left.substitute name definition) (right.substitute name definition)
  | .power extent base exponent, name, definition =>
    .power extent (base.substitute name definition) exponent
  | .atTemperature extent base degrees, name, definition =>
    .atTemperature extent (base.substitute name definition) degrees
  | .group extent inner, name, definition => .group extent (inner.substitute name definition)
  | .var extent other, name, definition =>
    if other = name then definition else .var extent other
  | .literal extent l, _, _ => .literal extent l

/-- **A variable written out is the variable**, in the environment where it has
the quantity that its definition comes to. By induction on the expression. -/
theorem result_substitute {env : Environment S} {name : String} {definition : Expr S}
    {q : Quantity S} (hq : definition.eval env = .ok (.quantity q)) (e : Expr S) :
    (e.substitute name definition).result env = e.result (env.assign name q) := by
  induction e with
  | binary extent op left right ihl ihr =>
    rw [substitute, result_binary, result_binary, ihl, ihr]
  | power extent base exponent ih => rw [substitute, result_power, result_power, ih]
  | atTemperature extent base degrees ih =>
    rw [substitute, result_atTemperature, result_atTemperature, ih]
  | group extent inner ih => rw [substitute, result_group, result_group, ih]
  | var extent other =>
    rw [substitute, result_var, Ledger.get?_assign]
    by_cases same : other = name
    · rw [if_pos same, if_pos same, result, hq]
      rfl
    · rw [if_neg same, if_neg same, result_var]
  | literal extent l => rw [substitute, result_literal, result_literal]

/-- **Naming an intermediate result changes nothing.** An expression in which a
variable is written out, with parentheses or without and wherever it then
stands, comes to what it comes to with the variable, in the environment where
the variable has the quantity of its definition: to the same outcome, or to the
same fault. And parentheses around any parts of an expression change nothing. -/
theorem result_named (env : Environment S) (e : Expr S) :
    (∀ (name : String) (definition : Expr S) (q : Quantity S) (written : Expr S),
      definition.eval env = .ok (.quantity q) →
      written.bare = (e.substitute name definition).bare →
      written.result env = e.result (env.assign name q))
    ∧ ∀ grouped : Expr S, grouped.bare = e.bare → grouped.result env = e.result env := by
  constructor
  · intro name definition q written hq hwritten
    rw [result_eq_of_bare_eq hwritten, result_substitute hq]
  · intro grouped hgrouped
    exact result_eq_of_bare_eq hgrouped env

/-! ### A resistance that is taken to another temperature twice

The variable `r` stands for 100 Ω ± 10 % at 20 °C, which gain 5000 millionths per °C. It is to be
given the value of `r @ 60`, which is then taken to 85 °C and put in parallel with what it was
before: `(r @ 85) | r`. -/

/-- The environment in which `r` is that resistance. -/
def oven : Environment Binary64 :=
  let upper := Binary64.ofRat 100 * (1 + Binary64.ofRat (1 / 10))
  ⟨[("r", .resistance ⟨⟨.ofRat 100, some (.ofRat (1 / 10)), ⟨.ofRat 90, upper⟩⟩,
    some 5000, .ofRat 100, .celsius (.ofRat 20)⟩)], by decide⟩

/-- What `r @ 60` comes to. -/
def warm : Quantity Binary64 :=
  .resistance ⟨⟨.ofRat 120, some (.ofRat (1 / 10)), ⟨.ofRat 108, .ofRat 132⟩⟩,
    some 5000, .ofRat 100, .celsius (.ofRat 60)⟩

/-- The variable at a temperature, `r @ degrees`. -/
def heated (degrees : Rat) : Expr Binary64 :=
  .atTemperature .nowhere (.var .nowhere "r") ⟨.ofRat degrees, .nowhere⟩

/-- The network `(r @ 85) | r`. -/
def ovenNetwork : Expr Binary64 :=
  .binary .nowhere ⟨.parallel, .nowhere⟩ (.group .nowhere (heated 85)) (.var .nowhere "r")

/-- The network with `r @ 60` written out, `((r @ 60) @ 85) | r @ 60`, a column to the right. -/
def ovenNetworkWritten : Expr Binary64 :=
  let next : Extent := ⟨⟨⟨1, 1, 2⟩, ⟨1, 1, 2⟩⟩, ⟨⟨1, 1, 2⟩, ⟨1, 1, 2⟩⟩⟩
  .binary next ⟨.parallel, next⟩
    (.group next (.atTemperature next (.group next (heated 60)) ⟨.ofRat 85, next⟩)) (heated 60)

theorem result_named_oven :
    (heated 60).eval oven = .ok (.quantity warm)
      ∧ ovenNetworkWritten.bare = (ovenNetwork.substitute "r" (heated 60)).bare
      ∧ ovenNetworkWritten.result oven = ovenNetwork.result (oven.assign "r" warm)
      ∧ (ovenNetworkWritten.result oven).isOk
      ∧ (group .nowhere ovenNetwork).bare = ovenNetwork.bare
      ∧ (group .nowhere ovenNetwork).result oven = ovenNetwork.result oven := by
  have hwarm : (heated 60).eval oven = .ok (.quantity warm) := by decide +kernel
  have hwritten : ovenNetworkWritten.bare = (ovenNetwork.substitute "r" (heated 60)).bare := by
    decide +kernel
  exact ⟨hwarm, hwritten, (result_named oven ovenNetwork).1 _ _ _ _ hwarm hwritten,
    by decide +kernel, rfl, (result_named oven ovenNetwork).2 _ rfl⟩

end WorstCase.Expr
