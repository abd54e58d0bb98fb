import WorstCase.Proofs.Quantity.Coherence

/-!
# The worst case is a worst case

What the calculator is for: components are bought with a tolerance, and the
circuit built from them must stay within the computed bounds whatever the
components turn out to be. A **choice** says what they turn out to be. It gives
every variable one value, however often the variable occurs, and every literal
a value of its own, since two literals are two components. `Expr.actual` is
what the expression comes to on the chosen numbers, computed as on paper.

`Expr.actual_mem_bounds` says that this lies within the bounds of the outcome,
provided that all quantities on the way are positive. The rules are read over
the rationals here, where nothing is rounded.
-/

namespace WorstCase

/-- The operand of a binary operator that a path goes into. -/
inductive Branch where
  | left
  | right
  deriving DecidableEq, Repr

/-- **What the components turn out to be.** -/
structure Choice where
  /-- The value of every variable. -/
  named : String → Rat
  /-- The value of every literal, by the path that leads to it. -/
  literal : List Branch → Rat

/-- The choice as it is seen from an operand. -/
def Choice.under (c : Choice) (branch : Branch) : Choice :=
  { c with literal := fun path => c.literal (branch :: path) }

namespace Expr

/-- An expression and all expressions in it. -/
def subexpressions {S : Type} : Expr S → List (Expr S)
  | .binary extent op left right =>
    .binary extent op left right :: (left.subexpressions ++ right.subexpressions)
  | .power extent base exponent =>
    .power extent base exponent :: base.subexpressions
  | .atTemperature extent base degrees =>
    .atTemperature extent base degrees :: base.subexpressions
  | .group extent inner => .group extent inner :: inner.subexpressions
  | .var extent name => [.var extent name]
  | .literal extent l => [.literal extent l]

/-- Every expression is one of its own. -/
theorem mem_subexpressions_self {S : Type} (e : Expr S) :
    e ∈ e.subexpressions := by
  cases e <;> exact List.mem_cons_self

/-- The mean of an expression's value, if it has a quantity for one. -/
def meanIn (env : Environment Rat) (e : Expr Rat) : Rat :=
  match e.eval env with
  | .ok (.quantity q) => q.measure.mean
  | _ => 0

/-- **What an expression comes to on the chosen numbers.** Operators are those
of arithmetic, a power is a square, and a change of temperature multiplies by
the ratio of the mean after it to the mean before. -/
def actual (env : Environment Rat) : Choice → Expr Rat → Rat
  | c, .binary _ op left right =>
    op.value.apply (left.actual env (c.under .left)) (right.actual env (c.under .right))
  | c, .power _ base _ => base.actual env c * base.actual env c
  | c, .atTemperature extent base degrees =>
    base.actual env c
      * ((atTemperature extent base degrees).meanIn env / base.meanIn env)
  | c, .group _ inner => inner.actual env c
  | c, .var _ name => c.named name
  | c, .literal _ _ => c.literal []

/-- **A choice within the tolerances**: every variable and every literal that
occurs has a value within its bounds. -/
def Admits (env : Environment Rat) : Choice → Expr Rat → Prop
  | c, .binary _ _ left right =>
    left.Admits env (c.under .left) ∧ right.Admits env (c.under .right)
  | c, .power _ base _ => base.Admits env c
  | c, .atTemperature _ base _ => base.Admits env c
  | c, .group _ inner => inner.Admits env c
  | c, .var _ name => ∀ q, env.get? name = some q → c.named name ∈ q.bounds
  | c, .literal extent l => ∀ q, l.eval extent.span = .ok q → c.literal [] ∈ q.bounds

/-- **Every expression in it has a positive quantity for its value.** -/
def PositiveIn (env : Environment Rat) (e : Expr Rat) : Prop :=
  ∀ s ∈ e.subexpressions,
    ∃ q, s.eval env = .ok (.quantity q) ∧ 0 < q.bounds.lower

section Positive

variable {env : Environment Rat} {extent : Extent} {e a b : Expr Rat}

/-- The value of a positive expression is positive. -/
theorem PositiveIn.lower_pos {q : Quantity Rat} (h : e.PositiveIn env)
    (hq : e.eval env = .ok (.quantity q)) : 0 < q.bounds.lower := by
  obtain ⟨p, hp, hpos⟩ := h e e.mem_subexpressions_self
  rw [hp] at hq
  cases hq
  exact hpos

theorem PositiveIn.left {op : Node BinaryOperator}
    (h : (binary extent op a b).PositiveIn env) : a.PositiveIn env :=
  fun s hs => h s (List.mem_cons_of_mem _ (List.mem_append_left _ hs))

theorem PositiveIn.right {op : Node BinaryOperator}
    (h : (binary extent op a b).PositiveIn env) : b.PositiveIn env :=
  fun s hs => h s (List.mem_cons_of_mem _ (List.mem_append_right _ hs))

theorem PositiveIn.base {exponent : Node Rat}
    (h : (power extent e exponent).PositiveIn env) : e.PositiveIn env :=
  fun s hs => h s (List.mem_cons_of_mem _ hs)

theorem PositiveIn.unshifted {degrees : Node Rat}
    (h : (atTemperature extent e degrees).PositiveIn env) : e.PositiveIn env :=
  fun s hs => h s (List.mem_cons_of_mem _ hs)

theorem PositiveIn.inner (h : (group extent e).PositiveIn env) :
    e.PositiveIn env :=
  fun s hs => h s (List.mem_cons_of_mem _ hs)

end Positive

/-- The mean of an expression whose value is known. -/
theorem meanIn_eq {env : Environment Rat} {e : Expr Rat} {q : Quantity Rat}
    (h : e.eval env = .ok (.quantity q)) : e.meanIn env = q.measure.mean := by
  unfold meanIn
  rw [h]

/-- **The worst case is a worst case.** In an environment of quantities that
were made, whatever an expression comes to on numbers within the tolerances
lies within the bounds of its outcome, provided that the expression and all
expressions in it have positive quantities for their values. -/
theorem actual_mem_bounds {env : MadeEnvironment Rat} {e : Expr Rat}
    (hpos : e.PositiveIn env.quantities) {c : Choice}
    (hc : e.Admits env.quantities c) {q : Quantity Rat}
    (hq : e.eval env.quantities = .ok (.quantity q)) :
    e.actual env.quantities c ∈ q.bounds := by
  induction e generalizing c q with
  | binary extent op left right ihl ihr =>
    obtain ⟨p, r, hp, hr, h⟩ := eval_binary_eq_ok.mp hq
    obtain ⟨i, hi, hrec⟩ := Quantity.recoveredFrom_combine h
    rw [hrec.bounds_eq]
    exact BinaryOperator.mem_pairing (hpos.left.lower_pos hp)
      (hpos.right.lower_pos hr) (ihl hpos.left hc.1 hp) (ihr hpos.right hc.2 hr) hi
  | power extent base exponent ih =>
    obtain ⟨p, hp, h⟩ := eval_power_eq_ok.mp hq
    rw [(Quantity.recoveredFrom_power h).bounds_eq]
    exact Interval.mem_squareBounds (hpos.base.lower_pos hp) (ih hpos.base hc hp)
  | atTemperature extent base degrees ih =>
    obtain ⟨p, r, hp, hr, h⟩ := eval_atTemperature_eq_ok.mp hq
    cases h
    obtain ⟨s, t, rfl, rfl, hmean, hm⟩ := Quantity.atTemperature_eq_ok hr
    have hs : (Quantity.resistance s).Coherent := (env.eval hp).coherent
    unfold actual
    rw [meanIn_eq hq, meanIn_eq hp]
    exact Measure.mem_rescaledTo hs.measure (hs.positive s rfl) hmean hm
      (ih hpos.unshifted hc hp)
  | group extent inner ih => exact ih hpos.inner hc hq
  | var extent name =>
    obtain ⟨p, hp, h⟩ := eval_var_eq_ok.mp hq
    cases h
    exact hc q hp
  | literal extent l =>
    obtain ⟨p, hp, h⟩ := eval_literal_eq_ok.mp hq
    cases h
    exact hc q hp

/-! ### A network of two resistors

A resistance `r` of 100 Ω ± 10 % that gains 5000 millionths per °C is taken to
60 °C and put in parallel with 300 Ω ± 10 %. -/

/-- The resistance that `r` stands for. -/
def drifting : Resistance Rat :=
  ⟨⟨100, some (1 / 10), ⟨90, 110⟩⟩, some 5000, 100, .celsius 20⟩

theorem drifting_made :
    Resistance.ofTolerance (100 : Rat) (1 / 10) (some 5000) = .ok drifting := by
  decide +kernel

/-- The environment in which `r` is that resistance. -/
def bench : MadeEnvironment Rat :=
  MadeEnvironment.empty.assign "r" ⟨.resistance drifting, .resistanceOfTolerance drifting_made⟩

/-- The network, `(r @ 60) | 300 10%`, with all nodes at the start. -/
def network : Expr Rat :=
  let extent : Extent := ⟨⟨.start, .start⟩, ⟨.start, .start⟩⟩
  .binary extent ⟨.parallel, extent⟩
    (.group extent (.atTemperature extent (.var extent "r") ⟨60, extent⟩))
    (.literal extent ⟨300, none, some ⟨10, extent⟩, none⟩)

/-- What the two resistors turn out to be: 95 Ω at 20 °C, and 310 Ω. -/
def resistors : Choice := ⟨fun _ => 95, fun _ => 310⟩

/-- The resistance of the network. -/
def networkResistance : Resistance Rat :=
  ⟨⟨600 / 7, some (1 / 10), ⟨540 / 7, 660 / 7⟩⟩, none, 600 / 7, .mixed⟩

/-- Everything in the network is a positive resistance. -/
theorem network_positive : network.PositiveIn bench.quantities := by
  intro s hs
  simp only [network, subexpressions, List.cons_append, List.nil_append,
    List.mem_cons, List.not_mem_nil, or_false] at hs
  rcases hs with rfl | rfl | rfl | rfl | rfl
  · exact ⟨.resistance networkResistance, by decide +kernel, by decide +kernel⟩
  · exact ⟨.resistance ⟨⟨120, some (1 / 10), ⟨108, 132⟩⟩, some 5000, 100, .celsius 60⟩,
      by decide +kernel, by decide +kernel⟩
  · exact ⟨.resistance ⟨⟨120, some (1 / 10), ⟨108, 132⟩⟩, some 5000, 100, .celsius 60⟩,
      by decide +kernel, by decide +kernel⟩
  · exact ⟨.resistance drifting, by decide +kernel, by decide +kernel⟩
  · exact ⟨.resistance ⟨⟨300, some (1 / 10), ⟨270, 330⟩⟩, none, 300, .celsius 20⟩,
      by decide +kernel, by decide +kernel⟩

/-- The two resistors are within their tolerances. -/
theorem network_admits : network.Admits bench.quantities resistors := by
  refine ⟨fun q hq => ?_, fun q hq => ?_⟩
  · have hr : bench.quantities.get? "r" = some (.resistance drifting) := by decide +kernel
    rw [hr] at hq
    cases hq
    exact ⟨by decide +kernel, by decide +kernel⟩
  · have hl : Literal.eval (⟨300, none, some ⟨10, ⟨⟨.start, .start⟩, ⟨.start, .start⟩⟩⟩,
        none⟩ : Literal Rat) ⟨.start, .start⟩
        = .ok (.resistance ⟨⟨300, some (1 / 10), ⟨270, 330⟩⟩, none, 300, .celsius 20⟩) := by
      decide +kernel
    rw [show Extent.span _ = (⟨.start, .start⟩ : Span) from rfl, hl] at hq
    cases hq
    exact ⟨by decide +kernel, by decide +kernel⟩

/-- The network comes to 114 Ω in parallel with 310 Ω, which is within its
bounds of 540 / 7 and 660 / 7 Ω. -/
theorem actual_mem_bounds_network :
    network.PositiveIn bench.quantities
      ∧ network.Admits bench.quantities resistors
      ∧ network.eval bench.quantities = .ok (.quantity (.resistance networkResistance))
      ∧ network.actual bench.quantities resistors ∈ networkResistance.measure.bounds := by
  have hq : network.eval bench.quantities = .ok (.quantity (.resistance networkResistance)) := by
    decide +kernel
  exact ⟨network_positive, network_admits, hq,
    actual_mem_bounds network_positive network_admits hq⟩

end Expr

end WorstCase
