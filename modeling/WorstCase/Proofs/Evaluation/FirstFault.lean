import WorstCase.Proofs.Evaluation.Untyped
import WorstCase.Proofs.Formula.Extents

/-!
# Evaluation stops at the first fault

An expression may have many faults, and evaluation reports one of them. Which one is decided by the order
of evaluation, and this order can be read off the tree without evaluating anything: it is a list of
**moments** (`Expr.moments`). Operands come before the operation they are operands of, the left one before
the right one; and between the two there is a moment of its own, at which the left operand has to have a
type.

Each moment passes or does not, whatever happens at the others. Evaluation succeeds if all of them pass,
and else fails at the first that does not, with the error that its node fails with when it is evaluated
by itself (`Expr.eval_traced`). Where the error is shown depends on the moment (`Moment.Blames`): the
operand that has no type, or else the node, and of a literal with a coefficient it cannot have the unit.

The induction is on the expression. An operand adds its own moments and the one that asks for its type,
and that is the same for all operations (`Traced.operand`).
-/

namespace WorstCase

variable {S : Type}

/-- **What evaluation comes across** in a tree. -/
inductive Moment (S : Type) where
  /-- The operand of an operation has to be a quantity. -/
  | typed (node : Expr S) (op : Operator) (operand : Expr S)
  /-- A node has to have a value. -/
  | value (node : Expr S)

/-- **The moments of an evaluation**, in order. -/
def Expr.moments : Expr S → List (Moment S)
  | .binary extent op left right =>
    left.moments ++ .typed (.binary extent op left right) op.value left
      :: (right.moments ++ .typed (.binary extent op left right) op.value right
      :: [.value (.binary extent op left right)])
  | .power extent base exponent =>
    base.moments ++ .typed (.power extent base exponent) .power base
      :: [.value (.power extent base exponent)]
  | .atTemperature extent base degrees =>
    base.moments ++ .typed (.atTemperature extent base degrees) .atTemperature base
      :: [.value (.atTemperature extent base degrees)]
  | .group extent inner => inner.moments ++ [.value (.group extent inner)]
  | .var extent name => [.value (.var extent name)]
  | .literal extent l => [.value (.literal extent l)]

namespace Moment

/-- The node that fails if the moment does not pass. -/
def node : Moment S → Expr S
  | .typed node _ _ => node
  | .value node => node

/-- **Whether evaluation goes on**: the operand is a quantity, or the node has a value. -/
def Passes [Scalar S] (env : Environment S) : Moment S → Prop
  | .typed _ _ operand => ∃ q, operand.eval env = .ok (.quantity q)
  | .value node => ∃ o, node.eval env = .ok o

/-- **What an error at a moment is about, and where it is shown.** -/
inductive Blames : Moment S → EvalError S → Prop where
  /-- An operand without a type is shown itself. -/
  | operand (node : Expr S) (op : Operator) (operand : Expr S) :
    Blames (.typed node op operand) ⟨.untypedOperand op .undefined, operand.span⟩
  /-- A name that stands for nothing is shown where it is. -/
  | variable (extent : Extent) (name : String) :
    Blames (.value (.var extent name)) ⟨.unknownVariable name, extent.span⟩
  /-- A literal that cannot have its coefficient is shown by its unit. -/
  | unit {extent : Extent} {l : Literal S} {unit : Node UnitSymbol} : l.unit = some unit →
    l.coefficient.isSome → unit.value.kind ≠ .resistance →
    Blames (.value (.literal extent l)) ⟨.coefficientWithoutResistance unit.value, unit.extent.span⟩
  /-- What the algebra refuses is shown as a whole. -/
  | algebra (node : Expr S) (error : QuantityError S) :
    Blames (.value node) ⟨.quantity error, node.span⟩

end Moment

variable [Scalar S] {env : Environment S}

/-- **The first moment that does not pass**, and the error of its node. -/
structure StopsAt (env : Environment S) (moments : List (Moment S)) (m : Moment S)
    (err : EvalError S) : Prop where
  /-- All moments before it pass. -/
  first : ∃ before after, moments = before ++ m :: after ∧ ∀ earlier ∈ before, earlier.Passes env
  /-- It does not. -/
  stuck : ¬m.Passes env
  /-- Its node fails by itself, and with this error. -/
  alone : m.node.eval env = .error err
  /-- The error is what the moment is about. -/
  blamed : m.Blames err

/-- **A computation that the moments account for**: it succeeds if all of them pass, and stops at the first
that does not. -/
def Traced {α : Type} (env : Environment S) (moments : List (Moment S)) :
    Except (EvalError S) α → Prop
  | .ok _ => ∀ m ∈ moments, m.Passes env
  | .error err => ∃ m, StopsAt env moments m err

namespace StopsAt

variable {moments more : List (Moment S)} {m : Moment S} {err : EvalError S}

/-- What comes later is not reached. -/
theorem append (h : StopsAt env moments m err) : StopsAt env (moments ++ more) m err := by
  obtain ⟨⟨before, after, rfl, hbefore⟩, hstuck, halone, hblamed⟩ := h
  refine ⟨⟨before, after ++ more, ?_, hbefore⟩, hstuck, halone, hblamed⟩
  rw [List.append_assoc, List.cons_append]

/-- What came earlier has passed. -/
theorem behind (h : StopsAt env more m err) (hmoments : ∀ earlier ∈ moments, earlier.Passes env) :
    StopsAt env (moments ++ more) m err := by
  obtain ⟨⟨before, after, rfl, hbefore⟩, hstuck, halone, hblamed⟩ := h
  refine ⟨⟨moments ++ before, after, (List.append_assoc ..).symm, ?_⟩, hstuck, halone, hblamed⟩
  intro earlier hearlier
  rcases List.mem_append.mp hearlier with hearlier | hearlier
  · exact hmoments earlier hearlier
  · exact hbefore earlier hearlier

theorem head (hstuck : ¬m.Passes env) (halone : m.node.eval env = .error err)
    (hblamed : m.Blames err) : StopsAt env (m :: more) m err :=
  ⟨⟨[], more, rfl, nofun⟩, hstuck, halone, hblamed⟩

end StopsAt

namespace Traced

variable {α : Type} {moments more : List (Moment S)} {m : Moment S} {x : Except (EvalError S) α}

/-- Moments that have passed stand before. -/
theorem behind (h : Traced env more x) (hmoments : ∀ earlier ∈ moments, earlier.Passes env) :
    Traced env (moments ++ more) x := by
  cases x with
  | error err =>
    obtain ⟨m, hm⟩ := h
    exact ⟨m, hm.behind hmoments⟩
  | ok a =>
    intro m hm
    rcases List.mem_append.mp hm with hm | hm
    · exact hmoments m hm
    · exact h m hm

/-- **The last moment of a node** is the one at which it has to have a value. -/
theorem value {node : Expr S} (hok : ∀ a, x = .ok a → ∃ o, node.eval env = .ok o)
    (herror : ∀ err, x = .error err →
      node.eval env = .error err ∧ (Moment.value node).Blames err) :
    Traced env [.value node] x := by
  cases x with
  | error err =>
    obtain ⟨halone, hblamed⟩ := herror err rfl
    refine ⟨.value node, .head ?_ halone hblamed⟩
    rintro ⟨o, ho⟩
    rw [halone] at ho
    cases ho
  | ok a =>
    intro m hm
    obtain rfl := List.mem_singleton.mp hm
    exact hok a rfl

/-- **An operand comes first**, and has to be a quantity before anything else is looked at. -/
theorem operand {node e : Expr S} {op : Operator} {f : Quantity S → Except (EvalError S) α}
    (he : Traced env e.moments (e.eval env))
    (hnode : ∀ err, (do f (← asOperand op e.span (← e.eval env))) = .error err →
      node.eval env = .error err)
    (hf : ∀ q, e.eval env = .ok (.quantity q) → Traced env more (f q)) :
    Traced env (e.moments ++ .typed node op e :: more)
      (do f (← asOperand op e.span (← e.eval env))) := by
  cases heval : e.eval env with
  | error err =>
    rw [heval] at he hnode
    obtain ⟨m, hm⟩ := he
    exact ⟨m, hm.append⟩
  | ok o =>
    rw [heval] at he hnode
    rcases Expr.eval_cases heval with ⟨q, rfl⟩ | rfl
    · have htyped : Moment.Passes env (.typed node op e) := ⟨q, heval⟩
      have hmore : Traced env ([.typed node op e] ++ more) (f q) :=
        (hf q heval).behind (List.forall_mem_singleton.mpr htyped)
      exact hmore.behind he
    · have herror := hnode ⟨.untypedOperand op .undefined, e.span⟩ rfl
      refine ⟨.typed node op e, .behind (.head ?_ herror (.operand node op e)) he⟩
      rintro ⟨q, hq⟩
      rw [heval] at hq
      cases hq

end Traced

/-! ## What each node blames -/

omit [Scalar S] in
/-- The algebra blames the node. -/
theorem Moment.Blames.metAt {α : Type} {node : Expr S} {x : Except (QuantityError S) α}
    {err : EvalError S} (h : metAt node.span x = .error err) : (Moment.value node).Blames err := by
  cases x with
  | error error => cases h; exact .algebra node error
  | ok a => cases h

/-- A literal is blamed as a whole, or its unit is. -/
theorem Moment.Blames.literal {extent : Extent} {l : Literal S} {err : EvalError S}
    (h : l.eval extent.span = .error err) : (Moment.value (.literal extent l)).Blames err := by
  unfold Literal.eval at h
  dsimp only at h
  split at h
  · exact .metAt h
  · rename_i unit hunit
    split at h
    · exact .metAt h
    · rename_i hkind
      split at h
      · rename_i hcoefficient
        cases h
        exact .unit hunit (Option.isSome_map ▸ hcoefficient) hkind
      · exact .metAt h

namespace Expr

/-- **Evaluation goes through the moments**, and stops at the first that does not pass. -/
theorem eval_traced (e : Expr S) : Traced env e.moments (e.eval env) := by
  induction e with
  | binary extent op left right ihl ihr =>
    refine .operand ihl (fun err h => h) fun p hp => ?_
    -- what the right operand fails with, the whole does, as the left one is a quantity
    have hwhole : ∀ err, (do
        let q ← asOperand (.binary op.value) right.span (← right.eval env)
        metAt extent.span (p.combine op.value q)) = .error err →
        (Expr.binary extent op left right).eval env = .error err :=
      fun err h => bind_asOperand_eq_error.mpr (.inr (.inr ⟨p, hp, h⟩))
    refine .operand ihr hwhole fun q hq => .value (fun o h => ?_) fun err h => ⟨?_, .metAt h⟩
    · exact ⟨o, eval_binary_eq_ok.mpr ⟨p, q, hp, hq, metAt_eq_ok.mp h⟩⟩
    · exact hwhole err (bind_asOperand_eq_error.mpr (.inr (.inr ⟨q, hq, h⟩)))
  | power extent base exponent ih =>
    refine .operand ih (fun err h => h) fun q hq => .value (fun o h => ?_) fun err h => ⟨?_, .metAt h⟩
    · exact ⟨o, eval_power_eq_ok.mpr ⟨q, hq, metAt_eq_ok.mp h⟩⟩
    · exact bind_asOperand_eq_error.mpr (.inr (.inr ⟨q, hq, h⟩))
  | atTemperature extent base degrees ih =>
    refine .operand ih (fun err h => h) fun q hq => .value (fun o h => ?_) fun err h => ⟨?_, .metAt h⟩
    · obtain ⟨r, hr, rfl⟩ := Except.map_eq_ok.mp (metAt_eq_ok.mp h)
      exact ⟨_, eval_atTemperature_eq_ok.mpr ⟨q, r, hq, hr, rfl⟩⟩
    · exact bind_asOperand_eq_error.mpr (.inr (.inr ⟨q, hq, h⟩))
  | group extent inner ih =>
    -- the parentheses fail where what is in them does, so their own moment is never the first
    show Traced env (inner.moments ++ [.value (.group extent inner)]) (inner.eval env)
    cases hinner : inner.eval env with
    | error err =>
      rw [hinner] at ih
      obtain ⟨m, hm⟩ := ih
      exact ⟨m, hm.append⟩
    | ok o =>
      rw [hinner] at ih
      refine Traced.behind (x := .ok o) ?_ ih
      exact List.forall_mem_singleton.mpr ⟨o, hinner⟩
  | var extent name =>
    refine .value (fun o h => ⟨o, h⟩) fun err h => ⟨h, ?_⟩
    rw [eval] at h
    split at h
    · cases h
    · cases h
      exact .variable extent name
  | literal extent l =>
    refine .value (fun o h => ⟨o, h⟩) fun err h => ⟨h, .literal (Except.map_eq_error.mp h)⟩

end Expr

/-! ## Expressions that were read -/

/-- **An expression that was read from a text**: as the whole of it, or as what a line assigns or asks
for. -/
inductive Expr.IsReadFrom (dialect : Dialect) (text : List Char) (e : Expr Binary64) : Prop where
  | formula : parseExpression dialect text = .ok e → IsReadFrom dialect text e
  | assigned {extent name} : parseStatement dialect text = .ok (.assign extent name e) →
    IsReadFrom dialect text e
  | wanted : parseStatement dialect text = .ok (.expression e) → IsReadFrom dialect text e

/-- The text has all its extents. -/
theorem Expr.IsReadFrom.placed {dialect : Dialect} {text : List Char} {e : Expr Binary64}
    (h : e.IsReadFrom dialect text) : ∀ x ∈ e.extents, x.PlacedIn text := by
  have hstatement {s : Statement Binary64} (h : parseStatement dialect text = .ok s) :
      ∀ x ∈ s.extents, x.PlacedIn text := by
    obtain ⟨lead, w, rfl, rfl⟩ := parseStatement_written h
    exact WrittenStatement.placed (List.prefix_rfl)
  cases h with
  | formula h =>
    obtain ⟨lead, w, rfl, rfl⟩ := parseExpression_written h
    exact Written.placed (List.prefix_rfl)
  | assigned h =>
    intro x hx
    exact hstatement h x (List.mem_cons_of_mem _ (List.mem_cons_of_mem _ hx))
  | wanted h => exact hstatement h

/-- An extent of a text is not empty. -/
theorem Extent.PlacedIn.isEmpty {text : List Char} {x : Extent} (h : x.PlacedIn text) :
    x.span.isEmpty = false := by
  obtain ⟨before, s, -, hbody, rfl⟩ := h
  have hsize : (s.extent (Position.start.after before)).span.size = byteSize s.body := by
    simp [Span.size, Stretch.extent]
  rw [Span.isEmpty, hsize, beq_eq_false_iff_ne]
  exact fun hzero => hbody (byteSize_eq_zero.mp hzero)

namespace Expr

/-- **Evaluation reports the first fault.** The moments of an evaluation are in the order of the text:
operands before their operation, the left one first, and before the right one is looked at the left one
has to have a type. An expression that has a value passes all of them. One that has none passes those
before a certain moment, and does not pass that one: its node fails by itself, with the same error.

The error is shown at the operand if that has no type, at the unit of a literal which cannot have a
coefficient, and at the node otherwise. This is always an extent of the expression, and never an empty
one if the expression was read from a text. -/
theorem eval_error_first (env : Environment Binary64) (e : Expr Binary64) :
    (∀ o, e.eval env = .ok o → ∀ m ∈ e.moments, m.Passes env)
    ∧ ∀ err, e.eval env = .error err →
      (∃ before m after, e.moments = before ++ m :: after
        ∧ (∀ earlier ∈ before, earlier.Passes env) ∧ ¬m.Passes env
        ∧ m.node.eval env = .error err ∧ m.Blames err)
      ∧ (∃ x ∈ e.extents, err.span = x.span)
      ∧ ∀ dialect text, e.IsReadFrom dialect text → err.span.isEmpty = false := by
  have htraced : Traced env e.moments (e.eval env) := eval_traced e
  refine ⟨fun o ho => ?_, fun err herr => ⟨?_, eval_met herr, fun dialect text hread => ?_⟩⟩
  · rw [ho] at htraced
    exact htraced
  · rw [herr] at htraced
    obtain ⟨m, ⟨before, after, hmoments, hbefore⟩, hstuck, halone, hblamed⟩ := htraced
    exact ⟨before, m, after, hmoments, hbefore, hstuck, halone, hblamed⟩
  · obtain ⟨x, hx, hspan⟩ := eval_met herr
    rw [hspan]
    exact (hread.placed x hx).isEmpty

/-! ### Two faults

In `(1f+1f)*nosuch` a sum of factors is an operand, and there is no variable of that name. -/

/-- The sum of two factors in parentheses, from the first column on. -/
def doubledFactor : Expr Binary64 :=
  let one (first : Nat) : Expr Binary64 :=
    .literal (.columns first (first + 2))
      ⟨.ofRat 1, some ⟨.factor, .columns (first + 1) (first + 2)⟩, none, none⟩
  .group (.columns 0 7) (.binary (.columns 1 6) ⟨.add, .columns 3 4⟩ (one 1) (one 4))

/-- `(1f+1f)*nosuch`. -/
def doubledProduct : Expr Binary64 :=
  .binary (.columns 0 14) ⟨.mul, .columns 7 8⟩ doubledFactor (.var (.columns 8 14) "nosuch")

/-- The sum is reported, since it is met first. -/
theorem eval_error_first_product :
    let err : EvalError Binary64 :=
      ⟨.untypedOperand (.binary .mul) .undefined, (Extent.columns 0 7).span⟩
    doubledProduct.IsReadFrom {} "(1f+1f)*nosuch".toList
    ∧ doubledProduct.eval .empty = .error err
    ∧ (∃ before m after, doubledProduct.moments = before ++ m :: after
      ∧ (∀ earlier ∈ before, earlier.Passes .empty) ∧ ¬m.Passes .empty
      ∧ m.node.eval .empty = .error err ∧ m.Blames err)
    ∧ (∃ x ∈ doubledProduct.extents, err.span = x.span) ∧ err.span.isEmpty = false
    ∧ ∀ m ∈ doubledFactor.moments, m.Passes .empty := by
  have hread : doubledProduct.IsReadFrom {} "(1f+1f)*nosuch".toList :=
    .formula (by decide +kernel)
  have herror : doubledProduct.eval .empty = .error
      ⟨.untypedOperand (.binary .mul) .undefined, (Extent.columns 0 7).span⟩ := by decide +kernel
  have hfactor : doubledFactor.eval .empty = .ok .undefined := by decide +kernel
  obtain ⟨hfirst, hextent, hnonempty⟩ := (eval_error_first .empty doubledProduct).2 _ herror
  exact ⟨hread, herror, hfirst, hextent, hnonempty _ _ hread,
    (eval_error_first .empty doubledFactor).1 _ hfactor⟩

end Expr

end WorstCase
