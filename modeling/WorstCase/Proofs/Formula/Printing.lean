import WorstCase.Proofs.Formula.Taking

/-!
# Reading undoes writing

The text of a written formula is read as that formula, if there are blanks
behind every lexeme and the formula keeps to the precedence of operators
(`parseStatement_text`). So every tree that can be written without further
parentheses is the tree of its text.

The reader has no grammar to follow. It takes one token after another and
decides by the operator alone what is joined, so the argument says what the
steps over a whole expression come to. That depends on where the expression
stands. An expression that is no operation is taken as one operand, wherever it
stands (`IsOneOperand`). A product or quotient leaves its last operand waiting
to be joined, and may stand where no product waits (`IsOneTerm`). Every
expression may stand where nothing waits (`IsWhole`). Each of the three implies
the next, and the operands of every operation are of the kind that its
precedence asks for.
-/

namespace WorstCase

open Lexeme (Stops)

variable {dialect : Dialect}

/-! ## Precedence -/

namespace Written

/-- An operation that is not in parentheses. -/
def IsBinary : Written dialect → Prop
  | binary .. => True
  | _ => False

/-- A sum or difference that is not in parentheses. -/
def IsSum : Written dialect → Prop
  | binary _ op _ => op.value.isAdditive = true
  | _ => False

/-- **An expression that keeps to the precedence of operators.** On the right of
a sum or difference there is no other. On the left of a product or the like
there is no sum, and on the right no operation at all. What a power is taken of,
or a temperature given for, is no operation. -/
def KeepsPrecedence : Written dialect → Prop
  | binary left op right =>
    left.KeepsPrecedence ∧ right.KeepsPrecedence
      ∧ if op.value.isAdditive then ¬right.IsSum else ¬left.IsSum ∧ ¬right.IsBinary
  | power base _ _ _ | atTemperature base _ _ _ _ => base.KeepsPrecedence ∧ ¬base.IsBinary
  | group _ inner _ => inner.KeepsPrecedence
  | var _ | literal _ => True

instance : (w : Written dialect) → Decidable w.IsBinary
  | binary .. => isTrue trivial
  | power .. | atTemperature .. | group .. | var _ | literal _ => isFalse id

instance : (w : Written dialect) → Decidable w.IsSum
  | binary _ op _ => inferInstanceAs (Decidable (op.value.isAdditive = true))
  | power .. | atTemperature .. | group .. | var _ | literal _ => isFalse id

instance decidableKeepsPrecedence : (w : Written dialect) → Decidable w.KeepsPrecedence
  | binary left op right =>
    have := decidableKeepsPrecedence left
    have := decidableKeepsPrecedence right
    inferInstanceAs (Decidable (left.KeepsPrecedence ∧ right.KeepsPrecedence
      ∧ if op.value.isAdditive then ¬right.IsSum else ¬left.IsSum ∧ ¬right.IsBinary))
  | power base _ _ _ | atTemperature base _ _ _ _ =>
    have := decidableKeepsPrecedence base
    inferInstanceAs (Decidable (base.KeepsPrecedence ∧ ¬base.IsBinary))
  | group _ inner _ => decidableKeepsPrecedence inner
  | var _ | literal _ => isTrue trivial

/-- The blanks behind the lexemes of the expression, in order. -/
def spaces : Written dialect → List Blanks
  | binary left op right => left.spaces ++ op.space :: right.spaces
  | power base sign exponent _ => base.spaces ++ [sign, exponent.space]
  | atTemperature base sign degrees unit _ =>
    base.spaces ++ sign :: degrees.space :: unit.toList
  | group opening inner closing => opening :: inner.spaces ++ [closing]
  | var name => [name.space]
  | literal l => l.spaces

end Written

namespace WrittenStatement

/-- A statement that keeps to the precedence of operators. -/
def KeepsPrecedence : WrittenStatement dialect → Prop
  | assign _ _ value | expression value => value.KeepsPrecedence

instance : (w : WrittenStatement dialect) → Decidable w.KeepsPrecedence
  | assign _ _ value | expression value => inferInstanceAs (Decidable value.KeepsPrecedence)

/-- The blanks behind the lexemes of the statement, in order. -/
def spaces : WrittenStatement dialect → List Blanks
  | assign name sign value => name.space :: sign :: value.spaces
  | expression value => value.spaces

end WrittenStatement

section AllApart

variable {first more : List Blanks} {s : Blanks}

theorem allApart_append : AllApart (first ++ more) ↔ AllApart first ∧ AllApart more :=
  List.forall_mem_append

theorem allApart_cons : AllApart (s :: more) ↔ s.val ≠ [] ∧ AllApart more :=
  List.forall_mem_cons

end AllApart

/-! ## Steps -/

section Steps

variable {atStart : ParseFault} {pending : Pending} {outer : List (Token × Pending)}
  {c next : Cursor} {e : Expr Binary64}

/-- An operand is taken in one step. -/
theorem readSteps_atom (h : c.operand dialect = .ok (some (.atom e, next))) :
    readSteps dialect atStart ⟨pending, outer, none⟩ c
      = readSteps dialect atStart ⟨pending, outer, some e⟩ next :=
  readSteps_of_more (step_of_atom rfl h)

/-- So is a bracket that opens: inside it nothing waits. -/
theorem readSteps_opening {bracket : Token}
    (h : c.operand dialect = .ok (some (.opening bracket, next))) :
    readSteps dialect atStart ⟨pending, outer, none⟩ c
      = readSteps dialect atStart ⟨{}, (bracket, pending) :: outer, none⟩ next := by
  refine readSteps_of_more ?_
  unfold step stepOperand
  dsimp only
  rw [h]

/-- Behind an operand an operator is pushed, -/
theorem readSteps_operator {op : Node BinaryOperator}
    (h : c.continuation = .ok (some (.operator op, next))) :
    readSteps dialect atStart ⟨pending, outer, some e⟩ c
      = readSteps dialect atStart ⟨pending.push e op, outer, none⟩ next := by
  refine readSteps_of_more ?_
  unfold step stepContinuation
  dsimp only
  rw [h]

/-- and an exponent or a temperature changes the operand. -/
theorem readSteps_exponent {value : Node Binary64}
    (h : c.continuation = .ok (some (.exponent value, next))) :
    readSteps dialect atStart ⟨pending, outer, some e⟩ c
      = readSteps dialect atStart ⟨pending, outer, some (e.raise value)⟩ next := by
  refine readSteps_of_more ?_
  unfold step stepContinuation
  dsimp only
  rw [h]

theorem readSteps_temperature {degrees : Node Binary64}
    (h : c.continuation = .ok (some (.temperature degrees, next))) :
    readSteps dialect atStart ⟨pending, outer, some e⟩ c
      = readSteps dialect atStart ⟨pending, outer, some (e.shift degrees)⟩ next := by
  refine readSteps_of_more ?_
  unfold step stepContinuation
  dsimp only
  rw [h]

/-- A closing bracket joins all that waits inside. -/
theorem readSteps_closing {bracket : Token} {around : Pending} (space : Blanks)
    {rest : List Char} (hrest : Stops ParseFault.isBlank rest) (p : Position) :
    readSteps dialect atStart ⟨pending, (bracket, around) :: outer, some e⟩
        ⟨p, (space.behind [')']).text ++ rest⟩
      = readSteps dialect atStart ⟨around, outer, some (.group
          (bracket.extent.through ((space.behind [')']).extent p)) (pending.total e))⟩
        ⟨p.after (space.behind [')']).text, rest⟩ := by
  have haccept := Cursor.accept_append (space.behind [')']) hrest p
  refine readSteps_of_more ?_
  exact congrArg (fun r : Token × Cursor => Step.more ⟨around, outer,
    some (.group (bracket.extent.through r.1.extent) (pending.total e))⟩ r.2) haccept

/-- At the end of the text all that waits is joined. -/
theorem readSteps_nil (p : Position) :
    readSteps dialect atStart ⟨pending, [], some e⟩ ⟨p, []⟩
      = .ok (pending.total e, ⟨p, []⟩) :=
  readSteps_of_done rfl

end Steps

/-! ## What the steps over an expression come to -/

namespace Written

variable {atStart : ParseFault} {w left right base inner : Written dialect}

/-- **Taken as one operand**, whatever waits for it. -/
def IsOneOperand (atStart : ParseFault) (w : Written dialect) : Prop :=
  ∀ pending outer p rest, Follows rest →
    readSteps dialect atStart ⟨pending, outer, none⟩ ⟨p, w.text ++ rest⟩
      = readSteps dialect atStart ⟨pending, outer, some (w.located p)⟩
          ⟨p.after w.text, rest⟩

/-- **Taken as one term of a sum**, where no product waits: the last operand of
the term is left to be joined to what is before it. -/
def IsOneTerm (atStart : ParseFault) (w : Written dialect) : Prop :=
  ∀ sum outer p rest, Follows rest → ∃ product e, joinTo product e = w.located p
    ∧ readSteps dialect atStart ⟨⟨sum, none⟩, outer, none⟩ ⟨p, w.text ++ rest⟩
      = readSteps dialect atStart ⟨⟨sum, product⟩, outer, some e⟩ ⟨p.after w.text, rest⟩

/-- **Taken whole**, where nothing waits. -/
def IsWhole (atStart : ParseFault) (w : Written dialect) : Prop :=
  ∀ outer p rest, Follows rest → ∃ pending e, Pending.total pending e = w.located p
    ∧ readSteps dialect atStart ⟨{}, outer, none⟩ ⟨p, w.text ++ rest⟩
      = readSteps dialect atStart ⟨pending, outer, some e⟩ ⟨p.after w.text, rest⟩

theorem IsOneOperand.isOneTerm (h : w.IsOneOperand atStart) : w.IsOneTerm atStart :=
  fun sum outer p rest hrest =>
    ⟨none, w.located p, rfl, h ⟨sum, none⟩ outer p rest hrest⟩

theorem IsOneTerm.isWhole (h : w.IsOneTerm atStart) : w.IsWhole atStart := by
  intro outer p rest hrest
  obtain ⟨product, e, he, hsteps⟩ := h none outer p rest hrest
  exact ⟨⟨none, product⟩, e, he, hsteps⟩

/-! ### Operands -/

theorem isOneOperand_literal {l : WrittenLiteral dialect} (hl : AllApart l.spaces) :
    (literal l).IsOneOperand atStart :=
  fun _ _ p _ hrest => readSteps_atom (Cursor.operand_literal hl hrest p)

theorem isOneOperand_var {name : Spaced Lexeme.Name} (hname : name.space.val ≠ []) :
    (var name : Written dialect).IsOneOperand atStart :=
  fun _ _ p _ hrest =>
    readSteps_atom (Cursor.operand_var hname (hrest.stops (by decide)) p)

/-- **What is in parentheses is read on its own**, and all that waits for it
around them is kept. -/
theorem IsWhole.group {opening closing : Blanks} (h : inner.IsWhole atStart) :
    (group opening inner closing).IsOneOperand atStart := by
  intro pending outer p rest hrest
  have hclosing : Follows ((closing.behind [')']).text ++ rest) :=
    follows_mark (by decide) rfl _
  obtain ⟨waiting, e, he, hsteps⟩ := h (((opening.behind ['(']).token p, pending) :: outer)
    (p.after (opening.behind ['(']).text) _ hclosing
  rw [text_group, List.append_assoc, List.append_assoc,
    readSteps_opening (Cursor.operand_opening opening (inner.stops_isBlank _) p), hsteps,
    readSteps_closing closing (hrest.stops (by decide)), he, located_group]
  simp only [Position.after_append]
  rfl

/-- A power of an operand is one. -/
theorem IsOneOperand.power {sign : Blanks} {x : Spaced Lexeme.Numeral}
    {hx : (readNumber x.value.text).isFinite = true} (h : base.IsOneOperand atStart)
    (hspace : x.space.val ≠ []) : (power base sign x hx).IsOneOperand atStart := by
  intro pending outer p rest hrest
  have hsign : Follows ((sign.behind ['^']).text ++ ((x.stretch Lexeme.Numeral.text).text ++ rest)) :=
    follows_mark (by decide) rfl _
  rw [text_power, List.append_assoc, List.append_assoc, h _ _ _ _ hsign,
    readSteps_exponent (Cursor.continuation_exponent sign hspace hx
      (hrest.stops (by decide)) _), located_power]
  simp only [Position.after_append]

/-- So is an operand at a temperature. -/
theorem IsOneOperand.atTemperature {sign : Blanks} {x : Spaced Lexeme.Numeral}
    {unit : Option Blanks} {hx : (readNumber x.value.text).isFinite = true}
    (h : base.IsOneOperand atStart) (hspace : x.space.val ≠ []) :
    (atTemperature base sign x unit hx).IsOneOperand atStart := by
  intro pending outer p rest hrest
  have hsign : Follows ((sign.behind ['@']).text ++ ((degreesStretch x unit).text ++ rest)) :=
    follows_mark (by decide) rfl _
  rw [text_atTemperature, List.append_assoc, List.append_assoc, h _ _ _ _ hsign,
    readSteps_temperature (Cursor.continuation_temperature sign hspace hx
      (hrest.stops (by decide)) (hrest.stops (by decide)) _), located_atTemperature]
  simp only [Position.after_append]

/-! ### Operations -/

/-- Behind the left operand its operator is pushed, and the right operand comes
next. -/
theorem readSteps_right {pending : Pending} {outer : List (Token × Pending)}
    {e : Expr Binary64} {op : Spaced BinaryOperator} (hop : op.space.val ≠ [])
    (p : Position) (rest : List Char) :
    readSteps dialect atStart ⟨pending, outer, some e⟩ ⟨p.after left.text,
        (op.stretch BinaryOperator.lexeme).text ++ (right.text ++ rest)⟩
      = readSteps dialect atStart ⟨pending.push e
            ⟨op.value, (op.stretch BinaryOperator.lexeme).extent (p.after left.text)⟩, outer, none⟩
          ⟨p.after (left.text ++ (op.stretch BinaryOperator.lexeme).text),
            right.text ++ rest⟩ := by
  rw [readSteps_operator (Cursor.continuation_operator hop (right.stops_isBlank rest) _),
    Position.after_append]

/-- **A product is a term**, if its left operand is one and its right one an
operand. -/
theorem IsOneTerm.product {op : Spaced BinaryOperator} (hleft : left.IsOneTerm atStart)
    (hright : right.IsOneOperand atStart) (hop : op.space.val ≠ [])
    (hproduct : op.value.isAdditive = false) : (binary left op right).IsOneTerm atStart := by
  intro sum outer p rest hrest
  obtain ⟨product, e, he, hsteps⟩ :=
    hleft sum outer p _ (follows_operator hop (right.text ++ rest))
  have hpush : Pending.push ⟨sum, product⟩ e
        ⟨op.value, (op.stretch BinaryOperator.lexeme).extent (p.after left.text)⟩
      = ⟨sum, WrittenWaiting.located p (some ⟨left, op⟩)⟩ := by
    unfold Pending.push Pending.factor
    rw [if_neg (by rw [hproduct]; exact Bool.false_ne_true), he]
    rfl
  refine ⟨_, _, (WrittenWaiting.located_join (some ⟨left, op⟩) right p).symm, ?_⟩
  rw [text_binary, List.append_assoc, List.append_assoc, hsteps, readSteps_right hop, hpush,
    hright _ outer _ rest hrest, ← Position.after_append]
  rfl

/-- **A sum is taken whole**, if its left operand is and its right one is a
term. -/
theorem IsWhole.sum {op : Spaced BinaryOperator} (hleft : left.IsWhole atStart)
    (hright : right.IsOneTerm atStart) (hop : op.space.val ≠ [])
    (hsum : op.value.isAdditive = true) : (binary left op right).IsWhole atStart := by
  intro outer p rest hrest
  obtain ⟨pending, e, he, hsteps⟩ :=
    hleft outer p _ (follows_operator hop (right.text ++ rest))
  have hpush : pending.push e
        ⟨op.value, (op.stretch BinaryOperator.lexeme).extent (p.after left.text)⟩
      = ⟨WrittenWaiting.located p (some ⟨left, op⟩), none⟩ := by
    unfold Pending.push
    rw [if_pos hsum, he]
    rfl
  obtain ⟨product, x, hx, hterm⟩ := hright (WrittenWaiting.located p (some ⟨left, op⟩)) outer
    (p.after (left.text ++ (op.stretch BinaryOperator.lexeme).text)) rest hrest
  refine ⟨⟨WrittenWaiting.located p (some ⟨left, op⟩), product⟩, x, ?_, ?_⟩
  · have hjoin := WrittenWaiting.located_join (some ⟨left, op⟩) right p
    refine Eq.trans ?_ hjoin.symm
    exact congrArg (joinTo _) hx
  · rw [text_binary, List.append_assoc, List.append_assoc, hsteps, readSteps_right hop, hpush,
      hterm, ← Position.after_append]

/-! ### All expressions -/

/-- **What the steps over an expression come to**, by the precedence that it
keeps to. -/
theorem taken (hspaces : AllApart w.spaces) (hw : w.KeepsPrecedence) :
    (¬w.IsBinary → w.IsOneOperand atStart) ∧ (¬w.IsSum → w.IsOneTerm atStart)
      ∧ w.IsWhole atStart := by
  have hall : ∀ {v : Written dialect}, v.IsOneOperand atStart →
      (¬v.IsBinary → v.IsOneOperand atStart) ∧ (¬v.IsSum → v.IsOneTerm atStart)
        ∧ v.IsWhole atStart :=
    fun h => ⟨fun _ => h, fun _ => h.isOneTerm, h.isOneTerm.isWhole⟩
  induction w with
  | binary left op right ihl ihr =>
    obtain ⟨hleft, hright, hprecedence⟩ := hw
    obtain ⟨hlspaces, hop⟩ := allApart_append.mp hspaces
    obtain ⟨hop, hrspaces⟩ := allApart_cons.mp hop
    obtain ⟨-, hlterm, hlwhole⟩ := ihl hlspaces hleft
    obtain ⟨hroperand, hrterm, -⟩ := ihr hrspaces hright
    refine ⟨fun h => absurd trivial h, ?_⟩
    cases hsum : op.value.isAdditive with
    | true =>
      rw [if_pos hsum] at hprecedence
      exact ⟨fun h => absurd hsum h, hlwhole.sum (hrterm hprecedence) hop hsum⟩
    | false =>
      rw [if_neg (by rw [hsum]; exact Bool.false_ne_true)] at hprecedence
      have hterm := (hlterm hprecedence.1).product (hroperand hprecedence.2) hop hsum
      exact ⟨fun _ => hterm, hterm.isWhole⟩
  | power base sign x hx ih =>
    obtain ⟨hbase, hspaces⟩ := allApart_append.mp hspaces
    obtain ⟨hoperand, -⟩ := ih hbase hw.1
    have hspace : x.space.val ≠ [] := hspaces _ (List.mem_cons_of_mem _ List.mem_cons_self)
    exact hall ((hoperand hw.2).power hspace)
  | atTemperature base sign x unit hx ih =>
    obtain ⟨hbase, hspaces⟩ := allApart_append.mp hspaces
    obtain ⟨hoperand, -⟩ := ih hbase hw.1
    have hspace : x.space.val ≠ [] := hspaces _ (List.mem_cons_of_mem _ List.mem_cons_self)
    exact hall ((hoperand hw.2).atTemperature hspace)
  | group opening inner closing ih =>
    obtain ⟨-, hspaces⟩ := allApart_cons.mp hspaces
    obtain ⟨hinner, -⟩ := allApart_append.mp hspaces
    obtain ⟨-, -, hwhole⟩ := ih hinner hw
    exact hall hwhole.group
  | var name => exact hall (isOneOperand_var (hspaces _ List.mem_cons_self))
  | literal l => exact hall (isOneOperand_literal hspaces)

end Written

/-! ## Whole texts -/

section Texts

variable {w : Written dialect} {atStart : ParseFault} {rest : List Char}

/-- A number starts with no letter. -/
theorem Lexeme.Numeral.stops_isAlpha (n : Lexeme.Numeral) (rest : List Char) :
    Stops Char.isAlpha (n.text ++ rest) := by
  have hnumber : ∀ c, Lexeme.isSign c = true ∨ c.isDigit = true → c.isAlpha = false := by
    intro c hc
    rw [Bool.eq_false_iff]
    intro halpha
    rcases hc with hc | hc
    · rw [Lexeme.isSign_of_isAlpha halpha] at hc
      cases hc
    · rw [Lexeme.isDigit_of_isAlpha halpha] at hc
      cases hc
  rw [text]
  cases n.sign with
  | some c => exact Lexeme.stops_cons (hnumber _ (.inl c.property))
  | none =>
    rw [Unsigned.text, optionalText, List.nil_append, List.append_assoc, List.append_assoc]
    exact n.unsigned.whole.stops (fun c hc => hnumber c (.inr hc)) _

/-- Where there is no name, nothing is assigned. -/
theorem Cursor.assignment_absent {c : Cursor} (h : Stops Char.isAlpha c.rest) :
    c.assignment = .ok none := by
  unfold assignment
  rw [token_absent (Lexeme.name_absent h)]
  rfl

/-- **An expression is no assignment.** It may start with a name, but no sign
for assignments comes behind it. -/
theorem Written.assignment_text (w : Written dialect) (hspaces : AllApart w.spaces)
    (hrest : Follows rest) (p : Position) :
    (Cursor.mk p (w.text ++ rest)).assignment = .ok none := by
  induction w generalizing rest with
  | binary left op right ihl ihr =>
    obtain ⟨hleft, hright⟩ := allApart_append.mp hspaces
    rw [text_binary, List.append_assoc, List.append_assoc]
    exact ihl hleft (follows_operator (hright _ List.mem_cons_self) _)
  | power base sign x hx ih =>
    rw [text_power, List.append_assoc, List.append_assoc]
    exact ih (allApart_append.mp hspaces).1 (follows_mark (by decide) rfl _)
  | atTemperature base sign x unit hx ih =>
    rw [text_atTemperature, List.append_assoc, List.append_assoc]
    exact ih (allApart_append.mp hspaces).1 (follows_mark (by decide) rfl _)
  | group opening inner closing ih =>
    rw [text_group, List.append_assoc, List.append_assoc]
    exact Cursor.assignment_absent (Lexeme.stops_cons rfl)
  | var name =>
    have hname := Cursor.name_append (hspaces _ List.mem_cons_self)
      (hrest.stops (by decide)) p
    exact Cursor.assignment_of_stops hname (hrest.stops (by decide))
  | literal l =>
    refine Cursor.assignment_absent ?_
    show Stops Char.isAlpha (l.stretch.text ++ rest)
    rw [l.text_stretch, List.append_assoc]
    show Stops Char.isAlpha (l.magnitude.value.text ++ l.magnitude.space.val ++ _)
    rw [Lexeme.Magnitude.text, List.append_assoc, List.append_assoc]
    exact l.magnitude.value.number.stops_isAlpha _

/-- The name and the sign of an assignment are taken. -/
theorem Cursor.assignment_append (name : Spaced Lexeme.Name) (sign : Blanks)
    (hrest : Stops ParseFault.isBlank rest) (p : Position) :
    (Cursor.mk p ((name.stretch Lexeme.Name.text).text
        ++ ((sign.behind ['=']).text ++ rest))).assignment
      = .ok (some ((name.stretch Lexeme.Name.text).token p,
          (sign.behind ['=']).token (p.after (name.stretch Lexeme.Name.text).text),
          ⟨p.after ((name.stretch Lexeme.Name.text).text ++ (sign.behind ['=']).text), rest⟩)) := by
  have hequals : Stops ParseFault.isBlank ((sign.behind ['=']).text ++ rest) :=
    Lexeme.stops_cons rfl
  have haccept := accept_append (sign.behind ['=']) hrest
    (p.after (name.stretch Lexeme.Name.text).text)
  have hname : Stops Lexeme.isNameChar
      (name.space.val ++ ((sign.behind ['=']).text ++ rest)) := by
    obtain ⟨x, ⟨space, hspace⟩⟩ := name
    cases space with
    | nil => exact Lexeme.stops_cons rfl
    | cons c cs => exact (Blanks.apart (List.cons_ne_nil c cs) _).stops rfl rfl
  have hscan : Lexeme.name ((name.stretch Lexeme.Name.text).text
        ++ ((sign.behind ['=']).text ++ rest))
      = .found name.value.text (name.space.val ++ ((sign.behind ['=']).text ++ rest)) := by
    show Lexeme.name (name.value.text ++ name.space.val ++ _) = _
    rw [List.append_assoc]
    exact Lexeme.name_spelt name.value hname
  unfold assignment
  refine Except.bind_eq_ok.mpr ⟨_, token_append name hscan hequals p, ?_⟩
  rw [Position.after_append]
  exact congrArg (fun r : Token × Cursor => Except.ok (some (_, r.1, r.2))) haccept

/-- **A written expression is read as the expression that was written.** -/
theorem Cursor.expr_text (hspaces : AllApart w.spaces) (hw : w.KeepsPrecedence)
    (p : Position) :
    (Cursor.mk p w.text).expr dialect atStart
      = .ok (w.located p, ⟨p.after w.text, []⟩) := by
  have hwhole : w.IsWhole atStart := (Written.taken hspaces hw).2.2
  obtain ⟨pending, e, he, hsteps⟩ := hwhole [] p [] follows_nil
  rw [List.append_nil] at hsteps
  unfold expr
  rw [hsteps, readSteps_nil, he]

end Texts

/-- **Reading undoes writing.** A statement is written as its lexemes one after
the other, with blanks behind each, and with any blanks before them. If it keeps
to the precedence of operators, the text is accepted, and what is read is the
statement that was written: the same operators with the same operands, the same
names, and the values of the same numbers, each where it stands in the text. -/
theorem parseStatement_text (w : WrittenStatement dialect) (lead : Blanks)
    (hspaces : AllApart w.spaces) (hw : w.KeepsPrecedence) :
    parseStatement dialect (lead.val ++ w.text)
      = .ok (w.located (Position.start.after lead.val)) := by
  have hblank := w.stops_isBlank []
  rw [List.append_nil] at hblank
  have hstart : Cursor.ofText (lead.val ++ w.text)
      = ⟨Position.start.after lead.val, w.text⟩ := Cursor.skipBlanks_append lead hblank _
  unfold parseStatement
  rw [hstart]
  cases w with
  | expression value =>
    have habsent := value.assignment_text hspaces follows_nil (Position.start.after lead.val)
    rw [List.append_nil] at habsent
    refine Except.bind_eq_ok.mpr ⟨none, habsent, ?_⟩
    exact Except.bind_eq_ok.mpr ⟨_, Cursor.expr_text hspaces hw _, rfl⟩
  | assign name sign value =>
    obtain ⟨-, hspaces⟩ := allApart_cons.mp hspaces
    obtain ⟨-, hvalue⟩ := allApart_cons.mp hspaces
    have hblank := value.stops_isBlank []
    rw [List.append_nil] at hblank
    have hassign := Cursor.assignment_append name sign hblank (Position.start.after lead.val)
    rw [WrittenStatement.text_assign, List.append_assoc]
    refine Except.bind_eq_ok.mpr ⟨_, hassign, ?_⟩
    refine Except.bind_eq_ok.mpr ⟨_, Cursor.expr_text hvalue hw _, ?_⟩
    exact congrArg Except.ok (WrittenStatement.located_assign name sign value _ rfl).symm

/-- The difference `p = v / 2 - 1k 5ppm`. Its operands are a quotient on the left
and a literal without a tolerance on the right, and the sign between them does
not belong to a coefficient of the `2`. -/
def WrittenStatement.difference : WrittenStatement {} :=
  let blank : Blanks := ⟨[' '], List.forall_mem_singleton.mpr rfl⟩
  let digit (c : Char) (h : c.isDigit = true) : Lexeme.Digits :=
    ⟨[c], List.cons_ne_nil _ _, List.forall_mem_singleton.mpr h⟩
  .assign ⟨⟨⟨'p', rfl⟩, [], List.forall_mem_nil _⟩, blank⟩ blank
    (.binary
      (.binary (.var ⟨⟨⟨'v', rfl⟩, [], List.forall_mem_nil _⟩, blank⟩) ⟨.div, blank⟩
        (.literal ⟨⟨⟨⟨none, digit '2' rfl, none, none⟩, none, none⟩, blank⟩, none, none,
          by decide +kernel, fun _ h => (nomatch h), fun _ h => (nomatch h)⟩))
      ⟨.sub, blank⟩
      (.literal ⟨⟨⟨⟨none, digit '1' rfl, none, none⟩, some ⟨'k', rfl⟩, none⟩, blank⟩, none,
        some ⟨⟨none, digit '5' rfl⟩, blank⟩, by decide +kernel, fun _ h => (nomatch h),
        by decide +kernel⟩))

theorem parseStatement_text_difference :
    AllApart WrittenStatement.difference.spaces ∧ WrittenStatement.difference.KeepsPrecedence
      ∧ WrittenStatement.difference.text = "p = v / 2 - 1k 5ppm ".toList
      ∧ parseStatement {} (['\t'] ++ WrittenStatement.difference.text)
        = .ok (WrittenStatement.difference.located (Position.start.after ['\t'])) :=
  ⟨by decide, by decide, by decide,
    parseStatement_text _ ⟨['\t'], List.forall_mem_singleton.mpr rfl⟩ (by decide) (by decide)⟩

end WorstCase
