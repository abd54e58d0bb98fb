import WorstCase.Proofs.Formula.Alongside
import WorstCase.Proofs.Grammar.Tokens

/-!
# The rules for operands

The rules for literals, for variables and for what may follow an operand come to
what the reader says of them (`Answers`, `postfix_answers`). Where a rule builds a
node, its parts were read one behind the other, so that the span of the node is in
order (`Stands`), and the unit of a magnitude is a character of its text
(`unitNode_eq`): no check of the rules goes wrong here.
-/

namespace WorstCase.Grammar

open Lexeme (Stops)

namespace Outcome

variable {α β : Type}

@[simp] theorem ofExcept_ok (a : α) : ofExcept (.ok a) = read a := rfl

theorem either_ofExcept {first second : Rule Reason α} {c : Cursor}
    {x : Except ParseError (α × Cursor)} (h : first c = ofExcept x) :
    either first second c = ofExcept x := by
  cases x with
  | error e => exact either_of_failed h
  | ok a => exact either_of_read h

/-- Where a first step does the same, and the second does on its result, both
do. -/
theorem ofExcept_bind {x : Except ParseError α} {f : α → Outcome Reason β}
    {g : α → Except ParseError β} (h : ∀ a, x = .ok a → f a = ofExcept (g a)) :
    (ofExcept x >>= f) = ofExcept (x >>= g) := by
  cases x with
  | error e => rfl
  | ok a => exact h a rfl

end Outcome

/-- **The rule for what may be missing comes to what the reader says.** Where it
refuses, its complaint shows at one of the offsets given. -/
inductive Answers {α : Type} (refusal : Nat → Prop) :
    Outcome Reason (α × Cursor) → Except ParseError (Option (α × Cursor)) → Prop
  | read (x : α × Cursor) : Answers refusal (.read x) (.ok (some x))
  | refused {offset : Nat} (reason : Reason) (h : refusal offset) :
    Answers refusal (.refused ⟨offset, reason⟩) (.ok none)
  | failed (e : ParseError) : Answers refusal (.failed (.ofError e)) (.error e)

section Tokens

variable {c : Cursor} {refusal : Nat → Prop} {what : Expected} {rule : Rule TokenFault Token}
  {x : Except ParseError (Option (Token × Cursor))}

theorem TokenAnswers.convertErrors (h : TokenAnswers refusal what (rule c) x) :
    Answers refusal (convertErrors rule c) x := by
  generalize hrule : rule c = o at h
  cases h with
  | read x =>
    rw [convertErrors_of_read hrule]
    exact .read x
  | refused h =>
    rw [convertErrors_of_refused hrule]
    exact .refused _ h
  | failed offset part start =>
    rw [convertErrors_of_failed hrule]
    exact .failed ⟨offset, .brokenNumber part start⟩

/-- A token that may be left out. -/
theorem Answers.opt {rule : Rule Reason Token} {scan : List Char → Scan}
    (h : Answers refusal (rule c) (c.token scan)) :
    Grammar.opt rule c = .ofExcept (c.optionalToken scan) := by
  unfold Cursor.optionalToken
  generalize hrule : rule c = o at h
  generalize c.token scan = r at h ⊢
  cases h with
  | read x => exact opt_of_read hrule
  | refused reason h => exact opt_of_refused hrule
  | failed e => exact opt_of_failed hrule

/-- A number that must follow. -/
theorem orFailWith_number (c : Cursor) (missing : ParseFault) :
    orFailWith number (fun _ => .ok (.fault missing)) Reason.ofToken c
      = .ofExcept (c.requiredNumber missing) := by
  have hanswers := number_answers c
  unfold Cursor.requiredNumber
  generalize hrule : number c = o at hanswers
  generalize c.token Lexeme.number = r at hanswers ⊢
  cases hanswers with
  | read x => exact orFailWith_of_read hrule
  | refused h =>
    rw [orFailWith_of_refused hrule, h]
    rfl
  | failed offset part start => exact orFailWith_of_failed hrule

end Tokens

/-! ## Where things stand -/

/-- **What is read at a cursor stands there**, with its blanks up to the cursor
behind it. -/
def Stands (c : Cursor) (x : Extent) (next : Cursor) : Prop :=
  ∃ s : Stretch, x = s.extent c.position ∧ c.Reads s.text next

namespace Stands

variable {c m n : Cursor} {x y : Extent}

theorem through (hx : Stands c x m) (hy : Stands m y n) : Stands c (x.through y) n := by
  obtain ⟨s, rfl, hs⟩ := hx
  obtain ⟨t, rfl, ht⟩ := hy
  refine ⟨s ++ t, ?_, ?_⟩
  · rw [hs.position_eq]
    exact Stretch.through_extent rfl t
  · rw [Stretch.append_text]
    exact hs.trans ht

/-- What stands behind something that has no node of its own. -/
theorem through_behind {s t : Stretch} (hx : Stands c x m) (h : m.Reads (s.text ++ t.text) n) :
    Stands c (x.through (t.extent (m.position.after s.text))) n := by
  obtain ⟨r, rfl, hr⟩ := hx
  refine ⟨r ++ s ++ t, ?_, ?_⟩
  · rw [hr.position_eq, ← Position.after_append, ← Stretch.append_text]
    exact Stretch.through_extent rfl t
  · rw [Stretch.append_text, Stretch.append_text, List.append_assoc]
    exact hr.trans h

/-- **The span of what stands somewhere is in order.** -/
theorem extent {φ : Type} (h : Stands c (x.through y) n) :
    (Outcome.extent x y : Outcome φ Extent) = .read (x.through y) := by
  obtain ⟨s, hs, -⟩ := h
  have hspan : (x.through y).span = ⟨c.position, c.position.after s.body⟩ := by rw [hs]; rfl
  have hstart : x.span.start = c.position := congrArg Span.start hspan
  have hstop : y.span.stop = c.position.after s.body := congrArg Span.stop hspan
  have hreaches : Reaches x.span.start y.span.stop := by
    rw [hstart, hstop]
    exact .after _ _
  unfold Outcome.extent
  rw [hreaches.span]
  rfl

theorem length_le (h : Stands c x n) : n.rest.length ≤ c.rest.length := by
  obtain ⟨s, -, hs⟩ := h
  rw [hs.rest_eq, List.length_append]
  omega

end Stands

theorem accept_stands {c : Cursor} (lexeme : List Char) {rest : List Char}
    (h : c.rest = lexeme ++ rest) :
    Stands c (c.accept lexeme rest).1.extent (c.accept lexeme rest).2 := by
  obtain ⟨space, htoken, hreads⟩ := c.accept_reads lexeme h
  exact ⟨⟨lexeme, space⟩, by rw [htoken]; rfl, hreads⟩

theorem token_stands {α : Type} {scan : List Char → Scan} {spell : α → List Char} {c next : Cursor}
    {t : Token} (hs : Lexeme.Spells scan spell) (h : c.token scan = .ok (some (t, next))) :
    Stands c t.extent next := by
  obtain ⟨x, rfl, hreads⟩ := Cursor.token_eq_some hs h
  exact ⟨x.stretch spell, rfl, hreads⟩

theorem literal_stands {dialect : Dialect} {c next : Cursor} {e : Expr Binary64}
    (h : c.literal dialect = .ok (some (e, next))) : Stands c e.extent next := by
  obtain ⟨l, rfl, hreads⟩ := Cursor.literal_eq_some h
  exact ⟨l.stretch, rfl, hreads⟩

/-! ## Literals and variables -/

/-- **The unit of a magnitude lies in its text.** -/
theorem unitNode_eq {dialect : Dialect} {c next : Cursor} {t : Token}
    (h : c.token (Lexeme.magnitude dialect) = .ok (some (t, next))) :
    unitNode t (MagnitudeParts.split t.text)
      = .read (Literal.unitNode t (MagnitudeParts.split t.text)) := by
  obtain ⟨x, ht, -⟩ := Cursor.token_eq_some (Lexeme.magnitude_spells dialect) h
  have hstop : t.span.stop = c.position.after t.text := by rw [ht]; rfl
  unfold unitNode Literal.unitNode
  cases hunit : (MagnitudeParts.split t.text).unit with
  | none => rfl
  | some u =>
    rw [Option.bind_some, Option.bind_some]
    cases hsymbol : UnitSymbol.ofChar? u with
    | none => rfl
    | some unit =>
      obtain ⟨front, hfront⟩ := MagnitudeParts.unit_eq_some hunit
      have hne : u ≠ '\n' := by
        rintro rfl
        cases hsymbol
      have hlast : t.span.stop = (c.position.after front).next u := by
        rw [hstop, hfront, Position.after_append]
        rfl
      have hwidth : u.utf8Size ≤ t.span.stop.offset ∧ u.utf8Size ≤ t.span.stop.column := by
        rw [hlast, Position.next, if_neg hne]
        exact ⟨Nat.le_add_left _ _, Nat.le_add_left _ _⟩
      have hback : Reaches (t.span.stop.back u.utf8Size) t.span.stop := by
        rw [hlast, Position.back_next hne]
        exact .after _ [u]
      rw [Option.map_some, Option.map_some]
      dsimp only
      rw [if_pos hwidth, hback.span]
      rfl

theorem literalOf_eq {dialect : Dialect} {c next : Cursor} {t : Token}
    (h : c.token (Lexeme.magnitude dialect) = .ok (some (t, next)))
    (tolerance coefficient : Option Token) :
    literalOf t tolerance coefficient = .ofExcept (Literal.ofTokens t tolerance coefficient) := by
  refine Outcome.ofExcept_bind fun number _ => ?_
  rw [unitNode_eq h, Outcome.read_bind]
  refine Outcome.ofExcept_bind fun tolerance _ => ?_
  exact Outcome.ofExcept_bind fun coefficient _ => rfl

/-- **The rule for literals.** -/
theorem literal_answers (dialect : Dialect) (c : Cursor) :
    Answers (fun _ => True) (literal dialect c) (c.literal dialect) := by
  have hmagnitude := (magnitude_answers dialect c).convertErrors
  have hliteral := @literal_stands dialect c
  unfold literal
  unfold Cursor.literal at hliteral ⊢
  generalize Grammar.convertErrors (magnitude dialect) c = o at hmagnitude ⊢
  generalize hread : c.token (Lexeme.magnitude dialect) = r at hmagnitude hliteral ⊢
  cases hmagnitude with
  | refused reason h => exact .refused reason h
  | failed e => exact .failed e
  | read x =>
    obtain ⟨t, c₁⟩ := x
    rw [Except.ok_bind] at hliteral
    rw [Outcome.read_bind, Except.ok_bind]
    dsimp only at hliteral ⊢
    rw [(percentage_answers c₁).convertErrors.opt]
    cases htolerance : c₁.optionalToken Lexeme.percentage with
    | error e => exact .failed e
    | ok x =>
    obtain ⟨tolerance, c₂⟩ := x
    rw [htolerance, Except.ok_bind] at hliteral
    rw [Outcome.ofExcept_ok, Outcome.read_bind, Except.ok_bind]
    dsimp only at hliteral ⊢
    rw [(coefficient_answers c₂).convertErrors.opt]
    cases hcoefficient : c₂.optionalToken Lexeme.coefficient with
    | error e => exact .failed e
    | ok x =>
    obtain ⟨coefficient, c₃⟩ := x
    rw [hcoefficient, Except.ok_bind] at hliteral
    rw [Outcome.ofExcept_ok, Outcome.read_bind, Except.ok_bind]
    dsimp only at hliteral ⊢
    rw [literalOf_eq hread]
    cases hspelt : Literal.ofTokens t tolerance coefficient with
    | error e => exact .failed e
    | ok literal =>
    rw [hspelt] at hliteral
    have hstands : Stands c _ c₃ := hliteral rfl
    rw [Outcome.ofExcept_ok, Outcome.read_bind, hstands.extent, Outcome.read_bind]
    exact .read _

/-- **The rule for variables.** -/
theorem var_answers (c : Cursor) : Answers (fun _ => True) (var c) c.var := by
  have hname := (name_answers c).convertErrors
  unfold var Cursor.var
  generalize Grammar.convertErrors name c = o at hname ⊢
  generalize c.token Lexeme.name = r at hname ⊢
  cases hname with
  | read x => exact .read _
  | refused reason h => exact .refused reason h
  | failed e => exact .failed e

theorem var_stands {c next : Cursor} {e : Expr Binary64} (h : c.var = .ok (some (e, next))) :
    Stands c e.extent next := by
  obtain ⟨x, rfl, hreads⟩ := Cursor.var_eq_some {} h
  exact ⟨x.stretch Lexeme.Name.text, rfl, hreads⟩

/-! ## Exponents and temperatures -/

section Postfixes

variable {c : Cursor} {rest : List Char}

theorem convertErrors_mark (text : List Char) (h : c.rest = text ++ rest) :
    convertErrors (mark text) c = .read (c.accept text rest) :=
  convertErrors_of_read (mark_append text h)

theorem convertErrors_mark_absent {text : List Char} (h : ∀ rest, c.rest ≠ text ++ rest) :
    convertErrors (mark text) c = .refused ⟨c.position.offset, .expected (.mark text)⟩ :=
  convertErrors_of_refused (mark_absent h)

theorem requiredNumber_stands {next : Cursor} {missing : ParseFault} {t : Token}
    (h : c.requiredNumber missing = .ok (t, next)) : Stands c t.extent next := by
  obtain ⟨x, rfl, hreads⟩ := Cursor.requiredNumber_eq_ok h
  exact ⟨x.stretch Lexeme.Numeral.text, rfl, hreads⟩

/-- What goes on with the formula, as the steps have it. -/
def Postfix.continuation : Postfix → Continuation
  | power exponent => .exponent exponent
  | atTemperature degrees => .temperature degrees

theorem power_eq (h : c.rest = '^' :: rest) :
    power c = .ofExcept (do
      let (value, next) ← (c.accept ['^'] rest).2.exponent (c.accept ['^'] rest).1
      return (.power value, next)) := by
  unfold power Cursor.exponent
  rw [convertErrors_mark ['^'] h, Outcome.read_bind]
  dsimp only
  rw [orFailWith_number, bind_assoc]
  refine Outcome.ofExcept_bind fun x _ => ?_
  rw [bind_assoc]
  exact Outcome.ofExcept_bind fun value _ => rfl

theorem atTemperature_eq (h : c.rest = '@' :: rest) :
    atTemperature c = .ofExcept (do
      let (degrees, next) ← (c.accept ['@'] rest).2.temperature (c.accept ['@'] rest).1
      return (.atTemperature degrees, next)) := by
  unfold atTemperature Cursor.temperature
  rw [convertErrors_mark ['@'] h, Outcome.read_bind]
  dsimp only
  rw [orFailWith_number, bind_assoc]
  refine Outcome.ofExcept_bind fun x hx => ?_
  obtain ⟨number, c₁⟩ := x
  have hnumber := requiredNumber_stands hx
  dsimp only
  split
  · rename_i after hafter
    have hunit := hnumber.through (accept_stands ['°', 'C'] hafter)
    rw [opt_of_read (convertErrors_mark ['°', 'C'] hafter), Outcome.read_bind, bind_assoc]
    refine Outcome.ofExcept_bind fun value _ => ?_
    rw [Option.getD_some, hunit.extent]
    rfl
  · rename_i hne
    have hself : Stands _ (number.extent.through number.extent) c₁ := hnumber
    rw [opt_of_refused (convertErrors_mark_absent hne), Outcome.read_bind, bind_assoc]
    refine Outcome.ofExcept_bind fun value _ => ?_
    rw [Option.getD_none, hself.extent]
    rfl

/-- Where what goes on with the formula stands. -/
def Continuation.extent : Continuation → Extent
  | .operator op => op.extent
  | .exponent value => value.extent
  | .temperature degrees => degrees.extent

/-- What goes on with a formula stands behind it. -/
theorem continuation_stands {c₀ next : Cursor} {x : Extent} {k : Continuation} (hx : Stands c₀ x c)
    (h : c.continuation = .ok (some (k, next))) :
    Stands c₀ (x.through (Continuation.extent k)) next := by
  obtain ⟨w, rfl, hreads⟩ := Cursor.continuation_eq_some h
  cases w with
  | operator op => exact hx.through ⟨op.stretch BinaryOperator.lexeme, rfl, hreads⟩
  | exponent sign x _ => exact hx.through_behind hreads
  | temperature sign x unit _ => exact hx.through_behind hreads

/-- **Something ends at a cursor**: nothing goes on there, or an operator of the
kinds given does. -/
def EndsBefore (kinds : BinaryOperator → Bool) (c : Cursor) : Prop :=
  c.continuation = .ok none
    ∨ ∃ op next, c.continuation = .ok (some (.operator op, next)) ∧ kinds op.value = true

theorem continuation_of_caret (h : c.rest = '^' :: rest) :
    c.continuation = ((c.accept ['^'] rest).2.exponent (c.accept ['^'] rest).1 >>=
      fun x => .ok (some (.exponent x.1, x.2))) := by
  unfold Cursor.continuation
  rw [h]
  rfl

theorem continuation_of_at (h : c.rest = '@' :: rest) :
    c.continuation = ((c.accept ['@'] rest).2.temperature (c.accept ['@'] rest).1 >>=
      fun x => .ok (some (.temperature x.1, x.2))) := by
  unfold Cursor.continuation
  rw [h]
  rfl

/-- Where neither sign is next, a formula ends or goes on with an operator. -/
theorem endsBefore_of_ne (hpower : ∀ rest, c.rest ≠ '^' :: rest) (hat : ∀ rest, c.rest ≠ '@' :: rest) :
    EndsBefore (fun _ => true) c := by
  unfold EndsBefore Cursor.continuation
  cases Cursor.binaryOperator? c.rest with
  | some found => exact .inr ⟨_, _, rfl, rfl⟩
  | none =>
    dsimp only
    split
    · rename_i rest hrest
      exact absurd hrest (hpower rest)
    · rename_i rest hrest
      exact absurd hrest (hat rest)
    · exact .inl rfl

/-- **The rule for what belongs to an operand.** Where it refuses, the operand
ends. -/
theorem postfix_answers (c : Cursor) :
    (∃ y : Except ParseError (Postfix × Cursor), either power atTemperature c = .ofExcept y
        ∧ c.continuation = y.map fun x => some (x.1.continuation, x.2))
      ∨ (∃ e, either power atTemperature c = .refused e) ∧ EndsBefore (fun _ => true) c := by
  by_cases hpower : ∃ rest, c.rest = '^' :: rest
  · obtain ⟨rest, hrest⟩ := hpower
    refine .inl ⟨_, Outcome.either_ofExcept (power_eq hrest), ?_⟩
    rw [continuation_of_caret hrest]
    cases (c.accept ['^'] rest).2.exponent (c.accept ['^'] rest).1 with
    | error e => rfl
    | ok x => rfl
  have hcaret : ∀ rest, c.rest ≠ '^' :: rest := not_exists.mp hpower
  have hrefused : power c = .refused ⟨c.position.offset, .expected (.mark ['^'])⟩ := by
    unfold power
    rw [@convertErrors_mark_absent c ['^'] hcaret]
    rfl
  rw [either_of_refused hrefused]
  by_cases hat : ∃ rest, c.rest = '@' :: rest
  · obtain ⟨rest, hrest⟩ := hat
    refine .inl ⟨_, atTemperature_eq hrest, ?_⟩
    rw [continuation_of_at hrest]
    cases (c.accept ['@'] rest).2.temperature (c.accept ['@'] rest).1 with
    | error e => rfl
    | ok x => rfl
  have hsign : ∀ rest, c.rest ≠ '@' :: rest := not_exists.mp hat
  have hrefused' : atTemperature c = .refused ⟨c.position.offset, .expected (.mark ['@'])⟩ := by
    unfold atTemperature
    rw [@convertErrors_mark_absent c ['@'] hsign]
    rfl
  exact .inr ⟨⟨_, hrefused'⟩, endsBefore_of_ne hcaret hsign⟩

end Postfixes

end WorstCase.Grammar
