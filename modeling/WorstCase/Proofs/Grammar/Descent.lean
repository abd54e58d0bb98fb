import WorstCase.Proofs.Grammar.Operands
import WorstCase.Proofs.Formula.Faults
import WorstCase.Proofs.Formula.Printing

/-!
# The rules read what the steps read

The rules descend from sums to products to operands, and into brackets; the steps
go from left to right and keep what waits for its right operand. Both read the
same expressions, and where one does not, neither does the other, with the same
fault at the same place.

The two are compared from a cursor where an operand is expected, with anything
waiting and any brackets open (`Leads`). While a rule reads operands of its level
with operators between them, what it has read is what waits in the steps, joined
to the operand just read; that is the invariant of its loop (`operation_leads` for
one turn, `operations_lead` for all), the same for products and for sums (`Level`).
A pair of brackets starts with nothing waiting, so the rule for an expression can be
used inside it; the induction is on how deep brackets may still be nested
(`expression_steers`).
-/

namespace WorstCase.Grammar

variable {dialect : Dialect} {start : ParseFault}

/-! ## Operators -/

section Operators

variable {c : Cursor}

theorem operator_of_read {op : BinaryOperator} {sign : Rule TokenFault Token} {x : Token × Cursor}
    (h : sign c = .read x) : operator op sign c = .read (x.1.node op, x.2) := by
  unfold operator
  rw [h]
  rfl

theorem operator_of_refused {op : BinaryOperator} {sign : Rule TokenFault Token}
    {e : Complaint TokenFault} (h : sign c = .refused e) : operator op sign c = .refused e := by
  unfold operator
  rw [h]
  rfl

/-- Where the text starts with neither sign, there is no operator of a sum. -/
theorem additiveOperator_refused (hadd : ∀ rest, c.rest ≠ ['+'] ++ rest)
    (hsub : ∀ rest, c.rest ≠ ['-'] ++ rest) : ∃ e, additiveOperator c = .refused e :=
  ⟨_, convertErrors_of_refused ((either_of_refused (operator_of_refused (mark_absent hadd))).trans
    (operator_of_refused (mark_absent hsub)))⟩

/-- Where the text starts with none of the signs, there is no operator of a
product. -/
theorem multiplicativeOperator_refused (hmul : ∀ rest, c.rest ≠ ['*'] ++ rest)
    (hdiv : ∀ rest, c.rest ≠ '/' :: rest) (hparallel : ∀ rest, c.rest ≠ ['|'] ++ rest) :
    ∃ e, multiplicativeOperator c = .refused e := by
  have hdivider : ∀ rest, c.rest ≠ ['/', '/'] ++ rest := fun rest h => hdiv _ h
  exact ⟨_, convertErrors_of_refused
    ((either_of_refused (operator_of_refused (mark_absent hmul))).trans
      ((either_of_refused (operator_of_refused (mark_absent hdivider))).trans
        ((either_of_refused (operator_of_refused (slash_absent hdiv))).trans
          (operator_of_refused (mark_absent hparallel)))))⟩

theorem ne_of_head {x y : Char} {more : List Char} (h : c.rest = y :: more) (hne : y ≠ x) :
    ∀ rest, c.rest ≠ x :: rest :=
  fun _ hrest => hne (List.cons.inj (h.symm.trans hrest)).1

/-- **The rules for operators** read the operator that goes on with a formula,
each of its own kind. -/
theorem operators_of_some {op : BinaryOperator} {lexeme rest : List Char}
    (h : Cursor.binaryOperator? c.rest = some (op, lexeme, rest)) :
    if op.isAdditive = true then
      additiveOperator c = .read ((c.accept lexeme rest).1.node op, (c.accept lexeme rest).2)
        ∧ ∃ e, multiplicativeOperator c = .refused e
    else
      multiplicativeOperator c = .read ((c.accept lexeme rest).1.node op, (c.accept lexeme rest).2)
        ∧ ∃ e, additiveOperator c = .refused e := by
  unfold Cursor.binaryOperator? at h
  -- One case for each mark; a rule is tried after those for the marks before it refuse.
  split at h
  · rename_i hrest
    cases h
    exact ⟨convertErrors_of_read (either_of_read (operator_of_read (mark_append ['+'] hrest))),
      multiplicativeOperator_refused (ne_of_head hrest (by decide)) (ne_of_head hrest (by decide))
        (ne_of_head hrest (by decide))⟩
  · rename_i hrest
    cases h
    have hadd : mark ['+'] c = _ := mark_absent (ne_of_head hrest (by decide))
    exact ⟨convertErrors_of_read ((either_of_refused (operator_of_refused hadd)).trans
        (operator_of_read (mark_append ['-'] hrest))),
      multiplicativeOperator_refused (ne_of_head hrest (by decide)) (ne_of_head hrest (by decide))
        (ne_of_head hrest (by decide))⟩
  · rename_i hrest
    cases h
    exact ⟨convertErrors_of_read (either_of_read (operator_of_read (mark_append ['*'] hrest))),
      additiveOperator_refused (ne_of_head hrest (by decide)) (ne_of_head hrest (by decide))⟩
  · rename_i hrest
    cases h
    have hmul : mark ['*'] c = _ := mark_absent (ne_of_head hrest (by decide))
    exact ⟨convertErrors_of_read ((either_of_refused (operator_of_refused hmul)).trans
        (either_of_read (operator_of_read (mark_append ['/', '/'] hrest)))),
      additiveOperator_refused (ne_of_head hrest (by decide)) (ne_of_head hrest (by decide))⟩
  · rename_i hsecond hrest
    cases h
    have hmul : mark ['*'] c = _ := mark_absent (ne_of_head hrest (by decide))
    have hdivider : mark ['/', '/'] c = _ := mark_absent fun more hmore =>
      hsecond more (List.cons.inj (hrest.symm.trans hmore)).2
    exact ⟨convertErrors_of_read ((either_of_refused (operator_of_refused hmul)).trans
        ((either_of_refused (operator_of_refused hdivider)).trans
          (either_of_read (operator_of_read (slash_append hrest hsecond))))),
      additiveOperator_refused (ne_of_head hrest (by decide)) (ne_of_head hrest (by decide))⟩
  · rename_i hrest
    cases h
    have hmul : mark ['*'] c = _ := mark_absent (ne_of_head hrest (by decide))
    have hdivider : mark ['/', '/'] c = _ := mark_absent fun more =>
      ne_of_head hrest (by decide) ('/' :: more)
    have hdiv : slash c = _ := slash_absent (ne_of_head hrest (by decide))
    exact ⟨convertErrors_of_read ((either_of_refused (operator_of_refused hmul)).trans
        ((either_of_refused (operator_of_refused hdivider)).trans
          ((either_of_refused (operator_of_refused hdiv)).trans
            (operator_of_read (mark_append ['|'] hrest))))),
      additiveOperator_refused (ne_of_head hrest (by decide)) (ne_of_head hrest (by decide))⟩
  · cases h

/-- Where no operator goes on with a formula, they refuse. -/
theorem operators_of_none (h : Cursor.binaryOperator? c.rest = none) :
    (∃ e, additiveOperator c = .refused e) ∧ ∃ e, multiplicativeOperator c = .refused e := by
  have hsome {x : Char} {rest : List Char} (hx : (Cursor.binaryOperator? (x :: rest)).isSome = true) :
      c.rest ≠ x :: rest := by
    intro hrest
    rw [← hrest, h] at hx
    cases hx
  have hslash (rest : List Char) : (Cursor.binaryOperator? ('/' :: rest)).isSome = true := by
    unfold Cursor.binaryOperator?
    split
    case h_7 hne _ => exact (hne rest rfl).elim
    all_goals rfl
  exact ⟨additiveOperator_refused (fun _ => hsome rfl) (fun _ => hsome rfl),
    multiplicativeOperator_refused (fun _ => hsome rfl) (fun rest => hsome (hslash rest))
      (fun _ => hsome rfl)⟩

end Operators

/-! ## What a rule comes to, and what the steps come to -/

/-- **A rule comes to what the steps come to.** The steps come to `x` from where
an operand is expected at `c`. What the rule reads is the operand that they have
before them at the cursor behind it, where it ends as it should. What it refuses
or fails with is what they fail with. -/
inductive Leads (dialect : Dialect) (start : ParseFault) (ends : Cursor → Prop) (p : Progress)
    (c : Cursor) (x : Except ParseError (Expr Binary64 × Cursor)) :
    Outcome Reason (Expr Binary64 × Cursor) → Prop
  | read {e : Expr Binary64} {next : Cursor} (hstands : Stands c e.extent next) (hends : ends next)
    (hsteps : x = readSteps dialect start { p with operand := some e } next) :
    Leads dialect start ends p c x (.read (e, next))
  | refused (hsteps : x = .error ⟨c.position.offset, p.missing start⟩) :
    Leads dialect start ends p c x (.refused ⟨c.position.offset, .fault .missingExpression⟩)
  | failed {e : ParseError} (hsteps : x = .error e) :
    Leads dialect start ends p c x (.failed (.ofError e))

/-- **A rule reads what the steps read**, at cursors with less text than a
number, and with nothing waiting that it cannot keep waiting. -/
def Steers (dialect : Dialect) (ready : Pending → Prop) (ends : Cursor → Prop) (bound : Nat)
    (rule : Rule Reason (Expr Binary64)) : Prop :=
  ∀ (start : ParseFault) (p : Progress) (c : Cursor), p.operand = none → ready p.pending →
    c.rest.length < bound → Leads dialect start ends p c (readSteps dialect start p c) (rule c)

/-! ## Operands -/

section Operands

variable {p : Progress} {pending : Pending} {outer : List (Token × Pending)} {c : Cursor}
  {inner : Rule Reason (Expr Binary64)} {bound : Nat}

theorem readSteps_of_operand_error {e : ParseError} (hp : p.operand = none)
    (h : c.operand dialect = .error e) : readSteps dialect start p c = .error e :=
  readSteps_of_failed (step_of_operand_error hp h)

theorem readSteps_of_operand_none (hp : p.operand = none) (h : c.operand dialect = .ok none) :
    readSteps dialect start p c = .error ⟨c.position.offset, p.missing start⟩ := by
  refine readSteps_of_failed ?_
  unfold step stepOperand
  rw [hp, h]

theorem step_of_continuation_none {q : Progress} {e : Expr Binary64} (hq : q.operand = some e)
    (h : c.continuation = .ok none) : step dialect start q c = stepClose q e c := by
  unfold step stepContinuation
  rw [hq, h]

theorem EndsBefore.continuation (h : EndsBefore (fun _ => false) c) : c.continuation = .ok none := by
  rcases h with h | ⟨op, next, -, hop⟩
  · exact h
  · cases hop

/-- **An expression in brackets** comes to what the steps come to behind the
opening one. -/
theorem group_leads (hinner : Steers dialect (· = {}) (EndsBefore fun _ => false) bound inner)
    {rest : List Char} (hrest : c.rest = '(' :: rest) (hbound : c.rest.length < bound + 1) :
    Leads dialect start (fun _ => True) p c
      (readSteps dialect start { outer := ((c.accept ['('] rest).1, p.pending) :: p.outer }
        (c.accept ['('] rest).2)
      (group inner c) := by
  have hopening := accept_stands ['('] hrest
  have hlength := Cursor.accept_length_lt ['('] hrest (List.cons_ne_nil _ _)
  unfold group
  rw [convertErrors_mark ['('] hrest, Outcome.read_bind]
  generalize c.accept ['('] rest = opened at hopening hlength ⊢
  obtain ⟨opening, c₁⟩ := opened
  dsimp only at hopening hlength ⊢
  have h := hinner start { outer := (opening, p.pending) :: p.outer } c₁ rfl rfl (by omega)
  generalize readSteps dialect start _ c₁ = x at h ⊢
  generalize hread : inner c₁ = o at h
  cases h with
  | failed h =>
    rw [orFailWith_of_failed hread]
    exact .failed h
  | refused h =>
    rw [orFailWith_of_refused hread]
    exact .failed h
  | @read e next hstands hends h =>
    -- Nothing goes on behind the inner expression, so the steps close the bracket or fail.
    have hnone := hends.continuation
    rw [orFailWith_of_read hread, Outcome.read_bind]
    dsimp only
    by_cases hclosing : ∃ rest, next.rest = ')' :: rest
    · obtain ⟨rest, hrest⟩ := hclosing
      have hwhole : Stands c (opening.extent.through (next.accept [')'] rest).1.extent) _ :=
        (hopening.through hstands).through (accept_stands [')'] hrest)
      rw [orFailWith_of_read (mark_append [')'] hrest), Outcome.read_bind, hwhole.extent,
        Outcome.read_bind]
      refine .read hwhole trivial (h.trans (readSteps_of_more ?_))
      rw [step_of_continuation_none rfl hnone]
      unfold stepClose
      rw [hrest]
      rfl
    · have habsent : mark [')'] next = _ := mark_absent fun rest hrest => hclosing ⟨rest, hrest⟩
      rw [orFailWith_of_refused habsent]
      show Leads dialect start _ p c x
        (.failed (.ofError ⟨next.position.offset, .unclosedGroup opening.span⟩))
      refine .failed (h.trans (readSteps_of_failed ?_))
      rw [step_of_continuation_none rfl hnone]
      unfold stepClose
      dsimp only
      split
      · rename_i rest hrest
        exact absurd ⟨rest, hrest⟩ hclosing
      · rfl

/-- **A rule for what stands at a cursor by itself**, with another where it
refuses. What the first reads is an operand of the steps. -/
theorem either_leads {first second : Rule Reason (Expr Binary64)}
    {x : Except ParseError (Option (Expr Binary64 × Cursor))}
    (hanswers : Answers (fun _ => True) (first c) x)
    (herror : ∀ {e}, x = .error e → c.operand dialect = .error e)
    (hread : ∀ {e next}, x = .ok (some (e, next)) →
      c.operand dialect = .ok (some (.atom e, next)) ∧ Stands c e.extent next)
    (hsecond : x = .ok none →
      Leads dialect start (fun _ => True) ⟨pending, outer, none⟩ c
        (readSteps dialect start ⟨pending, outer, none⟩ c)
        (convertErrorTo second (fun _ => .ok (.fault .missingExpression)) id c)) :
    Leads dialect start (fun _ => True) ⟨pending, outer, none⟩ c
      (readSteps dialect start ⟨pending, outer, none⟩ c)
      (convertErrorTo (either first second) (fun _ => .ok (.fault .missingExpression)) id c) := by
  generalize hfirst : first c = o at hanswers
  cases hanswers with
  | failed e =>
    rw [convertErrorTo_of_failed (either_of_failed hfirst)]
    exact .failed (readSteps_of_operand_error rfl (herror rfl))
  | read y =>
    obtain ⟨hoperand, hstands⟩ := hread rfl
    rw [convertErrorTo_of_read (either_of_read hfirst)]
    exact .read hstands trivial (readSteps_atom hoperand)
  | refused =>
    have hnext : convertErrorTo (either first second) (fun _ => .ok (.fault .missingExpression)) id c
        = convertErrorTo second (fun _ => .ok (.fault .missingExpression)) id c := by
      unfold convertErrorTo
      rw [either_of_refused hfirst]
    rw [hnext]
    exact hsecond rfl

/-- Where neither a literal nor a variable stands, an operand is an expression in
brackets or missing. -/
theorem bracketed_leads (hinner : Steers dialect (· = {}) (EndsBefore fun _ => false) bound inner)
    (hliteral : c.literal dialect = .ok none) (hvar : c.var = .ok none)
    (hbound : c.rest.length < bound + 1) :
    Leads dialect start (fun _ => True) ⟨pending, outer, none⟩ c
      (readSteps dialect start ⟨pending, outer, none⟩ c)
      (convertErrorTo (group inner) (fun _ => .ok (.fault .missingExpression)) id c) := by
  by_cases hopening : ∃ rest, c.rest = '(' :: rest
  · obtain ⟨rest, hrest⟩ := hopening
    have hoperand : c.operand dialect
        = .ok (some (.opening (c.accept ['('] rest).1, (c.accept ['('] rest).2)) := by
      unfold Cursor.operand
      rw [hliteral, Except.ok_bind, hvar, hrest]
      rfl
    have hgroup : Leads dialect start _ ⟨pending, outer, none⟩ c _ _ :=
      group_leads hinner hrest hbound
    rw [readSteps_opening hoperand]
    generalize hinside : group inner c = o at hgroup
    cases hgroup with
    | read hstands hends hsteps =>
      rw [convertErrorTo_of_read hinside]
      exact .read hstands hends hsteps
    | refused hsteps =>
      rw [convertErrorTo_of_refused hinside]
      exact .refused hsteps
    | failed hsteps =>
      rw [convertErrorTo_of_failed hinside]
      exact .failed hsteps
  · have hoperand : c.operand dialect = .ok none := by
      unfold Cursor.operand
      rw [hliteral, Except.ok_bind, hvar]
      dsimp only
      rw [Except.ok_bind]
      dsimp only
      split
      · rename_i rest hrest
        exact absurd ⟨rest, hrest⟩ hopening
      · rfl
    have habsent : convertErrors (mark ['(']) c = _ :=
      convertErrors_mark_absent fun rest hrest => hopening ⟨rest, hrest⟩
    have hgroup : group inner c = .refused ⟨c.position.offset, .expected (.mark ['('])⟩ := by
      unfold group
      rw [habsent]
      rfl
    rw [convertErrorTo_of_refused hgroup]
    exact .refused (readSteps_of_operand_none rfl hoperand)

/-- **The rule for operands** comes to what the steps come to. -/
theorem primary_steers (hinner : Steers dialect (· = {}) (EndsBefore fun _ => false) bound inner) :
    Steers dialect (fun _ => True) (fun _ => True) (bound + 1) (primary dialect inner) := by
  rintro start ⟨pending, outer, operand⟩ c rfl - hbound
  refine either_leads (literal_answers dialect c) ?_ ?_ fun hliteral =>
    either_leads (var_answers c) ?_ ?_ fun hvar => bracketed_leads hinner hliteral hvar hbound
  · intro e he
    unfold Cursor.operand
    rw [he]
    rfl
  · intro e next hread
    refine ⟨?_, literal_stands hread⟩
    unfold Cursor.operand
    rw [hread]
    rfl
  · intro e he
    unfold Cursor.operand
    rw [hliteral, Except.ok_bind, he]
    rfl
  · intro e next hread
    refine ⟨?_, var_stands hread⟩
    unfold Cursor.operand
    rw [hliteral, Except.ok_bind, hread]
    rfl

end Operands

/-! ## Lists -/

section Lists

variable {α β : Type} {rule : Rule Reason β} {attach : α → β → Outcome Reason α} {a : α}
  {c next : Cursor}

theorem folded_of_refused {e : Complaint Reason} (h : rule c = .refused e) :
    folded rule attach a c = .read (a, c) := by
  unfold folded
  rw [many, h]
  rfl

theorem folded_of_failed {e : Complaint Reason} (h : rule c = .failed e) :
    folded rule attach a c = .failed e := by
  unfold folded
  rw [many, h]
  rfl

/-- **One more of a list** is put together with what is there. -/
theorem folded_of_read {b : β} {whole : α} (h : rule c = .read (b, next))
    (hlength : next.rest.length < c.rest.length) (hattach : attach a b = .read whole) :
    folded rule attach a c = folded rule attach whole next := by
  unfold folded
  rw [many, h]
  dsimp only
  rw [dif_pos hlength]
  cases many rule next with
  | read x =>
    rw [Outcome.read_bind, Outcome.read_bind, Outcome.pure_eq, Outcome.read_bind]
    dsimp only
    rw [List.foldlM_cons, hattach, Outcome.read_bind]
  | refused e => rfl
  | failed e => rfl
  | starved => rfl
  | tripped s => rfl

end Lists

/-! ## Operands with what follows them -/

section Postfixes

variable {p : Progress} {c c₀ : Cursor} {x : Except ParseError (Expr Binary64 × Cursor)}

/-- An operand with what follows it, as the steps have it. -/
def Postfix.applied (base : Expr Binary64) : Postfix → Expr Binary64
  | power exponent => base.raise exponent
  | atTemperature degrees => base.shift degrees

/-- Where the operand and what follows it stand in order, so they are put
together. -/
theorem Postfix.attach_eq {base : Expr Binary64} {more : Postfix} {next : Cursor}
    (h : Stands c₀ (base.extent.through (Continuation.extent more.continuation)) next) :
    Postfix.attach base more = .read (more.applied base)
      ∧ Stands c₀ (more.applied base).extent next := by
  cases more with
  | power exponent =>
    have hextent : (Outcome.extent base.extent exponent.extent : Outcome Reason Extent) = .read _ :=
      h.extent
    refine ⟨?_, h⟩
    unfold attach
    dsimp only
    rw [hextent]
    rfl
  | atTemperature degrees =>
    have hextent : (Outcome.extent base.extent degrees.extent : Outcome Reason Extent) = .read _ :=
      h.extent
    refine ⟨?_, h⟩
    unfold attach
    dsimp only
    rw [hextent]
    rfl

theorem readSteps_applied {e : Expr Binary64} {more : Postfix} {next : Cursor}
    (h : c.continuation = .ok (some (more.continuation, next))) :
    readSteps dialect start { p with operand := some e } c
      = readSteps dialect start { p with operand := some (more.applied e) } next := by
  cases more with
  | power exponent => exact readSteps_exponent h
  | atTemperature degrees => exact readSteps_temperature h

theorem step_of_continuation_error {e : Expr Binary64} {err : ParseError}
    (h : c.continuation = .error err) :
    step dialect start { p with operand := some e } c = .failed err := by
  unfold step stepContinuation
  dsimp only
  rw [h]

/-- **What follows an operand**, and what the steps come to behind the
operand. -/
theorem postfixes_lead {e : Expr Binary64} (hstands : Stands c₀ e.extent c)
    (hsteps : x = readSteps dialect start { p with operand := some e } c) :
    Leads dialect start (EndsBefore fun _ => true) p c₀ x
      (folded (either power atTemperature) Postfix.attach e c) := by
  induction hn : c.rest.length using Nat.strongRecOn generalizing e c with
  | ind n ih =>
  subst hn
  rcases postfix_answers c with ⟨y, hrule, hcontinuation⟩ | ⟨⟨err, hrefused⟩, hends⟩
  · cases y with
    | error err =>
      rw [folded_of_failed hrule]
      exact .failed (hsteps.trans (readSteps_of_failed (step_of_continuation_error hcontinuation)))
    | ok found =>
      obtain ⟨more, next⟩ := found
      have hlength := Cursor.continuation_length_lt hcontinuation
      obtain ⟨hattach, hwhole⟩ := Postfix.attach_eq (continuation_stands hstands hcontinuation)
      rw [folded_of_read hrule hlength hattach]
      exact ih _ hlength hwhole (hsteps.trans (readSteps_applied hcontinuation)) rfl
  · rw [folded_of_refused hrefused]
    exact .read hstands hends hsteps

/-- **The rule for an operand and all that follows it** comes to what the steps
come to. -/
theorem operand_steers {inner : Rule Reason (Expr Binary64)} {bound : Nat}
    (hinner : Steers dialect (· = {}) (EndsBefore fun _ => false) bound inner) :
    Steers dialect (fun _ => True) (EndsBefore fun _ => true) (bound + 1) (operand dialect inner) := by
  intro start p c hp hready hbound
  have hprimary := primary_steers hinner start p c hp hready hbound
  unfold operand
  generalize readSteps dialect start p c = x at hprimary ⊢
  generalize primary dialect inner c = o at hprimary ⊢
  cases hprimary with
  | read hstands _ hsteps => exact postfixes_lead hstands hsteps
  | refused hsteps => exact .refused hsteps
  | failed hsteps => exact .failed hsteps

end Postfixes

/-! ## Operands with operators between them -/

/-- **A level of the grammar.** An operator that may follow an operand is of one
of the kinds `below`. Those of the kinds `above` are left to the level above;
the others are read here, and what is read waits in the pending sums and products
as `hold` says. -/
structure Level (dialect : Dialect) (operator : Rule Reason (Node BinaryOperator))
    (below above : BinaryOperator → Bool) (hold : Option Waiting → Pending) : Prop where
  /-- An operator of this level is read. -/
  reads {c next : Cursor} {op : Node BinaryOperator} :
    c.continuation = .ok (some (.operator op, next)) → below op.value = true →
      above op.value = false → operator c = .read (op, next)
  /-- Where the level ends, no operator is read. -/
  refuses {c : Cursor} : EndsBefore above c → ∃ e, operator c = .refused e
  /-- The operator waits with what is to its left. -/
  push {op : Node BinaryOperator} : below op.value = true → above op.value = false →
    ∀ w e, (hold w).push e op = hold (some (joinTo w e, op))
  /-- The operand that is missing is missing after the operator that waits. -/
  lastOperator (left : Expr Binary64) (op : Node BinaryOperator) :
    (hold (some (left, op))).lastOperator = some op
  /-- Where the level ends, what waits might have been joined before. -/
  settles {c : Cursor} : EndsBefore above c → ∀ start outer w e,
    step dialect start ⟨hold w, outer, some e⟩ c
      = step dialect start ⟨hold none, outer, some (joinTo w e)⟩ c

section Levels

variable {c next : Cursor}

theorem binaryOperator?_of_continuation {op : Node BinaryOperator}
    (h : c.continuation = .ok (some (.operator op, next))) :
    ∃ lexeme rest, Cursor.binaryOperator? c.rest = some (op.value, lexeme, rest)
      ∧ op = (c.accept lexeme rest).1.node op.value ∧ next = (c.accept lexeme rest).2 := by
  unfold Cursor.continuation at h
  cases hop : Cursor.binaryOperator? c.rest with
  | some found =>
    obtain ⟨kind, lexeme, rest⟩ := found
    rw [hop] at h
    cases h
    exact ⟨lexeme, rest, rfl, rfl, rfl⟩
  | none =>
    rw [hop] at h
    dsimp only at h
    split at h
    · obtain ⟨_, -, h⟩ := Except.bind_eq_ok.mp h
      cases h
    · obtain ⟨_, -, h⟩ := Except.bind_eq_ok.mp h
      cases h
    · cases h

theorem binaryOperator?_of_continuation_none (h : c.continuation = .ok none) :
    Cursor.binaryOperator? c.rest = none := by
  unfold Cursor.continuation at h
  cases hop : Cursor.binaryOperator? c.rest with
  | some found =>
    rw [hop] at h
    cases h
  | none => rfl

/-- The level of products. What waits for a sum goes on waiting. -/
theorem level_product (q : Pending) :
    Level dialect multiplicativeOperator (fun _ => true) BinaryOperator.isAdditive
      fun w => { q with product := w } where
  reads h _ habove := by
    obtain ⟨lexeme, rest, hsome, hop, rfl⟩ := binaryOperator?_of_continuation h
    have hread := operators_of_some hsome
    rw [if_neg (Bool.eq_false_iff.mp habove), ← hop] at hread
    exact hread.1
  refuses h := by
    rcases h with h | ⟨op, next, h, hop⟩
    · exact (operators_of_none (binaryOperator?_of_continuation_none h)).2
    · obtain ⟨lexeme, rest, hsome, -, -⟩ := binaryOperator?_of_continuation h
      have hread := operators_of_some hsome
      rw [if_pos hop] at hread
      exact hread.2
  push _ habove w e := if_neg (Bool.eq_false_iff.mp habove)
  lastOperator left op := rfl
  settles h start outer w e := by
    unfold step stepContinuation
    rcases h with h | ⟨op, next, h, hop⟩
    · dsimp only
      rw [h]
      rfl
    · dsimp only
      rw [h]
      -- An operator of a sum joins what waits in the product, so it may be joined before.
      unfold Pending.push
      dsimp only
      rw [if_pos hop, if_pos hop]
      rfl

/-- The level of sums. -/
theorem level_sum :
    Level dialect additiveOperator BinaryOperator.isAdditive (fun _ => false)
      fun w => { sum := w } where
  reads h hbelow _ := by
    obtain ⟨lexeme, rest, hsome, hop, rfl⟩ := binaryOperator?_of_continuation h
    have hread := operators_of_some hsome
    rw [if_pos hbelow, ← hop] at hread
    exact hread.1
  refuses h := (operators_of_none (binaryOperator?_of_continuation_none h.continuation)).1
  push hbelow _ w e := if_pos hbelow
  lastOperator left op := rfl
  settles h start outer w e := by
    rw [step_of_continuation_none rfl h.continuation, step_of_continuation_none rfl h.continuation]
    rfl

theorem readSteps_congr {p q : Progress} {d : Cursor}
    (h : step dialect start p c = step dialect start q d) :
    readSteps dialect start p c = readSteps dialect start q d := by
  cases hq : step dialect start q d with
  | more r m => rw [readSteps_of_more (h.trans hq), readSteps_of_more hq]
  | done e m => rw [readSteps_of_done (h.trans hq), readSteps_of_done hq]
  | failed e => rw [readSteps_of_failed (h.trans hq), readSteps_of_failed hq]

section Loop

variable {operator : Rule Reason (Node BinaryOperator)} {operand : Rule Reason (Expr Binary64)}
  {below above : BinaryOperator → Bool} {hold : Option Waiting → Pending} {ready : Pending → Prop}
  {bound : Nat} {outer : List (Token × Pending)} {c₀ : Cursor}
  {x : Except ParseError (Expr Binary64 × Cursor)}

/-- **One operator of a level with its operand**, and what the steps come to. They
fail alike, or what the steps have before them behind the operand is that operand,
with the operator waiting; and the rule joins what it has read. -/
theorem operation_leads (hlevel : Level dialect operator below above hold)
    (hoperand : Steers dialect ready (EndsBefore below) bound operand)
    (hready : ∀ w, ready (hold w)) {w : Option Waiting} {e : Expr Binary64}
    {op : Node BinaryOperator} (hcontinuation : c.continuation = .ok (some (.operator op, next)))
    (hbelow : below op.value = true) (habove : above op.value = false)
    (hstands : Stands c₀ (joinTo w e).extent c) (hbound : c.rest.length < bound)
    (hsteps : x = readSteps dialect start ⟨hold w, outer, some e⟩ c) :
    (∃ err, operation operator operand c = .failed (.ofError err) ∧ x = .error err)
      ∨ ∃ right last, operation operator operand c = .read ((op, right), last)
        ∧ last.rest.length < c.rest.length ∧ EndsBefore below last
        ∧ join (joinTo w e) (op, right) = .read (joinTo (some (joinTo w e, op)) right)
        ∧ Stands c₀ (joinTo (some (joinTo w e, op)) right).extent last
        ∧ x = readSteps dialect start ⟨hold (some (joinTo w e, op)), outer, some right⟩ last := by
  have hlength := Cursor.continuation_length_lt hcontinuation
  have hright := hoperand start ⟨hold (some (joinTo w e, op)), outer, none⟩ next rfl (hready _)
    (Nat.lt_trans hlength hbound)
  rw [← hlevel.push hbelow habove, ← readSteps_operator hcontinuation, ← hsteps,
    hlevel.push hbelow habove] at hright
  have hoperation : operation operator operand c
      = (orFailWith operand (fun _ => .ok (.fault (.missingOperand op.value op.extent.span))) id next
        >>= fun r => .read ((op, r.1), r.2)) := by
    unfold operation
    rw [hlevel.reads hcontinuation hbelow habove]
    rfl
  generalize hoperand' : operand next = o at hright
  cases hright with
  | @failed err h =>
    rw [orFailWith_of_failed hoperand'] at hoperation
    exact .inl ⟨err, hoperation, h⟩
  | refused h =>
    rw [orFailWith_of_refused hoperand'] at hoperation
    unfold Progress.missing at h
    dsimp only at h
    rw [hlevel.lastOperator] at h
    exact .inl ⟨⟨next.position.offset, .missingOperand op.value op.extent.span⟩, hoperation, h⟩
  | @read right last hstandsRight hendsRight h =>
    rw [orFailWith_of_read hoperand', Outcome.read_bind] at hoperation
    have hwhole : Stands c₀ ((joinTo w e).extent.through right.extent) last :=
      (continuation_stands hstands hcontinuation).through hstandsRight
    have hjoin : join (joinTo w e) (op, right) = .read ((joinTo w e).join op right) := by
      unfold join
      rw [hwhole.extent]
      rfl
    exact .inr ⟨right, last, hoperation, Nat.lt_of_le_of_lt hstandsRight.length_le hlength,
      hendsRight, hjoin, hwhole, h⟩

/-- **The operators of a level with their operands**, and what the steps come to
behind the first operand. The induction is on the text that is left; what is
read from the left on is what waits, joined to the operand just read. -/
theorem operations_lead (hlevel : Level dialect operator below above hold)
    (hoperand : Steers dialect ready (EndsBefore below) bound operand)
    (hready : ∀ w, ready (hold w)) {w : Option Waiting} {e : Expr Binary64}
    (hstands : Stands c₀ (joinTo w e).extent c) (hends : EndsBefore below c)
    (hbound : c.rest.length < bound)
    (hsteps : x = readSteps dialect start ⟨hold w, outer, some e⟩ c) :
    Leads dialect start (EndsBefore above) ⟨hold none, outer, none⟩ c₀ x
      (folded (operation operator operand) join (joinTo w e) c) := by
  induction hn : c.rest.length using Nat.strongRecOn generalizing w e c with
  | ind n ih =>
  subst hn
  by_cases habove : EndsBefore above c
  · obtain ⟨err, hrefused⟩ := hlevel.refuses habove
    have hoperation : operation operator operand c = .refused err := by
      unfold operation
      rw [hrefused]
      rfl
    rw [folded_of_refused hoperation]
    exact .read hstands habove (hsteps.trans (readSteps_congr (hlevel.settles habove ..)))
  · -- An operator of this level goes on with the formula.
    obtain hnone | ⟨op, next, hcontinuation, hbelow⟩ := hends
    · exact absurd (.inl hnone) habove
    have hfalse : above op.value = false := by
      rw [Bool.eq_false_iff]
      exact fun h => habove (.inr ⟨op, next, hcontinuation, h⟩)
    rcases operation_leads hlevel hoperand hready hcontinuation hbelow hfalse hstands hbound hsteps
      with ⟨err, hoperation, h⟩ | ⟨right, last, hoperation, hlength, hends, hjoin, hwhole, h⟩
    · rw [folded_of_failed hoperation]
      exact .failed h
    · rw [folded_of_read hoperation hlength hjoin]
      exact ih _ hlength hwhole hends (Nat.lt_trans hlength hbound) h rfl

/-- **Operands with operators of a level between them.** -/
theorem leftAssociative_leads (hlevel : Level dialect operator below above hold)
    (hoperand : Steers dialect ready (EndsBefore below) bound operand)
    (hready : ∀ w, ready (hold w)) (hbound : c.rest.length < bound) {p : Progress}
    (hp : p = ⟨hold none, outer, none⟩) :
    Leads dialect start (EndsBefore above) p c (readSteps dialect start p c)
      (leftAssociative operator operand c) := by
  subst hp
  have hfirst := hoperand start ⟨hold none, outer, none⟩ c rfl (hready _) hbound
  unfold leftAssociative
  generalize readSteps dialect start _ c = x at hfirst ⊢
  generalize operand c = o at hfirst ⊢
  cases hfirst with
  | @read e next hstands hends hsteps =>
    exact operations_lead (w := none) hlevel hoperand hready hstands hends
      (Nat.lt_of_le_of_lt hstands.length_le hbound) hsteps
  | refused hsteps => exact .refused hsteps
  | failed hsteps => exact .failed hsteps

end Loop

/-- **The rule for products** comes to what the steps come to. -/
theorem product_steers {inner : Rule Reason (Expr Binary64)} {bound : Nat}
    (hinner : Steers dialect (· = {}) (EndsBefore fun _ => false) bound inner) :
    Steers dialect (fun q => q.product = none) (EndsBefore BinaryOperator.isAdditive) (bound + 1)
      (product dialect inner) := by
  rintro start ⟨⟨sum, product⟩, outer, operand⟩ c rfl hready hbound
  cases hready
  exact leftAssociative_leads (level_product ⟨sum, none⟩) (operand_steers hinner)
    (fun _ => trivial) hbound rfl

/-- **The rule for expressions** comes to what the steps come to, on texts that
are shorter than brackets may be deep. -/
theorem expression_steers (dialect : Dialect) (depth : Nat) :
    Steers dialect (· = {}) (EndsBefore fun _ => false) depth (expression dialect depth) := by
  induction depth with
  | zero => exact fun _ _ _ _ _ hbound => absurd hbound (Nat.not_lt_zero _)
  | succ depth ih =>
    rintro start ⟨pending, outer, operand⟩ c rfl hready hbound
    cases hready
    exact leftAssociative_leads level_sum (product_steers ih) (fun _ => rfl) hbound rfl

end Levels

end WorstCase.Grammar
