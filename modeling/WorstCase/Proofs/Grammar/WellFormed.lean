import WorstCase.Proofs.Grammar.Descent

/-!
# Every parse failure is well formed

No text trips the rules of the grammar, and what they say of it is what the
steps of the reader say (`parse_wellFormed`). So a parse error is one of the
faults that are reported: a number that breaks off, something incomplete or out
of range, something missing at the very start or left over at the very end. That
a token was not there, or that characters were not, is never said: every rule
that may be the last one tried gives its refusals a reason of its own. Where the
fault shows and what it is blamed on are places in the text.
-/

namespace WorstCase

namespace Grammar

variable {dialect : Dialect} {start : ParseFault} {c : Cursor} {depth : Nat}

/-! ## Expressions -/

/-- **The rule for expressions comes to what the reader says.** Where it refuses,
the fault that the reader gives is the one for the very start. -/
inductive Comes (start : ParseFault) (c : Cursor) : Outcome Reason (Expr Binary64 × Cursor) →
    Except ParseError (Expr Binary64 × Cursor) → Prop
  | read {e : Expr Binary64} {next : Cursor} (hstands : Stands c e.extent next) :
    Comes start c (.read (e, next)) (.ok (e, next))
  | refused : Comes start c (.refused ⟨c.position.offset, .fault .missingExpression⟩)
      (.error ⟨c.position.offset, start⟩)
  | failed (e : ParseError) : Comes start c (.failed (.ofError e)) (.error e)

theorem expression_comes (dialect : Dialect) (start : ParseFault) (hdepth : c.rest.length < depth) :
    Comes start c (expression dialect depth c) (c.expr dialect start) := by
  have h := expression_steers dialect depth start {} c rfl rfl hdepth
  unfold Cursor.expr
  generalize hsteps : readSteps dialect start {} c = x at h ⊢
  generalize expression dialect depth c = o at h ⊢
  cases h with
  | @read e next hstands hends h =>
    have hdone : readSteps dialect start { operand := some e } next = .ok (e, next) := by
      refine readSteps_of_done ?_
      rw [step_of_continuation_none rfl hends.continuation]
      rfl
    rw [h, hdone]
    exact .read hstands
  | refused h =>
    rw [h]
    exact .refused
  | failed h =>
    rw [h]
    exact .failed _

/-! ## Statements -/

section Assignments

variable {inner : Rule Reason (Expr Binary64)} {e : ParseError}

theorem assignment_failed (h : c.assignment = .error e) :
    assignment inner c = .failed (.ofError e) := by
  have hname := (name_answers c).convertErrors
  unfold Cursor.assignment at h
  unfold assignment
  generalize convertErrors name c = o at hname ⊢
  generalize c.token Lexeme.name = r at hname h
  cases hname with
  | failed e =>
    cases h
    rfl
  | refused reason _ => cases h
  | read x =>
    rw [Except.ok_bind] at h
    dsimp only at h
    split at h <;> cases h

theorem assignment_refused (h : c.assignment = .ok none) :
    ∃ e, assignment inner c = .refused e := by
  have hname := (name_answers c).convertErrors
  unfold Cursor.assignment at h
  unfold assignment
  generalize convertErrors name c = o at hname ⊢
  generalize c.token Lexeme.name = r at hname h
  cases hname with
  | failed e => cases h
  | refused reason _ => exact ⟨_, rfl⟩
  | read x =>
    rw [Except.ok_bind] at h
    dsimp only at h
    split at h
    · cases h
    · rename_i hsign
      have habsent : convertErrors (mark ['=']) x.2 = _ := convertErrors_mark_absent hsign
      rw [Outcome.read_bind]
      dsimp only
      rw [habsent]
      exact ⟨_, rfl⟩

/-- **A name with the sign for assignments** behind it. -/
theorem assignment_found {name sign : Token} {next : Cursor}
    (h : c.assignment = .ok (some (name, sign, next))) :
    Stands c (name.extent.through sign.extent) next
      ∧ assignment inner c = (do
          let (value, last) ← orFailWith inner
            (fun _ => .ok (.fault (.missingValue sign.span))) id next
          let extent ← .extent name.extent value.extent
          return (.assign extent (name.node (String.ofList name.text)) value, last)) := by
  have hname := (name_answers c).convertErrors
  unfold Cursor.assignment at h
  unfold assignment
  generalize convertErrors Grammar.name c = o at hname ⊢
  generalize hread : c.token Lexeme.name = r at hname h
  cases hname with
  | failed e => cases h
  | refused reason _ => cases h
  | read x =>
    rw [Except.ok_bind] at h
    dsimp only at h
    split at h
    · rename_i rest hrest
      cases h
      rw [Outcome.read_bind]
      dsimp only
      rw [convertErrors_mark ['='] hrest, Outcome.read_bind]
      exact ⟨(token_stands Lexeme.name_spells hread).through (accept_stands ['='] hrest), rfl⟩
    · cases h

end Assignments

/-! ## Whole texts -/

/-- **A whole text**: what the rule comes to at its start is accepted, if nothing
is left over. -/
theorem parse_eq {α : Type} {rule : Rule Reason α} {text : List Char}
    {x : Except ParseError (α × Cursor)}
    (h : (rule (Cursor.ofText text)).answer = .ok (x.mapError .ofError)) :
    parse rule text = .ok ((x >>= finish).mapError .ofError) := by
  have hparse : parse rule text
      = (allConsuming rule (Cursor.ofText text) >>= fun y => pure y.1).answer := rfl
  rw [hparse]
  unfold allConsuming
  dsimp only
  generalize rule (Cursor.ofText text) = o at h ⊢
  cases o with
  | read y =>
    cases x with
    | error e => cases h
    | ok y =>
      cases h
      rw [Outcome.read_bind, Except.ok_bind]
      unfold finish
      by_cases hrest : y.2.rest = []
      · rw [if_pos hrest, if_pos hrest]
        rfl
      · rw [if_neg hrest, if_neg hrest]
        rfl
  | refused e | failed e =>
    cases x with
    | error err =>
      cases h
      rfl
    | ok y => cases h
  | starved => cases h
  | tripped s => cases h

/-- The rest of a text is not longer than the text. -/
theorem ofText_length_lt (text : List Char) : (Cursor.ofText text).rest.length < text.length + 1 :=
  Nat.lt_succ_of_le (Cursor.skipBlanks_length_le _)

/-- **The rules parse expressions as the steps do**, and no text trips them. -/
theorem parseExpression_rules (dialect : Dialect) (text : List Char) :
    Grammar.parseExpression dialect text
      = .ok ((WorstCase.parseExpression dialect text).mapError .ofError) := by
  have hcomes := expression_comes dialect .missingExpression (ofText_length_lt text)
  refine parse_eq ?_
  generalize expression dialect _ (Cursor.ofText text) = o at hcomes ⊢
  generalize (Cursor.ofText text).expr dialect .missingExpression = x at hcomes ⊢
  cases hcomes with
  | read hstands => rfl
  | refused => rfl
  | failed e => rfl

/-- What a statement comes to that is no assignment. -/
theorem statement_answer (dialect : Dialect) (hdepth : c.rest.length < depth)
    (h : c.assignment = .ok none) :
    (statement (expression dialect depth) c).answer
      = .ok ((c.expr dialect .missingExpression >>= fun x =>
          .ok (Statement.expression x.1, x.2)).mapError .ofError) := by
  obtain ⟨e, hrefused⟩ : ∃ e, assignment (expression dialect depth) c = .refused e :=
    assignment_refused h
  have hcomes := expression_comes dialect .missingExpression hdepth
  unfold statement
  rw [either_of_refused hrefused]
  generalize expression dialect depth c = o at hcomes ⊢
  generalize c.expr dialect .missingExpression = x at hcomes ⊢
  cases hcomes with
  | read hstands => rfl
  | refused => rfl
  | failed e => rfl

/-- What an assignment comes to. -/
theorem statement_answer_assign (dialect : Dialect) {name sign : Token} {next : Cursor}
    (hdepth : c.rest.length < depth) (h : c.assignment = .ok (some (name, sign, next))) :
    (statement (expression dialect depth) c).answer
      = .ok ((next.expr dialect (.missingValue sign.span) >>= fun x =>
          .ok (Statement.assign (name.extent.through x.1.extent)
            (name.node (String.ofList name.text)) x.1, x.2)).mapError .ofError) := by
  obtain ⟨hfront, hassignment⟩ : _ ∧ assignment (expression dialect depth) c = _ :=
    assignment_found h
  have hcomes := expression_comes dialect (.missingValue sign.span)
    (Nat.lt_of_le_of_lt hfront.length_le hdepth)
  generalize hvalue : expression dialect depth next = o at hcomes
  generalize next.expr dialect (.missingValue sign.span) = x at hcomes ⊢
  cases hcomes with
  | @read e last hstands =>
    have hwhole : Stands c (name.extent.through e.extent) last := hfront.through hstands
    rw [orFailWith_of_read hvalue, Outcome.read_bind] at hassignment
    dsimp only at hassignment
    rw [hwhole.extent, Outcome.read_bind] at hassignment
    unfold statement
    rw [either_of_read hassignment]
    rfl
  | refused =>
    rw [orFailWith_of_refused hvalue] at hassignment
    unfold statement
    rw [either_of_failed hassignment]
    rfl
  | failed e =>
    rw [orFailWith_of_failed hvalue] at hassignment
    unfold statement
    rw [either_of_failed hassignment]
    rfl

/-- **The rules parse statements as the steps do**, and no text trips them. -/
theorem parseStatement_rules (dialect : Dialect) (text : List Char) :
    Grammar.parseStatement dialect text
      = .ok ((WorstCase.parseStatement dialect text).mapError .ofError) := by
  have hlength := ofText_length_lt text
  unfold Grammar.parseStatement WorstCase.parseStatement
  dsimp only
  cases hassignment : (Cursor.ofText text).assignment with
  | error e =>
    have hfailed : (statement (expression dialect (text.length + 1)) (Cursor.ofText text)).answer
        = .ok (.error (.ofError e)) := by
      unfold statement
      rw [either_of_failed (assignment_failed hassignment)]
      rfl
    exact parse_eq (x := .error e) hfailed
  | ok found =>
  rw [Except.ok_bind]
  cases found with
  | none =>
    refine (parse_eq (statement_answer dialect hlength hassignment)).trans ?_
    cases (Cursor.ofText text).expr dialect .missingExpression with
    | error e => rfl
    | ok x => rfl
  | some found =>
    obtain ⟨name, sign, next⟩ := found
    refine (parse_eq (statement_answer_assign dialect hlength hassignment)).trans ?_
    dsimp only
    cases next.expr dialect (.missingValue sign.span) with
    | error e => rfl
    | ok x => rfl

/-! ## Complaints -/

/-- **A complaint about a text that is well formed.** -/
structure Complaint.WellFormed (text : List Char) (e : Complaint Reason) : Prop where
  /-- It shows in the text, or at its end. -/
  offset_le : e.offset ≤ byteSize text
  /-- It does not show inside a character. -/
  isPlace : IsPlace text e.offset
  /-- It is one of the faults that are reported. What the fault is blamed on is in the
  text, and lies to the complaint's own place as it should. -/
  isFault : ∃ f, e.reason = .fault f ∧ f.PlacedIn text e.offset

/-- An error whose places are in the text makes such a complaint. -/
theorem Complaint.wellFormed_ofError {text : List Char} {e : ParseError} (h : e.PlacedIn text) :
    (ofError e).WellFormed text where
  offset_le := by
    obtain ⟨before, hbefore, hoffset⟩ := h.isPlace
    show e.offset ≤ byteSize text
    rw [hoffset]
    exact byteSize_le_of_isPrefix hbefore
  isPlace := h.isPlace
  isFault := ⟨e.fault, rfl, h.fault⟩

/-- So do all errors of a reader. -/
theorem Complaint.wellFormed_of_mapError {α : Type} {text : List Char} {x : Except ParseError α}
    (hplaced : ∀ {e}, x = .error e → e.PlacedIn text) {e : Complaint Reason}
    (h : x.mapError ofError = .error e) : e.WellFormed text := by
  cases x with
  | ok a => cases h
  | error err =>
    cases h
    exact wellFormed_ofError (hplaced rfl)

end Grammar

/-- **Every parse failure is well formed.** The rules of the grammar come to an
answer on every text, which is the reader's answer, and no assumption of theirs is
ever wrong; if the answer is a complaint, it is well formed. -/
theorem parse_wellFormed (dialect : Dialect) (text : List Char) :
    (∃ answer, Grammar.parseStatement dialect text = .ok answer
        ∧ answer = (parseStatement dialect text).mapError .ofError
        ∧ ∀ e, answer = .error e → e.WellFormed text)
      ∧ ∃ answer, Grammar.parseExpression dialect text = .ok answer
        ∧ answer = (parseExpression dialect text).mapError .ofError
        ∧ ∀ e, answer = .error e → e.WellFormed text := by
  exact ⟨⟨_, Grammar.parseStatement_rules dialect text, rfl,
      fun _ => Grammar.Complaint.wellFormed_of_mapError parseStatement_placed⟩,
    ⟨_, Grammar.parseExpression_rules dialect text, rfl,
      fun _ => Grammar.Complaint.wellFormed_of_mapError parseExpression_placed⟩⟩

/-- The text `1+` lacks an operand at its end, after the sign that is blamed. -/
theorem parse_wellFormed_sum :
    Grammar.parseStatement {} ['1', '+']
        = .ok (.error ⟨2, .fault (.missingOperand .add ⟨⟨1, 1, 2⟩, ⟨2, 1, 3⟩⟩)⟩)
      ∧ Grammar.Complaint.WellFormed ['1', '+']
        ⟨2, .fault (.missingOperand .add ⟨⟨1, 1, 2⟩, ⟨2, 1, 3⟩⟩)⟩ := by
  obtain ⟨answer, hrules, -, hwellFormed⟩ := (parse_wellFormed {} ['1', '+']).1
  have hanswer : Grammar.parseStatement {} ['1', '+']
      = .ok (.error ⟨2, .fault (.missingOperand .add ⟨⟨1, 1, 2⟩, ⟨2, 1, 3⟩⟩)⟩) := by
    decide +kernel
  refine ⟨hanswer, hwellFormed _ ?_⟩
  rw [hrules] at hanswer
  exact Except.ok.inj hanswer

end WorstCase
