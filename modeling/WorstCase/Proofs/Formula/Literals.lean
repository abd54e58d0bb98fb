import WorstCase.Proofs.Formula.Faults
import WorstCase.Proofs.Formula.Truncation

/-!
# Where literals were read

The literals of a tree stand where they were read, and a step of the reader reads at most one
(`step_literals`): the one that is next, if an operand is expected. So a literal of the whole formula that
none of the steps so far has read is still to come, at the cursor or behind it (`readSteps_literals`), and
all of it is left there (`Cursor.IsAt.prefixed_behind`).

How a literal is written can be told from its span: the number comes first, and what comes directly behind
the number is its prefix, if it has one (`Span.WrittenWith`).
-/

namespace WorstCase

open Lexeme (Numeral)

/-! ## The literals of a tree -/

/-- **The spans of the literals in an expression**, from left to right. -/
def Expr.literals {S : Type} : Expr S → List Span
  | .binary _ _ left right => left.literals ++ right.literals
  | .power _ base _ => base.literals
  | .atTemperature _ base _ => base.literals
  | .group _ inner => inner.literals
  | .var .. => []
  | .literal extent _ => [extent.span]

/-- The same of a statement. -/
def Statement.literals {S : Type} : Statement S → List Span
  | .assign _ _ value => value.literals
  | .expression value => value.literals

/-- The literals in what waits for an operand, if something does. -/
def Waiting.literals (waiting : Option Waiting) : List Span :=
  waiting.elim [] fun w => w.1.literals

/-- All literals that wait inside one pair of brackets. -/
def Pending.literals (p : Pending) : List Span := Waiting.literals p.sum ++ Waiting.literals p.product

/-- The literals that wait around the brackets that are open. -/
def Progress.outerLiterals : List (Token × Pending) → List Span
  | [] => []
  | (_, pending) :: outer => outerLiterals outer ++ pending.literals

/-- **All literals that have been read.** -/
def Progress.literals (p : Progress) : List Span :=
  outerLiterals p.outer ++ p.pending.literals ++ p.operand.elim [] Expr.literals

theorem literals_joinTo (waiting : Option Waiting) (e : Expr Binary64) :
    (joinTo waiting e).literals = Waiting.literals waiting ++ e.literals := by
  cases waiting <;> rfl

namespace Pending

variable (p : Pending) (e : Expr Binary64)

theorem literals_total : (p.total e).literals = p.literals ++ e.literals := by
  rw [total, literals_joinTo, factor, literals_joinTo, literals, List.append_assoc]

theorem literals_push (op : Node BinaryOperator) :
    (p.push e op).literals = p.literals ++ e.literals := by
  unfold push
  split
  · show (p.total e).literals ++ [] = _
    rw [literals_total, List.append_nil]
  · show Waiting.literals p.sum ++ (p.factor e).literals = _
    rw [factor, literals_joinTo, literals, List.append_assoc]

end Pending

/-! ## Steps -/

section Steps

variable {dialect : Dialect} {atStart : ParseFault} {p q : Progress} {c next : Cursor}
  {e x : Expr Binary64}

/-- What is read as a literal is one. -/
theorem Cursor.literals_literal (h : c.literal dialect = .ok (some (e, next))) :
    e.literals = [e.span] ∧ e.span.start = c.position := by
  obtain ⟨l, rfl, -⟩ := literal_eq_some h
  exact ⟨rfl, rfl⟩

/-- No literal is read with a name. -/
theorem Cursor.literals_var (h : c.var = .ok (some (e, next))) : e.literals = [] := by
  obtain ⟨name, rfl, -⟩ := var_eq_some {} h
  rfl

/-- Where a magnitude is next, a literal is, or none can be read. -/
theorem Cursor.literal_ne_none {r : Token × Cursor}
    (h : c.token (Lexeme.magnitude dialect) = .ok (some r)) : c.literal dialect ≠ .ok none := by
  intro hnone
  unfold literal at hnone
  obtain ⟨_, htoken, hnone⟩ := Except.bind_eq_ok.mp hnone
  cases h.symm.trans htoken
  obtain ⟨_, -, hnone⟩ := Except.bind_eq_ok.mp hnone
  obtain ⟨_, -, hnone⟩ := Except.bind_eq_ok.mp hnone
  obtain ⟨_, -, hnone⟩ := Except.bind_eq_ok.mp hnone
  cases hnone

/-- A literal that is next is the operand that is next. -/
theorem Cursor.operand_of_literal (h : c.literal dialect = .ok (some (e, next))) :
    c.operand dialect = .ok (some (.atom e, next)) := by
  unfold operand
  rw [h]
  rfl

/-- If it fails, so does the operand. -/
theorem Cursor.operand_of_literal_error {err : ParseError} (h : c.literal dialect = .error err) :
    c.operand dialect = .error err := by
  unfold operand
  rw [h]
  rfl

/-- **The operand that is next** is a literal, or else a variable, or else a bracket. -/
theorem Cursor.operand_cases {o : Operand} (h : c.operand dialect = .ok (some (o, next))) :
    (∃ e, o = .atom e ∧ c.literal dialect = .ok (some (e, next)))
      ∨ (∃ e, o = .atom e ∧ c.var = .ok (some (e, next)))
      ∨ ∃ bracket, o = .opening bracket := by
  unfold operand at h
  obtain ⟨r, hr, h⟩ := Except.bind_eq_ok.mp h
  cases r with
  | some found =>
    cases h
    exact .inl ⟨_, rfl, hr⟩
  | none =>
    obtain ⟨s, hs, h⟩ := Except.bind_eq_ok.mp h
    cases s with
    | some found =>
      cases h
      exact .inr (.inl ⟨_, rfl, hs⟩)
    | none =>
      dsimp only at h
      split at h
      · cases h
        exact .inr (.inr ⟨_, rfl⟩)
      · cases h

/-- **A step reads a literal or none.** If it does, the literal starts where the reader stands. -/
theorem step_literals (h : step dialect atStart p c = .more q next) :
    q.literals = p.literals ∨ ∃ e, p.operand = none ∧ c.literal dialect = .ok (some (e, next))
      ∧ q = { p with operand := some e } ∧ q.literals = p.literals ++ [e.span] := by
  obtain ⟨pending, outer, operand⟩ := p
  cases operand with
  | none =>
    unfold step stepOperand at h
    dsimp only at h
    split at h
    · cases h
    · cases h
    · rename_i e₁ c₁ ho
      cases h
      rcases Cursor.operand_cases ho with ⟨_, ⟨⟩, hliteral⟩ | ⟨_, ⟨⟩, hvar⟩ | ⟨_, ⟨⟩⟩
      · refine .inr ⟨_, rfl, hliteral, rfl, ?_⟩
        show Progress.outerLiterals outer ++ pending.literals ++ e₁.literals
          = Progress.outerLiterals outer ++ pending.literals ++ [] ++ [e₁.span]
        rw [(Cursor.literals_literal hliteral).1, List.append_nil]
      · refine .inl ?_
        show Progress.outerLiterals outer ++ pending.literals ++ e₁.literals
          = Progress.outerLiterals outer ++ pending.literals ++ []
        rw [Cursor.literals_var hvar]
    · cases h
      refine .inl ?_
      show Progress.outerLiterals outer ++ pending.literals ++ [] ++ [] = _
      rw [List.append_nil]
      rfl
  | some x =>
    refine .inl ?_
    unfold step stepContinuation at h
    dsimp only at h
    split at h
    · cases h
    · cases h
      show Progress.outerLiterals outer ++ (pending.push x _).literals ++ [] = _
      rw [Pending.literals_push, List.append_nil, ← List.append_assoc]
      rfl
    · cases h
      rfl
    · cases h
      rfl
    · cases outer with
      | nil => cases h
      | cons bracket outer =>
        unfold stepClose at h
        dsimp only at h
        split at h
        · cases h
          show Progress.outerLiterals outer ++ bracket.2.literals ++ (pending.total x).literals = _
          rw [Pending.literals_total, ← List.append_assoc]
          rfl
        · cases h

/-- The formula that is over has the literals that were read. -/
theorem literals_of_step_done (h : step dialect atStart p c = .done e next) :
    e.literals = p.literals := by
  obtain ⟨-, x, hx, -, hclose⟩ := step_eq_done h
  obtain ⟨pending, outer, operand⟩ := p
  obtain rfl : operand = some x := hx
  cases outer with
  | nil =>
    cases hclose
    exact pending.literals_total x
  | cons bracket outer =>
    unfold stepClose at hclose
    dsimp only at hclose
    split at hclose <;> cases hclose

/-- **A step goes on in the text.** -/
theorem step_reads (h : step dialect atStart p c = .more q next) : ∃ piece, c.Reads piece next := by
  unfold step at h
  split at h
  · unfold stepOperand at h
    split at h
    · cases h
    · cases h
    all_goals
      rename_i ho
      cases h
      obtain ⟨w, -, hreads⟩ := Cursor.operand_eq_some ho
      exact ⟨_, hreads⟩
  · unfold stepContinuation at h
    split at h
    · cases h
    iterate 3
      rename_i hk
      cases h
      obtain ⟨w, -, hreads⟩ := Cursor.continuation_eq_some hk
      exact ⟨_, hreads⟩
    unfold stepClose at h
    split at h
    · cases h
    · split at h
      · rename_i hrest
        cases h
        obtain ⟨_, -, hreads⟩ := Cursor.accept_reads [')'] hrest
        exact ⟨_, hreads⟩
      · cases h

/-! ## Reading -/

/-- **The literals of a formula are those that were read and those to come**, which start at the cursor or
behind it. By induction on the steps. -/
theorem readSteps_literals (h : readSteps dialect atStart p c = .ok (e, next)) :
    ∃ more, e.literals = p.literals ++ more ∧ ∀ s ∈ more, c.position.offset ≤ s.start.offset := by
  induction p, c using readSteps.induct dialect atStart with
  | case1 p c q m hstep ih =>
    rw [readSteps_of_more hstep] at h
    obtain ⟨more, hmore, hbehind⟩ := ih h
    have hle : c.position.offset ≤ m.position.offset := by
      obtain ⟨piece, hreads⟩ := step_reads hstep
      rw [hreads.position_eq, Position.offset_after]
      exact Nat.le_add_right _ _
    have hbehind' : ∀ s ∈ more, c.position.offset ≤ s.start.offset :=
      fun s hs => hle.trans (hbehind s hs)
    rcases step_literals hstep with hq | ⟨x, -, hliteral, -, hq⟩
    · exact ⟨more, by rw [hmore, hq], hbehind'⟩
    · refine ⟨x.span :: more, by rw [hmore, hq, List.append_assoc]; rfl, ?_⟩
      rw [List.forall_mem_cons]
      exact ⟨by rw [(Cursor.literals_literal hliteral).2], hbehind'⟩
  | case2 p c x m hstep =>
    rw [readSteps_of_done hstep] at h
    cases h
    exact ⟨[], by rw [literals_of_step_done hstep, List.append_nil], fun _ hs => absurd hs List.not_mem_nil⟩
  | case3 p c err hstep =>
    rw [readSteps_of_failed hstep] at h
    cases h

/-- A literal that was not read yet is still to come. -/
theorem readSteps_literal_behind (h : readSteps dialect atStart p c = .ok (e, next)) {s : Span}
    (hs : s ∈ e.literals) (hnew : s ∉ p.literals) : c.position.offset ≤ s.start.offset := by
  obtain ⟨more, hmore, hbehind⟩ := readSteps_literals h
  rw [hmore, List.mem_append] at hs
  exact hbehind s (hs.resolve_left hnew)

/-- A literal that was read is in the formula. -/
theorem readSteps_literal_before (h : readSteps dialect atStart p c = .ok (e, next)) {s : Span}
    (hs : s ∈ p.literals) : s ∈ e.literals := by
  obtain ⟨more, hmore, -⟩ := readSteps_literals h
  rw [hmore]
  exact List.mem_append_left _ hs

end Steps

/-! ## How literals are written -/

/-- **A literal that has a character directly behind its number**: in the text `front ++ c :: back`, the
number ends where `front` does, and the literal goes on with the character. -/
def Span.Prefixed (front : List Char) (c : Char) (back : List Char) (s : Span) : Prop :=
  ∃ (before : List Char) (n : Numeral) (piece after : List Char),
    front = before ++ n.text ∧ back = piece ++ after
      ∧ s = ⟨Position.start.after before, Position.start.after (before ++ (n.text ++ c :: piece))⟩

/-- **A literal of a text that is written with a character**, as its prefix, somewhere in the text. -/
def Span.WrittenWith (c : Char) (text : List Char) (s : Span) : Prop :=
  ∃ front back, text = front ++ c :: back ∧ s.Prefixed front c back

section Places

variable {before front back : List Char} {c : Cursor} {x : Char} {s : Span}

/-- A literal that is still to come is in the text that is left. -/
theorem Cursor.IsAt.prefixed_behind (hc : c.IsAt (front ++ x :: back) before)
    (hs : s.Prefixed front x back) (h : c.position.offset ≤ s.start.offset) :
    ∃ (more : List Char) (n : Numeral), c.rest = more ++ n.text ++ x :: back
      ∧ s.start.offset = c.position.offset + byteSize more := by
  obtain ⟨before', n, piece, after, rfl, -, rfl⟩ := hs
  have htext := hc.text_eq
  rw [List.append_assoc] at htext
  rw [hc.position_eq, offset_start_after, offset_start_after] at h
  obtain ⟨more, rfl⟩ : before <+: before' := by
    have hbefore : before <+: before' ++ (n.text ++ x :: back) := ⟨c.rest, htext.symm⟩
    rcases List.prefix_or_prefix_of_prefix hbefore (List.prefix_append _ _) with hle | ⟨more, rfl⟩
    · exact hle
    · rw [byteSize_append] at h
      have hnil : more = [] := byteSize_eq_zero.mp (by omega)
      exact ⟨[], by rw [hnil, List.append_nil, List.append_nil]⟩
  refine ⟨more, n, ?_, ?_⟩
  · rw [List.append_assoc] at htext
    rw [List.append_assoc]
    exact (List.append_cancel_left htext).symm
  · rw [hc.position_eq, offset_start_after, offset_start_after, byteSize_append]

/-- Of the literal that is next, the number is right there, and the prefix directly behind it. -/
theorem Cursor.IsAt.prefixed_here {dialect : Dialect} {e : Expr Binary64} {next : Cursor}
    (hc : c.IsAt (front ++ x :: back) before) (hliteral : c.literal dialect = .ok (some (e, next)))
    (he : e.span.Prefixed front x back) : ∃ n : Numeral, c.rest = n.text ++ x :: back := by
  have hstart := (literals_literal hliteral).2
  obtain ⟨more, n, hrest, hoffset⟩ := hc.prefixed_behind he (by rw [hstart])
  rw [hstart] at hoffset
  obtain rfl : more = [] := byteSize_eq_zero.mp (by omega)
  exact ⟨n, hrest⟩

end Places

end WorstCase
