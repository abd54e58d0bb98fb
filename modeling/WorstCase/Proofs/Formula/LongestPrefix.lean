import WorstCase.Proofs.Formula.Assignments
import WorstCase.Proofs.Formula.Faults
import WorstCase.Proofs.Formula.Truncation

/-!
# Text that is left over

A text that starts with a formula and goes on with something else is refused at the place where the formula
is over. The error says more than that: what comes before this place is the longest beginning of the text
that is a formula (`MarksLongestPrefix`). Leaving off the end of a text never makes a formula of more of
it, though the reader goes on as far as it can and never goes back.

The reader itself has other errors (`Cursor.expr_expected`), so a text with this one has been read as a
formula up to some place. A shorter text that still has all of the formula is read to the same place, or is
left within a number behind it (`readSteps_cut`); and then something is left over of it too.

For lines the statement is that for expressions, since a line that starts with a name and the sign for
assignments goes on as an expression does, and one beginning of a line does so if and only if all longer
ones do.
-/

namespace WorstCase

open Lexeme (Stops)

/-! ## Errors of the reader -/

/-- **A computation that does not complain of text left over.** -/
def Expected {α : Type} (x : Except ParseError α) : Prop :=
  ∀ e, x = .error e → e.fault ≠ .unexpectedText

namespace Expected

variable {α β : Type}

theorem ok (a : α) : Expected (.ok a) := nofun

theorem error {e : ParseError} (h : e.fault ≠ .unexpectedText) : Expected (α := α) (.error e) := by
  rintro _ ⟨⟩
  exact h

theorem bind {x : Except ParseError α} {f : α → Except ParseError β} (hx : Expected x)
    (hf : ∀ a, Expected (f a)) : Expected (x >>= f) := by
  intro e he
  rcases Except.bind_eq_error.mp he with h | ⟨a, -, h⟩
  · exact hx e h
  · exact hf a e h

end Expected

theorem Token.readFinite_expected {t : Token} {text : List Char} {fault : Span → ParseFault}
    (hfault : ∀ s, fault s ≠ .unexpectedText) : Expected (t.readFinite text fault) := by
  unfold readFinite
  dsimp only
  split
  · exact .ok _
  · exact .error (hfault _)

theorem Token.readCoefficient_expected (t : Token) : Expected t.readCoefficient := by
  unfold readCoefficient
  dsimp only
  split
  · exact .ok _
  · exact .error nofun

theorem Literal.readOptional_expected {α : Type} {read : Token → Except ParseError α}
    (h : ∀ t, Expected (read t)) (o : Option Token) : Expected (readOptional read o) := by
  cases o with
  | none => exact .ok _
  | some t => exact fun e he => h t e (Except.map_eq_error.mp he)

theorem Literal.ofTokens_expected (t : Token) (tolerance coefficient : Option Token) :
    Expected (ofTokens t tolerance coefficient) := by
  unfold ofTokens
  refine (Token.readFinite_expected (by simp)).bind fun _ => ?_
  refine (readOptional_expected (fun _ => Token.readFinite_expected (by simp)) _).bind fun _ => ?_
  exact (readOptional_expected Token.readCoefficient_expected _).bind fun _ => .ok _

namespace Cursor

variable {dialect : Dialect} {c : Cursor}

theorem token_expected (scan : List Char → Scan) (c : Cursor) : Expected (c.token scan) := by
  unfold token
  split
  · exact .ok _
  · exact .ok _
  · exact .error nofun

theorem optionalToken_expected (scan : List Char → Scan) (c : Cursor) :
    Expected (c.optionalToken scan) := by
  refine (token_expected scan c).bind fun r => ?_
  cases r <;> exact .ok _

theorem literal_expected (dialect : Dialect) (c : Cursor) : Expected (c.literal dialect) := by
  refine (token_expected _ c).bind fun r => ?_
  cases r with
  | none => exact .ok _
  | some found =>
    refine (optionalToken_expected _ found.2).bind fun _ => ?_
    refine (optionalToken_expected _ _).bind fun _ => ?_
    exact (Literal.ofTokens_expected _ _ _).bind fun _ => .ok _

theorem operand_expected (dialect : Dialect) (c : Cursor) : Expected (c.operand dialect) := by
  refine (literal_expected dialect c).bind fun r => ?_
  cases r with
  | some found => exact .ok _
  | none =>
    have hvar : Expected c.var := by
      refine (token_expected _ c).bind fun r => ?_
      cases r <;> exact .ok _
    refine hvar.bind fun r => ?_
    cases r with
    | some found => exact .ok _
    | none =>
      dsimp only
      split <;> exact .ok _

theorem requiredNumber_expected {missing : ParseFault} (h : missing ≠ .unexpectedText) :
    Expected (c.requiredNumber missing) := by
  refine (token_expected _ c).bind fun r => ?_
  cases r with
  | some found => exact .ok _
  | none => exact .error h

theorem continuation_expected (c : Cursor) : Expected c.continuation := by
  unfold continuation
  split
  · exact .ok _
  · split
    · refine Expected.bind ?_ fun _ => .ok _
      refine (requiredNumber_expected (by simp)).bind fun _ => ?_
      exact (Token.readFinite_expected (by simp)).bind fun _ => .ok _
    · refine Expected.bind ?_ fun _ => .ok _
      refine (requiredNumber_expected (by simp)).bind fun _ => ?_
      exact (Token.readFinite_expected (by simp)).bind fun _ => .ok _
    · exact .ok _

end Cursor

section Steps

variable {dialect : Dialect} {atStart : ParseFault} {p : Progress} {c : Cursor} {e : ParseError}

/-- A step that fails has something else to say. -/
theorem step_expected (hstart : atStart ≠ .unexpectedText) (h : step dialect atStart p c = .failed e) :
    e.fault ≠ .unexpectedText := by
  unfold step at h
  split at h
  · unfold stepOperand at h
    split at h
    · rename_i hoperand
      cases h
      exact Cursor.operand_expected dialect c e hoperand
    · cases h
      show p.missing atStart ≠ _
      unfold Progress.missing
      split
      · exact nofun
      · split
        · exact nofun
        · exact hstart
    · cases h
    · cases h
  · unfold stepContinuation at h
    split at h
    · rename_i hcontinuation
      cases h
      exact Cursor.continuation_expected c e hcontinuation
    · cases h
    · cases h
    · cases h
    · unfold stepClose at h
      split at h
      · cases h
      · split at h
        · cases h
        · cases h
          exact nofun

/-- **The reader does not complain of text left over.** It stops in front of it. -/
theorem Cursor.expr_expected (dialect : Dialect) (hstart : atStart ≠ .unexpectedText) (c : Cursor) :
    Expected (c.expr dialect atStart) := by
  intro e h
  unfold expr at h
  generalize ({} : Progress) = p at h
  induction p, c using readSteps.induct dialect atStart with
  | case1 p c q m hstep ih =>
    rw [readSteps_of_more hstep] at h
    exact ih h
  | case2 p c y m hstep =>
    rw [readSteps_of_done hstep] at h
    cases h
  | case3 p c err hstep =>
    rw [readSteps_of_failed hstep] at h
    cases h
    exact step_expected hstart hstep

end Steps

/-! ## Beginnings of a text -/

/-- **The offset is where the longest beginning ends that is accepted**: there is one that ends there, it
is neither nothing nor all of the text, and none that is longer is accepted, the whole text included. -/
structure MarksLongestPrefix {α : Type} (parse : List Char → Except ParseError α) (text : List Char)
    (offset : Nat) : Prop where
  pos : 0 < offset
  lt : offset < byteSize text
  accepted : ∃ before, before <+: text ∧ byteSize before = offset ∧ ∃ a, parse before = .ok a
  longest : ∀ longer, longer <+: text → offset < byteSize longer → ¬∃ a, parse longer = .ok a

/-- A beginning that has more bytes than another goes on from it. -/
theorem exists_append_of_byteSize_lt {text before longer : List Char} (hbefore : before <+: text)
    (hlonger : longer <+: text) (h : byteSize before < byteSize longer) :
    ∃ more, more ≠ [] ∧ longer = before ++ more := by
  rcases List.prefix_or_prefix_of_prefix hbefore hlonger with ⟨more, rfl⟩ | hle
  · refine ⟨more, ?_, rfl⟩
    rintro rfl
    rw [List.append_nil] at h
    exact lt_irrefl _ h
  · exact absurd (byteSize_le_of_isPrefix hle) (Nat.not_le_of_lt h)

variable {dialect : Dialect} {text : List Char}

/-- **A beginning with all of the formula in it** is accepted if nothing follows, and refused otherwise. -/
theorem parseExpression_beginning {before : List Char} {e : Expr Binary64} {next : Cursor}
    (h : (Cursor.ofText text).expr dialect .missingExpression = .ok (e, next))
    (htext : text = before ++ next.rest) {more : List Char} (hmore : more <+: next.rest) :
    (more = [] → parseExpression dialect (before ++ more) = .ok e)
    ∧ (more ≠ [] → ∃ err, parseExpression dialect (before ++ more) = .error err) := by
  obtain ⟨n, hn, hrdrop⟩ : ∃ n ≤ next.rest.length, next.rest.rdrop n = more := by
    refine ⟨next.rest.length - more.length, Nat.sub_le _ _, ?_⟩
    rw [List.rdrop, Nat.sub_sub_self hmore.length_le]
    exact (List.prefix_iff_eq_take.mp hmore).symm
  have hstart : Cursor.ofText (before ++ more) = (Cursor.ofText text).cut n := by
    have hshort : before ++ more = text.rdrop n := by rw [htext, rdrop_append _ hn, hrdrop]
    rw [hshort]
    exact Cursor.skipBlanks_cut (c := ⟨Position.start, text⟩) (hn.trans (readSteps_length_le h))
  have hread : (next.cut n).rest = more := hrdrop
  unfold parseExpression
  rw [hstart]
  rcases readSteps_cut h hn with hcut | ⟨⟨err, hcut⟩, hlt⟩
  · change Cursor.expr dialect _ _ = _ at hcut
    rw [hcut]
    refine ⟨fun hnil => if_pos (hread.trans hnil), fun hne => ⟨_, if_neg ?_⟩⟩
    rwa [hread]
  · change Cursor.expr dialect _ _ = _ at hcut
    rw [hcut]
    refine ⟨fun hnil => ?_, fun _ => ⟨err, rfl⟩⟩
    have hzero := congrArg List.length (hrdrop.trans hnil)
    rw [List.rdrop, List.length_take, List.length_nil] at hzero
    omega

/-- **Where text is left over, the formula before it is the longest one.** -/
theorem parseExpression_marks {offset : Nat}
    (h : parseExpression dialect text = .error ⟨offset, .unexpectedText⟩) :
    MarksLongestPrefix (parseExpression dialect) text offset := by
  unfold parseExpression at h
  rcases Except.bind_eq_error.mp h with h | ⟨⟨e, next⟩, hread, h⟩
  · exact absurd rfl (Cursor.expr_expected dialect (by simp) _ _ h)
  · obtain ⟨w, -, hreads⟩ := Cursor.expr_written hread
    have hat := (Cursor.isAt_ofText text).reads hreads
    have hne : (Blanks.front text).val ++ w.text ≠ [] :=
      List.append_ne_nil_of_right_ne_nil _ (List.append_ne_nil_of_left_ne_nil w.stretch_ne_nil _)
    generalize (Blanks.front text).val ++ w.text = before at hat hne
    unfold finish at h
    split at h
    · cases h
    · rename_i hrest
      cases h
      have hoffset : byteSize before = next.position.offset := by
        rw [hat.position_eq, offset_start_after]
      have hbefore : before <+: text := ⟨next.rest, hat.text_eq.symm⟩
      have hbeginning {more : List Char} (hmore : more <+: next.rest) :=
        parseExpression_beginning hread hat.text_eq hmore
      refine ⟨?_, ?_, ⟨before, hbefore, hoffset, e, ?_⟩, ?_⟩
      · rwa [← hoffset, Nat.pos_iff_ne_zero, Ne, byteSize_eq_zero]
      · have hsize := (congrArg byteSize hat.text_eq).trans (byteSize_append _ _)
        have hleft : byteSize next.rest ≠ 0 := byteSize_eq_zero.not.mpr hrest
        rw [← hoffset]
        omega
      · rw [← List.append_nil before]
        exact (hbeginning List.nil_prefix).1 rfl
      · intro longer hlonger hlt
        rw [← hoffset] at hlt
        obtain ⟨more, hne, rfl⟩ := exists_append_of_byteSize_lt hbefore hlonger hlt
        rw [hat.text_eq, List.prefix_append_right_inj] at hlonger
        obtain ⟨err, herr⟩ := (hbeginning hlonger).2 hne
        rintro ⟨a, ha⟩
        rw [herr] at ha
        cases ha

/-! ## Lines -/

/-- What an assignment fails with is what its value fails with, behind its front. -/
theorem AssignmentFront.assign_eq_unexpected {a : AssignmentFront} {offset : Nat}
    {x : Except ParseError (Expr Binary64)} (h : a.assign x = .error ⟨offset, .unexpectedText⟩) :
    ∃ inner, x = .error ⟨inner, .unexpectedText⟩ ∧ offset = byteSize a.text + inner := by
  cases x with
  | ok e => cases h
  | error e =>
    obtain ⟨inner, fault⟩ := e
    obtain ⟨rfl, hfault⟩ : inner + byteSize a.text = offset
        ∧ fault.moved (byteSize a.text) (.missingValue a.signSpan) = .unexpectedText := by
      simpa [assign, ParseError.moved] using h
    obtain rfl : fault = .unexpectedText := by
      cases fault <;> first | rfl | cases hfault
    exact ⟨inner, rfl, Nat.add_comm _ _⟩

/-- An assignment is accepted where its value is. -/
theorem AssignmentFront.assign_isOk {a : AssignmentFront} {x : Except ParseError (Expr Binary64)} :
    (∃ s, a.assign x = .ok s) ↔ ∃ e, x = .ok e := by
  cases x with
  | ok e => exact iff_of_true ⟨_, rfl⟩ ⟨e, rfl⟩
  | error e => exact iff_of_false (fun ⟨_, h⟩ => nomatch h) (fun ⟨_, h⟩ => nomatch h)

/-- A line that does not start with an assignment is parsed as an expression. -/
theorem parseStatement_of_no_front (h : ¬∃ (a : AssignmentFront) (rest : List Char), text = a.text ++ rest) :
    parseStatement dialect text = (parseExpression dialect text).map .expression := by
  cases hassignment : (Cursor.ofText text).assignment with
  | error e => exact absurd hassignment Cursor.assignment_ne_error
  | ok found =>
    cases found with
    | some found => exact absurd (exists_front hassignment) h
    | none =>
      unfold parseStatement
      dsimp only
      rw [hassignment]
      exact bind_finish _ Statement.expression

/-- **The same for lines**: the error marks the longest beginning of the line that is one. -/
theorem parseStatement_marks {offset : Nat}
    (h : parseStatement dialect text = .error ⟨offset, .unexpectedText⟩) :
    MarksLongestPrefix (parseStatement dialect) text offset := by
  by_cases hfront : ∃ (a : AssignmentFront) (rest : List Char), text = a.text ++ rest
  · obtain ⟨a, rest, rfl⟩ := hfront
    rw [a.parseStatement_append] at h
    obtain ⟨inner, hinner, rfl⟩ := a.assign_eq_unexpected h
    obtain ⟨hpos, hlt, ⟨before, hbefore, hsize, haccepted⟩, hlongest⟩ := parseExpression_marks hinner
    refine ⟨by omega, ?_, ⟨a.text ++ before, ?_, ?_, ?_⟩, ?_⟩
    · rw [byteSize_append]
      omega
    · exact (List.prefix_append_right_inj _).mpr hbefore
    · rw [byteSize_append, hsize]
    · rw [a.parseStatement_append]
      exact AssignmentFront.assign_isOk.mpr haccepted
    · intro longer hlonger hlt
      have hfront : byteSize a.text < byteSize longer := by omega
      obtain ⟨more, -, rfl⟩ := exists_append_of_byteSize_lt (List.prefix_append _ _) hlonger hfront
      rw [List.prefix_append_right_inj] at hlonger
      rw [byteSize_append, Nat.add_lt_add_iff_left] at hlt
      rw [a.parseStatement_append, AssignmentFront.assign_isOk]
      exact hlongest more hlonger hlt
  · have hshort {u : List Char} (hu : u <+: text) :
        ¬∃ (a : AssignmentFront) (rest : List Char), u = a.text ++ rest := by
      rintro ⟨a, rest, rfl⟩
      obtain ⟨more, rfl⟩ := hu
      exact hfront ⟨a, rest ++ more, List.append_assoc ..⟩
    rw [parseStatement_of_no_front hfront, Except.map_eq_error] at h
    obtain ⟨hpos, hlt, ⟨before, hbefore, hsize, e, haccepted⟩, hlongest⟩ := parseExpression_marks h
    refine ⟨hpos, hlt, ⟨before, hbefore, hsize, .expression e, ?_⟩, ?_⟩
    · rw [parseStatement_of_no_front (hshort hbefore), haccepted]
      rfl
    · rintro longer hlonger hlt ⟨s, hs⟩
      rw [parseStatement_of_no_front (hshort hlonger)] at hs
      obtain ⟨e, he, -⟩ := Except.map_eq_ok.mp hs
      exact hlongest longer hlonger hlt ⟨e, he⟩

/-- **Text that is left over marks the longest beginning that is a formula.** If a text is refused with
that error, as an expression or as a line, then the offset of the error lies within the text and not at
its start, what is before it is accepted, and no longer beginning of the text is, nor is all of it. -/
theorem unexpectedText_marks (dialect : Dialect) (text : List Char) (offset : Nat) :
    (parseExpression dialect text = .error ⟨offset, .unexpectedText⟩ →
      MarksLongestPrefix (parseExpression dialect) text offset)
    ∧ (parseStatement dialect text = .error ⟨offset, .unexpectedText⟩ →
      MarksLongestPrefix (parseStatement dialect) text offset) :=
  ⟨parseExpression_marks, parseStatement_marks⟩

/-- In `a = 1k 2.5 %` the formula is over in front of the second number. The beginning `a = 1k 2.` is
refused for another reason, since its number breaks off. -/
theorem unexpectedText_marks_number :
    parseStatement {} "a = 1k 2.5 %".toList = .error ⟨7, .unexpectedText⟩
    ∧ MarksLongestPrefix (parseStatement {}) "a = 1k 2.5 %".toList 7
    ∧ parseExpression {} "1k 2.5 %".toList = .error ⟨3, .unexpectedText⟩
    ∧ MarksLongestPrefix (parseExpression {}) "1k 2.5 %".toList 3
    ∧ parseStatement {} "a = 1k 2.".toList = .error ⟨9, .brokenNumber .fraction 8⟩ := by
  have hstatement : parseStatement {} "a = 1k 2.5 %".toList = .error ⟨7, .unexpectedText⟩ := by
    decide +kernel
  have hexpression : parseExpression {} "1k 2.5 %".toList = .error ⟨3, .unexpectedText⟩ := by
    decide +kernel
  exact ⟨hstatement, (unexpectedText_marks {} _ 7).2 hstatement, hexpression,
    (unexpectedText_marks {} _ 3).1 hexpression, by decide +kernel⟩

end WorstCase
