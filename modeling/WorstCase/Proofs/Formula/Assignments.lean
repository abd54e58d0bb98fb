import WorstCase.Proofs.Formula.Alongside
import WorstCase.Proofs.Formula.Printing

/-!
# Statements are expressions, or assignments of them

A text is parsed as a statement in the way it is parsed as an expression, unless it begins with a name and
the sign for assignments (`parseStatement_eq`). If it does, what comes behind the sign is parsed as an
expression of its own, and everything in it is moved by what is in front of it; that holds of errors as
well as of trees. One error is another: where nothing is found behind the sign, the value is missing, and
the sign is to blame.

That an expression is read alike wherever it stands is a case of reading two texts alongside: the two
texts are the same here, and the positions in one are those in the other, moved.
-/

namespace WorstCase

open ParseFault (isBlank)
open Lexeme (Stops Solid)

/-! ## What is moved -/

/-- The position a number of bytes further right on its line. -/
def Position.moved (n : Nat) (p : Position) : Position := ⟨p.offset + n, p.line, p.column + n⟩

/-- The span moved. -/
def Span.moved (n : Nat) (s : Span) : Span := ⟨s.start.moved n, s.stop.moved n⟩

/-- The extent moved. -/
def Extent.moved (n : Nat) (e : Extent) : Extent := ⟨e.span.moved n, e.space.moved n⟩

/-- The value at its place moved. -/
def Node.moved {α : Type} (n : Nat) (m : Node α) : Node α := ⟨m.value, m.extent.moved n⟩

/-- The literal with the places of its parts moved. -/
def Literal.moved {S : Type} (n : Nat) (l : Literal S) : Literal S where
  value := l.value
  unit := l.unit.map (Node.moved n)
  tolerance := l.tolerance.map (Node.moved n)
  coefficient := l.coefficient.map (Node.moved n)

/-- **The expression with all its places moved.** -/
def Expr.moved {S : Type} (n : Nat) : Expr S → Expr S
  | .binary extent op left right =>
    .binary (extent.moved n) (op.moved n) (left.moved n) (right.moved n)
  | .power extent base exponent => .power (extent.moved n) (base.moved n) (exponent.moved n)
  | .atTemperature extent base degrees =>
    .atTemperature (extent.moved n) (base.moved n) (degrees.moved n)
  | .group extent inner => .group (extent.moved n) (inner.moved n)
  | .var extent name => .var (extent.moved n) name
  | .literal extent l => .literal (extent.moved n) (l.moved n)

/-- The fault with its places moved. Where nothing was found at all, it is the fault given. -/
def ParseFault.moved (n : Nat) (fault atStart : ParseFault) : ParseFault :=
  match fault with
  | .missingExpression => atStart
  | .missingOperand op cause => .missingOperand op (cause.moved n)
  | .emptyGroup cause => .emptyGroup (cause.moved n)
  | .unclosedGroup cause => .unclosedGroup (cause.moved n)
  | .missingExponent cause => .missingExponent (cause.moved n)
  | .missingTemperature cause => .missingTemperature (cause.moved n)
  | .missingValue cause => .missingValue (cause.moved n)
  | .valueOutOfRange cause => .valueOutOfRange (cause.moved n)
  | .toleranceOutOfRange cause => .toleranceOutOfRange (cause.moved n)
  | .coefficientOutOfRange cause => .coefficientOutOfRange (cause.moved n)
  | .unexpectedText => .unexpectedText
  | .brokenNumber part offset => .brokenNumber part (offset + n)

/-- The error with its places moved. -/
def ParseError.moved (n : Nat) (atStart : ParseFault) (e : ParseError) : ParseError :=
  ⟨e.offset + n, e.fault.moved n atStart⟩

/-- A position is the other, moved. -/
def MovedBy (n : Nat) (p q : Position) : Prop := q = p.moved n

section Alike

variable {n : Nat}

theorem Span.Alike.eq_moved {s t : Span} (h : s.Alike (MovedBy n) t) : t = s.moved n := by
  obtain ⟨start, stop⟩ := t
  obtain ⟨hstart, hstop⟩ := h
  cases hstart
  cases hstop
  rfl

theorem Extent.Alike.eq_moved {e f : Extent} (h : e.Alike (MovedBy n) f) : f = e.moved n := by
  obtain ⟨span, space⟩ := f
  obtain ⟨hspan, hspace⟩ := h
  cases hspan.eq_moved
  cases hspace.eq_moved
  rfl

theorem Node.Alike.eq_moved {α : Type} {a b : Node α} (h : a.Alike (MovedBy n) b) : b = a.moved n := by
  obtain ⟨value, extent⟩ := b
  obtain ⟨hvalue, hextent⟩ := h
  cases hvalue
  cases hextent.eq_moved
  rfl

theorem Node.eq_map_moved {α : Type} {o o' : Option (Node α)}
    (h : Option.Rel (Node.Alike (MovedBy n)) o o') : o' = o.map (Node.moved n) := by
  cases h with
  | none => rfl
  | some h => exact congrArg some h.eq_moved

theorem Literal.Alike.eq_moved {S : Type} {k l : Literal S} (h : k.Alike (MovedBy n) l) :
    l = k.moved n := by
  obtain ⟨value, unit, tolerance, coefficient⟩ := l
  obtain ⟨hvalue, hunit, htolerance, hcoefficient⟩ := h
  cases hvalue
  cases Node.eq_map_moved hunit
  cases Node.eq_map_moved htolerance
  cases Node.eq_map_moved hcoefficient
  rfl

/-- **Expressions that are alike by moved places** are the same, moved. -/
theorem Expr.Alike.eq_moved {S : Type} {e f : Expr S} (h : e.Alike (MovedBy n) f) : f = e.moved n := by
  induction h with
  | binary he hop _ _ ihleft ihright =>
    rw [he.eq_moved, hop.eq_moved, ihleft, ihright]
    rfl
  | power he _ hexponent ih =>
    rw [he.eq_moved, hexponent.eq_moved, ih]
    rfl
  | atTemperature he _ hdegrees ih =>
    rw [he.eq_moved, hdegrees.eq_moved, ih]
    rfl
  | group he _ ih =>
    rw [he.eq_moved, ih]
    rfl
  | var he =>
    rw [he.eq_moved]
    rfl
  | literal he h =>
    rw [he.eq_moved, h.eq_moved]
    rfl

theorem OffsetAlike.eq_add {k m : Nat} (h : OffsetAlike (MovedBy n) k m) : m = k + n := by
  obtain ⟨p, q, rfl, rfl, rfl⟩ := h
  rfl

theorem ParseFault.Alike.eq_moved {atStart f g : ParseFault}
    (h : ParseFault.Alike (MovedBy n) .missingExpression atStart f g) : g = f.moved n atStart := by
  cases h with
  | atStart | unexpectedText => rfl
  | brokenNumber h => rw [h.eq_add]; rfl
  | missingOperand h | emptyGroup h | unclosedGroup h | missingExponent h | missingTemperature h
  | missingValue h | valueOutOfRange h | toleranceOutOfRange h | coefficientOutOfRange h =>
    rw [h.eq_moved]
    rfl

theorem ParseError.Alike.eq_moved {atStart : ParseFault} {e f : ParseError}
    (h : e.Alike (MovedBy n) .missingExpression atStart f) : f = e.moved n atStart := by
  obtain ⟨offset, fault⟩ := f
  obtain ⟨hoffset, hfault⟩ := h
  cases hoffset.eq_add
  cases hfault.eq_moved
  rfl

end Alike

/-! ## The same text further right -/

/-- Cursors at the same text, one of them further right. -/
def Cursor.MovedBy (n : Nat) (c d : Cursor) : Prop := c.rest = d.rest ∧ d.position = c.position.moved n

theorem together_movedBy (n : Nat) : Together (Cursor.MovedBy n) = MovedBy n := by
  funext p q
  apply propext
  constructor
  · rintro ⟨rest, rest', -, h⟩
    exact h
  · intro h
    exact ⟨[], [], rfl, h⟩

/-- On one line, what is behind a text is further right by its size. -/
theorem Position.after_oneLine {text : List Char} (h : OneLine text) (p : Position) :
    p.after text = p.moved (byteSize text) := by
  induction text generalizing p with
  | nil => rfl
  | cons c text ih =>
    rw [OneLine, List.mem_cons, not_or] at h
    obtain ⟨hc, htext⟩ := h
    rw [after_cons, ih htext]
    unfold next
    rw [if_neg (Ne.symm hc)]
    unfold moved
    rw [byteSize_cons, Nat.add_assoc, Nat.add_assoc]

theorem Position.moved_after {text : List Char} (h : OneLine text) (n : Nat) (p : Position) :
    (p.moved n).after text = (p.after text).moved n := by
  rw [after_oneLine h, after_oneLine h]
  unfold moved
  rw [Nat.add_right_comm, Nat.add_right_comm p.column]

/-- **The same text is read alike further right.** -/
theorem alongside_movedBy (n : Nat) : Alongside (Cursor.MovedBy n) where
  respaced := by
    rintro c d ⟨hrest, -⟩
    rw [hrest]
    exact .refl _
  behind := by
    rintro c d piece rest rest' ⟨hrest, hposition⟩ hc hd hsolid
    refine ⟨List.append_cancel_left (hc.symm.trans (hrest.trans hd)), ?_⟩
    dsimp only
    rw [hposition, Position.moved_after hsolid.oneLine]
  skipBlanks := by
    rintro ⟨p, rest⟩ ⟨q, rest'⟩ ⟨hrest, hposition⟩
    dsimp only at hrest hposition
    subst hrest hposition
    exact ⟨rfl, Position.moved_after (Blanks.front rest).oneLine n p⟩

/-! ## Assignments -/

/-- **The front of an assignment**: a name and the sign, with the blanks before and behind them. -/
structure AssignmentFront where
  /-- The blanks before it. -/
  lead : Blanks
  /-- The name, and the blanks behind it. -/
  name : Spaced Lexeme.Name
  /-- The blanks behind the sign. -/
  gap : Blanks

namespace AssignmentFront

/-- Its text. -/
def text (a : AssignmentFront) : List Char :=
  a.lead.val ++ (a.name.stretch Lexeme.Name.text).text ++ (a.gap.behind ['=']).text

/-- Where the name stands. -/
def nameExtent (a : AssignmentFront) : Extent :=
  (a.name.stretch Lexeme.Name.text).extent (Position.start.after a.lead.val)

/-- Where the sign stands. -/
def signSpan (a : AssignmentFront) : Span :=
  ((a.gap.behind ['=']).extent
    (Position.start.after (a.lead.val ++ (a.name.stretch Lexeme.Name.text).text))).span

/-- **The assignment of what is parsed behind it**, moved to its place there, or the error that is found
there, moved to its place as well. -/
def assign (a : AssignmentFront) :
    Except ParseError (Expr Binary64) → Except ParseError (Statement Binary64)
  | .ok e =>
    let value := e.moved (byteSize a.text)
    .ok (.assign (a.nameExtent.through value.extent)
      ⟨String.ofList a.name.value.text, a.nameExtent⟩ value)
  | .error e => .error (e.moved (byteSize a.text) (.missingValue a.signSpan))

theorem oneLine (a : AssignmentFront) : OneLine a.text :=
  (a.lead.oneLine.append (a.name.oneLine a.name.value.solid)).append (a.gap.oneLine_behind (by decide))

end AssignmentFront

/-- Where an assignment starts, its front is there. -/
theorem exists_front {text : List Char} {name sign : Token} {next : Cursor}
    (h : (Cursor.ofText text).assignment = .ok (some (name, sign, next))) :
    ∃ (a : AssignmentFront) (rest : List Char), text = a.text ++ rest := by
  have hlead := Cursor.skipBlanks_reads ⟨Position.start, text⟩
  obtain ⟨x, gap, -, -, hreads⟩ := Cursor.assignment_eq_some h
  refine ⟨⟨Blanks.front text, x, gap⟩, next.rest, ?_⟩
  have hall := (hlead.trans hreads).rest_eq
  rw [← List.append_assoc (Blanks.front text).val] at hall
  exact hall

/-- Looking for an assignment does not fail. -/
theorem Cursor.assignment_ne_error {c : Cursor} {e : ParseError} : c.assignment ≠ .error e := by
  intro h
  unfold assignment at h
  rcases Except.bind_eq_error.mp h with h | ⟨r, -, h⟩
  · unfold token at h
    split at h
    · cases h
    · cases h
    · rename_i hscan
      unfold Lexeme.name at hscan
      split at hscan
      · cases hscan
      · split at hscan <;> cases hscan
  · cases r with
    | none => cases h
    | some found =>
      dsimp only at h
      split at h <;> cases h

/-- What is read is accepted or refused whatever is made of it. -/
theorem bind_finish {α β : Type} (x : Except ParseError (α × Cursor)) (f : α → β) :
    (x >>= fun read => finish (f read.1, read.2)) = (x >>= finish).map f := by
  cases x with
  | error e => rfl
  | ok read =>
    show finish (f read.1, read.2) = (finish read).map f
    unfold finish
    dsimp only
    split <;> rfl

namespace AssignmentFront

variable {rest : List Char}

/-- **The front of an assignment is read off**, with the blanks that are behind it. -/
theorem assignment_eq (a : AssignmentFront) (blanks : Blanks) (hrest : Stops isBlank rest) :
    ∃ sign : Token, sign.span = a.signSpan
      ∧ (Cursor.ofText (a.text ++ (blanks.val ++ rest))).assignment
        = .ok (some (⟨a.name.value.text, a.nameExtent⟩, sign,
          ⟨Position.start.after (a.text ++ blanks.val), rest⟩)) := by
  let gap : Blanks :=
    ⟨a.gap.val ++ blanks.val, List.forall_mem_append.mpr ⟨a.gap.property, blanks.property⟩⟩
  have hname : Stops isBlank ((a.name.stretch Lexeme.Name.text).text
      ++ ((gap.behind ['=']).text ++ rest)) :=
    a.name.stops_isBlank a.name.value.solid a.name.value.ne_nil _
  have hsign : (a.gap.behind ['=']).text ++ blanks.val = (gap.behind ['=']).text :=
    List.append_assoc ..
  have hstart : Cursor.ofText (a.text ++ (blanks.val ++ rest)) = ⟨Position.start.after a.lead.val,
      (a.name.stretch Lexeme.Name.text).text ++ ((gap.behind ['=']).text ++ rest)⟩ := by
    rw [text, List.append_assoc, List.append_assoc, ← List.append_assoc (Stretch.text _) blanks.val,
      hsign]
    exact Cursor.skipBlanks_append a.lead hname _
  have hassignment := Cursor.assignment_append a.name gap hrest (Position.start.after a.lead.val)
  have htext : a.lead.val ++ ((a.name.stretch Lexeme.Name.text).text ++ (gap.behind ['=']).text)
      = a.text ++ blanks.val := by
    rw [← hsign, text]
    simp only [List.append_assoc]
  rw [← Position.after_append, ← Position.after_append, htext] at hassignment
  refine ⟨(gap.behind ['=']).token
    (Position.start.after (a.lead.val ++ (a.name.stretch Lexeme.Name.text).text)), rfl, ?_⟩
  rw [hstart]
  exact hassignment

/-- What is behind it is read alike there and by itself. -/
theorem expr_alike (a : AssignmentFront) (dialect : Dialect) (blanks : Blanks)
    (hrest : Stops isBlank rest) :
    Except.Rel
      (ParseError.Alike (MovedBy (byteSize a.text)) .missingExpression (.missingValue a.signSpan))
      (Expr.Alike (MovedBy (byteSize a.text))) (parseExpression dialect (blanks.val ++ rest))
      (Cursor.expr dialect (.missingValue a.signSpan)
        ⟨Position.start.after (a.text ++ blanks.val), rest⟩ >>= finish) := by
  have ha := alongside_movedBy (byteSize a.text)
  have hmoved : Cursor.MovedBy (byteSize a.text) ⟨Position.start.after blanks.val, rest⟩
      ⟨Position.start.after (a.text ++ blanks.val), rest⟩ := by
    refine ⟨rfl, ?_⟩
    dsimp only
    rw [Position.after_append, Position.after_oneLine a.oneLine, Position.moved_after blanks.oneLine]
  have hsame : Cursor.ofText (blanks.val ++ rest) = ⟨Position.start.after blanks.val, rest⟩ :=
    Cursor.skipBlanks_append blanks hrest _
  unfold parseExpression
  rw [hsame, ← together_movedBy]
  exact (ha.expr dialect _ _ hmoved).bind ha.finish

/-- **What is behind the front of an assignment is parsed as an expression.** -/
theorem parseStatement_append (a : AssignmentFront) (dialect : Dialect) (rest : List Char) :
    parseStatement dialect (a.text ++ rest) = a.assign (parseExpression dialect rest) := by
  have hfront : (Blanks.front rest).val ++ rest.dropWhile isBlank = rest :=
    List.takeWhile_append_dropWhile
  have hrest : Stops isBlank (rest.dropWhile isBlank) := by
    intro c hc
    have hhead := List.head?_dropWhile_not isBlank rest
    rw [hc] at hhead
    exact hhead
  obtain ⟨sign, hsign, hassignment⟩ := a.assignment_eq (Blanks.front rest) hrest
  have hread := a.expr_alike dialect (Blanks.front rest) hrest
  rw [hfront] at hassignment hread
  unfold parseStatement
  dsimp only
  rw [hassignment]
  refine (bind_finish (Cursor.expr dialect (.missingValue sign.span)
    ⟨Position.start.after (a.text ++ (Blanks.front rest).val), rest.dropWhile isBlank⟩)
    fun value => Statement.assign (a.nameExtent.through value.extent)
      ⟨String.ofList a.name.value.text, a.nameExtent⟩ value).trans ?_
  rw [hsign]
  revert hread
  generalize parseExpression dialect rest = here
  generalize Cursor.expr dialect (.missingValue a.signSpan)
    ⟨Position.start.after (a.text ++ (Blanks.front rest).val), rest.dropWhile isBlank⟩
      >>= finish = there
  intro hread
  cases hread with
  | error he =>
    rw [he.eq_moved]
    rfl
  | ok he =>
    rw [he.eq_moved]
    rfl

end AssignmentFront

/-- **A statement is parsed as an expression is.** Where a text does not begin with a name and the sign
for assignments, it is parsed as an expression, with the same result. Where it does, what comes behind the
sign is parsed as an expression. -/
theorem parseStatement_eq (dialect : Dialect) (text : List Char) :
    ((¬∃ (a : AssignmentFront) (rest : List Char), text = a.text ++ rest) →
        parseStatement dialect text = (parseExpression dialect text).map .expression)
      ∧ ∀ (a : AssignmentFront) (rest : List Char), text = a.text ++ rest →
        parseStatement dialect text = a.assign (parseExpression dialect rest) := by
  constructor
  · intro hnone
    cases hassignment : (Cursor.ofText text).assignment with
    | error e => exact absurd hassignment Cursor.assignment_ne_error
    | ok found =>
      cases found with
      | some found => exact absurd (exists_front hassignment) hnone
      | none =>
        unfold parseStatement
        dsimp only
        rw [hassignment]
        exact bind_finish _ Statement.expression
  · rintro a rest rfl
    exact a.parseStatement_append dialect rest

/-- The front of `r1= 1`. -/
def AssignmentFront.ofR1 : AssignmentFront where
  lead := Blanks.front []
  name := ⟨⟨⟨'r', rfl⟩, ['1'], List.forall_mem_singleton.mpr rfl⟩, Blanks.front []⟩
  gap := Blanks.front [' ']

/-- The text `1` is an expression, and `r1= 1` is an assignment of it. -/
theorem parseStatement_eq_one :
    (¬∃ (a : AssignmentFront) (rest : List Char), ['1'] = a.text ++ rest)
      ∧ parseStatement {} ['1'] = (parseExpression {} ['1']).map .expression
      ∧ ['r', '1', '=', ' ', '1'] = AssignmentFront.ofR1.text ++ ['1']
      ∧ parseStatement {} ['r', '1', '=', ' ', '1']
        = AssignmentFront.ofR1.assign (parseExpression {} ['1']) := by
  have hnone : ¬∃ (a : AssignmentFront) (rest : List Char), ['1'] = a.text ++ rest := by
    rintro ⟨a, rest, h⟩
    have hsign : '=' ∈ a.text := List.mem_append_right _ List.mem_cons_self
    have hmem : '=' ∈ ['1'] := by
      rw [h]
      exact List.mem_append_left _ hsign
    simp at hmem
  exact ⟨hnone, (parseStatement_eq {} ['1']).1 hnone, rfl,
    (parseStatement_eq {} ['r', '1', '=', ' ', '1']).2 AssignmentFront.ofR1 ['1'] rfl⟩

end WorstCase
