/-!
# Positions and spans

Source text is a list of characters. A **position** in it is an offset in bytes, as UTF-8 counts them,
with the line and the column that belong to it; the column counts bytes as well. `Position.after` moves
a position past a piece of text, so all positions of one text come from one rule, and `Position.offset_after`
says that the offset moves by the size of the piece.

A **span** is a stretch of text from one position to another. `Span.between` refuses positions in the
wrong order, and says whether offsets or lines and columns tell so.
-/

namespace WorstCase

/-- The size of a text in bytes. -/
def byteSize : List Char → Nat
  | [] => 0
  | c :: text => c.utf8Size + byteSize text

@[simp] theorem byteSize_nil : byteSize [] = 0 := rfl

@[simp] theorem byteSize_cons (c : Char) (text : List Char) :
    byteSize (c :: text) = c.utf8Size + byteSize text := rfl

@[simp] theorem byteSize_append (text more : List Char) :
    byteSize (text ++ more) = byteSize text + byteSize more := by
  induction text with
  | nil => simp
  | cons c text ih => rw [List.cons_append, byteSize_cons, byteSize_cons, ih, Nat.add_assoc]

/-- It is the size of the text as a string. -/
theorem utf8ByteSize_ofList (text : List Char) :
    (String.ofList text).utf8ByteSize = byteSize text := by
  induction text with
  | nil => rfl
  | cons c text ih =>
    have whole : String.ofList (c :: text) = String.singleton c ++ String.ofList text := by
      rw [String.singleton_eq_ofList, ← String.ofList_append]
      rfl
    rw [whole, String.utf8ByteSize_append, String.utf8ByteSize_singleton, ih, byteSize_cons]

@[simp] theorem byteSize_toList (s : String) : byteSize s.toList = s.utf8ByteSize := by
  rw [← utf8ByteSize_ofList, String.ofList_toList]

/-- **A place in a source text.** -/
structure Position where
  /-- How many bytes stand before it. -/
  offset : Nat
  /-- Its line, counted from one. -/
  line : Nat
  /-- Its column in bytes, counted from one. -/
  column : Nat
  deriving DecidableEq, Repr

namespace Position

/-- The start of a text. -/
def start : Position := ⟨0, 1, 1⟩

/-- The position behind a character. -/
def next (p : Position) (c : Char) : Position :=
  if c = '\n' then ⟨p.offset + c.utf8Size, p.line + 1, 1⟩
  else ⟨p.offset + c.utf8Size, p.line, p.column + c.utf8Size⟩

/-- The position behind a piece of text. -/
def after (p : Position) (text : List Char) : Position := text.foldl next p

@[simp] theorem after_nil (p : Position) : p.after [] = p := rfl

@[simp] theorem after_cons (p : Position) (c : Char) (text : List Char) :
    p.after (c :: text) = (p.next c).after text := rfl

@[simp] theorem after_append (p : Position) (text more : List Char) :
    p.after (text ++ more) = (p.after text).after more := by
  simp [after]

@[simp] theorem offset_next (p : Position) (c : Char) :
    (p.next c).offset = p.offset + c.utf8Size := by
  unfold next
  split <;> rfl

/-- The offset moves by the size of the text. -/
@[simp] theorem offset_after (p : Position) (text : List Char) :
    (p.after text).offset = p.offset + byteSize text := by
  induction text generalizing p with
  | nil => rfl
  | cons c text ih => rw [after_cons, ih, offset_next, byteSize_cons, Nat.add_assoc]

/-- Lines and columns tell which of two positions comes first, as offsets do: behind a line feed the line
is a later one, and within a line the column goes up. -/
theorem line_column_after (p : Position) (text : List Char) :
    p.line < (p.after text).line
      ∨ p.line = (p.after text).line ∧ p.column ≤ (p.after text).column := by
  induction text generalizing p with
  | nil => exact .inr ⟨rfl, Nat.le_refl _⟩
  | cons c text ih =>
    have hnext : p.line < (p.next c).line
        ∨ p.line = (p.next c).line ∧ p.column ≤ (p.next c).column := by
      unfold next
      split
      · exact .inl (Nat.lt_succ_self _)
      · exact .inr ⟨rfl, Nat.le_add_right _ _⟩
    have hrest := ih (p.next c)
    rw [after_cons]
    omega

/-- The position that is a number of bytes further back on the same line. -/
def back (p : Position) (bytes : Nat) : Position :=
  ⟨p.offset - bytes, p.line, p.column - bytes⟩

end Position

/-- **A stretch of a source text.** -/
structure Span where
  /-- Where it starts. -/
  start : Position
  /-- Where it stops, which is the position behind it. -/
  stop : Position
  deriving DecidableEq, Repr

/-- Why two positions do not make a span. -/
inductive SpanError where
  /-- The offsets are in the wrong order. -/
  | offsetsReversed
  /-- The lines and columns are in the wrong order. -/
  | columnsReversed
  deriving DecidableEq, Repr

/-- The reason, in words. -/
def SpanError.message : SpanError → String
  | .offsetsReversed => "start offset must be before end offset"
  | .columnsReversed => "start line and column must be before end line and column"

namespace Span

/-- The span from one position to another. -/
def between (start stop : Position) : Except SpanError Span :=
  if stop.offset < start.offset then .error .offsetsReversed
  else if start.line < stop.line ∨ (start.line = stop.line ∧ start.column ≤ stop.column) then
    .ok ⟨start, stop⟩
  else .error .columnsReversed

/-- How many bytes the span covers. -/
def size (s : Span) : Nat := s.stop.offset - s.start.offset

/-- Whether the span covers nothing. -/
def isEmpty (s : Span) : Bool := s.size == 0

/-- **The least span that covers two spans**: from the earlier start to the later stop. -/
def merge (s t : Span) : Except SpanError Span :=
  between
    (if s.start.offset ≤ t.start.offset then s.start else t.start)
    (if t.stop.offset ≤ s.stop.offset then s.stop else t.stop)

end Span

end WorstCase
