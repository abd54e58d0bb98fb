import WorstCase.Source.Quoted
import WorstCase.Source.Span

/-!
# Locations for display

A **location** says where in a source text something was found, in the terms of a reader: the line, the
column, how much of the line is meant, and the line itself. Columns count characters, and a tab counts
four, because the line is shown with each tab replaced by four blanks. So the first `column - 1`
characters of the shown line are what stands before the place.

Places are given as byte offsets. A place past the end of the text, inside a character, or one whose
extent crosses the end of a line, has no location, and `LocationError` says which it was.
-/

namespace WorstCase

/-- **Where in a text, for display.** -/
structure Location where
  /-- The offset in bytes. -/
  offset : Nat
  /-- The line, counted from one. -/
  line : Nat
  /-- The column in displayed characters, counted from one. -/
  column : Nat
  /-- How many bytes are meant, if more than a point in the text is. -/
  length : Option Nat
  /-- The line as it is displayed. -/
  lineSource : String
  deriving DecidableEq, Repr

/-- The two ends of what is meant. -/
inductive Edge where
  /-- Where it starts. -/
  | start
  /-- Where it ends; a point only ends the text before it. -/
  | stop
  deriving DecidableEq, Repr

/-- The word for an end. -/
def Edge.word : Edge → String
  | .start => "start"
  | .stop => "end"

/-- Why a place has no location. -/
inductive LocationError where
  /-- The place is past the end. -/
  | offsetPastEnd (offset size : Nat)
  /-- Nothing is meant at the place. -/
  | emptyLength
  /-- What is meant runs past the end. -/
  | stopPastEnd (stop size : Nat)
  /-- What is meant runs past the end of the line. -/
  | crossesLine (text : List Char)
  /-- An end of what is meant lies inside a character of the text. -/
  | insideCharacter (edge : Edge) (offset : Nat) (source : List Char)
  deriving DecidableEq, Repr

/-- **The character that a byte offset lies inside of**, and the offset at which that character starts.
The text starts at `start`. -/
def characterAround? (start : Nat) : List Char → Nat → Option (Nat × Char)
  | [], _ => none
  | c :: cs, offset =>
    if start + c.utf8Size ≤ offset then characterAround? (start + c.utf8Size) cs offset
    else if start < offset then some (start, c)
    else none

/-- What is said about the character that a byte offset lies inside of. -/
def aroundMessage (source : List Char) (offset : Nat) : String :=
  match characterAround? 0 source offset with
  | some (start, c) =>
    "; it is inside '" ++ Quoted.escape c ++ "' (bytes " ++ toString start ++ ".."
      ++ toString (start + c.utf8Size) ++ " of string)"
  | none => ""

/-- The reason, in words. -/
def LocationError.message : LocationError → String
  | .offsetPastEnd offset size =>
    "offset (" ++ toString offset ++ ") must be less than or equal to the length of the source ("
      ++ toString size ++ ")"
  | .emptyLength => "length must not be 0"
  | .stopPastEnd stop size =>
    "offset + length (" ++ toString stop
      ++ ") must be less than or equal to the length of the source (" ++ toString size ++ ")"
  | .crossesLine text => "span (" ++ Quoted.text text ++ ") must not contain newlines"
  | .insideCharacter edge offset source =>
    edge.word ++ " byte index " ++ toString offset ++ " is not a char boundary"
      ++ aroundMessage source offset

/-- **The text before and the text from a byte offset**, unless the offset lies inside a character or
past the end. -/
def splitAtByte? : List Char → Nat → Option (List Char × List Char)
  | cs, 0 => some ([], cs)
  | [], _ + 1 => none
  | c :: cs, n + 1 =>
    if c.utf8Size ≤ n + 1 then
      (splitAtByte? cs (n + 1 - c.utf8Size)).map fun (before, rest) => (c :: before, rest)
    else none

/-- The two parts make up the text, and the first has the size asked for. -/
theorem splitAtByte?_eq_some {cs before rest : List Char} {n : Nat}
    (h : splitAtByte? cs n = some (before, rest)) :
    before ++ rest = cs ∧ byteSize before = n := by
  induction cs generalizing n before rest with
  | nil =>
    cases n with
    | zero => simp [splitAtByte?] at h; simp [h]
    | succ n => simp [splitAtByte?] at h
  | cons c cs ih =>
    cases n with
    | zero => simp [splitAtByte?] at h; simp [h]
    | succ n =>
      simp only [splitAtByte?] at h
      split at h
      · rename_i le
        obtain ⟨⟨front, back⟩, found, same⟩ := Option.map_eq_some_iff.1 h
        obtain ⟨whole, size⟩ := ih found
        obtain ⟨rfl, rfl⟩ := Prod.mk.inj same
        simp only [List.cons_append, byteSize_cons, whole, size, true_and]
        omega
      · simp at h

/-- **The piece of a text** of the given size in bytes from a byte offset on, unless an end of it lies
inside a character or past the end. -/
def sliceAt? (text : List Char) (offset size : Nat) : Option (List Char) := do
  let (_, rest) ← splitAtByte? text offset
  let (piece, _) ← splitAtByte? rest size
  return piece

namespace Location

/-- The part of a text after its last line end. -/
def lastLine (text : List Char) : List Char :=
  (text.reverse.takeWhile (· ≠ '\n')).reverse

/-- A text as it is displayed: a tab takes four columns. -/
def shown (text : List Char) : List Char :=
  text.flatMap fun c => if c = '\t' then [' ', ' ', ' ', ' '] else [c]

/-- The rest of the line, without its line end. A carriage return is part of the line end. Since it may
stand just before the place, the whole line is taken, in two parts. -/
def wholeLine (before rest : List Char) : List Char :=
  let line := lastLine before ++ rest.takeWhile (· ≠ '\n')
  -- on the last line there is no line end for a carriage return to belong to
  if '\n' ∈ rest ∧ line.getLast? = some '\r' then line.dropLast else line

/-- The location between two parts of a text. -/
def ofSplit (before rest : List Char) (length : Option Nat) : Location where
  offset := byteSize before
  line := before.count '\n' + 1
  column := (shown (lastLine before)).length + 1
  length := length
  lineSource := String.ofList (shown (wholeLine before rest))

/-- **The location of a place in a text**, given by its byte offset and, if more than a point is meant,
by the length in bytes. -/
def locate (source : List Char) (offset : Nat) (length : Option Nat) :
    Except LocationError Location :=
  if byteSize source < offset then .error (.offsetPastEnd offset (byteSize source))
  else match length with
    | none =>
      match splitAtByte? source offset with
      | none => .error (.insideCharacter .stop offset source)
      | some (before, rest) => .ok (ofSplit before rest none)
    | some length =>
      if length = 0 then .error .emptyLength
      else if byteSize source < offset + length then
        .error (.stopPastEnd (offset + length) (byteSize source))
      else match splitAtByte? source offset with
        | none => .error (.insideCharacter .start offset source)
        | some (before, rest) =>
          match splitAtByte? rest length with
          | none => .error (.insideCharacter .stop (offset + length) source)
          | some (meant, _) =>
            if '\n' ∈ meant then .error (.crossesLine meant)
            else .ok (ofSplit before rest (some length))

/-- The location, found in one line of a text, of the same place in the whole text, where the line starts
at the given offset. -/
def relocate (l : Location) (source : List Char) (lineStart : Nat) :
    Except LocationError Location :=
  locate source (lineStart + l.offset) l.length

/-- How much is meant, a point counting as one. -/
def shownLength (l : Location) : Nat := l.length.getD 1

end Location

end WorstCase
