import WorstCase.Source.Span

/-!
# Lines and blanks

How a text falls into lines, and which characters count as blank at the ends of one. A line feed ends a
line and belongs to it; a carriage return before it belongs to the line end too. A text that does not end
in a line feed has one last line more.

Every line knows its number and the offset at which it starts, so that what is found in the line can be
found in the text: `flatten_rawLines` says that the lines with their ends make up the text.
-/

namespace WorstCase

/-- Whether a character is blank space in any script. -/
def isWhitespace (c : Char) : Bool :=
  let code := c.toNat
  (9 ≤ code && code ≤ 13) || code == 0x20 || code == 0x85 || code == 0xa0 || code == 0x1680
    || (0x2000 ≤ code && code ≤ 0x200a) || code == 0x2028 || code == 0x2029 || code == 0x202f
    || code == 0x205f || code == 0x3000

/-- A text without the blanks at its start. -/
def trimStart (text : List Char) : List Char := text.dropWhile isWhitespace

/-- The lines of a text, each with its line feed. -/
def rawLines : List Char → List (List Char)
  | [] => []
  | c :: cs =>
    if c = '\n' then [c] :: rawLines cs
    else match rawLines cs with
      | [] => [[c]]
      | line :: lines => (c :: line) :: lines

/-- The lines make up the text. -/
@[simp] theorem flatten_rawLines (text : List Char) : (rawLines text).flatten = text := by
  induction text with
  | nil => rfl
  | cons c cs ih =>
    unfold rawLines
    split
    · simp [ih]
    · split
      · rename_i empty
        rw [empty] at ih
        simp at ih
        simp [ih]
      · rename_i line lines eq
        rw [eq] at ih
        simp at ih
        simp [ih]

/-- A text without a given last character, if it has that. -/
def dropLastChar (last : Char) (text : List Char) : List Char :=
  if text.getLast? = some last then text.dropLast else text

/-- A line without its line end. -/
def lineText (raw : List Char) : List Char := dropLastChar '\r' (dropLastChar '\n' raw)

/-- **A line of a text, and where it is.** -/
structure Line where
  /-- Its number, counted from one. -/
  number : Nat
  /-- The byte offset of its start. -/
  start : Nat
  /-- The line without its end. -/
  text : List Char
  deriving DecidableEq, Repr

/-- Lines numbered and placed one after the other. -/
def placeLines (number start : Nat) : List (List Char) → List Line
  | [] => []
  | raw :: rest => ⟨number, start, lineText raw⟩ :: placeLines (number + 1) (start + byteSize raw) rest

/-- **The lines of a text.** -/
def linesOf (text : List Char) : List Line := placeLines 1 0 (rawLines text)

end WorstCase
