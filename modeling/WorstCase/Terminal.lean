/-!
# Text for a terminal

Text with colours is a list of **pieces**: stretches of text, and the points where a style starts or all
styles end. `ansi` writes the styles as escape sequences. `plain` is what shows of that: it has neither
the styles nor whatever else in the text a terminal would take for a command, which are escape sequences
and control characters other than blanks.

What a terminal takes for a command is decided character by character. An escape character starts one; a
bracket after it starts a sequence that a letter ends, and some other characters start a string that
another escape character ends. A bell ends one kind of string as well. The string terminator ends the
others: it is a byte, and it counts also where it is part of a longer character's encoding. A device control
string has a head in which the terminator does not count yet.
-/

namespace WorstCase.Terminal

/-- The colours in use. -/
inductive Color where
  | red | green | blue | cyan
  deriving DecidableEq, Repr

/-- The number of the colour in an escape sequence. -/
def Color.code : Color → String
  | .red => "31"
  | .green => "32"
  | .blue => "34"
  | .cyan => "36"

/-- **How a stretch of text is set off.** -/
structure Style where
  /-- Its colour, if it has one of its own. -/
  color : Option Color := none
  /-- Whether it is bold. -/
  bold : Bool := false
  deriving DecidableEq, Repr

/-- The numbers of the style in an escape sequence. -/
def Style.codes (s : Style) : String :=
  ";".intercalate (s.color.toList.map Color.code ++ if s.bold then ["1"] else [])

/-- The style in bold. -/
def Style.inBold (s : Style) : Style := { s with bold := true }

/-- A piece of styled text. -/
inductive Piece where
  /-- Text as it is. -/
  | text (s : String)
  /-- The start of a style. -/
  | begin (s : Style)
  /-- The end of all styles. -/
  | reset
  deriving DecidableEq, Repr

/-- **Styled text.** -/
abbrev StyledText := List Piece

/-- Text in a style. -/
def styled (s : Style) (text : String) : StyledText := [.begin s, .text text, .reset]

/-- A piece with its style written as an escape sequence. -/
def Piece.ansi : Piece → String
  | .text s => s
  | .begin s => "\x1b[" ++ s.codes ++ "m"
  | .reset => "\x1b[0m"

/-- **The text with its styles** as escape sequences. -/
def ansi (t : StyledText) : String := String.join (t.map Piece.ansi)

/-! ## Without styles -/

/-- What a terminal is in the middle of. -/
inductive Mode where
  /-- Nothing: it shows what it gets. -/
  | ground
  /-- A command that an escape character started. -/
  | escape
  /-- Such a command, of several characters. -/
  | intermediate
  /-- A control sequence, which a letter ends. -/
  | sequence
  /-- A string that a bell ends. -/
  | bellString
  /-- The start of a device control string. -/
  | deviceEntry
  /-- The parameters of a device control string. -/
  | deviceParameters
  /-- The characters between the parameters and the body of a device control string. -/
  | deviceIntermediate
  /-- A string that the string terminator ends. -/
  | terminatedString
  deriving DecidableEq, Repr

/-- The string terminator. -/
def terminator : UInt8 := 0x9c

/-- Whether the terminator is one of the bytes of a character. -/
def holdsTerminator (c : Char) : Bool := (String.utf8EncodeChar c).contains terminator

/-- What a terminal is in the middle of after a character. -/
def Mode.next (m : Mode) (c : Char) : Mode :=
  let code := c.toNat
  if code = 0x18 ∨ code = 0x1a then .ground
  else if code = 0x1b then .escape
  else match m with
    | .ground => .ground
    | .escape =>
      if code < 0x20 ∨ 0x7f ≤ code then .escape
      else if code < 0x30 then .intermediate
      else if c = '[' then .sequence
      else if c = ']' then .bellString
      else if c = 'P' then .deviceEntry
      else if c = 'X' ∨ c = '^' ∨ c = '_' then .terminatedString
      else .ground
    | .intermediate => if 0x30 ≤ code ∧ code < 0x7f then .ground else .intermediate
    | .sequence => if 0x40 ≤ code ∧ code < 0x7f then .ground else .sequence
    | .bellString => if code = 7 then .ground else .bellString
    | .deviceEntry =>
      if code < 0x20 ∨ 0x7f ≤ code then .deviceEntry
      else if code < 0x30 then .deviceIntermediate
      else if code < 0x40 then .deviceParameters
      else .terminatedString
    | .deviceParameters =>
      if code < 0x20 ∨ 0x7f ≤ code then .deviceParameters
      else if code < 0x30 then .deviceIntermediate
      else if code < 0x3c then .deviceParameters
      else .terminatedString
    | .deviceIntermediate => if 0x30 ≤ code ∧ code < 0x7f then .terminatedString else .deviceIntermediate
    | .terminatedString => if holdsTerminator c then .ground else .terminatedString

/-- Control characters that move the place of writing and so count as blanks. -/
def isBlankControl (c : Char) : Bool := c == '\t' || c == '\n' || c == '\x0c' || c == '\r'

/-- Whether a character shows in the middle of what a terminal is doing. -/
def Mode.shows (m : Mode) (c : Char) : Bool :=
  match m with
  | .ground => isBlankControl c || (0x20 ≤ c.toNat && c.toNat != 0x7f)
  | .escape | .intermediate | .sequence => isBlankControl c
  | .bellString | .deviceEntry | .deviceParameters | .deviceIntermediate | .terminatedString => false

/-- The characters that show. A blank inside a command lets the text after it show as well, up to the
next character that would not, and only then the command goes on. -/
def visibleFrom (m : Mode) (showing : Bool) : List Char → List Char
  | [] => []
  | c :: cs =>
    if showing && Mode.ground.shows c then
      c :: visibleFrom (if c.toNat < 0x80 then m else .ground) true cs
    else
      -- a text that was showing ends here, and this character may start another command
      let before := if showing && Mode.ground.next c != .ground then Mode.ground.next c else m
      if before.shows c then
        c :: visibleFrom (if c.toNat < 0x80 then before else .ground) true cs
      else visibleFrom (before.next c) false cs

/-- What a text shows. -/
def visible (text : String) : String := String.ofList (visibleFrom .ground true text.toList)

/-- **The text without styles**, and without anything else that would not show. -/
def plain (t : StyledText) : String := visible (ansi t)

end WorstCase.Terminal
