import WorstCase.Source.Report
import WorstCase.Terminal

/-!
# How reports are shown

A report is shown as its message, the name of the text with line and column, and the line itself with a
marker below what is meant. Advice about the fault follows on the marker; advice about another place gets
a block of its own, in the same form. The left margin is as wide as the line number.

```text
error: unknown variable `c`
 --> divider.ee:2:9
  |
2 | b = a + c
  |         ^
  = help: assign it on an earlier line, as in `c = 1k`
```
-/

namespace WorstCase.Diagnostic

open Terminal

/-- The style of errors. -/
def errorStyle : Style := { color := some .red }

/-- The style of notes. -/
def noteStyle : Style := { color := some .blue }

/-- The style of suggestions. -/
def helpStyle : Style := { color := some .cyan }

/-- The style of margins, line numbers and arrows. -/
def marginStyle : Style := { color := some .blue, bold := true }

/-- A blank text of a given width. -/
def blanks (width : Nat) : String := "".pushn ' ' width

/-- What kind of message it is, and the message, in bold. -/
def messageLine (kind : String) (style : Style) (message : String) : StyledText :=
  .begin { bold := true } :: styled style kind ++ [.text (": " ++ message), .reset]

/-- The style of a piece of advice. -/
def adviceStyle : Advice → Style
  | .note _ => noteStyle
  | .help _ => helpStyle

/-- A piece of advice as a message. -/
def adviceMessage : Advice → StyledText
  | .note text => messageLine "note" noteStyle text
  | .help text => messageLine "help" helpStyle text

/-- A piece of advice below what it is about. -/
def adviceLine (margin : String) (a : Advice) : StyledText :=
  .text (margin ++ " ") :: styled (adviceStyle a).inBold "=" ++ .text " " :: adviceMessage a

/-- The name of the text, with the place in it if there is one. -/
def placeLine (origin : String) (location : Option Location) : StyledText :=
  let place := match location with
    | some l => origin ++ ":" ++ toString l.line ++ ":" ++ toString l.column
    | none => origin
  .text " " :: styled marginStyle "-->" ++ [.text (" " ++ place)]

/-- The marker: a caret under the first character meant, and a dash for every further one. -/
def marker (l : Location) (style : Style) : StyledText :=
  styled style.inBold "^" ++ styled style.inBold ("".pushn '-' (l.shownLength - 1))

/-- The line of a location, with the marker below it. -/
def sourceLines (l : Location) (style : Style) : List StyledText :=
  let margin := blanks (toString l.line).length
  [.text (margin ++ " ") :: styled marginStyle "|" ++ [.text " "],
   styled marginStyle (toString l.line) ++ .text " " :: styled marginStyle "|"
     ++ [.text (" " ++ l.lineSource)],
   .text (margin ++ " ") :: styled marginStyle "|" ++ .text (" " ++ blanks (l.column - 1))
     :: marker l style]

/-- The block of a piece of advice about another place. -/
def locatedBlock (origin : String) (a : Advice × Location) : List StyledText :=
  adviceMessage a.1 :: placeLine origin (some a.2) :: sourceLines a.2 (adviceStyle a.1) ++ [[]]

/-- The block of the report itself. -/
def mainBlock (r : Report) : List StyledText :=
  let body := match r.location with
    | some l =>
      sourceLines l errorStyle ++ r.advice.map (adviceLine (blanks (toString l.line).length))
    | none => r.advice.map (adviceLine " ")
  messageLine "error" errorStyle r.message :: placeLine r.origin r.location :: body ++ [[]]

/-- **The lines of a report**, with an empty line after each block. -/
def lines (r : Report) : List StyledText :=
  mainBlock r ++ r.located.flatMap (locatedBlock r.origin)

/-- A report as text, with a line feed after every line. -/
def text (r : Report) : StyledText :=
  (lines r).flatMap fun line => line ++ [.text "\n"]

end WorstCase.Diagnostic
