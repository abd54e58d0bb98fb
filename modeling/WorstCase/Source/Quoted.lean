import WorstCase.Source.CodePoint.Combining
import WorstCase.Source.CodePoint.Invisible
import WorstCase.Source.CodePoint.Unassigned

/-!
# Quoted text

How a piece of text is quoted inside a message: between double quotes, with quotes, backslashes and
whatever would not show by itself escaped. An escape names a common control character or gives the code
point in hexadecimal. Three classes of code points do not show by themselves: the invisible characters,
the marks that join the character before them, and the code points that stand for no character.
-/

namespace WorstCase.Quoted

/-- Whether a character is escaped for not showing by itself. -/
def isHidden (code : Nat) : Bool :=
  CodePoint.isIn CodePoint.invisible code || CodePoint.isIn CodePoint.combining code
    || CodePoint.isIn CodePoint.unassigned code

/-- A code point in hexadecimal, as an escape. -/
def escapeCode (code : Nat) : String :=
  "\\u\x7b" ++ String.ofList (Nat.toDigits 16 code) ++ "\x7d"

/-- A character as it appears in quoted text. -/
def escape (c : Char) : String :=
  if c = '"' then "\\\""
  else if c = '\\' then "\\\\"
  else if c = '\x00' then "\\0"
  else if c = '\t' then "\\t"
  else if c = '\n' then "\\n"
  else if c = '\r' then "\\r"
  else if isHidden c.toNat then escapeCode c.toNat
  else c.toString

/-- A text in quotes. -/
def text (cs : List Char) : String :=
  "\"" ++ String.join (cs.map escape) ++ "\""

end WorstCase.Quoted
