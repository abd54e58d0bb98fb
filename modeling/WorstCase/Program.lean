import WorstCase.CommandLine
import WorstCase.Diagnostic

/-!
# The program

What each command writes, and how it ends. Everything written is an `Emission`, styled text for the
output or the error channel, so that a run of the program is a list of emissions and an exit code. How
text is read and written is left to the outside.

The console goes line by line: `Console.respond` says what a line is answered with and whether the
console goes on. It executes lines exactly as a script does.
-/

namespace WorstCase

open Terminal

/-- Where text is written to. -/
inductive Channel where
  | output
  | error
  deriving DecidableEq, Repr

/-- **Text written at once.** -/
structure Emission where
  /-- Where it goes. -/
  channel : Channel
  /-- What it is. -/
  text : StyledText
  deriving DecidableEq, Repr

namespace Emission

/-- A line of output. -/
def outputLine (text : String) : Emission := ⟨.output, [.text (text ++ "\n")]⟩

/-- A report on the error channel, with an empty line between it and the next. -/
def report (r : Report) : Emission := ⟨.error, Diagnostic.text r⟩

/-- A report that was placed in its text; one that could not be is given without a place. -/
def placedReport (origin message : String) : Except LocationError Report → Emission
  | .ok r => report r
  | .error _ => report (.unplaced origin message [])

/-- The text as it is written, with its styles or without. -/
def rendered (colors : Bool) (e : Emission) : String :=
  if colors then ansi e.text else plain e.text

end Emission

/-- **What a run of the program wrote, and its exit code.** -/
structure Run where
  emissions : List Emission
  exitCode : Nat
  deriving DecidableEq, Repr

namespace Run

/-- All that was written on a channel. -/
def written (r : Run) (channel : Channel) (colors : Bool) : String :=
  String.join ((r.emissions.filter (·.channel == channel)).map (·.rendered colors))

end Run

/-! ## Scripts -/

/-- What became of reading a file. -/
inductive FileContent where
  /-- Its text. -/
  | text (source : List Char)
  /-- There is no such file. -/
  | missing
  /-- It is not text. -/
  | notText
  /-- It cannot be read for another reason. -/
  | unreadable (reason : String)

/-- The report of a file that could not be read. -/
def unreadableReport (file reason : String) (advice : List Advice) : Report :=
  .unplaced file ("couldn't read `" ++ file ++ "` - " ++ reason) advice

/-- The text of a file, or the report that it cannot be read. -/
def FileContent.source (file : String) : FileContent → Except Report (List Char)
  | .text source => .ok source
  | .missing => .error (unreadableReport file "No such file or directory (os error 2)"
      [.help "scripts are read relative to the current directory"])
  | .notText => .error (unreadableReport file "stream did not contain valid UTF-8"
      [.note "scripts must be valid UTF-8"])
  | .unreadable reason => .error (unreadableReport file reason [])

/-- What a line of a script writes. -/
def ScriptLine.emission (file : String) (source : List Char) (l : ScriptLine) : Emission :=
  match l.result with
  | .ok text => .outputLine text
  | .error e => .placedReport file e.message (l.report file source e)

/-- Whether a line of a script failed. -/
def ScriptLine.hasFailed (l : ScriptLine) : Bool := l.error?.isSome

/-- **Runs a script from a file.** -/
def runScript (settings : Settings) (file : String) (content : FileContent) : Run :=
  match content.source file with
  | .error r => ⟨[.report r], 1⟩
  | .ok source =>
    let (lines, _) := Session.run { settings } source
    ⟨lines.map (·.emission file source), if lines.any (·.hasFailed) then 1 else 0⟩

/-- The table of a sweep, and the most sensitive variable if there is one. -/
def tableEmissions (t : SensitivityTable Binary64) : List Emission :=
  .outputLine t.text :: match t.mostSensitive with
    | some name =>
      [.outputLine "",
       ⟨.output, .text "most sensitive: " :: styled { bold := true } name ++ [.text "\n"]⟩]
    | none => []

/-- **Runs a script for its variables and sweeps their tolerances.** Of the script, only errors are
written, and they end the run. -/
def runSensitivity (settings : Settings) (file target : String) (content : FileContent) : Run :=
  match content.source file with
  | .error r => ⟨[.report r], 1⟩
  | .ok source =>
    let (lines, session) := Session.run { settings } source
    let failures := lines.filter (·.hasFailed)
    if !failures.isEmpty then ⟨failures.map (·.emission file source), 1⟩
    else match session.sensitivity target.toList with
      | .ok t => ⟨tableEmissions t, 0⟩
      | .error e => ⟨[.placedReport "<target>" e.message (e.report "<target>" target.toList)], 1⟩

/-! ## The console -/

namespace Console

/-- What stands before each line that is typed. -/
def prompt : Emission :=
  ⟨.output, styled { color := some .green, bold := true } "»" ++ [.text " "]⟩

/-- The name of the console in reports. -/
def origin : String := "<console>"

/-- A line as it was typed, without the characters that end it. -/
def typedLine (raw : List Char) : List Char :=
  (raw.reverse.dropWhile fun c => c == '\n' || c == '\r').reverse

/-- **What a line is answered with**, and the session after it, unless the line ends the console. -/
def respond (s : Session) (raw : List Char) : List Emission × Option Session :=
  let line := typedLine raw
  match s.execute line with
  | (.silent, s) => ([], some s)
  | (.output text, s) => ([.outputLine text], some s)
  | (.exit, _) => ([], none)
  | (.failed e, s) => ([.placedReport origin e.message (e.report origin line)], some s)

/-- What ends the console when no line is left. -/
def farewell : Emission := .outputLine ""

/-- What ends the console when a line is not text. -/
def notTextFailure : Emission :=
  ⟨.error, [.text ("Error: Error \x7b kind: InvalidData, message: "
    ++ "\"stream did not contain valid UTF-8\" \x7d\n")]⟩

/-- **A console with all its lines**, each of which may be text or not. -/
def runLines (s : Session) : List (Option (List Char)) → Run
  | [] => ⟨[prompt, farewell], 0⟩
  | none :: _ => ⟨[prompt, notTextFailure], 1⟩
  | some raw :: rest =>
    match respond s raw with
    | (answer, none) => ⟨prompt :: answer, 0⟩
    | (answer, some s) =>
      let after := runLines s rest
      ⟨prompt :: answer ++ after.emissions, after.exitCode⟩

end Console

/-- The program's name and version. -/
def version : String := "eecal 0.3.0"

/-- The help for the program as a whole. A command has its own help, which is not part of this; neither
is what the program says to arguments that it does not understand. -/
def usage : String :=
  "Worst-case tolerance calculator for electronics\n\n"
    ++ "Usage: eecal [OPTIONS] <COMMAND>\n\n"
    ++ "Commands:\n"
    ++ "  console      Start an interactive session\n"
    ++ "  script       Run every line of a script\n"
    ++ "  sensitivity  Sweep the tolerance of every variable of a script\n"
    ++ "  help         Print this message or the help of the given subcommand(s)\n\n"
    ++ "Options:\n"
    ++ "      --no-colors   Disable colors in the output\n"
    ++ "  -v, --verbose...  Log more details to stderr (repeat for more)\n"
    ++ "  -h, --help        Print help\n"
    ++ "  -V, --version     Print version"

end WorstCase
