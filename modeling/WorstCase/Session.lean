import WorstCase.Formula.Parsing
import WorstCase.Rendering
import WorstCase.Sensitivity
import WorstCase.Source.Lines

/-!
# Sessions

A **session** is what the lines entered so far have assigned. A line is executed for its result and for
the session after it: an assignment that succeeds enters the value under its name, and every other line
leaves the session as it is.

A script is its lines, executed one after the other until one says `exit`. A line that fails does not
stop the script. Its error is kept with the line, and the diagnosis of the line is placed in the whole
script when it is reported.
-/

namespace WorstCase

/-- **What a session is set to.** -/
structure Settings where
  /-- Which clauses of a result are shown. -/
  rendering : Rendering := {}
  /-- Which spellings are accepted. -/
  dialect : Dialect := {}
  /-- The ladder of a sensitivity sweep. -/
  tolerances : List Binary64 :=
    [1 / 1000, 5 / 1000, 1 / 100, 2 / 100, 5 / 100, 1 / 10].map Binary64.ofRat
  deriving DecidableEq

/-- **The settings, and the values assigned so far.** -/
structure Session where
  /-- What the session is set to. -/
  settings : Settings := {}
  /-- The values by name. -/
  environment : Environment Binary64 := .empty
  deriving DecidableEq

/-- Why a line has no result. -/
inductive LineError where
  /-- It is no formula. -/
  | parse (error : ParseError)
  /-- It has no value. -/
  | eval (error : EvalError Binary64)
  deriving DecidableEq

namespace LineError

/-- The diagnosis of an error in a line. -/
def diagnosis (line : List Char) : LineError → Diagnosis
  | .parse error => error.diagnosis line
  | .eval error => error.diagnosis

/-- The error, in words. -/
def message : LineError → String
  | .parse error => error.fault.message
  | .eval error => error.fault.message

/-- The report of an error in a line that stands for itself. -/
def report (origin : String) (line : List Char) (e : LineError) : Except LocationError Report :=
  Report.inText origin line (e.diagnosis line)

end LineError

/-- **What a line comes to.** -/
inductive LineResult where
  /-- There is nothing to say. -/
  | silent
  /-- This is to be shown. -/
  | output (text : String)
  /-- The session is to end. -/
  | exit
  /-- The line failed. -/
  | failed (error : LineError)
  deriving DecidableEq

namespace LineResult

/-- Why a line has no output, in words: it asked for the end of the session, or it failed. A silent line
needs no reason. -/
def message : LineResult → Option String
  | .silent | .output _ => none
  | .exit => some "exit requested"
  | .failed e => some e.message

/-- The report of a line without output that stands for itself. The end of the session has no place. -/
def report (origin : String) (line : List Char) :
    LineResult → Option (Except LocationError Report)
  | .silent | .output _ => none
  | .exit => some (.ok (.unplaced origin "exit requested" []))
  | .failed e => some (e.report origin line)

end LineResult

/-- Whether a line, its leading blanks removed, has nothing to execute. -/
def isSilent (trimmed : List Char) : Bool := trimmed.head?.all (· == '#')

/-- Whether a line, its leading blanks removed, asks to end the session: its first word is `exit`. -/
def isExit (trimmed : List Char) : Bool :=
  trimmed.takeWhile (!isWhitespace ·) == ['e', 'x', 'i', 't']

namespace Session

/-- The result of a statement, and the session after it. -/
def perform (s : Session) : Statement Binary64 → LineResult × Session
  | .assign _ name value =>
    match value.evalFor s.environment name.value with
    | .ok q =>
      (.output (name.value ++ " = " ++ s.settings.rendering.quantity q),
        { s with environment := s.environment.assign name.value q })
    | .error e => (.failed (.eval e), s)
  | .expression value =>
    match value.eval s.environment with
    | .ok outcome => (.output (s.settings.rendering.outcome outcome), s)
    | .error e => (.failed (.eval e), s)

/-- **Executes a line.** Blank lines and comments are silent. -/
def execute (s : Session) (line : List Char) : LineResult × Session :=
  let trimmed := trimStart line
  if isSilent trimmed then (.silent, s)
  else if isExit trimmed then (.exit, s)
  else match parseStatement s.settings.dialect line with
    | .ok statement => s.perform statement
    | .error e => (.failed (.parse e), s)

/-- The outcome of an expression, as things are. -/
def evaluate (s : Session) (text : List Char) : Except LineError (Outcome Binary64) :=
  match parseExpression s.settings.dialect text with
  | .error e => .error (.parse e)
  | .ok e => (e.eval s.environment).mapError .eval

/-- The sensitivity of an expression to every variable. -/
def sensitivity (s : Session) (target : List Char) :
    Except LineError (SensitivityTable Binary64) :=
  match parseExpression s.settings.dialect target with
  | .error e => .error (.parse e)
  | .ok e => (sweep s.environment s.settings.tolerances e).mapError .eval

end Session

/-! ## Scripts -/

/-- A line of a script that had something to show or failed. -/
structure ScriptLine where
  /-- The line. -/
  line : Line
  /-- What it came to. -/
  result : Except LineError String

namespace ScriptLine

/-- The error of a line that failed. -/
def error? (l : ScriptLine) : Option LineError :=
  match l.result with
  | .ok _ => none
  | .error e => some e

/-- What a line has to show. -/
def output? (l : ScriptLine) : Option String := l.result.toOption

/-- The line as the script has it, or nothing if the script has no such place. -/
def source (l : ScriptLine) (script : List Char) : List Char :=
  (sliceAt? script l.line.start (byteSize l.line.text)).getD []

/-- The report of a line's error, placed in the script. -/
def report (l : ScriptLine) (origin : String) (script : List Char) (e : LineError) :
    Except LocationError Report :=
  Report.inLine origin script (l.source script) l.line.start (e.diagnosis (l.source script))

end ScriptLine

namespace Session

/-- Executes lines until one ends the session. -/
def runLines (s : Session) : List Line → List ScriptLine × Session
  | [] => ([], s)
  | line :: rest =>
    match s.execute line.text with
    | (.silent, s) => s.runLines rest
    -- the lines after it are not even read
    | (.exit, s) => ([], s)
    | (.output text, s) =>
      let (lines, s) := s.runLines rest
      (⟨line, .ok text⟩ :: lines, s)
    | (.failed e, s) =>
      let (lines, s) := s.runLines rest
      (⟨line, .error e⟩ :: lines, s)

/-- **Runs a script.** -/
def run (s : Session) (script : List Char) : List ScriptLine × Session :=
  s.runLines (linesOf script)

end Session

end WorstCase
