import WorstCase.Program

/-!
# The entry point

Arguments, files and streams. What is written and how the program ends is decided by the definitions
that this module calls: `CommandLine.request`, `runScript`, `runSensitivity` and `Console.respond`.
-/

namespace WorstCase.Main

/-- Writes text at once, in colours if they are wanted and the channel shows them. -/
def emit (colors : Bool) (e : Emission) : IO Unit := do
  let stream ← match e.channel with
    | .output => IO.getStdout
    | .error => IO.getStderr
  stream.putStr (e.rendered (colors && (← stream.isTty)))
  stream.flush

/-- Writes all that a run has to say. -/
def finish (colors : Bool) (r : Run) : IO UInt32 := do
  r.emissions.forM (emit colors)
  return r.exitCode.toUInt32

/-- Reads a file. -/
def readFile (file : String) : IO FileContent := do
  try
    match String.fromUTF8? (← IO.FS.readBinFile file) with
    | some text => return .text text.toList
    | none => return .notText
  catch
    | .noFileOrDirectory .. => return .missing
    | .inappropriateType _ code details =>
      return .unreadable (details ++ " (os error " ++ toString code ++ ")")
    | e => return .unreadable (toString e)

/-- Reads a line with its line feed; nothing at the end of the input. -/
partial def readLine (input : IO.FS.Stream) (before : ByteArray) : IO ByteArray := do
  let more ← input.read 1
  if more.isEmpty then return before
  else if more.data = #[10] then return before ++ more
  else readLine input (before ++ more)

/-- Answers lines until one ends the console. -/
partial def console (colors : Bool) (input : IO.FS.Stream) (s : Session) : IO UInt32 := do
  emit colors Console.prompt
  let raw ← readLine input .empty
  if raw.isEmpty then
    emit colors Console.farewell
    return 0
  match String.fromUTF8? raw with
  | none =>
    emit colors Console.notTextFailure
    return 1
  | some text =>
    let (answer, next) := Console.respond s text.toList
    answer.forM (emit colors)
    match next with
    | some s => console colors input s
    | none => return 0

/-- Carries out a command. -/
def perform (colors : Bool) : CommandLine.Command → IO UInt32
  | .console => do console colors (← IO.getStdin) {}
  | .script file rendering => do finish colors (runScript { rendering } file (← readFile file))
  | .sensitivity file target => do finish colors (runSensitivity {} file target (← readFile file))

end WorstCase.Main

/-- Does what the arguments ask for. -/
def main (args : List String) : IO UInt32 := do
  match WorstCase.CommandLine.request args with
  | .run command colors => WorstCase.Main.perform colors command
  | .help =>
    IO.println WorstCase.usage
    return 0
  | .version =>
    IO.println WorstCase.version
    return 0
  | .misuse =>
    IO.eprintln WorstCase.usage
    return 2
