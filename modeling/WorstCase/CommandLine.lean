import WorstCase.Session

/-!
# The command line

The arguments of the program, read into a `Request`. There are three commands: an interactive console, a
script to run, and a sensitivity sweep over a script's variables. Options may stand before or after what
they do not take as a value; `--` ends them. Every option but `-v` is given at most once.

Arguments are read from left to right, and the first one that is wrong, or asks for help, decides.
-/

namespace WorstCase.CommandLine

/-- **What the program is to do.** -/
inductive Command where
  /-- Execute lines as they are typed. -/
  | console
  /-- Run a script. -/
  | script (file : String) (rendering : Rendering)
  /-- Sweep the tolerances of a script's variables. -/
  | sensitivity (file target : String)
  deriving DecidableEq, Repr

/-- **What the arguments ask for.** -/
inductive Request where
  /-- A command, in colours if they are wanted. -/
  | run (command : Command) (colors : Bool)
  /-- How the program is used. -/
  | help
  /-- Which version of the program it is. -/
  | version
  /-- Nothing: the arguments are wrong. -/
  | misuse
  deriving DecidableEq, Repr

/-- The arguments of a command that may be given. -/
structure Grammar where
  /-- Options without a value. -/
  flags : List String
  /-- Options with a value. -/
  valued : List String
  /-- How many other arguments there may be. -/
  positionals : Nat
  /-- Whether the version may be asked for. -/
  version : Bool
  deriving DecidableEq, Repr

/-- The arguments of a command that were given. -/
structure Given where
  flags : List String := []
  values : List (String × String) := []
  positionals : List String := []
  deriving DecidableEq, Repr

/-- What reading the arguments of a command ends in. -/
inductive Reading where
  /-- All were read. -/
  | complete (given : Given)
  /-- One of them decided what is asked for. -/
  | decided (request : Request)
  deriving DecidableEq, Repr

/-- Adds a flag, which must be known and new. -/
def Given.addFlag (g : Given) (grammar : Grammar) (name : String) : Option Given :=
  if name ∈ grammar.flags ∧ name ∉ g.flags then some { g with flags := name :: g.flags } else none

/-- Adds an option's value, the first of its name. -/
def Given.addValue (g : Given) (name value : String) : Option Given :=
  if (g.values.lookup name).isSome then none else some { g with values := (name, value) :: g.values }

/-- Adds another argument, if there may be one more and it is not empty. -/
def Given.addPositional (g : Given) (grammar : Grammar) (value : String) : Option Given :=
  if g.positionals.length < grammar.positionals ∧ value ≠ "" then
    some { g with positionals := g.positionals ++ [value] }
  else none

/-- What a group of one-letter options asks for, if it does not just say how much to log. -/
def shortOptions (grammar : Grammar) : List Char → Option Request
  | [] => none
  | 'v' :: rest => shortOptions grammar rest
  | 'h' :: _ => some .help
  | 'V' :: _ => some (if grammar.version then .version else .misuse)
  | _ :: _ => some .misuse

/-- How an argument is written. -/
inductive Form where
  /-- The mark that ends the options. -/
  | separator
  /-- An option by its name, with a value if it holds one. -/
  | long (name : String) (value : Option String)
  /-- A group of one-letter options. -/
  | short (letters : List Char)
  /-- Anything else. -/
  | word
  deriving DecidableEq, Repr

/-- The form of an argument. A single dash is a word. -/
def formOf (arg : String) : Form :=
  match arg.toList with
  | ['-', '-'] => .separator
  | '-' :: '-' :: rest =>
    let name := String.ofList (rest.takeWhile (· != '='))
    match rest.dropWhile (· != '=') with
    | _ :: value => .long name (some (String.ofList value))
    | [] => .long name none
  | '-' :: c :: rest => .short (c :: rest)
  | _ => .word

/-- Reads arguments that can only be words. -/
def readWords (grammar : Grammar) (g : Given) : List String → Reading
  | [] => .complete g
  | arg :: rest =>
    match g.addPositional grammar arg with
    | some g => readWords grammar g rest
    | none => .decided .misuse

/-- **Reads the arguments of a command.** -/
def readArgs (grammar : Grammar) (g : Given) : List String → Reading
  | [] => .complete g
  | arg :: rest =>
    match formOf arg with
    | .separator => readWords grammar g rest
    | .short letters =>
      match shortOptions grammar letters with
      | none => readArgs grammar g rest
      | some request => .decided request
    | .word =>
      match g.addPositional grammar arg with
      | some g => readArgs grammar g rest
      | none => .decided .misuse
    | .long "help" none => .decided .help
    | .long "version" none => .decided (if grammar.version then .version else .misuse)
    | .long "verbose" none => readArgs grammar g rest
    | .long name none =>
      if name ∈ grammar.valued then
        match rest with
        | value :: rest =>
          match formOf value, g.addValue name value with
          | .word, some g => readArgs grammar g rest
          | _, _ => .decided .misuse
        | [] => .decided .misuse
      else match g.addFlag grammar name with
        | some g => readArgs grammar g rest
        | none => .decided .misuse
    | .long name (some value) =>
      if name ∈ grammar.valued then
        match g.addValue name value with
        | some g => readArgs grammar g rest
        | none => .decided .misuse
      else .decided .misuse

/-- The arguments of the console. -/
def consoleGrammar : Grammar := ⟨["no-colors"], [], 0, false⟩

/-- The arguments of a script. -/
def scriptGrammar : Grammar :=
  ⟨["no-colors", "no-variation", "no-range", "no-temperature"], [], 1, false⟩

/-- The arguments of a sweep. -/
def sensitivityGrammar : Grammar := ⟨["no-colors"], ["target"], 1, false⟩

/-- The arguments before the command. -/
def topGrammar : Grammar := ⟨["no-colors"], [], 0, true⟩

/-- The command of the given name, with what was given for it. -/
def commandOf (name : String) (g : Given) : Option Command :=
  match name, g.positionals, g.values.lookup "target" with
  | "console", [], _ => some .console
  | "script", [file], _ =>
    some (.script file {
      variation := "no-variation" ∉ g.flags
      range := "no-range" ∉ g.flags
      temperature := "no-temperature" ∉ g.flags })
  | "sensitivity", [file], some target => some (.sensitivity file target)
  | _, _, _ => none

/-- The arguments that a command may be given. -/
def grammarOf : String → Option Grammar
  | "console" => some consoleGrammar
  | "script" => some scriptGrammar
  | "sensitivity" => some sensitivityGrammar
  | _ => none

/-- What asking for help on a command ends in: the command must exist. -/
def helpOn : List String → Request
  | [] => .help
  | [name] => if name = "help" ∨ (grammarOf name).isSome then .help else .misuse
  | _ => .misuse

/-- The request of a command with its arguments. -/
def requestOf (colors : Bool) (name : String) (args : List String) : Request :=
  if name = "help" then helpOn args
  else match grammarOf name with
    | none => .misuse
    | some grammar =>
      match readArgs grammar {} args with
      | .decided request => request
      | .complete g =>
        match commandOf name g with
        | some command => .run command (colors && "no-colors" ∉ g.flags)
        | none => .misuse

/-- **Reads the arguments of the program**: options, a command, and the arguments of the command. -/
def readFrom (g : Given) : List String → Request
  | [] => .misuse
  | arg :: rest =>
    match formOf arg with
    | .word => requestOf ("no-colors" ∉ g.flags) arg rest
    -- what follows the mark is no command any more
    | .separator => .misuse
    | .short letters =>
      match shortOptions topGrammar letters with
      | none => readFrom g rest
      | some request => request
    | .long _ _ =>
      match readArgs topGrammar g [arg] with
      | .complete g => readFrom g rest
      | .decided request => request

/-- What the arguments of the program ask for. -/
def request (args : List String) : Request := readFrom {} args

end WorstCase.CommandLine
