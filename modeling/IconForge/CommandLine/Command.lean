import IconForge.CommandLine.Reading
import IconForge.Component.Name
import IconForge.Text.Whole

/-!
# Commands

The program builds icons or serves builds. How much is logged can be said in front of the command and behind it; what is said behind it
adds to what is said in front.
-/

namespace IconForge.CommandLine

open Text

/-- The options of all commands. -/
inductive OptionKey where
  | help
  | verbose
  | quiet
  | typescript
  | settings
  | pattern
  | naming
  | noFormat
  | logFile
  | host
  | port
  deriving Repr, DecidableEq

/-- What is asked of a build. -/
structure BuildRequest where
  inputDir? : Option String
  outputDir? : Option String
  typescript : Bool
  settings : String
  pattern? : Option String
  naming? : Option String
  noFormat : Bool
  logFile? : Option String
  deriving Repr, DecidableEq

/-- What is asked of the program. -/
inductive Command where
  | build (request : BuildRequest)
  | serve (host : String) (port : Int)
  deriving Repr, DecidableEq

/-- A command, and how much is to be logged. -/
structure Invocation where
  verbose : Bool
  quiet : Bool
  command : Command
  deriving Repr, DecidableEq

/-- An option without an argument. -/
def flag (key : OptionKey) (names : List String) : Opt OptionKey := ⟨key, names, none⟩

/-- An option with any argument. -/
def valued (key : OptionKey) (name : String) : Opt OptionKey := ⟨key, [name], some fun _ => none⟩

/-- What is wrong with a word that must be one of several. -/
def choiceProblem (choices : List String) (word : String) : Option String :=
  if choices.contains word then none
  else some ("invalid choice: " ++ shown word ++ " (choose from " ++ joined ", " (choices.map shown) ++ ")")

/-- The whole number of a port. -/
def readPort (word : String) : Option Int := (readWhole 10 word.toList).toOption

/-- What is wrong with a port. -/
def portProblem (word : String) : Option String :=
  if (readPort word).isSome then none else some ("invalid int value: " ++ shown word)

/-- Wishes for more and for less logging exclude each other. -/
def rivals : OptionKey → List OptionKey
  | .verbose => [.quiet]
  | .quiet => [.verbose]
  | _ => []

/-- The options that every command and the program itself have. -/
def commonOptions : List (Opt OptionKey) :=
  [flag .help ["-h", "--help"], flag .verbose ["-v", "--verbose"], flag .quiet ["-q", "--quiet"]]

/-- The name of the program. -/
def programName : String := "iconbuild"

/-- The names of the commands. -/
def commandNames : List String := ["build", "serve"]

/-- What the program accepts in front of a command. -/
def programGrammar : Grammar OptionKey :=
  { program := programName
    usage := "usage: " ++ programName ++ " [-h] [-v | -q] {build,serve} ..."
    options := commonOptions
    rivals
    help := .help }

/-- What a build accepts. -/
def buildGrammar : Grammar OptionKey :=
  { program := programName ++ " build"
    usage := "usage: " ++ programName ++ " build [-h] [-v | -q] [--typescript] [--config CONFIG] [--pattern PATTERN]"
      ++ " [--naming {preserve,pascal}] [--no-format] [--log-file LOG_FILE] [input_dir] [output_dir]"
    options := commonOptions ++
      [flag .typescript ["--typescript"], valued .settings "--config", valued .pattern "--pattern",
        ⟨.naming, ["--naming"], some (choiceProblem (Component.Naming.words.map (·.1)))⟩, flag .noFormat ["--no-format"],
        valued .logFile "--log-file"]
    rivals
    help := .help }

/-- What serving accepts. -/
def serveGrammar : Grammar OptionKey :=
  { program := programName ++ " serve"
    usage := "usage: " ++ programName ++ " serve [-h] [-v | -q] [--host HOST] [--port PORT]"
    options := commonOptions ++ [valued .host "--host", ⟨.port, ["--port"], some portProblem⟩]
    rivals
    help := .help }

/-- A build with its options. -/
def buildCommand (r : Reading OptionKey) : Command :=
  .build
    { inputDir? := r.place? 0
      outputDir? := r.place? 1
      typescript := r.has .typescript
      settings := (r.last? .settings).getD "."
      pattern? := r.last? .pattern
      naming? := r.last? .naming
      noFormat := r.has .noFormat
      logFile? := r.last? .logFile }

/-- Serving with its options. -/
def serveCommand (r : Reading OptionKey) : Command :=
  .serve ((r.last? .host).getD "127.0.0.1") (((r.last? .port).bind readPort).getD 8000)

/-- A command with the words behind its name: what these say, and the command they make. -/
def readCommand (name : String) (words : List String) : Except Stop (Reading OptionKey × Command) :=
  match choiceProblem commandNames name with
  | some problem => .error (programGrammar.refuse ("argument command: " ++ problem))
  | none =>
    if name = "build" then (read buildGrammar (.optional 2) words).map fun r => (r, buildCommand r)
    else (read serveGrammar (.optional 0) words).map fun r => (r, serveCommand r)

/-- What is asked of the program. -/
def readInvocation (words : List String) : Except Stop Invocation := do
  let outer ← read programGrammar .command words
  match outer.command? with
  | some (name :: words) => do
    let (inner, command) ← readCommand name words
    match outer.leftOver ++ inner.leftOver with
    | [] => pure ⟨outer.has .verbose || inner.has .verbose, outer.has .quiet || inner.has .quiet, command⟩
    | extras => throw (programGrammar.refuse ("unrecognized arguments: " ++ joined " " extras))
  | _ => throw (programGrammar.refuse "the following arguments are required: command")

end IconForge.CommandLine
