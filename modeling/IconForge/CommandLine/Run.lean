import IconForge.CommandLine.Command
import IconForge.Workspace.Build

/-!
# Running a command

A command sets logging up and does its work. What fails in a way that is expected is told on the console and in the exit code; every other
fault ends the program as it is.
-/

namespace IconForge.CommandLine

/-- How the program ends. -/
structure Ending where
  code : Nat
  /-- What is written to standard output. -/
  output : String
  /-- Where builds are to be served. -/
  served? : Option (String × Int)
  deriving Repr, DecidableEq

/-- The end of a program that has written something. -/
def Ending.of (code : Nat) (output : String) : Ending := ⟨code, output, none⟩

/-- A path for the reader: seen from the working directory, if it lies below it. -/
def familiar (d : Disk) (p : Path) : Except Fault String := do
  let full ← d.resolve p
  match (← d.workingPath).below? full with
  | some rest => pure rest.toString
  | none => pure p.toString

/-- The settings that a request asks for: those of the settings file with the words of the request in their place. -/
def requestSettings (request : BuildRequest) (w : Workspace) : Except LoadFailure Settings := do
  let s ← w.loadSettings (Path.ofString request.settings) (request.inputDir?.map Path.ofString) (request.outputDir?.map Path.ofString)
  let override : Override :=
    { typescript? := if request.typescript then some true else none, pattern? := request.pattern?, naming? := request.naming? }
  let s ← (override.apply s).mapError .refused
  pure (if request.noFormat then { s with formatter := { s.formatter with enabled := false } } else s)

/-- Ends with a message on the console. -/
def complain (message : String) (w : Workspace) : Except Fault Ending × Workspace := (.ok (.of 1 ""), w.tell message)

/-- Ends with a report of what has been built. -/
def report (s : Settings) (r : Build.Result) (w : Workspace) : Except Fault Ending × Workspace :=
  ((familiar w.disk s.outputDir).map fun place =>
    .of 0 ("Generated " ++ toString r.components.length ++ " icons in " ++ place ++ "\n"), w)

/-- Builds. -/
def runBuild (request : BuildRequest) (w : Workspace) : Except Fault Ending × Workspace :=
  match requestSettings request w with
  | .error (.unexpected f) => (.error f, w)
  | .error (.refused e) => complain ("Invalid configuration: " ++ e.message ++ "\n") w
  | .ok s =>
    match w.build s with
    | (.error (.unexpected f), w) => (.error f, w)
    | (.error (.build e), w) =>
      complain (programName ++ " build failed: " ++ e.message ++ "\nRun with --verbose for more details.\n") w
    | (.ok r, w) => report s r w

/-- The log file that a command asks for. -/
def Command.logFile? : Command → Option String
  | build request => request.logFile?
  | serve _ _ => none

/-- Does what the words of a command line ask for. -/
def run (words : List String) (w : Workspace) : Except Fault Ending × Workspace :=
  match readInvocation words with
  | .error (.help usage) => (.ok (.of 0 (usage ++ "\n")), w)
  | .error (.refused usage program message) =>
    (.ok (.of 2 ""), w.tell (usage ++ "\n" ++ program ++ ": error: " ++ message ++ "\n"))
  | .ok i =>
    match w.configureLog (Log.Detail.of i.verbose i.quiet) (i.command.logFile?.map Path.ofString) with
    | (.error f, w) => (.error f, w)
    | (.ok (), w) =>
      match i.command with
      | .build request => runBuild request w
      | .serve host port => (.ok ⟨0, "", some (host, port)⟩, w)

end IconForge.CommandLine
