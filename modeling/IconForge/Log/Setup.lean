import IconForge.Disk.Basic
import IconForge.Log.Record

/-!
# Where log records go

As long as logging is not set up, warnings and what is graver go to the console as bare messages. A setup says from which level on records
are kept, how the console shows them, and perhaps in which file they are kept as well.
-/

namespace IconForge.Log

/-- How much is logged. -/
inductive Detail where
  /-- All records, with the part of the program that wrote them. -/
  | all
  /-- The steps of a build. -/
  | steps
  /-- Warnings and what is graver. -/
  | warnings
  deriving Repr, DecidableEq

namespace Detail

/-- The detail that two wishes ask for; of both the wish for more counts. -/
def of (verbose quiet : Bool) : Detail := if verbose then all else if quiet then warnings else steps

/-- The lowest level of records that are kept. -/
def level : Detail → Int
  | all => debug
  | steps => info
  | warnings => warning

end Detail

/-- How records are kept. -/
structure Setup where
  detail : Detail
  /-- The file that records are kept in, as long as it is there. -/
  file? : Option Location
  deriving Repr, DecidableEq

/-- Where a record goes. -/
inductive Sink where
  | console
  | file (place : Location)
  deriving Repr, DecidableEq

/-- Records go to the console, and to the log file if there is one. -/
def sinks (setup? : Option Setup) : List Sink := .console :: ((setup?.bind (·.file?)).map Sink.file).toList

/-- The lowest level of records that are kept. -/
def threshold : Option Setup → Int
  | some s => s.detail.level
  | none => warning

/-- Records of a level are kept. -/
def isEnabled (setup? : Option Setup) (level : Int) : Bool := 0 < level && threshold setup? ≤ level

/-- The part of the program that a logger belongs to: what follows the first dot of its name. -/
def part (logger : String) : String :=
  match (logger.toList.dropWhile (· != '.')).drop 1 with
  | [] => rootLogger
  | rest => String.ofList rest

/-- A record as the console shows it. -/
def consoleLine (setup? : Option Setup) (r : Record) : String :=
  let intro := match setup? with
    | none => ""
    | some s =>
      (if s.detail = .all then "[" ++ rootLogger ++ ":" ++ part r.logger ++ "] " else "[" ++ rootLogger ++ "] ")
        ++ levelName r.level ++ " "
  intro ++ r.message ++ "\n"

/-- A record as the log file keeps it, behind the time. -/
def fileLine (now : String) (r : Record) : String :=
  now ++ " " ++ levelName r.level ++ " " ++ r.logger ++ ": " ++ r.message ++ "\n"

end IconForge.Log
