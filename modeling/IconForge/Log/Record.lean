/-!
# Log records

A record is written by one logger at one level. Levels are whole numbers, of which five have names.
-/

namespace IconForge.Log

/-- What is logged. -/
structure Record where
  logger : String
  level : Int
  message : String
  deriving Repr, DecidableEq

/-- The levels that have names. -/
def levelNames : List (Int × String) := [(10, "DEBUG"), (20, "INFO"), (30, "WARNING"), (40, "ERROR"), (50, "CRITICAL"), (0, "NOTSET")]

/-- Details of every step. -/
def debug : Int := 10

/-- The steps of a build. -/
def info : Int := 20

/-- What deserves attention. -/
def warning : Int := 30

/-- The name of a level; a level without one is named by its number. -/
def levelName (level : Int) : String :=
  ((levelNames.find? (·.1 == level)).map (·.2)).getD ("Level " ++ toString level)

/-- The logger that all others stand below. -/
def rootLogger : String := "iconbuild"

/-- The logger of one part of the program, or the common one. -/
def loggerOf (part? : Option String) : String :=
  match part? with
  | some part => if part = "" then rootLogger else rootLogger ++ "." ++ part
  | none => rootLogger

end IconForge.Log
