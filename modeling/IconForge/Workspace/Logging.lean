import IconForge.Workspace.Basic

/-!
# The logger and its handlers

All loggers of the program stand below one, which lets records through from some level on and hands them to its handlers; each of these
has a level of its own, and a place where it writes. As long as there are no handlers, warnings and what is graver are shown as bare
messages. Setting logging up takes the handlers away one by one before it adds its own: one for the console, and then one for the log
file. If there cannot be a log file, the logger is left with the first of them.
-/

namespace IconForge.Log

/-- What writes records somewhere. -/
structure Handler where
  sink : Sink
  level : Int
  /-- Its lines tell which part of the program wrote the record. -/
  tagged : Bool
  deriving Repr, DecidableEq

/-- A record as a handler writes it. -/
def Handler.line (h : Handler) (now : String) (r : Record) : String :=
  match h.sink with
  | .console =>
    (if h.tagged then "[" ++ rootLogger ++ ":" ++ part r.logger ++ "] " else "[" ++ rootLogger ++ "] ")
      ++ levelName r.level ++ " " ++ r.message ++ "\n"
  | .file _ => fileLine now r

/-- The logger that all others of the program stand below. -/
structure Logger where
  /-- The lowest level of records that are let through. Zero leaves that to the logger above. -/
  level : Int
  /-- Records go on to the logger above, which has no handlers. -/
  propagates : Bool
  handlers : List Handler
  deriving Repr, DecidableEq

namespace Logger

/-- The logger as long as logging is not set up. -/
def new : Logger := ⟨0, true, []⟩

/-- The lowest level of records that are let through. -/
def threshold (l : Logger) : Int := if l.level = 0 then warning else l.level

/-- Records of a level are let through. -/
def isEnabled (l : Logger) (level : Int) : Bool := 0 < level && l.threshold ≤ level

/-- Adds a handler behind the others. -/
def add (l : Logger) (h : Handler) : Logger := { l with handlers := l.handlers ++ [h] }

/-- Takes a handler away. -/
def remove (l : Logger) (h : Handler) : Logger := { l with handlers := l.handlers.erase h }

/-- Takes all handlers away, one after the other. -/
def removeAll (l : Logger) : Logger := l.handlers.foldl remove l

/-- The logger that a setup leaves. -/
def ofSetup : Option Setup → Logger
  | none => new
  | some s =>
    let level := s.detail.level
    ⟨level, false, ⟨.console, level, s.detail = .all⟩ :: (s.file?.map fun place => ⟨.file place, level, false⟩).toList⟩

end Logger

/-- A call that sets logging up. -/
structure SetupCall where
  verbose : Bool
  quiet : Bool
  file? : Option String
  deriving Repr, DecidableEq

/-- The level that a call selects. Wishing for more goes before wishing for less. -/
def SetupCall.level (c : SetupCall) : Int := (Detail.of c.verbose c.quiet).level

/-- All that logging changes: the disk, the console and the logger, and the time that the log file shows. -/
structure Station where
  disk : Disk
  console : String
  now : String
  logger : Logger

namespace Station

/-- What a workspace logs with. -/
def ofWorkspace (w : Workspace) : Station := ⟨w.disk, w.console, w.now, .ofSetup w.setup?⟩

/-- Shows a text on the console. -/
def tell (s : Station) (text : String) : Station := { s with console := s.console ++ text }

/-- Has one handler write a record, if its level is high enough for the handler. -/
def handle (r : Record) (s : Station) (h : Handler) : Station :=
  if h.level ≤ r.level then
    match h.sink with
    | .console => s.tell (h.line s.now r)
    | .file place => { s with disk := s.disk.appendBytes place (Text.Utf8.encode (h.line s.now r)) }
  else s

/-- Logs a record of any part of the program. -/
def log (s : Station) (r : Record) : Station :=
  if s.logger.isEnabled r.level then
    if s.logger.handlers.isEmpty then (if warning ≤ r.level then s.tell (r.message ++ "\n") else s)
    else s.logger.handlers.foldl (handle r) s
  else s

/-- Sets logging up. -/
def configure (s : Station) (c : SetupCall) : Except Fault Unit × Station :=
  let logger := { s.logger with level := c.level, propagates := false }.removeAll.add ⟨.console, c.level, c.verbose⟩
  match c.file? with
  | none => (.ok (), { s with logger })
  | some file =>
    match Workspace.openLogFile (Path.ofString file) s.disk with
    | (.error f, disk) => (.error f, { s with disk, logger })
    | (.ok place, disk) => (.ok (), { s with disk, logger := logger.add ⟨.file place, c.level, false⟩ })

/-- The station behind some calls, whatever has come of each of them. -/
def after (s : Station) (calls : List SetupCall) : Station := calls.foldl (fun s c => (s.configure c).2) s

/-- The station behind some records. -/
def logAll (s : Station) (rs : List Record) : Station := rs.foldl log s

end Station

end IconForge.Log
