import IconForge.Disk.Edit
import IconForge.Log.Message
import IconForge.Log.Setup
import IconForge.Path.Home
import IconForge.Service.Call
import IconForge.Tool.Prettier
import IconForge.Tool.Svgo
import IconForge.Yaml.Data

/-!
# The workspace

All that a run of the program can change: the disk, the console, how logging is set up, and the children that have been started. What
the tools answer is given from outside, as are the time, the place of the optimizer's settings file, and how settings files and requests
are read.
-/

namespace IconForge

/-- What the tools make of what they read, as the program sees it. -/
structure Toolbox where
  svgo : String → Tool.ChildRun
  /-- In text mode. -/
  prettier : String → Tool.ChildRun

/-- The tools that are some children: the formatter's are run in text mode. -/
def Toolbox.ofChildren (svgo prettier : String → Tool.ChildRun) : Toolbox := ⟨svgo, fun source => (prettier source).inTextMode⟩

/-- How what the program is given is read. -/
structure Readers where
  /-- The document in a settings file's text. -/
  document : Yaml.Reader
  /-- The build call in the body of a request. -/
  call : Service.Reader

/-- Where the program runs. -/
structure Workspace where
  disk : Disk
  homes : Homes
  readers : Readers
  toolbox : Toolbox
  /-- The time that the log file shows. -/
  now : String
  /-- Where the optimizer's settings file lies. -/
  svgoPlace : String
  setup? : Option Log.Setup
  /-- What the console shows. -/
  console : String
  /-- The arguments of the children that have been started, in order. -/
  runs : List (List String)
  /-- The optimizer of the current build. -/
  svgo : Tool.Svgo

namespace Workspace

variable {α : Type}

/-- A log file that is gone is not written to any more, even if there is another one in its place later. -/
def settled (w : Workspace) : Workspace :=
  match w.setup? with
  | some ⟨detail, some l⟩ =>
    match w.disk.get? l with
    | some (.file _) => w
    | _ => { w with setup? := some ⟨detail, none⟩ }
  | _ => w

/-- An operation on the disk. -/
def onDisk (operation : Disk → Except Fault α × Disk) (w : Workspace) : Except Fault α × Workspace :=
  let (answer, disk) := operation w.disk
  (answer, { w with disk }.settled)

/-- Shows a text on the console. -/
def tell (w : Workspace) (text : String) : Workspace := { w with console := w.console ++ text }

/-- Notes that a child has been started. -/
def started (w : Workspace) (arguments : List String) : Workspace := { w with runs := w.runs ++ [arguments] }

/-- Keeps a record in one place. -/
def keep (r : Log.Record) (w : Workspace) : Log.Sink → Workspace
  | .console => w.tell (Log.consoleLine w.setup? r)
  | .file place => { w with disk := w.disk.appendBytes place (Text.Utf8.encode (Log.fileLine w.now r)) }

/-- Keeps a record, if its level is high enough, wherever records go. -/
def log (r : Log.Record) (w : Workspace) : Workspace :=
  if Log.isEnabled w.setup? r.level then (Log.sinks w.setup?).foldl (keep r) w else w

/-- Keeps a message with its arguments in place; one whose arguments do not fit is dropped. -/
def logMessage (logger : String) (level : Int) (template : String) (args : List Log.Argument) (w : Workspace) : Workspace :=
  match Log.message? template args with
  | some message => w.log ⟨logger, level, message⟩
  | none => w

/-- Makes sure that there is a log file. Refusals name it by its absolute path. -/
def openLogFile (p : Path) (d : Disk) : Except Fault Location × Disk :=
  match d.makeDirs p.parent with
  | (.error f, d) => (.error f, d)
  | (.ok (), d) =>
    match d.resolve p with
    | .error f => (.error f, d)
    | .ok full =>
      match d.ensureFile full with
      | .error r => (.error (r.fault full.toString), d)
      | .ok (l, d) => (.ok l, d)

/-- Sets logging up. If there cannot be a log file, records go to the console all the same. -/
def configureLog (detail : Log.Detail) (file? : Option Path) (w : Workspace) : Except Fault Unit × Workspace :=
  let w := { w with setup? := some ⟨detail, none⟩ }
  match file? with
  | none => (.ok (), w)
  | some p =>
    match w.onDisk (openLogFile p) with
    | (.error f, w) => (.error f, w)
    | (.ok l, w) => (.ok (), { w with setup? := some ⟨detail, some l⟩ })

end Workspace

end IconForge
