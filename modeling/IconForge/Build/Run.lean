import IconForge.Build.Fault
import IconForge.Build.Schedule
import IconForge.Component.Source
import IconForge.Log.Record
import IconForge.Settings.Basic

/-!
# Running a build

A build clears its output, finds the icons, checks their names, reads them, has them optimized, and then renders, formats and writes
one component after the other and the index last. It works on a world that it sees only through its collaborators, and keeps a record
of what it asked of them.
-/

namespace IconForge.Build

open Component

/-- Why a tool gives no text: it refused, or something happened that the build does not expect of it. -/
inductive ToolFailure where
  | refused (message : String)
  | unexpected (f : Fault)
  deriving Repr, DecidableEq

/-- How a build fails by a tool: a refusal becomes the build error of the stage. -/
def ToolFailure.failure (error : String → BuildError) : ToolFailure → Failure
  | .refused message => .build (error message)
  | .unexpected f => .unexpected f

/-- What becomes of one optimization: how many turns it waits, and its result. -/
structure Attempt where
  turns : Nat
  outcome : Except ToolFailure String

/-- The job that an attempt is to the schedule. -/
def Attempt.job (a : Attempt) : Schedule.Job := ⟨a.turns, a.outcome.toBool.not⟩

/-- What a build works with. Every operation may change the world, also when it fails. -/
structure Collaborators (σ : Type) where
  removeTree : Path → σ → Except Fault Unit × σ
  makeDirs : Path → σ → Except Fault Unit × σ
  /-- Copies a static directory, or the one that comes with the program. -/
  copyStatic : Option Path → Path → σ → Except Fault Unit × σ
  listFiles : Path → String → σ → Except Fault (List Path) × σ
  readText : Path → σ → Except Fault String × σ
  writeText : Path → String → σ → Except Fault Unit × σ
  /-- What becomes of the optimization of a markup text, which is that of the icon at some place. -/
  optimize : Nat → String → Attempt
  /-- What the start of an optimization does to the world. -/
  startOptimizing : String → σ → σ
  /-- The optimizer is not needed any more. -/
  closeOptimizer : σ → σ
  format : String → σ → Except ToolFailure String × σ
  log : Log.Record → σ → σ

/-- An optimizer that does not care for the place of an icon. -/
instance : Coe (String → Attempt) (Nat → String → Attempt) := ⟨fun optimize _ => optimize⟩

/-- A call of the disk. -/
inductive Call where
  | remove (path : Path)
  | makeDirs (path : Path)
  | copy (source? : Option Path) (destination : Path)
  | list (root : Path) (pattern : String)
  | read (path : Path)
  | write (path : Path) (content : String)
  deriving Repr, DecidableEq

/-- What the disk answers to a call. -/
inductive Reply where
  | done
  | files (paths : List Path)
  | text (content : String)
  deriving Repr, DecidableEq

/-- A call of the disk, and what came of it. -/
structure Exchange where
  call : Call
  answer : Except Fault Reply

/-- A source that was handed to the formatter, and what came of it. -/
structure Formatting where
  source : String
  answer : Except ToolFailure String

/-- A world, and what a build has asked of its collaborators so far, in order. -/
structure Session (σ : Type) where
  world : σ
  exchanges : List Exchange := []
  /-- The texts handed to the optimizer, in the order of the icons. -/
  submitted : List String := []
  /-- What happened to them. -/
  history : List Schedule.Event := []
  formattings : List Formatting := []

/-- The calls of the disk. -/
def Session.calls {σ : Type} (s : Session σ) : List Call := s.exchanges.map (·.call)

/-- A step of a build: it keeps the session also when it fails. -/
abbrev BuildM (σ : Type) := ExceptT Failure (StateM (Session σ))

/-- An icon that has been found, with the name of its component. -/
structure Icon where
  path : Path
  name : String
  deriving Repr, DecidableEq

/-- What a build has written. -/
structure Result where
  components : List Path
  index : Path
  deriving Repr, DecidableEq

variable {σ α : Type}

/-- Logs a message of the build. -/
def note (c : Collaborators σ) (level : Int) (message : String) : BuildM σ Unit :=
  modify fun s => { s with world := c.log ⟨Log.loggerOf (some "orchestrator"), level, message⟩ s.world }

/-- How a build fails by a fault of the disk: one of an expected kind becomes the build error of the stage. -/
def faultFailure (expected : FaultKind → Bool) (error : String → BuildError) (f : Fault) : Failure :=
  if expected f.kind then .build (error f.message) else .unexpected f

/-- Calls the disk. -/
def call (request : Call) (reply : α → Reply) (operation : σ → Except Fault α × σ) (expected : FaultKind → Bool)
    (error : String → BuildError) : BuildM σ α := do
  let s ← get
  let (answer, world) := operation s.world
  set { s with world, exchanges := s.exchanges ++ [Exchange.mk request (answer.map reply)] }
  match answer with
  | .ok a => pure a
  | .error f => throw (faultFailure expected error f)

/-- The answer of a call that has nothing to tell. -/
def done : Unit → Reply := fun _ => .done

/-- Clears the output directory and copies the static files into it. -/
def prepare (c : Collaborators σ) (s : Settings) : BuildM σ Unit := do
  let error := BuildError.prepare s.outputDir
  call (.remove s.outputDir) done (c.removeTree s.outputDir) FaultKind.isStorage error
  call (.makeDirs s.componentsDir) done (c.makeDirs s.componentsDir) FaultKind.isStorage error
  call (.copy s.staticDir? s.outputDir) done (c.copyStatic s.staticDir? s.outputDir) FaultKind.isStorage error

/-- Checks the names of icons one after the other; `seen` are those that passed. -/
def checkNames (naming : Naming) (seen : List Icon) : List Path → Except BuildError (List Icon)
  | [] => .ok seen
  | path :: rest =>
    let name := identifier naming path
    if !isUsable name then .error (.unusableName path name)
    else match seen.find? (·.name == name) with
      | some earlier => .error (.duplicateName path earlier.path name)
      | none => checkNames naming (seen ++ [⟨path, name⟩]) rest

/-- Finds the icons and checks their names. -/
def discover (c : Collaborators σ) (s : Settings) : BuildM σ (List Icon) := do
  let paths ← call (.list s.inputDir s.pattern) .files (c.listFiles s.inputDir s.pattern) FaultKind.isStorage
    (.enumerate s.inputDir)
  match checkNames s.naming [] paths with
  | .ok icons => pure icons
  | .error e => throw (.build e)

/-- What a file can be unreadable for: refusals of the disk, and bytes that are no text. -/
def isUnreadable (k : FaultKind) : Bool := k.isStorage || k = .undecodable

/-- Reads the markup of one icon. -/
def readIcon (c : Collaborators σ) (icon : Icon) : BuildM σ String :=
  call (.read icon.path) .text (c.readText icon.path) isUnreadable (.read icon.path)

/-- Reads the markup of the icons, in order. -/
def readIcons (c : Collaborators σ) : List Icon → BuildM σ (List String)
  | [] => pure []
  | icon :: rest => do
    let markup ← readIcon c icon
    let markups ← readIcons c rest
    pure (markup :: markups)

/-- The jobs that some attempts are to the schedule. -/
def jobsOf (attempts : List (Icon × Attempt)) : List Schedule.Job := attempts.map fun a => a.2.job

/-- The result of every attempt, or the failure of the first one without. -/
def results : List (Icon × Attempt) → Except Failure (List String)
  | [] => .ok []
  | (icon, a) :: rest =>
    match a.outcome with
    | .error e => .error (e.failure (.optimize icon.path))
    | .ok text => (results rest).map (text :: ·)

/-- What a finished schedule leaves of the attempts: the failure that was heard first, or all results in the order of the icons. -/
def settle (attempts : List (Icon × Attempt)) (final : Schedule.State) : Except Failure (List String) :=
  match final.heard.head?.bind fun i => attempts[i]? with
  | some first => results [first]
  | none => results attempts

/-- What is to become of the optimizations of the icons. -/
def attempts (c : Collaborators σ) (icons : List Icon) (markups : List String) : List (Icon × Attempt) :=
  icons.zip (markups.mapIdx c.optimize)

/-- Has the icons optimized, a bounded number of them at a time, in the order in which `run` takes their turns. -/
def optimizeIcons (run : Nat → List Schedule.Job → Schedule.State) (c : Collaborators σ) (s : Settings) (icons : List Icon)
    (markups : List String) : BuildM σ (List String) := do
  let attempts := attempts c icons markups
  let final := run s.concurrency (jobsOf attempts)
  modify fun session =>
    let started := final.started.filterMap fun i => markups[i]?
    { session with
      world := c.closeOptimizer (started.foldl (fun w markup => c.startOptimizing markup w) session.world)
      submitted := markups
      history := final.history }
  match settle attempts final with
  | .ok texts => pure texts
  | .error f => throw f

/-- Formats the source of a component. -/
def formatSource (c : Collaborators σ) (icon : Icon) (source : String) : BuildM σ String := do
  let s ← get
  let (answer, world) := c.format source s.world
  set { s with world, formattings := s.formattings ++ [Formatting.mk source answer] }
  match answer with
  | .ok text => pure text
  | .error e => throw (e.failure (.format icon.path))

/-- Writes a file. -/
def writeFile (c : Collaborators σ) (target : Path) (content : String) : BuildM σ Unit :=
  call (.write target content) done (c.writeText target content) FaultKind.isStorage (.write target)

/-- Renders, formats and writes the component of one icon. -/
def emitComponent (c : Collaborators σ) (s : Settings) (icon : Icon) (markup : String) : BuildM σ Path := do
  match render icon.name s.typescript markup with
  | .error cause => throw (.build (.parse icon.path cause))
  | .ok source =>
    let text ← formatSource c icon source
    let target := s.componentsDir.child (componentFilename icon.name s.typescript)
    writeFile c target text
    note c Log.debug ("Wrote " ++ target.toString)
    pure target

/-- Renders, formats and writes the components, in order. -/
def emitComponents (c : Collaborators σ) (s : Settings) : List (Icon × String) → BuildM σ (List Path)
  | [] => pure []
  | (icon, markup) :: rest => do
    let target ← emitComponent c s icon markup
    let targets ← emitComponents c s rest
    pure (target :: targets)

/-- What a build does before anything is optimized: it clears its output, and finds and reads the icons. -/
def gather (c : Collaborators σ) (s : Settings) : BuildM σ (List Icon × List String) := do
  note c Log.info ("Building icons from " ++ s.inputDir.toString ++ " into " ++ s.outputDir.toString
    ++ (if s.typescript then " (typescript)" else ""))
  prepare c s
  let icons ← discover c s
  let markups ← readIcons c icons
  note c Log.debug ("Discovered " ++ toString icons.length ++ " icons")
  pure (icons, markups)

/-- What a build does with the optimized icons: it writes their components and the index. -/
def publish (c : Collaborators σ) (s : Settings) (icons : List Icon) (optimized : List String) : BuildM σ Result := do
  let components ← emitComponents c s (icons.zip optimized)
  let index := s.outputDir.child (indexFilename s.typescript)
  writeFile c index (indexSource (icons.map (·.name)))
  note c Log.info ("Wrote " ++ toString components.length ++ " icon components and " ++ index.toString)
  pure ⟨components, index⟩

/-- A build whose optimizations take their turns as `run` says. -/
def build (run : Nat → List Schedule.Job → Schedule.State) (c : Collaborators σ) (s : Settings) : BuildM σ Result := do
  let (icons, markups) ← gather c s
  let optimized ← optimizeIcons run c s icons markups
  publish c s icons optimized

/-- The outcome of a build whose optimizations take their turns as `run` says, and the session it leaves. -/
def runBuildBy (run : Nat → List Schedule.Job → Schedule.State) (c : Collaborators σ) (s : Settings) (world : σ) :
    Except Failure Result × Session σ :=
  (build run c s).run.run { world }

/-- The outcome of a build whose optimizations count their turns, and the session it leaves. -/
def runBuild (c : Collaborators σ) (s : Settings) (world : σ) : Except Failure Result × Session σ :=
  runBuildBy Schedule.run c s world

end IconForge.Build
