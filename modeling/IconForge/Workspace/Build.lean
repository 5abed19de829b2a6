import IconForge.Build.Run
import IconForge.Component.Static
import IconForge.Disk.Copy
import IconForge.Disk.Select
import IconForge.Settings.File
import IconForge.Workspace.Basic

/-!
# Builds in a workspace

The collaborators of a build are the disk, the optimizer and the formatter of the workspace. Every optimization ends at once.
-/

namespace IconForge.Workspace

open Build

/-- Where the static files come from that are on no disk. -/
def staticSource : String := "static"

/-- The log of the optimizer. -/
def noteOptimizer (message : String) (w : Workspace) : Workspace :=
  w.log ⟨Log.loggerOf (some "optimizer"), Log.debug, message⟩

/-- Starts the child that optimizes a text; the optimizer's settings file is written when there is none. -/
def startOptimizing (w : Workspace) : Workspace :=
  let w := if w.svgo.isOpen then w else noteOptimizer ("Wrote svgo config to " ++ w.svgoPlace) w
  let w := { w with svgo := w.svgo.opened }
  let arguments := w.svgo.arguments w.svgoPlace
  (noteOptimizer ("Running " ++ Text.joined " " arguments) w).started arguments

/-- Has a source formatted, unless formatting is switched off. -/
def format (s : Settings) (source : String) (w : Workspace) : Except ToolFailure String × Workspace :=
  if s.formatter.enabled then
    let p := Tool.Prettier.forModules s.typescript (some s.formatter.executable)
    (Tool.Prettier.outcome p.executable (w.toolbox.prettier source), w.started p.arguments)
  else (.ok source, w)

/-- What becomes of an optimization. -/
def attempt (svgo : Tool.Svgo) (toolbox : Toolbox) (markup : String) : Attempt :=
  ⟨0, Tool.Svgo.outcome svgo.executable (toolbox.svgo markup)⟩

/-- What a build works with. -/
def collaborators (s : Settings) (svgo : Tool.Svgo) (toolbox : Toolbox) : Collaborators Workspace :=
  { removeTree := fun p => onDisk (·.removeTree p)
    makeDirs := fun p => onDisk (·.makeDirs p)
    copyStatic := fun source? target => onDisk fun d =>
      match source? with
      | some source => d.copyStatic source target
      | none => d.copyFiles staticSource Component.staticFiles target
    listFiles := fun root pattern w => (w.disk.listFiles root pattern, w)
    readText := fun p w => (w.disk.readText p, w)
    writeText := fun p text => onDisk (·.writeText p text)
    optimize := attempt svgo toolbox
    startOptimizing := fun _ w => w.startOptimizing
    closeOptimizer := fun w => { w with svgo := w.svgo.closed }
    format := format s
    log := log }

/-- Runs a build. -/
def build (s : Settings) (w : Workspace) : Except Failure Result × Workspace :=
  let svgo := Tool.Svgo.new (some s.optimizer.executable) s.optimizer.plugins
  let (outcome, session) := runBuild (collaborators s svgo w.toolbox) s { w with svgo }
  (outcome, session.world)

/-- The settings of a build of which only the directories are told, and whether it makes typed components. -/
def plainSettings (input output : Path) (typescript : Bool) : SettingsDraft :=
  { inputDir := input, outputDir := output, typescript }

/-- Loads settings from the file that a path names. -/
def loadSettings (p : Path) (input? output? : Option Path) (w : Workspace) : Except LoadFailure Settings :=
  SettingsFile.load w.readers.document w.homes w.disk p input? output?

end IconForge.Workspace
