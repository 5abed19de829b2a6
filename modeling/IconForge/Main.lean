import IconForge.CommandLine.Run
import IconForge.Workspace.Readers
import Std.Time.Format

/-!
# The program

The outer layer: what lies below the working directory is read, the command runs on it, and what it has changed there is written back.
Children cannot be started from here, so the tools are missing and icons are only built where there is none to optimize.
-/

namespace IconForge.Program

/-- The parts of a written path. -/
def partsOf (path : String) : Location := (Path.ofString path).parts

/-- The written form of a location. -/
def written (l : Location) : String := (Path.mk .root l).toString

/-- Whatever lies at an entry and below it. -/
partial def entriesAt (e : IO.FS.DirEntry) : IO (List (Location × Entry)) := do
  let l := partsOf e.path.toString
  if ← e.path.isDir then
    let below ← (← e.path.readDir).toList.mapM entriesAt
    return (l, .directory) :: below.flatten
  else
    return [(l, .file (← IO.FS.readBinFile e.path).toList)]

/-- The directories that lead to a location, and the location itself. -/
def leading (l : Location) : List (Location × Entry) := (List.range l.length).map fun n => (l.take (n + 1), .directory)

/-- The disk as far as it can be seen from the working directory. -/
def readDisk : IO Disk := do
  let here ← IO.currentDir
  let l := partsOf here.toString
  let entries ← (← here.readDir).toList.mapM entriesAt
  return { entries := leading l ++ entries.flatten, workingDirectory := l }

/-- Removes what is gone and writes what is new or has changed. -/
def writeChanges (before after : Disk) : IO Unit := do
  for (l, e) in before.entries.reverse do
    if (after.get? l).isNone then
      match e with
      | .directory => IO.FS.removeDir (written l)
      | .file _ => IO.FS.removeFile (written l)
  for (l, e) in after.entries do
    if before.get? l ≠ some e then
      match e with
      | .directory => IO.FS.createDirAll (written l)
      | .file content => IO.FS.writeBinFile (written l) ⟨content.toArray⟩

/-- The workspace at the working directory. -/
def readWorkspace : IO Workspace := do
  let home := (← IO.getEnv "HOME").getD "/"
  let now ← Std.Time.PlainDateTime.now
  return {
    disk := ← readDisk
    homes := ⟨Path.ofString home, []⟩
    readers := .standard
    toolbox := .ofChildren (fun _ => .missing) fun _ => .missing
    now := now.format "uuuu-MM-dd HH:mm:ss,SSS"
    svgoPlace := "svgo.config.js"
    setup? := none
    console := ""
    runs := []
    svgo := Tool.Svgo.new none [] }

/-- Runs the words of a command line, and tells how the program ends. -/
def runWords (words : List String) : IO UInt32 := do
  let before ← readWorkspace
  let (ending, after) := CommandLine.run words before
  writeChanges before.disk after.disk
  IO.eprint after.console
  match ending with
  | .error f =>
    IO.eprintln f.message
    return 1
  | .ok e =>
    IO.print e.output
    match e.served? with
    | some (host, port) =>
      IO.eprintln ("no server is available for " ++ host ++ ":" ++ toString port)
      return 1
    | none => return UInt32.ofNat e.code

end IconForge.Program

/-- The program. -/
def main (words : List String) : IO UInt32 := IconForge.Program.runWords words
