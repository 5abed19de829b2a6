import IconForge.Disk.Basic
import IconForge.Text.Blank

/-!
# Changing the disk

Directories are made with all that leads to them, trees are removed from below, and files are read and written as text. What an
operation has done before it is refused stays done.
-/

namespace IconForge.Disk

variable {α : Type}

/-- The bytes of the file that a path leads to. -/
def readBytes (d : Disk) (p : Path) : Except Fault (List UInt8) :=
  match d.status p with
  | .error r => .error (r.fault p.toString)
  | .ok .directory => .error (Refusal.directory.fault p.toString)
  | .ok (.file content) => .ok content

/-- The text of the file that a path leads to. -/
def readText (d : Disk) (p : Path) : Except Fault String := do
  match Text.Utf8.decode (← d.readBytes p) with
  | .ok text => pure (Text.unifiedBreaks text)
  | .error f => throw ⟨.undecodable, f.message⟩

/-- Writes a file. -/
def writeBytes (d : Disk) (p : Path) (content : List UInt8) : Except Refusal Disk := do
  let l ← d.locate p
  match d.get? l with
  | some .directory => throw .directory
  | _ => pure (d.put l (.file content))

/-- Writes a text file. -/
def writeText (d : Disk) (p : Path) (text : String) : Except Fault Unit × Disk :=
  match d.writeBytes p (Text.Utf8.encode text) with
  | .ok d => (.ok (), d)
  | .error r => (.error (r.fault p.toString), d)

/-- Makes sure that there is a file, which keeps its content, and tells where it is. -/
def ensureFile (d : Disk) (p : Path) : Except Refusal (Location × Disk) := do
  let l ← d.locate p
  match d.get? l with
  | some .directory => throw .directory
  | some (.file _) => pure (l, d)
  | none => pure (l, d.put l (.file []))

/-- Adds bytes at the end of a file. -/
def appendBytes (d : Disk) (l : Location) (more : List UInt8) : Disk :=
  match d.get? l with
  | some (.file content) => d.put l (.file (content ++ more))
  | _ => d

/-- Makes one directory. What is there already, and what a way back up leads to, cannot be made. -/
def makeDirectory (d : Disk) (p : Path) : Except Refusal Disk := do
  match p.parts.getLast? with
  | none => throw .present
  | some ".." =>
    let l ← d.locate p.parent
    match d.get? l with
    | some .directory => throw .present
    | some (.file _) => throw .notDirectory
    | none => throw .missing
  | some _ =>
    let l ← d.locate p
    match d.get? l with
    | some _ => throw .present
    | none => pure (d.put l .directory)

/-- The end of making a directory that may be there already. -/
def acceptPresent (d : Disk) (p : Path) (r : Refusal) : Except Fault Unit × Disk :=
  match d.isDirectory p with
  | .ok true => (.ok (), d)
  | .ok false => (.error (r.fault p.toString), d)
  | .error r => (.error (r.fault p.toString), d)

/-- Makes a directory and, where they are missing, those that lead to it. The depth bounds how far up that goes. -/
def makeDirectories : Nat → Disk → Path → Except Fault Unit × Disk
  | 0, d, p => (.error (Refusal.missing.fault p.toString), d)
  | depth + 1, d, p =>
    match d.makeDirectory p with
    | .ok d => (.ok (), d)
    | .error .missing =>
      if p.parts.isEmpty then (.error (Refusal.missing.fault p.toString), d)
      else match makeDirectories depth d p.parent with
        | (.error f, d) => (.error f, d)
        | (.ok (), d) =>
          match d.makeDirectory p with
          | .ok d => (.ok (), d)
          | .error .missing => (.error (Refusal.missing.fault p.toString), d)
          | .error r => d.acceptPresent p r
    | .error r => d.acceptPresent p r

/-- Makes a directory and those that lead to it. -/
def makeDirs (d : Disk) (p : Path) : Except Fault Unit × Disk := makeDirectories (p.parts.length + 1) d p

/-- Removes a directory that has been emptied. -/
def removeEmptied (d : Disk) (p : Path) : Except Refusal Disk := do
  match p.parts.getLast? with
  | none => throw (if p.isAbsolute then .busy else .invalid)
  | some ".." =>
    let l ← d.locate p.parent
    match d.get? l with
    | some .directory => throw .notEmpty
    | some (.file _) => throw .notDirectory
    | none => throw .missing
  | some _ =>
    let l ← d.locate p
    pure (d.erase l)

/-- Removes a tree if there is one. A file is no tree. -/
def removeTree (d : Disk) (p : Path) : Except Fault Unit × Disk :=
  match d.pathExists p with
  | .error r => (.error (r.fault p.toString), d)
  | .ok false => (.ok (), d)
  | .ok true =>
    match d.locate p with
    | .error r => (.error (r.fault p.toString), d)
    | .ok l =>
      if d.hasDirectory l then
        let d := d.clear l
        match d.removeEmptied p with
        | .ok d => (.ok (), d)
        | .error r => (.error (r.fault p.toString), d)
      else (.error ⟨.notDirectory, Refusal.notDirectory.numbered ++ ": PosixPath(" ++ Text.shown p.toString ++ ")"⟩, d)

end IconForge.Disk
