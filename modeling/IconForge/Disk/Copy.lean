import IconForge.Disk.Edit

/-!
# Copying trees

A tree is copied into a directory that may hold something already. Entries that the disk refuses are collected, and the others are
copied all the same; only a program that has gone too deep gives up.
-/

namespace IconForge.Disk

variable {α : Type}

/-- Why an entry could not be copied. -/
inductive CopyFault where
  | failed (source target cause : String)
  /-- Source and target are the same file. What is reported is a text, and it is taken letter by letter. -/
  | letter (c : Char)
  deriving Repr, DecidableEq

/-- The written form of a copy fault. -/
def CopyFault.toString : CopyFault → String
  | failed source target cause =>
    "(" ++ Text.shown source ++ ", " ++ Text.shown target ++ ", " ++ Text.shown cause ++ ")"
  | letter c => Text.shown (String.singleton c)

/-- How copying a tree ends: at once with a fault, or with the entries that were left out. -/
inductive CopyEnd where
  | broken (f : Fault)
  | ended (faults : List CopyFault)

/-- A name below a written path. -/
def under (base name : String) : String := if base.endsWith "/" then base ++ name else base ++ "/" ++ name

/-- Is there a directory where a written path leads? -/
def leadsToDirectory (d : Disk) (written : String) : Bool := ((d.isDirectory (Path.ofString written)).toOption).getD false

/-- Makes the directory that a written path names, and those that lead to it. It may be there already. -/
def ensureDirectories : Nat → Disk → String → Except Fault Unit × Disk
  | 0, d, _ => (.ok (), d)
  | depth + 1, d, written =>
    let p := Path.ofString written
    let isThere := ((d.pathExists p.parent).toOption).getD false
    let (fault?, d) :=
      if p.parts.length < 2 || isThere then ((none : Option Fault), d)
      else match ensureDirectories depth d p.parent.toString with
        | (.error f, d) => (if f.kind = .present then none else some f, d)
        | (.ok (), d) => (none, d)
    match fault? with
    | some f => (.error f, d)
    | none =>
      match d.makeDirectory p with
      | .ok d => (.ok (), d)
      | .error r => if leadsToDirectory d written then (.ok (), d) else (.error (r.fault written), d)

/-- Makes the directory that a written path names. -/
def ensureDirectory (d : Disk) (written : String) : Except Fault Unit × Disk :=
  ensureDirectories ((Path.ofString written).parts.length + 1) d written

/-- Copies the bytes of a file of some name to a written target; onto a directory means into it. -/
def copyFile (d : Disk) (name source target : String) (location? : Option Location) (content : List UInt8) :
    List CopyFault × Disk :=
  let into := if leadsToDirectory d target then under target name else target
  let p := Path.ofString into
  let same := match d.locate p, location? with
    | .ok l, some source => l = source && (d.get? l).isSome
    | _, _ => false
  if same then
    ((("<DirEntry " ++ Text.shown name ++ "> and " ++ Text.shown into ++ " are the same file").toList.map .letter), d)
  else
    match d.writeBytes p content with
    | .ok d => ([], d)
    | .error r => ([.failed source target (r.fault into).message], d)

/-- Copies one thing after the other. What is left out is collected. -/
def copyEach (copy : Disk → α → CopyEnd × Disk) : List α → Disk → CopyEnd × Disk
  | [], d => (.ended [], d)
  | x :: rest, d =>
    match copy d x with
    | (.broken f, d) => (.broken f, d)
    | (.ended faults, d) =>
      match copyEach copy rest d with
      | (.broken f, d) => (.broken f, d)
      | (.ended more, d) => (.ended (faults ++ more), d)

/-- Copies the entry of a name, if it is a directory as `copy` does. A directory that the disk refuses to copy is left out. -/
def copyEntry (copy : Disk → Location → String → String → CopyEnd × Disk) (l : Location) (source target : String) (d : Disk)
    (name : String) : CopyEnd × Disk :=
  let origin := under source name
  let goal := under target name
  match d.get? (l ++ [name]) with
  | some .directory =>
    match copy d (l ++ [name]) origin goal with
    | (.broken f, d) => (if f.kind.isStorage then .ended [.failed origin goal f.message] else .broken f, d)
    | (.ended faults, d) => (.ended faults, d)
  | some (.file content) =>
    (copyFile d name origin goal (some (l ++ [name])) content).map .ended id
  | none => (.ended [.failed origin goal (Refusal.missing.fault origin).message], d)

/-- Copies a tree, whose location is given, into a target. The depth bounds how far down that goes. -/
def copyTree : Nat → Disk → Location → String → String → CopyEnd × Disk
  | 0, d, _, _, _ => (.broken ⟨.crash, "maximum recursion depth exceeded"⟩, d)
  | depth + 1, d, l, source, target =>
    let names := d.names l
    match d.ensureDirectory target with
    | (.error f, d) => (.broken f, d)
    | (.ok (), d) => copyEach (copyEntry (copyTree depth) l source target) names d

/-- The fault of a tree of which entries were left out. -/
def copyFault (faults : List CopyFault) : Fault :=
  ⟨.copying, "[" ++ Text.joined ", " (faults.map CopyFault.toString) ++ "]"⟩

/-- The end of copying a tree, as an answer. -/
def copyAnswer : CopyEnd × Disk → Except Fault Unit × Disk
  | (.broken f, d) => (.error f, d)
  | (.ended [], d) => (.ok (), d)
  | (.ended faults, d) => (.error (copyFault faults), d)

/-- Copies the contents of a directory, if it is one, into another one. -/
def copyStatic (d : Disk) (source target : Path) : Except Fault Unit × Disk :=
  match d.isDirectory source with
  | .error r => (.error (r.fault source.toString), d)
  | .ok false => (.ok (), d)
  | .ok true =>
    match d.locate source with
    | .error r => (.error (r.fault source.toString), d)
    | .ok l => copyAnswer (copyTree d.platform.copyDepth d l source.toString target.toString)

/-- Copies one of some files that are on no disk. -/
def copyNote (source target : String) (d : Disk) (file : String × String) : CopyEnd × Disk :=
  (copyFile d file.1 (under source file.1) (under target file.1) none (Text.Utf8.encode file.2)).map .ended id

/-- Copies files that are on no disk into a directory. -/
def copyFiles (d : Disk) (source : String) (files : List (String × String)) (target : Path) : Except Fault Unit × Disk :=
  match d.ensureDirectory target.toString with
  | (.error f, d) => (.error f, d)
  | (.ok (), d) => copyAnswer (copyEach (copyNote source target.toString) files d)

end IconForge.Disk
