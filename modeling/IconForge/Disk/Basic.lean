import IconForge.Build.Fault
import IconForge.Disk.Platform
import IconForge.Text.Diagnostic
import IconForge.Text.Utf8

/-!
# The disk

A disk is a set of entries, files and directories, each at one location below the root. A path is looked up part by part: every part
but the last must lead to a directory, and two dots lead back up. What an operation refuses is named by a number and a text together
with the path it was given. There are no links and no permissions, and a path may have any number of parts.
-/

namespace IconForge

/-- A file or a directory. -/
inductive Entry where
  | file (content : List UInt8)
  | directory
  deriving Repr, DecidableEq

/-- Why the disk refuses an operation. -/
inductive Refusal where
  | missing
  | busy
  | present
  | notDirectory
  | directory
  | invalid
  | nameTooLong
  | notEmpty
  /-- A path that holds a zero byte, which would end it. -/
  | zeroByte
  deriving Repr, DecidableEq

namespace Refusal

/-- The number of a refusal. -/
def number : Refusal → Nat
  | missing => 2
  | busy => 16
  | present => 17
  | notDirectory => 20
  | directory => 21
  | invalid | zeroByte => 22
  | nameTooLong => 36
  | notEmpty => 39

/-- The text of a refusal. -/
def text : Refusal → String
  | missing => "No such file or directory"
  | busy => "Device or resource busy"
  | present => "File exists"
  | notDirectory => "Not a directory"
  | directory => "Is a directory"
  | invalid => "Invalid argument"
  | nameTooLong => "File name too long"
  | notEmpty => "Directory not empty"
  | zeroByte => "embedded null byte"

/-- The kind of fault that a refusal is. -/
def kind : Refusal → FaultKind
  | missing => .missing
  | present => .present
  | notDirectory => .notDirectory
  | directory => .directory
  | zeroByte => .value
  | _ => .storage

/-- A refusal with its number. -/
def numbered (r : Refusal) : String := "[Errno " ++ toString r.number ++ "] " ++ r.text

/-- A refusal as a fault about a written path. A path with a zero byte is not shown. -/
def fault (r : Refusal) (path : String) : Fault :=
  ⟨r.kind, if r = zeroByte then r.text else r.numbered ++ ": " ++ Text.shown path⟩

end Refusal

/-- The entries of a disk, the working directory, and the platform. The root is always there. -/
structure Disk where
  entries : List (Location × Entry)
  workingDirectory : Location
  platform : Platform := .sorted

namespace Disk

/-- The entry at a location. -/
def get? (d : Disk) (l : Location) : Option Entry :=
  if l.isEmpty then some .directory else (d.entries.find? (·.1 == l)).map (·.2)

/-- There is a directory at a location. -/
def hasDirectory (d : Disk) (l : Location) : Bool := d.get? l = some .directory

/-- Entries with one more, or with another entry in an old one's place. -/
def putEntry (l : Location) (e : Entry) : List (Location × Entry) → List (Location × Entry)
  | [] => [(l, e)]
  | x :: rest => if x.1 = l then (l, e) :: rest else x :: putEntry l e rest

/-- Puts an entry at a location. -/
def put (d : Disk) (l : Location) (e : Entry) : Disk := { d with entries := putEntry l e d.entries }

/-- A location that lies below another one, which does not lie below itself. -/
def isBelow (l base : Location) : Bool := base.isPrefixOf l && l != base

/-- A working directory that has been removed. Nothing lies in it, and nothing can be put there. -/
def isStray (l : Location) : Bool := l.getLast? = some ""

/-- A disk whose working directory stays for whoever works in it once it is gone. -/
def settled (d : Disk) : Disk :=
  if d.hasDirectory d.workingDirectory then d
  else
    let stray := d.workingDirectory.dropLast ++ [""]
    { d with entries := d.entries ++ [(stray, .directory)], workingDirectory := stray }

/-- Takes out all that lies below a location. -/
def clear (d : Disk) (l : Location) : Disk := { d with entries := d.entries.filter fun x => !isBelow x.1 l }.settled

/-- Takes out the entry at a location and all that lies below it. -/
def erase (d : Disk) (l : Location) : Disk := { d with entries := d.entries.filter fun x => !l.isPrefixOf x.1 }.settled

/-- The name of an entry right below a location. -/
def nameBelow? (base l : Location) : Option String :=
  match l.getLast? with
  | some name => if l.dropLast = base then some name else none
  | none => none

/-- The names in a directory, each once and in the order of the platform. -/
def names (d : Disk) (l : Location) : List String :=
  d.platform.order l ((d.entries.filterMap fun x => nameBelow? l x.1).filter (· != "")).eraseDups

/-- How far down the entries go. -/
def height (d : Disk) : Nat := (d.entries.map (·.1.length)).foldr max 0

/-- The longest name that an entry can have, in bytes. -/
def nameLimit : Nat := 255

/-- Goes from a location on along the parts of a path. -/
def walk (d : Disk) (l : Location) : List String → Except Refusal Location
  | [] => .ok l
  | part :: rest =>
    match d.get? l with
    | none => .error .missing
    | some (.file _) => .error .notDirectory
    | some .directory =>
      if isStray l && part != ".." then .error .missing
      else if nameLimit < part.utf8ByteSize then .error .nameTooLong
      else d.walk (if part = ".." then l.dropLast else l ++ [part]) rest

/-- Where a path starts. -/
def start (d : Disk) (p : Path) : Location := if p.isAbsolute then [] else d.workingDirectory

/-- A path holds a zero byte. -/
def holdsZeroByte (p : Path) : Bool := p.parts.any fun part => part.toList.contains '\x00'

/-- The location that a path leads to; there need be no entry, but its directory is there. -/
def locate (d : Disk) (p : Path) : Except Refusal Location :=
  if holdsZeroByte p then .error .zeroByte else d.walk (d.start p) p.parts

/-- The entry that a path leads to. -/
def status (d : Disk) (p : Path) : Except Refusal Entry :=
  match d.locate p with
  | .error r => .error r
  | .ok l =>
    match d.get? l with
    | some e => .ok e
    | none => .error .missing

/-- The answer to a question about an entry; where nothing can be, the answer is no. -/
def ask (d : Disk) (p : Path) (answer : Entry → Bool) : Except Refusal Bool :=
  match d.status p with
  | .ok e => .ok (answer e)
  | .error .missing | .error .notDirectory | .error .zeroByte => .ok false
  | .error r => .error r

/-- There is an entry where a path leads. -/
def pathExists (d : Disk) (p : Path) : Except Refusal Bool := d.ask p fun _ => true

/-- There is a directory where a path leads. -/
def isDirectory (d : Disk) (p : Path) : Except Refusal Bool := d.ask p (· = .directory)

/-- There is a file where a path leads. -/
def isFile (d : Disk) (p : Path) : Except Refusal Bool := d.ask p (· ≠ .directory)

/-- Parts with the ways back up taken. -/
def collapse : List String → List String → List String
  | back, [] => back.reverse
  | back, part :: rest => if part = ".." then collapse back.tail rest else collapse (part :: back) rest

/-- The fault of asking for a working directory that is gone. -/
def noWorkingDirectory : Fault := ⟨.missing, Refusal.missing.numbered⟩

/-- The working directory as long as it is there. -/
def workingPath (d : Disk) : Except Fault Path :=
  if isStray d.workingDirectory then .error noWorkingDirectory else .ok ⟨.root, d.workingDirectory⟩

/-- The absolute form of a path, with the ways back up taken. -/
def resolve (d : Disk) (p : Path) : Except Fault Path :=
  if holdsZeroByte p then .error (Refusal.zeroByte.fault p.toString)
  else if p.isAbsolute then .ok ⟨.root, collapse [] p.parts⟩
  else d.workingPath.map fun base => ⟨.root, collapse [] (base.parts ++ p.parts)⟩

end Disk

end IconForge
