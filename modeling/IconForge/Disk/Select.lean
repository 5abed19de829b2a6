import IconForge.Disk.Basic
import IconForge.Path.Pattern

/-!
# Finding files

A pattern is followed part by part from a directory down. In which order what is found is listed depends on the platform.
-/

namespace IconForge.Disk

/-- A place that has been reached: where it is, and by which path. -/
structure Place where
  location : Location
  path : Path
  deriving Repr, DecidableEq

/-- The place of a name below another place. -/
def Place.child (p : Place) (name : String) : Place :=
  ⟨if name = ".." then p.location.dropLast else p.location ++ [name], p.path.child name⟩

/-- A place and those of the directories below it: each one stands in front of those in it. The depth bounds how far down that goes. -/
def directoriesFrom (d : Disk) : Nat → Place → List Place
  | 0, p => [p]
  | depth + 1, p =>
    p :: ((d.names p.location).filter fun name => d.hasDirectory (p.location ++ [name])).flatMap fun name =>
      directoriesFrom d depth (p.child name)

/-- Places without those that come again. -/
def distinct (paths : List Path) : List Path := paths.foldl (fun seen p => if seen.contains p then seen else seen ++ [p]) []

/-- The paths that segments lead to from a directory. -/
def select (d : Disk) : List Segment → Place → Except Fault (List Path)
  | [], p => .ok [p.path]
  | .itself :: _, p => .ok [p.path]
  | .name name :: rest, p =>
    let next := p.child name
    if holdsZeroByte next.path then .ok []
    else if nameLimit < name.utf8ByteSize then .error (Refusal.nameTooLong.fault next.path.toString)
    else if (if rest.isEmpty then (d.get? next.location).isSome else d.hasDirectory next.location) then select d rest next
    else .ok []
  | .wild glyphs :: rest, p => do
    let matching := (d.names p.location).filter fun name =>
      (rest.isEmpty || d.hasDirectory (p.location ++ [name])) && Pattern.accepts glyphs name.toList
    pure (← matching.mapM fun name => select d rest (p.child name)).flatten
  | .everywhere :: rest, p => do
    pure (distinct (← (d.directoriesFrom d.height p).mapM (select d rest)).flatten)

/-- The fault of a pattern that is not accepted. -/
def patternFault : Pattern.Fault → Fault
  | .empty => ⟨.value, "Unacceptable pattern: ''"⟩
  | .absolute => ⟨.unsupported, "Non-relative patterns are unsupported"⟩
  | .nowhere => ⟨.range, "tuple index out of range"⟩
  | .noSelector => ⟨.attribute, "'_TerminatingSelector' object has no attribute 'select_from'"⟩
  | .doubleStar => ⟨.value, "Invalid pattern: '**' can only be an entire path component"⟩

/-- The files below a directory that match a pattern. -/
def listFiles (d : Disk) (root : Path) (pattern : String) : Except Fault (List Path) :=
  match d.isDirectory root with
  | .error r => .error (r.fault root.toString)
  | .ok false => .error ⟨.missing, "Input directory not found: " ++ root.toString⟩
  | .ok true =>
    match Pattern.read pattern, d.locate root with
    | .error f, _ => .error (patternFault f)
    | .ok _, .error r => .error (r.fault root.toString)
    | .ok segments, .ok location => do
      let found ← d.select segments ⟨location, root⟩
      let files := found.filter fun p => (d.isFile p).toOption.getD false
      pure (d.platform.arrange files)

end IconForge.Disk
