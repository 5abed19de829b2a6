import IconForge.Text.Cut

/-!
# Paths

A path starts at the working directory or at the root and goes down part by part. Reading a path drops empty parts and parts that
stay where they are, so a path has one written form; parts that go up are kept, since what they mean depends on the disk.
-/

namespace IconForge

/-- Where a path starts. -/
inductive Anchor where
  /-- The working directory. -/
  | here
  | root
  /-- A root that is written with exactly two slashes. -/
  | doubleRoot
  deriving Repr, DecidableEq

/-- The written form of an anchor. -/
def Anchor.toString : Anchor → String
  | .here => ""
  | .root => "/"
  | .doubleRoot => "//"

/-- A path: its anchor and its parts, none of them empty or a single dot. -/
structure Path where
  anchor : Anchor
  parts : List String
  deriving Repr, DecidableEq

namespace Path

/-- The working directory. -/
def here : Path := ⟨.here, []⟩

/-- The anchor that a written path starts with. -/
def anchorOf (s : List Char) : Anchor :=
  match s with
  | '/' :: '/' :: '/' :: _ => .root
  | '/' :: '/' :: _ => .doubleRoot
  | '/' :: _ => .root
  | _ => .here

/-- A part that says something: neither empty nor a single dot. -/
def isPart (s : String) : Bool := s != "" && s != "."

/-- The path that a text writes. -/
def ofString (s : String) : Path := ⟨anchorOf s.toList, (Text.cutString '/' s).filter isPart⟩

/-- The written form of a path. -/
def toString (p : Path) : String :=
  if p.anchor = .here && p.parts.isEmpty then "." else p.anchor.toString ++ Text.joined "/" p.parts

instance : ToString Path := ⟨toString⟩

/-- A path that does not depend on the working directory. -/
def isAbsolute (p : Path) : Bool := p.anchor != .here

/-- A path seen from another one: an absolute path stays as it is. -/
def join (base p : Path) : Path := if p.isAbsolute then p else ⟨base.anchor, base.parts ++ p.parts⟩

/-- The entry of a name below a path. -/
def child (p : Path) (name : String) : Path := ⟨p.anchor, p.parts ++ [name]⟩

/-- The last part, or nothing for a path without parts. -/
def name (p : Path) : String := p.parts.getLast?.getD ""

/-- The path without its last part; a path without parts stays as it is. -/
def parent (p : Path) : Path := ⟨p.anchor, p.parts.dropLast⟩

/-- A name without its last suffix: a dot that neither starts nor ends the name, and what follows it. -/
def stemOf (name : List Char) : List Char :=
  let suffix := name.reverse.takeWhile (· != '.')
  let stem := name.reverse.drop (suffix.length + 1)
  if suffix.isEmpty || stem.isEmpty then name else stem.reverse

/-- The last part without its suffix. -/
def stem (p : Path) : String := String.ofList (stemOf p.name.toList)

/-- What is left of a path below another one. -/
def below? (base p : Path) : Option Path :=
  if p.anchor = base.anchor && base.parts.isPrefixOf p.parts then some ⟨.here, p.parts.drop base.parts.length⟩ else none

/-- The child of a path lies below it. -/
theorem parent_child (p : Path) (name : String) : (p.child name).parent = p := by
  simp [child, parent]

/-- The name of a child is the name it was given. -/
theorem name_child (p : Path) (n : String) : (p.child n).name = n := by
  simp [child, name]

end Path

end IconForge
