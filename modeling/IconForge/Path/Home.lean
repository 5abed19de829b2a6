import IconForge.Build.Fault
import IconForge.Path.Basic

/-!
# Home directories

A relative path whose first part starts with a tilde leads to a home directory: one's own, or that of the user whose name follows.
-/

namespace IconForge

/-- Where the home directories are. -/
structure Homes where
  own : Path
  users : List (String × Path)
  deriving Repr, DecidableEq

namespace Homes

/-- The home directory that the part of a path behind its tilde names. -/
def find? (h : Homes) (user : String) : Option Path := if user = "" then some h.own else h.users.lookup user

/-- A path with its tilde replaced. -/
def expand (h : Homes) (p : Path) : Except Fault Path :=
  match p.parts with
  | first :: rest =>
    match first.toList with
    | '~' :: user =>
      if p.isAbsolute then .ok p
      else match h.find? (String.ofList user) with
        | some home => .ok (home.join ⟨.here, rest⟩)
        | none =>
          .error (if user.contains '\x00' then ⟨.value, "embedded null byte"⟩ else ⟨.crash, "Could not determine home directory."⟩)
    | _ => .ok p
  | [] => .ok p

/-- A path that does not start with a tilde stays as it is. -/
theorem expand_here (h : Homes) : h.expand Path.here = .ok Path.here := rfl

end Homes

end IconForge
