import IconForge.Markup.Parse
import IconForge.Path.Basic

/-!
# What can go wrong in a build

The collaborators of a build report faults of several kinds. The build turns the kinds it expects at a stage into a build error that
names the stage and the path; every other fault ends the build as it is.
-/

namespace IconForge

/-- What kind of fault a collaborator reports. -/
inductive FaultKind where
  | missing
  | present
  | directory
  | notDirectory
  /-- Any other refusal of the disk. -/
  | storage
  /-- Several files of a tree could not be copied. -/
  | copying
  /-- Bytes that are no text. -/
  | undecodable
  | value
  | range
  | unsupported
  | attribute
  | key
  | type
  | overflow
  | crash
  deriving Repr, DecidableEq

/-- Refusals of the disk. -/
def FaultKind.isStorage : FaultKind → Bool
  | .missing | .present | .directory | .notDirectory | .storage | .copying => true
  | _ => false

/-- A fault that a collaborator reports. -/
structure Fault where
  kind : FaultKind
  message : String
  deriving Repr, DecidableEq

/-- A failure of a build, by stage. -/
inductive BuildError where
  | prepare (output : Path) (cause : String)
  | enumerate (input : Path) (cause : String)
  | unusableName (icon : Path) (name : String)
  | duplicateName (icon earlier : Path) (name : String)
  | read (icon : Path) (cause : String)
  | optimize (icon : Path) (cause : String)
  | parse (icon : Path) (cause : Markup.Malformed)
  | format (icon : Path) (cause : String)
  | write (target : Path) (cause : String)
  deriving Repr, DecidableEq

namespace BuildError

/-- The wording of a failure. -/
def message : BuildError → String
  | prepare output cause => "Unable to prepare output directory " ++ output.toString ++ ": " ++ cause
  | enumerate input cause => "Unable to enumerate icons in " ++ input.toString ++ ": " ++ cause
  | unusableName icon name => icon.toString ++ " does not map to a valid component name ('" ++ name ++ "')"
  | duplicateName icon earlier name =>
    icon.toString ++ " and " ++ earlier.toString ++ " both map to component '" ++ name ++ "'"
  | read icon cause => "Unable to read " ++ icon.toString ++ ": " ++ cause
  | optimize icon cause => icon.toString ++ ": " ++ cause
  | parse icon cause => icon.toString ++ ": " ++ cause.message
  | format icon cause => icon.toString ++ ": " ++ cause
  | write target cause => "Unable to write " ++ target.toString ++ ": " ++ cause

/-- The path that a failure is about. -/
def path : BuildError → Path
  | prepare p _ | enumerate p _ | unusableName p _ | duplicateName p _ _ | read p _ | optimize p _ | parse p _ | format p _
  | write p _ => p

end BuildError

/-- How a build fails: with an error of its own, or with a fault that it does not expect where it arises. -/
inductive Failure where
  | build (e : BuildError)
  | unexpected (f : Fault)
  deriving Repr, DecidableEq

end IconForge
