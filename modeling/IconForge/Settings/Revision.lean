import IconForge.Settings.Basic

/-!
# Settings that are revised

Settings are revised by calls with keywords, any number of times. A call makes a new object out of those in force, unless it brings no
value at all: then it answers with the object in force itself. A call that is refused leaves that object in force.
-/

namespace IconForge

/-- The keywords of a call, each of which may be left out. One that is there brings a value, or nothing. -/
structure Keywords where
  inputDir : Option (Option String) := none
  outputDir : Option (Option String) := none
  typescript : Option (Option Bool) := none
  pattern : Option (Option String) := none
  naming : Option (Option String) := none
  concurrency : Option (Option Int) := none
  staticDir : Option (Option String) := none
  optimizer : Option (Option OptimizerSettings) := none
  formatter : Option (Option FormatterSettings) := none
  deriving DecidableEq

/-- The new values that keywords bring. -/
def Keywords.override (k : Keywords) : Override :=
  { inputDir? := k.inputDir.join.map Path.ofString
    outputDir? := k.outputDir.join.map Path.ofString
    typescript? := k.typescript.join
    pattern? := k.pattern.join
    naming? := k.naming.join
    concurrency? := k.concurrency.join
    staticDir? := k.staticDir.join.map Path.ofString
    optimizer? := k.optimizer.join
    formatter? := k.formatter.join }

/-- Settings as an object, which has a number of its own among all that are made one after the other. -/
structure Revision where
  settings : Settings
  number : Nat
  deriving DecidableEq

namespace Revision

/-- What a call answers: the object in force itself, or the next one. -/
def call (r : Revision) (k : Keywords) : Except SettingsError Revision :=
  if k.override.isEmpty then .ok r else (k.override.apply r.settings).map fun s => ⟨s, r.number + 1⟩

/-- The object in force after a call. -/
def take (r : Revision) (k : Keywords) : Revision :=
  match r.call k with
  | .ok next => next
  | .error _ => r

/-- The object in force after some calls. -/
def after (r : Revision) (calls : List Keywords) : Revision := calls.foldl take r

end Revision

end IconForge
