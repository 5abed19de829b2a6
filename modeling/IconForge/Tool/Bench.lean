import IconForge.Tool.Svgo

/-!
# The uses of an optimizer

One optimizer tells the text of its settings file, starts children and is closed, in any order and any number of times. Each settings
file that it makes has a place of its own, which is given from outside.
-/

namespace IconForge.Tool

open Build

/-- The course of an optimization: its child is not found or comes to its end, or the optimization is cancelled while the child runs. -/
inductive Course where
  | ended (run : ChildRun)
  /-- The child may have ended by itself, with a code. -/
  | cancelled (code? : Option Int)
  deriving Repr, DecidableEq

/-- A use of an optimizer. -/
inductive Use where
  | configSource
  | close
  | optimize (markup : String) (course : Course)
  deriving Repr, DecidableEq

/-- A child at its start: what it is told and given, the settings file that it is told of, and what is in that file. -/
structure Child where
  arguments : List String
  input : String
  config : String
  /-- Nothing if there is no such file. -/
  settings? : Option String
  deriving Repr, DecidableEq

/-- What comes of a use. -/
inductive Answer where
  | source (text : String)
  | done
  | optimized (outcome : Except ToolFailure String)
  | interrupted (i : Svgo.Interruption)

/-- A use that has been made: the child that was started for it, and what came of it. -/
structure Turn where
  child? : Option Child
  answer : Answer

/-- An optimizer, and the settings files of it that are there, with their places and texts. -/
structure Bench where
  svgo : Svgo
  files : List (String × String)
  deriving Repr, DecidableEq

namespace Bench

/-- An optimizer that has not been used yet. -/
def new (executable? : Option String) (plugins : List String) : Bench := ⟨Svgo.new executable? plugins, []⟩

/-- What comes of the course of an optimization. -/
def answer (b : Bench) : Course → Answer
  | .ended run => .optimized (Svgo.outcome b.svgo.executable run)
  | .cancelled code? => .interrupted (Svgo.interruption code?)

variable (place : Nat → String) (b : Bench)

/-- The place of the settings file that was made last. -/
def config : String := place (b.svgo.created - 1)

/-- The optimizer with a settings file: if there is none, it makes a new one. -/
def ready : Bench :=
  if b.svgo.isOpen then b else ⟨b.svgo.opened, b.files ++ [(place b.svgo.created, b.svgo.configSource)]⟩

/-- The optimizer without its settings file. -/
def close : Bench :=
  if b.svgo.isOpen then ⟨b.svgo.closed, b.files.filter (·.1 != b.config place)⟩ else b

/-- The child that a ready optimizer starts. -/
def child (markup : String) : Child :=
  { arguments := b.svgo.arguments (b.config place)
    input := markup
    config := b.config place
    settings? := (b.files.find? (·.1 == b.config place)).map (·.2) }

/-- Uses an optimizer. -/
def use : Use → Turn × Bench
  | .configSource => (⟨none, .source b.svgo.configSource⟩, b)
  | .close => (⟨none, .done⟩, b.close place)
  | .optimize markup course => (⟨some ((b.ready place).child place markup), b.answer course⟩, b.ready place)

/-- The optimizer behind some uses. -/
def after (b : Bench) (us : List Use) : Bench := us.foldl (fun b u => (b.use place u).2) b

end Bench

end IconForge.Tool
