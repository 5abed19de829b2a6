import IconForge.Json.Write
import IconForge.Tool.Child

/-!
# The optimizer

Markup is optimized by a child process that reads it and writes the optimized markup. Every child is told of one settings file, which is
made when the first child is started and removed when the optimizer is closed; after that the next child gets a new one.
-/

namespace IconForge.Tool

open Build

/-- An optimizer: how it is run, and the settings files it has made. -/
structure Svgo where
  executable : String
  plugins : List String
  /-- How many settings files have been made. -/
  created : Nat
  /-- The latest of them is there. -/
  isOpen : Bool
  deriving Repr, DecidableEq

namespace Svgo

/-- The plugins that always run. -/
def basePlugins : List String := ["removeStyleElement", "removeTitle"]

/-- Plugins with one more behind them, unless it is among them. -/
def addPlugin (plugins : List String) (plugin : String) : List String :=
  if plugins.contains plugin then plugins else plugins ++ [plugin]

/-- An optimizer that has not run yet. -/
def new (executable? : Option String) (plugins : List String) : Svgo :=
  { executable := match executable? with
      | some e => if e = "" then "svgo" else e
      | none => "svgo"
    plugins := plugins.foldl addPlugin basePlugins
    created := 0
    isOpen := false }

/-- What the settings file asks for: the preset, which must keep the view box, and the plugins. -/
def settings (s : Svgo) : Json.Value :=
  .object [("plugins", .array (
    .object [("name", .string "preset-default"), ("params", .object [("overrides", .object [("removeViewBox", .bool false)])])]
      :: s.plugins.map .string))]

/-- The text of the settings file. -/
def configSource (s : Svgo) : String := "module.exports = " ++ Json.laidOut s.settings ++ ";\n"

/-- The arguments of a child, for a settings file at the given place. -/
def arguments (s : Svgo) (config : String) : List String :=
  [s.executable, "--input", "-", "--output", "-", "--config", config]

/-- The optimizer when a child is started: its settings file is there. -/
def opened (s : Svgo) : Svgo := if s.isOpen then s else { s with created := s.created + 1, isOpen := true }

/-- The optimizer without its settings file. -/
def closed (s : Svgo) : Svgo := { s with isOpen := false }

/-- What a child's end makes of the optimization. -/
def outcome (executable : String) : ChildRun → Except ToolFailure String
  | .missing =>
    .error (.refused ("Unable to locate svgo executable '" ++ executable ++ "'. Install it with `npm install -g svgo`."))
  | .ended code stdout stderr =>
    if code ≠ 0 then
      .error (.refused ("svgo failed: " ++ firstSaid (toString code) [Text.trimmed (Text.Utf8.decodeLossy stderr)]))
    else
      match decodeOutput stdout with
      | .error f => .error f
      | .ok text =>
        let text := Text.trimmed text
        if text = "" then .error (.refused "svgo returned no output") else .ok text

/-- What is done to a child whose optimization is cancelled: it is killed and waited for unless it has ended. -/
structure Interruption where
  killed : Bool
  waited : Bool
  deriving Repr, DecidableEq

/-- The interruption of a child that has ended with a code, or not at all. -/
def interruption (code? : Option Int) : Interruption := ⟨code?.isNone, code?.isNone⟩

end Svgo

end IconForge.Tool
