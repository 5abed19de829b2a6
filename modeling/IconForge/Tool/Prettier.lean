import IconForge.Tool.Child

/-!
# The formatter

Sources are formatted by a child process that is run in text mode, or passed through when formatting is switched off.
-/

namespace IconForge.Tool

open Build

/-- A formatter: how it is run, and for which grammar. -/
structure Prettier where
  executable : String
  grammar : String
  deriving Repr, DecidableEq

namespace Prettier

/-- A formatter for a grammar. -/
def new (grammar : String) (executable? : Option String) : Prettier :=
  { executable := match executable? with
      | some e => if e = "" then "prettier" else e
      | none => "prettier"
    grammar }

/-- The formatter of component modules. -/
def forModules (typescript : Bool) (executable? : Option String) : Prettier :=
  new (if typescript then "typescript" else "babel") executable?

/-- The arguments of a child. -/
def arguments (p : Prettier) : List String := [p.executable, "--parser", p.grammar, "--single-quote"]

/-- What a child's end makes of the formatting. -/
def outcome (executable : String) : ChildRun → Except ToolFailure String
  | .missing =>
    .error (.refused ("Unable to locate prettier executable '" ++ executable
      ++ "'. Disable formatting or install prettier."))
  | .ended code stdout stderr => do
    let out ← decodeOutput stdout
    let err ← decodeOutput stderr
    if code ≠ 0 then
      .error (.refused ("prettier rejected generated source: "
        ++ firstSaid (toString code) [Text.trimmed err, Text.trimmed out]))
    else .ok out

end Prettier

end IconForge.Tool
