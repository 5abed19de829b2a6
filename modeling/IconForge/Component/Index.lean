import IconForge.Text.Cut

/-!
# The index module

The index exports every component under its identifier, in the order of the icons. An index without components is one empty
line.
-/

namespace IconForge.Component

/-- The suffix of the components. -/
def componentSuffix (typescript : Bool) : String := if typescript then ".tsx" else ".js"

/-- The file name of a component. -/
def componentFilename (identifier : String) (typescript : Bool) : String := identifier ++ componentSuffix typescript

/-- The file name of the index. -/
def indexFilename (typescript : Bool) : String := if typescript then "index.ts" else "index.js"

/-- How the index names the module of a component: its file, seen from the index, without the suffix. -/
def moduleSpecifier (identifier : String) : String := "./components/" ++ identifier

/-- The line that exports one component. -/
def exportLine (identifier : String) : String :=
  "export " ++ Text.braced ("default as " ++ identifier) ++ " from '" ++ moduleSpecifier identifier ++ "';\n"

/-- The text of the index. -/
def indexSource (identifiers : List String) : String :=
  let lines := String.join (identifiers.map exportLine)
  if lines = "" then "\n" else lines

end IconForge.Component
