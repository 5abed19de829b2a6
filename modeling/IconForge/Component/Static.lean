import IconForge.Text.Cut

/-!
# Static files

What lies beside the components unless settings name a directory of their own: a note for whoever finds them.
-/

namespace IconForge.Component

/-- The lines of the note. -/
def noteLines : List String :=
  ["# Generated icons",
   "",
   "Every file under `components/` is generated from an SVG source and exports a",
   "single React component. Import icons through the index module:",
   "",
   "```js",
   "import {Home} from './icons';",
   "",
   "<Home width={32} className=\"icon\" />",
   "```",
   "",
   "Icons inherit the surrounding text color (`fill`/`stroke` are set to",
   "`currentColor`) and default to `1em` when the source SVG declares no size.",
   "",
   "Do not edit these files by hand; rerun `iconbuild build` instead."]

/-- The static files that come with the program, by their names. -/
def staticFiles : List (String × String) := [("README.md", Text.joined "\n" noteLines ++ "\n")]

end IconForge.Component
