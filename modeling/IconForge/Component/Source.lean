import IconForge.Component.Element
import IconForge.Component.Index
import IconForge.Markup.Parse

/-!
# The component module

The module of an icon binds one component and exports it as its default: a function from the caller's properties to the element
expression of the icon, with the declared size as the default size.
-/

namespace IconForge.Component

open Markup

/-- The type of the caller's properties, as a typed module declares it. -/
def propertiesType : String := ": React.SVGProps<SVGSVGElement>"

/-- The declaration that a module holds for a size. -/
def sizeDeclaration (name : String) (size : Option String) : String :=
  "const " ++ name ++ " = " ++ sizeLiteral size ++ " || " ++ sizeFallback ++ ";"

/-- The text of a component module for a translated tree. -/
def moduleSource (identifier : String) (typescript : Bool) (root : Node) : String :=
  "import React from 'react';\n\nconst " ++ identifier ++ " = (props" ++ (if typescript then propertiesType else "")
    ++ ") => "
    ++ Text.braced ("\n  " ++ sizeDeclaration "widthFromSvg" (root.attributes.get? "width")
      ++ "\n  " ++ sizeDeclaration "heightFromSvg" (root.attributes.get? "height")
      ++ "\n  return (\n    " ++ String.ofList (rootChars root) ++ "\n  );\n")
    ++ ";\n\nexport default " ++ identifier ++ ";\n"

/-- The component module of a markup text. -/
def render (identifier : String) (typescript : Bool) (markup : String) : Except Malformed String :=
  (parse markup).map fun root => moduleSource identifier typescript (translateTree root)

end IconForge.Component
