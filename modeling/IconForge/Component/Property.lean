import IconForge.Markup.Node

/-!
# From attributes to properties

A component names its properties in camel case: separators drop out and the letter after them is raised. Two attribute names
collide with reserved words and get names of their own, and paint that is not switched off becomes the surrounding text colour.
-/

namespace IconForge.Component

open Markup

/-- The characters that separate the words of an attribute name. -/
def isSeparator (c : Char) : Bool := c = '-' || c = ':'

/-- Drops separators and raises what follows them; `raised` says that a separator has just been dropped. Letters beyond ASCII
have no raised form here. -/
def camelFrom : Bool → List Char → List Char
  | _, [] => []
  | raised, c :: rest =>
    if isSeparator c then camelFrom true rest
    else (if raised then c.toUpper else c) :: camelFrom false rest

/-- A name without separators: each run of them drops out and the ASCII letter after it is raised. -/
def camelize (name : String) : String := String.ofList (camelFrom false name.toList)

/-- Attribute names that a component may not use as they are, with the names that it uses instead. -/
def reservedProperties : List (String × String) := [("class", "className"), ("for", "htmlFor")]

/-- The attributes that hold paint. -/
def paintAttributes : List String := ["fill", "stroke"]

/-- The paint that follows the surrounding text. -/
def currentColor : String := "currentColor"

/-- The property for an attribute: the separated name in camel case, the reserved name replaced, or the paint made current
unless it is empty or `none`. -/
def translateAttribute (name value : String) : String × String :=
  if name.toList.any isSeparator then (camelize name, value)
  else match Attributes.get? name reservedProperties with
    | some property => (property, value)
    | none =>
      if paintAttributes.contains name && value != "" && value != "none" then (name, currentColor)
      else (name, value)

/-- The properties for attributes: names that become equal share the first one's place and the last one's value. -/
def translateAttributes (attrs : Attributes) : Attributes :=
  Attributes.ofPairs (attrs.map fun a => translateAttribute a.1 a.2)

mutual

/-- A tree with the attributes of every element translated; nothing else changes. -/
def translateTree : Node → Node
  | ⟨tag, attributes, children, text, tail⟩ =>
    ⟨tag, translateAttributes attributes, translateTrees children, text, tail⟩

/-- The trees of a list of siblings, translated one by one. -/
def translateTrees : List Node → List Node
  | [] => []
  | node :: rest => translateTree node :: translateTrees rest

end

end IconForge.Component
