import IconForge.Component.Style

/-!
# Element expressions

A translated tree is written as an element expression. An attribute value stands in double quotes when it may, else as a string
literal in braces; text stands as a string literal in braces. The root gives up its declared size and takes the component's
own properties instead.
-/

namespace IconForge.Component

open Markup

/-- A string literal in braces. -/
def bracedLiteral (s : List Char) : List Char := '{' :: quoteChars s ++ ['}']

/-- The value of an attribute as it stands behind the equals sign. -/
def attributeValue (name value : String) : List Char :=
  if name = "style" then styleChars value.toList
  else if value.toList.any (fun c => c = '"' || c = '\n') then bracedLiteral value.toList
  else '"' :: value.toList ++ ['"']

/-- An attribute, with the blank that separates it from what stands before. -/
def attributeChars (a : String × String) : List Char :=
  ' ' :: a.1.toList ++ '=' :: attributeValue a.1 a.2

/-- A text as content of an element; no text gives no content. -/
def textChars (s : String) : List Char := if s = "" then [] else bracedLiteral s.toList

mutual

/-- An element expression, with `extra` written behind its attributes. -/
def elementChars (extra : List Char) : Node → List Char
  | ⟨tag, attributes, children, text, _⟩ =>
    let opening := '<' :: tag.toList ++ attributes.flatMap attributeChars ++ extra
    let inner := textChars text ++ childrenChars children
    if inner.isEmpty then opening ++ [' ', '/', '>']
    else opening ++ '>' :: inner ++ '<' :: '/' :: tag.toList ++ ['>']

/-- The children of an element, each with the text that follows it. -/
def childrenChars : List Node → List Char
  | [] => []
  | child :: rest => elementChars [] child ++ textChars child.tail ++ childrenChars rest

end

/-- What the root element takes from the component: its size and the caller's properties. -/
def rootProperties : List Char :=
  " width={widthFromSvg} height={heightFromSvg} {...props}".toList

/-- The tree without the size that its root declares. -/
def withoutSize (root : Node) : Node :=
  { root with attributes := (root.attributes.erase "width").erase "height" }

/-- The element expression of a component. -/
def rootChars (root : Node) : List Char := elementChars rootProperties (withoutSize root)

end IconForge.Component
