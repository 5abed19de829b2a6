import IconForge.Component.Literal
import IconForge.Component.Property
import IconForge.Text.Cut

/-!
# Inline styles

An inline style is a list of declarations. It becomes an object whose keys are the property names in camel case, custom
properties quoted as they are, and whose values are string literals. Pieces without a colon and pieces without a property name
are left out.
-/

namespace IconForge.Component

open Text

/-- A declaration: a property and its value. -/
structure Declaration where
  property : List Char
  value : List Char
  deriving Repr, DecidableEq

/-- The declaration that a piece of a style holds: the first colon separates property and value. -/
def Declaration.ofPiece? (piece : List Char) : Option Declaration :=
  match piece.dropWhile (· != ':') with
  | [] => none
  | _ :: value =>
    let property := trim (piece.takeWhile (· != ':'))
    if property.isEmpty then none else some ⟨property, trim value⟩

/-- The declarations of a style, in order. -/
def declarations (style : List Char) : List Declaration :=
  (cut ';' style).filterMap Declaration.ofPiece?

/-- A property whose name starts with two hyphens is a custom one. -/
def isCustomProperty : List Char → Bool
  | '-' :: '-' :: _ => true
  | _ => false

/-- The key of a property. -/
def propertyKey (property : List Char) : List Char :=
  if isCustomProperty property then quoteChars property else camelFrom false property

/-- The entry of a declaration. -/
def Declaration.entry (d : Declaration) : List Char := propertyKey d.property ++ ':' :: ' ' :: quoteChars d.value

/-- The object expression of a style. -/
def styleChars (style : List Char) : List Char :=
  ['{', '{'] ++ joinWith [',', ' '] ((declarations style).map Declaration.entry) ++ ['}', '}']

/-- The object expression of an inline style. -/
def styleObject (style : String) : String := String.ofList (styleChars style.toList)

end IconForge.Component
