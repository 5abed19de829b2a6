import IconForge.Component.Name
import IconForge.Proofs.Component.Value

/-!
# Reading element expressions

A reader of the element expressions that a component holds. It knows elements with and without content, attributes whose value
stands in double quotes or as a string literal in braces, string literals in braces as content, and, behind the attributes, the
properties that an element takes from variables:

    element  = "<" name { attribute } { binding } ( " />" | ">" content "</" name ">" )
    content  = [ literal ] { element [ literal ] }
    attribute = " " name "=" ( '"' characters without '"' '"' | literal )
    binding  = " " name "={" variable "}" | " {..." variable "}"
    literal  = "{" string literal "}"

A literal at the front of a content is the text of the element, and a literal behind a child is the tail of that child.
-/

namespace IconForge.Component

open Markup

namespace Reading

/-! ## Items in a row -/

/-- Reads as many items as there are, one behind the other. An item that takes nothing ends the row. -/
def many {α : Type} (item? : List Char → Option (α × List Char)) (s : List Char) : List α × List Char :=
  match item? s with
  | none => ([], s)
  | some (a, rest) =>
    if rest.length < s.length then
      let (more, rest) := many item? rest
      (a :: more, rest)
    else ([], s)
termination_by s.length

/-- What is left behind a mark. -/
def behind? (mark s : List Char) : Option (List Char) := if mark.isPrefixOf s then some (s.drop mark.length) else none

/-! ## Names and variables -/

/-- A character that ends a name. -/
def endsName (c : Char) : Bool := c = ' ' || c = '=' || c = '/' || c = '>' || c = '{'

/-- A name: all characters up to the first that ends it, at least one. -/
def name? (s : List Char) : Option (List Char × List Char) :=
  match s.takeWhile (!endsName ·) with
  | [] => none
  | c :: name => some (c :: name, s.dropWhile (!endsName ·))

/-- The name of a variable and the brace that closes behind it. -/
def identifier? (s : List Char) : Option (String × List Char) :=
  match s.takeWhile isIdentifierChar, s.dropWhile isIdentifierChar with
  | c :: name, '}' :: rest => if isIdentifierStart c then some (String.ofList (c :: name), rest) else none
  | _, _ => none

/-! ## Attributes and bindings -/

/-- An attribute with the blank in front of it. -/
def attribute? : List Char → Option ((String × String) × List Char)
  | ' ' :: s =>
    match name? s with
    | some (name, '=' :: s) => (value? s).map fun r => ((String.ofList name, String.ofList r.1.text), r.2)
    | _ => none
  | _ => none

/-- What an element takes from the variables around it. -/
inductive Binding where
  /-- One property. -/
  | property (name identifier : String)
  /-- All properties that a variable holds. -/
  | spread (identifier : String)
  deriving Repr, DecidableEq

/-- A binding with the blank in front of it. -/
def binding? : List Char → Option (Binding × List Char)
  | ' ' :: '{' :: '.' :: '.' :: '.' :: s => (identifier? s).map fun r => (.spread r.1, r.2)
  | ' ' :: s =>
    match name? s with
    | some (name, '=' :: '{' :: s) => (identifier? s).map fun r => (.property (String.ofList name) r.1, r.2)
    | _ => none
  | _ => none

/-! ## Elements -/

/-- What stands between the angle brackets of an element. -/
structure Opening where
  tag : List Char
  attributes : Attributes
  bindings : List Binding

/-- The name of an element, its attributes and its bindings. -/
def opening? (s : List Char) : Option (Opening × List Char) := do
  let (tag, s) ← name? s
  let (attributes, s) := many attribute? s
  let (bindings, s) := many binding? s
  some (⟨tag, attributes, bindings⟩, s)

/-- The text at the front of a content: a literal in braces, or none. -/
def text? : List Char → Option (List Char × List Char)
  | '{' :: s => bracedLiteral? ('{' :: s)
  | s => some ([], s)

/-- A child with the text that follows it. Only a root takes anything from variables. -/
def child? (element? : List Char → Option ((Node × List Binding) × List Char)) (s : List Char) : Option (Node × List Char) :=
  match element? s with
  | some ((node, []), s) => (text? s).map fun r => ({ node with tail := String.ofList r.1 }, r.2)
  | _ => none

/-- What follows the attributes and bindings of an element: its text and its children. -/
def body? (element? : List Char → Option ((Node × List Binding) × List Char)) (tag : List Char) :
    List Char → Option ((List Char × List Node) × List Char)
  | ' ' :: '/' :: '>' :: rest => some (([], []), rest)
  | '>' :: s => do
    let (text, s) ← text? s
    let (children, s) := many (child? element?) s
    let rest ← behind? ('<' :: '/' :: tag ++ ['>']) s
    some ((text, children), rest)
  | _ => none

/-- An element that is nested no deeper than `depth`, and its bindings. -/
def element? : Nat → List Char → Option ((Node × List Binding) × List Char)
  | depth + 1, '<' :: s => do
    let (o, s) ← opening? s
    let ((text, children), rest) ← body? (element? depth) o.tag s
    some ((⟨String.ofList o.tag, o.attributes, children, String.ofList text, ""⟩, o.bindings), rest)
  | _, _ => none

end Reading

/-- The tree of an element expression and the bindings of its root, if the whole text is one. -/
def read? (s : List Char) : Option (Node × List Reading.Binding) :=
  match Reading.element? s.length s with
  | some (r, []) => some r
  | _ => none

end IconForge.Component
