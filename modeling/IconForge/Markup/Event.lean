import IconForge.Markup.Node
import IconForge.Text.Blank

/-!
# From events to a tree

A document is reported as events: an element starts, an element ends, a piece of text arrives. The builder keeps the elements that
are open and hangs each element into its parent when it ends. Text goes to the open element or, once that has a child, behind its
last child; when the element ends, runs that hold nothing but blanks are dropped.
-/

namespace IconForge.Markup

/-- What a document reports. -/
inductive Event where
  | start (tag : String) (attributes : List (String × String))
  | stop (tag : String)
  | text (piece : String)
  deriving Repr, DecidableEq

/-- An element that has started and not ended, with its children so far, the last one first. -/
structure OpenElement where
  tag : String
  attributes : Attributes
  children : List Node
  text : String

/-- The elements that are open, innermost first, and the root once it has ended. -/
structure Builder where
  stack : List OpenElement := []
  root? : Option Node := none

/-- A run of text as the tree keeps it: nothing if it is blank. -/
def significant (text : String) : String := if Text.allBlank text then "" else text

namespace OpenElement

/-- A piece of text behind all that the element holds so far. -/
def addText (e : OpenElement) (piece : String) : OpenElement :=
  match e.children with
  | [] => { e with text := e.text ++ piece }
  | child :: earlier => { e with children := { child with tail := child.tail ++ piece } :: earlier }

/-- The finished element. -/
def toNode (e : OpenElement) : Node :=
  ⟨e.tag, e.attributes, e.children.reverse.map fun child => { child with tail := significant child.tail },
    significant e.text, ""⟩

end OpenElement

namespace Builder

/-- Takes one event. Text outside the root element is dropped. -/
def feed (b : Builder) : Event → Builder
  | .start tag attributes => { b with stack := ⟨tag, Attributes.ofPairs attributes, [], ""⟩ :: b.stack }
  | .text piece =>
    match b.stack with
    | [] => b
    | e :: outer => { b with stack := e.addText piece :: outer }
  | .stop _ =>
    match b.stack with
    | [] => b
    | [e] => { stack := [], root? := some e.toNode }
    | e :: parent :: outer => { b with stack := { parent with children := e.toNode :: parent.children } :: outer }

/-- Takes events in order. -/
def feedAll (b : Builder) (events : List Event) : Builder := events.foldl feed b

end Builder

/-- The tree that events report. -/
def Node.ofEvents? (events : List Event) : Option Node := (Builder.feedAll {} events).root?

end IconForge.Markup
