import IconForge.Markup.Event

/-!
# Documents

A document as it is written: an element with attributes of distinct names and a content in which text and elements follow each
other in any way. A document reports itself as events (`Element.events`), and it has a tree (`Element.node`) in which every run of
text stands where it was written unless it holds nothing but blanks.

A run may reach the builder in pieces. Two lists of events tell of the same runs when they become equal once adjacent pieces are
joined (`SameRuns`).
-/

namespace IconForge.Markup

mutual

/-- An element of a document. No two of its attributes share a name. -/
inductive Element where
  | mk (tag : String) (attributes : List (String × String)) (distinct : (attributes.map (·.1)).Nodup) (content : Content)

/-- What stands between the tags of an element: pieces of text and elements, in any order. -/
inductive Content where
  | nil
  | text (piece : String) (rest : Content)
  | element (e : Element) (rest : Content)

end

/-! ## The events of a document -/

mutual

/-- An element reports its start, its content and its end. -/
def Element.events : Element → List Event
  | .mk tag attributes _ content => .start tag attributes :: (content.events ++ [.stop tag])

/-- Content reports its pieces and elements in the order in which they stand. -/
def Content.events : Content → List Event
  | .nil => []
  | .text piece rest => .text piece :: rest.events
  | .element e rest => e.events ++ rest.events

end

/-- Text that stands outside the root element, in pieces. -/
def outside (pieces : List String) : List Event := pieces.map .text

/-! ## The tree of a document -/

/-- The run of text at the front of a content: all its pieces up to the first element. -/
def Content.run : Content → String
  | .nil => ""
  | .text piece rest => piece ++ rest.run
  | .element _ _ => ""

/-- What a tree shows of a run: all of it, or nothing if every character of it is blank. -/
def visible (run : String) : String := if run.toList.all Text.isBlank then "" else run

mutual

/-- The tree of an element: its text is the run in front of its first child. Nothing follows its own end. -/
def Element.node : Element → Node
  | .mk tag attributes _ content => ⟨tag, attributes, content.nodes, visible content.run, ""⟩

/-- The trees of the elements in a content, in order; the tail of each is the run up to the next one. -/
def Content.nodes : Content → List Node
  | .nil => []
  | .text _ rest => rest.nodes
  | .element e rest => { e.node with tail := visible rest.run } :: rest.nodes

end

/-- The trees of the elements in a content while their parent is still open: the tail of each is the whole run. -/
def Content.openNodes : Content → List Node
  | .nil => []
  | .text _ rest => rest.openNodes
  | .element e rest => { e.node with tail := rest.run } :: rest.openNodes

/-! ## Runs in pieces -/

/-- A piece of text in front of events: it joins a piece that they start with. An empty piece is none. -/
def joinPiece (piece : String) : List Event → List Event
  | .text next :: rest => .text (piece ++ next) :: rest
  | events => if piece = "" then events else .text piece :: events

/-- Events with adjacent pieces of text joined. -/
def joinRuns : List Event → List Event
  | .text piece :: rest => joinPiece piece (joinRuns rest)
  | event :: rest => event :: joinRuns rest
  | [] => []

/-- Two lists of events that differ at most in the places at which runs of text are cut. -/
def SameRuns (events others : List Event) : Prop := joinRuns events = joinRuns others

end IconForge.Markup
