import IconForge.Proofs.Markup.Attributes
import IconForge.Proofs.Markup.Document

/-!
# The builder rebuilds documents

Fed with the events of a document, the builder ends with nothing open and with the tree of the document as its root
(`feedAll_document`), wherever the runs of text are cut and whatever text stands outside the root element.

The induction is over the document. Content only touches the element that is open (`Content.feedAll_events`), and an element
leaves the stack as it found it, with its tree hung into what is open then (`Element.feedAll_events`).
-/

namespace IconForge.Markup

/-! ## What is open -/

namespace OpenElement

@[simp] theorem addText_empty (e : OpenElement) : e.addText "" = e := by
  obtain ⟨tag, attributes, children, text⟩ := e
  cases children with
  | nil => simp [addText]
  | cons child earlier => cases child; simp [addText]

/-- Two pieces one after the other are one run. -/
@[simp] theorem addText_addText (e : OpenElement) (piece next : String) :
    (e.addText piece).addText next = e.addText (piece ++ next) := by
  obtain ⟨tag, attributes, children, text⟩ := e
  cases children with
  | nil => simp [addText, String.append_assoc]
  | cons child earlier => simp [addText, String.append_assoc]

/-- An element that has ended becomes the last child. -/
def addChild (e : OpenElement) (node : Node) : OpenElement := { e with children := node :: e.children }

/-- What an open element holds once a content has been reported. The run that the content starts with goes where the text in hand
goes, to the element or behind its last child. -/
def addContent (e : OpenElement) (content : Content) : OpenElement :=
  { e.addText content.run with children := content.openNodes.reverse ++ (e.addText content.run).children }

theorem addContent_nil (e : OpenElement) : e.addContent .nil = e := by
  simp [addContent, Content.run, Content.openNodes]

theorem addContent_text (e : OpenElement) (piece : String) (rest : Content) :
    e.addContent (.text piece rest) = (e.addText piece).addContent rest := by
  simp [addContent, Content.run, Content.openNodes]

theorem addContent_element (e : OpenElement) (x : Element) (rest : Content) :
    e.addContent (.element x rest) = (e.addChild x.node).addContent rest := by
  have htail : x.node.tail = "" := by cases x; rfl
  have hrun : (Content.element x rest).run = "" := rfl
  rw [addContent, hrun, addText_empty]
  simp [addContent, addChild, addText, Content.openNodes, htail]

end OpenElement

/-- The runs that the builder keeps are those of which something can be seen. -/
theorem significant_eq_visible (run : String) : significant run = visible run := rfl

/-- When the parent ends, the tails of its children are trimmed. -/
theorem Content.map_significant_openNodes : ∀ content : Content,
    content.openNodes.map (fun child => { child with tail := significant child.tail }) = content.nodes
  | .nil => rfl
  | .text _ rest => map_significant_openNodes rest
  | .element e rest => by
    rw [openNodes, nodes, List.map_cons, map_significant_openNodes rest, significant_eq_visible]

/-- An element whose whole content has been reported is the element of the document. -/
theorem toNode_addContent (tag : String) {attributes : List (String × String)} (distinct : (attributes.map (·.1)).Nodup)
    (content : Content) :
    (OpenElement.addContent ⟨tag, Attributes.ofPairs attributes, [], ""⟩ content).toNode =
      (Element.mk tag attributes distinct content).node := by
  rw [Element.node, ← Content.map_significant_openNodes, ← significant_eq_visible]
  simp [OpenElement.addContent, OpenElement.addText, OpenElement.toNode, Attributes.ofPairs_of_nodup distinct]

/-! ## Feeding -/

namespace Builder

/-- Events are fed in two parts as they are in one. -/
theorem feedAll_append (b : Builder) (events more : List Event) : b.feedAll (events ++ more) = (b.feedAll events).feedAll more :=
  List.foldl_append

/-- An element that has ended goes into the one that is open then; the root goes to its own place. -/
def hang (node : Node) : Builder → Builder
  | ⟨[], _⟩ => ⟨[], some node⟩
  | ⟨parent :: outer, root?⟩ => ⟨parent.addChild node :: outer, root?⟩

/-- The end of an element hangs its node into what is open around it. -/
theorem feed_stop (tag : String) (e : OpenElement) (outer : List OpenElement) (root? : Option Node) :
    feed ⟨e :: outer, root?⟩ (.stop tag) = hang e.toNode ⟨outer, root?⟩ := by
  cases outer <;> rfl

end Builder

mutual

/-- An element leaves the stack as it found it and hangs its tree into what is open. -/
theorem Element.feedAll_events : ∀ (x : Element) (b : Builder), b.feedAll x.events = b.hang x.node
  | .mk tag attributes distinct content, b => by
    obtain ⟨stack, root?⟩ := b
    rw [Element.events, ← List.singleton_append, Builder.feedAll_append, Builder.feedAll_append]
    have hstart : Builder.feedAll ⟨stack, root?⟩ [.start tag attributes] =
        ⟨⟨tag, Attributes.ofPairs attributes, [], ""⟩ :: stack, root?⟩ := rfl
    rw [hstart, Content.feedAll_events content, ← toNode_addContent tag distinct content]
    exact Builder.feed_stop tag _ stack root?

/-- Content goes to the element that is open. -/
theorem Content.feedAll_events : ∀ (content : Content) (e : OpenElement) (outer : List OpenElement) (root? : Option Node),
    Builder.feedAll ⟨e :: outer, root?⟩ content.events = ⟨e.addContent content :: outer, root?⟩
  | .nil, e, outer, root? => by
    rw [OpenElement.addContent_nil]
    rfl
  | .text piece rest, e, outer, root? => by
    rw [OpenElement.addContent_text]
    exact Content.feedAll_events rest (e.addText piece) outer root?
  | .element x rest, e, outer, root? => by
    rw [Content.events, Builder.feedAll_append, Element.feedAll_events x, OpenElement.addContent_element]
    exact Content.feedAll_events rest (e.addChild x.node) outer root?

end

/-! ## Runs in pieces and text outside the root -/

namespace Builder

/-- A run may arrive in two pieces. -/
theorem feed_text_text (b : Builder) (piece next : String) :
    (b.feed (.text piece)).feed (.text next) = b.feed (.text (piece ++ next)) := by
  obtain ⟨stack, root?⟩ := b
  cases stack with
  | nil => rfl
  | cons e outer => simp [feed]

theorem feed_text_empty (b : Builder) : b.feed (.text "") = b := by
  obtain ⟨stack, root?⟩ := b
  cases stack with
  | nil => rfl
  | cons e outer => simp [feed]

/-- A piece joined to the events in front of which it stands is fed as that piece and those events. -/
theorem feedAll_joinPiece (b : Builder) (piece : String) (events : List Event) :
    b.feedAll (joinPiece piece events) = (b.feed (.text piece)).feedAll events := by
  unfold joinPiece
  split
  case h_1 next rest => exact congrArg (fun b : Builder => b.feedAll rest) (feed_text_text b piece next).symm
  case h_2 =>
    split
    case isTrue h => rw [h, feed_text_empty]
    case isFalse => rfl

/-- The builder does not see where runs are cut. -/
theorem feedAll_joinRuns (events : List Event) : ∀ b : Builder, b.feedAll (joinRuns events) = b.feedAll events := by
  induction events with
  | nil => exact fun _ => rfl
  | cons event rest ih =>
    intro b
    cases event with
    | start tag attributes => exact ih _
    | stop tag => exact ih _
    | text piece => exact (feedAll_joinPiece b piece _).trans (ih _)

/-- Text that arrives while nothing is open changes nothing. -/
theorem feedAll_outside (pieces : List String) (root? : Option Node) : feedAll ⟨[], root?⟩ (outside pieces) = ⟨[], root?⟩ := by
  induction pieces with
  | nil => rfl
  | cons piece pieces ih => exact ih

end Builder

/-- The events of a document, with any text before and behind its root and with every run of text cut anywhere, leave the builder
with nothing open and with the tree of the document. -/
theorem feedAll_document (document : Element) (before after : List String) {events : List Event}
    (h : SameRuns events (outside before ++ document.events ++ outside after)) :
    Builder.feedAll {} events = ⟨[], some document.node⟩ := by
  rw [← Builder.feedAll_joinRuns events, h, Builder.feedAll_joinRuns, Builder.feedAll_append, Builder.feedAll_append,
    Builder.feedAll_outside, Element.feedAll_events]
  exact Builder.feedAll_outside after _

/-- A text with two children, the first of which is followed by blanks in two pieces. -/
def mixedText : Element :=
  .mk "text" [("y", "2"), ("x", "1")] (by decide) <|
    .text "a " <| .element (.mk "tspan" [] (by decide) (.text "b" .nil)) <|
      .text " " <| .text "\n" <| .element (.mk "tspan" [] (by decide) .nil) <| .text " c" .nil

/-- The run in front of the first child arrives in two pieces, the blanks between the children in one, and a line ends outside
the root. -/
theorem feedAll_document_mixed :
    let events : List Event :=
      [.start "text" [("y", "2"), ("x", "1")], .text "a", .text " ", .start "tspan" [], .text "b", .stop "tspan", .text " \n",
        .start "tspan" [], .stop "tspan", .text " c", .stop "text", .text "\n"]
    SameRuns events (outside [] ++ mixedText.events ++ outside ["\n"]) ∧
      Builder.feedAll {} events = ⟨[], some ⟨"text", [("y", "2"), ("x", "1")],
        [⟨"tspan", [], [], "b", ""⟩, ⟨"tspan", [], [], "", " c"⟩], "a ", ""⟩⟩ := by
  intro events
  have hruns : SameRuns events (outside [] ++ mixedText.events ++ outside ["\n"]) := rfl
  exact ⟨hruns, feedAll_document mixedText [] ["\n"] hruns⟩

end IconForge.Markup
