import IconForge.Markup.Event
import IconForge.Xml.Prolog
import IconForge.Xml.Source

/-!
# Documents

A document is a prolog, one root element and an epilog. Its content is read token by token into events; the text of an internal
entity is content of its own, in which every element that starts also ends, and whatever goes wrong in it shows where the document
refers to it. Nothing limits how long entities make a document, nor how deep its elements lie in each other.
-/

namespace IconForge.Xml

open Markup

/-- How far content has been read: the names of the open elements, innermost first, and the events so far, the last one first. -/
structure Progress where
  opened : List (List Char) := []
  events : List Event := []

/-- Reports a piece of text. -/
def Progress.text (p : Progress) (piece : List Char) : Progress :=
  { p with events := .text (String.ofList piece) :: p.events }

/-- Whether an attribute of an element type keeps its blanks: so its first declaration says, and so it is without one. -/
def Doctype.isData (d : Doctype) (element name : List Char) : Bool :=
  ((d.attributesOf element).find? (·.name == name)).all (·.isData)

/-- Reads the attributes of a start tag in order. `known` are the pairs read so far, the last one first. -/
def readAttributes (d : Doctype) (entities : List (List Char)) (element holder : List Char) :
    List (List Char × List Char) → List RawAttribute → Except Fault (List (List Char × List Char))
  | known, [] => .ok known.reverse
  | known, a :: rest =>
    if known.any (·.1 == a.name) then .error ⟨.duplicateAttribute, a.place⟩
    else match attributeValue d entities (d.isData element a.name) a.value with
      | .error f => .error (f.fault a.after holder)
      | .ok value => readAttributes d entities element holder ((a.name, value) :: known) rest

/-- The declared defaults of the attributes that a start tag leaves out. -/
def defaultAttributes (d : Doctype) (element : List Char) (given : List (List Char × List Char)) : List (List Char × List Char) :=
  (d.attributesOf element).filterMap fun a =>
    match a.default? with
    | some value => if given.any (·.1 == a.name) then none else some (a.name, value)
    | none => none

/-- The event for a start tag. -/
def startEvent (element : List Char) (pairs : List (List Char × List Char)) : Event :=
  .start (String.ofList element) (pairs.map fun p => (String.ofList p.1, String.ofList p.2))

/-- What reading a token of content leads to. -/
inductive ContentStep where
  | more (p : Progress)
  /-- The root element has ended. -/
  | closed (p : Progress)
  | ended (p : Progress)
  | failed (f : Fault)

/-- Goes on behind an element's end. -/
def ContentStep.afterEnd (p : Progress) : ContentStep := if p.opened.isEmpty then .closed p else .more p

/-- Reads one token of content that may not end the innermost `floor` open elements' parents: content of the document itself has
floor zero. `expand` reads the text of an entity. -/
def contentStep (d : Doctype) (entities : List (List Char)) (floor : Nat)
    (expand : List Char → List Char → Progress → Except Fault Progress) (p : Progress) (t : ContentToken) : ContentStep :=
  match t.kind with
  | .silent => .more p
  | .data text => .more (p.text text)
  | .fault cause => .failed ⟨cause, t.start⟩
  | .declaration => .failed ⟨.misplacedDeclaration, t.start⟩
  | .openTag element attributes empty =>
    match readAttributes d entities element t.start [] attributes with
    | .error f => .failed f
    | .ok given =>
      let events := startEvent element (given ++ defaultAttributes d element given) :: p.events
      if empty then .afterEnd { p with events := .stop (String.ofList element) :: events }
      else .more ⟨element :: p.opened, events⟩
  | .closeTag element place =>
    if p.opened.length ≤ floor then .failed ⟨.asynchronousEntity, t.start⟩
    else match p.opened with
      | [] => .failed ⟨.asynchronousEntity, t.start⟩
      | innermost :: outer =>
        if innermost != element then .failed ⟨.tagMismatch, place⟩
        else .afterEnd ⟨outer, .stop (String.ofList element) :: p.events⟩
  | .reference (.char code) =>
    match charOfCode? code with
    | none => .failed ⟨.badCharReference, t.start⟩
    | some c => .more (p.text [c])
  | .reference (.entity name) =>
    match predefined? name with
    | some c => .more (p.text [c])
    | none =>
      match d.entity? name with
      | none => if d.mustDeclare then .failed ⟨.undefinedEntity, t.start⟩ else .more p
      | some entity =>
        if entities.contains name then .failed ⟨.recursiveEntity, t.start⟩
        else match entity with
          | .unparsed => .failed ⟨.binaryEntity, t.start⟩
          | .external => .more p
          | .internal text =>
            match expand name text p with
            | .ok p => .more p
            | .error f => .failed ⟨f.cause, t.start⟩
  | .finish text =>
    if floor = 0 then .failed ⟨.noElement, t.start⟩
    else if p.opened.length = floor then .ended (if text.isEmpty then p else p.text text)
    else .failed ⟨.asynchronousEntity, t.start⟩

/-- Reads tokens of content up to the end of the root element or of an entity, and gives the input that is left. -/
def readTokens (step : Progress → ContentToken → ContentStep) : Progress → List ContentToken → Except Fault (Progress × List Char)
  | _, [] => .error ⟨.noElement, []⟩
  | p, t :: rest =>
    match step p t with
    | .more p => readTokens step p rest
    | .closed p => .ok (p, t.stop)
    | .ended p => .ok (p, t.stop)
    | .failed f => .error f

/-- Reads content. Entities nest at most as deep as there are entities, since none is open twice. -/
def readContent (d : Doctype) : Nat → List (List Char) → Progress → List Char → Except Fault (Progress × List Char)
  | 0, _, _, s => .error ⟨.recursiveEntity, s⟩
  | depth + 1, entities, p, s =>
    readTokens
      (contentStep d entities p.opened.length fun name text p => (readContent d depth (name :: entities) p text).map (·.1))
      p (contentTokens false s)

/-- Reads what stands behind the root element: white space, comments and instructions. -/
def readEpilog : List PrologToken → Except Fault Unit
  | [] => .ok ()
  | t :: rest =>
    match t.kind with
    | .finish => .ok ()
    | .space | .instruction | .comment => readEpilog rest
    | .fault cause => .error ⟨cause, t.start⟩
    | _ => .error ⟨.junkAfterDocument, t.start⟩

/-- A document behind the mark that may stand at its very start. -/
def withoutMark : List Char → List Char
  | [] => []
  | c :: rest => if c.toNat = 0xFEFF then rest else c :: rest

/-- The events of a document. -/
def events (document : Source) : Except Fault (List Event) := do
  let (doctype, root) ← (readProlog {} (prologTokens (withoutMark document.characters))).mapError (document.fault Source.endsToken)
  let (progress, epilog) ← (readContent doctype (doctype.entities.length + 1) [] {} root).mapError (document.fault (· = ']'))
  (readEpilog (prologTokens epilog)).mapError (document.fault Source.endsToken)
  document.finish
  pure progress.events.reverse

end IconForge.Xml
