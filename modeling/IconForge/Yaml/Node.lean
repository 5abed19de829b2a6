import IconForge.Yaml.Tag
import IconForge.Yaml.Token

/-!
# Nodes of a YAML document

A document is a graph of nodes: an alias is one more way to a node, also from inside it. Nodes are numbered in the order in which they
start. Reading tokens keeps the nodes made so far, the anchors among them and the handles of tags.
-/

namespace IconForge.Yaml

/-- What a node holds. -/
inductive Body where
  | scalar (text : List Char)
  | sequence (items : List NodeId)
  | mapping (members : List (NodeId × NodeId))
  deriving Repr, DecidableEq

/-- A node. -/
structure Node where
  tag : Tag
  body : Body
  deriving Repr, DecidableEq

/-- How far a document has been read. -/
structure Draft where
  tokens : List Token
  handles : List (List Char × List Char)
  anchors : List (List Char × NodeId)
  nodes : Array Node

/-- A step of reading a document. -/
abbrev Composer := StateT Draft (Except Fault)

/-- The properties of a node: its anchor and its full tag. -/
structure Properties where
  anchor? : Option (List Char)
  tag? : Option (List Char)
  deriving Repr, DecidableEq

namespace Properties

/-- No property is written. -/
def isEmpty (p : Properties) : Bool := p.anchor?.isNone && p.tag?.isNone

/-- The tag of a scalar. A plain one and one that is marked as having no particular kind are resolved by their text. -/
def scalarTag (p : Properties) (text : List Char) (plain : Bool) : Tag :=
  match p.tag? with
  | some name => if name = ['!'] then Tag.resolve text else Tag.ofName name
  | none => if plain then Tag.resolve text else .text

/-- The tag of a collection. -/
def collectionTag (p : Properties) (otherwise : Tag) : Tag :=
  match p.tag? with
  | some name => if name = ['!'] then otherwise else Tag.ofName name
  | none => otherwise

end Properties

namespace Composer

/-- Stops: the text is no document. -/
def fail {α : Type} : Composer α := throw .malformed

/-- The next token. -/
def peek : Composer Token := do
  match (← get).tokens with
  | .fault f :: _ => throw f
  | t :: _ => pure t
  | [] => fail

/-- Takes the next token. -/
def advance : Composer Unit := modify fun d => { d with tokens := d.tokens.tail }

/-- Takes the next token, which must be a given one. -/
def expect (t : Token) : Composer Unit := do if (← peek) = t then advance else fail

/-- Makes a node, under its anchor, which must be new. -/
def place (anchor? : Option (List Char)) (node : Node) : Composer NodeId := do
  let d ← get
  let id := d.nodes.size
  match anchor? with
  | none => set { d with nodes := d.nodes.push node }
  | some name =>
    if (d.anchors.lookup name).isSome then fail
    else set { d with nodes := d.nodes.push node, anchors := (name, id) :: d.anchors }
  pure id

/-- Fills a node that has been made. -/
def fill (id : NodeId) (tag : Tag) (body : Body) : Composer NodeId := do
  modify fun d => { d with nodes := d.nodes.setIfInBounds id ⟨tag, body⟩ }
  pure id

/-- A node that is not written. -/
def absent : Composer NodeId := place none ⟨.null, .scalar []⟩

/-- The full name of a tag. -/
def tagName (handle? : Option (List Char)) (suffix : List Char) : Composer (List Char) := do
  match handle? with
  | none => pure suffix
  | some handle =>
    match (← get).handles.lookup handle with
    | some start => pure (start ++ suffix)
    | none => fail

/-- The tag that comes next, if one does. -/
def tag? : Composer (Option (List Char)) := do
  match ← peek with
  | .tag handle? suffix => do
    advance
    pure (some (← tagName handle? suffix))
  | _ => pure none

/-- The anchor that comes next, if one does. -/
def anchor? : Composer (Option (List Char)) := do
  match ← peek with
  | .anchor name => do
    advance
    pure (some name)
  | _ => pure none

/-- The properties that come next, in either order. -/
def properties : Composer Properties := do
  match ← peek with
  | .tag .. =>
    let tag? ← tag?
    pure ⟨← anchor?, tag?⟩
  | _ =>
    let anchor? ← anchor?
    pure ⟨anchor?, ← if anchor?.isSome then tag? else pure none⟩

mutual

/-- A node. `block` says that it may be a block collection, `indentless` that a sequence may stand at its parent's indentation. -/
def node (block indentless : Bool) : Nat → Composer NodeId
  | 0 => fail
  | fuel + 1 => do
    match ← peek with
    | .alias name =>
      advance
      match (← get).anchors.lookup name with
      | some id => pure id
      | none => fail
    | _ =>
      let p ← properties
      let sequence (items : Composer (List NodeId)) : Composer NodeId := do
        let id ← place p.anchor? ⟨.unknown, .sequence []⟩
        fill id (p.collectionTag .sequence) (.sequence (← items))
      let mapping (members : Composer (List (NodeId × NodeId))) : Composer NodeId := do
        let id ← place p.anchor? ⟨.unknown, .mapping []⟩
        fill id (p.collectionTag .mapping) (.mapping (← members))
      let unwritten : Composer NodeId :=
        if p.isEmpty then fail else place p.anchor? ⟨p.scalarTag [] true, .scalar []⟩
      match ← peek with
      | .blockEntry => if indentless then sequence (indentlessItems fuel) else unwritten
      | .scalar text plain =>
        advance
        place p.anchor? ⟨p.scalarTag text plain, .scalar text⟩
      | .flowSequenceStart =>
        advance
        sequence (flowItems true fuel)
      | .flowMappingStart =>
        advance
        mapping (flowMembers true fuel)
      | .blockSequenceStart =>
        if block then
          advance
          sequence (blockItems fuel)
        else unwritten
      | .blockMappingStart =>
        if block then
          advance
          mapping (blockMembers fuel)
        else unwritten
      | _ => unwritten

/-- The entries of a block sequence up to its end. -/
def blockItems : Nat → Composer (List NodeId)
  | 0 => fail
  | fuel + 1 => do
    match ← peek with
    | .blockEntry =>
      advance
      let item ← match ← peek with
        | .blockEntry | .blockEnd => absent
        | _ => node true false fuel
      pure (item :: (← blockItems fuel))
    | _ =>
      expect .blockEnd
      pure []

/-- The entries of a sequence at its parent's indentation. -/
def indentlessItems : Nat → Composer (List NodeId)
  | 0 => fail
  | fuel + 1 => do
    match ← peek with
    | .blockEntry =>
      advance
      let item ← match ← peek with
        | .blockEntry | .key | .value | .blockEnd => absent
        | _ => node true false fuel
      pure (item :: (← indentlessItems fuel))
    | _ => pure []

/-- The members of a block mapping up to its end. -/
def blockMembers : Nat → Composer (List (NodeId × NodeId))
  | 0 => fail
  | fuel + 1 => do
    match ← peek with
    | .key =>
      advance
      let key ← blockPart fuel
      let value ← blockValue fuel
      pure ((key, value) :: (← blockMembers fuel))
    | _ =>
      expect .blockEnd
      pure []

/-- The value of a member of a block mapping, with its colon. -/
def blockValue : Nat → Composer NodeId
  | 0 => fail
  | fuel + 1 => do
    match ← peek with
    | .value =>
      advance
      blockPart fuel
    | _ => absent

/-- A key or a value of a block mapping, which may be left out. -/
def blockPart : Nat → Composer NodeId
  | 0 => fail
  | fuel + 1 => do
    match ← peek with
    | .key | .value | .blockEnd => absent
    | _ => node true true fuel

/-- The items of a flow sequence up to its end. An item may be a mapping of one member without braces. -/
def flowItems (first : Bool) : Nat → Composer (List NodeId)
  | 0 => fail
  | fuel + 1 => do
    match ← peek with
    | .flowSequenceEnd =>
      advance
      pure []
    | _ =>
      if !first then expect .flowEntry
      match ← peek with
      | .flowSequenceEnd =>
        advance
        pure []
      | .key =>
        advance
        let id ← place none ⟨.mapping, .mapping []⟩
        let key ← flowPart fuel
        let value ← flowValue fuel
        let item ← fill id .mapping (.mapping [(key, value)])
        pure (item :: (← flowItems false fuel))
      | _ =>
        let item ← node false false fuel
        pure (item :: (← flowItems false fuel))

/-- The members of a flow mapping up to its end. -/
def flowMembers (first : Bool) : Nat → Composer (List (NodeId × NodeId))
  | 0 => fail
  | fuel + 1 => do
    match ← peek with
    | .flowMappingEnd =>
      advance
      pure []
    | _ =>
      if !first then expect .flowEntry
      match ← peek with
      | .flowMappingEnd =>
        advance
        pure []
      | .key =>
        advance
        let key ← flowPart fuel
        let value ← flowValue fuel
        pure ((key, value) :: (← flowMembers false fuel))
      | _ =>
        let key ← node false false fuel
        let value ← absent
        pure ((key, value) :: (← flowMembers false fuel))

/-- The value of a member in a flow collection, with its colon. -/
def flowValue : Nat → Composer NodeId
  | 0 => fail
  | fuel + 1 => do
    match ← peek with
    | .value =>
      advance
      flowPart fuel
    | _ => absent

/-- A key or a value in a flow collection, which may be left out. -/
def flowPart : Nat → Composer NodeId
  | 0 => fail
  | fuel + 1 => do
    match ← peek with
    | .value | .flowEntry | .flowSequenceEnd | .flowMappingEnd => absent
    | _ => node false false fuel

end

/-- The handles that need no directive. -/
def commonHandles : List (List Char × List Char) := [(['!'], ['!']), (['!', '!'], Tag.family.toList)]

/-- Takes the directives in front of a document: one version at most, which must be the first, and one meaning for a handle. -/
def directives (versioned : Bool) : Nat → Composer Unit
  | 0 => fail
  | fuel + 1 => do
    match ← peek with
    | .directive d =>
      advance
      match d with
      | .version major => if versioned || major ≠ 1 then fail else directives true fuel
      | .handle name start =>
        if ((← get).handles.lookup name).isSome then fail
        else
          modify fun draft => { draft with handles := (name, start) :: draft.handles }
          directives versioned fuel
      | .other => directives versioned fuel
    | _ => modify fun draft => { draft with handles := draft.handles ++ commonHandles }

/-- Takes the tokens that end a document. -/
def documentEnds : Nat → Composer Unit
  | 0 => pure ()
  | fuel + 1 => do
    match ← peek with
    | .documentEnd =>
      advance
      documentEnds fuel
    | _ => pure ()

/-- The root of the only document, if there is one. -/
def document : Composer (Option NodeId) := do
  let fuel := 8 * (← get).tokens.length + 8
  let root? ← match ← peek with
    | .streamEnd => pure none
    | .directive _ | .documentStart =>
      directives false fuel
      expect .documentStart
      match ← peek with
      | .directive _ | .documentStart | .documentEnd | .streamEnd => pure (some (← absent))
      | _ => pure (some (← node true false fuel))
    | _ =>
      modify fun d => { d with handles := commonHandles }
      pure (some (← node true false fuel))
  documentEnds fuel
  expect .streamEnd
  pure root?

end Composer

/-- The nodes of the only document in a text, and its root if there is a document. -/
def compose (text : List Char) : Except Fault (Option NodeId × Array Node) :=
  (Composer.document.run ⟨tokens text, [], [], #[]⟩).map fun r => (r.1, r.2.nodes)

end IconForge.Yaml
