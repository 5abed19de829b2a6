import IconForge.Yaml.Node
import IconForge.Yaml.Scalar

/-!
# Data of a YAML document

The nodes of a document become data from the root down, level by level: a collection is there before its parts are, so a part may
refer to what it lies in. A mapping first takes in the mappings that its merge keys name; its own members come behind them, and of two
members with one key the later one counts.
-/

namespace IconForge.Yaml

/-- How far a document has been understood. -/
structure Loader where
  nodes : Array Node
  data : Array (Option Datum)
  /-- The collections whose parts are still to come, in order. -/
  pending : List NodeId

/-- A step of understanding a document. -/
abbrev Loading := StateT Loader (Except Fault)

namespace Loading

/-- Stops: the nodes stand for nothing. -/
def fail {α : Type} : Loading α := throw .malformed

/-- A node. -/
def node (id : NodeId) : Loading Node := do
  match (← get).nodes[id]? with
  | some n => pure n
  | none => fail

/-- Changes a node. -/
def setNode (id : NodeId) (n : Node) : Loading Unit := modify fun s => { s with nodes := s.nodes.setIfInBounds id n }

/-- Notes what a node stands for. -/
def setDatum (id : NodeId) (d : Datum) : Loading Unit := modify fun s => { s with data := s.data.setIfInBounds id (some d) }

/-- The items of a node that must be a sequence. -/
def items (id : NodeId) : Loading (List NodeId) := do
  match (← node id).body with
  | .sequence items => pure items
  | _ => fail

/-- The members of a node that must be a mapping. -/
def members (id : NodeId) : Loading (List (NodeId × NodeId)) := do
  match (← node id).body with
  | .mapping members => pure members
  | _ => fail

/-- The tag of a node. -/
def tagOf (id : NodeId) : Loading Tag := return (← node id).tag

/-! ## Merging -/

mutual

/-- Makes a mapping hold what its merge keys name, in front of its own members. A merge key is gone before what it names is looked at. -/
def flatten : Nat → NodeId → Loading Unit
  | 0, _ => fail
  | fuel + 1, id => do
    let merged ← takeIn fuel id 0 []
    let n ← node id
    match n.body with
    | .mapping own => if merged.isEmpty then pure () else setNode id { n with body := .mapping (merged ++ own) }
    | _ => fail

/-- The members that the merge keys of a mapping name, from the member at an index on. -/
def takeIn : Nat → NodeId → Nat → List (NodeId × NodeId) → Loading (List (NodeId × NodeId))
  | 0, _, _, _ => fail
  | fuel + 1, id, index, merged => do
    let own ← members id
    match own[index]? with
    | none => pure merged
    | some (key, value) =>
      match ← tagOf key with
      | .merge =>
        setNode id { (← node id) with body := .mapping (own.eraseIdx index) }
        let more ← match (← node value).body with
          | .mapping _ => do
            flatten fuel value
            members value
          | .sequence sources => do pure (← takeAll fuel sources).reverse.flatten
          | .scalar _ => fail
        takeIn fuel id index (merged ++ more)
      | .value =>
        setNode key { (← node key) with tag := .text }
        takeIn fuel id (index + 1) merged
      | _ => takeIn fuel id (index + 1) merged

/-- The members of several mappings. -/
def takeAll : Nat → List NodeId → Loading (List (List (NodeId × NodeId)))
  | 0, _ => fail
  | _ + 1, [] => pure []
  | fuel + 1, source :: rest => do
    let _ ← members source
    flatten fuel source
    let taken ← members source
    pure (taken :: (← takeAll fuel rest))

end

/-- The number of members of all mappings and of items of all sequences. -/
def size (nodes : Array Node) : Nat :=
  nodes.foldl (fun n x => n + match x.body with
    | .scalar _ => 1
    | .sequence items => items.length + 1
    | .mapping members => members.length + 1) 0

/-- Takes the merge keys out of a mapping. -/
def flattened (id : NodeId) : Loading (List (NodeId × NodeId)) := do
  let _ ← members id
  let n := size (← get).nodes
  flatten (4 * (n + 1) * (n + 1)) id
  members id

/-! ## Data -/

/-- The text of a node that should be a scalar. A mapping with a default value stands for that. -/
def scalarText : Nat → NodeId → Loading (List Char)
  | 0, _ => fail
  | fuel + 1, id => do
    match (← node id).body with
    | .scalar text => pure text
    | .sequence _ => fail
    | .mapping members =>
      match ← members.findM? fun m => return (← tagOf m.1) = .value with
      | some m => scalarText fuel m.2
      | none => fail

/-- The value of a node under a tag of scalars. -/
def scalar (tag : Tag) (id : NodeId) : Loading Scalar := do
  let text ← scalarText ((← get).nodes.size + 1) id
  match tag, (← node id).body with
  | .timestamp, .mapping _ => throw (.kind .type "expected string or bytes-like object, got 'list'")
  | _, _ => Scalar.ofText tag text

/-- The empty collection of a tag of collections. -/
def emptyOf? : Tag → Option Datum
  | .sequence => some (.list [])
  | .mapping => some (.mapping [])
  | .set => some .set
  | .orderedMapping | .pairs => some (.pairs [])
  | _ => none

/-- What a node stands for. The parts of a collection come later. -/
def datum (id : NodeId) : Loading Datum := do
  match (← get).data[id]? with
  | some (some d) => pure d
  | _ =>
    let tag ← tagOf id
    match emptyOf? tag with
    | some d =>
      setDatum id d
      modify fun s => { s with pending := s.pending ++ [id] }
      pure d
    | none =>
      let d := Datum.scalar (← scalar tag id)
      setDatum id d
      pure d

/-- The keys and values of a mapping, and its members whose keys are texts. -/
def understandMembers (members : List (NodeId × NodeId)) : Loading (List (String × NodeId)) :=
  members.foldlM (fun known m => do
    let key ← datum m.1
    if !key.isKey then fail
    let _ ← datum m.2
    match key with
    | .scalar (.text name) => pure (known ++ [(name, m.2)])
    | _ => pure known) []

/-- The only member of a node that must be a mapping of one. -/
def onlyMember (id : NodeId) : Loading (NodeId × NodeId) := do
  match ← members id with
  | [m] =>
    let _ ← datum m.1
    let _ ← datum m.2
    pure m
  | _ => fail

/-- The parts of a collection. -/
def fill (id : NodeId) : Loading Unit := do
  match ← tagOf id with
  | .sequence =>
    let parts ← items id
    for part in parts do
      let _ ← datum part
    setDatum id (.list parts)
  | .mapping => setDatum id (.mapping (← understandMembers (← flattened id)))
  | .set =>
    let _ ← understandMembers (← flattened id)
  | _ => setDatum id (.pairs (← (← items id).mapM onlyMember))

/-- The parts of all collections, in the order in which these were met. -/
def fillAll : Nat → Loading Unit
  | 0 => pure ()
  | fuel + 1 => do
    match (← get).pending with
    | [] => pure ()
    | id :: rest =>
      modify fun s => { s with pending := rest }
      fill id
      fillAll fuel

end Loading

/-- The only document of a text, if there is one. -/
def read (text : String) : Except Fault (Option Document) := do
  match ← compose text.toList with
  | (none, _) => pure none
  | (some root, nodes) =>
    let loader : Loader := ⟨nodes, Array.replicate nodes.size none, []⟩
    let loading : Loading Unit := do
      let _ ← Loading.datum root
      Loading.fillAll (nodes.size + 1)
    let (_, s) ← loading.run loader
    pure (some ⟨s.data, (s.data[root]?.join).getD (.scalar .null)⟩)

/-- What is told of every text that is no document. -/
def noDocument : String := "the text is no YAML document"

/-- Reads texts as YAML 1.1. -/
def reader : Reader := fun text =>
  (read text).mapError fun
    | .malformed => .malformed noDocument
    | .kind k message => .other ⟨k, message⟩

end IconForge.Yaml
