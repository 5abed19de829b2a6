import IconForge.Build.Fault

/-!
# What a YAML text holds

A document is a graph of data: the parts of a collection are named by numbers, so that a part may be found in several places, also inside
itself. Reading a text gives a document, or tells that the text is none, or fails in another way.
-/

namespace IconForge.Yaml

/-- The number of a node. -/
abbrev NodeId := Nat

/-- A time of day, with its distance from universal time in minutes. -/
structure Clock where
  hour : Nat
  minute : Nat
  second : Nat
  offset : Int
  deriving Repr, DecidableEq

/-- A point in time as it is written. -/
structure Timestamp where
  year : Nat
  month : Nat
  day : Nat
  /-- Month and day have two digits each. -/
  full : Bool
  clock? : Option Clock
  deriving Repr, DecidableEq

/-- The value of a scalar. -/
inductive Scalar where
  | null
  | bool (b : Bool)
  | whole (n : Int)
  | number (x : Float)
  | text (s : String)
  | bytes (b : List UInt8)
  | timestamp (t : Timestamp)

/-- What a node stands for. The parts of collections are named by their nodes. -/
inductive Datum where
  | scalar (s : Scalar)
  | list (items : List NodeId)
  /-- The members whose keys are texts, in order. -/
  | mapping (members : List (String × NodeId))
  /-- A list of pairs. -/
  | pairs (members : List (NodeId × NodeId))
  | set

/-- A collection cannot be a key. -/
def Datum.isKey : Datum → Bool
  | scalar _ => true
  | _ => false

/-- The data of a text, and what its root stands for. -/
structure Document where
  data : Array (Option Datum)
  root : Datum

namespace Document

/-- What a node stands for. -/
def get (d : Document) (id : NodeId) : Datum := (d.data[id]?.join).getD (.scalar .null)

/-- The value of a name in a mapping: the last one, if there are several. -/
def member? (d : Document) (mapping : Datum) (name : String) : Option Datum :=
  match mapping with
  | .mapping members => (members.reverse.lookup name).map d.get
  | _ => none

end Document

/-- Why reading a text gives no document. -/
inductive ReadFault where
  /-- The text is no document, for a reason that is told. -/
  | malformed (reason : String)
  /-- Something else has gone wrong. -/
  | other (f : IconForge.Fault)
  deriving Repr, DecidableEq

/-- A way to read texts; an empty one holds no document. -/
abbrev Reader := String → Except ReadFault (Option Document)

end IconForge.Yaml
