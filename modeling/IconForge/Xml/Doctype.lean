import IconForge.Xml.Content

/-!
# What a document type declares

Internal entities stand for text, element types give defaults and types to attributes. Values are expanded against these
declarations: references are replaced, white space becomes blanks, and attributes of a tokenized type lose the blanks that do not
separate.
-/

namespace IconForge.Xml

/-- What an entity stands for. -/
inductive Entity where
  | internal (text : List Char)
  | external
  | unparsed
  deriving Repr

/-- A declared attribute: whether it holds character data as it is, and its default. -/
structure AttributeDecl where
  name : List Char
  isData : Bool
  default? : Option (List Char)

/-- The declarations of a document type. `mayBeIncomplete` says that declarations elsewhere have not been read;
`standalone` that the document claims not to need them; `frozen` that declarations no longer count. -/
structure Doctype where
  entities : List (List Char × Entity) := []
  elements : List (List Char × List AttributeDecl) := []
  mayBeIncomplete : Bool := false
  standalone : Bool := false
  frozen : Bool := false

namespace Doctype

/-- The entity of a name. -/
def entity? (d : Doctype) (name : List Char) : Option Entity := (d.entities.find? (·.1 == name)).map (·.2)

/-- The declared attributes of an element type. -/
def attributesOf (d : Doctype) (element : List Char) : List AttributeDecl :=
  ((d.elements.find? (·.1 == element)).map (·.2)).getD []

/-- Every entity that is used must be declared, unless declarations elsewhere have not been read. -/
def mustDeclare (d : Doctype) : Bool := !d.mayBeIncomplete || d.standalone

/-- A reference to parameters has not been followed: what comes after it counts only in a standalone document. -/
def skipParameters (d : Doctype) : Doctype := { d with mayBeIncomplete := true, frozen := !d.standalone }

/-- Declares an attribute of an element type. The first declaration that could give a value or an identity counts. -/
def declare (d : Doctype) (element : List Char) (a : AttributeDecl) (isId : Bool) : Doctype :=
  let known := d.attributesOf element
  if (a.default?.isSome || isId) && known.any (·.name == a.name) then d
  else { d with elements := (element, known ++ [a]) :: d.elements.filter (·.1 != element) }

end Doctype

/-- The character of a predefined entity. -/
def predefined? (name : List Char) : Option Char :=
  match String.ofList name with
  | "lt" => some '<'
  | "gt" => some '>'
  | "amp" => some '&'
  | "quot" => some '"'
  | "apos" => some '\''
  | _ => none

/-- The character of a reference by number. -/
def charOfCode? (code : Nat) : Option Char := if isLegalCode code then some (Char.ofNat code) else none

/-- What a piece of an attribute value is. -/
inductive ValueKind where
  | char (c : Char)
  | blank
  | reference (r : Reference)
  /-- The value cannot go on; the input where that shows. -/
  | fault (place : List Char)

/-- A piece of an attribute value, with the value from its start on. -/
structure ValueToken where
  kind : ValueKind
  start : List Char

/-- The piece at the front of a value, and the value behind it. -/
def valueToken (s : List Char) : Option (ValueKind × List Char) :=
  match s with
  | [] => none
  | '<' :: _ => some (.fault s, [])
  | '&' :: rest =>
    match scanReference rest with
    | .found r after => some (.reference r, after)
    | .invalid place => some (.fault place, [])
    | .cut => some (.fault s, [])
  | c :: rest =>
    match afterBreak? s with
    | some after => some (.blank, after)
    | none => some (if isSpace c then .blank else .char c, rest)

/-- The pieces of an attribute value. -/
def valueTokens (s : List Char) : List ValueToken :=
  match valueToken s with
  | none => []
  | some (kind, after) =>
    if after.length < s.length then ⟨kind, s⟩ :: valueTokens after else [⟨kind, s⟩]
termination_by s.length

/-- A fault in a value: its cause, and the value from the point where it shows, unless it shows only where the value is used. -/
structure ValueFault where
  cause : Cause
  place? : Option (List Char)

/-- Adds a blank to a value read so far, its last character first. In tokenized values a blank neither leads nor follows another. -/
def pushBlank (isData : Bool) (acc : List Char) : List Char :=
  if isData then ' ' :: acc
  else match acc with
    | [] => []
    | ' ' :: _ => acc
    | _ => ' ' :: acc

/-- Adds one piece to a value read so far. `expand` adds the text of an entity. -/
def pushPiece (d : Doctype) (isData : Bool) (opened : List (List Char))
    (expand : List Char → List Char → List Char → Except ValueFault (List Char))
    (acc : List Char) (t : ValueToken) : Except ValueFault (List Char) :=
  match t.kind with
  | .char c => .ok (c :: acc)
  | .blank => .ok (pushBlank isData acc)
  | .fault place => .error ⟨.invalidToken, some place⟩
  | .reference (.char code) =>
    match charOfCode? code with
    | none => .error ⟨.badCharReference, some t.start⟩
    | some ' ' => .ok (pushBlank isData acc)
    | some c => .ok (c :: acc)
  | .reference (.entity name) =>
    match predefined? name with
    | some c => .ok (c :: acc)
    | none =>
      match d.entity? name with
      | none => if d.mustDeclare then .error ⟨.undefinedEntity, none⟩ else .ok acc
      | some entity =>
        if opened.contains name then .error ⟨.recursiveEntity, none⟩
        else match entity with
          | .unparsed => .error ⟨.binaryEntity, some t.start⟩
          | .external => .error ⟨.externalEntityInAttribute, some t.start⟩
          | .internal text =>
            match expand name text acc with
            | .ok acc => .ok acc
            | .error f => .error ⟨f.cause, none⟩

/-- Adds a text to a value read so far. Entities nest at most as deep as there are entities, since none is open twice. -/
def pushText (d : Doctype) (isData : Bool) : Nat → List (List Char) → List Char → List Char → Except ValueFault (List Char)
  | 0, _, _, _ => .error ⟨.recursiveEntity, none⟩
  | depth + 1, opened, text, acc =>
    (valueTokens text).foldlM
      (pushPiece d isData opened fun name text acc => pushText d isData depth (name :: opened) text acc) acc

/-- The value that a written attribute value stands for, where the entities `opened` are being read. -/
def attributeValue (d : Doctype) (opened : List (List Char)) (isData : Bool) (text : List Char) :
    Except ValueFault (List Char) :=
  (pushText d isData (d.entities.length + 1) opened text []).map fun acc =>
    match isData, acc with
    | false, ' ' :: acc => acc.reverse
    | _, acc => acc.reverse

/-- A fault in a value, in the document: the value ends before `after`, and what holds it starts at `holder`. -/
def ValueFault.fault (f : ValueFault) (after holder : List Char) : Fault :=
  ⟨f.cause, match f.place? with
    | some place => place ++ after
    | none => holder⟩

/-- The text that the literal of an entity declaration stands for: character references are replaced, references to entities kept
for later, and references to parameters refused. -/
def entityText : Nat → List Char → Except ValueFault (List Char)
  | 0, _ => .ok []
  | _ + 1, [] => .ok []
  | fuel + 1, c :: rest =>
    if c = '&' then
      match scanReference rest with
      | .invalid place => .error ⟨.invalidToken, some place⟩
      | .cut => .error ⟨.invalidToken, some (c :: rest)⟩
      | .found (.char code) after =>
        match charOfCode? code with
        | none => .error ⟨.badCharReference, some (c :: rest)⟩
        | some x => (entityText fuel after).map (x :: ·)
      | .found (.entity name) after => (entityText fuel after).map fun t => '&' :: name ++ ';' :: t
    else if c = '%' then
      match (scanName rest).andThen fun _ after => scanChar ';' after with
      | .found _ _ => .error ⟨.parameterEntity, some (c :: rest)⟩
      | .invalid place => .error ⟨.invalidToken, some place⟩
      | .cut => .error ⟨.invalidToken, some (c :: rest)⟩
    else match afterBreak? (c :: rest) with
      | some after => (entityText fuel after).map ('\n' :: ·)
      | none => (entityText fuel rest).map (c :: ·)

end IconForge.Xml
