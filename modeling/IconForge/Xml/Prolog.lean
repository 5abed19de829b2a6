import IconForge.Xml.Doctype

/-!
# The prolog of a document

What stands before the root element is cut into tokens of its own: white space, comments and instructions, and the words, literals
and marks that declarations are made of. The grammar of declarations is a step function on what may come next.
-/

namespace IconForge.Xml

/-- How often a part of a content model may occur. -/
inductive Occurrence where
  | once
  | optional
  | any
  | some
  deriving DecidableEq

/-- What a token of the prolog is. -/
inductive PrologKind where
  | space
  | instruction
  | declaration
  | comment
  | byteOrderMark
  /-- The opening of a declaration, with its keyword. -/
  | openDecl (keyword : List Char)
  | closeDecl
  | name (word : List Char) (occurrence : Occurrence)
  | nameToken
  | keyword (word : List Char)
  /-- A literal, with the text between its quotes. -/
  | literal (text : List Char)
  | percent
  | parameter
  | comma
  | bar
  | openBracket
  | closeBracket
  | openParen
  | closeParen (occurrence : Occurrence)
  /-- Marks of conditional sections, which no document has room for. -/
  | conditional
  /-- The root element starts here. -/
  | root
  | finish
  | fault (cause : Cause)

/-- A token of the prolog with the input at its start and behind its end. -/
structure PrologToken where
  kind : PrologKind
  start : List Char
  stop : List Char

/-- What follows `<!` in the prolog. -/
def scanDeclOpen (s : List Char) : Scan PrologKind :=
  match s with
  | [] => .cut
  | '-' :: rest => (scanComment rest).map fun _ => .comment
  | '[' :: rest => .found .conditional rest
  | c :: _ =>
    let isLetter := fun c => isAsciiLetter c || c = '_' || c = ':'
    if !isLetter c then .invalid s
    else
      let word := s.takeWhile isLetter
      match s.dropWhile isLetter with
      | [] => .cut
      | '%' :: rest =>
        match rest with
        | [] => .cut
        | d :: _ => if isSpace d || d = '%' then .invalid ('%' :: rest) else .found (.openDecl word) ('%' :: rest)
      | d :: rest => if isSpace d then .found (.openDecl word) (d :: rest) else .invalid (d :: rest)

/-- A literal, from behind its opening quote. What follows it must be able to follow a literal. -/
def scanLiteral (quote : Char) (s : List Char) : Scan PrologKind :=
  (scanLegalUntil (· = quote) s).andThen fun text rest =>
    match rest.drop 1 with
    | [] => .found (.literal text) []
    | c :: after =>
      if isSpace c || c = '>' || c = '%' || c = '[' then .found (.literal text) (c :: after) else .invalid (c :: after)

/-- A reference to a parameter or a lone percent sign, from behind the sign. -/
def scanPercent (s : List Char) : Scan PrologKind :=
  match s with
  | [] => .cut
  | c :: _ =>
    if isSpace c || c = '%' then .found .percent s
    else (scanName s).andThen fun _ rest => (scanChar ';' rest).map fun _ => .parameter

/-- A keyword, from behind its number sign. -/
def scanKeyword (s : List Char) : Scan PrologKind :=
  match s with
  | [] => .cut
  | c :: rest =>
    if !isNameStart c then .invalid s
    else
      let word := c :: rest.takeWhile isNameChar
      match rest.dropWhile isNameChar with
      | [] => .found (.keyword word) []
      | d :: after =>
        if isSpace d || d = ')' || d = '>' || d = '%' || d = '|' then .found (.keyword word) (d :: after)
        else .invalid (d :: after)

/-- A closing parenthesis, from behind it. -/
def scanCloseParen (s : List Char) : Scan PrologKind :=
  match s with
  | [] => .found (.closeParen .once) []
  | '*' :: rest => .found (.closeParen .any) rest
  | '?' :: rest => .found (.closeParen .optional) rest
  | '+' :: rest => .found (.closeParen .some) rest
  | c :: _ =>
    if isSpace c || c = '>' || c = ',' || c = '|' || c = ')' then .found (.closeParen .once) s else .invalid s

/-- A closing bracket, from behind it. -/
def scanCloseBracket (s : List Char) : Scan PrologKind :=
  match s with
  | [']'] => .cut
  | ']' :: '>' :: rest => .found .conditional rest
  | _ => .found .closeBracket s

/-- A name or a name token. Both end before a mark, and a name may carry the sign of an occurrence. -/
def scanPrologName (s : List Char) : Scan PrologKind :=
  match s with
  | [] => .cut
  | c :: rest =>
    if !isNameChar c then .invalid s
    else
      let word := c :: rest.takeWhile isNameChar
      let plain := if isNameStart c then PrologKind.name word .once else .nameToken
      match rest.dropWhile isNameChar with
      | [] => .found plain []
      | d :: after =>
        if isSpace d || d = '>' || d = ')' || d = ',' || d = '|' || d = '[' || d = '%' then .found plain (d :: after)
        else if !isNameStart c then .invalid (d :: after)
        else if d = '+' then .found (.name word .some) after
        else if d = '*' then .found (.name word .any) after
        else if d = '?' then .found (.name word .optional) after
        else .invalid (d :: after)

/-- The kind of the token at the front of the input, which is not empty. -/
def scanProlog (s : List Char) : Scan PrologKind :=
  match s with
  | [] => .cut
  | '"' :: rest => scanLiteral '"' rest
  | '\'' :: rest => scanLiteral '\'' rest
  | ['<'] => .cut
  | '<' :: '!' :: rest => scanDeclOpen rest
  | '<' :: '?' :: rest => (scanInstruction rest).map fun
    | .processing => .instruction
    | .declaration => .declaration
  | '<' :: c :: rest => if isNameStart c || 0x80 ≤ c.toNat then .found .root s else .invalid (c :: rest)
  | '%' :: rest => scanPercent rest
  | ',' :: rest => .found .comma rest
  | '[' :: rest => .found .openBracket rest
  | ']' :: rest => scanCloseBracket rest
  | '(' :: rest => .found .openParen rest
  | ')' :: rest => scanCloseParen rest
  | '|' :: rest => .found .bar rest
  | '>' :: rest => .found .closeDecl rest
  | '#' :: rest => scanKeyword rest
  | c :: rest => if isSpace c then .found .space (rest.dropWhile isSpace) else scanPrologName s

/-- The token at the front of the input. -/
def prologToken (s : List Char) : PrologToken :=
  match s with
  | [] => ⟨.finish, s, s⟩
  | _ =>
    match scanProlog s with
    | .found kind rest => ⟨kind, s, rest⟩
    | .invalid rest => ⟨.fault .invalidToken, rest, rest⟩
    | .cut => ⟨.fault .unclosedToken, s, s⟩

/-- The tokens of the prolog, up to the root element, the end of the input or a fault. -/
def prologTokens (s : List Char) : List PrologToken :=
  let token := prologToken s
  if token.stop.length < s.length then token :: prologTokens token.stop else [token]
termination_by s.length

/-- What the front of a document declaration holds. -/
inductive PseudoAttribute where
  | none
  /-- A name with its place, a value with its place, and what is left. -/
  | found (name place value valuePlace rest : List Char)
  | bad (place : List Char)

/-- Characters of the values in a document declaration. -/
def isPseudoValueChar (c : Char) : Bool :=
  isAsciiLetter c || ('0' ≤ c && c ≤ '9') || c = '.' || c = '-' || c = '_'

/-- The next attribute of a document declaration. -/
def pseudoAttribute (s : List Char) : PseudoAttribute :=
  match s with
  | [] => .none
  | c :: _ =>
    if !isSpace c then .bad s
    else
      let s := s.dropWhile isSpace
      if s.isEmpty then .none
      else
        let isPart := fun c : Char => c != '=' && !isSpace c && c.toNat < 0x80
        let name := s.takeWhile isPart
        match (s.dropWhile isPart).dropWhile isSpace with
        | '=' :: after =>
          if name.isEmpty then .bad ((s.dropWhile isPart).dropWhile isSpace)
          else
            let after := after.dropWhile isSpace
            match after with
            | [] => .bad []
            | quote :: value =>
              if quote != '"' && quote != '\'' then .bad after
              else
                let isValue := fun c : Char => c != quote && isPseudoValueChar c
                match value.dropWhile isValue with
                | [] => .bad []
                | c :: rest => if c = quote then .found name s (value.takeWhile isValue) value rest else .bad (c :: rest)
        | place => .bad place

/-- Reads the inside of a document declaration: a version, then an encoding, then whether the document is standalone, the last two
at will. The answer is whether it says that it is, or the place of what is wrong. -/
def readDeclaration (s : List Char) : Except (List Char) Bool := do
  let standalone (name place value valuePlace rest : List Char) : Except (List Char) Bool :=
    if String.ofList name != "standalone" then .error place
    else if String.ofList value != "yes" && String.ofList value != "no" then .error valuePlace
    else match rest.dropWhile isSpace with
      | [] => .ok (String.ofList value == "yes")
      | place => .error place
  match pseudoAttribute s with
  | .none => .error s
  | .bad place => .error place
  | .found name place _ _ rest =>
    if String.ofList name != "version" then .error place
    else match pseudoAttribute rest with
      | .none => .ok false
      | .bad place => .error place
      | .found name place value valuePlace rest =>
        if String.ofList name != "encoding" then standalone name place value valuePlace rest
        else if !(value.head?.map isAsciiLetter).getD false then .error valuePlace
        else match pseudoAttribute rest with
          | .none => .ok false
          | .bad place => .error place
          | .found name place value valuePlace rest => standalone name place value valuePlace rest

/-- What may come next in a prolog. -/
inductive Expect where
  /-- The very start, where alone the document declaration may stand. -/
  | start
  | misc
  | root
  | doctypeName
  | doctypeBody
  | doctypePublic
  | doctypeSystem
  | doctypeSubset
  | doctypeEnd
  | subset
  | entityKind
  | entityName
  | entityBody (parameter : Bool)
  | entityPublic (parameter : Bool)
  | entitySystem (parameter : Bool)
  | entityEnd (parameter : Bool)
  | entityNotation
  | notationName
  | notationBody
  | notationPublic
  | notationSystem
  | notationEnd
  | attributesOf
  | attributeName
  | attributeType
  | choiceFirst
  | choiceNext
  | notationsOpen
  | notationsFirst
  | notationsNext
  | attributeDefault
  | attributeFixed
  | elementName
  | elementBody
  | modelFirst
  | mixedEnd
  | mixedName
  | mixedNext
  | modelItem
  | modelNext
  | declEnd

/-- How the parts of a group are joined. -/
inductive Connector where
  | sequence
  | choice
  deriving DecidableEq

/-- The state of a prolog: what may come next, the declarations so far, and the declaration that is being read. -/
structure PrologState where
  expect : Expect := .start
  doctype : Doctype := {}
  /-- The name of the entity being declared, unless it is known already or does not count. -/
  entity? : Option (List Char) := none
  isUnparsed : Bool := false
  element : List Char := []
  attr : List Char := []
  isData : Bool := false
  isId : Bool := false
  /-- The open groups of a content model, innermost first. -/
  groups : List (Option Connector) := []

namespace PrologState

/-- The state with another expectation. -/
def next (st : PrologState) (e : Expect) : PrologState := { st with expect := e }

/-- Declares the entity being read. -/
def define (st : PrologState) (e : Entity) : PrologState :=
  match st.entity? with
  | none => st
  | some name => { st with doctype := { st.doctype with entities := (name, e) :: st.doctype.entities }, entity? := none }

/-- Declares the attribute being read, with its default. -/
def declare (st : PrologState) (default? : Option (List Char)) : PrologState :=
  if st.doctype.frozen then st
  else { st with doctype := st.doctype.declare st.element ⟨st.attr, st.isData, default?⟩ st.isId }

/-- Closes the innermost group. -/
def closeGroup (st : PrologState) : PrologState :=
  match st.groups with
  | [_] => { st with groups := [], expect := .declEnd }
  | _ :: outer => { st with groups := outer, expect := .modelNext }
  | [] => { st with expect := .declEnd }

/-- Joins the next part of the innermost group, all of whose parts are joined alike. -/
def connect (st : PrologState) (c : Connector) : Option PrologState :=
  match st.groups with
  | some other :: _ => if other = c then some (st.next .modelItem) else none
  | none :: outer => some { st with groups := some c :: outer, expect := .modelItem }
  | [] => none

end PrologState

/-- The attribute types that are named by a single word. -/
def tokenizedTypes : List String := ["ID", "IDREF", "IDREFS", "ENTITY", "ENTITIES", "NMTOKEN", "NMTOKENS"]

/-- A character that a public identifier may hold. -/
def isPublicIdChar (c : Char) : Bool :=
  isAsciiLetter c || ('0' ≤ c && c ≤ '9') || " \r\n-'()+,./:=?;!*#@$_%".toList.contains c

/-- Checks a public identifier, whose literal token is given. -/
def checkPublicId (t : PrologToken) (text : List Char) : Except Fault Unit :=
  match text.dropWhile isPublicIdChar with
  | [] => .ok ()
  | bad => .error ⟨.badPublicId, bad ++ t.start.drop (text.length + 1)⟩

/-- A token that does not fit what is expected. -/
def misfit (t : PrologToken) : Fault :=
  ⟨match t.kind with
    | .parameter => .parameterEntity
    | .declaration => .misplacedDeclaration
    | _ => .syntaxError, t.start⟩

/-- The inside of a document declaration, whose token is given: what stands between its first word and its closing mark. -/
def declarationInside (t : PrologToken) : List Char :=
  (t.start.take (t.start.length - t.stop.length - 2)).drop 5

/-- The input from the closing mark of a literal's or a declaration's inside on. -/
def behind (t : PrologToken) (size : Nat) : List Char := t.start.drop (t.start.length - t.stop.length - size)

/-- The default value of the attribute being read, from its literal. -/
def defaultValue (st : PrologState) (t : PrologToken) (text : List Char) : Except Fault PrologState :=
  if st.doctype.frozen then .ok (st.next .attributeName)
  else match attributeValue st.doctype [] st.isData text with
    | .error f => .error (f.fault (behind t 1) t.start)
    | .ok value => .ok ((st.declare (some value)).next .attributeName)

/-- The step of an external identifier: its first word tells whether a public identifier comes first. -/
def externalId (st : PrologState) (word : List Char) (system publicId : Expect) : Option PrologState :=
  match String.ofList word with
  | "SYSTEM" => some (st.next system)
  | "PUBLIC" => some (st.next publicId)
  | _ => none

/-- Reads a token outside every declaration. -/
def outerStep (st : PrologState) (t : PrologToken) : Except Fault PrologState :=
  let st' := match st.expect with
    | .start => st.next .misc
    | _ => st
  match t.kind, st.expect with
  | .byteOrderMark, _ => .ok st
  | .space, _ | .instruction, _ | .comment, _ => .ok st'
  | .declaration, .start =>
    match readDeclaration (declarationInside t) with
    | .ok standalone => .ok { st' with doctype := { st.doctype with standalone } }
    | .error place => .error ⟨.malformedDeclaration, place ++ behind t 2⟩
  | .openDecl word, .start | .openDecl word, .misc =>
    if String.ofList word = "DOCTYPE" then .ok (st.next .doctypeName) else .error (misfit t)
  | _, _ => .error (misfit t)

/-- Reads a token of the document type declaration. -/
def doctypeStep (st : PrologState) (t : PrologToken) : Except Fault PrologState :=
  match st.expect, t.kind with
  | .doctypeName, .name _ .once => .ok (st.next .doctypeBody)
  | .doctypeBody, .openBracket | .doctypeSubset, .openBracket => .ok (st.next .subset)
  | .doctypeBody, .closeDecl | .doctypeSubset, .closeDecl | .doctypeEnd, .closeDecl => .ok (st.next .root)
  | .doctypeBody, .name word .once =>
    match externalId st word .doctypeSystem .doctypePublic with
    | some st => .ok st
    | none => .error (misfit t)
  | .doctypePublic, .literal text => do
    checkPublicId t text
    pure { st with expect := .doctypeSystem, doctype := { st.doctype with mayBeIncomplete := true } }
  | .doctypeSystem, .literal _ =>
    .ok { st with expect := .doctypeSubset, doctype := { st.doctype with mayBeIncomplete := true } }
  | .subset, .openDecl word =>
    match String.ofList word with
    | "ENTITY" => .ok (st.next .entityKind)
    | "ATTLIST" => .ok (st.next .attributesOf)
    | "ELEMENT" => .ok (st.next .elementName)
    | "NOTATION" => .ok (st.next .notationName)
    | _ => .error (misfit t)
  | .subset, .instruction | .subset, .comment => .ok st
  | .subset, .parameter => .ok { st with doctype := st.doctype.skipParameters }
  | .subset, .closeBracket => .ok (st.next .doctypeEnd)
  | _, _ => .error (misfit t)

/-- The declaration of an entity starts: a name that is predefined or declared already does not count again. -/
def entityNamed (st : PrologState) (word : List Char) : PrologState :=
  let counts := !st.doctype.frozen && (predefined? word).isNone && (st.doctype.entity? word).isNone
  { st with expect := .entityBody false, entity? := if counts then some word else none, isUnparsed := false }

/-- Reads a token of an entity or notation declaration. -/
def entityStep (st : PrologState) (t : PrologToken) : Except Fault PrologState :=
  let external (word : List Char) (system publicId : Expect) : Except Fault PrologState :=
    match externalId st word system publicId with
    | some st => .ok st
    | none => .error (misfit t)
  match st.expect, t.kind with
  | .entityKind, .percent => .ok (st.next .entityName)
  | .entityKind, .name word .once => .ok (entityNamed st word)
  | .entityName, .name _ .once => .ok { st with expect := .entityBody true, entity? := none }
  | .entityBody p, .name word .once => external word (.entitySystem p) (.entityPublic p)
  | .entityBody _, .literal text =>
    if st.doctype.frozen then .ok (st.next .declEnd)
    else match entityText (text.length + 1) text with
      | .error f => .error (f.fault (behind t 1) t.start)
      | .ok text => .ok ((st.define (.internal text)).next .declEnd)
  | .entityPublic p, .literal text => do
    checkPublicId t text
    pure (st.next (.entitySystem p))
  | .entitySystem p, .literal _ => .ok (st.next (.entityEnd p))
  | .entityEnd _, .closeDecl => .ok ((st.define .external).next .subset)
  | .entityEnd false, .name word .once =>
    if String.ofList word = "NDATA" then .ok (st.next .entityNotation) else .error (misfit t)
  | .entityNotation, .name _ .once => .ok ((st.define .unparsed).next .declEnd)
  | .notationName, .name _ .once => .ok (st.next .notationBody)
  | .notationBody, .name word .once => external word .notationSystem .notationPublic
  | .notationPublic, .literal text => do
    checkPublicId t text
    pure (st.next .notationEnd)
  | .notationSystem, .literal _ => .ok (st.next .declEnd)
  | .notationEnd, .literal _ => .ok (st.next .declEnd)
  | .notationEnd, .closeDecl => .ok (st.next .subset)
  | _, _ => .error (misfit t)

/-- Reads a token of an attribute list declaration. -/
def attributeStep (st : PrologState) (t : PrologToken) : Except Fault PrologState :=
  match st.expect, t.kind with
  | .attributesOf, .name word .once => .ok { st with expect := .attributeName, element := word }
  | .attributeName, .closeDecl => .ok (st.next .subset)
  | .attributeName, .name word .once =>
    .ok { st with expect := .attributeType, attr := word, isData := false, isId := false }
  | .attributeType, .openParen => .ok (st.next .choiceFirst)
  | .attributeType, .name word .once =>
    let word := String.ofList word
    if word = "CDATA" then .ok { st with expect := .attributeDefault, isData := true }
    else if tokenizedTypes.contains word then .ok { st with expect := .attributeDefault, isId := word == "ID" }
    else if word = "NOTATION" then .ok (st.next .notationsOpen)
    else .error (misfit t)
  | .choiceFirst, .name _ .once | .choiceFirst, .nameToken => .ok (st.next .choiceNext)
  | .choiceNext, .closeParen .once | .notationsNext, .closeParen .once => .ok (st.next .attributeDefault)
  | .choiceNext, .bar => .ok (st.next .choiceFirst)
  | .notationsOpen, .openParen | .notationsNext, .bar => .ok (st.next .notationsFirst)
  | .notationsFirst, .name _ .once => .ok (st.next .notationsNext)
  | .attributeDefault, .keyword word =>
    match String.ofList word with
    | "IMPLIED" | "REQUIRED" => .ok ((st.declare none).next .attributeName)
    | "FIXED" => .ok (st.next .attributeFixed)
    | _ => .error (misfit t)
  | .attributeDefault, .literal text | .attributeFixed, .literal text => defaultValue st t text
  | _, _ => .error (misfit t)

/-- Reads a token of an element type declaration. -/
def elementStep (st : PrologState) (t : PrologToken) : Except Fault PrologState :=
  match st.expect, t.kind with
  | .elementName, .name _ .once => .ok (st.next .elementBody)
  | .elementBody, .name word .once =>
    if ["EMPTY", "ANY"].contains (String.ofList word) then .ok (st.next .declEnd) else .error (misfit t)
  | .elementBody, .openParen => .ok { st with expect := .modelFirst, groups := [none] }
  | .modelFirst, .keyword word =>
    if String.ofList word = "PCDATA" then .ok (st.next .mixedEnd) else .error (misfit t)
  | .modelFirst, .openParen | .modelItem, .openParen => .ok { st with expect := .modelItem, groups := none :: st.groups }
  | .modelFirst, .name _ _ | .modelItem, .name _ _ => .ok (st.next .modelNext)
  | .mixedEnd, .closeParen .once | .mixedEnd, .closeParen .any | .mixedNext, .closeParen .any => .ok (st.next .declEnd)
  | .mixedEnd, .bar | .mixedNext, .bar => .ok (st.next .mixedName)
  | .mixedName, .name _ .once => .ok (st.next .mixedNext)
  | .modelNext, .closeParen _ => .ok st.closeGroup
  | .modelNext, .comma =>
    match st.connect .sequence with
    | some st => .ok st
    | none => .error ⟨.syntaxError, t.start⟩
  | .modelNext, .bar =>
    match st.connect .choice with
    | some st => .ok st
    | none => .error ⟨.syntaxError, t.start⟩
  | _, _ => .error (misfit t)

/-- Reads one token of the prolog. White space is always allowed. -/
def prologStep (st : PrologState) (t : PrologToken) : Except Fault PrologState :=
  match st.expect with
  | .start | .misc | .root => outerStep st t
  | .declEnd =>
    match t.kind with
    | .space => .ok st
    | .closeDecl => .ok (st.next .subset)
    | _ => .error (misfit t)
  | e =>
    match t.kind with
    | .space => .ok st
    | _ =>
      match e with
      | .doctypeName | .doctypeBody | .doctypePublic | .doctypeSystem | .doctypeSubset | .doctypeEnd | .subset =>
        doctypeStep st t
      | .attributesOf | .attributeName | .attributeType | .choiceFirst | .choiceNext | .notationsOpen | .notationsFirst
      | .notationsNext | .attributeDefault | .attributeFixed => attributeStep st t
      | .elementName | .elementBody | .modelFirst | .mixedEnd | .mixedName | .mixedNext | .modelItem | .modelNext =>
        elementStep st t
      | _ => entityStep st t

/-- Reads a prolog: the declarations, and the input from the root element on. -/
def readProlog (st : PrologState) : List PrologToken → Except Fault (Doctype × List Char)
  | [] => .error ⟨.noElement, []⟩
  | t :: rest =>
    match t.kind with
    | .fault cause => .error ⟨cause, t.start⟩
    | .finish => .error ⟨.noElement, t.start⟩
    | .root =>
      match st.expect with
      | .start | .misc | .root => .ok (st.doctype, t.start)
      | _ => .error (misfit t)
    | _ =>
      match prologStep st t with
      | .error f => .error f
      | .ok st => readProlog st rest

end IconForge.Xml
