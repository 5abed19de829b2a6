import IconForge.Yaml.Text

/-!
# Tokens of a YAML text

A text is cut into tokens from left to right. Indentation opens and closes blocks. What a simple key was shows only at the colon behind
it; so every place where one may start is marked, and the mark is used when the colon comes.
-/

namespace IconForge.Yaml

/-- A token. -/
inductive Token where
  | directive (d : Directive)
  | documentStart
  | documentEnd
  | streamEnd
  | blockSequenceStart
  | blockMappingStart
  | blockEnd
  | flowSequenceStart
  | flowSequenceEnd
  | flowMappingStart
  | flowMappingEnd
  | blockEntry
  | flowEntry
  | key
  | value
  | alias (name : List Char)
  | anchor (name : List Char)
  | tag (handle? : Option (List Char)) (suffix : List Char)
  | scalar (text : List Char) (plain : Bool)
  /-- The text cannot go on from here. -/
  | fault (f : Fault)
  deriving Repr, DecidableEq

/-- A token, or a mark where a simple key may start. -/
inductive Slot where
  | token (t : Token)
  | mark
  /-- A mark that has been used, and whether a mapping starts there too. -/
  | used (opens : Bool)

/-- The tokens in a slot. -/
def Slot.tokens : Slot → List Token
  | token t => [t]
  | mark => []
  | used true => [.blockMappingStart, .key]
  | used false => [.key]

/-- A place where a simple key may start, by the slot of its mark. If it is required, something is wrong unless a colon follows. -/
structure Candidate where
  slot : Nat
  required : Bool
  index : Nat
  line : Nat
  column : Nat

/-- How far a text has been cut. -/
structure Scanner where
  cursor : Cursor
  slots : Array Slot := #[]
  /-- The columns of the open blocks, innermost first; no block is open at column minus one. -/
  indents : List Int := []
  flow : Nat := 0
  /-- A simple key may start here. -/
  fresh : Bool := true
  /-- The latest place where a simple key may start, by the number of open flow collections. -/
  candidates : List (Nat × Candidate) := []
  done : Bool := false

namespace Scanner

/-- The column of the innermost block. -/
def indent (s : Scanner) : Int := s.indents.head?.getD (-1)

/-- Adds a token. -/
def push (s : Scanner) (t : Token) : Scanner := { s with slots := s.slots.push (.token t) }

/-- The candidate of the current collection. -/
def candidate? (s : Scanner) : Option Candidate := s.candidates.lookup s.flow

/-- Forgets the candidate of the current collection. -/
def forget (s : Scanner) : Scanner := { s with candidates := s.candidates.filter (·.1 != s.flow) }

/-- Gives up the candidate of the current collection, which must not have been required. -/
def giveUp (s : Scanner) : Except Fault Scanner :=
  match s.candidate? with
  | some c => if c.required then .error .malformed else .ok s.forget
  | none => .ok s

/-- Marks a place where a simple key may start. -/
def markKey (s : Scanner) : Except Fault Scanner :=
  if s.fresh then do
    let required := s.flow = 0 && s.indent = s.cursor.column
    let s ← s.giveUp
    let c : Candidate := ⟨s.slots.size, required, s.cursor.index, s.cursor.line, s.cursor.column⟩
    pure { s with slots := s.slots.push .mark, candidates := (s.flow, c) :: s.candidates }
  else pure s

/-- A candidate is out of date on another line, and behind more characters than a simple key may have. -/
def isStale (s : Scanner) (c : Candidate) : Bool := c.line != s.cursor.line || 1024 < s.cursor.index - c.index

/-- Gives up the candidates that are out of date. -/
def dropStale (s : Scanner) : Except Fault Scanner :=
  if s.candidates.any fun c => s.isStale c.2 && c.2.required then .error .malformed
  else .ok { s with candidates := s.candidates.filter fun c => !s.isStale c.2 }

/-- How many of the open blocks are indented further than a column. -/
def deeper (column : Int) (indents : List Int) : Nat := (indents.takeWhile fun i => decide (column < i)).length

/-- Closes the blocks that are indented further than a column. Inside flow collections indentation means nothing. -/
def unwind (s : Scanner) (column : Int) : Scanner :=
  if s.flow = 0 then
    let n := deeper column s.indents
    { s with slots := s.slots ++ Array.replicate n (.token .blockEnd), indents := s.indents.drop n }
  else s

/-- Opens a block at a column, unless one is open there or further in. -/
def openBlock (s : Scanner) (column : Int) : Scanner × Bool :=
  if s.indent < column then ({ s with indents := column :: s.indents }, true) else (s, false)

/-- Opens a block at the cursor, with the token that says so. -/
def openBlockHere (s : Scanner) (t : Token) : Scanner :=
  let (s, opens) := s.openBlock s.cursor.column
  if opens then s.push t else s

/-- Moves behind some characters and adds a token. -/
def take (s : Scanner) (n : Nat) (t : Token) : Scanner := { s with cursor := s.cursor.skip n }.push t

/-- Goes on to the next token: behind blanks, comments and line breaks. Outside flow collections a simple key may start on a new
line. -/
def toToken : Nat → Scanner → Scanner
  | 0, s => s
  | fuel + 1, s =>
    let c := s.cursor.behindBlanks.behindComment
    match c.lineBreak? with
    | some (_, c) => toToken fuel { s with cursor := c, fresh := s.fresh || s.flow = 0 }
    | none => { s with cursor := c }

/-- Adds the token of a construct that a simple key may start with. -/
def keyLike {α : Type} (s : Scanner) (read : Cursor → Except Fault (α × Cursor)) (token : α → Token) : Except Fault Scanner := do
  let s ← s.markKey
  let (a, c) ← read s.cursor
  pure ({ s with cursor := c, fresh := false }.push (token a))

/-- The end of the text: all blocks close. -/
def finish (s : Scanner) : Except Fault Scanner := do
  let s ← (s.unwind (-1)).giveUp
  pure ({ s with fresh := false, candidates := [], done := true }.push .streamEnd)

/-- A document starts or ends here. -/
def separator (s : Scanner) (t : Token) : Except Fault Scanner := do
  let s ← (s.unwind (-1)).giveUp
  pure ({ s with fresh := false }.take 3 t)

/-- A directive. -/
def directive (s : Scanner) : Except Fault Scanner := do
  let s ← (s.unwind (-1)).giveUp
  let (d, c) ← readDirective s.cursor
  pure ({ s with cursor := c, fresh := false }.push (.directive d))

/-- A flow collection starts. -/
def openFlow (s : Scanner) (t : Token) : Except Fault Scanner := do
  let s ← s.markKey
  pure ({ s with flow := s.flow + 1, fresh := true }.take 1 t)

/-- A flow collection ends. -/
def closeFlow (s : Scanner) (t : Token) : Except Fault Scanner := do
  let s ← s.giveUp
  pure ({ s with flow := s.flow - 1, fresh := false }.take 1 t)

/-- A comma in a flow collection. -/
def flowEntry (s : Scanner) : Except Fault Scanner := do
  let s ← s.giveUp
  pure ({ s with fresh := true }.take 1 .flowEntry)

/-- A hyphen that starts an entry of a block sequence. -/
def blockEntry (s : Scanner) : Except Fault Scanner := do
  if s.flow = 0 && !s.fresh then throw .malformed
  let s := if s.flow = 0 then s.openBlockHere .blockSequenceStart else s
  let s ← s.giveUp
  pure ({ s with fresh := true }.take 1 .blockEntry)

/-- A question mark that starts a key. -/
def explicitKey (s : Scanner) : Except Fault Scanner := do
  if s.flow = 0 && !s.fresh then throw .malformed
  let s := if s.flow = 0 then s.openBlockHere .blockMappingStart else s
  let s ← s.giveUp
  pure ({ s with fresh := s.flow = 0 }.take 1 .key)

/-- A colon. The candidate of the collection turns out to be a simple key. -/
def mappingValue (s : Scanner) : Except Fault Scanner := do
  match s.candidate? with
  | some c =>
    let (s, opens) := if s.flow = 0 then s.forget.openBlock c.column else (s.forget, false)
    pure ({ s with slots := s.slots.setIfInBounds c.slot (.used opens), fresh := false }.take 1 .value)
  | none =>
    if s.flow = 0 && !s.fresh then throw .malformed
    let s := if s.flow = 0 then s.openBlockHere .blockMappingStart else s
    pure ({ s with fresh := s.flow = 0 }.take 1 .value)

/-- A block scalar. -/
def blockScalar (s : Scanner) (folded : Bool) : Except Fault Scanner := do
  let s ← s.giveUp
  let (text, c) ← readBlockScalar folded s.indent s.cursor
  pure ({ s with cursor := c, fresh := true }.push (.scalar text false))

/-- A plain scalar. A simple key may start behind it if it ends with a line. -/
def plainScalar (s : Scanner) : Except Fault Scanner := do
  let s ← s.markKey
  let ((text, fresh), c) := readPlain (s.flow != 0) s.indent (s.cursor.rest.length + 1) s.cursor [] [] false
  pure ({ s with cursor := c, fresh }.push (.scalar text true))

/-- Characters that no plain scalar starts with. -/
def isIndicator (c : Char) : Bool := isGap c || "-?:,[]{}#&*!|>'\"%@`".toList.contains c

/-- Reads the next token. -/
def fetch (s : Scanner) : Except Fault Scanner := do
  let s := s.toToken (s.cursor.rest.length + 1)
  let s ← s.dropStale
  let s := s.unwind s.cursor.column
  let inFlow := s.flow != 0
  match s.cursor.rest with
  | [] => s.finish
  | c :: rest =>
    let apart := ends isGap rest
    let atStart := s.cursor.column = 0
    if c = '%' && atStart then s.directive
    else if c = '-' && atStart && s.cursor.atSeparator then s.separator .documentStart
    else if c = '.' && atStart && s.cursor.atSeparator then s.separator .documentEnd
    else if c = '[' then s.openFlow .flowSequenceStart
    else if c = '{' then s.openFlow .flowMappingStart
    else if c = ']' then s.closeFlow .flowSequenceEnd
    else if c = '}' then s.closeFlow .flowMappingEnd
    else if c = ',' then s.flowEntry
    else if c = '-' && apart then s.blockEntry
    else if c = '?' && (inFlow || apart) then s.explicitKey
    else if c = ':' && (inFlow || apart) then s.mappingValue
    else if c = '*' then s.keyLike (fun c => readWord c.next followsAnchor) .alias
    else if c = '&' then s.keyLike (fun c => readWord c.next followsAnchor) .anchor
    else if c = '!' then s.keyLike readTag fun t => .tag t.1 t.2
    else if (c = '|' || c = '>') && !inFlow then s.blockScalar (c = '>')
    else if c = '\'' || c = '"' then
      s.keyLike (fun c' => readQuoted (c = '"') (c'.rest.length + 1) c'.next []) fun text => .scalar text false
    else if !isIndicator c || (!apart && (c = '-' || (!inFlow && (c = '?' || c = ':')))) then s.plainScalar
    else throw .malformed

/-- The slot from which on a reader has to wait for what comes. -/
def waiting (s : Scanner) : Nat := (s.candidates.map fun c => c.2.slot).foldl min s.slots.size

/-- Reads tokens up to the end of the text. What cannot be read is a fault, which shows before every token that waits for more. -/
def scan : Nat → Scanner → Array Slot
  | 0, s => s.slots
  | fuel + 1, s =>
    if s.done then s.slots
    else match s.fetch with
      | .ok s => scan fuel s
      | .error f => (s.slots.take s.waiting).push (.token (.fault f))

end Scanner

/-- The tokens of a text. A mark at its very start is left out. -/
def tokens (text : List Char) : List Token :=
  if text.all isPrintable then
    let text := match text with
      | c :: rest => if c.toNat = 0xFEFF then rest else c :: rest
      | [] => []
    (Scanner.scan (text.length + 2) { cursor := { rest := text } }).toList.flatMap Slot.tokens
  else [.fault .malformed]

end IconForge.Yaml
