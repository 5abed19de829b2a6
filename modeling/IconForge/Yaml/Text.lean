import IconForge.Yaml.Cursor

/-!
# Scalars and names in a YAML text

Each function reads one construct that starts at a cursor and gives the text it stands for with the place behind it.
-/

namespace IconForge.Yaml

/-- What is read at a place, and the place behind it. -/
abbrev Reading (α : Type) := Except Fault (α × Cursor)

/-- A word, which may not be empty and must be followed by one of some characters or by the end. -/
def readWord (c : Cursor) (follows : Char → Bool) : Reading (List Char) :=
  let (word, c) := c.run isWordChar
  if word.isEmpty || !ends follows c.rest then .error .malformed else .ok (word, c)

/-- What may follow an anchor or an alias. -/
def followsAnchor (c : Char) : Bool := isGap c || c = '}' || "?:,]%@`".toList.contains c

/-- What may follow a tag or a directive's part. -/
def followsTag (c : Char) : Bool := c = ' ' || isBreak c

/-- Bytes written as percent signs with two hexadecimal digits each. -/
def readPercents : Nat → Cursor → List UInt8 → Reading (List UInt8)
  | 0, _, _ => .error .malformed
  | fuel + 1, c, acc =>
    match c.rest with
    | '%' :: a :: b :: _ =>
      match Text.hexDigit? a, Text.hexDigit? b with
      | some a, some b => readPercents fuel (c.skip 3) (acc ++ [UInt8.ofNat (a * 16 + b)])
      | _, _ => .error .malformed
    | '%' :: _ => .error .malformed
    | _ => .ok (acc, c)

/-- A character that a tag may hold. -/
def isTagChar (c : Char) : Bool := c.isAlphanum || "-;/?:@&=+$,_.!~*'()[]%".toList.contains c

/-- The characters of a tag, of which the bytes written by number make up text. -/
def readTagText : Nat → Cursor → List Char → Reading (List Char)
  | 0, _, _ => .error .malformed
  | fuel + 1, c, acc =>
    match c.rest with
    | [] => .ok (acc, c)
    | x :: _ =>
      if x = '%' then
        match readPercents (c.rest.length + 1) c [] with
        | .error f => .error f
        | .ok (bytes, c) =>
          match Text.Utf8.decode bytes with
          | .ok text => readTagText fuel c (acc ++ text.toList)
          | .error _ => .error .malformed
      else if isTagChar x then readTagText fuel c.next (acc ++ [x])
      else .ok (acc, c)

/-- The text of a tag, which may not be empty. -/
def readTagSuffix (c : Cursor) : Reading (List Char) :=
  match readTagText (c.rest.length + 1) c [] with
  | .error f => .error f
  | .ok ([], c') => if c'.index = c.index then .error .malformed else .ok ([], c')
  | .ok r => .ok r

/-- The handle of a tag: an exclamation mark, or a word between two of them. -/
def readTagHandle (c : Cursor) : Reading (List Char) :=
  match c.rest with
  | '!' :: rest =>
    if comes (· = ' ') rest then .ok (['!'], c.next)
    else
      let (word, after) := c.next.run isWordChar
      if comes (· = '!') after.rest then .ok ('!' :: word ++ ['!'], after.next) else .error .malformed
  | _ => .error .malformed

/-- A tag: its handle, if it has one, and the text behind it. -/
def readTag (c : Cursor) : Reading (Option (List Char) × List Char) :=
  let finish (handle? : Option (List Char)) (r : Reading (List Char)) : Reading (Option (List Char) × List Char) :=
    match r with
    | .error f => .error f
    | .ok (suffix, c) => if ends followsTag c.rest then .ok ((handle?, suffix), c) else .error .malformed
  match c.rest.drop 1 with
  | '<' :: _ =>
    match readTagSuffix (c.skip 2) with
    | .error f => .error f
    | .ok (suffix, c) =>
      if comes (· = '>') c.rest then finish none (.ok (suffix, c.next)) else .error .malformed
  | rest =>
    if ends isGap rest then finish none (.ok (['!'], c.next))
    else if (rest.takeWhile (!followsTag ·)).contains '!' then
      match readTagHandle c with
      | .error f => .error f
      | .ok (handle, c) => finish (some handle) (readTagSuffix c)
    else finish (some ['!']) (readTagSuffix c.next)

/-- What a directive says. -/
inductive Directive where
  /-- The major number of the version that the text is written for. -/
  | version (major : Nat)
  | handle (name replacement : List Char)
  | other
  deriving Repr, DecidableEq

/-- The end of a directive's or a block scalar's first line: blanks, perhaps a comment, and a line break. -/
def readLineEnd (c : Cursor) : Except Fault Cursor :=
  let c := c.behindBlanks.behindComment
  match c.lineBreak? with
  | some (_, c) => .ok c
  | none => if c.rest.isEmpty then .ok c else .error .malformed

/-- A whole number in digits. -/
def readNumber (c : Cursor) : Reading Nat :=
  let (digits, c) := c.run Text.isDigit
  if digits.isEmpty then .error .malformed else .ok (Nat.ofDigitChars 10 digits 0, c)

/-- A directive, from its percent sign to the end of its line. -/
def readDirective (c : Cursor) : Except Fault (Directive × Cursor) := do
  let (name, c) ← readWord c.next followsTag
  match String.ofList name with
  | "YAML" =>
    let (major, c) ← readNumber c.behindBlanks
    if !comes (· = '.') c.rest then throw .malformed
    let (_, c) ← readNumber c.next
    if !ends followsTag c.rest then throw .malformed
    pure (.version major, ← readLineEnd c)
  | "TAG" =>
    let (handle, c) ← readTagHandle c.behindBlanks
    if !comes (· = ' ') c.rest then throw .malformed
    let (replacement, c) ← readTagSuffix c.behindBlanks
    if !ends followsTag c.rest then throw .malformed
    pure (.handle handle replacement, ← readLineEnd c)
  | _ => pure (.other, ← readLineEnd (c.run (!isBreak ·)).2)

/-! ## Block scalars -/

/-- What becomes of the line breaks at the end of a block scalar. -/
inductive Chomping where
  | strip
  | clip
  | keep
  deriving Repr, DecidableEq

/-- The sign of a chomping. -/
def chomping? (c : Char) : Option Chomping :=
  if c = '+' then some .keep else if c = '-' then some .strip else none

/-- The header of a block scalar: a chomping and an indentation, each at will and in either order. -/
def readBlockHeader (c : Cursor) : Except Fault ((Chomping × Option Nat) × Cursor) := do
  let sign (c : Cursor) : Option Chomping × Cursor :=
    match c.rest.head?.bind chomping? with
    | some m => (some m, c.next)
    | none => (none, c)
  let digit (c : Cursor) : Reading (Option Nat) :=
    match c.rest with
    | '0' :: _ => .error .malformed
    | x :: _ => if Text.isDigit x then .ok (some (x.toNat - '0'.toNat), c.next) else .ok (none, c)
    | [] => .ok (none, c)
  let (first, c) := sign c
  let (increment, c) ← digit c
  let (second, c) := if first.isNone && increment.isSome then sign c else (none, c)
  if !ends followsTag c.rest then throw .malformed
  pure ((((first.or second).getD .clip), increment), c)

/-- The blank lines at the start of a block scalar, and the greatest column that blanks lead to. -/
def readIndentation : Nat → Cursor → List Char → Nat → List Char × Nat × Cursor
  | 0, c, breaks, most => (breaks, most, c)
  | fuel + 1, c, breaks, most =>
    if comes (· = ' ') c.rest then
      let c := c.next
      readIndentation fuel c breaks (max most c.column)
    else match c.lineBreak? with
      | some (b, c) => readIndentation fuel c (breaks ++ [b]) most
      | none => (breaks, most, c)

/-- The place behind the blanks that come next, up to a column. -/
def toColumn (indent : Nat) : Nat → Cursor → Cursor
  | 0, c => c
  | fuel + 1, c => if c.column < indent && comes (· = ' ') c.rest then toColumn indent fuel c.next else c

/-- The line breaks that come next, each behind blanks up to the indentation. -/
def readBreaks (indent : Nat) : Nat → Cursor → List Char → List Char × Cursor
  | 0, c, breaks => (breaks, c)
  | fuel + 1, c, breaks =>
    let c := toColumn indent (indent + 1) c
    match c.lineBreak? with
    | some (b, c) => readBreaks indent fuel c (breaks ++ [b])
    | none => (breaks, c)

/-- The lines of a block scalar: the text so far, the last line break, and the blank lines behind it. -/
def readBlockLines (folded : Bool) (indent : Nat) : Nat → Cursor → List Char → List Char → List Char →
    (List Char × List Char × List Char) × Cursor
  | 0, c, text, last, breaks => ((text, last, breaks), c)
  | fuel + 1, c, text, last, breaks =>
    if c.column = indent && !c.rest.isEmpty then
      let leads := !comes (fun x => x = ' ' || x = '\t') c.rest
      let (line, c) := c.run (!isBreak ·)
      let text := text ++ breaks ++ line
      let (last, c) := match c.lineBreak? with
        | some (b, c) => ([b], c)
        | none => ([], c)
      let (breaks, c) := readBreaks indent (c.rest.length + 1) c []
      if c.column = indent && !c.rest.isEmpty then
        let joins := folded && last = ['\n'] && leads && !comes (fun x => x = ' ' || x = '\t') c.rest
        let joint := if joins then (if breaks.isEmpty then [' '] else []) else last
        readBlockLines folded indent fuel c (text ++ joint) [] breaks
      else ((text, last, breaks), c)
    else ((text, last, breaks), c)

/-- A block scalar in a block that is indented to the column `parent`, which is negative for none. -/
def readBlockScalar (folded : Bool) (parent : Int) (c : Cursor) : Except Fault (List Char × Cursor) := do
  let ((chomping, increment?), c) ← readBlockHeader c.next
  let c ← readLineEnd c
  let least := (parent + 1).toNat.max 1
  let fuel := c.rest.length + 1
  let (breaks, indent, c) := match increment? with
    | some n =>
      let indent := least + n - 1
      let (breaks, c) := readBreaks indent fuel c []
      (breaks, indent, c)
    | none =>
      let (breaks, most, c) := readIndentation fuel c [] 0
      (breaks, max least most, c)
  let ((text, last, breaks), c) := readBlockLines folded indent fuel c [] [] breaks
  let tail := match chomping with
    | .strip => []
    | .clip => last
    | .keep => last ++ breaks
  pure (text ++ tail, c)

/-! ## Quoted scalars -/

/-- The characters that a backslash and a letter stand for. -/
def escapes : List (Char × Nat) :=
  [('0', 0), ('a', 7), ('b', 8), ('t', 9), ('\t', 9), ('n', 0xA), ('v', 0xB), ('f', 0xC), ('r', 0xD), ('e', 0x1B), (' ', 0x20),
    ('"', 0x22), ('\\', 0x5C), ('/', 0x2F), ('N', 0x85), ('_', 0xA0), ('L', 0x2028), ('P', 0x2029)]

/-- The number of digits behind the letter of an escape by code. -/
def escapeWidth? (c : Char) : Option Nat :=
  if c = 'x' then some 2 else if c = 'u' then some 4 else if c = 'U' then some 8 else none

/-- The character of a code. A code beyond the last one is a fault of the value; half of a pair stands for the replacement mark. -/
def charOfCode (code : Nat) : Except Fault Char :=
  if code < 0x110000 then .ok (if code.isValidChar then Char.ofNat code else Char.ofNat 0xFFFD)
  else if code < 0x80000000 then .error (.kind .value "chr() arg not in range(0x110000)")
  else .error (.kind .overflow "Python int too large to convert to C int")

/-- The line breaks inside a quoted scalar, from behind the first one. -/
def readQuotedBreaks : Nat → Cursor → List Char → Reading (List Char)
  | 0, _, _ => .error .malformed
  | fuel + 1, c, breaks =>
    if c.atSeparator then .error .malformed
    else
      let c := (c.run fun x => x = ' ' || x = '\t').2
      match c.lineBreak? with
      | some (b, c) => readQuotedBreaks fuel c (breaks ++ [b])
      | none => .ok (breaks, c)

/-- The white space inside a quoted scalar. A single line break is a blank. -/
def readQuotedGap (c : Cursor) : Reading (List Char) :=
  let (blanks, c) := c.run fun x => x = ' ' || x = '\t'
  match c.lineBreak? with
  | some (b, c) =>
    match readQuotedBreaks (c.rest.length + 1) c [] with
    | .error f => .error f
    | .ok (breaks, c) => .ok ((if b != '\n' then [b] else if breaks.isEmpty then [' '] else []) ++ breaks, c)
  | none => if c.rest.isEmpty then .error .malformed else .ok (blanks, c)

/-- What a backslash in a double-quoted scalar stands for, from behind it. -/
def readEscape (c : Cursor) : Reading (List Char) :=
  match c.rest with
  | [] => .error .malformed
  | x :: _ =>
    match escapes.lookup x with
    | some code => .ok ([Char.ofNat code], c.next)
    | none =>
      match escapeWidth? x with
      | some width =>
        let c := c.next
        match (c.rest.take width).mapM Text.hexDigit? with
        | some digits =>
          if digits.length < width then .error .malformed
          else (charOfCode (digits.foldl (fun n d => n * 16 + d) 0)).map fun x => ([x], c.skip width)
        | none => .error .malformed
      | none =>
        match c.lineBreak? with
        | some (_, c) => readQuotedBreaks (c.rest.length + 1) c []
        | none => .error .malformed

/-- A quoted scalar, from behind its opening quote. -/
def readQuoted (double : Bool) : Nat → Cursor → List Char → Reading (List Char)
  | 0, _, _ => .error .malformed
  | fuel + 1, c, text =>
    match c.rest with
    | [] => .error .malformed
    | x :: rest =>
      if !double && x = '\'' then
        if comes (· = '\'') rest then readQuoted double fuel (c.skip 2) (text ++ ['\'']) else .ok (text, c.next)
      else if double && x = '"' then .ok (text, c.next)
      else if double && x = '\\' then
        match readEscape c.next with
        | .error f => .error f
        | .ok (piece, c) => readQuoted double fuel c (text ++ piece)
      else if isGap x then
        match readQuotedGap c with
        | .error f => .error f
        | .ok (piece, c) => readQuoted double fuel c (text ++ piece)
      else readQuoted double fuel c.next (text ++ [x])

/-! ## Plain scalars -/

/-- The characters of a plain scalar up to white space or to a mark that ends it. -/
def plainChunk (flow : Bool) : List Char → List Char
  | [] => []
  | c :: rest =>
    let ends := isGap c || (c = ':' && ends (fun d => isGap d || (flow && ",[]{}".toList.contains d)) rest)
      || (flow && ",?[]{}".toList.contains c)
    if ends then [] else c :: plainChunk flow rest

/-- The blank lines inside a plain scalar; nothing if a document ends there. -/
def readPlainBreaks : Nat → Cursor → List Char → Option (List Char) × Cursor
  | 0, c, breaks => (some breaks, c)
  | fuel + 1, c, breaks =>
    if comes (· = ' ') c.rest then readPlainBreaks fuel c.next breaks
    else match c.lineBreak? with
      | some (b, c) => if c.atSeparator then (none, c) else readPlainBreaks fuel c (breaks ++ [b])
      | none => (some breaks, c)

/-- The white space behind a piece of a plain scalar, and whether a line ends in it. -/
def readPlainGap (c : Cursor) : (List Char × Bool) × Cursor :=
  let (blanks, c) := c.run (· = ' ')
  match c.lineBreak? with
  | none => ((blanks, false), c)
  | some (b, c) =>
    if c.atSeparator then (([], true), c)
    else match readPlainBreaks (c.rest.length + 1) c [] with
      | (none, c) => (([], true), c)
      | (some breaks, c) => (((if b != '\n' then [b] else if breaks.isEmpty then [' '] else []) ++ breaks, true), c)

/-- A plain scalar, and whether it ends behind a line break. `parent` is the column of the block it stands in. -/
def readPlain (flow : Bool) (parent : Int) : Nat → Cursor → List Char → List Char → Bool → (List Char × Bool) × Cursor
  | 0, c, text, _, fresh => ((text, fresh), c)
  | fuel + 1, c, text, gap, fresh =>
    let chunk := if comes (· = '#') c.rest then [] else plainChunk flow c.rest
    if chunk.isEmpty then ((text, fresh), c)
    else
      let text := text ++ gap ++ chunk
      let ((gap, fresh), c) := readPlainGap (c.skip chunk.length)
      if gap.isEmpty || comes (· = '#') c.rest || (!flow && (c.column : Int) < parent + 1) then ((text, fresh), c)
      else readPlain flow parent fuel c text gap fresh

end IconForge.Yaml
