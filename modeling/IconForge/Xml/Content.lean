import IconForge.Xml.Scan

/-!
# Tokens of element content

Content is cut into tags, references, character data and markup that carries no data. A token keeps the input at its start and
behind its end, so that whatever goes wrong with it later has a place.
-/

namespace IconForge.Xml

/-- An attribute as it is written: its name, the input at the name, the text between the quotes, and the input from the closing
quote on. -/
structure RawAttribute where
  name : List Char
  place : List Char
  value : List Char
  after : List Char

/-- What a content token is. -/
inductive ContentKind where
  | openTag (name : List Char) (attributes : List RawAttribute) (empty : Bool)
  /-- An end tag, with the input at its name. -/
  | closeTag (name place : List Char)
  | reference (r : Reference)
  | data (text : List Char)
  /-- Comments, processing instructions and the marks around unparsed sections. -/
  | silent
  | declaration
  /-- The input cannot go on as content from here. -/
  | fault (cause : Cause)
  /-- The end of the input, with the data that stands there. -/
  | finish (text : List Char)

/-- A content token with the input at its start and behind its end. -/
structure ContentToken where
  kind : ContentKind
  start : List Char
  stop : List Char

/-- The characters of an attribute value up to its closing quote: legal, without a tag opener, and every ampersand opening a
reference. -/
def scanValue (quote : Char) : Nat → List Char → Scan (List Char)
  | 0, _ => .cut
  | _ + 1, [] => .cut
  | fuel + 1, c :: rest =>
    if c = quote then .found [] rest
    else if !isLegal c || c = '<' then .invalid (c :: rest)
    else if c = '&' then
      (scanReference rest).andThen fun _ after =>
        let written := (c :: rest).take (rest.length + 1 - after.length)
        (scanValue quote fuel after).map (written ++ ·)
    else (scanValue quote fuel rest).map (c :: ·)

/-- An attribute, from its name to its closing quote. -/
def scanAttribute (s : List Char) : Scan RawAttribute :=
  (scanName s).andThen fun name rest =>
  (scanSpaces rest).andThen fun _ rest =>
  (scanChar '=' rest).andThen fun _ rest =>
  (scanSpaces rest).andThen fun _ rest =>
  match rest with
  | [] => .cut
  | c :: after =>
    if c = '"' || c = '\'' then
      (scanValue c (after.length + 1) after).andThen fun value left => .found ⟨name, s, value, c :: left⟩ left
    else .invalid rest

/-- The end of a start tag: whether the element is empty. -/
def scanTagEnd (s : List Char) : Scan Bool :=
  match s with
  | [] => .cut
  | '>' :: rest => .found false rest
  | '/' :: rest => (scanChar '>' rest).map fun _ => true
  | _ => .invalid s

/-- What follows the name of a start tag or one of its attributes: attributes, each behind white space, and the end of the tag. -/
def scanAttributes : Nat → List Char → Scan (List RawAttribute × Bool)
  | 0, _ => .cut
  | fuel + 1, s =>
    match s with
    | [] => .cut
    | c :: _ =>
      if isSpace c then
        (scanSpaces s).andThen fun _ rest =>
          match rest with
          | [] => .cut
          | d :: _ =>
            if d = '>' || d = '/' then (scanTagEnd rest).map fun empty => ([], empty)
            else (scanAttribute rest).andThen fun a rest =>
              (scanAttributes fuel rest).map fun r => (a :: r.1, r.2)
      else (scanTagEnd s).map fun empty => ([], empty)

/-- A start tag, from behind its opening bracket. -/
def scanOpenTag (s : List Char) : Scan ContentKind :=
  (scanName s).andThen fun name rest =>
    (scanAttributes (rest.length + 1) rest).map fun r => .openTag name r.1 r.2

/-- An end tag, from behind its slash. -/
def scanCloseTag (s : List Char) : Scan ContentKind :=
  (scanName s).andThen fun name rest =>
  (scanSpaces rest).andThen fun _ rest =>
  (scanChar '>' rest).map fun _ => .closeTag name s

/-- A given word. -/
def scanWord : List Char → List Char → Scan Unit
  | [], rest => .found () rest
  | c :: word, s => (scanChar c s).andThen fun _ rest => scanWord word rest

/-- The number of bytes that encode a text. -/
def encodedSize (s : List Char) : Nat := (s.map Char.utf8Size).foldr (· + ·) 0

/-- What follows `<!` in content, from there: a comment or the opening of an unparsed section. The word that opens the section is
compared only when enough input is left to hold it. -/
def scanMarked (s : List Char) : Scan Bool :=
  match s with
  | [] => .cut
  | '-' :: rest => (scanComment rest).map fun _ => false
  | '[' :: rest =>
    if encodedSize (rest.take 6) < 6 then .cut
    else (scanWord ['C', 'D', 'A', 'T', 'A', '['] rest).map fun _ => true
  | _ => .invalid s

/-- A line break at the front of the input, in any of its three forms, and what follows it. -/
def afterBreak? : List Char → Option (List Char)
  | '\r' :: '\n' :: rest => some rest
  | '\r' :: rest => some rest
  | '\n' :: rest => some rest
  | _ => none

/-- A run of data up to markup or a line break. A closing mark of an unparsed section may not stand in it. -/
def scanData : List Char → Scan (List Char)
  | [] => .found [] []
  | c :: rest =>
    if c = '<' || c = '&' || c = '\r' || c = '\n' || !isLegal c then .found [] (c :: rest)
    else if c = ']' then
      match rest with
      | ']' :: '>' :: after => .invalid ('>' :: after)
      | _ => (scanData rest).map (c :: ·)
    else (scanData rest).map (c :: ·)

/-- A run of data inside an unparsed section. -/
def scanSectionData : List Char → List Char × List Char
  | [] => ([], [])
  | c :: rest =>
    if c = ']' || c = '\r' || c = '\n' || !isLegal c then ([], c :: rest)
    else
      let (text, after) := scanSectionData rest
      (c :: text, after)

/-- The token that a scan of markup gives. -/
def markupToken (start : List Char) : Scan ContentKind → ContentToken
  | .found kind rest => ⟨kind, start, rest⟩
  | .invalid rest => ⟨.fault .invalidToken, rest, rest⟩
  | .cut => ⟨.fault .unclosedToken, start, start⟩

/-- The token at the front of a section's inside, and whether the section goes on behind it. -/
def sectionToken (s : List Char) : ContentToken × Bool :=
  match afterBreak? s with
  | some [] => if s = ['\r'] then (⟨.fault .unclosedCdata, s, s⟩, true) else (⟨.data ['\n'], s, []⟩, true)
  | some rest => (⟨.data ['\n'], s, rest⟩, true)
  | none =>
    match s with
    | [] => (⟨.fault .unclosedCdata, s, s⟩, true)
    | [']'] => (⟨.fault .unclosedCdata, s, s⟩, true)
    | [']', ']'] => (⟨.fault .unclosedCdata, s, s⟩, true)
    | ']' :: ']' :: '>' :: rest => (⟨.silent, s, rest⟩, false)
    | c :: rest =>
      if !isLegal c then (⟨.fault .invalidToken, s, s⟩, true)
      else
        let (text, after) := scanSectionData rest
        (⟨.data (c :: text), s, after⟩, true)

/-- The token at the front of content, and whether it opens an unparsed section. A carriage return at the very end belongs to the
end of the input: it is data if the content may end there. -/
def contentToken (s : List Char) : ContentToken × Bool :=
  match s with
  | [] => (⟨.finish [], s, s⟩, false)
  | ['\r'] => (⟨.finish ['\n'], s, s⟩, false)
  | '<' :: '!' :: rest =>
    match scanMarked rest with
    | .found opens after => (⟨.silent, s, after⟩, opens)
    | .invalid after => (⟨.fault .invalidToken, after, after⟩, false)
    | .cut => (⟨.fault .unclosedToken, s, s⟩, false)
  | '<' :: '?' :: rest =>
    (markupToken s ((scanInstruction rest).map fun
      | .processing => .silent
      | .declaration => .declaration), false)
  | '<' :: '/' :: rest => (markupToken s (scanCloseTag rest), false)
  | '<' :: rest => (markupToken s (scanOpenTag rest), false)
  | '&' :: rest => (markupToken s ((scanReference rest).map .reference), false)
  | c :: _ =>
    match afterBreak? s with
    | some after => (⟨.data ['\n'], s, after⟩, false)
    | none =>
      if !isLegal c then (⟨.fault .invalidToken, s, s⟩, false)
      else (markupToken s ((scanData s).map .data), false)

/-- No token follows this one. -/
def ContentKind.isLast : ContentKind → Bool
  | .fault _ => true
  | .finish _ => true
  | _ => false

/-- The tokens of content: each one starts behind the one before it, up to the end of the input or to a fault. -/
def contentTokens (inSection : Bool) (s : List Char) : List ContentToken :=
  let (token, opens) := if inSection then sectionToken s else contentToken s
  if !token.kind.isLast && token.stop.length < s.length then token :: contentTokens opens token.stop
  else [token]
termination_by s.length
decreasing_by simp_all

end IconForge.Xml
