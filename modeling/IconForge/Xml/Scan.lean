import IconForge.Text.Digit
import IconForge.Xml.Char
import IconForge.Xml.Fault

/-!
# Scanning the parts of a document

Every scanner reads one construct from the front of the input. It finds the construct and what is left, or a character that
cannot stand where it stands, or the end of the input inside the construct.
-/

namespace IconForge.Xml

/-- What a scanner finds. -/
inductive Scan (α : Type) where
  /-- The construct, and what is left after it. -/
  | found (value : α) (rest : List Char)
  /-- The input from the first character that cannot stand where it stands. -/
  | invalid (rest : List Char)
  /-- The input ends inside the construct. -/
  | cut

namespace Scan

/-- Goes on behind a construct. -/
def andThen {α β : Type} (s : Scan α) (f : α → List Char → Scan β) : Scan β :=
  match s with
  | found a rest => f a rest
  | invalid rest => invalid rest
  | cut => cut

/-- The construct under a function. -/
def map {α β : Type} (f : α → β) (s : Scan α) : Scan β := s.andThen fun a rest => found (f a) rest

end Scan

/-- A name, which must be followed by some character. -/
def scanName (s : List Char) : Scan (List Char) :=
  match s with
  | [] => .cut
  | c :: rest =>
    if !isNameStart c then .invalid s
    else match rest.dropWhile isNameChar with
      | [] => .cut
      | after => .found (c :: rest.takeWhile isNameChar) after

/-- One given character. -/
def scanChar (c : Char) : List Char → Scan Unit
  | [] => .cut
  | d :: rest => if d = c then .found () rest else .invalid (d :: rest)

/-- White space, which must be followed by some character. -/
def scanSpaces (s : List Char) : Scan Unit :=
  match s.dropWhile isSpace with
  | [] => .cut
  | after => .found () after

/-- Characters up to a mark, all of them legal. The mark itself is not read. -/
def scanLegalUntil (isMark : Char → Bool) : List Char → Scan (List Char)
  | [] => .cut
  | c :: rest =>
    if isMark c then .found [] (c :: rest)
    else if !isLegal c then .invalid (c :: rest)
    else (scanLegalUntil isMark rest).map (c :: ·)

/-- A reference in text: to a character by its number, or to an entity by its name. -/
inductive Reference where
  | char (code : Nat)
  | entity (name : List Char)

/-- The digits of a character reference up to its semicolon, added to the number read so far. `first` says that no digit has been
read yet. -/
def scanNumber (base : Nat) (digit? : Char → Option Nat) : Bool → Nat → List Char → Scan Nat
  | _, _, [] => .cut
  | first, n, c :: rest =>
    match digit? c with
    | some d => scanNumber base digit? false (n * base + d) rest
    | none => if c = ';' && !first then .found n rest else .invalid (c :: rest)

/-- A reference, from behind its ampersand. -/
def scanReference (s : List Char) : Scan Reference :=
  match s with
  | '#' :: 'x' :: rest => (scanNumber 16 Text.hexDigit? true 0 rest).map .char
  | '#' :: rest => (scanNumber 10 Text.digit? true 0 rest).map .char
  | _ => (scanName s).andThen fun name rest =>
    (scanChar ';' rest).map fun _ => .entity name

/-- A comment, from behind its first hyphen: two hyphens in a row may stand only before its end. -/
def scanCommentBody : List Char → Scan Unit
  | [] => .cut
  | c :: rest =>
    if !isLegal c then .invalid (c :: rest)
    else if c = '-' then
      match rest with
      | [] => .cut
      | '-' :: after => scanChar '>' after
      | _ => scanCommentBody rest
    else scanCommentBody rest

/-- A comment, from behind the first of its two opening hyphens. -/
def scanComment (s : List Char) : Scan Unit := (scanChar '-' s).andThen fun _ rest => scanCommentBody rest

/-- What a processing instruction turns out to be. -/
inductive Instruction where
  | processing
  | declaration
  deriving DecidableEq

/-- The instruction that a target names: the declaration of the document is written in small letters only. -/
def instruction? (target : List Char) : Option Instruction :=
  if target = ['x', 'm', 'l'] then some .declaration
  else if target.map Char.toLower = ['x', 'm', 'l'] then none
  else some .processing

/-- The body of a processing instruction, up to its closing mark. -/
def scanInstructionBody : List Char → Scan Unit
  | [] => .cut
  | c :: rest =>
    if !isLegal c then .invalid (c :: rest)
    else if c = '?' then
      match rest with
      | [] => .cut
      | '>' :: after => .found () after
      | _ => scanInstructionBody rest
    else scanInstructionBody rest

/-- A processing instruction, from behind its opening mark. -/
def scanInstruction (s : List Char) : Scan Instruction :=
  (scanName s).andThen fun target rest =>
    match rest with
    | [] => .cut
    | c :: after =>
      if isSpace c || c = '?' then
        match instruction? target with
        | none => .invalid rest
        | some kind =>
          if isSpace c then (scanInstructionBody after).map fun _ => kind
          else (scanChar '>' after).map fun _ => kind
      else .invalid rest

end IconForge.Xml
