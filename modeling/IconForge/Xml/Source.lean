import IconForge.Text.Utf8
import IconForge.Xml.Char
import IconForge.Xml.Fault

/-!
# The characters of a document

A document is handed over in bytes, which are taken for units of sixteen bits where one of the first two is zero, whatever the document
declares. Such bytes may leave something over behind the last character, which shows where a document would end.
-/

namespace IconForge.Xml

/-- What the bytes of a document leave over behind its last character. -/
inductive Remainder where
  | nothing
  /-- Half of a unit. -/
  | byte
  /-- The first unit of a pair. -/
  | unit
  deriving Repr, DecidableEq

/-- The characters of a document, and what is left over behind them. -/
structure Source where
  characters : List Char
  remainder : Remainder
  deriving DecidableEq

namespace Source

/-- A unit that a second one belongs to. -/
def opensPair (u : Nat) : Bool := 0xD800 ≤ u && u < 0xDC00

/-- The character of a pair of units, whatever the second one is. -/
def pairChar (u v : Nat) : Char := Char.ofNat (0x10000 + u % 0x400 * 0x400 + v % 0x400)

/-- A source with one more character in front. -/
def cons (c : Char) (s : Source) : Source := { s with characters := c :: s.characters }

/-- The characters of units. The second unit of a pair alone is none that a document may hold. -/
def ofUnits (last : Remainder) : List Nat → Source
  | [] => ⟨[], last⟩
  | [u] => if opensPair u then ⟨[], .unit⟩ else ⟨[Char.ofNat u], last⟩
  | u :: v :: rest => if opensPair u then cons (pairChar u v) (ofUnits last rest) else cons (Char.ofNat u) (ofUnits last (v :: rest))

/-- The units of bytes, two each, and what is left over. -/
def units (join : Nat → Nat → Nat) : List UInt8 → List Nat × Remainder
  | [] => ([], .nothing)
  | [_] => ([], .byte)
  | a :: b :: rest => (join a.toNat b.toNat :: (units join rest).1, (units join rest).2)

/-- The source of bytes that hold units. -/
def wide (join : Nat → Nat → Nat) (document : String) : Source :=
  let (us, last) := units join (Text.Utf8.encode document)
  ofUnits last us

/-- The source of a document: of units, with the high byte or the low byte first, if one of its first two bytes is zero. -/
def ofString (document : String) : Source :=
  match document.toList with
  | '\x00' :: _ => wide (fun a b => a * 0x100 + b) document
  | c :: '\x00' :: _ => if c.utf8Size = 1 then wide (fun a b => b * 0x100 + a) document else ⟨document.toList, .nothing⟩
  | characters => ⟨characters, .nothing⟩

/-- A fault where something is left over: there is more than the end. Behind the characters of `ends`, half of a unit is not looked at. -/
def fault (ends : Char → Bool) (s : Source) (f : Fault) : Fault :=
  match s.remainder, f.cause with
  | .byte, .noElement => if f.rest.isEmpty && !s.characters.getLast?.any ends then { f with cause := .unclosedToken } else f
  | .unit, .noElement => ⟨.partialCharacter, []⟩
  | .unit, .unclosedToken | .unit, .unclosedCdata => { f with cause := .partialCharacter }
  | _, _ => f

/-- Characters that may end a token of the prolog which goes on if more follows. -/
def endsToken (c : Char) : Bool := isNameChar c || c = '"' || c = '\'' || c = ']' || c = ')' || c = '%'

/-- What is left over behind a document that has been read. -/
def finish (s : Source) : Except Fault Unit :=
  match s.remainder with
  | .nothing => .ok ()
  | .byte => if s.characters.getLast? = some '\r' then .ok () else .error ⟨.unclosedToken, []⟩
  | .unit => .error ⟨.partialCharacter, []⟩

end Source

end IconForge.Xml
