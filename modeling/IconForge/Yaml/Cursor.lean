import IconForge.Text.Digit
import IconForge.Text.Utf8
import IconForge.Yaml.Data

/-!
# Places in a YAML text

A cursor stands before the text that is left and knows its line and column. White space and line breaks are those of YAML 1.1: besides
the line feed there are the next line mark and the two separators of Unicode.
-/

namespace IconForge.Yaml

/-- Why a text holds no data. -/
inductive Fault where
  /-- The text is not YAML, or asks for something that has no safe meaning. -/
  | malformed
  /-- A fault that lies in a scalar's value. -/
  | kind (k : FaultKind) (message : String)
  deriving Repr, DecidableEq

/-- A place in a text. -/
structure Cursor where
  rest : List Char
  index : Nat := 0
  line : Nat := 0
  column : Nat := 0

/-- A character that ends a line. -/
def isBreak (c : Char) : Bool := c = '\n' || c = '\r' || c.toNat = 0x85 || c.toNat = 0x2028 || c.toNat = 0x2029

/-- A character that separates: a blank, a tab or the end of a line. -/
def isGap (c : Char) : Bool := c = ' ' || c = '\t' || isBreak c

/-- The text ends, or a character of some class comes next. -/
def ends (p : Char → Bool) : List Char → Bool
  | [] => true
  | c :: _ => p c

/-- A character of some class comes next. -/
def comes (p : Char → Bool) : List Char → Bool
  | [] => false
  | c :: _ => p c

/-- A character that a text may hold. -/
def isPrintable (c : Char) : Bool :=
  let n := c.toNat
  n = 0x9 || n = 0xA || n = 0xD || (0x20 ≤ n && n ≤ 0x7E) || n = 0x85 || (0xA0 ≤ n && n ≤ 0xD7FF) || (0xE000 ≤ n && n ≤ 0xFFFD)
    || 0x10000 ≤ n

/-- A character of a word: of anchors, handles and directives. -/
def isWordChar (c : Char) : Bool := c.isAlphanum || c = '-' || c = '_'

namespace Cursor

/-- The place behind the next character. -/
def next (c : Cursor) : Cursor :=
  match c.rest with
  | [] => c
  | x :: rest =>
    if isBreak x && !(x = '\r' && comes (· = '\n') rest) then ⟨rest, c.index + 1, c.line + 1, 0⟩
    else ⟨rest, c.index + 1, c.line, if x.toNat = 0xFEFF then c.column else c.column + 1⟩

/-- The place some characters on. -/
def skip (c : Cursor) : Nat → Cursor
  | 0 => c
  | n + 1 => c.next.skip n

/-- The characters of some class that come next, and the place behind them. -/
def run (c : Cursor) (p : Char → Bool) : List Char × Cursor :=
  let taken := c.rest.takeWhile p
  (taken, c.skip taken.length)

/-- The place behind the blanks that come next. -/
def behindBlanks (c : Cursor) : Cursor := (c.run (· = ' ')).2

/-- The line break that comes next, in its normal form, and the place behind it. -/
def lineBreak? (c : Cursor) : Option (Char × Cursor) :=
  match c.rest with
  | '\r' :: '\n' :: _ => some ('\n', c.skip 2)
  | x :: _ =>
    if x.toNat = 0x2028 || x.toNat = 0x2029 then some (x, c.next)
    else if isBreak x then some ('\n', c.next)
    else none
  | [] => none

/-- The place behind a comment, if one comes next, at the end of its line. -/
def behindComment (c : Cursor) : Cursor :=
  if comes (· = '#') c.rest then (c.run (!isBreak ·)).2 else c

/-- Three hyphens or three dots that stand for themselves come next. -/
def atSeparator (c : Cursor) : Bool :=
  match c.rest with
  | '-' :: '-' :: '-' :: rest => ends isGap rest
  | '.' :: '.' :: '.' :: rest => ends isGap rest
  | _ => false

end Cursor

end IconForge.Yaml
