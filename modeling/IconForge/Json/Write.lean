import IconForge.Decimal.Notation
import IconForge.Json.Value
import IconForge.Text.Diagnostic

/-!
# Writing JSON

Values are written in ASCII: quotes, backslashes and all that is not printable ASCII are escaped, characters beyond the first plane
as a pair of units. The laid out form puts each item on a line of its own.
-/

namespace IconForge.Json

/-- A unit of sixteen bits as an escape. -/
def escapedUnit (n : Nat) : List Char := '\\' :: 'u' :: Text.hexDigits 4 n

/-- A character inside a string. -/
def stringChar (c : Char) : List Char :=
  if c = '"' then ['\\', '"']
  else if c = '\\' then ['\\', '\\']
  else if c = '\n' then ['\\', 'n']
  else if c = '\r' then ['\\', 'r']
  else if c = '\t' then ['\\', 't']
  else if c.toNat = 8 then ['\\', 'b']
  else if c.toNat = 12 then ['\\', 'f']
  else if 0x20 ≤ c.toNat && c.toNat ≤ 0x7E then [c]
  else if c.toNat < 0x10000 then escapedUnit c.toNat
  else
    let n := c.toNat - 0x10000
    escapedUnit (0xD800 + n / 0x400) ++ escapedUnit (0xDC00 + n % 0x400)

/-- A string in its written form. -/
def stringChars (s : String) : List Char := '"' :: s.toList.flatMap stringChar ++ ['"']

/-- Numbers with a fraction are written as in a settings file, but for those that have no digits. -/
def numberNotation : Decimal.Notation :=
  { Decimal.settingsNotation with infinite := "Infinity", notANumber := "NaN" }

/-- A value without parts in its written form. -/
def scalarChars : Value → List Char
  | .null => "null".toList
  | .bool true => "true".toList
  | .bool false => "false".toList
  | .whole n => (toString n).toList
  | .fractional x => (numberNotation.text x).toList
  | .string s => stringChars s
  | _ => []

/-- A line break with the blanks that set in its line. -/
def lineBreak (depth : Nat) : List Char := '\n' :: List.replicate (2 * depth) ' '

mutual

/-- A value laid out over lines, which starts at the given depth. -/
def layout (depth : Nat) : Value → List Char
  | .array [] => ['[', ']']
  | .array (item :: rest) =>
    '[' :: lineBreak (depth + 1) ++ layout (depth + 1) item ++ layoutItems (depth + 1) rest ++ lineBreak depth ++ [']']
  | .object [] => ['{', '}']
  | .object ((name, value) :: rest) =>
    '{' :: lineBreak (depth + 1) ++ stringChars name ++ ':' :: ' ' :: layout (depth + 1) value
      ++ layoutMembers (depth + 1) rest ++ lineBreak depth ++ ['}']
  | v => scalarChars v

/-- The items behind the first one. -/
def layoutItems (depth : Nat) : List Value → List Char
  | [] => []
  | item :: rest => ',' :: lineBreak depth ++ layout depth item ++ layoutItems depth rest

/-- The members behind the first one. -/
def layoutMembers (depth : Nat) : List (String × Value) → List Char
  | [] => []
  | (name, value) :: rest =>
    ',' :: lineBreak depth ++ stringChars name ++ ':' :: ' ' :: layout depth value ++ layoutMembers depth rest

end

mutual

/-- A value on one line, without blanks. -/
def compact : Value → List Char
  | .array [] => ['[', ']']
  | .array (item :: rest) => '[' :: compact item ++ compactItems rest ++ [']']
  | .object [] => ['{', '}']
  | .object ((name, value) :: rest) => '{' :: stringChars name ++ ':' :: compact value ++ compactMembers rest ++ ['}']
  | v => scalarChars v

/-- The items behind the first one. -/
def compactItems : List Value → List Char
  | [] => []
  | item :: rest => ',' :: compact item ++ compactItems rest

/-- The members behind the first one. -/
def compactMembers : List (String × Value) → List Char
  | [] => []
  | (name, value) :: rest => ',' :: stringChars name ++ ':' :: compact value ++ compactMembers rest

end

/-- A value on one line. -/
def onOneLine (v : Value) : String := String.ofList (compact v)

/-- A value laid out over lines. -/
def laidOut (v : Value) : String := String.ofList (layout 0 v)

end IconForge.Json
