import IconForge.Text.Blank
import IconForge.Text.Digit

/-!
# Literals of the generated module

A text becomes a single-quoted string literal: backslash, quote, line feed and carriage return are escaped and all else stands
for itself. A declared size becomes a number when it is written as one, else a string literal.
-/

namespace IconForge.Component

open Text

/-- A character inside a single-quoted literal. -/
def escapeChar (c : Char) : List Char :=
  match c with
  | '\\' => ['\\', '\\']
  | '\'' => ['\\', '\'']
  | '\n' => ['\\', 'n']
  | '\r' => ['\\', 'r']
  | c => [c]

/-- The characters of a single-quoted literal. -/
def quoteChars (s : List Char) : List Char := '\'' :: s.flatMap escapeChar ++ ['\'']

/-- A text as a single-quoted literal. -/
def quote (s : String) : String := String.ofList (quoteChars s.toList)

/-- An unsigned decimal: digits with at most one point among or behind them, or a point and digits. Digits of every script
count. -/
def isUnsignedDecimal (s : List Char) : Bool :=
  let whole := s.takeWhile isDecimalDigit
  match s.dropWhile isDecimalDigit with
  | [] => !whole.isEmpty
  | '.' :: fraction => fraction.all isDecimalDigit && (!whole.isEmpty || !fraction.isEmpty)
  | _ => false

/-- A decimal with at most one minus sign in front. -/
def isDecimal : List Char → Bool
  | '-' :: s => isUnsignedDecimal s
  | s => isUnsignedDecimal s

/-- The literal for a declared size: no declaration gives the undefined value, a decimal stands for itself and any other text
is quoted. -/
def sizeLiteral : Option String → String
  | none => "undefined"
  | some value =>
    let trimmed := trim value.toList
    if isDecimal trimmed then String.ofList trimmed else String.ofList (quoteChars trimmed)

/-- The literal that stands in for a size that is not declared. -/
def sizeFallback : String := "'1em'"

end IconForge.Component
