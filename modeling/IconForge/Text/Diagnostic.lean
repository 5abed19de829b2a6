import IconForge.Text.Printable

/-!
# Text quoted in diagnostics

A text that a diagnostic names stands in single quotes, or in double quotes when it holds a single quote and no double one.
Characters that do not show are written by their code point, in the shortest of three widths.
-/

namespace IconForge.Text

/-- The low `width` hexadecimal digits of a number, in lower case. -/
def hexDigits (width n : Nat) : List Char :=
  ((List.range width).map fun i => "0123456789abcdef".toList.getD (n / Nat.pow 16 i % 16) '0').reverse

/-- A character inside a quotation with the given mark. -/
def quotedChar (mark c : Char) : List Char :=
  if c = mark || c = '\\' then ['\\', c]
  else if c = '\n' then ['\\', 'n']
  else if c = '\r' then ['\\', 'r']
  else if c = '\t' then ['\\', 't']
  else if isPrintable c then [c]
  else if c.toNat < 0x100 then '\\' :: 'x' :: hexDigits 2 c.toNat
  else if c.toNat < 0x10000 then '\\' :: 'u' :: hexDigits 4 c.toNat
  else '\\' :: 'U' :: hexDigits 8 c.toNat

/-- The mark that a text is quoted with. -/
def quoteMark (s : String) : Char :=
  if s.toList.contains '\'' && !s.toList.contains '"' then '"' else '\''

/-- A text as a diagnostic shows it. -/
def shown (s : String) : String :=
  let mark := quoteMark s
  String.ofList (mark :: s.toList.flatMap (quotedChar mark) ++ [mark])

end IconForge.Text
