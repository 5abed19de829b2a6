import IconForge.Decimal.Nearest
import IconForge.Text.Whole

/-!
# Reading numbers

A number is written with blanks around it and a sign at will. It is a word for infinity or for what is no number, in letters of either
case, or digits of any script with a point and a power of ten.
-/

namespace IconForge.Decimal

open Text

/-- Digits that come next, by their values, and what follows them. -/
def digitRun (s : List Char) : List Nat × List Char :=
  ((s.takeWhile isDecimalDigit).filterMap digitValue?, s.dropWhile isDecimalDigit)

/-- A power of ten behind its mark. -/
def power? (s : List Char) : Option Int :=
  let (negative, s) := splitSign s
  let (digits, rest) := digitRun s
  if digits.isEmpty || !rest.isEmpty then none
  else
    let n : Int := ofDigits 10 digits
    some (if negative then -n else n)

/-- The number of digits with a point and a power of ten. -/
def readDigits (negative : Bool) (s : List Char) : Option Float :=
  let (whole, s) := digitRun s
  let (fraction, s) := match s with
    | '.' :: rest => digitRun rest
    | _ => ([], s)
  if whole.isEmpty && fraction.isEmpty then none
  else
    let power := match s with
      | [] => some 0
      | c :: rest => if c = 'e' || c = 'E' then power? rest else none
    power.map fun p => nearest negative (ofDigits 10 (whole ++ fraction)) (p - fraction.length)

/-- The words that stand for numbers, in small letters. -/
def numberWords : List (String × Float) := [("inf", 1.0 / 0.0), ("infinity", 1.0 / 0.0), ("nan", 0.0 / 0.0)]

/-- The number that a text denotes. -/
def readNumber (s : List Char) : Option Float :=
  let (negative, s) := splitSign (withoutNumberBlanks s)
  match numberWords.lookup (String.ofList (s.map Char.toLower)) with
  | some x => some (if negative then -x else x)
  | none => readDigits negative s

end IconForge.Decimal
