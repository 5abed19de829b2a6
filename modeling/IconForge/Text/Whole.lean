import IconForge.Text.Blank
import IconForge.Text.Cut
import IconForge.Text.Diagnostic
import IconForge.Text.Digit

/-!
# Whole numbers in text

A whole number is written with blanks around it, a sign at will, the mark of its base at will, and digits of any script, with single
underscores between them. In bases that are no power of two, long numbers are refused.
-/

namespace IconForge.Text

/-- Why a text is no whole number. -/
inductive WholeFault where
  | malformed
  | tooLong (digits : Nat)
  deriving Repr, DecidableEq

/-- The greatest number of digits that is read in bases that are no power of two. -/
def wholeLimit : Nat := 4300

/-- A blank that may stand around a number: every one but the information separators. -/
def isNumberBlank (c : Char) : Bool := isBlank c && !(0x1C ≤ c.toNat && c.toNat ≤ 0x1F)

/-- A text without the blanks that may stand around a number. -/
def withoutNumberBlanks (s : List Char) : List Char :=
  ((s.dropWhile isNumberBlank).reverse.dropWhile isNumberBlank).reverse

/-- A sign, which says whether what follows is negative, and what follows it. -/
def splitSign : List Char → Bool × List Char
  | '-' :: rest => (true, rest)
  | '+' :: rest => (false, rest)
  | s => (false, s)

/-- The letter that marks a base behind a zero. -/
def baseMark? : Nat → Option Char
  | 2 => some 'b'
  | 8 => some 'o'
  | 16 => some 'x'
  | _ => none

/-- What follows the mark of a base, if there is one; an underscore may stand behind it. -/
def withoutBaseMark (base : Nat) (s : List Char) : List Char :=
  match s with
  | '0' :: c :: rest =>
    if baseMark? base = some c.toLower then
      match rest with
      | '_' :: digits => digits
      | digits => digits
    else s
  | _ => s

/-- A base whose numbers may be of any length. -/
def isBinaryBase (base : Nat) : Bool := base = 2 || base = 4 || base = 8 || base = 16 || base = 32

/-- The whole number that a text denotes in a base. -/
def readWhole (base : Nat) (s : List Char) : Except WholeFault Int :=
  let (negative, s) := splitSign (withoutNumberBlanks s)
  let s := withoutBaseMark base s
  let run := s.takeWhile fun c => c = '_' || (baseDigit? base c).isSome
  let groups := cut '_' run
  let digits := groups.flatten.filterMap (baseDigit? base)
  if groups.any List.isEmpty then .error .malformed
  else if !isBinaryBase base && wholeLimit < digits.length then .error (.tooLong digits.length)
  else if run.length < s.length then .error .malformed
  else
    let n : Int := ofDigits base digits
    .ok (if negative then -n else n)

/-- The wording of a refusal, which shows the start of the text. -/
def WholeFault.message (base : Nat) (s : String) : WholeFault → String
  | malformed =>
    "invalid literal for int() with base " ++ toString base ++ ": " ++ String.ofList ((shown s).toList.take 200)
  | tooLong digits =>
    "Exceeds the limit (" ++ toString wholeLimit ++ " digits) for integer string conversion: value has " ++ toString digits
      ++ " digits; use sys.set_int_max_str_digits() to increase the limit"

end IconForge.Text
