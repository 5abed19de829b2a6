import IconForge.Decimal.Shortest

/-!
# Writing numbers

How the digits of a number become text: within a range of powers of ten the point stands among the digits, beyond it behind the first
one, with the power behind a mark.
-/

namespace IconForge.Decimal

/-- The choices of a notation. -/
structure Notation where
  /-- The powers of ten of the first digit between which the point stands among the digits. -/
  least : Int
  greatest : Int
  /-- What stands for the fraction of a whole number written positionally. -/
  wholeSuffix : String
  mark : String
  /-- The fewest digits of the power. -/
  powerWidth : Nat
  infinite : String
  notANumber : String

/-- Numbers of a settings file are written positionally from four places behind the point to sixteen before it. -/
def settingsNotation : Notation :=
  { least := -4, greatest := 15, wholeSuffix := ".0", mark := "e", powerWidth := 2, infinite := "inf", notANumber := "nan" }

/-- Zeros dropped at the end. -/
def withoutZeros (digits : List Char) : List Char := (digits.reverse.dropWhile (· = '0')).reverse

/-- Digits of which the first has the given power of ten, with a point in its place. -/
def positional (n : Notation) (digits : List Char) (power : Int) : List Char :=
  if power < 0 then '0' :: '.' :: List.replicate ((-power).toNat - 1) '0' ++ digits
  else
    let before := power.toNat + 1
    if digits.length ≤ before then digits ++ List.replicate (before - digits.length) '0' ++ n.wholeSuffix.toList
    else digits.take before ++ '.' :: digits.drop before

/-- Digits with a point behind the first one, and the power of ten of that. -/
def withPower (n : Notation) (digits : List Char) (power : Int) : List Char :=
  let head := match digits with
    | [d] => [d]
    | d :: rest => d :: '.' :: rest
    | [] => []
  let size := Nat.toDigits 10 power.natAbs
  head ++ n.mark.toList ++ (if power < 0 then '-' else '+') :: List.replicate (n.powerWidth - size.length) '0' ++ size

/-- The text of a decimal. -/
def Notation.decimal (n : Notation) (d : Scaled) : List Char :=
  let all := Nat.toDigits 10 d.digits
  let power := d.exponent + all.length - 1
  let digits := withoutZeros all
  if n.least ≤ power && power ≤ n.greatest then positional n digits power else withPower n digits power

/-- The text of a number. -/
def Notation.text (n : Notation) (x : Float) : String :=
  let signed (negative : Bool) (s : List Char) : String := String.ofList (if negative then '-' :: s else s)
  match shape x with
  | .notANumber => n.notANumber
  | .infinite negative => signed negative n.infinite.toList
  | .zero negative => signed negative ('0' :: n.wholeSuffix.toList)
  | .finite negative i => signed negative (n.decimal i.shortest)

end IconForge.Decimal
