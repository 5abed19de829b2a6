import IconForge.Decimal.Notation

/-!
# Numbers to a fixed count of digits

A number is rounded to a count of places or of digits; what lies half way goes to the even neighbour. Written out it stands with its
point among the digits, with a power of ten, or in the shorter of both forms.
-/

namespace IconForge.Decimal

/-- The quotient of two numbers, rounded to the nearest whole number, and half way to the even one. -/
def roundDiv (numerator denominator : Nat) : Nat :=
  let q := numerator / denominator
  let r := 2 * (numerator % denominator)
  if r < denominator || (r = denominator && q % 2 = 0) then q else q + 1

/-- A fraction times a power of ten, rounded. -/
def roundScaled (numerator denominator : Nat) (power : Int) : Nat :=
  if 0 ≤ power then roundDiv (numerator * Nat.pow 10 power.toNat) denominator
  else roundDiv numerator (denominator * Nat.pow 10 (-power).toNat)

/-- The digits of a number, with zeros in front up to a count. -/
def paddedDigits (count n : Nat) : List Char :=
  let digits := Nat.toDigits 10 n
  List.replicate (count - digits.length) '0' ++ digits

/-- A fraction with some places behind the point. -/
def fixed (numerator denominator places : Nat) : List Char :=
  let digits := paddedDigits (places + 1) (roundScaled numerator denominator places)
  let whole := digits.take (digits.length - places)
  if places = 0 then whole else whole ++ '.' :: digits.drop (digits.length - places)

/-- The digits of a fraction to a count, and the power of ten of the first one. -/
def significant (numerator denominator count : Nat) : List Char × Int :=
  if numerator = 0 then (List.replicate count '0', 0)
  else
    let power := magnitude numerator denominator
    let n := roundScaled numerator denominator (count - 1 - power)
    if n = Nat.pow 10 count then (Nat.toDigits 10 (Nat.pow 10 (count - 1)), power + 1) else (Nat.toDigits 10 n, power)

/-- A power of ten behind its mark. -/
def powerMark (power : Int) : List Char :=
  'e' :: (if power < 0 then '-' else '+') :: paddedDigits 2 power.natAbs

/-- Digits with a point behind the first one. -/
def pointed : List Char → List Char
  | [] => []
  | [d] => [d]
  | d :: rest => d :: '.' :: rest

/-- A fraction with some places behind the point of its first digit, and its power of ten. -/
def scientific (numerator denominator places : Nat) : List Char :=
  let (digits, power) := significant numerator denominator (places + 1)
  pointed digits ++ powerMark power

/-- A fraction to a count of digits, without zeros at the end, in the form that its power of ten calls for. -/
def general (numerator denominator count : Nat) : List Char :=
  let count := max 1 count
  let (digits, power) := significant numerator denominator count
  let short := withoutZeros digits
  let short := if short.isEmpty then ['0'] else short
  if -4 ≤ power && power < count then positional { settingsNotation with wholeSuffix := "" } short power
  else pointed short ++ powerMark power

/-- A rounded quotient is within half a unit of the quotient. -/
theorem roundDiv_near (n d : Nat) (h : 0 < d) : 2 * (d * roundDiv n d) ≤ 2 * n + d ∧ 2 * n ≤ 2 * (d * roundDiv n d) + d := by
  have hn := Nat.div_add_mod n d
  have hr := Nat.mod_lt n h
  simp only [roundDiv, Bool.or_eq_true, decide_eq_true_eq, Bool.and_eq_true]
  split
  · omega
  · rw [Nat.mul_add]
    omega

/-- What lies half way between two whole numbers goes to the even one. -/
theorem roundDiv_tie (n d : Nat) (h : 2 * (n % d) = d) : roundDiv n d % 2 = 0 := by
  simp only [roundDiv, h, Nat.lt_irrefl, decide_false, decide_true, Bool.false_or, Bool.true_and, decide_eq_true_eq]
  split <;> omega

end IconForge.Decimal
