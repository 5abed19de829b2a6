/-!
# The shortest decimal of a binary number

A binary number stands for every real that is nearer to it than to its neighbours. Its shortest decimal is the one with the fewest
digits among those reals; of two with equally many digits the nearer one, and of two equally near ones the one with an even digit.
-/

namespace IconForge.Decimal

/-- A positive binary number, as a fraction, with the ends of the interval that rounds to it over the same denominator. -/
structure Interval where
  low : Nat
  value : Nat
  high : Nat
  denominator : Nat
  /-- The ends themselves round to the number. -/
  closed : Bool
  deriving Repr, DecidableEq

/-- The interval of `mantissa * 2 ^ exponent`, where `isFirst` says that the neighbour below is nearer than the one above. -/
def interval (mantissa : Nat) (exponent : Int) (isFirst : Bool) : Interval :=
  let scale := Nat.pow 2 (exponent - 2).toNat
  { low := (4 * mantissa - (if isFirst then 1 else 2)) * scale
    value := 4 * mantissa * scale
    high := (4 * mantissa + 2) * scale
    denominator := Nat.pow 2 (2 - exponent).toNat
    closed := mantissa % 2 = 0 }

/-- The number of decimal digits of a number. -/
def digitCount (n : Nat) : Nat := (Nat.toDigits 10 n).length

/-- The power of ten of the first digit of a fraction. -/
def magnitude (numerator denominator : Nat) : Int :=
  if denominator ≤ numerator then (digitCount (numerator / denominator) : Int) - 1
  else -(digitCount ((denominator - 1) / numerator) : Int)

/-- A decimal: a whole number times a power of ten. -/
structure Scaled where
  digits : Nat
  exponent : Int
  deriving Repr, DecidableEq

/-- A fraction and a decimal over one denominator. -/
def Scaled.over (d : Scaled) (numerator denominator : Nat) : Nat × Nat :=
  if 0 ≤ d.exponent then (d.digits * Nat.pow 10 d.exponent.toNat * denominator, numerator)
  else (d.digits * denominator, numerator * Nat.pow 10 (-d.exponent).toNat)

/-- A decimal lies in an interval. -/
def Interval.holds (i : Interval) (d : Scaled) : Bool :=
  let (x, low) := d.over i.low i.denominator
  let (y, high) := d.over i.high i.denominator
  if i.closed then low ≤ x && y ≤ high else low < x && y < high

/-- How far a decimal lies from the value of an interval, over a denominator that depends on the power of ten only. -/
def Interval.distance (i : Interval) (d : Scaled) : Nat :=
  let (x, value) := d.over i.value i.denominator
  if x ≤ value then value - x else x - value

/-- The decimal of some power of ten at or below a value. -/
def Interval.floor (i : Interval) (exponent : Int) : Nat :=
  if 0 ≤ exponent then i.value / (i.denominator * Nat.pow 10 exponent.toNat)
  else i.value * Nat.pow 10 (-exponent).toNat / i.denominator

/-- The better of a value's two neighbours on the grid of a power of ten, if one of them lies in the interval. -/
def Interval.onGrid? (i : Interval) (exponent : Int) : Option Scaled :=
  let below : Scaled := ⟨i.floor exponent, exponent⟩
  let above : Scaled := ⟨i.floor exponent + 1, exponent⟩
  match i.holds below && below.digits != 0, i.holds above with
  | false, false => none
  | true, false => some below
  | false, true => some above
  | true, true =>
    let a := i.distance below
    let b := i.distance above
    some (if a < b || (a = b && below.digits % 2 = 0) then below else above)

/-- The first decimal in an interval on finer and finer grids. -/
def Interval.firstOn (i : Interval) : Nat → Int → Scaled
  | 0, exponent => ⟨i.floor exponent, exponent⟩
  | more + 1, exponent =>
    match i.onGrid? exponent with
    | some d => d
    | none => i.firstOn more (exponent - 1)

/-- The shortest decimal in an interval. Seventeen digits always tell a number from its neighbours. -/
def Interval.shortest (i : Interval) : Scaled := i.firstOn 17 (magnitude i.value i.denominator)

/-- What a binary number of sixty-four bits is. -/
inductive Shape where
  | notANumber
  | infinite (negative : Bool)
  | zero (negative : Bool)
  | finite (negative : Bool) (i : Interval)
  deriving Repr, DecidableEq

/-- The shape that sixty-four bits stand for. -/
def shapeOfBits (bits : Nat) : Shape :=
  let negative := bits / Nat.pow 2 63 % 2 = 1
  let exponent : Nat := bits / Nat.pow 2 52 % Nat.pow 2 11
  let fraction := bits % Nat.pow 2 52
  if exponent = 2047 then (if fraction = 0 then .infinite negative else .notANumber)
  else if exponent = 0 then
    if fraction = 0 then .zero negative else .finite negative (interval fraction (-1074) false)
  else .finite negative (interval (Nat.pow 2 52 + fraction) ((exponent : Int) - 1075) (fraction = 0 && 1 < exponent))

/-- The shape of a number. -/
def shape (x : Float) : Shape := shapeOfBits x.toBits.toNat

end IconForge.Decimal
