/-!
# The binary number nearest to a decimal
-/

namespace IconForge.Decimal

/-- A number in binary that is nearest to a decimal. Exponents that leave the range by far are cut short. -/
def nearest (negative : Bool) (mantissa : Nat) (exponent : Int) : Float :=
  let x :=
    if mantissa = 0 then 0.0
    else if exponent < 0 then Float.ofScientific mantissa true (min exponent.natAbs 100000)
    else if exponent > 400 then Float.ofScientific 1 false 400
    else Float.ofScientific mantissa false exponent.natAbs
  if negative then -x else x

end IconForge.Decimal
