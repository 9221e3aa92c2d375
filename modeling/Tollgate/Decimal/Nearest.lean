/-!
# The double nearest to a decimal
-/

namespace Tollgate.Decimal

/-- The nearest double to `significand * 10 ^ exponent`. Beyond three hundred and
some powers of ten on either side the answer no longer depends on the exponent. -/
def nearest (significand : Nat) (exponent : Int) : Float :=
  let digits := (toString significand).length
  if significand = 0 ∨ exponent + digits < -400 then 0.0
  else if exponent + digits > 400 then 1.0 / 0.0
  else if exponent < 0 then Float.ofScientific significand true exponent.natAbs
  else Float.ofScientific significand false exponent.natAbs

end Tollgate.Decimal
