/-!
# The exact value of a double

A finite double is a significand times a power of two. Rounding it to a whole
number, and scaling it by one before, is then exact arithmetic on natural
numbers.
-/

namespace Tollgate

/-- The number `significand * 2 ^ exponent`, negated where `negative` holds. -/
structure Binary where
  negative : Bool
  significand : Nat
  exponent : Int
deriving DecidableEq, Repr

namespace Binary

def ofFloat? (x : Float) : Option Binary :=
  let bits := x.toBits.toNat
  let fraction : Nat := bits % (1 <<< 52)
  let biased : Nat := (bits >>> 52) % 2048
  let negative : Bool := bits >>> 63 = 1
  if biased = 2047 then none
  else if biased = 0 then some ⟨negative, fraction, -1074⟩
  else some ⟨negative, 1 <<< 52 + fraction, (biased : Int) - 1075⟩

end Binary

/-- The whole number nearest to `num / den`; of two equally near the even one. -/
def roundedQuotient (num den : Nat) : Nat :=
  let q := num / den
  let twice := 2 * (num % den)
  if twice < den then q
  else if den < twice then q + 1
  else if q % 2 = 0 then q else q + 1

namespace Binary

def scaled (b : Binary) (k : Nat) : Nat :=
  roundedQuotient (b.significand <<< b.exponent.toNat * k) (1 <<< (-b.exponent).toNat)

def roundHalfUp (b : Binary) : Nat :=
  let den := 1 <<< (-b.exponent).toNat
  (2 * b.significand <<< b.exponent.toNat + den) / (2 * den)

def ceiling (b : Binary) : Nat :=
  let den := 1 <<< (-b.exponent).toNat
  (b.significand <<< b.exponent.toNat + (den - 1)) / den

end Binary

end Tollgate
