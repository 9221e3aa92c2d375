import Tollgate.Decimal.Binary

/-!
# Decimals with a fixed number of places

The exact value of a double, rounded to so many places. A sign stays even
where nothing but zeros is left.
-/

namespace Tollgate.Decimal

def padLeft (width : Nat) (cs : List Char) : List Char :=
  List.replicate (width - cs.length) '0' ++ cs

def placePoint (places : Nat) (n : Nat) : String :=
  if places = 0 then toString n
  else
    let digits := padLeft (places + 1) (toString n).toList
    let whole := digits.length - places
    .ofList (digits.take whole ++ '.' :: digits.drop whole)

def fixed (places : Nat) (x : Float) : String :=
  match Binary.ofFloat? x with
  | none => if x.isNaN then "NaN" else if x < 0.0 then "-inf" else "inf"
  | some b => (if b.negative then "-" else "") ++ placePoint places (b.scaled (Nat.pow 10 places))

end Tollgate.Decimal
