import Tollgate.Decimal.Nearest
import Tollgate.Text.Integer

/-!
# Doubles by way of a word

A quick reading of decimals: digits are gathered while they fit an unsigned
word of 64 bits, and the word is scaled by a power of ten in one operation or
two. What it gives is close to the nearest double, but not always that.
-/

namespace Tollgate.Decimal

open Text (digitValue)

def gather (n : Nat) : List Char → Nat × Nat
  | [] => (n, 0)
  | c :: rest =>
    let m := n * 10 + digitValue c
    if m < UInt64.size then gather m rest else (n, rest.length + 1)

def powerOfTen (n : Nat) : Float := nearest 1 n

/-- A word times a power of ten, none beyond the range of doubles. Powers past the greatest one
are reached in two steps downwards, and not at all upwards. -/
def scaled? (n : Nat) (exponent : Int) : Option Float :=
  let x := nearest n 0
  let e := exponent.natAbs
  if n = 0 then some 0.0
  else if 0 ≤ exponent then
    let y := x * powerOfTen e
    if 308 < e ∨ y.isInf then none else some y
  else if e ≤ 308 then some (x / powerOfTen e)
  else if e ≤ 616 then some (x / powerOfTen 308 / powerOfTen (e - 308))
  else some 0.0

/-- The decimal with the given digits before and behind its point. Of the digits that do not fit,
those before the point still count as places. -/
def byWord? (whole places : List Char) (exponent : Int) : Option Float :=
  let (n, lost) := gather 0 whole
  let (n, dropped) := gather n places
  scaled? n (exponent + lost - (places.length - dropped : Nat))

end Tollgate.Decimal
