import Tollgate.Decimal.Binary

/-!
# Shortest decimals

The decimal with the fewest digits that reads back as a given double. The
numbers that round to the double form an interval, and the decimal lies on
the coarsest decimal grid that has a point in it.
-/

namespace Tollgate.Decimal

/-- The reals that round to a double, as quarters of its last place: its value is `mid` quarters,
and the ends belong to the interval where `closed` holds. -/
structure Interval where
  low : Nat
  mid : Nat
  high : Nat
  closed : Bool
deriving DecidableEq, Repr

def Interval.of (b : Binary) : Interval where
  low := 4 * b.significand - if b.significand = 1 <<< 52 ∧ -1074 < b.exponent then 1 else 2
  mid := 4 * b.significand
  high := 4 * b.significand + 2
  closed := b.significand % 2 = 0

def Interval.contains (i : Interval) (num den : Nat) : Bool :=
  if i.closed then i.low * den ≤ num && num ≤ i.high * den
  else i.low * den < num && num < i.high * den

def inQuarters (exponent : Int) (n : Nat) (e : Int) : Nat × Nat :=
  ((n * Nat.pow 10 e.toNat) <<< (2 - exponent).toNat,
    Nat.pow 10 (-e).toNat <<< (exponent - 2).toNat)

def distance (i : Interval) (num den : Nat) : Nat :=
  if i.mid * den ≤ num then num - i.mid * den else i.mid * den - num

/-- The point of the grid of `10 ^ e` in the interval; of two the nearer, and the even one of two
equally near. -/
def gridPoint? (b : Binary) (e : Int) : Option Nat :=
  let i := Interval.of b
  let (unit, den) := inQuarters b.exponent 1 e
  let below := i.mid * den / unit
  let above := below + 1
  let inside := fun n => i.contains (n * unit) den
  let gap := fun n => distance i (n * unit) den
  if inside below && inside above then
    some (if gap above < gap below ∨ (gap above = gap below ∧ above % 2 = 0) then above else below)
  else if inside below then some below
  else if inside above then some above
  else none

def searchGrids (b : Binary) (e : Int) : Nat → Nat × Int
  | 0 => (0, 0)
  | fuel + 1 =>
    match gridPoint? b e with
    | some n => (n, e)
    | none => searchGrids b (e - 1) fuel

/-- Digits and exponent of the shortest decimal. No double reaches `10 ^ 309`, and every one has a
point within seventeen digits of its first. -/
def shortest (b : Binary) : Nat × Int :=
  if b.significand = 0 then (0, 0) else searchGrids b 309 700

/-- The spelling of `n * 10 ^ e`: positional where the point falls within sixteen
digits after the first one or five before it, and else with an exponent. -/
def spelling (n : Nat) (e : Int) : String :=
  let digits := (toString n).toList
  let point : Int := digits.length + e
  if 0 ≤ e ∧ point ≤ 16 then
    .ofList (digits ++ List.replicate e.toNat '0' ++ ['.', '0'])
  else if 0 < point ∧ point ≤ 16 then
    .ofList (digits.take point.toNat ++ ['.'] ++ digits.drop point.toNat)
  else if -5 < point ∧ point ≤ 0 then
    .ofList (['0', '.'] ++ List.replicate (-point).toNat '0' ++ digits)
  else
    let places := if digits.length = 1 then [] else '.' :: digits.drop 1
    .ofList (digits.take 1 ++ places ++ ['e'] ++ (toString (point - 1)).toList)

def shortestText (b : Binary) : String :=
  let (n, e) := shortest b
  (if b.negative then "-" else "") ++ spelling n e

end Tollgate.Decimal
