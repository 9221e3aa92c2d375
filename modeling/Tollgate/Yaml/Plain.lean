import Tollgate.Decimal.Nearest
import Tollgate.Document
import Tollgate.Text.Integer

/-!
# Plain scalars

What a YAML scalar without quotes may be read as. It is always a text as
well, and nothing at all is both the absence of a value and a blank.
-/

namespace Tollgate.Yaml

open Text (isDigit natOfDigits)

def isNullWord (s : String) : Bool := ["~", "null", "Null", "NULL"].contains s

def boolWord? (s : String) : Option Bool :=
  if ["true", "True", "TRUE"].contains s then some true
  else if ["false", "False", "FALSE"].contains s then some false
  else none

def splitSign : List Char → Bool × List Char
  | '-' :: cs => (true, cs)
  | '+' :: cs => (false, cs)
  | cs => (false, cs)

-- ---------------------------------------------------------------------------
-- Integers
-- ---------------------------------------------------------------------------

def digitOf? (base : Nat) (c : Char) : Option Nat := (Text.hexValue? c).filter (· < base)

def digits? (base : Nat) (cs : List Char) : Option Nat :=
  if cs.isEmpty then none
  else cs.foldlM (fun n c => (digitOf? base c).map (n * base + ·)) 0

/-- A magnitude in base 2, 8, 10 or 16. Decimal digits after a leading zero are no number. -/
def magnitude? : List Char → Option Nat
  | '0' :: 'x' :: cs => digits? 16 cs
  | '0' :: 'o' :: cs => digits? 8 cs
  | '0' :: 'b' :: cs => digits? 2 cs
  | '0' :: _ :: _ => none
  | cs => digits? 10 cs

def int? (cs : List Char) : Option Int :=
  let (negative, cs) := splitSign cs
  (magnitude? cs).map fun n => if negative then -(n : Int) else n

def nat? (cs : List Char) : Option Nat :=
  let (negative, cs) := splitSign cs
  if negative then none else magnitude? cs

def isPadded (cs : List Char) : Bool :=
  match (splitSign cs).2 with
  | '0' :: d :: ds => (d :: ds).all isDigit
  | _ => false

-- ---------------------------------------------------------------------------
-- Floats
-- ---------------------------------------------------------------------------

def mantissa? (cs : List Char) : Option (Nat × Nat) :=
  let whole := cs.takeWhile isDigit
  match cs.dropWhile isDigit with
  | [] => if whole.isEmpty then none else some (natOfDigits whole, 0)
  | '.' :: places =>
    if places.all isDigit ∧ ¬(whole ++ places).isEmpty then
      some (natOfDigits (whole ++ places), places.length)
    else none
  | _ => none

def exponentSign (c : Char) : Bool := c = 'e' || c = 'E'

def decimal? (cs : List Char) : Option Float := do
  let (n, places) ← mantissa? (cs.takeWhile fun c => !exponentSign c)
  let e ← match cs.dropWhile fun c => !exponentSign c with
    | [] => some 0
    | _ :: cs => Text.readSigned? cs
  let x := Decimal.nearest n (e - places)
  if x.isInf then none else some x

/-- Infinities and no number at all have words of their own. -/
def float? (cs : List Char) : Option Float :=
  if [".nan", ".NaN", ".NAN"].contains (String.ofList cs) then some (0.0 / 0.0)
  else
    let (negative, cs) := splitSign cs
    let x := if [".inf", ".Inf", ".INF"].contains (String.ofList cs) then some (1.0 / 0.0)
      else decimal? cs
    x.map fun x => if negative then -x else x

def plainScalar (s : String) : Scalar where
  isNull := s.isEmpty || isNullWord s
  isBlank := s.isEmpty
  bool? := boolWord? s
  nat? := nat? s.toList
  int? := int? s.toList
  float? := float? s.toList
  text? := some s

end Tollgate.Yaml
