import Tollgate.Decimal.Word

/-!
# JSON values

Values as they stand in a text: members keep their order and their repeats,
numbers keep the difference between an integer and a decimal spelling. A
string with an unpaired surrogate may be skipped over but never read, so a
`Text` is optional. A double that the program has computed is a `float`; no
text is read as one.
-/

namespace Tollgate

namespace Json

/-- `integer` is spelled with digits alone; `decimal` has digits before and behind its point, and
an exponent. -/
inductive Number where
  | integer (negative : Bool) (magnitude : Nat)
  | decimal (negative : Bool) (whole places : List Char) (exponent : Int)
deriving DecidableEq, Repr

namespace Number

def int? : Number → Option Int
  | .integer false n => some n
  | .integer true 0 => none
  | .integer true n => some (-(n : Int))
  | .decimal .. => none

def isNegative : Number → Bool
  | .integer negative _ => negative
  | .decimal negative .. => negative

def parts : Number → List Char × List Char × Int
  | .integer _ n => ((toString n).toList, [], 0)
  | .decimal _ whole places exponent => (whole, places, exponent)

def float? (n : Number) : Option Float :=
  let (whole, places, exponent) := n.parts
  (Decimal.byWord? whole places exponent).map fun x => if n.isNegative then -x else x

def nearest? (n : Number) : Option Float :=
  let (whole, places, exponent) := n.parts
  let x := Decimal.nearest (Text.natOfDigits (whole ++ places)) (exponent - places.length)
  if x.isInf then none else some (if n.isNegative then -x else x)

end Number

abbrev Text := Option String

end Json

inductive Json where
  | null
  | bool (b : Bool)
  | number (n : Json.Number)
  | float (x : Float)
  | text (s : Json.Text)
  | list (items : List Json)
  | record (members : List (Json.Text × Json))

namespace Json

def str (s : String) : Json := .text (some s)

def int (n : Int) : Json := .number (.integer (n < 0) n.natAbs)

def obj (members : List (String × Json)) : Json := .record (members.map fun m => (some m.1, m.2))

def opt {α : Type} (f : α → Json) : Option α → Json
  | some a => f a
  | none => .null

end Json

end Tollgate
