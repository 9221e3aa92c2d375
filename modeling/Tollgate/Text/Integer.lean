/-!
# Integers in text

Decimal integers with an optional sign and any number of leading zeros, as
they are read outside of JSON. A lone sign is no integer, and neither is a
text with any other character in it.
-/

namespace Tollgate.Text

def isDigit (c : Char) : Bool := '0' ≤ c && c ≤ '9'

def digitValue (c : Char) : Nat := c.toNat - '0'.toNat

def foldDigits (n : Nat) : List Char → Nat
  | [] => n
  | c :: rest => foldDigits (n * 10 + digitValue c) rest

def natOfDigits (cs : List Char) : Nat := foldDigits 0 cs

def readDigits? (cs : List Char) : Option Nat :=
  if cs ≠ [] ∧ cs.all isDigit then some (natOfDigits cs) else none

def readSigned? : List Char → Option Int
  | '-' :: cs => (readDigits? cs).map fun n => -(n : Int)
  | '+' :: cs => (readDigits? cs).map Int.ofNat
  | cs => (readDigits? cs).map Int.ofNat

/-- A natural number of any size; only a plus sign may precede it. -/
def readUnsigned? : List Char → Option Nat
  | '+' :: cs => readDigits? cs
  | cs => readDigits? cs

def hexValue? (c : Char) : Option Nat :=
  if '0' ≤ c ∧ c ≤ '9' then some (c.toNat - '0'.toNat)
  else if 'a' ≤ c ∧ c ≤ 'f' then some (c.toNat - 'a'.toNat + 10)
  else if 'A' ≤ c ∧ c ≤ 'F' then some (c.toNat - 'A'.toNat + 10)
  else none

end Tollgate.Text
