import Tollgate.Document
import Tollgate.Json.Reader

/-!
# JSON as a document

Each spelling has one kind of reading: a string is never a number, and a
decimal never an integer, while every integer is also a double. How numbers
are read as doubles is up to the reader.
-/

namespace Tollgate.Json

def Number.toScalar (float? : Number → Option Float) (n : Number) : Scalar where
  nat? := n.int?.bind fun i => if 0 ≤ i then some i.toNat else none
  int? := n.int?
  float? := float? n

mutual

def toDocument (float? : Number → Option Float) : Json → Document
  | .null => .scalar { isNull := true }
  | .bool b => .scalar { bool? := some b }
  | .number n => .scalar (n.toScalar float?)
  | .float x => .scalar { float? := if x.isFinite then some x else none }
  | .text s => .scalar { text? := s }
  | .list items => .list (itemDocuments float? items)
  | .record members => .record (memberDocuments float? members)

def itemDocuments (float? : Number → Option Float) : List Json → List Document
  | [] => []
  | v :: rest => v.toDocument float? :: itemDocuments float? rest

def memberDocuments (float? : Number → Option Float) :
    List (Text × Json) → List (Option String × Document)
  | [] => []
  | (k, v) :: rest => (k, v.toDocument float?) :: memberDocuments float? rest

end

def readDocument? (s : String) (float? : Number → Option Float := Number.float?) :
    Option Document :=
  (read? s).map (·.toDocument float?)

end Tollgate.Json
