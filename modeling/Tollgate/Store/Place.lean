import Tollgate.Store

/-!
# The file of a database

Where a path below a directory leads, and whether a database can be opened
there. The directories above the file are made if need be. A path is followed
by its names alone, so that a step up undoes the step before it.
-/

namespace Tollgate

def pathNames (path : String) : List String :=
  (path.splitOn "/").filter fun name => name ≠ "" ∧ name ≠ "."

def follow (place : List String) : List String → List String
  | [] => place
  | ".." :: names => follow place.dropLast names
  | name :: names => follow (place ++ [name]) names

def stations (names : List String) : List (List String) :=
  (List.range (names.length + 1)).map fun n => follow [] (names.take n)

def isName (name : String) : Bool := name.utf8ByteSize ≤ 255 && !name.contains '\x00'

namespace Store

/-- Whether a plain file stands in the place of a database, or of a directory above it, or below
it in a directory that was made for the file. Directories are not made past the file either, so
that only those in which it stands are there then. -/
def isObstructed (names obstacle : List String) : Bool :=
  let place := follow [] names
  let parent := place.dropLast
  obstacle.isPrefixOf place || place.isPrefixOf obstacle ||
    ((stations names.dropLast).any (obstacle.isPrefixOf ·) && !parent.isPrefixOf obstacle.dropLast)

def isDirectory (names : List String) : Bool :=
  names.getLast? = some ".." || (stations names.dropLast).any (follow [] names).isPrefixOf

def create? (file obstacle : Option String) : Option Store :=
  match file with
  | none => some {}
  | some path =>
    let names := pathNames path
    let obstructed := obstacle.any fun o => isObstructed names (follow [] (pathNames o))
    if isDirectory names || !names.all isName || obstructed then none else some {}

end Store

end Tollgate
