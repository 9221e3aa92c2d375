import Tollgate.Word

/-!
# Counting cells

A counter in the database is an integer until a sum leaves the range of
signed 64-bit words. From then on it is a double, which no reader accepts,
unless a later sum comes out as an integer well inside the range.
-/

namespace Tollgate

inductive Cell where
  | int (n : Int)
  | real (x : Float)

namespace Cell

/-- An integral double strictly between the extreme words becomes an integer again. -/
def ofReal (x : Float) : Cell :=
  if -9223372036854774784.0 ≤ x ∧ x ≤ 9223372036854774784.0 ∧ x.floor == x then
    .int x.toInt64.toInt
  else .real x

def add (c : Cell) (d : Int) : Cell :=
  match c with
  | .int n => if Word.Fits (n + d) then .int (n + d) else ofReal (Float.ofInt n + Float.ofInt d)
  | .real x => ofReal (x + Float.ofInt d)

def sub (c : Cell) (d : Int) : Cell :=
  match c with
  | .int n => if Word.Fits (n - d) then .int (n - d) else ofReal (Float.ofInt n - Float.ofInt d)
  | .real x => ofReal (x - Float.ofInt d)

/-- A double in a cell is past every word on its side of zero, or it is the least word. -/
def covers (c : Cell) (amount : Int) : Bool :=
  match c with
  | .int n => amount ≤ n
  | .real x => 0.0 < x || (x == -9223372036854775808.0 && amount = Word.least)

def int? : Cell → Option Int
  | .int n => some n
  | .real _ => none

theorem add_int {n d : Int} (h : Word.Fits (n + d)) : (Cell.int n).add d = .int (n + d) :=
  if_pos h

theorem sub_int {n d : Int} (h : Word.Fits (n - d)) : (Cell.int n).sub d = .int (n - d) :=
  if_pos h

end Cell

end Tollgate
