/-!
# Text patterns

A pattern is a sequence of pieces, each a class of characters with how often
it may occur. A piece takes as many characters as it can, and gives some back
only where the pieces after it would otherwise find no match.
-/

namespace Tollgate

abbrev CharClass := Char → Bool

inductive PatternPiece where
  | one (p : CharClass)
  | optional (p : CharClass)
  | many (p : CharClass)

abbrev Pattern := List PatternPiece

namespace Pattern

def literal (s : String) : Pattern := s.toList.map fun a => .one (· = a)

def atLeast (n : Nat) (p : CharClass) : Pattern := List.replicate n (.one p) ++ [.many p]

def after? : Pattern → List Char → Option (List Char)
  | [], cs => some cs
  | .one _ :: _, [] => none
  | .one p :: ps, c :: cs => if p c then after? ps cs else none
  | .optional _ :: ps, [] => after? ps []
  | .optional p :: ps, c :: cs =>
    if p c then
      match after? ps cs with
      | some rest => some rest
      | none => after? ps (c :: cs)
    else after? ps (c :: cs)
  | .many _ :: ps, [] => after? ps []
  | .many p :: ps, c :: cs =>
    if p c then
      match after? (.many p :: ps) cs with
      | some rest => some rest
      | none => after? ps (c :: cs)
    else after? ps (c :: cs)
termination_by ps cs => (ps.length, cs.length)

/-- Puts `replacement` in place of every match, from left to right and without overlap. -/
def replaceAll (p : Pattern) (replacement : List Char) : List Char → List Char
  | [] => []
  | c :: cs =>
    match after? p (c :: cs) with
    | none => c :: replaceAll p replacement cs
    | some rest =>
      if rest.length ≤ cs.length then replacement ++ replaceAll p replacement rest
      else c :: replaceAll p replacement cs
termination_by cs => cs.length

end Pattern

end Tollgate
