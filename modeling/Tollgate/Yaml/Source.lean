/-!
# Source text

A text in which every character knows its place: its line and its column, and
the bytes before it. A break is a newline here, however it was spelled; only
the separators of lines and of paragraphs stay what they are. A mark of its
own ends every source.
-/

namespace Tollgate.Yaml

structure Glyph where
  char : Char
  line : Nat
  column : Nat
  offset : Nat
deriving DecidableEq, Repr, Inhabited

abbrev Source := List Glyph

namespace Source

def isPermitted (c : Char) : Bool :=
  let n := c.toNat
  n = 0x09 || n = 0x0A || n = 0x0D || (0x20 ≤ n && n ≤ 0x7E) || n = 0x85 ||
    (0xA0 ≤ n && n ≤ 0xFFFD) || 0x10000 ≤ n

/-- What stands at the end; no text can hold it. -/
def endMark : Char := '\x00'

def byteOrderMark : Char := '\uFEFF'

def isBreak (c : Char) : Bool := c = '\n' || c = '\u2028' || c = '\u2029'

def isBlank (c : Char) : Bool := c = ' ' || c = '\t'

def endsWord (c : Char) : Bool := isBlank c || isBreak c || c = endMark

def endsLine (c : Char) : Bool := isBreak c || c = endMark

def place (line column offset : Nat) : List Char → Source
  | [] => [⟨endMark, line, column, offset⟩]
  | '\r' :: '\n' :: cs => ⟨'\n', line, column, offset⟩ :: place (line + 1) 0 (offset + 2) cs
  | c :: cs =>
    let next := offset + c.utf8Size
    if c = '\r' ∨ c = '\x85' then ⟨'\n', line, column, offset⟩ :: place (line + 1) 0 next cs
    else if isBreak c then ⟨c, line, column, offset⟩ :: place (line + 1) 0 next cs
    else ⟨c, line, column, offset⟩ :: place line (column + 1) next cs

def ofText? (s : String) : Option Source :=
  if s.toList.all isPermitted then some (place 0 0 0 s.toList) else none

def here (src : Source) : Glyph := src.headD ⟨endMark, 0, 0, 0⟩

def char (src : Source) : Char := src.here.char

/-- The sign at the front, with the end of a word right behind it. -/
def isSign (sign : Char) (src : Source) : Bool := src.char = sign && endsWord (char src.tail)

/-- Three marks at the start of a line begin or end a document. -/
def isMarker (mark : Char) (src : Source) : Bool :=
  src.here.column = 0 && (src.take 3).map (·.char) = [mark, mark, mark] &&
    endsWord (char (src.drop 3))

def isAnyMarker (src : Source) : Bool := isMarker '-' src || isMarker '.' src

def span (p : Char → Bool) (src : Source) : List Char × Source :=
  ((src.takeWhile fun g => p g.char).map (·.char), src.dropWhile fun g => p g.char)

def skipRemark (src : Source) : Source :=
  let src := (span isBlank src).2
  if src.char = '#' then (span (!endsLine ·) src).2 else src

end Source

end Tollgate.Yaml
