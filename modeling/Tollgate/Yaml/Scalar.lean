import Tollgate.Text.Integer
import Tollgate.Yaml.Source

/-!
# Scalars in source text

A break within a scalar counts as a space, and so do the blanks around it;
further breaks stay. Only literal blocks keep their lines as they are. What a
block holds begins at column `floor` or later.
-/

namespace Tollgate.Yaml

open Source

/-- White space within a scalar: the blanks before the first break, and the breaks. Behind an
`escaped` break neither counts. -/
structure Fold where
  blanks : List Char := []
  breaks : List Char := []
  escaped : Bool := false

namespace Fold

def chars (f : Fold) : List Char :=
  if f.escaped then f.breaks
  else
    match f.breaks with
    | [] => f.blanks
    | ['\n'] => [' ']
    | '\n' :: more => more
    | breaks => breaks

def isBroken (f : Fold) : Bool := f.escaped || !f.breaks.isEmpty

def push (f : Fold) (c : Char) : Fold :=
  if isBreak c then { f with breaks := f.breaks ++ [c] }
  else if f.isBroken then f
  else { f with blanks := f.blanks ++ [c] }

end Fold

-- ---------------------------------------------------------------------------
-- Plain scalars
-- ---------------------------------------------------------------------------

def indicators : List Char :=
  ['-', '?', ':', ',', '[', ']', '\x7b', '\x7d', '#', '&', '*', '!', '|', '>', '\'', '"', '%', '@',
    '\x60']

def brackets : List Char := [',', '[', ']', '\x7b', '\x7d']

def startsPlain (bracketed : Bool) (src : Source) : Bool :=
  let c := src.char
  let next := char src.tail
  (!endsWord c && c ∉ indicators) || (c = '-' && !isBlank next) ||
    (!bracketed && (c = '?' || c = ':') && !endsWord next)

def takeWord? (bracketed : Bool) : Source → Option (List Char × Source)
  | [] => some ([], [])
  | g :: rest =>
    if endsWord g.char ∨ isSign ':' (g :: rest) then some ([], g :: rest)
    else if bracketed ∧ g.char = ':' ∧ (char rest = '?' ∨ char rest ∈ brackets) then none
    else if bracketed ∧ g.char ∈ brackets then some ([], g :: rest)
    else (takeWord? bracketed rest).map fun (tail, rest) => (g.char :: tail, rest)

/-- White space between the words of a plain scalar. A tab may not stand where the indentation
of a line should. -/
def takeFold? (floor : Nat) (f : Fold) : Source → Option (Fold × Source)
  | [] => some (f, [])
  | g :: rest =>
    if isBreak g.char then takeFold? floor (f.push g.char) rest
    else if isBlank g.char then
      if f.isBroken ∧ g.char = '\t' ∧ g.column < floor then none
      else takeFold? floor (f.push g.char) rest
    else some (f, g :: rest)

/-- The words of a plain scalar that follow those already taken, and the white space after them.
Outside of brackets its lines begin at the floor or later. -/
def takeWords? (bracketed : Bool) (floor : Nat) (taken : List Char) (f : Fold) :
    Nat → Source → Option (List Char × Fold × Source)
  | 0, _ => none
  | fuel + 1, src => do
    if src.char = '#' ∨ isAnyMarker src then return (taken, f, src)
    let (next, rest) ← takeWord? bracketed src
    if next.isEmpty then return (taken, f, rest)
    let taken := taken ++ f.chars ++ next
    let (f, rest) ← takeFold? floor {} rest
    if !bracketed ∧ rest.here.column < floor then return (taken, f, rest)
    takeWords? bracketed floor taken f fuel rest

def takePlain? (bracketed : Bool) (floor : Nat) (src : Source) : Option (String × Bool × Source) :=
  (takeWords? bracketed floor [] {} (src.length + 1) src).map fun (cs, f, rest) =>
    (.ofList cs, f.isBroken, rest)

-- ---------------------------------------------------------------------------
-- Quoted scalars
-- ---------------------------------------------------------------------------

def takeSingle? (taken : List Char) (f : Fold) : Source → Option (List Char × Source)
  | [] => none
  | g :: rest =>
    if isAnyMarker (g :: rest) ∨ g.char = endMark then none
    else if isBlank g.char ∨ isBreak g.char then takeSingle? taken (f.push g.char) rest
    else if g.char = '\'' then
      match rest with
      | q :: rest =>
        if q.char = '\'' then takeSingle? (taken ++ f.chars ++ ['\'']) {} rest
        else some (taken ++ f.chars, q :: rest)
      | [] => none
    else takeSingle? (taken ++ f.chars ++ [g.char]) {} rest

def shortEscape? : Char → Option Char
  | '0' => some '\x00'
  | 'a' => some '\x07'
  | 'b' => some '\x08'
  | 't' | '\t' => some '\t'
  | 'n' => some '\n'
  | 'v' => some '\x0b'
  | 'f' => some '\x0c'
  | 'r' => some '\r'
  | 'e' => some '\x1b'
  | ' ' => some ' '
  | '"' => some '"'
  | '/' => some '/'
  | '\\' => some '\\'
  | 'N' => some '\x85'
  | '_' => some '\u00A0'
  | 'L' => some '\u2028'
  | 'P' => some '\u2029'
  | _ => none

def hexLength? : Char → Option Nat
  | 'x' => some 2
  | 'u' => some 4
  | 'U' => some 8
  | _ => none

def charOfCode? (n : Nat) : Option Char := if n.isValidChar then some (Char.ofNat n) else none

def takeHex? (length : Nat) (src : Source) : Option (Nat × Source) := do
  let digits ← (src.take length).mapM fun g => Text.hexValue? g.char
  if digits.length < length then none
  else some (digits.foldl (fun n d => n * 16 + d) 0, src.drop length)

def takeEscape? (src : Source) : Option (Char × Source) :=
  match hexLength? src.char with
  | some length => do
    let (code, rest) ← takeHex? length src.tail
    some (← charOfCode? code, rest)
  | none => (shortEscape? src.char).map (·, src.tail)

def takeDouble? (taken : List Char) (f : Fold) : Nat → Source → Option (List Char × Source)
  | 0, _ => none
  | _, [] => none
  | fuel + 1, g :: rest =>
    if isAnyMarker (g :: rest) ∨ g.char = endMark then none
    else if isBlank g.char ∨ isBreak g.char then takeDouble? taken (f.push g.char) fuel rest
    else if g.char = '"' then some (taken ++ f.chars, rest)
    else if g.char = '\\' then
      if isBreak (char rest) then takeDouble? (taken ++ f.chars) { escaped := true } fuel rest.tail
      else
        match takeEscape? rest with
        | none => none
        | some (c, rest) => takeDouble? (taken ++ f.chars ++ [c]) {} fuel rest
    else takeDouble? (taken ++ f.chars ++ [g.char]) {} fuel rest

-- ---------------------------------------------------------------------------
-- Block scalars
-- ---------------------------------------------------------------------------

inductive Chomping where
  | strip
  | clip
  | keep
deriving DecidableEq, Repr

def takeChomping? (src : Source) : Option (Chomping × Source) :=
  if src.char = '-' then some (.strip, src.tail)
  else if src.char = '+' then some (.keep, src.tail)
  else none

def takeDepth? (src : Source) : Option (Nat × Source) :=
  if src.char = '0' then none
  else if Text.isDigit src.char then some (Text.digitValue src.char, src.tail)
  else some (0, src)

def takeHeader? (src : Source) : Option (Chomping × Nat × Source) := do
  match takeChomping? src with
  | some (chomping, rest) =>
    let (depth, rest) ← takeDepth? rest
    some (chomping, depth, rest)
  | none =>
    let (depth, rest) ← takeDepth? src
    let (chomping, rest) :=
      if depth = 0 then (Chomping.clip, rest) else (takeChomping? rest).getD (.clip, rest)
    some (chomping, depth, rest)

/-- Breaks and the indentation between them, which is not known yet where it is zero, and the
last column that was reached. No tab may stand in the indentation. -/
def takeBreaks? (indent deepest : Nat) (taken : List Char) :
    Source → Option (List Char × Nat × Source)
  | [] => some (taken, deepest, [])
  | g :: rest =>
    let indents := indent = 0 ∨ g.column < indent
    if indents ∧ g.char = ' ' then takeBreaks? indent deepest taken rest
    else if indents ∧ g.char = '\t' then none
    else if isBreak g.char then takeBreaks? indent (max deepest g.column) (taken ++ [g.char]) rest
    else some (taken, max deepest g.column, g :: rest)

/-- What has been read of a block: its text without the last break, that break, and the breaks
after it. -/
structure Block where
  text : List Char := []
  last : List Char := []
  spare : List Char := []
  indented : Bool := false

/-- The block with one more line, which may be more indented than the others. Lines that are not
are joined where the block is not literal. -/
def Block.addLine (b : Block) (literal indented : Bool) (line last spare : List Char) : Block :=
  let joined := !literal && b.last = ['\n'] && !b.indented && !indented
  let gap := if joined then (if b.spare.isEmpty then [' '] else []) else b.last
  { text := b.text ++ gap ++ b.spare ++ line, last, spare, indented }

def Block.chomped (b : Block) : Chomping → List Char
  | .strip => b.text
  | .clip => b.text ++ b.last
  | .keep => b.text ++ b.last ++ b.spare

def takeLines? (literal : Bool) (indent : Nat) (b : Block) : Nat → Source → Option (Block × Source)
  | 0, _ => none
  | fuel + 1, src => do
    if src.here.column ≠ indent ∨ src.char = endMark then return (b, src)
    let (line, rest) := span (!endsLine ·) src
    let (last, rest) := if isBreak rest.char then ([rest.char], rest.tail) else ([], rest)
    let (spare, _, rest) ← takeBreaks? indent 0 [] rest
    takeLines? literal indent (b.addLine literal (isBlank src.char) line last spare) fuel rest

def takeBlock? (literal : Bool) (floor : Nat) (src : Source) : Option (String × Source) := do
  let (chomping, depth, rest) ← takeHeader? src
  let rest := skipRemark rest
  if !endsLine rest.char then none
  let body := if isBreak rest.char then rest.tail else rest
  let given := if depth = 0 then 0 else floor - 1 + depth
  let (spare, deepest, rest) ← takeBreaks? given 0 [] body
  let indent := if depth = 0 then max (max deepest floor) 1 else given
  let (b, rest) ← takeLines? literal indent { spare } (rest.length + 1) rest
  some (.ofList (b.chomped chomping), rest)

end Tollgate.Yaml
