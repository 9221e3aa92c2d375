import Tollgate.Decimal.Shortest
import Tollgate.Yaml.Plain
import Tollgate.Yaml.Scalar

/-!
# Writing YAML

Nested mappings in block form, two columns a level. A text is written in the
plainest style that reads back as that text: plain, in single quotes, in
double quotes, or as a literal block where it has lines. A long key, or one
with lines, has a sign of its own.
-/

namespace Tollgate

inductive Yaml where
  | word (spelling : String)
  | text (s : String)
  | record (members : List (String × Yaml))

namespace Yaml

-- ---------------------------------------------------------------------------
-- Words
-- ---------------------------------------------------------------------------

def null : Yaml := .word "null"

def bool (b : Bool) : Yaml := .word (if b then "true" else "false")

def int (n : Int) : Yaml := .word (toString n)

def floatWord (x : Float) : String :=
  match Binary.ofFloat? x with
  | none => if x.isNaN then ".nan" else if x < 0.0 then "-.inf" else ".inf"
  | some b => Decimal.shortestText b

def float (x : Float) : Yaml := .word (floatWord x)

-- ---------------------------------------------------------------------------
-- Texts
-- ---------------------------------------------------------------------------

def isLineBreak (c : Char) : Bool := c = '\r' || c = '\x85' || Yaml.Source.isBreak c

def isPrintable (c : Char) : Bool :=
  let n := c.toNat
  c = '\n' || (0x20 ≤ n && n ≤ 0x7E) || (0xA0 ≤ n && n ≤ 0xFFFD && n ≠ 0xFEFF) || 0x10000 ≤ n

def hasAdjacent (p q : Char → Bool) : List Char → Bool
  | c :: d :: rest => (p c && q d) || hasAdjacent p q (d :: rest)
  | _ => false

/-- Blanks before a break, like characters that cannot be printed, survive only as escapes. -/
def isFragile (cs : List Char) : Bool :=
  hasAdjacent (· = ' ') isLineBreak cs || !cs.all isPrintable

def fitsSingleQuotes (cs : List Char) : Bool :=
  !isFragile cs && !hasAdjacent isLineBreak (· = ' ') cs

def fitsLiteral (cs : List Char) : Bool := !isFragile cs && cs.getLast? ≠ some ' '

def hasIndicator (before : Option Char) : List Char → Bool
  | [] => false
  | c :: rest =>
    let lonely := rest.head?.all (· = ' ')
    let here := match before with
      | none => (c ∈ Yaml.indicators && c ∉ ['-', '?', ':']) || (c ∈ ['-', '?', ':'] && lonely)
      | some b => (c = ':' && lonely) || (c = '#' && b = ' ')
    here || hasIndicator (some c) rest

def fitsPlain (cs : List Char) : Bool :=
  !(['-', '-', '-'].isPrefixOf cs || ['.', '.', '.'].isPrefixOf cs || cs.head? = some ' ' ||
    cs.getLast? = some ' ' || cs.any isLineBreak || hasIndicator none cs || isFragile cs)

/-- A plain text that would read as something else. Digits alone are one even where a zero that
leads them keeps them from being a number. -/
def isAmbiguous (s : String) : Bool :=
  let r := plainScalar s
  r.isNull || r.bool?.isSome || r.float?.isSome || isPadded s.toList ||
    r.int?.any fun n => if n < 0 then n.natAbs ≤ 1 <<< 127 else n.natAbs < 1 <<< 128

-- ---------------------------------------------------------------------------
-- Styles
-- ---------------------------------------------------------------------------

def spaces (n : Nat) : List Char := List.replicate n ' '

/-- Indents the lines but the first, which `atStart` says whether it needs it as well, and writes
every other character in its own way. -/
def indentLines (indent : Nat) (write : Char → List Char) (atStart : Bool) :
    List Char → List Char × Bool
  | [] => ([], atStart)
  | c :: rest =>
    if isLineBreak c then
      let (written, atEnd) := indentLines indent write true rest
      (c :: written, atEnd)
    else
      let (written, atEnd) := indentLines indent write false rest
      ((if atStart then spaces indent else []) ++ write c ++ written, atEnd)

def singleQuoted (indent : Nat) (cs : List Char) : List Char :=
  let (written, broken) :=
    indentLines indent (fun c => if c = '\'' then ['\'', '\''] else [c]) false cs
  '\'' :: written ++ (if broken then spaces indent else []) ++ ['\'']

def hexDigits (width n : Nat) : List Char :=
  match width with
  | 0 => []
  | width + 1 =>
    let d := n % 16
    hexDigits width (n / 16) ++ [Char.ofNat (if d < 10 then '0'.toNat + d else 'A'.toNat + d - 10)]

def escapeLetter? (c : Char) : Option Char :=
  ['0', 'a', 'b', 't', 'n', 'v', 'f', 'r', 'e', '"', '\\', 'N', 'L', 'P'].find? fun e =>
    Yaml.shortEscape? e = some c

def escaped (c : Char) : List Char :=
  if c = '"' ∨ c = '\\' ∨ isLineBreak c ∨ !isPrintable c then
    match escapeLetter? c with
    | some e => ['\\', e]
    | none =>
      if c.toNat < UInt8.size then ['\\', 'x'] ++ hexDigits 2 c.toNat
      else if c.toNat < UInt16.size then ['\\', 'u'] ++ hexDigits 4 c.toNat
      else ['\\', 'U'] ++ hexDigits 8 c.toNat
  else [c]

def doubleQuoted (cs : List Char) : List Char := '"' :: cs.flatMap escaped ++ ['"']

def chompingSign : List Char → List Char
  | [] => ['-']
  | [c] => if isLineBreak c then ['+'] else ['-']
  | c :: d :: _ => if !isLineBreak c then ['-'] else if isLineBreak d then ['+'] else []

/-- The depth is given where the first line cannot show it. -/
def literal (indent : Nat) (cs : List Char) : List Char :=
  let depth := if cs.head?.any fun c => c = ' ' ∨ isLineBreak c then ['2'] else []
  '|' :: depth ++ chompingSign cs.reverse ++ '\n' :: (indentLines indent ([·]) true cs).1

def written (indent : Nat) (s : String) : List Char :=
  let cs := s.toList
  if '\n' ∈ cs then if fitsLiteral cs then literal indent cs else doubleQuoted cs
  else if !isAmbiguous s && fitsPlain cs then cs
  else if fitsSingleQuotes cs then singleQuoted indent cs
  else doubleQuoted cs

-- ---------------------------------------------------------------------------
-- Records
-- ---------------------------------------------------------------------------

def endLine (cs : List Char) : String :=
  .ofList (if cs.getLast?.any isLineBreak then cs else cs ++ ['\n'])

def isSimpleKey (key : String) : Bool := !key.toList.any isLineBreak && key.utf8ByteSize ≤ 128

mutual

/-- What follows the colon, in a record at the given column; a record as value goes on in the same
line or begins the next. -/
def renderValue (column : Nat) (sameLine : Bool) : Yaml → String
  | .word spelling => " " ++ spelling ++ "\n"
  | .text s => endLine (' ' :: written (column + 2) s)
  | .record [] => " \x7b\x7d\n"
  | .record (m :: ms) =>
    (if sameLine then " " else "\n" ++ .ofList (spaces (column + 2))) ++
      renderMember (column + 2) m ++ renderMembers (column + 2) ms

def renderMember (column : Nat) : String × Yaml → String
  | (key, value) =>
    if isSimpleKey key then .ofList (written 0 key) ++ ":" ++ renderValue column false value
    else
      endLine ('?' :: ' ' :: written (column + 2) key) ++ .ofList (spaces column) ++ ":" ++
        renderValue column true value

def renderMembers (column : Nat) : List (String × Yaml) → String
  | [] => ""
  | m :: ms => .ofList (spaces column) ++ renderMember column m ++ renderMembers column ms

end

def renderDocument (members : List (String × Yaml)) : String := renderMembers 0 members

end Yaml

end Tollgate
