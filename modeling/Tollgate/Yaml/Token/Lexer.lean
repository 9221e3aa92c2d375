import Tollgate.Yaml.Token

/-!
# Reading tokens

A key on a single line has no sign of its own: only the sign of its value
gives it away. So the place of whatever may turn out to be one is kept until
the value sign comes, the line ends or a thousand and some bytes have passed.
-/

namespace Tollgate.Yaml

open Source

/-- Something that may turn out to be a key. `index` counts the tokens before it; where it is
`required` nothing but a key can stand. -/
structure Candidate where
  index : Nat
  line : Nat
  column : Nat
  offset : Nat
  required : Bool
deriving DecidableEq, Repr

def Candidate.isStale (c : Candidate) (now : Glyph) : Bool :=
  c.line < now.line || c.offset + 1024 < now.offset

/-- Blocks begin at the columns before `floor` and the outer `floors`. `key` may be a key of the
innermost brackets, or of the block outside of any; `outer` are those of the brackets around. -/
structure Lexer where
  rest : Source
  tokens : List Token := []
  key : Option Candidate := none
  outer : List (Option Candidate) := []
  floor : Nat := 0
  floors : List Nat := []
  keyAllowed : Bool := true

namespace Lexer

def bracketed (l : Lexer) : Bool := !l.outer.isEmpty

def push (l : Lexer) (t : Token) : Lexer := { l with tokens := l.tokens ++ [t] }

def take (l : Lexer) (n : Nat) (t : Token) : Lexer := { l.push t with rest := l.rest.drop n }

-- ---------------------------------------------------------------------------
-- Keys
-- ---------------------------------------------------------------------------

def giveUp? (c : Option Candidate) : Option (Option Candidate) :=
  if c.any (·.required) then none else some none

def refreshed? (now : Glyph) (c : Option Candidate) : Option (Option Candidate) :=
  if c.any (·.isStale now) then giveUp? c else some c

/-- Gives up the candidates that are over. -/
def refresh? (l : Lexer) : Option Lexer := do
  let now := l.rest.here
  return { l with key := ← refreshed? now l.key, outer := ← l.outer.mapM (refreshed? now) }

def dropKey? (l : Lexer) : Option Lexer := return { l with key := ← giveUp? l.key }

def noteKey? (l : Lexer) : Option Lexer := do
  if !l.keyAllowed then return l
  let l ← l.dropKey?
  let g := l.rest.here
  return { l with key := some {
    index := l.tokens.length, line := g.line, column := g.column, offset := g.offset
    required := !l.bracketed && l.floor = g.column + 1 } }

-- ---------------------------------------------------------------------------
-- Blocks
-- ---------------------------------------------------------------------------

/-- Begins a block at a column, unless one is there already; its token comes before those from
`index` on. -/
def indent (l : Lexer) (column index : Nat) (t : Token) : Lexer :=
  if l.bracketed ∨ column < l.floor then l
  else { l with
    tokens := l.tokens.insertIdx index t, floors := l.floor :: l.floors, floor := column + 1 }

def unwind (floor : Nat) (tokens : List Token) (inner : Nat) :
    List Nat → List Token × Nat × List Nat
  | [] => (tokens, inner, [])
  | outer :: floors =>
    if floor < inner then unwind floor (tokens ++ [.blockEnd]) outer floors
    else (tokens, inner, outer :: floors)

def outdent (l : Lexer) (floor : Nat) : Lexer :=
  if l.bracketed then l
  else
    let (tokens, floor, floors) := unwind floor l.tokens l.floor l.floors
    { l with tokens, floor, floors }

-- ---------------------------------------------------------------------------
-- White space
-- ---------------------------------------------------------------------------

/-- Skips white space and comments. A line may begin with a byte order mark, and after it, outside
of brackets, with a key; no tab may stand before one. -/
def skipGap (bracketed keyAllowed comment : Bool) : Source → Source × Bool
  | [] => ([], keyAllowed)
  | g :: rest =>
    if isBreak g.char then skipGap bracketed (keyAllowed || !bracketed) false rest
    else if g.char = endMark then (g :: rest, keyAllowed)
    else if comment ∨ g.char = ' ' ∨ (g.char = '\t' ∧ (bracketed ∨ !keyAllowed)) ∨
        (g.char = byteOrderMark ∧ g.column = 0) then
      skipGap bracketed keyAllowed comment rest
    else if g.char = '#' then skipGap bracketed keyAllowed true rest
    else (g :: rest, keyAllowed)

def advance? (l : Lexer) : Option Lexer := do
  let (rest, keyAllowed) := skipGap l.bracketed l.keyAllowed false l.rest
  let l ← refresh? { l with rest, keyAllowed }
  return l.outdent (rest.here.column + 1)

-- ---------------------------------------------------------------------------
-- One token
-- ---------------------------------------------------------------------------

def leave? (l : Lexer) : Option Lexer := do
  return { ← (l.outdent 0).dropKey? with keyAllowed := false }

def openBracket? (l : Lexer) (t : Token) : Option Lexer := do
  let l ← l.noteKey?
  return { l.take 1 t with key := none, outer := l.key :: l.outer, keyAllowed := true }

def closeBracket? (l : Lexer) (t : Token) : Option Lexer := do
  let l ← l.dropKey?
  let (key, outer) := match l.outer with
    | [] => (l.key, [])
    | key :: outer => (key, outer)
  return { l.take 1 t with key, outer, keyAllowed := false }

def comma? (l : Lexer) : Option Lexer := do
  return { (← l.dropKey?).take 1 .comma with keyAllowed := true }

def mayBegin (l : Lexer) : Bool := l.bracketed || l.keyAllowed

def item? (l : Lexer) : Option Lexer := do
  if !l.mayBegin then none
  let l ← (l.indent l.rest.here.column l.tokens.length .blockList).dropKey?
  return { l.take 1 .item with keyAllowed := true }

def key? (l : Lexer) : Option Lexer := do
  if !l.mayBegin then none
  let l ← (l.indent l.rest.here.column l.tokens.length .blockRecord).dropKey?
  return { l.take 1 .key with keyAllowed := !l.bracketed }

/-- The sign of a value. Its key is the candidate, or has a sign of its own. -/
def value? (l : Lexer) : Option Lexer := do
  match l.key with
  | some c =>
    let l := { l with tokens := l.tokens.insertIdx c.index .key, key := none }
    return { (l.indent c.column c.index .blockRecord).take 1 .value with keyAllowed := false }
  | none =>
    if !l.mayBegin then none
    let l := l.indent l.rest.here.column l.tokens.length .blockRecord
    return { l.take 1 .value with keyAllowed := !l.bracketed }

def word? (l : Lexer) (read : Source → Option (Token × Source)) : Option Lexer := do
  let l ← l.noteKey?
  let (t, rest) ← read l.rest
  return { l.push t with rest, keyAllowed := false }

def block? (l : Lexer) (literal : Bool) : Option Lexer := do
  let l ← l.dropKey?
  let (s, rest) ← takeBlock? literal l.floor l.rest.tail
  let style := if literal then Style.literal else .quoted
  return { l.push (.scalar style s) with rest, keyAllowed := true }

def plain? (l : Lexer) : Option Lexer := do
  let l ← l.noteKey?
  let (s, broken, rest) ← takePlain? l.bracketed l.floor l.rest
  return { l.push (.scalar .plain s) with rest, keyAllowed := broken }

def quotedToken (read : Source → Option (List Char × Source)) (src : Source) :
    Option (Token × Source) :=
  (read src.tail).map fun (cs, rest) => (.scalar .quoted (.ofList cs), rest)

def step? (l : Lexer) : Option Lexer := do
  let src := l.rest
  let signs := fun c => src.char = c ∧ (l.bracketed ∨ endsWord (char src.tail))
  if src.char = '%' ∧ src.here.column = 0 then
    let l ← l.leave?
    let (d, rest) ← takeDirective? src
    return { l.push (.directive d) with rest }
  else if isMarker '-' src then return (← l.leave?).take 3 .documentStart
  else if isMarker '.' src then return (← l.leave?).take 3 .documentEnd
  else if src.char = '[' then l.openBracket? .openList
  else if src.char = '\x7b' then l.openBracket? .openRecord
  else if src.char = ']' then l.closeBracket? .closeList
  else if src.char = '\x7d' then l.closeBracket? .closeRecord
  else if src.char = ',' then l.comma?
  else if isSign '-' src then l.item?
  else if signs '?' then l.key?
  else if signs ':' then l.value?
  else if src.char = '*' then
    l.word? fun src => (takeName? src.tail).map fun (name, rest) => (.reference name, rest)
  else if src.char = '&' then
    l.word? fun src => (takeName? src.tail).map fun (name, rest) => (.anchor name, rest)
  else if src.char = '!' then
    l.word? fun src => (takeTag? l.bracketed src).map fun (t, rest) => (.tag t, rest)
  else if src.char = '|' ∧ !l.bracketed then l.block? true
  else if src.char = '>' ∧ !l.bracketed then l.block? false
  else if src.char = '\'' then l.word? (quotedToken (takeSingle? [] {}))
  else if src.char = '"' then
    l.word? (quotedToken fun src => takeDouble? [] {} (src.length + 1) src)
  else if startsPlain l.bracketed src then l.plain?
  else none

/-- The tokens up to the end. Every step takes at least a character. -/
def run? : Nat → Lexer → Option (List Token)
  | 0, _ => none
  | fuel + 1, l => do
    let l ← l.advance?
    if l.rest.char = endMark then return (← l.leave?).tokens
    run? fuel (← l.step?)

end Lexer

def Token.ofText? (s : String) : Option (List Token) := do
  let src ← Source.ofText? s
  Lexer.run? (src.length + 1) { rest := src }

end Tollgate.Yaml
