import Tollgate.Yaml.Scalar

/-!
# Names, tags and directives

What is written with a sign of its own in front: the name of an anchor, the
tag of a node, and the directives that come before a document.
-/

namespace Tollgate.Yaml

open Source

/-- A tag as it is written: a handle, and what is added to that which the handle stands for. No
handle stands for nothing. -/
structure Tag where
  handle : String
  suffix : String
deriving DecidableEq, Repr

inductive Directive where
  | version (major minor : Nat)
  | shorthand (handle expansion : String)
deriving DecidableEq, Repr

def isNameChar (c : Char) : Bool := c.isAlphanum || c = '_' || c = '-'

def takeName? (src : Source) : Option (String × Source) :=
  let (name, rest) := span isNameChar src
  let c := rest.char
  if name.isEmpty then none
  else if endsWord c ∨ c ∈ ['?', ':', ',', ']', '\x7d', '%', '@', '\x60'] then
    some (.ofList name, rest)
  else none

-- ---------------------------------------------------------------------------
-- Tags
-- ---------------------------------------------------------------------------

/-- A handle, or the front of something else: an exclamation mark, a name, and perhaps a second
mark. -/
def takeHandle? (src : Source) : Option (List Char × Source) :=
  if src.char ≠ '!' then none
  else
    let (name, rest) := span isNameChar src.tail
    if rest.char = '!' then some ('!' :: name ++ ['!'], rest.tail) else some ('!' :: name, rest)

def isTagChar (verbatim : Bool) (c : Char) : Bool :=
  isNameChar c || (verbatim && c ∈ [',', '[', ']']) ||
    c ∈ [';', '/', '?', ':', '@', '&', '=', '+', '$', '.', '!', '~', '*', '\'', '(', ')']

def takeByte? (src : Source) : Option (Nat × Source) :=
  if src.char = '%' then takeHex? 2 src.tail else none

def leadingByte? (n : Nat) : Option (Nat × Nat) :=
  if n < 0x80 then some (0, n)
  else if n < 0xC0 then none
  else if n < 0xE0 then some (1, n - 0xC0)
  else if n < 0xF0 then some (2, n - 0xE0)
  else if n < 0xF8 then some (3, n - 0xF0)
  else none

def takeContinuation? (code : Nat) : Nat → Source → Option (Nat × Source)
  | 0, src => some (code, src)
  | more + 1, src => do
    let (n, rest) ← takeByte? src
    if n / 0x40 = 2 then takeContinuation? (code * 0x40 + n % 0x40) more rest else none

def takeBytes? (src : Source) : Option (Char × Source) := do
  let (n, rest) ← takeByte? src
  let (more, code) ← leadingByte? n
  let (code, rest) ← takeContinuation? code more rest
  some (Char.ofNat code, rest)

def takeTagText? (verbatim : Bool) (taken : List Char) :
    Nat → Source → Option (List Char × Source)
  | 0, _ => none
  | fuel + 1, src =>
    if src.char = '%' then
      match takeBytes? src with
      | none => none
      | some (c, rest) => takeTagText? verbatim (taken ++ [c]) fuel rest
    else if isTagChar verbatim src.char then
      takeTagText? verbatim (taken ++ [src.char]) fuel src.tail
    else some (taken, src)

def takeVerbatim? (src : Source) : Option (Tag × Source) := do
  let (chars, rest) ← takeTagText? true [] (src.length + 1) (src.drop 2)
  if chars.isEmpty ∨ rest.char ≠ '>' then none
  some (⟨"", .ofList chars⟩, rest.tail)

def takeHandled? (src : Source) : Option (Tag × Source) := do
  let (front, rest) ← takeHandle? src
  if 1 < front.length ∧ front.getLast? = some '!' then
    let (chars, rest) ← takeTagText? false [] (src.length + 1) rest
    if chars.isEmpty then none
    some (⟨.ofList front, .ofList chars⟩, rest)
  else
    let (chars, rest) ← takeTagText? false front.tail (src.length + 1) rest
    some (if chars.isEmpty then ⟨"", "!"⟩ else ⟨"!", .ofList chars⟩, rest)

def takeTag? (bracketed : Bool) (src : Source) : Option (Tag × Source) := do
  let (tag, rest) ← if char src.tail = '<' then takeVerbatim? src else takeHandled? src
  if endsWord rest.char ∨ (bracketed ∧ rest.char = ',') then some (tag, rest) else none

-- ---------------------------------------------------------------------------
-- Directives
-- ---------------------------------------------------------------------------

def takeNumber? (src : Source) : Option (Nat × Source) :=
  let (digits, rest) := span Text.isDigit src
  if 0 < digits.length ∧ digits.length ≤ 9 then some (Text.natOfDigits digits, rest) else none

def takeVersion? (src : Source) : Option (Directive × Source) := do
  let (major, rest) ← takeNumber? src
  if rest.char ≠ '.' then none
  let (minor, rest) ← takeNumber? rest.tail
  some (.version major minor, rest)

def takeShorthand? (src : Source) : Option (Directive × Source) := do
  let (handle, rest) ← takeHandle? src
  if 1 < handle.length ∧ handle.getLast? ≠ some '!' then none
  if !isBlank rest.char then none
  let (chars, rest) ← takeTagText? true [] (src.length + 1) (span isBlank rest).2
  if chars.isEmpty ∨ !endsWord rest.char then none
  some (.shorthand (.ofList handle) (.ofList chars), rest)

def takeDirective? (src : Source) : Option (Directive × Source) := do
  let (name, rest) := span isNameChar src.tail
  if !endsWord rest.char then none
  let rest := (span isBlank rest).2
  let (directive, rest) ←
    match name with
    | ['Y', 'A', 'M', 'L'] => takeVersion? rest
    | ['T', 'A', 'G'] => takeShorthand? rest
    | _ => none
  let rest := skipRemark rest
  if !endsLine rest.char then none
  some (directive, if isBreak rest.char then rest.tail else rest)

end Tollgate.Yaml
