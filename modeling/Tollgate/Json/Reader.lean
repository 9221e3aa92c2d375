import Tollgate.Json
import Tollgate.Text.Integer

/-!
# Reading JSON

A reader takes characters off the front of a list and returns what is left.
`read?` reads a whole text: one value, white space around it, nothing else.
-/

namespace Tollgate.Json

open Text (hexValue? isDigit natOfDigits)

def isSpace (c : Char) : Bool := c = ' ' || c = '\t' || c = '\n' || c = '\r'

def skipSpace (cs : List Char) : List Char := cs.dropWhile isSpace

-- ---------------------------------------------------------------------------
-- Numbers
-- ---------------------------------------------------------------------------

def takeWhole? (cs : List Char) : Option (List Char × List Char) :=
  match cs with
  | '0' :: rest => some (['0'], rest)
  | c :: _ => if isDigit c then some (cs.takeWhile isDigit, cs.dropWhile isDigit) else none
  | [] => none

def takeDigits? (cs : List Char) : Option (List Char × List Char) :=
  match cs.takeWhile isDigit with
  | [] => none
  | ds => some (ds, cs.dropWhile isDigit)

def takeFraction? : List Char → Option (Option (List Char) × List Char)
  | '.' :: cs => (takeDigits? cs).map fun (ds, rest) => (some ds, rest)
  | cs => some (none, cs)

def takeSignedDigits? : List Char → Option (Int × List Char)
  | '+' :: cs => (takeDigits? cs).map fun (ds, rest) => (Int.ofNat (natOfDigits ds), rest)
  | '-' :: cs => (takeDigits? cs).map fun (ds, rest) => (-(natOfDigits ds : Int), rest)
  | cs => (takeDigits? cs).map fun (ds, rest) => (Int.ofNat (natOfDigits ds), rest)

def takeExponent? : List Char → Option (Option Int × List Char)
  | 'e' :: cs => (takeSignedDigits? cs).map fun (e, rest) => (some e, rest)
  | 'E' :: cs => (takeSignedDigits? cs).map fun (e, rest) => (some e, rest)
  | cs => some (none, cs)

def takeUnsigned? (negative : Bool) (cs : List Char) : Option (Number × List Char) := do
  let (whole, cs) ← takeWhole? cs
  let (fraction, cs) ← takeFraction? cs
  let (exponent, cs) ← takeExponent? cs
  match fraction, exponent with
  | none, none => some (.integer negative (natOfDigits whole), cs)
  | _, _ => some (.decimal negative whole (fraction.getD []) (exponent.getD 0), cs)

def takeNumber? : List Char → Option (Number × List Char)
  | '-' :: cs => takeUnsigned? true cs
  | cs => takeUnsigned? false cs

-- ---------------------------------------------------------------------------
-- Strings
-- ---------------------------------------------------------------------------

def unit? (a b c d : Char) : Option Nat := do
  let a ← hexValue? a
  let b ← hexValue? b
  let c ← hexValue? c
  let d ← hexValue? d
  some (a * 4096 + b * 256 + c * 16 + d)

def isHighSurrogate (n : Nat) : Bool := 0xD800 ≤ n && n < 0xDC00

def isLowSurrogate (n : Nat) : Bool := 0xDC00 ≤ n && n < 0xE000

def pairedChar (high low : Nat) : Char :=
  Char.ofNat (0x10000 + (high - 0xD800) * 0x400 + (low - 0xDC00))

def simpleEscape? : Char → Option Char
  | '"' => some '"'
  | '\\' => some '\\'
  | '/' => some '/'
  | 'b' => some '\x08'
  | 'f' => some '\x0c'
  | 'n' => some '\n'
  | 'r' => some '\r'
  | 't' => some '\t'
  | _ => none

inductive Piece where
  | close
  | char (c : Char)
  | unpaired

/-- The escape that starts with the given unit; a high surrogate takes in the escaped low one
after it. -/
def takeUnit (unit : Nat) (cs : List Char) : Piece × List Char :=
  if isHighSurrogate unit then
    match cs with
    | '\\' :: 'u' :: a :: b :: c :: d :: rest =>
      match unit? a b c d with
      | some low =>
        if isLowSurrogate low then (.char (pairedChar unit low), rest) else (.unpaired, cs)
      | none => (.unpaired, cs)
    | _ => (.unpaired, cs)
  else if isLowSurrogate unit then (.unpaired, cs)
  else (.char (Char.ofNat unit), cs)

def takePiece? : List Char → Option (Piece × List Char)
  | '"' :: cs => some (.close, cs)
  | '\\' :: 'u' :: a :: b :: c :: d :: cs => (unit? a b c d).map (takeUnit · cs)
  | '\\' :: c :: cs => (simpleEscape? c).map fun c => (.char c, cs)
  | c :: cs => if c = '\\' ∨ c.toNat < 0x20 then none else some (.char c, cs)
  | [] => none

/-- The rest of a string after its opening quote and the characters `read` already taken,
last one first. -/
def takeString? (read : Option (List Char)) : Nat → List Char → Option (Text × List Char)
  | 0, _ => none
  | fuel + 1, cs =>
    match takePiece? cs with
    | none => none
    | some (.close, rest) => some (read.map fun cs => .ofList cs.reverse, rest)
    | some (.char c, rest) => takeString? (read.map (c :: ·)) fuel rest
    | some (.unpaired, rest) => takeString? none fuel rest

-- ---------------------------------------------------------------------------
-- Values
-- ---------------------------------------------------------------------------

mutual

def takeValue? : Nat → List Char → Option (Json × List Char)
  | 0, _ => none
  | fuel + 1, cs =>
    match skipSpace cs with
    | 'n' :: 'u' :: 'l' :: 'l' :: rest => some (.null, rest)
    | 't' :: 'r' :: 'u' :: 'e' :: rest => some (.bool true, rest)
    | 'f' :: 'a' :: 'l' :: 's' :: 'e' :: rest => some (.bool false, rest)
    | '"' :: rest =>
      (takeString? (some []) (rest.length + 1) rest).map fun (s, rest) => (.text s, rest)
    | '[' :: rest =>
      match skipSpace rest with
      | ']' :: rest => some (.list [], rest)
      | rest => (takeItems? fuel rest).map fun (items, rest) => (.list items, rest)
    | '\x7b' :: rest =>
      match skipSpace rest with
      | '\x7d' :: rest => some (.record [], rest)
      | rest => (takeMembers? fuel rest).map fun (members, rest) => (.record members, rest)
    | rest => (takeNumber? rest).map fun (n, rest) => (.number n, rest)

def takeItems? : Nat → List Char → Option (List Json × List Char)
  | 0, _ => none
  | fuel + 1, cs =>
    match takeValue? fuel cs with
    | none => none
    | some (v, rest) =>
      match skipSpace rest with
      | ',' :: rest => (takeItems? fuel rest).map fun (vs, rest) => (v :: vs, rest)
      | ']' :: rest => some ([v], rest)
      | _ => none

def takeMembers? : Nat → List Char → Option (List (Text × Json) × List Char)
  | 0, _ => none
  | fuel + 1, cs =>
    match skipSpace cs with
    | '"' :: rest =>
      match takeString? (some []) (rest.length + 1) rest with
      | none => none
      | some (k, rest) =>
        match skipSpace rest with
        | ':' :: rest =>
          match takeValue? fuel rest with
          | none => none
          | some (v, rest) =>
            match skipSpace rest with
            | ',' :: rest => (takeMembers? fuel rest).map fun (ms, rest) => ((k, v) :: ms, rest)
            | '\x7d' :: rest => some ([(k, v)], rest)
            | _ => none
        | _ => none
    | _ => none

end

/-- Each level of nesting takes at most two units of fuel and every other unit a character. -/
def read? (s : String) : Option Json :=
  let cs := s.toList
  match takeValue? (2 * cs.length + 2) cs with
  | some (v, rest) => if (skipSpace rest).isEmpty then some v else none
  | none => none

end Tollgate.Json
