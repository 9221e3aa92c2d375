import Tollgate.Decimal.Shortest
import Tollgate.Json

/-!
# Writing JSON

The compact form: no spaces, members in their order, only the quote, the
backslash and the control characters escaped. Doubles have the fewest digits
that read back, and those that are not finite are null.
-/

namespace Tollgate.Json

def hexDigit (n : Nat) : Char :=
  if n < 10 then Char.ofNat ('0'.toNat + n) else Char.ofNat ('a'.toNat + (n - 10))

def escapeChar (c : Char) : List Char :=
  if c = '"' then ['\\', '"']
  else if c = '\\' then ['\\', '\\']
  else if c = '\n' then ['\\', 'n']
  else if c = '\r' then ['\\', 'r']
  else if c = '\t' then ['\\', 't']
  else if c = '\x08' then ['\\', 'b']
  else if c = '\x0c' then ['\\', 'f']
  else if c.toNat < 0x20 then
    ['\\', 'u', '0', '0', hexDigit (c.toNat / 16), hexDigit (c.toNat % 16)]
  else [c]

def quote (s : String) : String :=
  .ofList ('"' :: (s.toList.flatMap escapeChar ++ ['"']))

def Number.render : Number → String
  | .integer negative n => (if negative then "-" else "") ++ toString n
  | .decimal negative whole places e =>
    (if negative then "-" else "") ++ .ofList whole ++
      (if places.isEmpty then "" else "." ++ .ofList places) ++ "e" ++ toString e

def renderFloat (x : Float) : String := (Binary.ofFloat? x).elim "null" Decimal.shortestText

mutual

def render : Json → String
  | .null => "null"
  | .bool true => "true"
  | .bool false => "false"
  | .number n => n.render
  | .float x => renderFloat x
  | .text s => quote (s.getD "")
  | .list items => "[" ++ renderItems items ++ "]"
  | .record members => "\x7b" ++ renderMembers members ++ "\x7d"

def renderItems : List Json → String
  | [] => ""
  | [v] => v.render
  | v :: w :: rest => v.render ++ "," ++ renderItems (w :: rest)

def renderMembers : List (Text × Json) → String
  | [] => ""
  | [(k, v)] => quote (k.getD "") ++ ":" ++ v.render
  | (k, v) :: w :: rest => quote (k.getD "") ++ ":" ++ v.render ++ "," ++ renderMembers (w :: rest)

end

end Tollgate.Json
