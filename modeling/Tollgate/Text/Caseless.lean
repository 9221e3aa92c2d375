/-!
# Searching without regard to case

A message is searched for markers written in lower-case ASCII or in a script
without case. Lower-casing the message then matters only where it yields an
ASCII letter: besides the letters `A` to `Z` that is the Kelvin sign and the
capital I with a dot above, which leaves its dot behind as a combining mark.
-/

namespace Tollgate.Text

def lowerChar (c : Char) : List Char :=
  if 'A' ≤ c ∧ c ≤ 'Z' then [Char.ofNat (c.toNat + 32)]
  else if c = '\u212A' then ['k']
  else if c = '\u0130' then ['i', '\u0307']
  else [c]

def occurs (needle : List Char) : List Char → Bool
  | [] => needle.isEmpty
  | c :: rest => needle.isPrefixOf (c :: rest) || occurs needle rest

def mentions (message marker : String) : Bool :=
  occurs marker.toList (message.toList.flatMap lowerChar)

end Tollgate.Text
