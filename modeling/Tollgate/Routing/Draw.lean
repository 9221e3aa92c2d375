/-!
# Weighted draws

A random source is a list of 64-bit words, followed by zeros for ever. A
bounded draw scales a word to the bound and rejects the words that would
favour some results; `pick` then finds the result's place among the weights.
`drawn` counts the words that have been used up.
-/

namespace Tollgate

structure RandomSource where
  words : List UInt64 := []
  drawn : Nat := 0

namespace RandomSource

/-- The greatest fraction that a draw below `total` accepts: the bound, shifted so that its top
bit is bit 63, less one. -/
def zone (total : Nat) : Nat := total <<< (63 - Nat.log2 total) - 1

def accepts (total word : Nat) : Bool := word * total % UInt64.size ≤ zone total

def drawFrom (total : Nat) : List UInt64 → Nat × List UInt64
  | [] => (0, [])
  | w :: rest =>
    if accepts total w.toNat then (w.toNat * total / UInt64.size, rest) else drawFrom total rest

def taken (total : Nat) : List UInt64 → Nat
  | [] => 1
  | w :: rest => if accepts total w.toNat then 1 else taken total rest + 1

def below (r : RandomSource) (total : Nat) : Nat × RandomSource :=
  let (n, rest) := drawFrom total r.words
  (n, ⟨rest, r.drawn + taken total r.words⟩)

end RandomSource

namespace Weights

def total (ws : List Nat) : Nat := ws.foldr (· + ·) 0 % UInt64.size

/-- The place whose weight, with those before it, first exceeds `r`. -/
def place? (r : Nat) : List Nat → Option Nat
  | [] => none
  | w :: ws => if r < w then some 0 else (place? (r - w) ws).map (· + 1)

/-- Draws a place with a chance in proportion to its weight; nothing is drawn where the weights
come to zero. -/
def pick (ws : List Nat) (r : RandomSource) : Option Nat × RandomSource :=
  if total ws = 0 then (none, r)
  else
    let (n, r) := r.below (total ws)
    (place? n ws, r)

end Weights

end Tollgate
