import Tollgate.Config
import Tollgate.Decimal.Binary
import Tollgate.Word

/-!
# Prices

A request costs quota by its tokens, the price of the model and the ratio of
the user's group. The quote is fixed when quota is reserved and settles the
request later, whatever has become of the price list since.
-/

namespace Tollgate

structure Usage where
  promptTokens : Nat
  completionTokens : Nat
deriving DecidableEq, Repr

structure Quote where
  inputRatio : Float
  outputRatio : Float
  groupRatio : Float

/-- A sum in whole terms by way of `f`: nothing where it is below zero or no number at all, and none
where it is infinite. -/
def wholeSum? (f : Binary → Nat) (sum : Float) : Option Nat :=
  match Binary.ofFloat? sum with
  | none => if 0.0 < sum then none else some 0
  | some b => some (if b.negative then 0 else f b)

/-- Rounds a sum up to whole quota after shaving off what float arithmetic added beyond the sixth
decimal. Sums below zero and no number at all cost nothing, sums beyond the range of words the
largest one. -/
@[irreducible]
def wholeQuota (sum : Float) : Nat :=
  let quota := do
    let micros ← wholeSum? Binary.roundHalfUp (sum * 1000000.0)
    wholeSum? Binary.ceiling (Float.ofNat micros / 1000000.0)
  min (quota.getD Word.greatest.toNat) Word.greatest.toNat

namespace Quote

def estimate (q : Quote) (promptTokens buffer : Nat) : Nat :=
  let tokens := Float.ofNat promptTokens + Float.ofNat buffer
  wholeQuota (tokens * q.inputRatio * q.groupRatio)

def isFree (q : Quote) : Bool :=
  q.groupRatio == 0.0 || (q.inputRatio == 0.0 && q.outputRatio == 0.0)

def cost (q : Quote) (usage : Usage) : Nat :=
  let sum := Float.ofNat usage.promptTokens * q.inputRatio +
    Float.ofNat usage.completionTokens * q.outputRatio
  let cost := wholeQuota (sum * q.groupRatio)
  if !q.isFree && cost = 0 then 1 else cost

end Quote

structure PriceList where
  prices : Dict String ModelPrice := .empty
  fallback : Option ModelPrice := none

namespace PriceList

def price? (p : PriceList) (model : String) : Option ModelPrice :=
  (p.prices.get? model).or p.fallback

def insert (p : PriceList) (model : String) (price : ModelPrice) : PriceList :=
  { p with prices := p.prices.set model price }

end PriceList

abbrev GroupRatios := Dict String Float

def GroupRatios.ratio (r : GroupRatios) (group : String) : Float := r.getD group 1.0

end Tollgate
