import Tollgate.Dict
import Tollgate.Time

/-!
# Cooldowns

After a failure a channel rests for the model that failed, until the latest
expiry that any mark has set.
-/

namespace Tollgate

/-- `expiries` may hold marks that are over until they are swept. -/
structure Cooldowns where
  expiries : Dict (Int × String) Time := .empty
  defaultTtl : Duration := 0
deriving DecidableEq

namespace Cooldowns

instance : Inhabited Cooldowns := ⟨{}⟩

def markFor (c : Cooldowns) (now : Time) (channelId : Int) (model : String) (ttl : Duration) :
    Cooldowns :=
  { c with expiries := c.expiries.adjust (channelId, model) 0 (max · (now + ttl)) }

def mark (c : Cooldowns) (now : Time) (channelId : Int) (model : String) : Cooldowns :=
  c.markFor now channelId model c.defaultTtl

def isCooling (c : Cooldowns) (now : Time) (channelId : Int) (model : String) : Bool :=
  now < c.expiries.getD (channelId, model) 0

def clear (c : Cooldowns) (channelId : Int) (model : String) : Cooldowns :=
  { c with expiries := c.expiries.erase (channelId, model) }

def sweep (c : Cooldowns) (now : Time) : Cooldowns :=
  { c with expiries := c.expiries.filter fun _ expiry => now < expiry }

def size (c : Cooldowns) : Nat := c.expiries.size

end Cooldowns

end Tollgate
