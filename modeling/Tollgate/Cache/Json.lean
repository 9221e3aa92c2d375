import Tollgate.Cache
import Tollgate.Json

/-!
# Outcomes of the cache as JSON
-/

namespace Tollgate

def CacheDraw.toJson : CacheDraw → Json
  | .missing => .str "missing"
  | .insufficient balance => .obj [("insufficient", .int balance)]
  | .applied before => .obj [("applied", .int before)]

def CacheFault.toJson (f : CacheFault) : Json :=
  .obj [("error", .str f.kind), ("message", .str f.message)]

end Tollgate
