import Tollgate.Json
import Tollgate.Routing.Chooser

/-!
# Tiers and reports as JSON
-/

namespace Tollgate

def Tier.toJson (t : Tier) : Json :=
  .list [.int t.priority, .list (t.channelIds.map .int)]

def LoadReport.toJson (r : LoadReport) : Json :=
  .obj [("channels", .int r.channels), ("groups", .int r.groups)]

def RoutingError.toJson (e : RoutingError) : Json :=
  .obj [("error", .str e.kind), ("message", .str e.message)]

end Tollgate
