import Tollgate.Document
import Tollgate.Json
import Tollgate.Limiter

/-!
# Strategies and decisions as JSON

Spans of time are decimal texts, since they may exceed every number that a
reader of JSON can be expected to keep.
-/

namespace Tollgate

def LimitStrategy.parameters : LimitStrategy → List Json
  | .unlimited => []
  | .fixedWindow limit _ | .slidingWindow limit _ => [.int limit]
  | .tokenBucket rate burst => [.float rate, .float burst]

def LimitStrategy.members (s : LimitStrategy) : List (String × Json) :=
  [("tag", .str s.tag), ("params", .list s.parameters), ("window_ns", .str (toString s.window)),
    ("idle_ttl_ns", .str (toString s.idleTtl)), ("name", .str s.name), ("display", .str s.display)]

def LimitStrategy.ofDocument? (d : Document) : Option LimitStrategy := do
  let f ← Fields.of? ["kind", "limit", "window_ms", "rate", "burst"] false d
  match ← f.required "kind" Document.text? with
  | "unlimited" => some .unlimited
  | "fixed" =>
    some (.fixedWindow (← f.required "limit" Document.u64?)
      (.ofMillis (← f.required "window_ms" Document.u64?)))
  | "sliding" =>
    some (.slidingWindow (← f.required "limit" Document.u64?)
      (.ofMillis (← f.required "window_ms" Document.u64?)))
  | "bucket" =>
    some (.tokenBucket (← f.required "rate" Document.float?)
      (← f.required "burst" Document.float?))
  | _ => none

def Decision.toJson (d : Decision) : Json := .list [.bool d.allowed, .int d.remaining]

def LimiterFault.toJson (f : LimiterFault) : Json :=
  .obj [("error", .str f.kind), ("message", .str f.message)]

end Tollgate
