import Tollgate.Json.Document
import Tollgate.Pricing

/-!
# Usage and quotes as JSON
-/

namespace Tollgate

def Usage.toJson (u : Usage) : Json :=
  .obj [("prompt_tokens", .int u.promptTokens), ("completion_tokens", .int u.completionTokens)]

def Usage.ofDocument? (d : Document) : Option Usage := do
  let f ← Fields.of? ["prompt_tokens", "completion_tokens"] false d
  some {
    promptTokens := ← f.required "prompt_tokens" Document.u32?
    completionTokens := ← f.required "completion_tokens" Document.u32? }

def Quote.toJson (q : Quote) : Json :=
  .obj [("input_ratio", .float q.inputRatio), ("output_ratio", .float q.outputRatio),
    ("group_ratio", .float q.groupRatio)]

def Quote.ofDocument? (d : Document) : Option Quote := do
  let f ← Fields.of? ["input_ratio", "output_ratio", "group_ratio"] false d
  some {
    inputRatio := ← f.required "input_ratio" Document.float?
    outputRatio := ← f.required "output_ratio" Document.float?
    groupRatio := ← f.required "group_ratio" Document.float? }

end Tollgate
