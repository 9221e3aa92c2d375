import Tollgate.Json.Document
import Tollgate.Reply

/-!
# Replies as JSON
-/

namespace Tollgate

def ErrorCode.ofDocument? : Document → Option ErrorCode := Document.named? ErrorCode.ofName?

def Reply.fieldNames : List String := ["code", "message", "retryable", "requestId"]

def Reply.toJson (r : Reply) : Json :=
  .obj ([("code", .str r.code.name), ("message", .str r.message), ("retryable", .bool r.retryable)]
    ++ (r.requestId.map fun id => ("requestId", Json.str id)).toList)

def Reply.ofDocument? (d : Document) : Option Reply := do
  let f ← Fields.of? Reply.fieldNames false d
  some {
    code := ← f.required "code" ErrorCode.ofDocument?
    message := ← f.required "message" Document.text?
    retryable := ← f.required "retryable" Document.bool?
    requestId := ← f.optional "requestId" Document.text? }

end Tollgate
