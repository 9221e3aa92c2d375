import Tollgate.Json.Document
import Tollgate.Store

/-!
# Log entries and counters as JSON
-/

namespace Tollgate

def LogEntry.fieldNames : List String :=
  ["id", "created_at", "user_id", "token_id", "channel_id", "model", "prompt_tokens",
    "completion_tokens", "quota", "request_id"]

def LogEntry.timelessMembers (e : LogEntry) : List (String × Json) :=
  [("id", .int e.id), ("user_id", .int e.userId), ("token_id", .int e.tokenId),
    ("channel_id", .int e.channelId), ("model", .str e.model),
    ("prompt_tokens", .int e.promptTokens), ("completion_tokens", .int e.completionTokens),
    ("quota", .int e.quota), ("request_id", .opt .str e.requestId)]

def LogEntry.toJson (e : LogEntry) : Json :=
  .obj (("created_at", .str e.createdAt) :: e.timelessMembers)

def LogEntry.ofDocument? (d : Document) : Option LogEntry := do
  let f ← Fields.of? LogEntry.fieldNames false d
  some {
    id := ← f.required "id" Document.i64?
    createdAt := ← f.required "created_at" Document.text?
    userId := ← f.required "user_id" Document.i64?
    tokenId := ← f.required "token_id" Document.i64?
    channelId := ← f.required "channel_id" Document.i64?
    model := ← f.required "model" Document.text?
    promptTokens := ← f.required "prompt_tokens" Document.i64?
    completionTokens := ← f.required "completion_tokens" Document.i64?
    quota := ← f.required "quota" Document.i64?
    requestId := ← f.optional "request_id" Document.text? }

def Counter.ofDocument? : Document → Option Counter := Document.named? Counter.ofName?

end Tollgate
