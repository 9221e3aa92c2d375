import Tollgate.Admission
import Tollgate.Json.Document
import Tollgate.Reservation.Json

/-!
# Requests, admissions and failures as JSON
-/

namespace Tollgate

def AdmissionRequest.toJson (r : AdmissionRequest) : Json :=
  .obj [("request_id", .str r.requestId), ("token_key", .str r.tokenKey), ("model", .str r.model),
    ("prompt_tokens", .int r.promptTokens)]

def AdmissionRequest.ofDocument? (d : Document) : Option AdmissionRequest := do
  let f ← Fields.of? ["request_id", "token_key", "model", "prompt_tokens"] false d
  some {
    requestId := ← f.required "request_id" Document.text?
    tokenKey := ← f.required "token_key" Document.text?
    model := ← f.required "model" Document.text?
    promptTokens := ← f.required "prompt_tokens" Document.u32? }

def ProviderFailure.toJson (f : ProviderFailure) : Json :=
  .obj [("status_code", .int f.statusCode), ("message", .str f.message)]

def ProviderFailure.ofDocument? (d : Document) : Option ProviderFailure := do
  let f ← Fields.of? ["status_code", "message"] false d
  some {
    statusCode := ← f.required "status_code" Document.u16?
    message := ← f.required "message" Document.text? }

def AdmissionError.members (e : AdmissionError) : List (String × Json) :=
  [("error", .str e.kind), ("message", .str e.message), ("status", .int e.code.httpStatus),
    ("code", .str e.code.name), ("retryable", .bool e.code.isRetryable)]

def AdmissionError.toJson (e : AdmissionError) : Json := .obj e.members

def Admission.members (a : Admission) : List (String × Json) :=
  [("request_id", .str a.requestId), ("model", .str a.model), ("user_id", .int a.userId),
    ("token_id", .int a.tokenId), ("group", .str a.group), ("channel_id", .int a.channel.id),
    ("attempts", .int a.attempts), ("reservation", a.reservation.toJson)]

end Tollgate
