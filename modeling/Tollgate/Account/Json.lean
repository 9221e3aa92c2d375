import Tollgate.Account
import Tollgate.Json.Document
import Tollgate.Json.Printer

/-!
# Users and tokens as JSON
-/

namespace Tollgate

def User.fieldNames : List String :=
  ["id", "username", "group", "quota", "used_quota", "request_count", "status", "email"]

def User.toJson (u : User) : Json :=
  .obj [("id", .int u.id), ("username", .str u.username), ("group", .str u.group),
    ("quota", .int u.quota), ("used_quota", .int u.usedQuota),
    ("request_count", .int u.requestCount), ("status", .str u.status.name),
    ("email", .opt .str u.email)]

def User.ofDocument? (d : Document) : Option User := do
  let f ← Fields.of? User.fieldNames false d
  some {
    id := ← f.required "id" Document.i64?
    username := ← f.required "username" Document.text?
    group := ← f.required "group" Document.text?
    quota := ← f.required "quota" Document.i64?
    usedQuota := ← f.required "used_quota" Document.i64?
    requestCount := ← f.required "request_count" Document.i64?
    status := ← f.required "status" (Document.named? UserStatus.ofName?)
    email := ← f.optional "email" Document.text? }

def Token.fieldNames : List String :=
  ["id", "user_id", "key", "name", "status", "remain_quota", "unlimited_quota", "used_quota",
    "expired_time"]

def Token.toJson (t : Token) : Json :=
  .obj [("id", .int t.id), ("user_id", .int t.userId), ("key", .str t.key), ("name", .str t.name),
    ("status", .str t.status.name), ("remain_quota", .int t.remainQuota),
    ("unlimited_quota", .bool t.unlimited), ("used_quota", .int t.usedQuota),
    ("expired_time", .int t.expiredTime)]

def Token.ofDocument? (d : Document) : Option Token := do
  let f ← Fields.of? Token.fieldNames false d
  some {
    id := ← f.required "id" Document.i64?
    userId := ← f.required "user_id" Document.i64?
    key := ← f.required "key" Document.text?
    name := ← f.required "name" Document.text?
    status := ← f.required "status" (Document.named? TokenStatus.ofName?)
    remainQuota := ← f.required "remain_quota" Document.i64?
    unlimited := ← f.required "unlimited_quota" Document.bool?
    usedQuota := ← f.required "used_quota" Document.i64?
    expiredTime := ← f.required "expired_time" Document.i64? }

end Tollgate
