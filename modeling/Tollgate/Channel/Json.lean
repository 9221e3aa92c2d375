import Tollgate.Channel
import Tollgate.Json.Document
import Tollgate.Json.Printer

/-!
# Channels and abilities as JSON

The credential of a channel is read but never written.
-/

namespace Tollgate

def Channel.fieldNames : List String :=
  ["id", "name", "key", "base_url", "status", "weight", "priority", "group", "models", "proxy",
    "used_quota", "auto_ban"]

def Channel.toJson (c : Channel) : Json :=
  .obj [("id", .int c.id), ("name", .str c.name), ("base_url", .opt .str c.baseUrl),
    ("status", .str c.status.name), ("weight", .int c.weight), ("priority", .int c.priority),
    ("group", .str c.group), ("models", .str c.models), ("proxy", .opt .str c.proxy),
    ("used_quota", .int c.usedQuota), ("auto_ban", .bool c.autoBan)]

def Channel.ofDocument? (d : Document) : Option Channel := do
  let f ← Fields.of? Channel.fieldNames false d
  some {
    id := ← f.required "id" Document.i64?
    name := ← f.required "name" Document.text?
    key := ← f.withDefault "key" "" Document.text?
    baseUrl := ← f.optional "base_url" Document.text?
    status := ← f.required "status" (Document.named? ChannelStatus.ofName?)
    weight := ← f.required "weight" Document.u32?
    priority := ← f.required "priority" Document.i64?
    group := ← f.required "group" Document.text?
    models := ← f.required "models" Document.text?
    proxy := ← f.optional "proxy" Document.text?
    usedQuota := ← f.required "used_quota" Document.i64?
    autoBan := ← f.required "auto_ban" Document.bool? }

def Ability.fieldNames : List String :=
  ["group", "model", "channel_id", "enabled", "priority", "weight"]

def Ability.toJson (a : Ability) : Json :=
  .obj [("group", .str a.group), ("model", .str a.model), ("channel_id", .int a.channelId),
    ("enabled", .bool a.enabled), ("priority", .int a.priority), ("weight", .int a.weight)]

def Ability.ofDocument? (d : Document) : Option Ability := do
  let f ← Fields.of? Ability.fieldNames false d
  some {
    group := ← f.required "group" Document.text?
    model := ← f.required "model" Document.text?
    channelId := ← f.required "channel_id" Document.i64?
    enabled := ← f.required "enabled" Document.bool?
    priority := ← f.required "priority" Document.i64?
    weight := ← f.required "weight" Document.u32? }

end Tollgate
