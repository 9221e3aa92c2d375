import Tollgate.Config
import Tollgate.Json

/-!
# The configuration as JSON
-/

namespace Tollgate

def Dict.toJson {α : Type} (write : α → Json) (d : Dict String α) : Json :=
  .obj (d.entries.map fun e => (e.1, write e.2))

def DatabaseSettings.toJson (d : DatabaseSettings) : Json := .obj [("path", .str d.path)]

def CacheSettings.toJson (c : CacheSettings) : Json :=
  .obj [("redis_url", .opt .str c.redisUrl), ("default_ttl_secs", .int c.defaultTtlSecs),
    ("key_prefix", .str c.keyPrefix)]

def RateLimitSettings.toJson (r : RateLimitSettings) : Json :=
  .obj [("enabled", .bool r.enabled), ("default_rpm", .int r.defaultRpm),
    ("group_rpm", r.groupRpm.toJson fun rpm : Nat => .int rpm),
    ("fixed_window_threshold", .int r.fixedWindowThreshold),
    ("burst_multiplier", .int r.burstMultiplier), ("window_secs", .int r.windowSecs),
    ("sweep_interval_secs", .int r.sweepIntervalSecs)]

def RoutingSettings.toJson (r : RoutingSettings) : Json :=
  .obj [("cooldown_secs", .int r.cooldownSecs),
    ("cooldown_sweep_interval_secs", .int r.cooldownSweepIntervalSecs),
    ("sync_interval_secs", .int r.syncIntervalSecs),
    ("auto_disable_enabled", .bool r.autoDisableEnabled)]

def QuotaSettings.toJson (q : QuotaSettings) : Json :=
  .obj [("pre_consume_buffer", .int q.preConsumeBuffer), ("trust_multiple", .int q.trustMultiple),
    ("batch_update_enabled", .bool q.batchUpdateEnabled),
    ("batch_update_interval_secs", .int q.batchUpdateIntervalSecs),
    ("remind_threshold", .int q.remindThreshold)]

def ModelPrice.toJson (p : ModelPrice) : Json :=
  .obj [("input_ratio", .float p.inputRatio), ("output_ratio", .float p.outputRatio)]

def LoggingSettings.toJson (l : LoggingSettings) : Json :=
  .obj [("level", .str l.level), ("json", .bool l.json)]

def Config.toJson (c : Config) : Json :=
  .obj [("database", c.database.toJson), ("cache", c.cache.toJson),
    ("rate_limit", c.rateLimit.toJson), ("routing", c.routing.toJson), ("quota", c.quota.toJson),
    ("pricing", c.pricing.toJson ModelPrice.toJson), ("group_ratios", c.groupRatios.toJson .float),
    ("logging", c.logging.toJson)]

end Tollgate
