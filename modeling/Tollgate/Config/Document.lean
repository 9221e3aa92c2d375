import Tollgate.Config
import Tollgate.Document

/-!
# The configuration as a document

Every section and field may be left out, and then takes its default; only a
price must be given in full.
-/

namespace Tollgate

open Document in
def DatabaseSettings.ofDocument? (d : Document) : Option DatabaseSettings := do
  let f ← Fields.of? ["path"] true d
  let dflt : DatabaseSettings := {}
  some { path := ← f.withDefault "path" dflt.path text? }

open Document in
def CacheSettings.ofDocument? (d : Document) : Option CacheSettings := do
  let f ← Fields.of? ["redis_url", "default_ttl_secs", "key_prefix"] true d
  let dflt : CacheSettings := {}
  some {
    redisUrl := ← f.optional "redis_url" text?
    defaultTtlSecs := ← f.withDefault "default_ttl_secs" dflt.defaultTtlSecs u64?
    keyPrefix := ← f.withDefault "key_prefix" dflt.keyPrefix text? }

open Document in
def RateLimitSettings.ofDocument? (d : Document) : Option RateLimitSettings := do
  let f ← Fields.of? ["enabled", "default_rpm", "group_rpm", "fixed_window_threshold",
    "burst_multiplier", "window_secs", "sweep_interval_secs"] true d
  let dflt : RateLimitSettings := {}
  some {
    enabled := ← f.withDefault "enabled" dflt.enabled bool?
    defaultRpm := ← f.withDefault "default_rpm" dflt.defaultRpm u32?
    groupRpm := ← f.withDefault "group_rpm" dflt.groupRpm (dict? u32?)
    fixedWindowThreshold := ← f.withDefault "fixed_window_threshold" dflt.fixedWindowThreshold u32?
    burstMultiplier := ← f.withDefault "burst_multiplier" dflt.burstMultiplier u32?
    windowSecs := ← f.withDefault "window_secs" dflt.windowSecs u64?
    sweepIntervalSecs := ← f.withDefault "sweep_interval_secs" dflt.sweepIntervalSecs u64? }

open Document in
def RoutingSettings.ofDocument? (d : Document) : Option RoutingSettings := do
  let f ← Fields.of? ["cooldown_secs", "cooldown_sweep_interval_secs", "sync_interval_secs",
    "auto_disable_enabled"] true d
  let dflt : RoutingSettings := {}
  some {
    cooldownSecs := ← f.withDefault "cooldown_secs" dflt.cooldownSecs u64?
    cooldownSweepIntervalSecs :=
      ← f.withDefault "cooldown_sweep_interval_secs" dflt.cooldownSweepIntervalSecs u64?
    syncIntervalSecs := ← f.withDefault "sync_interval_secs" dflt.syncIntervalSecs u64?
    autoDisableEnabled := ← f.withDefault "auto_disable_enabled" dflt.autoDisableEnabled bool? }

open Document in
def QuotaSettings.ofDocument? (d : Document) : Option QuotaSettings := do
  let f ← Fields.of? ["pre_consume_buffer", "trust_multiple", "batch_update_enabled",
    "batch_update_interval_secs", "remind_threshold"] true d
  let dflt : QuotaSettings := {}
  some {
    preConsumeBuffer := ← f.withDefault "pre_consume_buffer" dflt.preConsumeBuffer u32?
    trustMultiple := ← f.withDefault "trust_multiple" dflt.trustMultiple u32?
    batchUpdateEnabled := ← f.withDefault "batch_update_enabled" dflt.batchUpdateEnabled bool?
    batchUpdateIntervalSecs :=
      ← f.withDefault "batch_update_interval_secs" dflt.batchUpdateIntervalSecs u64?
    remindThreshold := ← f.withDefault "remind_threshold" dflt.remindThreshold i64? }

open Document in
def ModelPrice.ofDocument? (d : Document) : Option ModelPrice := do
  let f ← Fields.of? ["input_ratio", "output_ratio"] false d
  some {
    inputRatio := ← f.required "input_ratio" float?
    outputRatio := ← f.required "output_ratio" float? }

open Document in
def LoggingSettings.ofDocument? (d : Document) : Option LoggingSettings := do
  let f ← Fields.of? ["level", "json"] true d
  let dflt : LoggingSettings := {}
  some {
    level := ← f.withDefault "level" dflt.level text?
    json := ← f.withDefault "json" dflt.json bool? }

open Document in
def Config.ofDocument? (d : Document) : Option Config := do
  let f ← Fields.of? ["database", "cache", "rate_limit", "routing", "quota", "pricing",
    "group_ratios", "logging"] true d
  let dflt : Config := {}
  some {
    database := ← f.withDefault "database" dflt.database DatabaseSettings.ofDocument?
    cache := ← f.withDefault "cache" dflt.cache CacheSettings.ofDocument?
    rateLimit := ← f.withDefault "rate_limit" dflt.rateLimit RateLimitSettings.ofDocument?
    routing := ← f.withDefault "routing" dflt.routing RoutingSettings.ofDocument?
    quota := ← f.withDefault "quota" dflt.quota QuotaSettings.ofDocument?
    pricing := ← f.withDefault "pricing" dflt.pricing (dict? ModelPrice.ofDocument?)
    groupRatios := ← f.withDefault "group_ratios" dflt.groupRatios (dict? float?)
    logging := ← f.withDefault "logging" dflt.logging LoggingSettings.ofDocument? }

end Tollgate
