import Tollgate.Config.Document
import Tollgate.Yaml.Printer
import Tollgate.Yaml.Reader

/-!
# The configuration as YAML

A configuration is validated as it is read, so whatever is read is valid.
-/

namespace Tollgate

inductive ConfigFault where
  | unreadable
  | malformed
  | invalid (flaw : ConfigFlaw)
deriving DecidableEq, Repr

def ConfigFault.kind : ConfigFault → String
  | .unreadable => "Io"
  | .malformed => "Parse"
  | .invalid _ => "Invalid"

def ConfigFault.message? : ConfigFault → Option String
  | .invalid flaw => some ("配置项无效: " ++ flaw.message)
  | _ => none

namespace Config

def ofYaml (text : String) : Except ConfigFault Config := do
  let some config := Yaml.readDocument? text >>= ofDocument? | throw .malformed
  match config.flaw? with
  | some flaw => throw (.invalid flaw)
  | none => return config

def dictYaml {α : Type} (write : α → Yaml) (d : Dict String α) : Yaml :=
  .record (d.entries.map fun e => (e.1, write e.2))

def priceYaml (p : ModelPrice) : Yaml :=
  .record [("input_ratio", .float p.inputRatio), ("output_ratio", .float p.outputRatio)]

def toYaml (c : Config) : String :=
  Yaml.renderDocument [
    ("database", .record [("path", .text c.database.path)]),
    ("cache", .record [
      ("redis_url", c.cache.redisUrl.elim Yaml.null Yaml.text),
      ("default_ttl_secs", .int c.cache.defaultTtlSecs),
      ("key_prefix", .text c.cache.keyPrefix)]),
    ("rate_limit", .record [
      ("enabled", .bool c.rateLimit.enabled),
      ("default_rpm", .int c.rateLimit.defaultRpm),
      ("group_rpm", dictYaml (fun rpm : Nat => .int rpm) c.rateLimit.groupRpm),
      ("fixed_window_threshold", .int c.rateLimit.fixedWindowThreshold),
      ("burst_multiplier", .int c.rateLimit.burstMultiplier),
      ("window_secs", .int c.rateLimit.windowSecs),
      ("sweep_interval_secs", .int c.rateLimit.sweepIntervalSecs)]),
    ("routing", .record [
      ("cooldown_secs", .int c.routing.cooldownSecs),
      ("cooldown_sweep_interval_secs", .int c.routing.cooldownSweepIntervalSecs),
      ("sync_interval_secs", .int c.routing.syncIntervalSecs),
      ("auto_disable_enabled", .bool c.routing.autoDisableEnabled)]),
    ("quota", .record [
      ("pre_consume_buffer", .int c.quota.preConsumeBuffer),
      ("trust_multiple", .int c.quota.trustMultiple),
      ("batch_update_enabled", .bool c.quota.batchUpdateEnabled),
      ("batch_update_interval_secs", .int c.quota.batchUpdateIntervalSecs),
      ("remind_threshold", .int c.quota.remindThreshold)]),
    ("pricing", dictYaml priceYaml c.pricing),
    ("group_ratios", dictYaml .float c.groupRatios),
    ("logging", .record [
      ("level", .text c.logging.level),
      ("json", .bool c.logging.json)])]

end Config

end Tollgate
