import Tollgate.Dict
import Tollgate.Text.Blank
import Tollgate.Text.Integer

/-!
# Configuration

Every setting of the gateway with its default, what makes a configuration
invalid, and the settings that the environment overrides.
-/

namespace Tollgate

structure DatabaseSettings where
  path : String := "relaycast.db"
deriving BEq

structure CacheSettings where
  redisUrl : Option String := none
  defaultTtlSecs : Nat := 60
  keyPrefix : String := "relaycast"
deriving BEq

/-- Up to `fixedWindowThreshold` requests a minute are counted in windows, more flow through a
bucket that holds `burstMultiplier` seconds' worth. -/
structure RateLimitSettings where
  enabled : Bool := true
  defaultRpm : Nat := 60
  groupRpm : Dict String Nat := .empty
  fixedWindowThreshold : Nat := 60
  burstMultiplier : Nat := 10
  windowSecs : Nat := 60
  sweepIntervalSecs : Nat := 60
deriving BEq

def RateLimitSettings.rpmFor (r : RateLimitSettings) (group : String) : Nat :=
  r.groupRpm.getD group r.defaultRpm

/-- Routes are never refreshed where `syncIntervalSecs` is 0. -/
structure RoutingSettings where
  cooldownSecs : Nat := 60
  cooldownSweepIntervalSecs : Nat := 3600
  syncIntervalSecs : Nat := 60
  autoDisableEnabled : Bool := true
deriving BEq

/-- A balance above `trustMultiple` times the estimate spares the token its reservation; 0 trusts
nobody. -/
structure QuotaSettings where
  preConsumeBuffer : Nat := 500
  trustMultiple : Nat := 100
  batchUpdateEnabled : Bool := false
  batchUpdateIntervalSecs : Nat := 5
  remindThreshold : Int := 5000
deriving BEq

structure ModelPrice where
  inputRatio : Float
  outputRatio : Float
deriving BEq

structure LoggingSettings where
  level : String := "info"
  json : Bool := false
deriving BEq

structure Config where
  database : DatabaseSettings := {}
  cache : CacheSettings := {}
  rateLimit : RateLimitSettings := {}
  routing : RoutingSettings := {}
  quota : QuotaSettings := {}
  pricing : Dict String ModelPrice := .empty
  groupRatios : Dict String Float := .empty
  logging : LoggingSettings := {}
deriving BEq

inductive ConfigFlaw where
  | zeroWindow
  | zeroBurst
  | negativePrice (model : String)
  | negativeRatio (group : String)
deriving DecidableEq, Repr

def ConfigFlaw.message : ConfigFlaw → String
  | .zeroWindow => "rate_limit.window_secs 不能为 0"
  | .zeroBurst => "rate_limit.burst_multiplier 不能为 0"
  | .negativePrice model => "模型 " ++ model ++ " 的倍率不能为负数"
  | .negativeRatio group => "分组 " ++ group ++ " 的倍率不能为负数"

namespace Config

def flaw? (c : Config) : Option ConfigFlaw :=
  if c.rateLimit.windowSecs = 0 then some .zeroWindow
  else if c.rateLimit.burstMultiplier = 0 then some .zeroBurst
  else
    match c.pricing.entries.find? fun e => e.2.inputRatio < 0.0 || e.2.outputRatio < 0.0 with
    | some (model, _) => some (.negativePrice model)
    | none =>
      match c.groupRatios.entries.find? fun e => e.2 < 0.0 with
      | some (group, _) => some (.negativeRatio group)
      | none => none

def validate (c : Config) : Except ConfigFlaw Unit :=
  match c.flaw? with
  | some flaw => .error flaw
  | none => .ok ()

/-- A blank address clears the setting, and a number of requests that is none is passed over. -/
def withEnvironment (c : Config) (lookup : String → Option String) : Config :=
  let c := match lookup "RELAYCAST_DB_PATH" with
    | some path => { c with database.path := path }
    | none => c
  let c := match lookup "RELAYCAST_REDIS_URL" with
    | some url => { c with cache.redisUrl := if Text.isAllBlank url then none else some url }
    | none => c
  let c := match lookup "RELAYCAST_LOG_LEVEL" with
    | some level => { c with logging.level := level }
    | none => c
  match (lookup "RELAYCAST_DEFAULT_RPM").bind (Text.readUnsigned? ·.toList) with
  | some rpm => if rpm < UInt32.size then { c with rateLimit.defaultRpm := rpm } else c
  | none => c

end Config

end Tollgate
