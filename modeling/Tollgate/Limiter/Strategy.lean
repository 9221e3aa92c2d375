import Tollgate.Config
import Tollgate.Decimal.Fixed
import Tollgate.Time

/-!
# Limiting strategies

How requests are limited, and which strategy a number of requests per minute
stands for.
-/

namespace Tollgate

/-- A fixed window grants `limit` units and then opens anew; a sliding one grants `limit` units in
any interval of its length; a bucket gains `rate` units a second and holds `burst`. -/
inductive LimitStrategy where
  | unlimited
  | fixedWindow (limit : Nat) (window : Duration)
  | tokenBucket (rate burst : Float)
  | slidingWindow (limit : Nat) (window : Duration)

def maxNumber (a b : Float) : Float := if a.isNaN || a < b then b else a

def minNumber (a b : Float) : Float := if a.isNaN || b < a then b else a

def Duration.ofSeconds (secs : Float) : Duration :=
  match Binary.ofFloat? secs with
  | none => 0
  | some b => b.scaled 1000000000

namespace LimitStrategy

/-- No limit for 0, windows up to the threshold, a bucket above it. The limit of a window is in
proportion to its length, rounded up. -/
def forRpm (rpm : Nat) (c : RateLimitSettings) : LimitStrategy :=
  if rpm = 0 then .unlimited
  else if rpm ≤ c.fixedWindowThreshold then
    let secs := max c.windowSecs 1
    .fixedWindow (max ((rpm * secs % UInt64.size + 59) / 60) 1) (Duration.ofSecs secs)
  else
    let rate := Float.ofNat rpm / 60.0
    .tokenBucket rate (rate * Float.ofNat (max c.burstMultiplier 1))

def tag : LimitStrategy → String
  | .unlimited => "none"
  | .fixedWindow .. => "fw"
  | .tokenBucket .. => "tb"
  | .slidingWindow .. => "sw"

def window : LimitStrategy → Duration
  | .unlimited => 0
  | .fixedWindow _ window | .slidingWindow _ window => window
  | .tokenBucket rate burst =>
    if 0.0 < rate then Duration.ofSeconds (maxNumber (burst / rate) 1.0) else Duration.ofSecs 60

def idleTtl (s : LimitStrategy) : Duration := 2 * s.window

def name : LimitStrategy → String
  | .unlimited => "不限流"
  | .fixedWindow .. => "固定窗口"
  | .tokenBucket .. => "令牌桶"
  | .slidingWindow .. => "滑动窗口"

def display (s : LimitStrategy) : String :=
  match s with
  | .unlimited => s.name
  | .fixedWindow limit window | .slidingWindow limit window =>
    s.name ++ "(" ++ toString limit ++ "/" ++ toString window.wholeSecs ++ "s)"
  | .tokenBucket rate burst =>
    s.name ++ "(" ++ Decimal.fixed 2 rate ++ "/s, burst " ++ Decimal.fixed 0 burst ++ ")"

end LimitStrategy

end Tollgate
