import Tollgate.Limiter.Strategy

/-!
# Limiter slots

The state kept for one key, and what one request of `n` units does to it. A
state of another strategy counts for nothing.
-/

namespace Tollgate

/-- `remaining` is what may still be asked for after the decision. -/
structure Decision where
  allowed : Bool
  remaining : Nat
deriving DecidableEq, Repr

/-- `sliding` lists the grants still in the window, oldest first, each with its units. -/
inductive Meter where
  | fixed (start : Time) (count : Nat)
  | bucket (tokens : Float) (refilled : Time)
  | sliding (grants : List (Time × Nat))

namespace Meter

def fixedState (m : Option Meter) (window : Duration) (now : Time) : Time × Nat :=
  match m with
  | some (.fixed start count) => if now - start < window then (start, count) else (now, 0)
  | _ => (now, 0)

/-- The count is a 64-bit word, and what is added to it may wrap. -/
def acquireFixed (m : Option Meter) (limit : Nat) (window : Duration) (n : Nat) (now : Time) :
    Decision × Meter :=
  let (start, count) := fixedState m window now
  let used := (count + n) % UInt64.size
  if limit < used then (⟨false, limit - count⟩, .fixed start count)
  else (⟨true, limit - used⟩, .fixed start used)

def wholeTokens (tokens : Float) : Nat := tokens.floor.toUInt64.toNat

def acquireBucket (m : Option Meter) (rate burst : Float) (n : Nat) (now : Time) :
    Decision × Meter :=
  let (tokens, refilled) := match m with
    | some (.bucket tokens refilled) => (tokens, refilled)
    | _ => (burst, now)
  let tokens := minNumber (tokens + Duration.secs (now - refilled) * rate) burst
  let needed := Float.ofNat n
  if needed ≤ tokens then
    (⟨true, wholeTokens (tokens - needed)⟩, .bucket (tokens - needed) now)
  else (⟨false, wholeTokens tokens⟩, .bucket tokens now)

def units (grants : List (Time × Nat)) : Nat := grants.foldr (·.2 + ·) 0

def recent (grants : List (Time × Nat)) (window : Duration) (now : Time) : List (Time × Nat) :=
  grants.dropWhile fun g => window ≤ now - g.1

def acquireSliding (m : Option Meter) (limit : Nat) (window : Duration) (n : Nat) (now : Time) :
    Decision × Meter :=
  let grants := match m with
    | some (.sliding grants) => recent grants window now
    | _ => []
  let count := units grants
  if limit < count + n then (⟨false, limit - count⟩, .sliding grants)
  else (⟨true, limit - count - n⟩, .sliding (grants ++ [(now, n)]))

end Meter

structure LimiterSlot where
  meter : Option Meter
  lastSeen : Time
  idleTtl : Duration

namespace LimiterSlot

def fresh (now : Time) : LimiterSlot := ⟨none, now, 0⟩

def isIdle (s : LimiterSlot) (now : Time) : Bool := s.idleTtl < now - s.lastSeen

def acquire (s : LimiterSlot) (strategy : LimitStrategy) (n : Nat) (now : Time) :
    Decision × LimiterSlot :=
  let (decision, meter) := match strategy with
    | .unlimited => (⟨true, UInt64.size - 1⟩, s.meter)
    | .fixedWindow limit window => (Meter.acquireFixed s.meter limit window n now).map id some
    | .tokenBucket rate burst => (Meter.acquireBucket s.meter rate burst n now).map id some
    | .slidingWindow limit window => (Meter.acquireSliding s.meter limit window n now).map id some
  (decision, ⟨meter, now, strategy.idleTtl⟩)

end LimiterSlot

end Tollgate
