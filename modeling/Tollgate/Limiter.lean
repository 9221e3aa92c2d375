import Tollgate.Dict
import Tollgate.Limiter.Key
import Tollgate.Limiter.Slot

/-!
# The rate limiter

One slot for each key, made when the key is first seen and forgotten once it
has been idle. A request that the limiter cannot decide is refused.
-/

namespace Tollgate

inductive LimiterFault where
  | backend (reason : String)
  | script (reason : String)
deriving DecidableEq, Repr

def LimiterFault.kind : LimiterFault → String
  | .backend _ => "Backend"
  | .script _ => "Script"

def LimiterFault.message : LimiterFault → String
  | .backend reason => "限流后端不可用: " ++ reason
  | .script reason => "限流脚本执行失败: " ++ reason

/-- `calls` counts the requests that were put to the slots, `failing` or not. -/
structure Limiter where
  slots : Dict LimiterKey LimiterSlot := .empty
  failing : Bool := false
  calls : Nat := 0

namespace Limiter

instance : Inhabited Limiter := ⟨{}⟩

def name : String := "memory"

def acquire (l : Limiter) (now : Time) (key : LimiterKey) (strategy : LimitStrategy) (n : Nat) :
    Except LimiterFault Decision × Limiter :=
  let l := { l with calls := l.calls + 1 }
  if l.failing then (.error (.backend "connection refused"), l)
  else
    let (decision, slot) := (l.slots.getD key (.fresh now)).acquire strategy n now
    (.ok decision, { l with slots := l.slots.set key slot })

/-- As `acquire`, but without a limit nothing is asked. -/
def check (l : Limiter) (now : Time) (key : LimiterKey) (strategy : LimitStrategy) (n : Nat) :
    Except LimiterFault Decision × Limiter :=
  match strategy with
  | .unlimited => (.ok ⟨true, UInt64.size - 1⟩, l)
  | _ => l.acquire now key strategy n

def allow (l : Limiter) (now : Time) (key : LimiterKey) (strategy : LimitStrategy) (n : Nat) :
    Bool × Limiter :=
  match l.check now key strategy n with
  | (.ok decision, l) => (decision.allowed, l)
  | (.error _, l) => (false, l)

def drain (l : Limiter) (now : Time) (key : LimiterKey) (strategy : LimitStrategy) :
    Nat → Nat × Limiter
  | 0 => (0, l)
  | bound + 1 =>
    match l.allow now key strategy 1 with
    | (false, l) => (0, l)
    | (true, l) =>
      let (granted, l) := drain l now key strategy bound
      (granted + 1, l)

def sweep (l : Limiter) (now : Time) : Limiter :=
  { l with slots := l.slots.filter fun _ s => !s.isIdle now }

end Limiter

end Tollgate
