import Tollgate.Time

/-!
# Background tasks

Work that comes due at regular times, the first time one period after the
task was started.
-/

namespace Tollgate

inductive TaskKind where
  | batchFlush
  | cooldownSweep
  | routingSync
  | limiterSweep
  | cachePurge
deriving DecidableEq, Repr

def TaskKind.name : TaskKind → String
  | .batchFlush => "batch_flush"
  | .cooldownSweep => "cooldown_sweep"
  | .routingSync => "routing_sync"
  | .limiterSweep => "limiter_sweep"
  | .cachePurge => "cache_purge"

/-- Of two tasks that are due at the same time, the one with the earlier `turn` comes first: the one
that has waited longer. -/
structure Task where
  kind : TaskKind
  period : Duration
  due : Time
  turn : Nat
deriving DecidableEq, Repr

namespace Task

/-- The end of the clock, which counts its seconds in a signed word and had run for a while before
the gateway started. -/
def horizon : Time := Duration.ofSecs (1 <<< 63 - 86400)

/-- Thirty years: what is put off past the end of the clock comes due by then. -/
def farOff : Duration := Duration.ofSecs (30 * 365 * 86400)

def dueAfter (period : Duration) (time : Time) : Time :=
  if time + period < horizon then time + period else time + farOff

def periodOfSecs (secs : Nat) : Duration := Duration.ofSecs (max secs 1)

def lastTurn (tasks : List Task) : Nat := (tasks.map (·.turn + 1)).foldl max 0

def start (kind : TaskKind) (period : Duration) (now : Time) (tasks : List Task) : List Task :=
  tasks ++ [⟨kind, period, dueAfter period now, lastTurn tasks⟩]

def next (t : Task) (tasks : List Task) : Task :=
  { t with due := dueAfter t.period t.due, turn := lastTurn tasks }

def isBefore (t u : Task) : Bool := t.due < u.due || (t.due = u.due && t.turn < u.turn)

def runsUntil (t : Task) (time : Time) : Nat :=
  if t.due ≤ time then (time - t.due) / min t.period farOff + 1 else 0

end Task

def nextDue (time : Time) (tasks : List Task) : Option (Task × List Task) := do
  let i ← tasks.findIdx? fun t => t.due ≤ time && !tasks.any (·.isBefore t)
  let t ← tasks[i]?
  return (t, tasks.set i (t.next tasks))

structure TaskGroup where
  names : List String := []
deriving DecidableEq, Repr

namespace TaskGroup

def push (t : TaskGroup) (name : String) : TaskGroup := ⟨t.names ++ [name]⟩

def shutdown (_ : TaskGroup) : TaskGroup := {}

def history (names : List String) (shutdowns : Nat) : List TaskGroup :=
  (List.range (names.length + 1)).map (fun n => ⟨names.take n⟩) ++
    (List.range shutdowns).map fun _ => shutdown ⟨names⟩

def size (t : TaskGroup) : Nat := t.names.length

def isEmpty (t : TaskGroup) : Bool := t.names.isEmpty

end TaskGroup

end Tollgate
