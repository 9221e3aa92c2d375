import Tollgate.Admission.Error
import Tollgate.Ledger
import Tollgate.Limiter
import Tollgate.Task

/-!
# The gateway

The whole state of a running gateway. Settlements and refunds that have been
started but not performed are in flight; `settle` performs them. Time passes
by `advance`, which runs the background tasks at the times they come due.
-/

namespace Tollgate

/-- `random` feeds the gateway's own draws; `unixNow` is the wall clock in seconds, by which
tokens expire. -/
structure Gateway where
  config : Config := {}
  ledger : Ledger := {}
  books : Books := {}
  limiter : Limiter := {}
  chooser : Chooser := {}
  random : RandomSource := {}
  now : Time := 0
  unixNow : Int := 0
  inFlight : List Job := []
  tasks : List Task := []

inductive StartError where
  | invalid (flaw : ConfigFlaw)
  | database (path : String)
  | routing (cause : RoutingError)
deriving DecidableEq, Repr

def StartError.message : StartError → String
  | .invalid flaw => "配置校验失败: 配置项无效: " ++ flaw.message
  | .database path => "打开数据库失败: " ++ path
  | .routing cause => "加载路由表失败: " ++ cause.message

namespace Gateway

def store (g : Gateway) : Store := g.books.store

def withStore (g : Gateway) (s : Store) : Gateway := { g with books := g.books.withStore s }

-- ---------------------------------------------------------------------------
-- Start and shutdown
-- ---------------------------------------------------------------------------

def assemble (config : Config) (fallback : Option ModelPrice) (store : Store)
    (cache : Option Cache) : Gateway where
  config := config
  ledger := {
    prices := { prices := config.pricing, fallback }
    ratios := config.groupRatios
    rules := config.quota
    batched := config.quota.batchUpdateEnabled }
  books := {
    directory := { store, cache, ttl := Duration.ofSecs config.cache.defaultTtlSecs }
    watch := { threshold := config.quota.remindThreshold } }
  chooser := { cooldowns := { defaultTtl := Duration.ofSecs config.routing.cooldownSecs } }

def taskPlan (c : Config) : List (TaskKind × Nat) :=
  (if c.quota.batchUpdateEnabled then [(.batchFlush, c.quota.batchUpdateIntervalSecs)] else []) ++
  [(.cooldownSweep, c.routing.cooldownSweepIntervalSecs)] ++
  (if 0 < c.routing.syncIntervalSecs then [(.routingSync, c.routing.syncIntervalSecs)] else []) ++
  [(.limiterSweep, c.rateLimit.sweepIntervalSecs), (.cachePurge, c.cache.defaultTtlSecs)]

def configuredTasks (c : Config) (now : Time) : List Task :=
  (taskPlan c).foldl
    (fun tasks (kind, secs) => Task.start kind (Task.periodOfSecs secs) now tasks) []

def bootstrap (config : Config) (opened : Option Store) : Except StartError Gateway := do
  if let some flaw := config.flaw? then throw (.invalid flaw)
  let some store := opened | throw (.database config.database.path)
  let g := assemble config none store (some {})
  let (_, chooser) ← (g.chooser.load store.routingSource).mapError .routing
  return { g with chooser, tasks := configuredTasks config g.now }

def flush (g : Gateway) : FlushReport × Gateway :=
  let (report, batch, store) := g.books.batch.flush g.store
  (report, { g with books := { g.books with batch } |>.withStore store })

def shutdown (g : Gateway) : Gateway :=
  let g := { g with tasks := [] }
  if g.ledger.batched then g.flush.2 else g

-- ---------------------------------------------------------------------------
-- Reloading
-- ---------------------------------------------------------------------------

def reloadMessage (e : RoutingError) : String := "重新加载路由表失败: " ++ e.message

def reloadRoutes (g : Gateway) : Except RoutingError Gateway := do
  let (_, chooser) ← g.chooser.load g.store.routingSource
  return { g with chooser }

def reloadRatios (g : Gateway) (ratios : GroupRatios) : Gateway :=
  { g with ledger.ratios := ratios }

-- ---------------------------------------------------------------------------
-- Work in flight
-- ---------------------------------------------------------------------------

def launch (g : Gateway) (job : Job) : Gateway := { g with inFlight := g.inFlight ++ [job] }

def launchAll (g : Gateway) (jobs : List Job) : Gateway := { g with inFlight := g.inFlight ++ jobs }

def perform (g : Gateway) (job : Job) : Gateway :=
  { g with books := g.ledger.perform g.books g.now job }

/-- Performs everything in flight, oldest first. -/
def settle (g : Gateway) : Gateway :=
  g.inFlight.foldl perform { g with inFlight := [] }

-- ---------------------------------------------------------------------------
-- The passing of time
-- ---------------------------------------------------------------------------

def runTask (g : Gateway) : TaskKind → Gateway
  | .batchFlush => g.flush.2
  | .cooldownSweep => { g with chooser.cooldowns := g.chooser.cooldowns.sweep g.now }
  | .routingSync => g.reloadRoutes.toOption.getD g
  | .limiterSweep => { g with limiter := g.limiter.sweep g.now }
  | .cachePurge =>
    { g with books := g.books.withCache (g.books.cache.map (·.purge g.now)) }

def runTasksUntil (g : Gateway) (time : Time) : Nat → Gateway
  | 0 => g
  | runs + 1 =>
    match nextDue time g.tasks with
    | none => g
    | some (task, tasks) =>
      (({ g with now := task.due, tasks }).runTask task.kind).runTasksUntil time runs

def advance (g : Gateway) (span : Duration) : Gateway :=
  let time := g.now + span
  let g := g.runTasksUntil time (g.tasks.foldr (·.runsUntil time + ·) 0)
  { g with now := time }

/-- A task without a period would never let time pass and is not started. -/
def startTask (g : Gateway) (kind : TaskKind) (period : Duration) : Gateway :=
  if period = 0 then g else { g with tasks := Task.start kind period g.now g.tasks }

def taskNames (g : Gateway) : List String := g.tasks.map (·.kind.name)

end Gateway

end Tollgate
