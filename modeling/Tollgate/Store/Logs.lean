import Tollgate.Store.Channels
import Tollgate.Store.Tokens
import Tollgate.Store.Users

/-!
# Statements on the usage log, and direct writes
-/

namespace Tollgate

def LogEntry.withColumn? (e : LogEntry) (column : String) (value : Int) : Option LogEntry :=
  match column with
  | "id" => some { e with id := value }
  | "created_at" => some { e with createdAt := toString value }
  | "user_id" => some { e with userId := value }
  | "token_id" => some { e with tokenId := value }
  | "channel_id" => some { e with channelId := value }
  | "model" => some { e with model := toString value }
  | "prompt_tokens" => some { e with promptTokens := value }
  | "completion_tokens" => some { e with completionTokens := value }
  | "quota" => some { e with quota := value }
  | "request_id" => some { e with requestId := some (toString value) }
  | _ => none

namespace Store

/-- Adds an entry under the next id, whatever id it carries. -/
def addLog (s : Store) (e : LogEntry) : Except StoreFault (Int × Store) := do
  s.guard .logs
  let id ← s.logs.assign 0
  return (id, { s with logs := s.logs.add id { e with id } })

def logsOf (s : Store) (userId limit : Int) : Except StoreFault (List LogEntry) := do
  s.guard .logs
  let found := (s.logs.rows.filter (·.userId = userId)).mergeSort fun a b => b.id ≤ a.id
  return if limit < 0 then found else found.take limit.toNat

def distinct {κ : Type} [DecidableEq κ] (table : Table) (columns : List String) (keys : List κ) :
    Except StoreFault Unit :=
  if keys.Nodup then .ok () else .error (.duplicate table columns)

def updateRows {ρ : Type} (p : ρ → Bool) (f : ρ → Option ρ) (rows : List ρ) : Nat × List ρ :=
  (rows.countP p, rows.map fun r => if p r then (f r).getD r else r)

/-- Writes a number into a column of the rows with the given id, for abilities those of the
channel, and says how many there were, with no regard to the lock. -/
def overwrite (s : Store) (table : Table) (column : String) (id value : Int) :
    Except StoreFault (Nat × Store) := do
  s.unlocked.guard table
  if column ∉ table.columns then throw (.missingColumn column)
  match table with
  | .users =>
    let (n, rows) := updateRows (·.id = id) (·.withColumn? column value) s.users.rows
    distinct table ["id"] (rows.map (·.id))
    distinct table ["username"] (rows.map (·.username))
    return (n, { s with users.rows := rows })
  | .tokens =>
    let (n, rows) := updateRows (·.id = id) (·.withColumn? column value) s.tokens.rows
    distinct table ["id"] (rows.map (·.id))
    distinct table ["key"] (rows.map (·.key))
    return (n, { s with tokens.rows := rows })
  | .channels =>
    let (n, rows) := updateRows (·.id = id) (·.withColumn? column value) s.channels.rows
    distinct table ["id"] (rows.map (·.id))
    return (n, { s with channels.rows := rows })
  | .abilities =>
    let (n, rows) := updateRows (·.channelId = id) (·.withColumn? column value) s.abilities
    distinct table ["channel_group", "model", "channel_id"]
      (rows.map fun a => (a.group, a.model, a.channelId))
    return (n, { s with abilities := rows })
  | .logs =>
    let (n, rows) := updateRows (·.id = id) (·.withColumn? column value) s.logs.rows
    distinct table ["id"] (rows.map (·.id))
    return (n, { s with logs.rows := rows })

end Store

end Tollgate
