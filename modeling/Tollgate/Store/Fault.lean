/-!
# Storage faults

Why a statement was not carried out. A faulty statement changes nothing.
-/

namespace Tollgate

inductive Table where
  | channels
  | abilities
  | users
  | tokens
  | logs
deriving DecidableEq, Repr

namespace Table

def name : Table → String
  | .channels => "channels"
  | .abilities => "abilities"
  | .users => "users"
  | .tokens => "tokens"
  | .logs => "logs"

def columns : Table → List String
  | .channels => ["id", "name", "key", "base_url", "status", "weight", "priority", "channel_group",
    "models", "proxy", "used_quota", "auto_ban"]
  | .abilities => ["channel_group", "model", "channel_id", "enabled", "priority", "weight"]
  | .users => ["id", "username", "user_group", "quota", "used_quota", "request_count", "status",
    "email"]
  | .tokens => ["id", "user_id", "key", "name", "status", "remain_quota", "unlimited_quota",
    "used_quota", "expired_time"]
  | .logs => ["id", "created_at", "user_id", "token_id", "channel_id", "model", "prompt_tokens",
    "completion_tokens", "quota", "request_id"]

def all : List Table := [.channels, .abilities, .users, .tokens, .logs]

def ofName? (s : String) : Option Table := all.find? (·.name = s)

end Table

/-- `locked` is the lock that guards the connection, broken for good by a task that failed
while it held it; `duplicate` names the columns that must differ between rows; `realColumn` is a
counter that has left the range of integers. -/
inductive StoreFault where
  | locked
  | missingTable (table : Table)
  | takenName (table : Table)
  | missingColumn (name : String)
  | duplicate (table : Table) (columns : List String)
  | full
  | realColumn (index : Nat) (name : String)
deriving DecidableEq, Repr

namespace StoreFault

def message : StoreFault → String
  | .locked => "数据库锁获取失败: poisoned lock: another task failed inside"
  | .missingTable table => "no such table: " ++ table.name
  | .takenName table => "there is already another table or index with this name: " ++ table.name
  | .missingColumn name => "no such column: " ++ name
  | .duplicate table columns =>
    "UNIQUE constraint failed: " ++ ", ".intercalate (columns.map (table.name ++ "." ++ ·))
  | .full => "database or disk is full"
  | .realColumn index name =>
    "Invalid column type Real at index: " ++ toString index ++ ", name: " ++ name

def during (fault : StoreFault) (doing : String) : String :=
  match fault with
  | .locked => fault.message
  | _ => doing ++ ": " ++ fault.message

end StoreFault

end Tollgate
