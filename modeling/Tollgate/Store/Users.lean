import Tollgate.Store

/-!
# Statements on users
-/

namespace Tollgate

def UserRow.ofUser (u : User) (id : Int) : UserRow where
  id := id
  username := u.username
  group := u.group
  quota := .int u.quota
  usedQuota := .int u.usedQuota
  requestCount := .int u.requestCount
  status := u.status
  email := u.email

def UserRow.read (r : UserRow) : Except StoreFault User := do
  let quota ← r.quota.read 3 "quota"
  let usedQuota ← r.usedQuota.read 4 "used_quota"
  let requestCount ← r.requestCount.read 5 "request_count"
  return { id := r.id, username := r.username, group := r.group, quota, usedQuota, requestCount,
           status := r.status, email := r.email }

def UserRow.withColumn? (r : UserRow) (column : String) (value : Int) : Option UserRow :=
  match column with
  | "id" => some { r with id := value }
  | "username" => some { r with username := toString value }
  | "user_group" => some { r with group := toString value }
  | "email" => some { r with email := some (toString value) }
  | "quota" => some { r with quota := .int value }
  | "used_quota" => some { r with usedQuota := .int value }
  | "request_count" => some { r with requestCount := .int value }
  | "status" => some { r with status := .ofCode value }
  | _ => none

namespace Store

def userRow? (s : Store) (id : Int) : Option UserRow := s.users.rows.find? (·.id = id)

def addUser (s : Store) (u : User) : Except StoreFault (Int × Store) := do
  s.guard .users
  let id ← s.users.assign u.id
  if s.users.rows.any (·.id = id) then throw (.duplicate .users ["id"])
  if s.users.rows.any (·.username = u.username) then throw (.duplicate .users ["username"])
  return (id, { s with users := s.users.add id (.ofUser u id) })

def user? (s : Store) (id : Int) : Except StoreFault (Option User) := do
  s.guard .users
  match s.userRow? id with
  | none => return none
  | some r => return some (← r.read)

def userQuota? (s : Store) (id : Int) : Except StoreFault (Option Int) := do
  s.guard .users
  match s.userRow? id with
  | none => return none
  | some r => return some (← r.quota.read 0 "quota")

def userGroup? (s : Store) (id : Int) : Except StoreFault (Option String) := do
  s.guard .users
  return (s.userRow? id).map (·.group)

def userEnabled? (s : Store) (id : Int) : Except StoreFault (Option Bool) := do
  s.guard .users
  return (s.userRow? id).map (·.status = .enabled)

def drawUser? (s : Store) (id amount : Int) : Except StoreFault (Bool × Store) := do
  s.guard .users
  let covered := fun r : UserRow => decide (r.id = id) && r.quota.covers amount
  return (s.users.rows.any covered,
    { s with users := s.users.update covered fun r => { r with quota := r.quota.sub amount } })

end Store

end Tollgate
