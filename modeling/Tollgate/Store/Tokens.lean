import Tollgate.Store

/-!
# Statements on tokens
-/

namespace Tollgate

def TokenRow.ofToken (t : Token) (id : Int) : TokenRow where
  id := id
  userId := t.userId
  key := t.key
  name := t.name
  status := t.status
  remainQuota := .int t.remainQuota
  unlimited := t.unlimited
  usedQuota := .int t.usedQuota
  expiredTime := t.expiredTime

def TokenRow.read (r : TokenRow) : Except StoreFault Token := do
  let remainQuota ← r.remainQuota.read 5 "remain_quota"
  let usedQuota ← r.usedQuota.read 7 "used_quota"
  return { id := r.id, userId := r.userId, key := r.key, name := r.name, status := r.status,
           remainQuota, unlimited := r.unlimited, usedQuota, expiredTime := r.expiredTime }

def TokenRow.withColumn? (r : TokenRow) (column : String) (value : Int) : Option TokenRow :=
  match column with
  | "id" => some { r with id := value }
  | "key" => some { r with key := toString value }
  | "name" => some { r with name := toString value }
  | "user_id" => some { r with userId := value }
  | "status" => some { r with status := .ofCode value }
  | "remain_quota" => some { r with remainQuota := .int value }
  | "unlimited_quota" => some { r with unlimited := value ≠ 0 }
  | "used_quota" => some { r with usedQuota := .int value }
  | "expired_time" => some { r with expiredTime := value }
  | _ => none

namespace Store

def tokenRow? (s : Store) (id : Int) : Option TokenRow := s.tokens.rows.find? (·.id = id)

def addToken (s : Store) (t : Token) : Except StoreFault (Int × Store) := do
  s.guard .tokens
  let id ← s.tokens.assign t.id
  if s.tokens.rows.any (·.id = id) then throw (.duplicate .tokens ["id"])
  if s.tokens.rows.any (·.key = t.key) then throw (.duplicate .tokens ["key"])
  return (id, { s with tokens := s.tokens.add id (.ofToken t id) })

def token? (s : Store) (id : Int) : Except StoreFault (Option Token) := do
  s.guard .tokens
  match s.tokenRow? id with
  | none => return none
  | some r => return some (← r.read)

def tokenByKey? (s : Store) (key : String) : Except StoreFault (Option Token) := do
  s.guard .tokens
  match s.tokens.rows.find? (·.key = key) with
  | none => return none
  | some r => return some (← r.read)

/-- Moves `amount` from the allowance to the usage where the allowance covers it, and says
whether it did. -/
def drawToken? (s : Store) (id amount : Int) : Except StoreFault (Bool × Store) := do
  s.guard .tokens
  let covered := fun r : TokenRow => decide (r.id = id) && r.remainQuota.covers amount
  return (s.tokens.rows.any covered,
    { s with tokens := s.tokens.update covered fun r =>
        { r with remainQuota := r.remainQuota.sub amount, usedQuota := r.usedQuota.add amount } })

def setTokenStatus (s : Store) (id : Int) (status : TokenStatus) : Except StoreFault Store := do
  s.guard .tokens
  return { s with tokens := s.tokens.update (·.id = id) ({ · with status }) }

end Store

end Tollgate
