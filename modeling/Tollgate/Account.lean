/-!
# Users and tokens

A user owns a balance of quota; a token lets its bearer spend it, up to an
allowance of its own. Both carry a status that is stored as a number.
-/

namespace Tollgate

inductive UserStatus where
  | enabled
  | disabled
deriving DecidableEq, Repr

namespace UserStatus

def code : UserStatus → Int
  | .enabled => 1
  | .disabled => 2

def ofCode (n : Int) : UserStatus := if n = 1 then .enabled else .disabled

def name : UserStatus → String
  | .enabled => "enabled"
  | .disabled => "disabled"

def ofName? : String → Option UserStatus
  | "enabled" => some .enabled
  | "disabled" => some .disabled
  | _ => none

end UserStatus

inductive TokenStatus where
  | enabled
  | disabled
  | expired
  | exhausted
deriving DecidableEq, Repr

namespace TokenStatus

def code : TokenStatus → Int
  | .enabled => 1
  | .disabled => 2
  | .expired => 3
  | .exhausted => 4

def ofCode (n : Int) : TokenStatus :=
  if n = 1 then .enabled else if n = 3 then .expired else if n = 4 then .exhausted else .disabled

def name : TokenStatus → String
  | .enabled => "enabled"
  | .disabled => "disabled"
  | .expired => "expired"
  | .exhausted => "exhausted"

def ofName? : String → Option TokenStatus
  | "enabled" => some .enabled
  | "disabled" => some .disabled
  | "expired" => some .expired
  | "exhausted" => some .exhausted
  | _ => none

end TokenStatus

structure User where
  id : Int
  username : String
  group : String
  quota : Int
  usedQuota : Int
  requestCount : Int
  status : UserStatus
  email : Option String
deriving DecidableEq, Repr

/-- `expiredTime` is in Unix seconds; `-1` never expires. -/
structure Token where
  id : Int
  userId : Int
  key : String
  name : String
  status : TokenStatus
  remainQuota : Int
  unlimited : Bool
  usedQuota : Int
  expiredTime : Int
deriving DecidableEq, Repr

/-- A token still serves in the second in which it expires. -/
def Token.isExpiredAt (t : Token) (unixSeconds : Int) : Bool :=
  t.expiredTime ≠ -1 && t.expiredTime < unixSeconds

end Tollgate
