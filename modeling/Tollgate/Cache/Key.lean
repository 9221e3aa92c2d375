/-!
# Cache keys

What is kept about accounts in the shared cache, and the key of each. A
deployment may put a name of its own before all its keys.
-/

namespace Tollgate

inductive AccountKey where
  | token (key : String)
  | userGroup (userId : Int)
  | userEnabled (userId : Int)
  | userQuota (userId : Int)
deriving DecidableEq, Repr

def AccountKey.text : AccountKey → String
  | .token key => "token:" ++ key
  | .userGroup userId => "user_group:" ++ toString userId
  | .userEnabled userId => "user_enabled:" ++ toString userId
  | .userQuota userId => "user_quota:" ++ toString userId

def qualifiedKey (deployment key : String) : String :=
  if deployment.isEmpty then key else deployment ++ ":" ++ key

end Tollgate
