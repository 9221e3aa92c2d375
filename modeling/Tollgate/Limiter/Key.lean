/-!
# Limiter keys

What a limit is counted by. No two keys share a count.
-/

namespace Tollgate

structure LimiterKey where
  resource : String
  identity : String
deriving DecidableEq, Repr

namespace LimiterKey

def relay (group : String) (userId : Int) : LimiterKey :=
  ⟨"relay:" ++ group, "user:" ++ toString userId⟩

/-- The key in a shared store, where `tag` names the form of the state kept under it. -/
def storageKey (k : LimiterKey) (tag : String) : String :=
  "rl:" ++ tag ++ ":" ++ k.resource ++ ":" ++ k.identity

def display (k : LimiterKey) : String := k.resource ++ "/" ++ k.identity

end LimiterKey

end Tollgate
