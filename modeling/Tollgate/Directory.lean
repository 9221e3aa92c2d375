import Tollgate.Cache.Aside
import Tollgate.Cache.Key
import Tollgate.Store.Tokens
import Tollgate.Store.Users

/-!
# The account directory

Tokens and users are looked up aside of the store. A change made to a row is
seen through the directory once its keys are invalidated, or their entries
have expired.
-/

namespace Tollgate

/-- `ttl` is how long an answer is kept. -/
structure Directory where
  store : Store := {}
  cache : Option Cache := none
  ttl : Duration := 0

inductive AccountFact where
  | token
  | group
  | enabled
  | quota
deriving DecidableEq, Repr

structure LookupFault where
  fact : AccountFact
  cause : StoreFault
deriving DecidableEq, Repr

def LookupFault.message (f : LookupFault) : String :=
  f.cause.during <| match f.fact with
    | .token => "查询令牌失败"
    | .group => "查询用户分组失败"
    | .enabled => "查询用户状态失败"
    | .quota => "查询用户额度失败"

namespace Directory

variable {α : Type}

def lookup (d : Directory) (now : Time) (codec : Codec α) (key : AccountKey)
    (fact : AccountFact) (stored : Except StoreFault (Option α)) :
    Except LookupFault (Option α) × Directory :=
  let (answer, cache) :=
    Cache.fetch codec d.cache now key.text d.ttl (stored.mapError (LookupFault.mk fact))
  (answer, { d with cache })

def tokenByKey (d : Directory) (now : Time) (key : String) :
    Except LookupFault (Option Token) × Directory :=
  d.lookup now .token (.token key) .token (d.store.tokenByKey? key)

def userGroup (d : Directory) (now : Time) (userId : Int) :
    Except LookupFault (Option String) × Directory :=
  d.lookup now .text (.userGroup userId) .group (d.store.userGroup? userId)

def userEnabled (d : Directory) (now : Time) (userId : Int) :
    Except LookupFault (Option Bool) × Directory :=
  d.lookup now .flag (.userEnabled userId) .enabled (d.store.userEnabled? userId)

def userQuota (d : Directory) (now : Time) (userId : Int) :
    Except LookupFault (Option Int) × Directory :=
  d.lookup now .word (.userQuota userId) .quota (d.store.userQuota? userId)

def forget (d : Directory) (key : AccountKey) : Directory :=
  { d with cache := d.cache.map fun c =>
      match c.delete key.text with
      | .ok c => c
      | .error _ => c }

def invalidateToken (d : Directory) (key : String) : Directory := d.forget (.token key)

def invalidateUser (d : Directory) (userId : Int) : Directory :=
  ((d.forget (.userGroup userId)).forget (.userEnabled userId)).forget (.userQuota userId)

end Directory

end Tollgate
