import Tollgate.Dict
import Tollgate.Text.Blank
import Tollgate.Text.Integer
import Tollgate.Time
import Tollgate.Word

/-!
# The shared cache

Texts under text keys, each until its expiry. An expired entry reads as
absent and is dropped by `purge`, or by the first draw on it. A cache may
refuse some of its verbs, as a remote one does when the connection is lost.
-/

namespace Tollgate

inductive CacheFault where
  | backend (reason : String)
  | notInteger (raw : String)
deriving DecidableEq, Repr

def CacheFault.kind : CacheFault → String
  | .backend _ => "Backend"
  | .notInteger _ => "NotInteger"

def CacheFault.message : CacheFault → String
  | .backend reason => "缓存后端错误: " ++ reason
  | .notInteger raw => "缓存值不是整数: " ++ raw

inductive CacheVerb where
  | get
  | set
  | delete
  | draw
  | credit
deriving DecidableEq, Repr

namespace CacheVerb

def all : List CacheVerb := [.get, .set, .delete, .draw, .credit]

def name : CacheVerb → String
  | .get => "get"
  | .set => "set"
  | .delete => "delete"
  | .draw => "decr"
  | .credit => "incr"

def ofName? (s : String) : Option CacheVerb := all.find? (·.name = s)

end CacheVerb

structure CacheEntry where
  text : String
  expires : Time
deriving DecidableEq

structure Cache where
  entries : Dict String CacheEntry := .empty
  refused : List CacheVerb := []

/-- The outcome of drawing on an integer entry; `applied` tells the balance before. -/
inductive CacheDraw where
  | missing
  | insufficient (balance : Int)
  | applied (before : Int)
deriving DecidableEq, Repr

/-- A signed word in decimal, with white space around it allowed. -/
def readWord? (raw : String) : Option Int := do
  let n ← Text.readSigned? (Text.trimChars raw.toList)
  if Word.Fits n then some n else none

namespace CacheEntry

def isLive (e : CacheEntry) (now : Time) : Bool := now < e.expires

def word (e : CacheEntry) : Except CacheFault Int :=
  match readWord? e.text with
  | some n => .ok n
  | none => .error (.notInteger e.text)

end CacheEntry

namespace Cache

def name : String := "memory"

instance : Inhabited Cache := ⟨{}⟩

def serve (c : Cache) (verb : CacheVerb) : Except CacheFault Unit :=
  if verb ∈ c.refused then .error (.backend "connection refused") else .ok ()

def live? (c : Cache) (now : Time) (key : String) : Option String :=
  ((c.entries.get? key).filter (·.isLive now)).map (·.text)

def get (c : Cache) (now : Time) (key : String) : Except CacheFault (Option String) := do
  c.serve .get
  return c.live? now key

def put (c : Cache) (key : String) (e : CacheEntry) : Cache :=
  { c with entries := c.entries.set key e }

def set (c : Cache) (now : Time) (key text : String) (ttl : Duration) :
    Except CacheFault Cache := do
  c.serve .set
  return c.put key ⟨text, now + ttl⟩

def drop (c : Cache) (key : String) : Cache := { c with entries := c.entries.erase key }

def delete (c : Cache) (key : String) : Except CacheFault Cache := do
  c.serve .delete
  return c.drop key

def draw (c : Cache) (now : Time) (key : String) (amount : Int) :
    Except CacheFault (CacheDraw × Cache) := do
  c.serve .draw
  match c.entries.get? key with
  | none => return (.missing, c)
  | some e =>
    if !e.isLive now then return (.missing, c.drop key)
    let balance ← e.word
    if balance < amount then return (.insufficient balance, c)
    return (.applied balance, c.put key { e with text := toString (Word.wrap (balance - amount)) })

def credit (c : Cache) (now : Time) (key : String) (delta : Int) :
    Except CacheFault (Option Int × Cache) := do
  c.serve .credit
  match c.entries.get? key with
  | none => return (none, c)
  | some e =>
    if !e.isLive now then return (none, c)
    let balance ← e.word
    let next := Word.wrap (balance + delta)
    return (some next, c.put key { e with text := toString next })

def purge (c : Cache) (now : Time) : Cache :=
  { c with entries := c.entries.filter fun _ e => e.isLive now }

end Cache

end Tollgate
