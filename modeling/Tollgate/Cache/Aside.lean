import Tollgate.Account.Json
import Tollgate.Cache

/-!
# Looking aside

A value is taken from the cache when it is there and can be read, and
computed otherwise. What was computed is put into the cache, but absence is
not, and no failure of the cache reaches the caller.
-/

namespace Tollgate

structure Codec (α : Type) where
  encode : α → String
  decode : String → Option α

namespace Codec

def ofJson {α : Type} (write : α → Json) (read? : Document → Option α) : Codec α where
  encode a := (write a).render
  decode raw := Json.readDocument? raw >>= read?

def word : Codec Int := ofJson .int Document.i64?

def flag : Codec Bool := ofJson .bool Document.bool?

def text : Codec String := ofJson .str Document.text?

def token : Codec Token := ofJson Token.toJson Token.ofDocument?

end Codec

namespace Cache

variable {α ε : Type}

/-- What the cache holds in readable form under the key. -/
def hit? (codec : Codec α) (cache : Option Cache) (now : Time) (key : String) : Option α :=
  match cache with
  | none => none
  | some c =>
    match c.get now key with
    | .ok (some raw) => codec.decode raw
    | _ => none

def remember (codec : Codec α) (cache : Option Cache) (now : Time) (key : String)
    (ttl : Duration) (value : α) : Option Cache :=
  cache.map fun c =>
    match c.set now key (codec.encode value) ttl with
    | .ok c => c
    | .error _ => c

def fetch (codec : Codec α) (cache : Option Cache) (now : Time) (key : String) (ttl : Duration)
    (computed : Except ε (Option α)) : Except ε (Option α) × Option Cache :=
  match hit? codec cache now key with
  | some value => (.ok (some value), cache)
  | none =>
    match computed with
    | .ok (some value) => (.ok (some value), remember codec cache now key ttl value)
    | other => (other, cache)

end Cache

end Tollgate
