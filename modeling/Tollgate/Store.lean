import Tollgate.Account
import Tollgate.Channel
import Tollgate.Store.Cell
import Tollgate.Store.Fault

/-!
# The store

The durable tables. A statement is a function of the store that either gives
a fault or an answer, with the new store where it writes; `guard` is what
every statement passes first. An id that was given to a row is never given
again: `lastId` is the largest of them.
-/

namespace Tollgate

structure UserRow where
  id : Int
  username : String
  group : String
  quota : Cell
  usedQuota : Cell
  requestCount : Cell
  status : UserStatus
  email : Option String

structure TokenRow where
  id : Int
  userId : Int
  key : String
  name : String
  status : TokenStatus
  remainQuota : Cell
  unlimited : Bool
  usedQuota : Cell
  expiredTime : Int

structure ChannelRow where
  id : Int
  name : String
  key : String
  baseUrl : Option String
  status : ChannelStatus
  weight : Nat
  priority : Int
  group : String
  models : String
  proxy : Option String
  usedQuota : Cell
  autoBan : Bool

structure LogEntry where
  id : Int
  createdAt : String
  userId : Int
  tokenId : Int
  channelId : Int
  model : String
  promptTokens : Int
  completionTokens : Int
  quota : Int
  requestId : Option String
deriving DecidableEq, Repr

class Identified (ρ : Type) where
  id : ρ → Int

instance : Identified UserRow := ⟨(·.id)⟩
instance : Identified TokenRow := ⟨(·.id)⟩
instance : Identified ChannelRow := ⟨(·.id)⟩
instance : Identified LogEntry := ⟨(·.id)⟩

/-- Rows in the order in which they were added. -/
structure Numbered (ρ : Type) where
  rows : List ρ := []
  lastId : Int := 0

/-- `poisoned` breaks every statement, a hidden table those that name it. The place of a `lost`
table was taken while it was hidden. -/
structure Store where
  users : Numbered UserRow := {}
  tokens : Numbered TokenRow := {}
  channels : Numbered ChannelRow := {}
  abilities : List Ability := []
  logs : Numbered LogEntry := {}
  poisoned : Bool := false
  hidden : List Table := []
  lost : List Table := []

instance : Inhabited Store := ⟨{}⟩

/-- The counters that sums are posted to. Posting to a token's allowance moves its usage the
opposite way. -/
inductive Counter where
  | userQuota
  | tokenQuota
  | usedQuota
  | channelUsedQuota
  | requestCount
deriving DecidableEq, Repr

namespace Counter

def all : List Counter := [.userQuota, .tokenQuota, .usedQuota, .channelUsedQuota, .requestCount]

def name : Counter → String
  | .userQuota => "user_quota"
  | .tokenQuota => "token_quota"
  | .usedQuota => "used_quota"
  | .channelUsedQuota => "channel_used_quota"
  | .requestCount => "request_count"

def ofName? (s : String) : Option Counter := all.find? (·.name = s)

def table : Counter → Table
  | .userQuota | .usedQuota | .requestCount => .users
  | .tokenQuota => .tokens
  | .channelUsedQuota => .channels

end Counter

namespace Cell

def read (c : Cell) (index : Nat) (column : String) : Except StoreFault Int :=
  match c with
  | .int n => .ok n
  | .real _ => .error (.realColumn index column)

end Cell

namespace Numbered

variable {ρ : Type}

def topId [Identified ρ] (t : Numbered ρ) : Int :=
  t.rows.foldl (fun top r => max top (Identified.id r)) t.lastId

/-- A positive id is taken as it is; any other asks for the next one. -/
def assign [Identified ρ] (t : Numbered ρ) (id : Int) : Except StoreFault Int :=
  if 0 < id then .ok id
  else if t.topId < Word.greatest then .ok (t.topId + 1)
  else .error .full

def add (t : Numbered ρ) (id : Int) (row : ρ) : Numbered ρ :=
  ⟨t.rows ++ [row], max t.lastId id⟩

def update (t : Numbered ρ) (p : ρ → Bool) (f : ρ → ρ) : Numbered ρ :=
  { t with rows := t.rows.map fun r => if p r then f r else r }

end Numbered

namespace Store

def guard (s : Store) (table : Table) : Except StoreFault Unit :=
  if s.poisoned then .error .locked
  else if table ∈ s.hidden then .error (.missingTable table)
  else .ok ()

/-- Adds to a counter; nothing happens where the row is missing. -/
def post (s : Store) (counter : Counter) (id delta : Int) : Store :=
  match counter with
  | .userQuota =>
    { s with users := s.users.update (·.id = id) fun r => { r with quota := r.quota.add delta } }
  | .usedQuota =>
    { s with users := s.users.update (·.id = id) fun r =>
        { r with usedQuota := r.usedQuota.add delta } }
  | .requestCount =>
    { s with users := s.users.update (·.id = id) fun r =>
        { r with requestCount := r.requestCount.add delta } }
  | .tokenQuota =>
    { s with tokens := s.tokens.update (·.id = id) fun r =>
        { r with remainQuota := r.remainQuota.add delta, usedQuota := r.usedQuota.sub delta } }
  | .channelUsedQuota =>
    { s with channels := s.channels.update (·.id = id) fun r =>
        { r with usedQuota := r.usedQuota.add delta } }

def post? (s : Store) (counter : Counter) (id delta : Int) : Except StoreFault Store := do
  s.guard counter.table
  return s.post counter id delta

def reopened (s : Store) : Store where
  users := if .users ∈ s.hidden then {} else s.users
  tokens := if .tokens ∈ s.hidden then {} else s.tokens
  channels := if .channels ∈ s.hidden then {} else s.channels
  abilities := if .abilities ∈ s.hidden then [] else s.abilities
  logs := if .logs ∈ s.hidden then {} else s.logs
  poisoned := s.poisoned
  lost := s.hidden ++ s.lost

def createTables (s : Store) : Except StoreFault Store :=
  if s.poisoned then .error .locked else .ok s.reopened

def poison (s : Store) : Store := { s with poisoned := true }

def hide (s : Store) (table : Table) : Except StoreFault Store :=
  if table ∈ s.hidden then .error (.missingTable table)
  else .ok { s with hidden := table :: s.hidden }

def unhide (s : Store) (table : Table) : Except StoreFault Store :=
  if table ∈ s.lost then .error (.takenName table)
  else .ok { s with hidden := s.hidden.filter (· ≠ table) }

def unlocked (s : Store) : Store := { s with poisoned := false }

end Store

end Tollgate
