import Tollgate.Routing.Cooldown
import Tollgate.Routing.Draw
import Tollgate.Routing.Table
import Tollgate.Store.Channels

/-!
# Choosing a channel

A chooser holds the routing table in force, the channels taken out of service
since it was loaded, and the cooldowns. `select` draws from the first tier
that has an eligible channel of positive weight.
-/

namespace Tollgate

inductive RoutingError where
  | noAvailableChannel (group model : String)
  | channelNotFound (channelId : Int)
  | load (reason : String)
deriving DecidableEq, Repr

def RoutingError.kind : RoutingError → String
  | .noAvailableChannel .. => "NoAvailableChannel"
  | .channelNotFound _ => "ChannelNotFound"
  | .load _ => "Load"

def RoutingError.message : RoutingError → String
  | .noAvailableChannel group model => "分组 " ++ group ++ " 下模型 " ++ model ++ " 无可用渠道"
  | .channelNotFound channelId => "渠道不存在: " ++ toString channelId
  | .load reason => "加载路由数据失败: " ++ reason

abbrev RoutingSource := Except String (List Channel × List Ability)

def Store.routingSource (s : Store) : RoutingSource := do
  let channels ← s.listChannels.mapError (·.during "读取渠道失败")
  let abilities ← s.listAbilities.mapError (·.during "读取路由能力失败")
  return (channels, abilities)

structure LoadReport where
  channels : Nat
  groups : Nat
deriving DecidableEq, Repr

structure Chooser where
  table : RoutingTable := {}
  disabled : List Int := []
  cooldowns : Cooldowns := {}

namespace Chooser

instance : Inhabited Chooser := ⟨{}⟩

-- ---------------------------------------------------------------------------
-- The table
-- ---------------------------------------------------------------------------

/-- Replaces the table. Channels that it still has stay out of service if they were. -/
def load (c : Chooser) (source : RoutingSource) : Except RoutingError (LoadReport × Chooser) :=
  match source with
  | .error reason => .error (.load reason)
  | .ok (channels, abilities) =>
    let table := RoutingTable.build channels abilities
    .ok (⟨table.channels.size, table.groups.length⟩,
      { c with table, disabled := c.disabled.filter fun id => (table.channel? id).isSome })

def channel (c : Chooser) (id : Int) : Except RoutingError Channel :=
  match c.table.channel? id with
  | none => .error (.channelNotFound id)
  | some channel => .ok channel

def isDisabled (c : Chooser) (id : Int) : Except RoutingError Bool := do
  let _ ← c.channel id
  return id ∈ c.disabled

def disable (c : Chooser) (id : Int) : Except RoutingError Chooser := do
  let _ ← c.channel id
  return if id ∈ c.disabled then c else { c with disabled := c.disabled ++ [id] }

def enable (c : Chooser) (id : Int) : Except RoutingError Chooser := do
  let _ ← c.channel id
  return { c with disabled := c.disabled.filter (· ≠ id) }

/-- Enabled when the table was loaded, and not taken out of service since. -/
def isUsable (c : Chooser) (channel : Channel) : Bool :=
  channel.status.isEnabled && channel.id ∉ c.disabled

-- ---------------------------------------------------------------------------
-- Selection
-- ---------------------------------------------------------------------------

abbrev ChannelFilter := Channel → Bool

def excluding (tried : List Int) : ChannelFilter := fun channel => channel.id ∉ tried

def isEligible (c : Chooser) (now : Time) (model : String) (filters : List ChannelFilter)
    (channel : Channel) : Bool :=
  c.isUsable channel && !c.cooldowns.isCooling now channel.id model &&
    filters.all (· channel)

def candidates (c : Chooser) (now : Time) (model : String) (filters : List ChannelFilter)
    (tier : Tier) : List Channel :=
  (tier.channelIds.filterMap c.table.channel?).filter (c.isEligible now model filters)

def selectFrom (c : Chooser) (now : Time) (model : String) (filters : List ChannelFilter)
    (r : RandomSource) : List Tier → Option Channel × RandomSource
  | [] => (none, r)
  | tier :: tiers =>
    let found := c.candidates now model filters tier
    match Weights.pick (found.map (·.weight)) r with
    | (some i, r) => (found[i]?, r)
    | (none, r) => selectFrom c now model filters r tiers

def select (c : Chooser) (now : Time) (group model : String) (filters : List ChannelFilter)
    (r : RandomSource) : Except RoutingError Channel × RandomSource :=
  match c.selectFrom now model filters r ((c.table.tiers group model).getD []) with
  | (some channel, r) => (.ok channel, r)
  | (none, r) => (.error (.noAvailableChannel group model), r)

def spreadWord (n k : Nat) : UInt64 := UInt64.ofNat ((k * UInt64.size + n - 1) / n)

def spread (c : Chooser) (now : Time) (group model : String) (n : Nat) :
    Except RoutingError (List (Int × Nat)) := do
  let count (counts : Dict Int Nat) (k : Nat) : Except RoutingError (Dict Int Nat) := do
    let channel ← (c.select now group model [] { words := [spreadWord n k] }).1
    return counts.adjust channel.id 0 (· + 1)
  let counts ← (List.range n).foldlM count .empty
  return counts.entries.mergeSort fun a b => a.1 ≤ b.1

-- ---------------------------------------------------------------------------
-- Persistent status
-- ---------------------------------------------------------------------------

def writeStatus (s : Store) (id : Int) (status : ChannelStatus) : Except RoutingError Store :=
  match s.setChannelStatus id status with
  | .error f => .error (.load (f.during "更新渠道状态失败"))
  | .ok (false, _) => .error (.channelNotFound id)
  | .ok (true, s) => .ok s

/-- Writes a channel's status and follows it in the table in force: a channel that is enabled
comes back by loading anew, any other is taken out of service at once. -/
def setStatus (c : Chooser) (s : Store) (id : Int) (status : ChannelStatus) :
    Except RoutingError Unit × Chooser × Store :=
  match writeStatus s id status with
  | .error e => (.error e, c, s)
  | .ok s =>
    match s.setAbilitiesEnabled id status.isEnabled with
    | .error f => (.error (.load (f.during "更新路由能力失败")), c, s)
    | .ok (_, s) =>
      if status.isEnabled then
        match c.load s.routingSource with
        | .error e => (.error e, c, s)
        | .ok (_, c) => (.ok (), (c.enable id).toOption.getD c, s)
      else (.ok (), (c.disable id).toOption.getD c, s)

def autoDisable (c : Chooser) (s : Store) (id : Int) :
    Except RoutingError Bool × Chooser × Store :=
  match c.channel id with
  | .error e => (.error e, c, s)
  | .ok channel =>
    if channel.autoBan then
      let (answer, c, s) := c.setStatus s id .autoDisabled
      (answer.map fun _ => true, c, s)
    else (.ok false, c, s)

end Chooser

end Tollgate
