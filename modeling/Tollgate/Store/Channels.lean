import Tollgate.Store

/-!
# Statements on channels and abilities

A stored weight is a number of any sign: below zero it reads as zero, and
past 32 bits a channel reads the largest weight while an ability keeps the
low 32 bits.
-/

namespace Tollgate

def ChannelRow.ofChannel (c : Channel) (id : Int) : ChannelRow where
  id := id
  name := c.name
  key := c.key
  baseUrl := c.baseUrl
  status := c.status
  weight := c.weight
  priority := c.priority
  group := c.group
  models := c.models
  proxy := c.proxy
  usedQuota := .int c.usedQuota
  autoBan := c.autoBan

def ChannelRow.read (r : ChannelRow) : Except StoreFault Channel := do
  let usedQuota ← r.usedQuota.read 10 "used_quota"
  return { id := r.id, name := r.name, key := r.key, baseUrl := r.baseUrl, status := r.status,
           weight := r.weight, priority := r.priority, group := r.group, models := r.models,
           proxy := r.proxy, usedQuota, autoBan := r.autoBan }

def ChannelRow.withColumn? (r : ChannelRow) (column : String) (value : Int) : Option ChannelRow :=
  match column with
  | "id" => some { r with id := value }
  | "name" => some { r with name := toString value }
  | "key" => some { r with key := toString value }
  | "base_url" => some { r with baseUrl := some (toString value) }
  | "channel_group" => some { r with group := toString value }
  | "models" => some { r with models := toString value }
  | "proxy" => some { r with proxy := some (toString value) }
  | "status" => some { r with status := .ofCode value }
  | "weight" => some { r with weight := min value.toNat (UInt32.size - 1) }
  | "priority" => some { r with priority := value }
  | "used_quota" => some { r with usedQuota := .int value }
  | "auto_ban" => some { r with autoBan := value ≠ 0 }
  | _ => none

namespace Ability

def sameKey (a b : Ability) : Bool :=
  a.group = b.group && a.model = b.model && a.channelId = b.channelId

/-- The order of a listing: group, model, higher priority, channel. -/
def listedBefore (a b : Ability) : Bool :=
  if a.group ≠ b.group then a.group < b.group
  else if a.model ≠ b.model then a.model < b.model
  else if a.priority ≠ b.priority then b.priority < a.priority
  else a.channelId ≤ b.channelId

def withColumn? (a : Ability) (column : String) (value : Int) : Option Ability :=
  match column with
  | "channel_group" => some { a with group := toString value }
  | "model" => some { a with model := toString value }
  | "channel_id" => some { a with channelId := value }
  | "enabled" => some { a with enabled := value ≠ 0 }
  | "priority" => some { a with priority := value }
  | "weight" => some { a with weight := value.toNat % UInt32.size }
  | _ => none

end Ability

namespace Store

def channelRow? (s : Store) (id : Int) : Option ChannelRow := s.channels.rows.find? (·.id = id)

def addChannel (s : Store) (c : Channel) : Except StoreFault (Int × Store) := do
  s.guard .channels
  let id ← s.channels.assign c.id
  if s.channels.rows.any (·.id = id) then throw (.duplicate .channels ["id"])
  return (id, { s with channels := s.channels.add id (.ofChannel c id) })

def channel? (s : Store) (id : Int) : Except StoreFault (Option Channel) := do
  s.guard .channels
  match s.channelRow? id with
  | none => return none
  | some r => return some (← r.read)

/-- All channels by id; one unreadable row spoils the listing. -/
def listChannels (s : Store) : Except StoreFault (List Channel) := do
  s.guard .channels
  (s.channels.rows.mergeSort fun a b => a.id ≤ b.id).mapM ChannelRow.read

def setChannelStatus (s : Store) (id : Int) (status : ChannelStatus) :
    Except StoreFault (Bool × Store) := do
  s.guard .channels
  return (s.channels.rows.any (·.id = id),
    { s with channels := s.channels.update (·.id = id) ({ · with status }) })

def deleteChannel (s : Store) (id : Int) : Except StoreFault Store := do
  s.guard .channels
  return { s with channels := { s.channels with rows := s.channels.rows.filter (·.id ≠ id) } }

def listAbilities (s : Store) : Except StoreFault (List Ability) := do
  s.guard .abilities
  return s.abilities.mergeSort Ability.listedBefore

/-- The rows with `a` in place of the row of the same key. -/
def putAbility (rows : List Ability) (a : Ability) : List Ability :=
  rows.filter (fun b => !b.sameKey a) ++ [a]

/-- Replaces the abilities of a channel by those it unfolds to, and says how many those are,
repeats included. -/
def rebuildAbilities (s : Store) (c : Channel) : Except StoreFault (Nat × Store) := do
  s.guard .abilities
  let others := s.abilities.filter (·.channelId ≠ c.id)
  return (c.abilities.length, { s with abilities := c.abilities.foldl putAbility others })

def setAbilitiesEnabled (s : Store) (channelId : Int) (enabled : Bool) :
    Except StoreFault (Nat × Store) := do
  s.guard .abilities
  return ((s.abilities.filter (·.channelId = channelId)).length,
    { s with abilities := s.abilities.map fun a =>
        if a.channelId = channelId then { a with enabled } else a })

def deleteAbilities (s : Store) (channelId : Int) : Except StoreFault Store := do
  s.guard .abilities
  return { s with abilities := s.abilities.filter (·.channelId ≠ channelId) }

end Store

end Tollgate
