import Tollgate.Channel
import Tollgate.Dict

/-!
# The routing table

For a group and a model key, the channels that may serve it, in tiers of
falling priority. A model without a key of its own takes the first of the
group's wildcards that it begins with, and the longest stand first. Tables are
built whole from a list of channels and a list of abilities, and the order of
the abilities does not matter.
-/

namespace Tollgate

structure Tier where
  priority : Int
  channelIds : List Int
deriving DecidableEq, Repr

abbrev RouteKey := String × String

structure Wildcard where
  lead : String
  pattern : String
deriving DecidableEq, Repr

structure RoutingTable where
  channels : Dict Int Channel := .empty
  routes : Dict RouteKey (List Tier) := .empty
  wildcards : Dict String (List Wildcard) := .empty

namespace Wildcard

def ofKey? (key : String) : Option Wildcard :=
  match key.toList.reverse with
  | '*' :: rest => some ⟨.ofList rest.reverse, key⟩
  | _ => none

/-- Longer leads first, as their bytes are counted, and those of one length in order. -/
def before (a b : Wildcard) : Bool :=
  if a.lead.utf8ByteSize = b.lead.utf8ByteSize then a.lead ≤ b.lead
  else b.lead.utf8ByteSize < a.lead.utf8ByteSize

def begins (w : Wildcard) (model : String) : Bool := w.lead.toList.isPrefixOf model.toList

end Wildcard

namespace Tier

def before (a b : Int × Int) : Bool :=
  if a.1 = b.1 then a.2 ≤ b.2 else b.1 < a.1

def split : List (Int × Int) → List Tier
  | [] => []
  | (priority, id) :: rest =>
    match split rest with
    | [] => [⟨priority, [id]⟩]
    | tier :: tiers =>
      if tier.priority = priority then ⟨priority, id :: tier.channelIds⟩ :: tiers
      else ⟨priority, [id]⟩ :: tier :: tiers

/-- The tiers of any list of pairs. Once sorted, equal pairs stand next to each other. -/
def ofPairs (pairs : List (Int × Int)) : List Tier :=
  split (pairs.mergeSort before).eraseReps

end Tier

namespace RoutingTable

instance : Inhabited RoutingTable := ⟨{}⟩

def effective (channels : Dict Int Channel) (abilities : List Ability) : List Ability :=
  abilities.filter fun a => a.enabled && channels.contains a.channelId

def pairsFor (rows : List Ability) (key : RouteKey) : List (Int × Int) :=
  (rows.filter fun a => (a.group, a.model) = key).map fun a => (a.priority, a.channelId)

def routeKeys (rows : List Ability) : List RouteKey :=
  (rows.map fun a => (a.group, a.model)).eraseDups

def wildcardGroups (keys : List RouteKey) : List String :=
  ((keys.filter fun key => (Wildcard.ofKey? key.2).isSome).map Prod.fst).eraseDups

/-- The wildcards of a group among some keys, the longest first. -/
def wildcardsFor (keys : List RouteKey) (group : String) : List Wildcard :=
  ((keys.filter (·.1 = group)).filterMap fun key => Wildcard.ofKey? key.2).mergeSort Wildcard.before

def build (channels : List Channel) (abilities : List Ability) : RoutingTable :=
  let channels := Dict.ofList (channels.map fun c => (c.id, c))
  let rows := effective channels abilities
  let keys := routeKeys rows
  { channels
    routes := .ofList (keys.map fun key => (key, Tier.ofPairs (pairsFor rows key)))
    wildcards := .ofList ((wildcardGroups keys).map fun group => (group, wildcardsFor keys group)) }

def channel? (t : RoutingTable) (id : Int) : Option Channel := t.channels.get? id

def wildcard? (t : RoutingTable) (group model : String) : Option Wildcard :=
  (t.wildcards.get? group).bind (·.find? (·.begins model))

/-- A key that is the model itself, or else the first wildcard that begins it. -/
def tiers (t : RoutingTable) (group model : String) : Option (List Tier) :=
  match t.routes.get? (group, model) with
  | some tiers => some tiers
  | none => (t.wildcard? group model).bind fun w => t.routes.get? (group, w.pattern)

def groups (t : RoutingTable) : List String := (t.routes.keys.map Prod.fst).eraseDups

def models (t : RoutingTable) (group : String) : List String :=
  ((t.routes.keys.filter (·.1 = group)).map Prod.snd).mergeSort (· ≤ ·)

end RoutingTable

end Tollgate
