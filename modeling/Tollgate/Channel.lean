import Tollgate.Text.Blank

/-!
# Channels and abilities

A channel is one credential with a provider. Its comma-separated lists of
groups and models unfold into abilities, one for each pair: the rows that
routing is decided from.
-/

namespace Tollgate

inductive ChannelStatus where
  | enabled
  | manuallyDisabled
  | autoDisabled
deriving DecidableEq, Repr

namespace ChannelStatus

def code : ChannelStatus → Int
  | .enabled => 1
  | .manuallyDisabled => 2
  | .autoDisabled => 3

def ofCode (n : Int) : ChannelStatus :=
  if n = 1 then .enabled else if n = 3 then .autoDisabled else .manuallyDisabled

def name : ChannelStatus → String
  | .enabled => "enabled"
  | .manuallyDisabled => "manually_disabled"
  | .autoDisabled => "auto_disabled"

def ofName? : String → Option ChannelStatus
  | "enabled" => some .enabled
  | "manually_disabled" => some .manuallyDisabled
  | "auto_disabled" => some .autoDisabled
  | _ => none

def isEnabled (s : ChannelStatus) : Bool := s = .enabled

def displayName : ChannelStatus → String
  | .enabled => "已启用"
  | .manuallyDisabled => "已手动禁用"
  | .autoDisabled => "已自动禁用"

end ChannelStatus

/-- Among channels of one priority `weight` is the share of requests, and weight 0 takes none;
a higher priority is tried first. -/
structure Channel where
  id : Int
  name : String
  key : String
  baseUrl : Option String
  status : ChannelStatus
  weight : Nat
  priority : Int
  group : String
  models : String
  proxy : Option String
  usedQuota : Int
  autoBan : Bool
deriving DecidableEq, Repr

/-- Permission to serve a model to a group. A model ending in `*` is a pattern. -/
structure Ability where
  group : String
  model : String
  channelId : Int
  enabled : Bool
  priority : Int
  weight : Nat
deriving DecidableEq, Repr

def splitChars (separator : Char) : List Char → List (List Char)
  | [] => [[]]
  | c :: rest =>
    match splitChars separator rest with
    | [] => [[c]]
    | piece :: pieces => if c = separator then [] :: piece :: pieces else (c :: piece) :: pieces

def listItems (raw : String) : List String :=
  (((splitChars ',' raw.toList).map Text.trimChars).filter (· ≠ [])).map String.ofList

namespace Channel

def groups (c : Channel) : List String := listItems c.group

def modelList (c : Channel) : List String := listItems c.models

def abilities (c : Channel) : List Ability :=
  c.groups.flatMap fun group => c.modelList.map fun model =>
    { group, model, channelId := c.id, enabled := c.status.isEnabled, priority := c.priority,
      weight := c.weight }

end Channel

end Tollgate
