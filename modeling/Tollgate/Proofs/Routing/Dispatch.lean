import Tollgate.Proofs.Routing.Meaning
import Tollgate.Proofs.Routing.Selection
import Tollgate.Proofs.Store.Listing

/-!
# A chooser at work

A dispatch is a chooser beside the store that it is loaded from. A run is a
list of operations in any order: loads, changes of a channel's stored status,
flags that are set and lifted, cooldowns, selections and the passing of time.
-/

namespace Tollgate

structure Dispatch where
  chooser : Chooser
  store : Store
  now : Time := 0
  random : RandomSource := {}

inductive DispatchOp where
  | load
  | setStatus (id : Int) (status : ChannelStatus)
  | autoDisable (id : Int)
  | disable (id : Int)
  | enable (id : Int)
  | mark (id : Int) (model : String)
  | markFor (id : Int) (model : String) (ttl : Duration)
  | clear (id : Int) (model : String)
  | sweep
  | select (group model : String) (filters : List Chooser.ChannelFilter)
  | wait (span : Duration)

namespace Chooser

def reload (c : Chooser) (source : RoutingSource) : Chooser :=
  (c.load source).toOption.elim c Prod.snd

def takeOut (c : Chooser) (id : Int) : Chooser := (c.disable id).toOption.getD c

def putBack (c : Chooser) (id : Int) : Chooser := (c.enable id).toOption.getD c

end Chooser

namespace Dispatch

def withCooldowns (d : Dispatch) (f : Cooldowns → Cooldowns) : Dispatch :=
  { d with chooser := { d.chooser with cooldowns := f d.chooser.cooldowns } }

def step (d : Dispatch) : DispatchOp → Dispatch
  | .load => { d with chooser := d.chooser.reload d.store.routingSource }
  | .setStatus id status =>
    let (_, chooser, store) := d.chooser.setStatus d.store id status
    { d with chooser, store }
  | .autoDisable id =>
    let (_, chooser, store) := d.chooser.autoDisable d.store id
    { d with chooser, store }
  | .disable id => { d with chooser := d.chooser.takeOut id }
  | .enable id => { d with chooser := d.chooser.putBack id }
  | .mark id model => d.withCooldowns (·.mark d.now id model)
  | .markFor id model ttl => d.withCooldowns (·.markFor d.now id model ttl)
  | .clear id model => d.withCooldowns (·.clear id model)
  | .sweep => d.withCooldowns (·.sweep d.now)
  | .select group model filters =>
    { d with random := (d.chooser.select d.now group model filters d.random).2 }
  | .wait span => { d with now := d.now + span }

def run (d : Dispatch) (ops : List DispatchOp) : Dispatch := ops.foldl step d

/-- The table in force has just been read off the store. -/
structure Loaded (d : Dispatch) : Prop where
  keyed : d.store.Keyed
  table : ∃ channels abilities, d.store.routingSource = .ok (channels, abilities) ∧
    d.chooser.table = .build channels abilities

theorem Loaded.routable {d : Dispatch} (h : d.Loaded) : d.store.Routable := by
  obtain ⟨channels, abilities, hsource, -⟩ := h.table
  exact (Store.routingSource_ok hsource).1

end Dispatch

namespace RoutingTable

/-- A table has the channels that it was built from, the later of two with one id. -/
theorem channel?_build (channels : List Channel) (abilities : List Ability) (id : Int) :
    (build channels abilities).channel? id = channels.reverse.find? (·.id = id) := by
  show (Dict.ofList (channels.map fun c => (c.id, c))).get? id = _
  rw [Dict.get?_ofList, ← List.map_reverse, List.find?_map, Option.map_map]
  exact Option.map_id'

theorem mem_of_channel?_build {channels : List Channel} {abilities : List Ability} {id : Int}
    {channel : Channel} (h : (build channels abilities).channel? id = some channel) :
    channel ∈ channels ∧ channel.id = id := by
  rw [channel?_build] at h
  exact ⟨List.mem_reverse.mp (List.mem_of_find?_eq_some h), by simpa using List.find?_some h⟩

theorem isSome_channel?_build {channels : List Channel} {abilities : List Ability} {id : Int} :
    ((build channels abilities).channel? id).isSome ↔ ∃ c ∈ channels, c.id = id := by
  rw [channel?_build, List.find?_isSome]
  simp

end RoutingTable

namespace Chooser

variable {c : Chooser} {s : Store} {id : Int} {channels : List Channel} {abilities : List Ability}

-- ---------------------------------------------------------------------------
-- What each operation does to the flags
-- ---------------------------------------------------------------------------

theorem reload_ok (c : Chooser) (channels : List Channel) (abilities : List Ability) :
    c.reload (.ok (channels, abilities)) = { c with
      table := .build channels abilities
      disabled := c.disabled.filter fun id =>
        ((RoutingTable.build channels abilities).channel? id).isSome } := rfl

theorem takeOut_eq (c : Chooser) (id : Int) :
    c.takeOut id = if (c.table.channel? id).isSome ∧ id ∉ c.disabled then
      { c with disabled := c.disabled ++ [id] } else c := by
  rw [takeOut, disable, channel]
  cases c.table.channel? id with
  | none => rfl
  | some channel =>
    by_cases h : id ∈ c.disabled
    · simp [h, bind, Except.bind, pure, Except.pure, Except.toOption]
    · simp [h, bind, Except.bind, pure, Except.pure, Except.toOption]

@[simp] theorem table_takeOut (c : Chooser) (id : Int) : (c.takeOut id).table = c.table := by
  rw [takeOut_eq]
  split <;> rfl

theorem mem_disabled_takeOut {other : Int} :
    other ∈ (c.takeOut id).disabled ↔
      other ∈ c.disabled ∨ other = id ∧ (c.table.channel? id).isSome := by
  rw [takeOut_eq]
  by_cases hc : (c.table.channel? id).isSome
  · by_cases hd : id ∈ c.disabled
    · simp only [hc, hd, not_true_eq_false, and_false, if_false, and_true]
      exact ⟨.inl, fun h => h.elim (fun h => h) (fun h => h ▸ hd)⟩
    · simp [hc, hd]
  · simp [hc]

theorem putBack_eq (c : Chooser) (id : Int) :
    c.putBack id = if (c.table.channel? id).isSome then
      { c with disabled := c.disabled.filter (· ≠ id) } else c := by
  rw [putBack, enable, channel]
  cases c.table.channel? id <;> rfl

@[simp] theorem table_putBack (c : Chooser) (id : Int) : (c.putBack id).table = c.table := by
  rw [putBack_eq]
  split <;> rfl

theorem mem_disabled_putBack {other : Int} :
    other ∈ (c.putBack id).disabled ↔
      other ∈ c.disabled ∧ (other = id → (c.table.channel? id).isSome = false) := by
  rw [putBack_eq]
  by_cases hc : (c.table.channel? id).isSome
  · simp [hc]
  · simp [hc]

-- ---------------------------------------------------------------------------
-- Changing a status
-- ---------------------------------------------------------------------------

/-- What becomes of the chooser once the store has the new status. -/
def follow (c : Chooser) (s : Store) (id : Int) (status : ChannelStatus) : Chooser :=
  if status = .enabled then
    match s.routingSource with
    | .error _ => c
    | .ok source => (c.reload (.ok source)).putBack id
  else c.takeOut id

def told (c : Chooser) (s : Store) (status : ChannelStatus) : Except RoutingError Unit :=
  if status = .enabled then (c.load s.routingSource).map fun _ => () else .ok ()

theorem setStatus_missing (h : s.guard .channels = .ok ())
    (hrow : ¬∃ row ∈ s.channels.rows, row.id = id) (c : Chooser) (status : ChannelStatus) :
    c.setStatus s id status = (.error (.channelNotFound id), c, s) := by
  have hany : s.channels.rows.any (·.id = id) = false := by simpa using hrow
  have hwrite : s.setChannelStatus id status = .ok (false,
      { s with channels := s.channels.update (·.id = id) ({ · with status }) }) := by
    rw [Store.setChannelStatus, h, hany]
    rfl
  rw [setStatus, writeStatus, hwrite]

/-- A change of a stored status is written whole, where the channel has a row. -/
theorem setStatus_eq (h : s.Routable) (c : Chooser) (id : Int) (status : ChannelStatus) :
    (∃ row ∈ s.channels.rows, row.id = id) ∧
      c.setStatus s id status = (c.told (s.withStatus id status) status,
        c.follow (s.withStatus id status) id status, s.withStatus id status) ∨
    (¬∃ row ∈ s.channels.rows, row.id = id) ∧
      c.setStatus s id status = (.error (.channelNotFound id), c, s) := by
  by_cases hrow : ∃ row ∈ s.channels.rows, row.id = id
  · refine .inl ⟨hrow, ?_⟩
    have hany : s.channels.rows.any (·.id = id) = true := by simpa using hrow
    have hwrite : s.setChannelStatus id status = .ok (true,
        { s with channels := s.channels.update (·.id = id) ({ · with status }) }) := by
      rw [Store.setChannelStatus, h.channels, hany]
      rfl
    have hswitch : ({ s with channels := s.channels.update (·.id = id) ({ · with status }) } :
        Store).setAbilitiesEnabled id status.isEnabled =
          .ok ((s.abilities.filter (·.channelId = id)).length, s.withStatus id status) := by
      have hserved : ({ s with channels := s.channels.update (·.id = id) ({ · with status }) } :
        Store).guard .abilities = .ok () := h.abilities
      rw [Store.setAbilitiesEnabled, hserved]
      rfl
    simp only [setStatus, writeStatus, hwrite, hswitch]
    cases status with
    | enabled =>
      rw [told, if_pos rfl, follow, if_pos rfl]
      cases (s.withStatus id .enabled).routingSource <;> rfl
    | manuallyDisabled | autoDisabled => rfl
  · exact .inr ⟨hrow, setStatus_missing h.channels hrow c status⟩

theorem channelStatus?_setStatus (h : s.Routable) (c : Chooser) (id : Int) (status : ChannelStatus)
    (other : Int) :
    (c.setStatus s id status).2.2.channelStatus? other =
      if other = id then (s.channelStatus? id).map fun _ => status else s.channelStatus? other := by
  rcases setStatus_eq h c id status with ⟨-, heq⟩ | ⟨hrow, heq⟩
  · rw [heq]
    exact s.channelStatus?_withStatus id status other
  · have hnone : s.channelStatus? id = none := by
      rw [Store.channelStatus?, Store.channelRow?, Option.map_eq_none_iff, List.find?_eq_none]
      exact fun row hmem => by simpa using fun hid => hrow ⟨row, hmem, hid⟩
    rw [heq]
    by_cases hid : other = id
    · rw [if_pos hid, hid, hnone]
      rfl
    · rw [if_neg hid]

theorem autoDisable_eq (c : Chooser) (s : Store) (id : Int) :
    (∃ channel, c.table.channel? id = some channel ∧ channel.autoBan = true ∧
      c.autoDisable s id = ((c.setStatus s id .autoDisabled).1.map fun _ => true,
        (c.setStatus s id .autoDisabled).2)) ∨
    (c.autoDisable s id).1 ≠ .ok true ∧ (c.autoDisable s id).2 = (c, s) := by
  rw [autoDisable, channel]
  cases hc : c.table.channel? id with
  | none => exact .inr ⟨nofun, rfl⟩
  | some channel =>
    cases hban : channel.autoBan with
    | true => exact .inl ⟨channel, rfl, hban, by simp [hban]⟩
    | false => exact .inr ⟨by simp [hban], by simp [hban]⟩

theorem isDisabled_eq (c : Chooser) (id : Int) :
    c.isDisabled id = if (c.table.channel? id).isSome then .ok (decide (id ∈ c.disabled))
      else .error (.channelNotFound id) := by
  rw [isDisabled, channel]
  cases c.table.channel? id <;> rfl

end Chooser

namespace Dispatch

def twinStore : Store where
  channels := { rows := [1, 2].map fun id => .ofChannel (Chooser.spareChannel id) id, lastId := 2 }
  abilities := [1, 2].flatMap fun id => (Chooser.spareChannel id).abilities

def twinDispatch : Dispatch where
  chooser := { table := .build ([1, 2].map Chooser.spareChannel) twinStore.abilities }
  store := twinStore

theorem loaded_twinDispatch : twinDispatch.Loaded where
  keyed := by decide
  table := by
    have hrows : twinStore.channels.rows.mergeSort (fun a b => a.id ≤ b.id) =
        twinStore.channels.rows := List.mergeSort_of_pairwise (by decide)
    have habilities : twinStore.abilities.mergeSort Ability.listedBefore = twinStore.abilities :=
      List.mergeSort_of_pairwise (by decide +kernel)
    refine ⟨[1, 2].map Chooser.spareChannel, twinStore.abilities, ?_, rfl⟩
    simp only [twinDispatch, Store.routingSource, Store.listChannels, Store.listAbilities, hrows,
      habilities]
    rfl

end Dispatch

end Tollgate
