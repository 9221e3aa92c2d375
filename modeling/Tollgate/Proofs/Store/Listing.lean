import Tollgate.Proofs.Answers
import Tollgate.Proofs.Store.Counters
import Tollgate.Routing.Chooser

/-!
# Channels as they are listed

What a routing source reads off the store: every channel row once, with the id
and the status it is stored with. A status that is written and written back
leaves the store as it was.
-/

namespace Tollgate

theorem ChannelRow.read_ok {r : ChannelRow} (h : r.read = .ok c) :
    c.id = r.id ∧ c.status = r.status := by
  simp only [ChannelRow.read, bind_eq_ok, pure_eq_ok] at h
  obtain ⟨_, -, rfl⟩ := h
  exact ⟨rfl, rfl⟩

namespace Store

variable {s : Store} {channels : List Channel} {abilities : List Ability} {id : Int}

def channelStatus? (s : Store) (id : Int) : Option ChannelStatus :=
  (s.channelRow? id).map (·.status)

def Keyed (s : Store) : Prop := (s.channels.rows.map (·.id)).Nodup

instance : Decidable s.Keyed := inferInstanceAs (Decidable (List.Nodup _))

structure Routable (s : Store) : Prop where
  channels : s.guard .channels = .ok ()
  abilities : s.guard .abilities = .ok ()

theorem routingSource_ok (h : s.routingSource = .ok (channels, abilities)) :
    s.Routable ∧ s.listChannels = .ok channels ∧ s.listAbilities = .ok abilities := by
  simp only [routingSource, bind_eq_ok, pure_eq_ok, mapError_eq_ok] at h
  obtain ⟨channels', hc, abilities', ha, hpair⟩ := h
  cases hpair
  refine ⟨?_, hc, ha⟩
  simp only [listChannels, listAbilities, bind_eq_ok] at hc ha
  obtain ⟨_, hchannels, -⟩ := hc
  obtain ⟨_, habilities, -⟩ := ha
  exact ⟨hchannels, habilities⟩

theorem status_of_listed (hk : s.Keyed) (h : s.listChannels = .ok channels) (hc : c ∈ channels) :
    s.channelStatus? c.id = some c.status := by
  simp only [listChannels, bind_eq_ok] at h
  obtain ⟨-, -, h⟩ := h
  obtain ⟨row, hrow, hread⟩ := mem_of_mapM_ok h hc
  obtain ⟨hid, hstatus⟩ := ChannelRow.read_ok hread
  rw [hid, channelStatus?, channelRow?,
    find?_of_mem ChannelRow.id hk (List.mem_mergeSort.mp hrow), hstatus]
  rfl

theorem exists_row_of_status (h : s.channelStatus? id = some status) :
    ∃ row ∈ s.channels.rows, row.id = id := by
  obtain ⟨row, hrow, -⟩ := Option.map_eq_some_iff.mp h
  exact ⟨row, List.mem_of_find?_eq_some hrow, by simpa using List.find?_some hrow⟩

theorem status_of_row (hk : s.Keyed) (h : s.channelStatus? id = some status) :
    ∀ row ∈ s.channels.rows, row.id = id → row.status = status := by
  rintro row hrow rfl
  rw [channelStatus?, channelRow?, find?_of_mem ChannelRow.id hk hrow] at h
  exact Option.some.inj h

theorem exists_listed_iff (h : s.listChannels = .ok channels) :
    (∃ c ∈ channels, c.id = id) ↔ ∃ row ∈ s.channels.rows, row.id = id := by
  simp only [listChannels, bind_eq_ok] at h
  obtain ⟨-, -, h⟩ := h
  have hids := map_of_mapM_ok Channel.id (fun _ _ hread => (ChannelRow.read_ok hread).1) h
  calc (∃ c ∈ channels, c.id = id) ↔ id ∈ channels.map (·.id) := List.mem_map.symm
    _ ↔ ∃ row ∈ s.channels.rows, row.id = id := by
      rw [hids, List.mem_map]
      simp only [List.mem_mergeSort]

-- ---------------------------------------------------------------------------
-- Writing a status
-- ---------------------------------------------------------------------------

/-- The store with another status for a channel and its abilities switched accordingly. -/
def withStatus (s : Store) (id : Int) (status : ChannelStatus) : Store :=
  { s with
    channels := s.channels.update (·.id = id) ({ · with status })
    abilities := s.abilities.map fun a =>
      if a.channelId = id then { a with enabled := status.isEnabled } else a }

theorem ids_withStatus (s : Store) (id : Int) (status : ChannelStatus) :
    (s.withStatus id status).channels.rows.map (·.id) = s.channels.rows.map (·.id) :=
  map_key_update (fun _ => by rfl) _

theorem exists_row_withStatus (s : Store) (id : Int) (status : ChannelStatus) (other : Int) :
    (∃ row ∈ (s.withStatus id status).channels.rows, row.id = other) ↔
      ∃ row ∈ s.channels.rows, row.id = other := by
  rw [← List.mem_map, ids_withStatus, List.mem_map]

theorem Keyed.withStatus (hk : s.Keyed) (id : Int) (status : ChannelStatus) :
    (s.withStatus id status).Keyed :=
  nodup_update hk fun _ => by rfl

theorem Routable.withStatus (h : s.Routable) (id : Int) (status : ChannelStatus) :
    (s.withStatus id status).Routable := ⟨h.channels, h.abilities⟩

theorem channelStatus?_withStatus (s : Store) (id : Int) (status : ChannelStatus) (other : Int) :
    (s.withStatus id status).channelStatus? other =
      if other = id then (s.channelStatus? id).map fun _ => status else s.channelStatus? other := by
  have hfind := find?_map_id ChannelRow.id (f := ({ · with status })) (fun _ => rfl)
    s.channels.rows id other
  have hrows : (s.withStatus id status).channels.rows =
      s.channels.rows.map fun row => if row.id = id then { row with status } else row := by
    simp [Store.withStatus, Numbered.update]
  rw [channelStatus?, channelRow?, hrows, hfind]
  by_cases h : other = id
  · subst h
    rw [if_pos rfl, if_pos rfl, channelStatus?, Option.map_map, Option.map_map]
    rfl
  · rw [if_neg h, if_neg h]
    rfl

/-- A channel that was enabled with all its abilities gets back all that it had. -/
theorem withStatus_withStatus
    (hstatus : ∀ row ∈ s.channels.rows, row.id = id → row.status = .enabled)
    (habilities : ∀ a ∈ s.abilities, a.channelId = id → a.enabled = true) (status : ChannelStatus) :
    (s.withStatus id status).withStatus id .enabled = s := by
  have hrows : (s.withStatus id status).channels.update (·.id = id)
      ({ · with status := .enabled }) = s.channels := by
    simp only [Store.withStatus, Numbered.update, List.map_map]
    refine congrArg (Numbered.mk · s.channels.lastId) ?_
    refine (List.map_congr_left fun row hrow => ?_).trans (List.map_id' _)
    by_cases h : row.id = id
    · subst h
      simp [← hstatus row hrow rfl]
    · simp [h]
  have hswitched : ((s.withStatus id status).abilities.map fun a =>
      if a.channelId = id then { a with enabled := ChannelStatus.isEnabled .enabled } else a) =
        s.abilities := by
    simp only [Store.withStatus, List.map_map]
    refine (List.map_congr_left fun a ha => ?_).trans (List.map_id' _)
    by_cases h : a.channelId = id
    · subst h
      have henabled : ChannelStatus.isEnabled .enabled = a.enabled := (habilities a ha rfl).symm
      simp [henabled]
    · simp [h]
  show Store.mk s.users s.tokens ((s.withStatus id status).channels.update _ _)
    (List.map _ (s.withStatus id status).abilities) s.logs s.poisoned s.hidden s.lost = s
  rw [hrows, hswitched]

end Store

end Tollgate
