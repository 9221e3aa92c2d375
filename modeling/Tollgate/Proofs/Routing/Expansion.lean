import Tollgate.Proofs.Routing.Meaning
import Tollgate.Proofs.Store.Rebuilding

/-!
# The stored and the unfolded abilities

A table may be built from the rows that rebuilds have left in the store, or
from what the lists of the channels unfold to. Where every channel was last
rebuilt from the record it has, both route alike (`stored_routes_alike`).
-/

namespace Tollgate

/-- A channel is added, or its abilities are rebuilt from a record of it. -/
inductive RosterOp where
  | add (channel : Channel)
  | rebuild (channel : Channel)

namespace RosterOp

def added? : RosterOp → Option Channel
  | .add channel => some channel
  | .rebuild _ => none

def rebuilt? : RosterOp → Option Channel
  | .add _ => none
  | .rebuild channel => some channel

def lastRebuilt? (ops : List RosterOp) (id : Int) : Option Channel :=
  (ops.filterMap rebuilt?).reverse.find? (·.id = id)

theorem lastRebuilt?_rebuild (c : Channel) (ops : List RosterOp) (id : Int) :
    lastRebuilt? (.rebuild c :: ops) id =
      (lastRebuilt? ops id).or (if c.id = id then some c else none) := by
  rw [lastRebuilt?, List.filterMap_cons, rebuilt?, List.reverse_cons, List.find?_append]
  by_cases h : c.id = id <;> simp [lastRebuilt?, h]

end RosterOp

namespace Store

open RosterOp (added? lastRebuilt?)

variable {s s' : Store} {c : Channel} {channels : List Channel} {ops : List RosterOp}

def rosterStep (s : Store) : RosterOp → Except StoreFault Store
  | .add channel => (s.addChannel channel).map Prod.snd
  | .rebuild channel => (s.rebuildAbilities channel).map Prod.snd

def rosterRun (s : Store) (ops : List RosterOp) : Except StoreFault Store := ops.foldlM rosterStep s

theorem addChannel_eq (hs : s.Routable) (hpos : 0 < c.id)
    (hnew : c.id ∉ s.channels.rows.map (·.id)) :
    s.addChannel c =
      .ok (c.id, { s with channels := s.channels.add c.id (.ofChannel c c.id) }) := by
  have hany : s.channels.rows.any (·.id = c.id) = false := by
    simpa using hnew
  rw [addChannel, hs.channels, Numbered.assign, if_pos hpos]
  simp [bind, Except.bind, pure, Except.pure, hany]

/-- The rows of a channel are those of its last rebuild, or what they were. -/
def LeftBy (s s' : Store) (ops : List RosterOp) : Prop :=
  ∀ a, a ∈ s'.abilities ↔
    (lastRebuilt? ops a.channelId).elim (a ∈ s.abilities) (a ∈ ·.abilities)

theorem LeftBy.rebuild (h : (s.rebuilt c).LeftBy s' ops) : s.LeftBy s' (.rebuild c :: ops) := by
  intro a
  rw [h a, RosterOp.lastRebuilt?_rebuild]
  cases lastRebuilt? ops a.channelId with
  | some last => rfl
  | none =>
    rw [Option.elim_none, mem_rebuilt, Option.none_or]
    by_cases hid : c.id = a.channelId
    · simp [hid]
    · rw [if_neg hid, Option.elim_none, or_iff_left, and_iff_left (Ne.symm hid)]
      exact fun ha => hid (Channel.channelId_of_mem_abilities ha).symm

theorem rosterRun_ok (hs : s.Routable)
    (hids : (s.channels.rows.map (·.id) ++ (ops.filterMap added?).map (·.id)).Nodup)
    (hpos : ∀ c ∈ ops.filterMap added?, 0 < c.id) :
    ∃ s', s.rosterRun ops = .ok s' ∧ s'.Routable ∧ s.LeftBy s' ops ∧ s'.channels.rows =
      s.channels.rows ++ (ops.filterMap added?).map fun c => .ofChannel c c.id := by
  -- A channel that is still to be added is new to each store on the way.
  induction ops generalizing s with
  | nil => exact ⟨s, rfl, hs, fun a => Iff.rfl, by simp⟩
  | cons op ops ih =>
    cases op with
    | add c =>
      rw [List.filterMap_cons, added?, List.map_cons] at hids
      rw [List.filterMap_cons, added?] at hpos
      have hnew : c.id ∉ s.channels.rows.map (·.id) := fun hmem =>
        (List.nodup_append.mp hids).2.2 _ hmem _ (List.mem_cons_self ..) rfl
      obtain ⟨s', hrun, hs', hleft, hrows⟩ := ih
        (s := { s with channels := s.channels.add c.id (.ofChannel c c.id) })
        ⟨hs.channels, hs.abilities⟩
        (by simpa [Numbered.add, ChannelRow.ofChannel] using hids)
        fun c' hc' => hpos c' (List.mem_cons_of_mem _ hc')
      refine ⟨s', ?_, hs', hleft, ?_⟩
      · rw [rosterRun, List.foldlM_cons, rosterStep,
          addChannel_eq hs (hpos c (List.mem_cons_self ..)) hnew]
        exact hrun
      · rw [hrows]
        simp [Numbered.add, added?]
    | rebuild c =>
      obtain ⟨s', hrun, hs', hleft, hrows⟩ := ih (s := s.rebuilt c) ⟨hs.channels, hs.abilities⟩
        hids hpos
      refine ⟨s', ?_, hs', hleft.rebuild, hrows⟩
      rw [rosterRun, List.foldlM_cons, rosterStep, rebuildAbilities_eq hs.abilities]
      exact hrun

theorem listChannels_ok (hs : s.Routable)
    (hrows : s.channels.rows = channels.map fun c => .ofChannel c c.id) :
    ∃ listed, s.listChannels = .ok listed ∧ listed.Perm channels := by
  refine ⟨channels.mergeSort fun a b => a.id ≤ b.id, ?_, List.mergeSort_perm _ _⟩
  have hsort := List.map_mergeSort (r := fun a b : Channel => decide (a.id ≤ b.id))
    (s := fun a b : ChannelRow => decide (a.id ≤ b.id)) (f := fun c => ChannelRow.ofChannel c c.id)
    (l := channels) fun _ _ _ _ => rfl
  have hread : (ChannelRow.read ∘ fun c => ChannelRow.ofChannel c c.id) = pure := rfl
  rw [listChannels, hs.channels, hrows, ← hsort, List.mapM_map, hread, List.mapM_pure]
  simp

end Store

namespace RoutingTable

variable {channels listed : List Channel} {abilities rows : List Ability}

/-- Rows of channels that are not listed route nothing. -/
theorem routed_of_listed (hlisted : ∀ c, c ∈ listed ↔ c ∈ channels)
    (h : ∀ a, (∃ c ∈ channels, c.id = a.channelId) → (a ∈ rows ↔ a ∈ abilities)) :
    Routed listed rows = Routed channels abilities := by
  funext group key q id
  simp only [Routed, hlisted]
  refine propext (exists_congr fun a => ?_)
  constructor
  · rintro ⟨ha, henabled, hgroup, hkey, hq, rfl, hc⟩
    exact ⟨(h a hc).mp ha, henabled, hgroup, hkey, hq, rfl, hc⟩
  · rintro ⟨ha, henabled, hgroup, hkey, hq, rfl, hc⟩
    exact ⟨(h a hc).mpr ha, henabled, hgroup, hkey, hq, rfl, hc⟩

theorem tiers_of_routed (h : Routed listed rows = Routed channels abilities)
    (group model : String) :
    (build listed rows).tiers group model = (build channels abilities).tiers group model := by
  have hlive : Live listed rows = Live channels abilities := by
    funext group key
    simp only [Live, h]
  ext tiers
  rw [tiers_eq_some_iff, tiers_eq_some_iff, h, hlive]

end RoutingTable

namespace Chooser

open RosterOp (added? lastRebuilt?)

/-- A channel list added to a store that has none, whatever abilities it has and whatever is
rebuilt in between: where each channel was last rebuilt from what it is, a table that is loaded
from the store routes as one of what the channels unfold to. A rebuild that is served puts down
what a channel unfolds to beside the untouched rows of the others, each key once, and a second one
changes nothing. -/
theorem stored_routes_alike (chooser : Chooser) (s : Store) (hs : s.Routable)
    (hnone : s.channels.rows = []) (ops : List RosterOp) (channels : List Channel)
    (hadded : (ops.filterMap added?).Perm channels) (hids : (channels.map (·.id)).Nodup)
    (hpos : ∀ c ∈ channels, 0 < c.id) (hlast : ∀ c ∈ channels, lastRebuilt? ops c.id = some c) :
    (∃ s' report loaded, s.rosterRun ops = .ok s' ∧
      chooser.load s'.routingSource = .ok (report, loaded) ∧
      ∀ group model, loaded.table.tiers group model =
        (RoutingTable.build channels (channels.flatMap Channel.abilities)).tiers group model) ∧
    ∀ (t : Store) (c : Channel), t.guard .abilities = .ok () →
      ∃ t', t.rebuildAbilities c = .ok (c.abilities.length, t') ∧
        t'.abilities.filter (·.channelId ≠ c.id) = t.abilities.filter (·.channelId ≠ c.id) ∧
        (∀ a, a.channelId = c.id → (a ∈ t'.abilities ↔ a ∈ c.abilities)) ∧
        t'.rebuildAbilities c = .ok (c.abilities.length, t') ∧
        Ability.Distinct (t'.abilities.filter (·.channelId = c.id)) ∧
        (Ability.Distinct t.abilities → Ability.Distinct t'.abilities) := by
  constructor
  · have hids' : (s.channels.rows.map (·.id) ++ (ops.filterMap added?).map (·.id)).Nodup := by
      rw [hnone]
      exact (hadded.map _).nodup_iff.mpr hids
    obtain ⟨s', hrun, hs', hleft, hrows⟩ := Store.rosterRun_ok hs hids'
      fun c hc => hpos c (hadded.mem_iff.mp hc)
    rw [hnone, List.nil_append] at hrows
    obtain ⟨listed, hlist, hperm⟩ := Store.listChannels_ok hs' hrows
    have hlisted : ∀ c, c ∈ listed ↔ c ∈ channels := fun c => (hperm.trans hadded).mem_iff
    have hsource : s'.routingSource =
        .ok (listed, s'.abilities.mergeSort Ability.listedBefore) := by
      rw [Store.routingSource, hlist, Store.listAbilities, hs'.abilities]
      rfl
    refine ⟨s', _, _, hrun, (congrArg chooser.load hsource).trans rfl,
      RoutingTable.tiers_of_routed ?_⟩
    refine RoutingTable.routed_of_listed hlisted ?_
    rintro a ⟨c, hc, hid⟩
    rw [List.mem_mergeSort, hleft a, ← hid, hlast c hc, Option.elim_some, List.mem_flatMap]
    constructor
    · intro ha
      exact ⟨c, hc, ha⟩
    · -- An ability of a channel with this id is one of this channel.
      rintro ⟨c', hc', ha⟩
      have hsame : c'.id = c.id := (Channel.channelId_of_mem_abilities ha).symm.trans hid.symm
      rwa [← List.inj_on_of_nodup_map hids hc' hc hsame]
  · intro t c ht
    refine ⟨t.rebuilt c, Store.rebuildAbilities_eq ht c, Store.filter_rebuilt t c, fun a ha => ?_,
      ?_, Store.distinct_filter_rebuilt t c, fun h => Store.distinct_rebuilt h c⟩
    · rw [Store.mem_rebuilt]
      simp [ha]
    · rw [Store.rebuildAbilities_eq (by exact ht), Store.rebuilt_rebuilt]

def untidyChannel (id : Int) (models : String) : Channel where
  id := id
  name := "c"
  key := "k"
  baseUrl := none
  status := .enabled
  weight := 1
  priority := 0
  group := " vip ,, default,vip"
  models := models
  proxy := none
  usedQuota := 0
  autoBan := true

/-- One channel has moved to another model since its first rebuild, one was only ever rebuilt, and
one has left its rows behind. -/
theorem stored_routes_alike_untidy :
    let channels := [untidyChannel 2 "claude-* ,gpt-4o,", untidyChannel 1 "gpt-4o, gpt-4o"]
    let ops : List RosterOp := [.rebuild (untidyChannel 1 "o1"),
      .add (untidyChannel 1 "gpt-4o, gpt-4o"), .rebuild (untidyChannel 1 "gpt-4o, gpt-4o"),
      .add (untidyChannel 2 "claude-* ,gpt-4o,"), .rebuild (untidyChannel 7 "gpt-4o"),
      .rebuild (untidyChannel 2 "claude-* ,gpt-4o,"), .rebuild (untidyChannel 1 "gpt-4o, gpt-4o")]
    let s : Store :=
      { abilities := [⟨"vip", "gpt-4o", 9, true, 5, 1⟩, ⟨"vip", "o1", 2, true, 5, 1⟩] }
    (∀ c ∈ channels, lastRebuilt? ops c.id = some c) ∧
      ∃ s' report loaded, s.rosterRun ops = .ok s' ∧
        Chooser.load {} s'.routingSource = .ok (report, loaded) ∧
        loaded.table.tiers "vip" "gpt-4o" = some [⟨0, [1, 2]⟩] ∧
        loaded.table.tiers "vip" "claude-3-opus" = some [⟨0, [2]⟩] ∧
        loaded.table.tiers "vip" "o1" = none := by
  intro channels ops s
  have hlast : ∀ c ∈ channels, lastRebuilt? ops c.id = some c := by decide +kernel
  obtain ⟨⟨s', report, loaded, hrun, hload, htiers⟩, -⟩ := stored_routes_alike {} s ⟨rfl, rfl⟩ rfl
    ops channels (by decide +kernel) (by decide) (by decide) hlast
  refine ⟨hlast, s', report, loaded, hrun, hload, ?_, ?_, ?_⟩
  · exact (htiers ..).trans (by cbv)
  · exact (htiers ..).trans (by cbv)
  · exact (htiers ..).trans (by cbv)

end Chooser

end Tollgate
