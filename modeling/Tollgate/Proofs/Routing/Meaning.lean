import Tollgate.Proofs.Routing.Tiers

/-!
# What a routing table means

A table answers a group and a model with the tier list of one key: the model
itself where anything is routed under it, and otherwise the longest pattern
that the model begins with (`tiers_meaning`). What is routed under a key is a
set, so abilities may be in any order and may be repeated.
-/

namespace Tollgate

/-- The key that answers for a model, where `live` holds of the keys that anything is routed
under. -/
inductive KeyFor (live : String → Prop) (model : String) : String → Prop
  | own : live model → KeyFor live model model
  | pattern {p : String} : ¬ live model → live (p ++ "*") → p.toList <+: model.toList →
      (∀ p' : String, live (p' ++ "*") → p'.toList <+: model.toList → p'.length ≤ p.length) →
      KeyFor live model (p ++ "*")

theorem KeyFor.not_dead (h : KeyFor live model key) :
    ¬ (¬ live model ∧ ∀ p : String, live (p ++ "*") → ¬ p.toList <+: model.toList) := by
  rintro ⟨hdead, hnone⟩
  cases h with
  | own hlive => exact hdead hlive
  | pattern _ hlive hp => exact hnone _ hlive hp

theorem KeyFor.unique (h : KeyFor live model key) (h' : KeyFor live model key') : key = key' := by
  cases h with
  | own hlive =>
    cases h' with
    | own => rfl
    | pattern hdead => exact absurd hlive hdead
  | @pattern p hdead hlive hp hlongest =>
    cases h' with
    | own hlive => exact absurd hlive hdead
    | @pattern p' _ hlive' hp' hlongest' =>
      have hlen : p.length = p'.length := Nat.le_antisymm (hlongest' p hlive hp)
        (hlongest p' hlive' hp')
      have hpp : p.toList <+: p'.toList := List.prefix_of_prefix_length_le hp hp' (by
        rw [String.length_toList, String.length_toList]
        exact Nat.le_of_eq hlen)
      have hlist := hpp.eq_of_length (by rw [String.length_toList, String.length_toList, hlen])
      rw [String.toList_inj.mp hlist]

-- ---------------------------------------------------------------------------
-- Wildcards
-- ---------------------------------------------------------------------------

namespace Wildcard

variable {a b c w : Wildcard} {l : List Wildcard} {key model : String}

theorem ofKey?_eq_some : ofKey? key = some w ↔ w.pattern = key ∧ key = w.lead ++ "*" := by
  have hstar (p : List Char) : key.toList.reverse = '*' :: p ↔ key = .ofList p.reverse ++ "*" := by
    rw [List.reverse_eq_iff, List.reverse_cons, ← String.toList_inj, String.toList_append,
      String.toList_ofList]
    rfl
  rw [ofKey?]
  split
  · next rest hrest =>
    rw [Option.some.injEq]
    constructor
    · rintro rfl
      exact ⟨rfl, (hstar rest).mp hrest⟩
    · rintro ⟨rfl, hkey⟩
      have hlead := (hstar rest).mp hrest
      rw [hkey, String.append_left_inj] at hlead
      exact congrArg (Wildcard.mk · w.pattern) hlead.symm
  · next hrest =>
    refine ⟨nofun, fun h => absurd ((hstar w.lead.toList.reverse).mpr ?_) (hrest _)⟩
    rw [List.reverse_reverse, String.ofList_toList]
    exact h.2

theorem before_bytes (h : before a b = true) : b.lead.utf8ByteSize ≤ a.lead.utf8ByteSize := by
  rw [before] at h
  split at h
  · omega
  · exact Nat.le_of_lt (of_decide_eq_true h)

theorem before_trans (hab : before a b = true) (hbc : before b c = true) : before a c = true := by
  have hbytes := before_bytes hab
  have hbytes' := before_bytes hbc
  rw [before] at *
  split
  · next hac =>
    rw [if_pos (by omega), decide_eq_true_eq] at hab hbc
    exact decide_eq_true (String.le_trans hab hbc)
  · exact decide_eq_true (by omega)

theorem before_total (a b : Wildcard) : (before a b || before b a) = true := by
  rw [Bool.or_eq_true, before, before]
  by_cases h : a.lead.utf8ByteSize = b.lead.utf8ByteSize
  · rw [if_pos h, if_pos h.symm, decide_eq_true_eq, decide_eq_true_eq]
    exact String.le_total ..
  · rw [if_neg h, if_neg (Ne.symm h), decide_eq_true_eq, decide_eq_true_eq]
    omega

/-- What is found first in a sorted list comes before all that could have been found. -/
theorem before_of_find? {p : Wildcard → Bool} (hl : l.Pairwise fun a b => before a b = true)
    (hw : l.find? p = some w) : ∀ a ∈ l, p a = true → before w a = true := by
  obtain ⟨-, skipped, rest, rfl, hskipped⟩ := List.find?_eq_some_iff_append.mp hw
  intro a ha hp
  rcases List.mem_append.mp ha with ha | ha
  · have hnot := hskipped a ha
    rw [hp] at hnot
    cases hnot
  · rcases List.mem_cons.mp ha with rfl | ha
    · simpa using before_total a a
    · exact (List.pairwise_cons.mp (List.pairwise_append.mp hl).2.1).1 a ha

theorem length_le_of_bytes {p q : String} {text : List Char} (hp : p.toList <+: text)
    (hq : q.toList <+: text) (h : q.utf8ByteSize ≤ p.utf8ByteSize) : q.length ≤ p.length := by
  refine Nat.le_of_not_lt fun hlt => ?_
  obtain ⟨rest, hrest⟩ : p.toList <+: q.toList := by
    refine List.prefix_of_prefix_length_le hp hq ?_
    rw [String.length_toList, String.length_toList]
    exact Nat.le_of_lt hlt
  obtain rfl : p ++ .ofList rest = q := by
    rw [← String.toList_inj, String.toList_append, String.toList_ofList]
    exact hrest
  rw [String.utf8ByteSize_append] at h
  have hempty : String.ofList rest = "" := String.utf8ByteSize_eq_zero_iff.mp (by omega)
  rw [hempty, String.append_empty] at hlt
  exact Nat.lt_irrefl _ hlt

end Wildcard

namespace RoutingTable

variable {channels : List Channel} {abilities abilities' : List Ability}
  {group model key : String} {q id : Int} {tiers : List Tier} {t : RoutingTable}

/-- An enabled ability puts a channel that exists at a priority under a key. -/
def Routed (channels : List Channel) (abilities : List Ability) (group key : String)
    (q id : Int) : Prop :=
  ∃ a ∈ abilities, a.enabled = true ∧ a.group = group ∧ a.model = key ∧ a.priority = q ∧
    a.channelId = id ∧ ∃ c ∈ channels, c.id = id

def Live (channels : List Channel) (abilities : List Ability) (group key : String) : Prop :=
  ∃ q id, Routed channels abilities group key q id

theorem contains_ofList_channels :
    (Dict.ofList (channels.map fun c => (c.id, c))).contains id = true ↔
      ∃ c ∈ channels, c.id = id := by
  simp [Dict.contains, Dict.get?_ofList]

theorem mem_pairsFor :
    (q, id) ∈ pairsFor (effective (Dict.ofList (channels.map fun c => (c.id, c))) abilities)
      (group, key) ↔ Routed channels abilities group key q id := by
  simp only [pairsFor, effective, Routed, List.mem_map, List.mem_filter, Bool.and_eq_true,
    decide_eq_true_eq, Prod.mk.injEq, contains_ofList_channels]
  constructor
  · rintro ⟨a, ⟨⟨ha, he, hc⟩, hg, hm⟩, hq, rfl⟩
    exact ⟨a, ha, he, hg, hm, hq, rfl, hc⟩
  · rintro ⟨a, ha, he, hg, hm, hq, rfl, hc⟩
    exact ⟨a, ⟨⟨ha, he, hc⟩, hg, hm⟩, hq, rfl⟩

def tableKeys (channels : List Channel) (abilities : List Ability) : List RouteKey :=
  routeKeys (effective (Dict.ofList (channels.map fun c => (c.id, c))) abilities)

theorem mem_tableKeys :
    (group, key) ∈ tableKeys channels abilities ↔ Live channels abilities group key := by
  rw [tableKeys, routeKeys, List.mem_eraseDups, List.mem_map]
  constructor
  · rintro ⟨a, ha, hkey⟩
    refine ⟨a.priority, a.channelId, mem_pairsFor.mp (List.mem_map.mpr ⟨a, ?_, rfl⟩)⟩
    exact List.mem_filter.mpr ⟨ha, decide_eq_true hkey⟩
  · rintro ⟨q, id, h⟩
    obtain ⟨a, ha, -⟩ := List.mem_map.mp (mem_pairsFor.mpr h)
    obtain ⟨ha, hkey⟩ := List.mem_filter.mp ha
    exact ⟨a, ha, of_decide_eq_true hkey⟩

theorem get?_routes_build (channels : List Channel) (abilities : List Ability)
    (group key : String) :
    (Live channels abilities group key ∧
      ∃ tiers, (build channels abilities).routes.get? (group, key) = some tiers ∧
        TierList (Routed channels abilities group key) tiers) ∨
    ¬ Live channels abilities group key ∧
      (build channels abilities).routes.get? (group, key) = none := by
  let rows := effective (Dict.ofList (channels.map fun c => (c.id, c))) abilities
  have hget := Dict.get?_ofList_map (tableKeys channels abilities)
    (fun key => Tier.ofPairs (pairsFor rows key)) (group, key)
  by_cases hlive : Live channels abilities group key
  · refine .inl ⟨hlive, _, hget.trans (if_pos (mem_tableKeys.mpr hlive)), ?_⟩
    have htiers := tierList_ofPairs (pairsFor rows (group, key))
    simp only [rows, mem_pairsFor] at htiers
    exact htiers
  · exact .inr ⟨hlive, hget.trans (if_neg (mem_tableKeys.not.mpr hlive))⟩

-- ---------------------------------------------------------------------------
-- The first wildcard
-- ---------------------------------------------------------------------------

theorem mem_wildcardsFor {keys : List RouteKey} {w : Wildcard} :
    w ∈ wildcardsFor keys group ↔ (group, w.pattern) ∈ keys ∧ w.pattern = w.lead ++ "*" := by
  simp only [wildcardsFor, List.mem_mergeSort, List.mem_filterMap, List.mem_filter,
    decide_eq_true_eq, Wildcard.ofKey?_eq_some]
  constructor
  · rintro ⟨⟨_, _⟩, ⟨hkey, rfl⟩, rfl, hlead⟩
    exact ⟨hkey, hlead⟩
  · rintro ⟨hkey, hlead⟩
    exact ⟨_, ⟨hkey, rfl⟩, rfl, hlead⟩

/-- The first wildcard that begins a model is the longest one. -/
theorem find?_wildcardsFor (keys : List RouteKey) (group model : String) :
    (∃ w, (wildcardsFor keys group).find? (·.begins model) = some w ∧
      (group, w.lead ++ "*") ∈ keys ∧ w.pattern = w.lead ++ "*" ∧ w.lead.toList <+: model.toList ∧
      ∀ p : String, (group, p ++ "*") ∈ keys → p.toList <+: model.toList →
        p.length ≤ w.lead.length) ∨
    (wildcardsFor keys group).find? (·.begins model) = none ∧
      ∀ p : String, (group, p ++ "*") ∈ keys → ¬ p.toList <+: model.toList := by
  have hmem (p : String) (hp : (group, p ++ "*") ∈ keys) :
      ⟨p, p ++ "*"⟩ ∈ wildcardsFor keys group := mem_wildcardsFor.mpr ⟨hp, rfl⟩
  cases hfind : (wildcardsFor keys group).find? (·.begins model) with
  | none =>
    refine .inr ⟨rfl, fun p hp hpre => ?_⟩
    exact List.find?_eq_none.mp hfind _ (hmem p hp) (List.isPrefixOf_iff_prefix.mpr hpre)
  | some w =>
    obtain ⟨hkey, hpattern⟩ := mem_wildcardsFor.mp (List.mem_of_find?_eq_some hfind)
    have hfound : w.begins model = true := by simpa using List.find?_some hfind
    have hbegins : w.lead.toList <+: model.toList := List.isPrefixOf_iff_prefix.mp hfound
    have hsorted : (wildcardsFor keys group).Pairwise fun a b => Wildcard.before a b = true :=
      @List.pairwise_mergeSort _ Wildcard.before (fun _ _ _ => Wildcard.before_trans)
        Wildcard.before_total _
    refine .inl ⟨w, rfl, hpattern ▸ hkey, hpattern, hbegins, fun p hp hpre => ?_⟩
    have hfirst := Wildcard.before_of_find? hsorted hfind _ (hmem p hp)
      (List.isPrefixOf_iff_prefix.mpr hpre)
    exact Wildcard.length_le_of_bytes hbegins hpre (Wildcard.before_bytes hfirst)

-- ---------------------------------------------------------------------------
-- The answer
-- ---------------------------------------------------------------------------

theorem wildcard?_build (channels : List Channel) (abilities : List Ability)
    (group model : String) :
    (build channels abilities).wildcard? group model =
      (wildcardsFor (tableKeys channels abilities) group).find? (·.begins model) := by
  let keys := tableKeys channels abilities
  have hget : (build channels abilities).wildcards.get? group =
      if group ∈ wildcardGroups keys then some (wildcardsFor keys group) else none :=
    Dict.get?_ofList_map (wildcardGroups keys) (wildcardsFor keys) group
  rw [wildcard?, hget]
  split
  · rfl
  · next hgroup =>
    have hnone : wildcardsFor keys group = [] := List.eq_nil_iff_forall_not_mem.mpr fun w hw => by
      obtain ⟨hkey, hlead⟩ := mem_wildcardsFor.mp hw
      have hsome : Wildcard.ofKey? w.pattern = some w := Wildcard.ofKey?_eq_some.mpr ⟨rfl, hlead⟩
      refine hgroup (List.mem_eraseDups.mpr (List.mem_map_of_mem (List.mem_filter.mpr ⟨hkey, ?_⟩)))
      exact Option.isSome_iff_exists.mpr ⟨w, hsome⟩
    show none = (wildcardsFor keys group).find? _
    rw [hnone]
    rfl

theorem tiers_build (channels : List Channel) (abilities : List Ability) (group model : String) :
    (∃ key tiers, KeyFor (Live channels abilities group) model key ∧
      TierList (Routed channels abilities group key) tiers ∧
      (build channels abilities).tiers group model = some tiers) ∨
    (¬ Live channels abilities group model ∧
      (∀ p : String, Live channels abilities group (p ++ "*") → ¬ p.toList <+: model.toList) ∧
      (build channels abilities).tiers group model = none) := by
  rcases get?_routes_build channels abilities group model with
    ⟨hlive, tiers, hget, htiers⟩ | ⟨hdead, hget⟩
  · exact .inl ⟨model, tiers, .own hlive, htiers, by rw [RoutingTable.tiers, hget]⟩
  · rw [RoutingTable.tiers, hget]
    dsimp only
    rw [wildcard?_build]
    rcases find?_wildcardsFor (tableKeys channels abilities) group model with
      ⟨w, hw, hkey, hpattern, hp, hmax⟩ | ⟨hnone, hall⟩
    · have hlive := mem_tableKeys.mp hkey
      have hroutes := get?_routes_build channels abilities group (w.lead ++ "*")
      obtain ⟨-, tiers, hget, htiers⟩ := hroutes.resolve_right fun h => h.1 hlive
      refine .inl ⟨w.lead ++ "*", tiers, .pattern hdead hlive hp ?_, htiers, ?_⟩
      · exact fun p hlive' hp' => hmax p (mem_tableKeys.mpr hlive') hp'
      · rw [hw, Option.bind_some, hpattern, hget]
    · refine .inr ⟨hdead, fun p hlive => hall p (mem_tableKeys.mpr hlive), ?_⟩
      rw [hnone]
      rfl

theorem tiers_eq_some_iff :
    (build channels abilities).tiers group model = some tiers ↔
      ∃ key, KeyFor (Live channels abilities group) model key ∧
        TierList (Routed channels abilities group key) tiers := by
  rcases tiers_build channels abilities group model with
    ⟨key, tiers', hkey, htiers, hget⟩ | ⟨hdead, hnone, hget⟩
  · rw [hget, Option.some.injEq]
    constructor
    · rintro rfl
      exact ⟨key, hkey, htiers⟩
    · rintro ⟨key', hkey', htiers'⟩
      obtain rfl := hkey.unique hkey'
      exact htiers.unique htiers'
  · rw [hget]
    exact ⟨nofun, fun ⟨key, hkey, _⟩ => absurd ⟨hdead, hnone⟩ hkey.not_dead⟩

theorem tiers_eq_none_iff :
    (build channels abilities).tiers group model = none ↔
      ¬ Live channels abilities group model ∧
        ∀ p : String, Live channels abilities group (p ++ "*") → ¬ p.toList <+: model.toList := by
  rcases tiers_build channels abilities group model with
    ⟨key, tiers', hkey, -, hget⟩ | ⟨hdead, hnone, hget⟩
  · rw [hget]
    exact ⟨nofun, fun h => absurd h hkey.not_dead⟩
  · exact ⟨fun _ => ⟨hdead, hnone⟩, fun _ => hget⟩

theorem routed_congr (h : ∀ a, a ∈ abilities' ↔ a ∈ abilities) :
    Routed channels abilities' = Routed channels abilities := by
  funext group key q id
  simp only [Routed, h]

theorem live_congr (h : ∀ a, a ∈ abilities' ↔ a ∈ abilities) :
    Live channels abilities' = Live channels abilities := by
  funext group key
  simp only [Live, routed_congr h]

/-- The answer for a model is the one tier list of what is routed under its key, and there is
none where it has no key. It depends on the set of the abilities alone. -/
theorem tiers_meaning (channels : List Channel) (abilities : List Ability)
    (group model : String) :
    (∀ tiers, (build channels abilities).tiers group model = some tiers ↔
      ∃ key, KeyFor (Live channels abilities group) model key ∧
        TierList (Routed channels abilities group key) tiers) ∧
    ((build channels abilities).tiers group model = none ↔
      ¬ Live channels abilities group model ∧
        ∀ p : String, Live channels abilities group (p ++ "*") → ¬ p.toList <+: model.toList) ∧
    (∀ key key', KeyFor (Live channels abilities group) model key →
      KeyFor (Live channels abilities group) model key' → key = key') ∧
    ∀ abilities', (∀ a, a ∈ abilities' ↔ a ∈ abilities) →
      (build channels abilities').tiers group model =
        (build channels abilities).tiers group model := by
  refine ⟨fun _ => tiers_eq_some_iff, tiers_eq_none_iff, fun _ _ => KeyFor.unique, ?_⟩
  intro abilities' h
  ext tiers
  rw [tiers_eq_some_iff, tiers_eq_some_iff, routed_congr h, live_congr h]

def claudeChannel (id : Int) : Channel where
  id := id
  name := "c"
  key := "k"
  status := .enabled
  weight := 1
  priority := 0
  group := "default"
  models := ""
  usedQuota := 0
  autoBan := true
  baseUrl := none
  proxy := none

def claudeAbilities : List Ability :=
  [("claude-*", 1), ("claude-3-*", 2), ("claude-3-opus", 3)].map fun (model, id) =>
    ⟨"default", model, id, true, 0, 1⟩

/-- The longer pattern answers, in whatever order the rows come and though each comes twice. -/
theorem tiers_meaning_overlapping :
    let channels := [1, 2, 3].map claudeChannel
    let repeated := claudeAbilities.reverse ++ claudeAbilities
    (∀ a, a ∈ repeated ↔ a ∈ claudeAbilities) ∧
    (build channels repeated).tiers "default" "claude-3-haiku" = some [⟨0, [2]⟩] ∧
    ∃ key, KeyFor (Live channels claudeAbilities "default") "claude-3-haiku" key ∧
      TierList (Routed channels claudeAbilities "default" key) [⟨0, [2]⟩] := by
  intro channels repeated
  have hmem : ∀ a, a ∈ repeated ↔ a ∈ claudeAbilities := fun a => by simp [repeated]
  have hkeys : tableKeys channels claudeAbilities =
      [("default", "claude-*"), ("default", "claude-3-*"), ("default", "claude-3-opus")] := by
    decide +kernel
  have hlater : Wildcard.before ⟨"claude-", "claude-*"⟩ ⟨"claude-3-", "claude-3-*"⟩ = false := by
    decide +kernel
  have hsorted : wildcardsFor (tableKeys channels claudeAbilities) "default" =
      [⟨"claude-3-", "claude-3-*"⟩, ⟨"claude-", "claude-*"⟩] := by
    have hwilds : ((tableKeys channels claudeAbilities).filter (·.1 = "default")).filterMap
        (fun key => Wildcard.ofKey? key.2) =
        [⟨"claude-", "claude-*"⟩, ⟨"claude-3-", "claude-3-*"⟩] := by
      rw [hkeys]
      decide +kernel
    simp [wildcardsFor, hwilds, List.mergeSort, hlater]
  have hfound : (build channels claudeAbilities).wildcard? "default" "claude-3-haiku" =
      some ⟨"claude-3-", "claude-3-*"⟩ := by
    rw [wildcard?_build, hsorted]
    decide +kernel
  have hnone : (build channels claudeAbilities).routes.get? ("default", "claude-3-haiku") =
      none := by decide +kernel
  have htiers : (build channels claudeAbilities).tiers "default" "claude-3-haiku" =
      some [⟨0, [2]⟩] := by
    rw [RoutingTable.tiers, hnone, hfound]
    decide +kernel
  obtain ⟨hsome, -, -, hcongr⟩ := tiers_meaning channels claudeAbilities "default" "claude-3-haiku"
  exact ⟨hmem, (hcongr repeated hmem).trans htiers, (hsome _).mp htiers⟩

end RoutingTable

end Tollgate
