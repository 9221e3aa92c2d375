import Tollgate.Proofs.Routing.Draws
import Tollgate.Routing.Chooser

/-!
# What a selection selects

Selection is sound and complete: it answers with a channel that the first
tier with anything to offer does offer, and fails only where no tier offers
any (`select_exact`). It draws once where it succeeds and not at all where it
fails.
-/

namespace Tollgate

namespace Chooser

structure Eligible (c : Chooser) (now : Time) (model : String) (filters : List ChannelFilter)
    (channel : Channel) : Prop where
  enabled : channel.status = .enabled
  inService : channel.id ∉ c.disabled
  rested : c.cooldowns.isCooling now channel.id model = false
  accepted : ∀ accept ∈ filters, accept channel = true

/-- A tier offers the eligible channels of positive weight among those the table has. -/
structure Offers (c : Chooser) (now : Time) (model : String) (filters : List ChannelFilter)
    (tier : Tier) (channel : Channel) : Prop where
  listed : ∃ id ∈ tier.channelIds, c.table.channel? id = some channel
  eligible : c.Eligible now model filters channel
  weight : 0 < channel.weight

/-- What the eligible channels of a tier weigh together. -/
def offeredWeight (c : Chooser) (now : Time) (model : String) (filters : List ChannelFilter)
    (tier : Tier) : Nat :=
  ((c.candidates now model filters tier).map (·.weight)).sum

def tierWeight (c : Chooser) (tier : Tier) : Nat :=
  ((tier.channelIds.filterMap c.table.channel?).map (·.weight)).sum

variable {c : Chooser} {now : Time} {model : String} {filters : List ChannelFilter}
  {channel : Channel} {tier : Tier} {tiers : List Tier}

theorem isEligible_iff :
    c.isEligible now model filters channel = true ↔ c.Eligible now model filters channel := by
  have hs : channel.status.isEnabled = true ↔ channel.status = .enabled := by
    cases channel.status <;> simp [ChannelStatus.isEnabled]
  simp only [isEligible, isUsable, Bool.and_eq_true, Bool.not_eq_true', decide_eq_true_eq,
    List.all_eq_true, hs]
  constructor
  · rintro ⟨⟨⟨he, hd⟩, hc⟩, hf⟩
    exact ⟨he, hd, hc, hf⟩
  · rintro ⟨he, hd, hc, hf⟩
    exact ⟨⟨⟨he, hd⟩, hc⟩, hf⟩

theorem mem_candidates :
    channel ∈ c.candidates now model filters tier ↔
      (∃ id ∈ tier.channelIds, c.table.channel? id = some channel) ∧
        c.Eligible now model filters channel := by
  rw [candidates, List.mem_filter, List.mem_filterMap, isEligible_iff]

theorem mem_of_selectFrom (h : c.selectFrom now model filters r tiers = (some channel, r')) :
    ∃ tier ∈ tiers, channel ∈ c.candidates now model filters tier := by
  induction tiers generalizing r with
  | nil => cases h
  | cons tier tiers ih =>
    rw [selectFrom] at h
    split at h
    · exact ⟨tier, List.mem_cons_self .., List.mem_of_getElem? (Prod.mk.inj h).1⟩
    · obtain ⟨tier', htier, hmem⟩ := ih h
      exact ⟨tier', List.mem_cons_of_mem _ htier, hmem⟩

theorem eligible_of_select (h : c.select now group model filters r = (.ok channel, r')) :
    (∃ id, c.table.channel? id = some channel) ∧ c.Eligible now model filters channel := by
  rw [select] at h
  split at h
  · next found r₁ hfound =>
    cases h
    obtain ⟨tier, -, hmem⟩ := mem_of_selectFrom hfound
    obtain ⟨⟨id, -, hid⟩, heligible⟩ := mem_candidates.mp hmem
    exact ⟨⟨id, hid⟩, heligible⟩
  · cases h

theorem offers_iff :
    c.Offers now model filters tier channel ↔
      channel ∈ c.candidates now model filters tier ∧ 0 < channel.weight := by
  rw [mem_candidates]
  constructor
  · rintro ⟨hl, he, hw⟩
    exact ⟨⟨hl, he⟩, hw⟩
  · rintro ⟨⟨hl, he⟩, hw⟩
    exact ⟨hl, he, hw⟩

theorem offeredWeight_le : c.offeredWeight now model filters tier ≤ c.tierWeight tier := by
  unfold offeredWeight tierWeight candidates
  induction tier.channelIds.filterMap c.table.channel? with
  | nil => exact Nat.le_refl 0
  | cons channel rest ih =>
    rw [List.filter_cons]
    split <;> simp only [List.map_cons, List.sum_cons] <;> omega

theorem offeredWeight_eq_zero :
    c.offeredWeight now model filters tier = 0 ↔
      ∀ channel, ¬c.Offers now model filters tier channel := by
  simp only [offers_iff, offeredWeight, List.sum_eq_zero_iff_forall_eq_nat, List.mem_map]
  constructor
  · rintro h channel ⟨hc, hw⟩
    have := h channel.weight ⟨channel, hc, rfl⟩
    omega
  · rintro h _ ⟨channel, hc, rfl⟩
    exact Nat.eq_zero_of_not_pos fun hw => h channel ⟨hc, hw⟩

/-- What a walk through tiers comes to: a channel of the first tier that offers one, after one
draw below what that tier offers, or nothing and no draw. -/
def Walked (c : Chooser) (now : Time) (model : String) (filters : List ChannelFilter)
    (r : RandomSource) (tiers : List Tier) : Option Channel × RandomSource → Prop
  | (some channel, r') => ∃ (i : Nat) (tier : Tier), tiers[i]? = some tier ∧
      c.Offers now model filters tier channel ∧
      (∀ j < i, ∀ earlier, tiers[j]? = some earlier →
        ∀ channel, ¬c.Offers now model filters earlier channel) ∧
      r' = (r.below (c.offeredWeight now model filters tier)).2
  | (none, r') =>
    (∀ tier ∈ tiers, ∀ channel, ¬c.Offers now model filters tier channel) ∧ r' = r

theorem walked_selectFrom (hw : ∀ tier ∈ tiers, c.tierWeight tier < UInt64.size)
    (r : RandomSource) :
    c.Walked now model filters r tiers (c.selectFrom now model filters r tiers) := by
  induction tiers with
  | nil => exact ⟨nofun, rfl⟩
  | cons tier tiers ih =>
    rw [selectFrom]
    by_cases hz : c.offeredWeight now model filters tier = 0
    · -- Nothing is drawn for this tier, so what the rest comes to is what all comes to.
      rw [Weights.pick_of_zero hz]
      have hnone := offeredWeight_eq_zero.mp hz
      have hrest := ih fun t ht => hw t (List.mem_cons_of_mem _ ht)
      dsimp only
      generalize c.selectFrom now model filters r tiers = answer at hrest ⊢
      obtain ⟨_ | channel, r'⟩ := answer
      · refine ⟨fun t ht => ?_, hrest.2⟩
        rcases List.mem_cons.mp ht with rfl | ht
        · exact hnone
        · exact hrest.1 t ht
      · obtain ⟨i, t, hi, hoffers, hearlier, hr⟩ := hrest
        refine ⟨i + 1, t, hi, hoffers, fun j hj earlier hearly => ?_, hr⟩
        cases j with
        | zero => cases hearly; exact hnone
        | succ j => exact hearlier j (by omega) earlier hearly
    · have hsize : c.offeredWeight now model filters tier < UInt64.size :=
        Nat.lt_of_le_of_lt offeredWeight_le (hw tier (List.mem_cons_self ..))
      obtain ⟨i, w, hi, hpos, hpick⟩ := Weights.pick_of_pos (Nat.pos_of_ne_zero hz) hsize r
      rw [hpick]
      rw [List.getElem?_map, Option.map_eq_some_iff] at hi
      obtain ⟨channel, hc, rfl⟩ := hi
      dsimp only
      rw [hc]
      exact ⟨0, tier, rfl, offers_iff.mpr ⟨List.mem_of_getElem? hc, hpos⟩, nofun, rfl⟩

/-- A selection answers with a channel that some tier offers and no tier before it, after one
draw; it fails exactly where no tier offers any, without a draw. -/
theorem select_exact (group : String) (r : RandomSource)
    (hw : ∀ tiers, c.table.tiers group model = some tiers →
      ∀ tier ∈ tiers, c.tierWeight tier < UInt64.size) :
    (∀ channel r', c.select now group model filters r = (.ok channel, r') →
      ∃ tiers, ∃ (i : Nat) (tier : Tier),
        c.table.tiers group model = some tiers ∧ tiers[i]? = some tier ∧
        c.Offers now model filters tier channel ∧
        (∀ j < i, ∀ earlier, tiers[j]? = some earlier →
          ∀ channel, ¬c.Offers now model filters earlier channel) ∧
        0 < c.offeredWeight now model filters tier ∧
        r' = (r.below (c.offeredWeight now model filters tier)).2) ∧
    (∀ e r', c.select now group model filters r = (.error e, r') →
      e = .noAvailableChannel group model ∧ r' = r) ∧
    ((c.select now group model filters r).1 = .error (.noAvailableChannel group model) ↔
      ∀ tiers, c.table.tiers group model = some tiers →
        ∀ tier ∈ tiers, ∀ channel, ¬c.Offers now model filters tier channel) := by
  have hwalk : c.Walked now model filters r ((c.table.tiers group model).getD [])
      (c.selectFrom now model filters r ((c.table.tiers group model).getD [])) := by
    refine walked_selectFrom (fun tier ht => ?_) r
    cases htiers : c.table.tiers group model with
    | none => rw [htiers] at ht; cases ht
    | some tiers => rw [htiers] at ht; exact hw tiers htiers tier ht
  unfold select
  generalize c.selectFrom now model filters r ((c.table.tiers group model).getD []) = answer
    at hwalk ⊢
  obtain ⟨_ | channel, r'⟩ := answer
  · -- No tier offers a channel.
    obtain ⟨hnone, rfl⟩ := hwalk
    refine ⟨nofun, fun e r₁ he => by cases he; exact ⟨rfl, rfl⟩, iff_of_true rfl ?_⟩
    intro tiers htiers
    rwa [htiers] at hnone
  · -- The channel comes from a tier of the key, so there are tiers.
    obtain ⟨i, tier, hi, hoffers, hearlier, rfl⟩ := hwalk
    cases htiers : c.table.tiers group model with
    | none => rw [htiers] at hi; cases hi
    | some tiers =>
      rw [htiers] at hi hearlier
      have hpos : 0 < c.offeredWeight now model filters tier :=
        Nat.pos_of_ne_zero fun hz => offeredWeight_eq_zero.mp hz channel hoffers
      refine ⟨fun ch r₁ he => ?_, nofun, iff_of_false nofun fun hnone => ?_⟩
      · cases he
        exact ⟨tiers, i, tier, rfl, hi, hoffers, hearlier, hpos, rfl⟩
      · exact hnone tiers rfl tier (List.mem_of_getElem? hi) channel hoffers

def spareChannel (id : Int) : Channel where
  id := id
  name := "c"
  key := "k"
  status := .enabled
  weight := 3
  priority := 0
  group := "g"
  models := "m"
  usedQuota := 0
  autoBan := true
  baseUrl := none
  proxy := none

def spareChooser : Chooser where
  table := {
    channels := .ofList [(1, spareChannel 1), (2, spareChannel 2)]
    routes := .ofList [(("g", "m"), [⟨1, [1]⟩, ⟨0, [2]⟩])] }
  disabled := [1]

theorem select_exact_spare :
    (∀ tiers, spareChooser.table.tiers "g" "m" = some tiers →
      ∀ tier ∈ tiers, spareChooser.tierWeight tier < UInt64.size) ∧
    ∃ tiers, ∃ (i : Nat) (tier : Tier),
      spareChooser.table.tiers "g" "m" = some tiers ∧ tiers[i]? = some tier ∧
      spareChooser.Offers 0 "m" [] tier (spareChannel 2) ∧
      ∀ j < i, ∀ earlier, tiers[j]? = some earlier →
        ∀ channel, ¬spareChooser.Offers 0 "m" [] earlier channel := by
  have hw : ∀ tiers, spareChooser.table.tiers "g" "m" = some tiers →
      ∀ tier ∈ tiers, spareChooser.tierWeight tier < UInt64.size := by
    rintro _ ⟨⟩
    decide
  have hselect : spareChooser.select 0 "g" "m" [] {} = (.ok (spareChannel 2), ⟨[], 1⟩) := rfl
  obtain ⟨tiers, i, tier, htiers, hi, hoffers, hearlier, -⟩ :=
    (select_exact "g" {} hw).1 _ _ hselect
  exact ⟨hw, tiers, i, tier, htiers, hi, hoffers, hearlier⟩

end Chooser

end Tollgate
