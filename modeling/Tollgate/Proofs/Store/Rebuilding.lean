import Tollgate.Proofs.Store.Listing

/-!
# Rebuilding the abilities of a channel

The rows of a channel are replaced by those that its lists unfold to, each key
once. What other channels have is left as it is, so after any rebuilds the
rows of a channel are those of its last one.
-/

namespace Tollgate

namespace Ability

variable {a b : Ability} {as rows others : List Ability}

theorem sameKey_iff :
    a.sameKey b = true ↔ a.group = b.group ∧ a.model = b.model ∧ a.channelId = b.channelId := by
  simp [sameKey, and_assoc]

def Distinct (rows : List Ability) : Prop := rows.Pairwise fun a b => a.sameKey b = false

instance : Decidable (Distinct rows) := inferInstanceAs (Decidable (List.Pairwise _ _))

theorem sameKey_of_ne (h : a.channelId ≠ b.channelId) : a.sameKey b = false :=
  Bool.eq_false_iff.mpr fun hkey => h (sameKey_iff.mp hkey).2.2

theorem Distinct.append (h : Distinct others) (h' : Distinct rows)
    (hne : ∀ b ∈ others, ∀ a ∈ rows, b.channelId ≠ a.channelId) : Distinct (others ++ rows) :=
  List.pairwise_append.mpr ⟨h, h', fun b hb a ha => sameKey_of_ne (hne b hb a ha)⟩

end Ability

namespace Store

open Ability (Distinct sameKey_iff sameKey_of_ne)

variable {s : Store} {c : Channel} {a b : Ability} {as rows others : List Ability}

-- ---------------------------------------------------------------------------
-- Putting rows
-- ---------------------------------------------------------------------------

theorem mem_putAbility : b ∈ putAbility rows a ↔ b ∈ rows ∧ b.sameKey a = false ∨ b = a := by
  simp [putAbility]

theorem distinct_putAbility (h : Distinct rows) (a : Ability) : Distinct (putAbility rows a) :=
  List.pairwise_append.mpr ⟨h.filter _, List.pairwise_singleton .., fun b hb a' ha' => by
    obtain rfl := List.mem_singleton.mp ha'
    simpa using (List.mem_filter.mp hb).2⟩

theorem putAbility_append (h : ∀ b ∈ others, b.channelId ≠ a.channelId) :
    putAbility (others ++ rows) a = others ++ putAbility rows a := by
  have hothers : others.filter (fun b => !b.sameKey a) = others :=
    List.filter_eq_self.mpr fun b hb => by rw [sameKey_of_ne (h b hb)]; rfl
  rw [putAbility, List.filter_append, hothers, List.append_assoc]
  rfl

theorem distinct_foldl_putAbility (as : List Ability) (h : Distinct rows) :
    Distinct (as.foldl putAbility rows) := by
  induction as generalizing rows with
  | nil => exact h
  | cons a as ih => exact ih (distinct_putAbility h a)

theorem foldl_putAbility_append (h : ∀ a ∈ as, ∀ b ∈ others, b.channelId ≠ a.channelId) :
    as.foldl putAbility (others ++ rows) = others ++ as.foldl putAbility rows := by
  induction as generalizing rows with
  | nil => rfl
  | cons a as ih =>
    rw [List.foldl_cons, putAbility_append (h a (List.mem_cons_self ..)), List.foldl_cons]
    exact ih fun a' ha' => h a' (List.mem_cons_of_mem _ ha')

/-- Where a key has one row, a repeat is put over its equal and nothing is lost. -/
theorem mem_foldl_putAbility
    (h : ∀ a ∈ rows ++ as, ∀ b ∈ rows ++ as, a.sameKey b = true → a = b) :
    b ∈ as.foldl putAbility rows ↔ b ∈ rows ∨ b ∈ as := by
  induction as generalizing rows with
  | nil => simp
  | cons a as ih =>
    -- A row that gives way to `a` is `a` itself.
    have hput : ∀ b, b ∈ putAbility rows a ↔ b ∈ rows ∨ b = a := fun b => by
      rw [mem_putAbility]
      refine ⟨Or.imp_left And.left, ?_⟩
      rintro (hb | hb)
      · by_cases hkey : b.sameKey a = true
        · exact .inr (h b (by simp [hb]) a (by simp) hkey)
        · exact .inl ⟨hb, Bool.eq_false_iff.mpr hkey⟩
      · exact .inr hb
    have hmem : ∀ b, b ∈ putAbility rows a ++ as ↔ b ∈ rows ++ a :: as := fun b => by
      rw [List.mem_append, hput, List.mem_append, List.mem_cons, or_assoc]
    rw [List.foldl_cons, ih fun a' ha' b' hb' => h a' ((hmem a').mp ha') b' ((hmem b').mp hb'),
      hput, List.mem_cons, or_assoc]

end Store

-- ---------------------------------------------------------------------------
-- The rows of a channel
-- ---------------------------------------------------------------------------

namespace Channel

open Ability (Distinct)

variable {c : Channel} {a b : Ability}

theorem mem_abilities : a ∈ c.abilities ↔ a.group ∈ c.groups ∧ a.model ∈ c.modelList ∧
    a = ⟨a.group, a.model, c.id, c.status.isEnabled, c.priority, c.weight⟩ := by
  simp only [abilities, List.mem_flatMap, List.mem_map]
  constructor
  · rintro ⟨group, hgroup, model, hmodel, rfl⟩
    exact ⟨hgroup, hmodel, rfl⟩
  · rintro ⟨hgroup, hmodel, ha⟩
    exact ⟨a.group, hgroup, a.model, hmodel, ha.symm⟩

theorem channelId_of_mem_abilities (h : a ∈ c.abilities) : a.channelId = c.id := by
  rw [(mem_abilities.mp h).2.2]

theorem eq_of_sameKey (ha : a ∈ c.abilities) (hb : b ∈ c.abilities) (h : a.sameKey b = true) :
    a = b := by
  obtain ⟨hgroup, hmodel, -⟩ := Ability.sameKey_iff.mp h
  rw [(mem_abilities.mp ha).2.2, (mem_abilities.mp hb).2.2, hgroup, hmodel]

/-- The abilities of a channel as they are stored, each once. -/
def abilityRows (c : Channel) : List Ability := c.abilities.foldl Store.putAbility []

@[simp] theorem mem_abilityRows : a ∈ c.abilityRows ↔ a ∈ c.abilities := by
  rw [abilityRows, Store.mem_foldl_putAbility]
  · simp
  · exact fun a ha b hb => eq_of_sameKey ha hb

theorem distinct_abilityRows (c : Channel) : Distinct c.abilityRows :=
  Store.distinct_foldl_putAbility _ List.Pairwise.nil

end Channel

namespace Store

open Ability (Distinct)

variable {s : Store} {c : Channel} {a : Ability}

/-- The store with the rows of a channel replaced by those it unfolds to. -/
def rebuilt (s : Store) (c : Channel) : Store :=
  { s with abilities := s.abilities.filter (·.channelId ≠ c.id) ++ c.abilityRows }

theorem rebuildAbilities_eq (h : s.guard .abilities = .ok ()) (c : Channel) :
    s.rebuildAbilities c = .ok (c.abilities.length, s.rebuilt c) := by
  have hrows : c.abilities.foldl putAbility (s.abilities.filter (·.channelId ≠ c.id)) =
      s.abilities.filter (·.channelId ≠ c.id) ++ c.abilityRows := by
    have hne : ∀ a ∈ c.abilities, ∀ b ∈ s.abilities.filter (·.channelId ≠ c.id),
        b.channelId ≠ a.channelId := fun a ha b hb => by
      rw [Channel.channelId_of_mem_abilities ha]
      simpa using (List.mem_filter.mp hb).2
    rw [← List.append_nil (s.abilities.filter _), foldl_putAbility_append hne, List.append_nil]
    rfl
  rw [rebuildAbilities, h]
  simp only [bind, Except.bind, pure, Except.pure, hrows]
  rfl

theorem mem_rebuilt : a ∈ (s.rebuilt c).abilities ↔
    a ∈ s.abilities ∧ a.channelId ≠ c.id ∨ a ∈ c.abilities := by
  simp [rebuilt]

/-- The rows of other channels stand as they did, and in their order. -/
theorem filter_rebuilt (s : Store) (c : Channel) :
    (s.rebuilt c).abilities.filter (·.channelId ≠ c.id) =
      s.abilities.filter (·.channelId ≠ c.id) := by
  have hnone : c.abilityRows.filter (·.channelId ≠ c.id) = [] :=
    List.filter_eq_nil_iff.mpr fun a ha => by
      simp [Channel.channelId_of_mem_abilities (Channel.mem_abilityRows.mp ha)]
  rw [rebuilt, List.filter_append, hnone, List.append_nil, List.filter_filter]
  simp only [Bool.and_self]

theorem rebuilt_rebuilt (s : Store) (c : Channel) : (s.rebuilt c).rebuilt c = s.rebuilt c := by
  rw [rebuilt, filter_rebuilt]
  rfl

theorem distinct_rebuilt (h : Distinct s.abilities) (c : Channel) :
    Distinct (s.rebuilt c).abilities := by
  refine Ability.Distinct.append (h.filter _) c.distinct_abilityRows fun b hb a ha => ?_
  rw [Channel.channelId_of_mem_abilities (Channel.mem_abilityRows.mp ha)]
  simpa using (List.mem_filter.mp hb).2

theorem distinct_filter_rebuilt (s : Store) (c : Channel) :
    Distinct ((s.rebuilt c).abilities.filter (·.channelId = c.id)) := by
  have hothers : (s.abilities.filter (·.channelId ≠ c.id)).filter (·.channelId = c.id) = [] :=
    List.filter_eq_nil_iff.mpr fun a ha => by simpa using (List.mem_filter.mp ha).2
  rw [rebuilt, List.filter_append, hothers, List.nil_append]
  exact c.distinct_abilityRows.filter _

end Store

end Tollgate
