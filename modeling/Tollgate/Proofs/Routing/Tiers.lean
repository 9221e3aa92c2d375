import Mathlib.Data.List.Permutation
import Mathlib.Data.List.Sort
import Tollgate.Routing.Table

/-!
# Tier lists

The tiers made of some pairs of priority and channel are the one tier list
that holds just these pairs (`tierList_ofPairs`, `TierList.unique`): in what
order the pairs come, and how often, does not matter. `Tier.pairs` reads a
list of tiers back as pairs, and undoes `Tier.split`.
-/

namespace Tollgate

-- ---------------------------------------------------------------------------
-- Repeats that stand next to each other
-- ---------------------------------------------------------------------------

section Repeats

variable {a b : α} {l : List α}

theorem eraseReps_loop (r : α → α → Bool) (a : α) (l seen : List α) :
    List.eraseRepsBy.loop r a l seen = seen.reverse ++ List.eraseRepsBy.loop r a l [] := by
  induction l generalizing a seen with
  | nil => simp [List.eraseRepsBy.loop]
  | cons b l ih =>
    rw [List.eraseRepsBy.loop, List.eraseRepsBy.loop]
    cases r a b with
    | true => exact ih a seen
    | false =>
      dsimp only
      rw [ih b (a :: seen), ih b [a]]
      simp

variable [BEq α]

theorem eraseReps_cons_cons :
    (a :: b :: l).eraseReps =
      if a == b then (a :: l).eraseReps else a :: (b :: l).eraseReps := by
  show List.eraseRepsBy.loop _ a (b :: l) [] = _
  rw [List.eraseRepsBy.loop]
  cases hab : a == b with
  | true => rfl
  | false => exact eraseReps_loop _ b l [a]

variable [LawfulBEq α]

theorem mem_eraseReps {x : α} : x ∈ l.eraseReps ↔ x ∈ l := by
  cases l with
  | nil => exact Iff.rfl
  | cons a l =>
    induction l generalizing a with
    | nil => exact Iff.rfl
    | cons b l ih =>
      rw [eraseReps_cons_cons]
      split
      · next hab =>
        rw [ih a, eq_of_beq hab]
        simp
      · rw [List.mem_cons, List.mem_cons, ih b]

/-- In a sorted list equals stand together, so none are left. -/
theorem pairwise_eraseReps {r : α → α → Prop} (hr : ∀ a b, r a b → r b a → a = b)
    (h : l.Pairwise r) : l.eraseReps.Pairwise fun a b => r a b ∧ a ≠ b := by
  cases l with
  | nil => exact .nil
  | cons a l =>
    induction l generalizing a with
    | nil => exact List.pairwise_singleton _ _
    | cons b l ih =>
      obtain ⟨ha, hbl⟩ := List.pairwise_cons.mp h
      obtain ⟨hb, hl⟩ := List.pairwise_cons.mp hbl
      rw [eraseReps_cons_cons]
      split
      · exact ih a (List.pairwise_cons.mpr ⟨fun c hc => ha c (List.mem_cons_of_mem _ hc), hl⟩)
      · next hab =>
        refine List.pairwise_cons.mpr ⟨fun c hc => ?_, ih b hbl⟩
        rw [mem_eraseReps] at hc
        refine ⟨ha c hc, ?_⟩
        rintro rfl
        rcases List.mem_cons.mp hc with rfl | hc
        · exact hab (beq_self_eq_true _)
        · exact hab (beq_iff_eq.mpr (hr _ _ (ha b (List.mem_cons_self ..)) (hb _ hc)))

end Repeats

-- ---------------------------------------------------------------------------
-- The order of pairs
-- ---------------------------------------------------------------------------

namespace Tier

def Precedes (a b : Int × Int) : Prop := b.1 < a.1 ∨ a.1 = b.1 ∧ a.2 < b.2

instance : Std.Irrefl Precedes where
  irrefl a h := by
    rcases h with h | ⟨-, h⟩
    · exact Int.lt_irrefl _ h
    · exact Int.lt_irrefl _ h

instance : Std.Antisymm Precedes where
  antisymm a b h h' := by
    simp only [Precedes] at h h'
    omega

theorem before_iff {a b : Int × Int} : before a b = true ↔ Precedes a b ∨ a = b := by
  obtain ⟨p, i⟩ := a
  obtain ⟨q, j⟩ := b
  simp only [before, Precedes, Prod.mk.injEq]
  split
  · rw [decide_eq_true_eq]; omega
  · rw [decide_eq_true_eq]; omega

theorem before_trans {a b c : Int × Int} (hab : before a b = true) (hbc : before b c = true) :
    before a c = true := by
  rw [before_iff] at *
  rcases hab with hab | rfl
  · rcases hbc with hbc | rfl
    · left; simp only [Precedes] at *; omega
    · exact .inl hab
  · exact hbc

theorem before_total (a b : Int × Int) : (before a b || before b a) = true := by
  rw [Bool.or_eq_true, before_iff, before_iff]
  simp only [Precedes, Prod.ext_iff]
  omega

theorem before_antisymm {a b : Int × Int} (hab : before a b = true) (hba : before b a = true) :
    a = b := by
  rcases before_iff.mp hab with hab | rfl
  · rcases before_iff.mp hba with hba | rfl
    · exact antisymm hab hba
    · rfl
  · rfl

theorem pairwise_ordered (l : List (Int × Int)) :
    (l.mergeSort before).eraseReps.Pairwise Precedes := by
  have hsorted : (l.mergeSort before).Pairwise fun a b => before a b = true :=
    @List.pairwise_mergeSort _ before (fun _ _ _ => before_trans) before_total l
  refine (pairwise_eraseReps (fun _ _ => before_antisymm) hsorted).imp fun {a b} hab => ?_
  exact (before_iff.mp hab.1).resolve_right hab.2

theorem mem_ordered {l : List (Int × Int)} {p : Int × Int} :
    p ∈ (l.mergeSort before).eraseReps ↔ p ∈ l :=
  mem_eraseReps.trans List.mem_mergeSort

-- ---------------------------------------------------------------------------
-- Tiers as pairs
-- ---------------------------------------------------------------------------

def pairs (tiers : List Tier) : List (Int × Int) :=
  tiers.flatMap fun t => t.channelIds.map fun id => (t.priority, id)

theorem mem_pairs {tiers : List Tier} {q id : Int} :
    (q, id) ∈ pairs tiers ↔ ∃ t ∈ tiers, t.priority = q ∧ id ∈ t.channelIds := by
  simp only [pairs, List.mem_flatMap, List.mem_map, Prod.mk.injEq]
  constructor
  · rintro ⟨t, ht, id', hid, hq, rfl⟩
    exact ⟨t, ht, hq, hid⟩
  · rintro ⟨t, ht, hq, hid⟩
    exact ⟨t, ht, id, hid, hq, rfl⟩

/-- A pair joins the first tier where that has its priority, and opens a tier else. -/
theorem split_cons (q id : Int) (l : List (Int × Int)) :
    (∃ t ts, split l = t :: ts ∧ t.priority = q ∧
      split ((q, id) :: l) = ⟨q, id :: t.channelIds⟩ :: ts) ∨
    (∀ t ∈ (split l).head?, t.priority ≠ q) ∧ split ((q, id) :: l) = ⟨q, [id]⟩ :: split l := by
  rw [split]
  cases split l with
  | nil => exact .inr ⟨nofun, rfl⟩
  | cons t ts =>
    by_cases h : t.priority = q
    · exact .inl ⟨t, ts, rfl, h, if_pos h⟩
    · exact .inr ⟨fun t' ht => Option.some.inj ht ▸ h, if_neg h⟩

theorem pairs_split (l : List (Int × Int)) : pairs (split l) = l := by
  induction l with
  | nil => rfl
  | cons p l ih =>
    obtain ⟨q, id⟩ := p
    rcases split_cons q id l with ⟨t, ts, hl, hq, hsplit⟩ | ⟨-, hsplit⟩
    · rw [hl] at ih
      rw [hsplit, ← ih, ← hq]
      rfl
    · rw [hsplit]
      exact congrArg ((q, id) :: ·) ih

theorem split_append (q : Int) {ids : List Int} (hids : ids ≠ []) {l : List (Int × Int)}
    (hl : ∀ t ∈ (split l).head?, t.priority ≠ q) :
    split (ids.map (fun id => (q, id)) ++ l) = ⟨q, ids⟩ :: split l := by
  induction ids with
  | nil => exact absurd rfl hids
  | cons id ids ih =>
    cases ids with
    | nil =>
      rcases split_cons q id l with ⟨t, ts, hsplit, hq, -⟩ | ⟨-, hsplit⟩
      · exact absurd hq (hl t (by rw [hsplit]; rfl))
      · exact hsplit
    | cons id' ids =>
      have ih := ih (List.cons_ne_nil _ _)
      rw [List.map_cons, List.cons_append, split, ih]
      exact if_pos rfl

theorem channelIds_ne_nil {l : List (Int × Int)} (ht : t ∈ split l) : t.channelIds ≠ [] := by
  induction l generalizing t with
  | nil => cases ht
  | cons p l ih =>
    obtain ⟨q, id⟩ := p
    rcases split_cons q id l with ⟨t', ts, hl, -, hsplit⟩ | ⟨-, hsplit⟩
    · rw [hsplit] at ht
      rcases List.mem_cons.mp ht with rfl | ht
      · exact List.cons_ne_nil _ _
      · exact ih (hl ▸ List.mem_cons_of_mem _ ht)
    · rw [hsplit] at ht
      rcases List.mem_cons.mp ht with rfl | ht
      · exact List.cons_ne_nil _ _
      · exact ih ht

end Tier

-- ---------------------------------------------------------------------------
-- Tier lists
-- ---------------------------------------------------------------------------

/-- Tiers of falling priority that hold just the channels that `rows` gives each priority, with
rising ids. -/
structure TierList (rows : Int → Int → Prop) (tiers : List Tier) : Prop where
  falling : tiers.Pairwise fun a b => b.priority < a.priority
  nonempty : ∀ t ∈ tiers, t.channelIds ≠ []
  rising : ∀ t ∈ tiers, t.channelIds.Pairwise (· < ·)
  mem : ∀ q id, (∃ t ∈ tiers, t.priority = q ∧ id ∈ t.channelIds) ↔ rows q id

namespace TierList

open Tier (Precedes pairs split)

variable {rows : Int → Int → Prop} {tiers tiers' : List Tier} {l : List (Int × Int)}

theorem below (h : TierList rows tiers) (hne : ∀ t ∈ tiers.head?, t.priority ≠ q)
    (hbelow : ∀ t ∈ tiers, t.priority ≤ q) : ∀ t ∈ tiers, t.priority < q := by
  cases tiers with
  | nil => nofun
  | cons t ts =>
    have hfirst : t.priority < q := by
      have := hne t rfl
      have := hbelow t (List.mem_cons_self ..)
      omega
    intro t' ht'
    rcases List.mem_cons.mp ht' with rfl | ht'
    · exact hfirst
    · exact Int.lt_trans ((List.pairwise_cons.mp h.falling).1 t' ht') hfirst

theorem of_split (h : l.Pairwise Precedes) : TierList (fun q id => (q, id) ∈ l) (split l) := by
  induction l with
  | nil => exact ⟨.nil, nofun, nofun, fun _ _ => by simp [split]⟩
  | cons p l ih =>
    obtain ⟨q, id⟩ := p
    obtain ⟨hp, hl⟩ := List.pairwise_cons.mp h
    have ih := ih hl
    have hmem : ∀ q' id', (∃ t ∈ split ((q, id) :: l), t.priority = q' ∧ id' ∈ t.channelIds) ↔
        (q', id') ∈ (q, id) :: l := fun q' id' => by
      rw [← Tier.mem_pairs, Tier.pairs_split]
    have hlater : ∀ t ∈ split l, ∀ id' ∈ t.channelIds, Precedes (q, id) (t.priority, id') :=
      fun t ht id' hid => hp _ ((ih.mem _ _).mp ⟨t, ht, rfl, hid⟩)
    have hbelow : ∀ t ∈ split l, t.priority ≤ q := fun t ht => by
      obtain ⟨id', hid⟩ := List.exists_mem_of_ne_nil _ (ih.nonempty t ht)
      have := hlater t ht id' hid
      simp only [Precedes] at this
      omega
    have hnonempty : ∀ t ∈ split ((q, id) :: l), t.channelIds ≠ [] :=
      fun t => Tier.channelIds_ne_nil
    rcases Tier.split_cons q id l with ⟨t, ts, hsplit, rfl, heq⟩ | ⟨hne, heq⟩
    · -- The pair joins the first tier, where its id precedes the others.
      rw [hsplit] at ih hlater
      rw [heq] at hmem hnonempty ⊢
      obtain ⟨hfalling, hrest⟩ := List.pairwise_cons.mp ih.falling
      obtain ⟨hfirst, hrising⟩ := List.forall_mem_cons.mp ih.rising
      refine ⟨List.pairwise_cons.mpr ⟨hfalling, hrest⟩, hnonempty,
        List.forall_mem_cons.mpr ⟨List.pairwise_cons.mpr ⟨fun id' hid => ?_, hfirst⟩, hrising⟩,
        hmem⟩
      rcases hlater t (List.mem_cons_self ..) id' hid with h | h
      · exact absurd h (Int.lt_irrefl _)
      · exact h.2
    · rw [heq] at hmem hnonempty ⊢
      exact ⟨List.pairwise_cons.mpr ⟨ih.below hne hbelow, ih.falling⟩, hnonempty,
        List.forall_mem_cons.mpr ⟨List.pairwise_singleton _ _, ih.rising⟩, hmem⟩

theorem pairwise_pairs (h : TierList rows tiers) : (pairs tiers).Pairwise Precedes := by
  refine List.pairwise_flatMap.mpr ⟨fun t ht => ?_, h.falling.imp fun {a b} hab => ?_⟩
  · exact List.pairwise_map.mpr ((h.rising t ht).imp fun hid => .inr ⟨rfl, hid⟩)
  · intro x hx y hy
    obtain ⟨i, -, rfl⟩ := List.mem_map.mp hx
    obtain ⟨j, -, rfl⟩ := List.mem_map.mp hy
    exact .inl hab

theorem split_pairs (h : TierList rows tiers) : split (pairs tiers) = tiers := by
  have hfalling := h.falling
  have hnonempty := h.nonempty
  clear h
  induction tiers with
  | nil => rfl
  | cons t ts ih =>
    obtain ⟨hhead, htail⟩ := List.pairwise_cons.mp hfalling
    have ih := ih htail fun t' ht' => hnonempty t' (List.mem_cons_of_mem _ ht')
    have hne : ∀ t' ∈ (split (pairs ts)).head?, t'.priority ≠ t.priority := fun t' ht' => by
      rw [ih] at ht'
      exact Int.ne_of_lt (hhead t' (List.mem_of_mem_head? ht'))
    have happ := Tier.split_append t.priority (hnonempty t (List.mem_cons_self ..)) hne
    rw [ih] at happ
    exact happ

/-- No two tier lists hold the same channels. -/
theorem unique (h : TierList rows tiers) (h' : TierList rows tiers') : tiers = tiers' := by
  have hmem : ∀ p, p ∈ pairs tiers ↔ p ∈ pairs tiers' := fun ⟨q, id⟩ => by
    rw [Tier.mem_pairs, Tier.mem_pairs, h.mem, h'.mem]
  have hpairs := h.pairwise_pairs.eq_of_mem_iff h'.pairwise_pairs hmem
  rw [← h.split_pairs, ← h'.split_pairs, hpairs]

end TierList

theorem tierList_ofPairs (l : List (Int × Int)) :
    TierList (fun q id => (q, id) ∈ l) (Tier.ofPairs l) := by
  have h := TierList.of_split (Tier.pairwise_ordered l)
  simp only [Tier.mem_ordered] at h
  exact h

end Tollgate
