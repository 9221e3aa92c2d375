import Mathlib.Data.Finset.Card
import Tollgate.Routing.Cooldown

/-!
# Cooldowns at work

A bench is a registry of cooldowns beside the clock that it is asked by. What
it keeps of a pair is one expiry, which a sweep may drop and a later mark set
anew; it answers as if it kept every mark since the pair was last cleared
(`cooling_exact`).
-/

namespace Tollgate

structure Bench where
  cooldowns : Cooldowns
  now : Time := 0

inductive CooldownOp where
  | mark (channelId : Int) (model : String)
  | markFor (channelId : Int) (model : String) (ttl : Duration)
  | clear (channelId : Int) (model : String)
  | sweep
  | wait (span : Duration)
deriving DecidableEq

namespace CooldownOp

/-- How long the operation has a pair rest, where it is a mark of that pair. -/
def rest? (defaultTtl : Duration) (id : Int) (model : String) : CooldownOp → Option Duration
  | .mark channelId m => if (channelId, m) = (id, model) then some defaultTtl else none
  | .markFor channelId m ttl => if (channelId, m) = (id, model) then some ttl else none
  | .clear .. | .sweep | .wait _ => none

def span : CooldownOp → Duration
  | .wait span => span
  | .mark .. | .markFor .. | .clear .. | .sweep => 0

end CooldownOp

namespace Bench

variable {b : Bench} {op : CooldownOp} {ops later : List CooldownOp} {id : Int} {model : String}
  {expiry : Time}

def step (b : Bench) : CooldownOp → Bench
  | .mark id model => { b with cooldowns := b.cooldowns.mark b.now id model }
  | .markFor id model ttl => { b with cooldowns := b.cooldowns.markFor b.now id model ttl }
  | .clear id model => { b with cooldowns := b.cooldowns.clear id model }
  | .sweep => { b with cooldowns := b.cooldowns.sweep b.now }
  | .wait span => { b with now := b.now + span }

def run (b : Bench) (ops : List CooldownOp) : Bench := ops.foldl step b

def isCooling (b : Bench) (id : Int) (model : String) : Bool :=
  b.cooldowns.isCooling b.now id model

/-- A mark of the pair that no later operation has cleared lasts until `expiry`. -/
def Marked (b : Bench) (ops : List CooldownOp) (id : Int) (model : String) (expiry : Time) :
    Prop :=
  ∃ before op after rest, ops = before ++ op :: after ∧
    op.rest? b.cooldowns.defaultTtl id model = some rest ∧
    expiry = (b.run before).now + rest ∧ .clear id model ∉ after

-- ---------------------------------------------------------------------------
-- The marks of a history
-- ---------------------------------------------------------------------------

theorem run_append (b : Bench) (ops later : List CooldownOp) :
    b.run (ops ++ later) = (b.run ops).run later := List.foldl_append ..

theorem now_step (b : Bench) (op : CooldownOp) : (b.step op).now = b.now + op.span := by
  cases op <;> rfl

theorem defaultTtl_step (b : Bench) (op : CooldownOp) :
    (b.step op).cooldowns.defaultTtl = b.cooldowns.defaultTtl := by
  cases op <;> rfl

theorem defaultTtl_run (b : Bench) (ops : List CooldownOp) :
    (b.run ops).cooldowns.defaultTtl = b.cooldowns.defaultTtl := by
  induction ops generalizing b with
  | nil => rfl
  | cons op ops ih => exact (ih (b.step op)).trans (defaultTtl_step b op)

theorem now_run_congr {b b' : Bench} (h : b.now = b'.now) (ops : List CooldownOp) :
    (b.run ops).now = (b'.run ops).now := by
  induction ops generalizing b b' with
  | nil => exact h
  | cons op ops ih => exact ih (by rw [now_step, now_step, h])

theorem Marked.congr {b b' : Bench} (hnow : b.now = b'.now)
    (httl : b.cooldowns.defaultTtl = b'.cooldowns.defaultTtl) (h : b.Marked ops id model expiry) :
    b'.Marked ops id model expiry := by
  obtain ⟨before, op, after, rest, hops, hrest, hexpiry, hclear⟩ := h
  exact ⟨before, op, after, rest, hops, httl ▸ hrest, now_run_congr hnow before ▸ hexpiry, hclear⟩

/-- A mark stands in the first part of a history, and is not cleared in the second, or it stands
in the second part. -/
theorem marked_append : b.Marked (ops ++ later) id model expiry ↔
    b.Marked ops id model expiry ∧ .clear id model ∉ later ∨
      (b.run ops).Marked later id model expiry := by
  constructor
  · rintro ⟨before, op, after, rest, hops, hrest, hexpiry, hclear⟩
    rcases List.append_eq_append_iff.mp hops with ⟨mid, rfl, hlater⟩ | ⟨mid, rfl, hmid⟩
    · refine .inr ⟨mid, op, after, rest, hlater, ?_, ?_, hclear⟩
      · rw [defaultTtl_run]
        exact hrest
      · rw [← run_append]
        exact hexpiry
    · cases mid with
      | nil =>
        refine .inr ⟨[], op, after, rest, hmid.symm, ?_, ?_, hclear⟩
        · rw [defaultTtl_run]
          exact hrest
        · rw [← run_append, List.append_nil, List.append_nil]
          exact hexpiry
      | cons first mid =>
        obtain ⟨rfl, hafter⟩ := List.cons.inj hmid
        rw [hafter, List.append_eq, List.mem_append, not_or] at hclear
        exact .inl ⟨⟨before, op, mid, rest, rfl, hrest, hexpiry, hclear.1⟩, hclear.2⟩
  · rintro (⟨⟨before, op, after, rest, rfl, hrest, hexpiry, hclear⟩, hlater⟩ |
      ⟨before, op, after, rest, rfl, hrest, hexpiry, hclear⟩)
    · refine ⟨before, op, after ++ later, rest, by simp, hrest, hexpiry, ?_⟩
      exact List.mem_append.not.mpr (not_or.mpr ⟨hclear, hlater⟩)
    · rw [defaultTtl_run] at hrest
      rw [← run_append] at hexpiry
      exact ⟨ops ++ before, op, after, rest, by simp, hrest, hexpiry, hclear⟩

theorem marked_singleton : b.Marked [op] id model expiry ↔
    ∃ rest, op.rest? b.cooldowns.defaultTtl id model = some rest ∧ expiry = b.now + rest := by
  constructor
  · rintro ⟨before, op', after, rest, hops, hrest, hexpiry, -⟩
    cases before with
    | nil =>
      obtain ⟨rfl, -⟩ := List.cons.inj hops
      exact ⟨rest, hrest, hexpiry⟩
    | cons first before => simp at hops
  · rintro ⟨rest, hrest, hexpiry⟩
    exact ⟨[], op, [], rest, rfl, hrest, hexpiry, List.not_mem_nil⟩

theorem marked_insert (hspan : op.span = 0) (hclear : op ≠ .clear id model) :
    b.Marked (ops ++ op :: later) id model expiry ↔
      b.Marked (ops ++ later) id model expiry ∨
        (∃ rest, op.rest? b.cooldowns.defaultTtl id model = some rest ∧
          expiry = (b.run ops).now + rest) ∧ .clear id model ∉ later := by
  have hnow : ((b.run ops).step op).now = (b.run ops).now := by rw [now_step, hspan, Nat.add_zero]
  have httl := defaultTtl_step (b.run ops) op
  have hlater : ((b.run ops).run [op]).Marked later id model expiry ↔
      (b.run ops).Marked later id model expiry :=
    ⟨.congr hnow httl, .congr hnow.symm httl.symm⟩
  have hmem : .clear id model ∈ op :: later ↔ .clear id model ∈ later := by
    rw [List.mem_cons, or_iff_right hclear.symm]
  rw [marked_append, marked_append, ← List.singleton_append, marked_append, marked_singleton,
    hlater, defaultTtl_run, List.singleton_append, hmem, ← or_assoc, or_right_comm]

theorem now_run_insert (hspan : op.span = 0) (ops later : List CooldownOp) :
    (b.run (ops ++ op :: later)).now = (b.run (ops ++ later)).now := by
  rw [run_append, run_append]
  exact now_run_congr (by rw [now_step, hspan, Nat.add_zero]) later

-- ---------------------------------------------------------------------------
-- What the registry keeps of them
-- ---------------------------------------------------------------------------

/-- From now on the registry tells of a pair what the marks with the expiries in `marks` do. -/
def Tells (b : Bench) (id : Int) (model : String) (marks : Time → Prop) : Prop :=
  ∀ t, b.now ≤ t →
    (t < b.cooldowns.expiries.getD (id, model) 0 ↔ ∃ expiry, marks expiry ∧ t < expiry)

variable {marks marks' : Time → Prop}

theorem Tells.congr (h : b.Tells id model marks) (hm : ∀ expiry, marks expiry ↔ marks' expiry) :
    b.Tells id model marks' := fun t ht => by
  rw [h t ht]
  exact exists_congr fun expiry => and_congr_left' (hm expiry)

theorem Tells.isCooling (h : b.Tells id model marks) :
    b.isCooling id model = true ↔ ∃ expiry, marks expiry ∧ b.now < expiry := by
  rw [Bench.isCooling, Cooldowns.isCooling, decide_eq_true_iff]
  exact h b.now (Nat.le_refl _)

theorem Tells.markFor (h : b.Tells id model marks) (channelId : Int) (m : String)
    (ttl : Duration) :
    (b.step (.markFor channelId m ttl)).Tells id model fun expiry =>
      marks expiry ∨ (channelId, m) = (id, model) ∧ expiry = b.now + ttl := by
  intro t ht
  have hold := h t ht
  show t < (b.cooldowns.expiries.adjust (channelId, m) 0 (max · (b.now + ttl))).getD _ 0 ↔ _
  rw [Dict.adjust, Dict.getD, Dict.get?_set]
  by_cases hpair : (channelId, m) = (id, model)
  · rw [if_pos hpair.symm, Option.getD_some, hpair, lt_max_iff, hold]
    simp only [true_and, or_and_right, exists_or, exists_eq_left]
  · rw [if_neg (fun heq => hpair heq.symm)]
    simp only [hpair, false_and, or_false]
    exact hold

theorem Tells.clear (h : b.Tells id model marks) (channelId : Int) (m : String) :
    (b.step (.clear channelId m)).Tells id model fun expiry =>
      marks expiry ∧ (channelId, m) ≠ (id, model) := by
  intro t ht
  show t < (b.cooldowns.expiries.erase (channelId, m)).getD _ 0 ↔ _
  rw [Dict.getD, Dict.get?_erase]
  by_cases hpair : (channelId, m) = (id, model)
  · simp [hpair]
  · rw [if_neg (fun heq => hpair heq.symm)]
    simp only [ne_eq, hpair, not_false_eq_true, and_true]
    exact h t ht

theorem Tells.sweep (h : b.Tells id model marks) : (b.step .sweep).Tells id model marks := by
  intro t ht
  rw [← h t ht]
  show t < (b.cooldowns.expiries.filter fun _ expiry => b.now < expiry).getD _ 0 ↔ _
  rw [Dict.getD, Dict.getD, Dict.get?_filter]
  cases b.cooldowns.expiries.get? (id, model) with
  | none => rfl
  | some expiry =>
    have ht : b.now ≤ t := ht
    by_cases hover : b.now < expiry
    · simp [Option.filter, hover]
    · simp only [Option.filter, hover, decide_false, Bool.false_eq_true, if_false,
        Option.getD_none, Option.getD_some]
      exact iff_of_false (Nat.not_lt_zero t)
        (Nat.not_lt.mpr (Nat.le_trans (Nat.not_lt.mp hover) ht))

theorem Tells.wait (h : b.Tells id model marks) (span : Duration) :
    (b.step (.wait span)).Tells id model marks :=
  fun t ht => h t (Nat.le_trans (Nat.le_add_right b.now span) ht)

theorem Tells.step (h : b.Tells id model marks) (op : CooldownOp) :
    (b.step op).Tells id model fun expiry =>
      marks expiry ∧ op ≠ .clear id model ∨
        ∃ rest, op.rest? b.cooldowns.defaultTtl id model = some rest ∧ expiry = b.now + rest := by
  cases op with
  | mark channelId m =>
    refine (h.markFor channelId m b.cooldowns.defaultTtl).congr fun expiry => ?_
    simp [CooldownOp.rest?, and_assoc]
  | markFor channelId m ttl =>
    refine (h.markFor channelId m ttl).congr fun expiry => ?_
    simp [CooldownOp.rest?, and_assoc]
  | clear channelId m =>
    refine (h.clear channelId m).congr fun expiry => ?_
    simp [CooldownOp.rest?]
  | sweep => exact h.sweep.congr fun expiry => by simp [CooldownOp.rest?]
  | wait span => exact (h.wait span).congr fun expiry => by simp [CooldownOp.rest?]

theorem tells_run (hempty : b.cooldowns.expiries = .empty) (ops : List CooldownOp) :
    (b.run ops).Tells id model (b.Marked ops id model) := by
  induction ops using List.reverseRecOn with
  | nil =>
    intro t _
    rw [run, List.foldl_nil, hempty]
    simp [Marked, Dict.getD, Dict.get?_empty]
  | append_singleton ops op ih =>
    rw [run_append]
    refine (ih.step op).congr fun expiry => ?_
    rw [marked_append, marked_singleton, List.mem_singleton, defaultTtl_run, ne_comm]

-- ---------------------------------------------------------------------------
-- Answers
-- ---------------------------------------------------------------------------

theorem mem_keys_sweep {pair : Int × String} :
    pair ∈ (b.step .sweep).cooldowns.expiries.keys ↔
      (b.step .sweep).isCooling pair.1 pair.2 = true := by
  rw [← Dict.contains_iff_mem_keys, Dict.contains, isCooling, Cooldowns.isCooling, Dict.getD]
  show ((b.cooldowns.expiries.filter fun _ expiry => b.now < expiry).get? pair).isSome = true ↔
    decide (b.now < ((b.cooldowns.expiries.filter fun _ expiry => b.now < expiry).get?
      pair).getD 0) = true
  rw [Dict.get?_filter]
  cases b.cooldowns.expiries.get? pair with
  | none => simp
  | some expiry => by_cases hover : b.now < expiry <;> simp [Option.filter, hover]

/-- A pair is cooling while some mark lasts that was made since the pair was last cleared. So no
mark shortens a cooldown, marks and clears of other pairs and sweeps make no difference, and a
sweep leaves just the pairs that are cooling. -/
theorem cooling_exact (ttl : Duration) (start : Time) (ops : List CooldownOp) :
    let b : Bench := ⟨{ defaultTtl := ttl }, start⟩
    (∀ id model, (b.run ops).isCooling id model = true ↔
      ∃ expiry, b.Marked ops id model expiry ∧ (b.run ops).now < expiry) ∧
    (∀ before op after id model rest, ops = before ++ op :: after →
      op.rest? ttl id model = some rest →
        (b.run (before ++ after)).isCooling id model = true →
          (b.run ops).isCooling id model = true) ∧
    (∀ before op after id model, ops = before ++ op :: after →
      op.rest? ttl id model = none → op ≠ .clear id model → op.span = 0 →
        (b.run ops).isCooling id model = (b.run (before ++ after)).isCooling id model) ∧
    ∃ cooling : Finset (Int × String),
      (∀ pair, pair ∈ cooling ↔ (b.run (ops ++ [.sweep])).isCooling pair.1 pair.2 = true) ∧
      (b.run (ops ++ [.sweep])).cooldowns.size = cooling.card := by
  intro b
  have htells (ops : List CooldownOp) (id : Int) (model : String) :
      (b.run ops).isCooling id model = true ↔
        ∃ expiry, b.Marked ops id model expiry ∧ (b.run ops).now < expiry :=
    (tells_run (b := b) rfl ops).isCooling
  refine ⟨htells ops, ?_, ?_, ?_⟩
  · rintro before op after id model rest rfl hrest hcooling
    obtain ⟨expiry, hmarked, hlasts⟩ := (htells _ id model).mp hcooling
    have hspan : op.span = 0 := by cases op <;> first | rfl | cases hrest
    have hclear : op ≠ .clear id model := by rintro rfl; cases hrest
    refine (htells _ id model).mpr ⟨expiry, (marked_insert hspan hclear).mpr (.inl hmarked), ?_⟩
    rwa [now_run_insert hspan]
  · rintro before op after id model rfl hrest hclear hspan
    rw [Bool.eq_iff_iff, htells, htells, now_run_insert hspan]
    refine exists_congr fun expiry => and_congr_left' ?_
    rw [marked_insert hspan hclear, hrest]
    simp
  · rw [run_append b ops [.sweep]]
    let expiries := ((b.run ops).step .sweep).cooldowns.expiries
    refine ⟨expiries.keys.toFinset, fun pair => List.mem_toFinset.trans mem_keys_sweep, ?_⟩
    rw [List.toFinset_card_of_nodup expiries.nodup_keys]
    exact (List.length_map _).symm

/-- A short mark after a long one, one of another pair, and a sweep in between. The pair rests
for as long as the long mark lasts, and then not. -/
theorem cooling_exact_outlasted :
    let b : Bench := ⟨{ defaultTtl := 5 }, 0⟩
    let ops := [.markFor 1 "m" 20, .wait 10, .mark 1 "m", .mark 2 "m", .wait 9, .sweep]
    (b.run ops).isCooling 1 "m" = true ∧ (b.run ops).isCooling 2 "m" = false ∧
      (b.run (ops ++ [.wait 1])).isCooling 1 "m" = false ∧
      ∃ expiry, b.Marked ops 1 "m" expiry ∧ (b.run ops).now < expiry := by
  intro b ops
  have hcooling : (b.run ops).isCooling 1 "m" = true := by decide
  exact ⟨hcooling, by decide, by decide, ((cooling_exact 5 0 ops).1 1 "m").mp hcooling⟩

end Bench

end Tollgate
