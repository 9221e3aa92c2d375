import Mathlib.Data.List.Induction
import Tollgate.Proofs.Routing.Dispatch

/-!
# Flags through reloads

A table is built anew by every load, and the flags of the channels it keeps
are carried over. So a flag is what it was last set to, since a load without
the channel took it away (`flags_survive`).
-/

namespace Tollgate

/-- Loads may come from any source, and `flag` takes a channel out of service or puts it back. -/
inductive FlagOp where
  | load (source : RoutingSource)
  | flag (id : Int) (on : Bool)
  | ask (id : Int)

namespace FlagOp

def listed? : FlagOp → Option (List Channel)
  | .load source => source.toOption.map Prod.fst
  | .flag .. | .ask _ => none

def Drops (id : Int) (op : FlagOp) : Prop :=
  ∃ channels, op.listed? = some channels ∧ ¬∃ channel ∈ channels, channel.id = id

def lastListed (ops : List FlagOp) : List Channel := (ops.reverse.findSome? listed?).getD []

def Listed (ops : List FlagOp) (id : Int) : Prop := ∃ channel ∈ lastListed ops, channel.id = id

theorem lastListed_concat (ops : List FlagOp) (op : FlagOp) :
    lastListed (ops ++ [op]) = op.listed?.getD (lastListed ops) := by
  rw [lastListed, List.reverse_append, List.reverse_singleton, List.singleton_append,
    List.findSome?_cons]
  cases op.listed? <;> rfl

end FlagOp

namespace Chooser

open FlagOp (Listed lastListed lastListed_concat)

variable {c : Chooser} {op : FlagOp} {ops : List FlagOp} {id : Int} {on : Bool}

def flag (c : Chooser) (id : Int) (on : Bool) : Except RoutingError Chooser :=
  if on then c.disable id else c.enable id

def flagStep (c : Chooser) : FlagOp → Chooser
  | .load source => c.reload source
  | .flag id on => (c.flag id on).toOption.getD c
  | .ask _ => c

def flagRun (c : Chooser) (ops : List FlagOp) : Chooser := ops.foldl flagStep c

/-- The flag would be set to `on` with success. -/
def Takes (c : Chooser) (id : Int) (on : Bool) : Prop := ∃ c', c.flag id on = .ok c'

/-- The flag was last set to `on`, and no list without the channel has been loaded since. -/
def LastFlag (c : Chooser) (ops : List FlagOp) (id : Int) (on : Bool) : Prop :=
  ∃ before after, ops = before ++ .flag id on :: after ∧ (c.flagRun before).Takes id on ∧
    (∀ op ∈ after, ¬op.Drops id) ∧
    ∀ mid on' rest, after = mid ++ .flag id on' :: rest →
      ¬(c.flagRun (before ++ .flag id on :: mid)).Takes id on'

-- ---------------------------------------------------------------------------
-- One flag
-- ---------------------------------------------------------------------------

theorem flag_missing (h : (c.table.channel? id).isSome = false) (on : Bool) :
    c.flag id on = .error (.channelNotFound id) := by
  rw [Option.isSome_eq_false_iff, Option.isNone_iff_eq_none] at h
  cases on <;> simp [flag, disable, enable, channel, h, bind, Except.bind]

theorem takes_iff : c.Takes id on ↔ (c.table.channel? id).isSome = true := by
  constructor
  · rintro ⟨c', hc'⟩
    by_contra hmissing
    rw [flag_missing (by simpa using hmissing)] at hc'
    cases hc'
  · intro h
    obtain ⟨channel, hchannel⟩ := Option.isSome_iff_exists.mp h
    cases on <;> simp [Takes, flag, disable, enable, Chooser.channel, hchannel, bind, Except.bind,
      pure, Except.pure]

theorem flagStep_flag (c : Chooser) (id : Int) (on : Bool) :
    c.flagStep (.flag id on) = if on then c.takeOut id else c.putBack id := by
  cases on <;> rfl

@[simp] theorem table_flagStep_flag (c : Chooser) (id : Int) (on : Bool) :
    (c.flagStep (.flag id on)).table = c.table := by
  rw [flagStep_flag]
  cases on with
  | true => exact table_takeOut c id
  | false => exact table_putBack c id

theorem mem_disabled_flagStep {other : Int} :
    other ∈ (c.flagStep (.flag id on)).disabled ↔
      (other = id ∧ c.Takes id on) ∧ on = true ∨
        other ∈ c.disabled ∧ ¬(other = id ∧ c.Takes id on) := by
  rw [flagStep_flag, takes_iff]
  cases on with
  | true =>
    rw [if_pos rfl, mem_disabled_takeOut]
    tauto
  | false =>
    rw [if_neg Bool.false_ne_true, mem_disabled_putBack]
    simp

-- ---------------------------------------------------------------------------
-- Histories
-- ---------------------------------------------------------------------------

theorem flagRun_concat (c : Chooser) (ops : List FlagOp) (op : FlagOp) :
    c.flagRun (ops ++ [op]) = (c.flagRun ops).flagStep op := List.foldl_concat ..

theorem lastFlag_concat : c.LastFlag (ops ++ [op]) id on ↔
    op = .flag id on ∧ (c.flagRun ops).Takes id on ∨
      c.LastFlag ops id on ∧ ¬op.Drops id ∧
        ∀ on', op = .flag id on' → ¬(c.flagRun ops).Takes id on' := by
  constructor
  · rintro ⟨before, after, hops, htakes, hkept, hlast⟩
    -- Either the flag was set by the last operation, or that came later.
    rcases List.eq_nil_or_concat after with rfl | ⟨after, last, rfl⟩
    · obtain ⟨rfl, hop⟩ := List.append_inj' hops rfl
      exact .inl ⟨List.singleton_inj.mp hop, htakes⟩
    · rw [List.concat_eq_append, ← List.cons_append, ← List.append_assoc] at hops
      obtain ⟨rfl, hop⟩ := List.append_inj' hops rfl
      obtain rfl := List.singleton_inj.mp hop
      rw [List.concat_eq_append] at hkept hlast
      refine .inr ⟨⟨before, after, rfl, htakes, fun op hop => hkept op (by simp [hop]), ?_⟩,
        hkept op (by simp), ?_⟩
      · rintro mid on' rest rfl
        exact hlast mid on' (rest ++ [op]) (by simp)
      · rintro on' rfl
        exact hlast after on' [] rfl
  · rintro (⟨rfl, htakes⟩ | ⟨⟨before, after, rfl, htakes, hkept, hlast⟩, hdrops, hop⟩)
    · exact ⟨ops, [], rfl, htakes, nofun, fun mid on' rest hnil => by simp at hnil⟩
    · refine ⟨before, after ++ [op], by simp, htakes, fun op' hop' => ?_, ?_⟩
      · rcases List.mem_append.mp hop' with hop' | hop'
        · exact hkept op' hop'
        · exact List.mem_singleton.mp hop' ▸ hdrops
      · intro mid on' rest hafter
        rcases List.eq_nil_or_concat rest with rfl | ⟨rest, last, rfl⟩
        · obtain ⟨rfl, hlastOp⟩ := List.append_inj' hafter rfl
          exact hop on' (List.singleton_inj.mp hlastOp)
        · rw [List.concat_eq_append, ← List.cons_append, ← List.append_assoc] at hafter
          exact hlast mid on' rest (List.append_inj' hafter rfl).1

theorem LastFlag.unique (h : c.LastFlag ops id on) (h' : c.LastFlag ops id on') : on = on' := by
  induction ops using List.reverseRecOn with
  | nil =>
    obtain ⟨before, after, hops, -⟩ := h
    simp at hops
  | append_singleton ops op ih =>
    rw [lastFlag_concat] at h h'
    rcases h with ⟨rfl, htakes⟩ | ⟨h, -, hop⟩
    · rcases h' with ⟨hop', -⟩ | ⟨-, -, hop'⟩
      · cases hop'
        rfl
      · exact absurd htakes (hop' on rfl)
    · rcases h' with ⟨rfl, htakes'⟩ | ⟨h', -, -⟩
      · exact absurd htakes' (hop on' rfl)
      · exact ih h h'

def fresh (cooldowns : Cooldowns) : Chooser where
  cooldowns := cooldowns

variable {cooldowns : Cooldowns}

theorem isSome_channel?_flagRun :
    (((fresh cooldowns).flagRun ops).table.channel? id).isSome = true ↔ Listed ops id := by
  induction ops using List.reverseRecOn with
  | nil => simp [flagRun, fresh, RoutingTable.channel?, Dict.get?_empty, Listed, lastListed]
  | append_singleton ops op ih =>
    rw [flagRun_concat, Listed, lastListed_concat]
    cases op with
    | load source =>
      cases source with
      | error reason => exact ih
      | ok source =>
        obtain ⟨channels, abilities⟩ := source
        rw [flagStep, reload_ok]
        exact RoutingTable.isSome_channel?_build
    | flag id' on => rw [table_flagStep_flag]; exact ih
    | ask id' => exact ih

theorem mem_disabled_flagRun :
    id ∈ ((fresh cooldowns).flagRun ops).disabled ↔ (fresh cooldowns).LastFlag ops id true := by
  induction ops using List.reverseRecOn with
  | nil =>
    refine iff_of_false List.not_mem_nil ?_
    rintro ⟨before, after, hops, -⟩
    simp at hops
  | append_singleton ops op ih =>
    rw [flagRun_concat, lastFlag_concat]
    cases op with
    | load source =>
      cases source with
      | error reason =>
        simpa [flagStep, reload, load, Except.toOption, FlagOp.Drops, FlagOp.listed?] using ih
      | ok source =>
        obtain ⟨channels, abilities⟩ := source
        rw [flagStep, reload_ok, List.mem_filter, ih, RoutingTable.isSome_channel?_build]
        simp [FlagOp.Drops, FlagOp.listed?, Except.toOption]
    | flag id' on =>
      rw [mem_disabled_flagStep, ih]
      by_cases hid : id' = id
      · subst hid
        cases on <;> simp [FlagOp.Drops, FlagOp.listed?, takes_iff]
      · simp [FlagOp.Drops, FlagOp.listed?, hid, Ne.symm hid]
    | ask id' => simpa [flagStep, FlagOp.Drops, FlagOp.listed?] using ih

theorem isDisabled_flagRun :
    ((fresh cooldowns).flagRun ops).isDisabled id = .ok on ↔
      Listed ops id ∧ ((fresh cooldowns).LastFlag ops id on ∨
        on = false ∧ ∀ on', ¬(fresh cooldowns).LastFlag ops id on') := by
  rw [isDisabled_eq]
  by_cases hlisted : Listed ops id
  · rw [if_pos (isSome_channel?_flagRun.mpr hlisted), Except.ok.injEq, and_iff_right hlisted]
    by_cases hflagged : id ∈ ((fresh cooldowns).flagRun ops).disabled
    · have hset := mem_disabled_flagRun.mp hflagged
      rw [decide_eq_true hflagged]
      constructor
      · rintro rfl
        exact .inl hset
      · rintro (hset' | ⟨-, hnever⟩)
        · exact hset.unique hset'
        · exact absurd hset (hnever true)
    · have hunset := mem_disabled_flagRun.not.mp hflagged
      rw [decide_eq_false hflagged]
      cases on with
      | true => simpa using hunset
      | false =>
        refine iff_of_true rfl (or_iff_not_imp_left.mpr fun hnot => ⟨rfl, fun on' => ?_⟩)
        cases on' with
        | true => exact hunset
        | false => exact hnot
  · rw [if_neg (isSome_channel?_flagRun.not.mpr hlisted)]
    exact iff_of_false nofun fun h => hlisted h.1

/-- However a chooser was loaded, a channel has a flag just as long as it is in the last list, and
that is what it was last set to since it came into it, or off. Nothing that fails changes
anything, and no other flag moves with one that is set. -/
theorem flags_survive (cooldowns : Cooldowns) (ops : List FlagOp) (id : Int) :
    let c := fresh cooldowns
    let d := c.flagRun ops
    (∀ on, d.isDisabled id = .ok on ↔
      Listed ops id ∧ (c.LastFlag ops id on ∨ on = false ∧ ∀ on', ¬c.LastFlag ops id on')) ∧
    (¬Listed ops id → d.isDisabled id = .error (.channelNotFound id) ∧
      ∀ on, d.flag id on = .error (.channelNotFound id) ∧ d.flagStep (.flag id on) = d) ∧
    (Listed ops id → ∀ on, d.flag id on = .ok (d.flagStep (.flag id on)) ∧
      (d.flagStep (.flag id on)).isDisabled id = .ok on) ∧
    (∀ reason, d.load (.error reason) = .error (.load reason) ∧
      d.flagStep (.load (.error reason)) = d) ∧
    ∀ on, (d.flagStep (.flag id on)).table = d.table ∧
      ∀ other ≠ id, (d.flagStep (.flag id on)).isDisabled other = d.isDisabled other := by
  intro c d
  refine ⟨fun _ => isDisabled_flagRun, fun hlisted => ?_, fun hlisted on => ?_,
    fun reason => ⟨rfl, rfl⟩, fun on => ⟨table_flagStep_flag d id on, fun other hother => ?_⟩⟩
  · have hmissing : (d.table.channel? id).isSome = false := by
      simpa using isSome_channel?_flagRun.not.mpr hlisted
    refine ⟨by rw [isDisabled_eq, hmissing]; rfl, fun on => ?_⟩
    rw [flagStep, flag_missing hmissing on]
    exact ⟨rfl, rfl⟩
  · have hknown : (d.table.channel? id).isSome = true := isSome_channel?_flagRun.mpr hlisted
    obtain ⟨d', hd'⟩ : d.Takes id on := takes_iff.mpr hknown
    refine ⟨?_, ?_⟩
    · rw [flagStep, hd']
      rfl
    · rw [isDisabled_eq, table_flagStep_flag, if_pos hknown]
      have hflag : id ∈ (d.flagStep (.flag id on)).disabled ↔ on = true := by
        rw [mem_disabled_flagStep]
        simp [takes_iff, hknown]
      simp [hflag]
  · rw [isDisabled_eq, isDisabled_eq, table_flagStep_flag]
    simp [mem_disabled_flagStep, hother]

/-- A channel comes back in service after a list without it, and the flag of the one that stayed
is kept, also by a load that fails. -/
theorem flags_survive_returned :
    let listing (channels : List Channel) : FlagOp := .load (.ok (channels, []))
    let ops : List FlagOp := [listing [spareChannel 1, spareChannel 2], .flag 1 true, .flag 2 true,
      .flag 3 true, .load (.error ""), listing [spareChannel 1],
      listing [spareChannel 1, spareChannel 2], .ask 2]
    ((fresh {}).LastFlag ops 1 true ∧ ((fresh {}).flagRun ops).isDisabled 1 = .ok true) ∧
      (∀ on, ¬(fresh {}).LastFlag ops 2 on) ∧
      ((fresh {}).flagRun ops).isDisabled 2 = .ok false ∧ ¬Listed ops 3 := by
  intro listing ops
  have hkept : ((fresh {}).flagRun ops).isDisabled 1 = .ok true := by decide
  have hback : ((fresh {}).flagRun ops).isDisabled 2 = .ok false := by decide
  have hnever : ∀ on, ¬(fresh {}).LastFlag ops 2 on := by
    rcases (((flags_survive {} ops 2).1 false).mp hback).2 with hset | ⟨-, hnever⟩
    · obtain ⟨before, after, hops, -⟩ := hset
      have hmem : FlagOp.flag 2 false ∈ ops := by rw [hops]; simp
      simp [ops, listing] at hmem
    · exact hnever
  refine ⟨⟨?_, hkept⟩, hnever, hback, ?_⟩
  · simpa using (((flags_survive {} ops 1).1 true).mp hkept).2
  · have hlast : lastListed ops = [spareChannel 1, spareChannel 2] := rfl
    simp [Listed, hlast, spareChannel]

end Chooser

end Tollgate
