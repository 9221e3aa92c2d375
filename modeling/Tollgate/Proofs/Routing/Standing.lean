import Tollgate.Proofs.Routing.Dispatch

/-!
# The standing of a served channel

A disabled channel is kept out by the flag alone until a load, so lifting the
flag of such a channel serves it again (`lifted_serves_disabled`). Where flags
are lifted only from channels that are stored as enabled, every channel served
is stored as enabled, and one taken out is not served until it is stored as
enabled again (`served_enabled`).
-/

namespace Tollgate

namespace Dispatch

variable {d : Dispatch} {op : DispatchOp} {ops : List DispatchOp} {id : Int} {channel : Channel}

/-- Some selection answers with the channel. -/
def Serves (d : Dispatch) (channel : Channel) : Prop :=
  ∃ group model filters r, (d.chooser.select d.now group model filters r).1 = .ok channel

/-- A channel that the table shows as enabled and that has no flag is stored as enabled. -/
structure Faithful (d : Dispatch) : Prop where
  keyed : d.store.Keyed
  routable : d.store.Routable
  listed : ∀ id channel, d.chooser.table.channel? id = some channel → channel.id = id
  standing : ∀ id channel, d.chooser.table.channel? id = some channel →
    channel.status = .enabled → id ∉ d.chooser.disabled →
      d.store.channelStatus? id = some .enabled

/-- No flag is lifted from a channel that the table shows as enabled and the store does not. -/
def Candid (d : Dispatch) : DispatchOp → Prop
  | .enable id => ∀ channel, d.chooser.table.channel? id = some channel →
      channel.status = .enabled → d.store.channelStatus? id = some .enabled
  | _ => True

def AllCandid (d : Dispatch) : List DispatchOp → Prop
  | [] => True
  | op :: ops => d.Candid op ∧ (d.step op).AllCandid ops

def TakesOut (d : Dispatch) (id : Int) : DispatchOp → Prop
  | .setStatus other status => other = id ∧ status ≠ .enabled
  | .autoDisable other => other = id ∧ (d.chooser.autoDisable d.store id).1 = .ok true
  | _ => False

theorem Faithful.stored_enabled (h : d.Faithful) (hserves : d.Serves channel) :
    d.store.channelStatus? channel.id = some .enabled := by
  obtain ⟨group, model, filters, r, hselect⟩ := hserves
  obtain ⟨⟨id, htable⟩, heligible⟩ := Chooser.eligible_of_select (Prod.ext hselect rfl)
  obtain rfl := h.listed id channel htable
  exact h.standing _ channel htable heligible.enabled heligible.inService

-- ---------------------------------------------------------------------------
-- Steps
-- ---------------------------------------------------------------------------

theorem status_of_built {s : Store} {channels : List Channel} {abilities : List Ability}
    (hk : s.Keyed) (hsource : s.routingSource = .ok (channels, abilities))
    (htable : (RoutingTable.build channels abilities).channel? id = some channel) :
    channel.id = id ∧ s.channelStatus? id = some channel.status := by
  obtain ⟨hmem, rfl⟩ := RoutingTable.mem_of_channel?_build htable
  exact ⟨rfl, Store.status_of_listed hk (Store.routingSource_ok hsource).2.1 hmem⟩

theorem Loaded.faithful (h : d.Loaded) : d.Faithful := by
  obtain ⟨channels, abilities, hsource, htable⟩ := h.table
  refine ⟨h.keyed, h.routable, fun id channel hc => ?_, fun id channel hc henabled _ => ?_⟩
  · exact (status_of_built h.keyed hsource (htable ▸ hc)).1
  · rw [(status_of_built h.keyed hsource (htable ▸ hc)).2, henabled]

theorem Faithful.reload (h : d.Faithful) : (d.step .load).Faithful := by
  show Faithful { d with chooser := d.chooser.reload d.store.routingSource }
  cases hsource : d.store.routingSource with
  | error reason => exact h
  | ok source =>
    obtain ⟨channels, abilities⟩ := source
    refine ⟨h.keyed, h.routable, fun id channel hc => ?_, fun id channel hc henabled _ => ?_⟩
    · exact (status_of_built h.keyed hsource hc).1
    · exact (status_of_built h.keyed hsource hc).2.trans (congrArg some henabled)

theorem Faithful.flag (h : d.Faithful) {c : Chooser} (htable : c.table = d.chooser.table)
    (hflags : ∀ id ∈ d.chooser.disabled, id ∈ c.disabled) :
    Faithful { d with chooser := c } where
  keyed := h.keyed
  routable := h.routable
  listed id channel hc := h.listed id channel (htable ▸ hc)
  standing id channel hc henabled hflag :=
    h.standing id channel (htable ▸ hc) henabled fun hid => hflag (hflags id hid)

theorem Faithful.putBack (h : d.Faithful) (hcandid : d.Candid (.enable id)) :
    (d.step (.enable id)).Faithful where
  keyed := h.keyed
  routable := h.routable
  listed other channel hc := h.listed other channel (Chooser.table_putBack d.chooser id ▸ hc)
  standing other channel hc henabled hflag := by
    have htable : d.chooser.table.channel? other = some channel :=
      Chooser.table_putBack d.chooser id ▸ hc
    by_cases hid : other = id
    · subst hid
      exact hcandid channel htable henabled
    · refine h.standing other channel htable henabled fun hmem => hflag ?_
      exact Chooser.mem_disabled_putBack.mpr ⟨hmem, fun heq => absurd heq hid⟩

theorem candid_reload {source : List Channel × List Ability} (hk : d.store.Keyed)
    (hsource : d.store.routingSource = .ok source) (id : Int) :
    (d.step .load).Candid (.enable id) := by
  obtain ⟨channels, abilities⟩ := source
  have hstep : d.step .load = { d with chooser := d.chooser.reload (.ok (channels, abilities)) } :=
    congrArg (fun source => { d with chooser := d.chooser.reload source }) hsource
  intro channel hc henabled
  rw [hstep] at hc ⊢
  exact (status_of_built hk hsource hc).2.trans (congrArg some henabled)

theorem Faithful.storeEnabled (h : d.Faithful) (id : Int) :
    Faithful { d with store := d.store.withStatus id .enabled } where
  keyed := h.keyed.withStatus id .enabled
  routable := h.routable.withStatus id .enabled
  listed := h.listed
  standing other channel hc henabled hflag := by
    have hstored := h.standing other channel hc henabled hflag
    show (d.store.withStatus id .enabled).channelStatus? other = _
    rw [Store.channelStatus?_withStatus]
    by_cases hid : other = id
    · rw [if_pos hid, ← hid, hstored]
      rfl
    · rw [if_neg hid, hstored]

theorem Faithful.storeDisabled (h : d.Faithful) (id : Int) (status : ChannelStatus) :
    Faithful { d with chooser := d.chooser.takeOut id, store := d.store.withStatus id status } where
  keyed := h.keyed.withStatus id status
  routable := h.routable.withStatus id status
  listed other channel hc := h.listed other channel (Chooser.table_takeOut d.chooser id ▸ hc)
  standing other channel hc henabled hflag := by
    have htable : d.chooser.table.channel? other = some channel :=
      Chooser.table_takeOut d.chooser id ▸ hc
    have hfree : ¬(other ∈ d.chooser.disabled ∨
        other = id ∧ (d.chooser.table.channel? id).isSome) :=
      Chooser.mem_disabled_takeOut.not.mp hflag
    have hid : other ≠ id := fun heq => hfree (.inr ⟨heq, by rw [← heq, htable]; rfl⟩)
    show (d.store.withStatus id status).channelStatus? other = _
    rw [Store.channelStatus?_withStatus, if_neg hid]
    exact h.standing other channel htable henabled fun hmem => hfree (.inl hmem)

theorem Faithful.setStatus (h : d.Faithful) (id : Int) (status : ChannelStatus) :
    (d.step (.setStatus id status)).Faithful := by
  show Faithful { d with
    chooser := (d.chooser.setStatus d.store id status).2.1
    store := (d.chooser.setStatus d.store id status).2.2 }
  rcases Chooser.setStatus_eq h.routable d.chooser id status with ⟨-, heq⟩ | ⟨-, heq⟩
  · rw [heq]
    by_cases hs : status = .enabled
    · subst hs
      have hstored := h.storeEnabled id
      rw [Chooser.follow, if_pos rfl]
      cases hsource : (d.store.withStatus id .enabled).routingSource with
      | error reason => exact hstored
      | ok source =>
        have hloaded := hstored.reload.putBack (candid_reload hstored.keyed hsource id)
        simp only [step, hsource] at hloaded
        exact hloaded
    · rw [Chooser.follow, if_neg hs]
      exact h.storeDisabled id status
  · rw [heq]
    exact h

theorem Faithful.autoDisable (h : d.Faithful) (id : Int) : (d.step (.autoDisable id)).Faithful := by
  rcases d.chooser.autoDisable_eq d.store id with ⟨-, -, -, heq⟩ | ⟨-, heq⟩
  · have hset := h.setStatus id .autoDisabled
    simp only [step, heq] at hset ⊢
    exact hset
  · simp only [step, heq]
    exact h

theorem faithful_step (h : d.Faithful) (hcandid : d.Candid op) : (d.step op).Faithful := by
  cases op with
  | load => exact h.reload
  | setStatus id status => exact h.setStatus id status
  | autoDisable id => exact h.autoDisable id
  | enable id => exact h.putBack hcandid
  | disable id =>
    exact h.flag (Chooser.table_takeOut d.chooser id) fun other hmem =>
      Chooser.mem_disabled_takeOut.mpr (.inl hmem)
  | mark | markFor | clear | sweep => exact h.flag rfl fun _ hmem => hmem
  | select | wait => exact ⟨h.keyed, h.routable, h.listed, h.standing⟩

theorem faithful_run (h : d.Faithful) (hcandid : d.AllCandid ops) : (d.run ops).Faithful := by
  induction ops generalizing d with
  | nil => exact h
  | cons op ops ih => exact ih (faithful_step h hcandid.1) hcandid.2

theorem run_append (d : Dispatch) (before after : List DispatchOp) :
    d.run (before ++ after) = (d.run before).run after := List.foldl_append ..

theorem allCandid_append {before after : List DispatchOp} :
    d.AllCandid (before ++ after) ↔ d.AllCandid before ∧ (d.run before).AllCandid after := by
  induction before generalizing d with
  | nil => exact ⟨fun h => ⟨trivial, h⟩, fun h => h.2⟩
  | cons op before ih =>
    show d.Candid op ∧ (d.step op).AllCandid (before ++ after) ↔
      (d.Candid op ∧ (d.step op).AllCandid before) ∧ ((d.step op).run before).AllCandid after
    rw [ih, and_assoc]

-- ---------------------------------------------------------------------------
-- Channels that are stored as disabled
-- ---------------------------------------------------------------------------

theorem shut_of_takesOut (h : d.Faithful) (hout : d.TakesOut id op) :
    (d.step op).store.channelStatus? id ≠ some .enabled := by
  have hset : ∀ status : ChannelStatus, status ≠ .enabled →
      (d.step (.setStatus id status)).store.channelStatus? id ≠ some .enabled := by
    intro status hs hstored
    have hwritten := d.chooser.channelStatus?_setStatus h.routable id status id
    rw [if_pos rfl] at hwritten
    obtain ⟨_, -, rfl⟩ := Option.map_eq_some_iff.mp (hwritten.symm.trans hstored)
    exact hs rfl
  cases op with
  | setStatus other status =>
    obtain ⟨rfl, hs⟩ := hout
    exact hset status hs
  | autoDisable other =>
    obtain ⟨rfl, hanswer⟩ := hout
    rcases d.chooser.autoDisable_eq d.store other with ⟨-, -, -, heq⟩ | ⟨hfailed, -⟩
    · have hdisabled := hset .autoDisabled nofun
      simp only [step, heq] at hdisabled ⊢
      exact hdisabled
    · exact absurd hanswer hfailed
  | _ => exact hout.elim

/-- Only a change to enabled brings a channel back. -/
theorem shut_step (h : d.Faithful) (hshut : d.store.channelStatus? id ≠ some .enabled)
    (hop : op ≠ .setStatus id .enabled) :
    (d.step op).store.channelStatus? id ≠ some .enabled := by
  have hset : ∀ (other : Int) (status : ChannelStatus), (other = id → status ≠ .enabled) →
      (d.chooser.setStatus d.store other status).2.2.channelStatus? id ≠ some .enabled := by
    intro other status hs hstored
    rw [d.chooser.channelStatus?_setStatus h.routable] at hstored
    split at hstored
    · next hid =>
      obtain ⟨_, -, rfl⟩ := Option.map_eq_some_iff.mp hstored
      exact hs hid.symm rfl
    · exact hshut hstored
  cases op with
  | setStatus other status => exact hset other status fun hid hs => hop (by rw [hid, hs])
  | autoDisable other =>
    rcases d.chooser.autoDisable_eq d.store other with ⟨-, -, -, heq⟩ | ⟨-, heq⟩
    · have hdisabled := hset other .autoDisabled nofun
      simp only [step, heq]
      exact hdisabled
    · simp only [step, heq]
      exact hshut
  | _ => exact hshut

theorem shut_run (h : d.Faithful) (hcandid : d.AllCandid ops)
    (hshut : d.store.channelStatus? id ≠ some .enabled) (hops : .setStatus id .enabled ∉ ops) :
    (d.run ops).store.channelStatus? id ≠ some .enabled := by
  induction ops generalizing d with
  | nil => exact hshut
  | cons op ops ih =>
    rw [List.mem_cons, not_or] at hops
    obtain ⟨hop, hops⟩ := hops
    exact ih (faithful_step h hcandid.1) hcandid.2 (shut_step h hshut fun heq => hop heq.symm) hops

/-- Where no flag is lifted from a channel that is stored as disabled, every channel served is
stored as enabled, and one taken out is not served until it is stored as enabled again. -/
theorem served_enabled (h : d.Loaded) (hcandid : d.AllCandid ops) :
    (∀ channel, (d.run ops).Serves channel →
      (d.run ops).store.channelStatus? channel.id = some .enabled) ∧
    ∀ before op after id, ops = before ++ op :: after → (d.run before).TakesOut id op →
      .setStatus id .enabled ∉ after →
        ∀ channel, (d.run ops).Serves channel → channel.id ≠ id := by
  have hserved : ∀ channel, (d.run ops).Serves channel →
      (d.run ops).store.channelStatus? channel.id = some .enabled :=
    fun _ => (faithful_run h.faithful hcandid).stored_enabled
  refine ⟨hserved, ?_⟩
  rintro before op after id rfl hout hafter channel hserves rfl
  rw [allCandid_append] at hcandid
  obtain ⟨hbefore, hop, hrest⟩ := hcandid
  have hfaithful := faithful_run h.faithful hbefore
  refine shut_run (faithful_step hfaithful hop) hrest (shut_of_takesOut hfaithful hout) hafter ?_
  have hstored := hserved channel hserves
  rwa [run_append] at hstored

/-- The first channel fails and the second takes its place. A load shows the first as disabled,
so its flag may be lifted. -/
theorem served_enabled_spared :
    let ops := [.disable 2, .autoDisable 1, .enable 2, .load, .enable 1]
    twinDispatch.Loaded ∧ twinDispatch.AllCandid ops ∧
      (twinDispatch.run ops).Serves (Chooser.spareChannel 2) ∧
      (twinDispatch.run ops).store.channelStatus? 2 = some .enabled ∧
      ∀ channel, (twinDispatch.run ops).Serves channel → channel.id ≠ 1 := by
  intro ops
  have hcandid : twinDispatch.AllCandid ops := by
    refine ⟨trivial, trivial, fun _ _ _ => by decide, trivial, fun channel hc henabled => ?_,
      trivial⟩
    have htable : (twinDispatch.run (ops.take 4)).chooser.table.channel? 1 =
        some { Chooser.spareChannel 1 with status := .autoDisabled } := by cbv
    cases htable.symm.trans hc
    cases henabled
  have hserves : (twinDispatch.run ops).Serves (Chooser.spareChannel 2) :=
    ⟨"g", "m", [], {}, by cbv⟩
  obtain ⟨hstored, hout⟩ := served_enabled loaded_twinDispatch hcandid
  refine ⟨loaded_twinDispatch, hcandid, hserves, hstored _ hserves, ?_⟩
  exact hout [.disable 2] (.autoDisable 1) [.enable 2, .load, .enable 1] 1 rfl
    ⟨rfl, by decide⟩ (by simp)

/-- A flag that is lifted before the next load lifts what the store keeps. -/
theorem lifted_serves_disabled :
    let d := twinDispatch.run [.setStatus 1 .manuallyDisabled, .enable 1]
    twinDispatch.Loaded ∧ d.Serves (Chooser.spareChannel 1) ∧
      d.store.channelStatus? 1 = some .manuallyDisabled :=
  ⟨loaded_twinDispatch, ⟨"g", "m", [], {}, by cbv⟩, by decide⟩

end Dispatch

end Tollgate
