import Tollgate.Proofs.Routing.Dispatch

/-!
# Disabling a channel and enabling it again

A channel that is disabled and later enabled leaves no trace, whatever was
loaded and selected in between (`setStatus_restores`).
-/

namespace Tollgate

/-- Neither the store nor a flag is changed on purpose. -/
def DispatchOp.Idle : DispatchOp → Prop
  | .load | .mark .. | .markFor .. | .clear .. | .sweep | .select .. | .wait _ => True
  | .setStatus .. | .autoDisable _ | .disable _ | .enable _ => False

namespace Dispatch

variable {d e : Dispatch} {op : DispatchOp} {ops : List DispatchOp} {id : Int}
  {status : ChannelStatus}

/-- Where a dispatch stands while one of its channels is away: the store has another status for
it, and the other channels have the flags they had. -/
structure Away (d : Dispatch) (id : Int) (status : ChannelStatus) (e : Dispatch) : Prop where
  store : e.store = d.store.withStatus id status
  flags : ∀ other ≠ id, (∃ row ∈ d.store.channels.rows, row.id = other) →
    (other ∈ e.chooser.disabled ↔ other ∈ d.chooser.disabled)

theorem Loaded.isSome_channel?_iff (h : d.Loaded) :
    (d.chooser.table.channel? id).isSome ↔ ∃ row ∈ d.store.channels.rows, row.id = id := by
  obtain ⟨channels, abilities, hsource, htable⟩ := h.table
  rw [htable, RoutingTable.isSome_channel?_build,
    Store.exists_listed_iff (Store.routingSource_ok hsource).2.1]

theorem away_step (h : d.Away id status e) (hop : op.Idle) : d.Away id status (e.step op) := by
  cases op with
  | load =>
    refine ⟨h.store, fun other hid hrow => ?_⟩
    show other ∈ (e.chooser.reload e.store.routingSource).disabled ↔ _
    cases hsource : e.store.routingSource with
    | error reason => exact h.flags other hid hrow
    | ok source =>
      obtain ⟨channels, abilities⟩ := source
      have hlisted : ∃ row ∈ e.store.channels.rows, row.id = other := by
        rw [h.store, Store.exists_row_withStatus]
        exact hrow
      have hkept : ((RoutingTable.build channels abilities).channel? other).isSome := by
        rw [RoutingTable.isSome_channel?_build,
          Store.exists_listed_iff (Store.routingSource_ok hsource).2.1]
        exact hlisted
      rw [Chooser.reload_ok, List.mem_filter, and_iff_left hkept]
      exact h.flags other hid hrow
  | mark | markFor | clear | sweep | select | wait => exact ⟨h.store, h.flags⟩
  | setStatus | autoDisable | disable | enable => exact hop.elim

theorem away_run (h : d.Away id status e) (hops : ∀ op ∈ ops, op.Idle) :
    d.Away id status (e.run ops) := by
  induction ops generalizing e with
  | nil => exact h
  | cons op ops ih =>
    rw [List.forall_mem_cons] at hops
    exact ih (away_step h hops.1) hops.2

theorem away_takenOut (h : d.Loaded) (hrow : ∃ row ∈ d.store.channels.rows, row.id = id)
    (hs : status ≠ .enabled) :
    (d.chooser.setStatus d.store id status).1 = .ok () ∧
      d.Away id status (d.step (.setStatus id status)) := by
  have heq := ((Chooser.setStatus_eq h.routable d.chooser id status).resolve_right
    fun hmissing => hmissing.1 hrow).2
  rw [Chooser.told, if_neg hs, Chooser.follow, if_neg hs] at heq
  refine ⟨congrArg Prod.fst heq, ?_, fun other hid _ => ?_⟩
  · simp only [step, heq]
  · simp only [step, heq, Chooser.mem_disabled_takeOut, hid, false_and, or_false]

/-- Enabling the channel again reads the first table anew and lifts that one flag. -/
theorem Away.enabled (h : d.Away id status e) (hd : d.Loaded)
    (hstatus : d.store.channelStatus? id = some .enabled)
    (habilities : ∀ a ∈ d.store.abilities, a.channelId = id → a.enabled = true) :
    (e.chooser.setStatus e.store id .enabled).1 = .ok () ∧
      (e.step (.setStatus id .enabled)).store = d.store ∧
      (e.step (.setStatus id .enabled)).chooser.table = d.chooser.table ∧
      ∀ other, other ∈ (e.step (.setStatus id .enabled)).chooser.disabled ↔
        other ∈ e.chooser.disabled ∧ (d.chooser.table.channel? other).isSome ∧ other ≠ id := by
  obtain ⟨channels, abilities, hsource, htable⟩ := hd.table
  have hback : e.store.withStatus id .enabled = d.store := by
    rw [h.store]
    exact Store.withStatus_withStatus (Store.status_of_row hd.keyed hstatus) habilities status
  have hroutable : e.store.Routable := h.store ▸ hd.routable.withStatus id status
  have hrow : ∃ row ∈ e.store.channels.rows, row.id = id := by
    rw [h.store, Store.exists_row_withStatus]
    exact Store.exists_row_of_status hstatus
  have hknown : (d.chooser.table.channel? id).isSome :=
    hd.isSome_channel?_iff.mpr (Store.exists_row_of_status hstatus)
  have heq := ((Chooser.setStatus_eq hroutable e.chooser id .enabled).resolve_right
    fun hmissing => hmissing.1 hrow).2
  rw [hback, Chooser.told, if_pos rfl, Chooser.follow, if_pos rfl, hsource] at heq
  refine ⟨congrArg Prod.fst heq, ?_, ?_, fun other => ?_⟩
  · simp only [step, heq]
  · simp only [step, heq, Chooser.table_putBack, Chooser.reload_ok, htable]
  · simp only [step, heq, Chooser.mem_disabled_putBack, Chooser.reload_ok, ← htable, hknown,
      List.mem_filter, and_assoc]
    simp

/-- A channel that is stored as enabled with all its abilities is disabled and later enabled:
the tables are as they were, and so are the routing table and every flag. A channel without a
row has no status to change. -/
theorem setStatus_restores (h : d.Loaded) (hstatus : d.store.channelStatus? id = some .enabled)
    (habilities : ∀ a ∈ d.store.abilities, a.channelId = id → a.enabled = true)
    (hs : status ≠ .enabled) (hops : ∀ op ∈ ops, op.Idle) :
    let gone := (d.step (.setStatus id status)).run ops
    let back := gone.step (.setStatus id .enabled)
    (d.chooser.setStatus d.store id status).1 = .ok () ∧
    (gone.chooser.setStatus gone.store id .enabled).1 = .ok () ∧
    back.store = d.store ∧
    (∀ group model, back.chooser.table.tiers group model = d.chooser.table.tiers group model) ∧
    back.chooser.isDisabled id = .ok false ∧
    (∀ other ≠ id, back.chooser.isDisabled other = d.chooser.isDisabled other) ∧
    ∀ (c : Chooser) (s : Store) (missing : Int) (status : ChannelStatus),
      s.guard .channels = .ok () → (¬∃ row ∈ s.channels.rows, row.id = missing) →
        c.setStatus s missing status = (.error (.channelNotFound missing), c, s) := by
  intro gone back
  have hrow := Store.exists_row_of_status hstatus
  obtain ⟨hdisabled, haway⟩ := away_takenOut h hrow hs
  have hgone : d.Away id status gone := away_run haway hops
  obtain ⟨henabled, hstore, htable, hflags⟩ := hgone.enabled h hstatus habilities
  refine ⟨hdisabled, henabled, hstore, fun group model => by rw [htable], ?_,
    fun other hid => ?_, ?_⟩
  · rw [Chooser.isDisabled_eq, htable, if_pos (h.isSome_channel?_iff.mpr hrow)]
    simp [back, hflags]
  · rw [Chooser.isDisabled_eq, Chooser.isDisabled_eq, htable]
    by_cases hknown : (d.chooser.table.channel? other).isSome
    · rw [if_pos hknown, if_pos hknown]
      have hsame := hgone.flags other hid (h.isSome_channel?_iff.mp hknown)
      simp [back, hflags, hsame, hknown, hid]
    · rw [if_neg hknown, if_neg hknown]
  · exact fun c s missing status hserved hmissing =>
      Chooser.setStatus_missing hserved hmissing c status

theorem setStatus_restores_flagged :
    let d := twinDispatch.step (.disable 2)
    let gone := (d.step (.setStatus 1 .manuallyDisabled)).run
      [.load, .select "g" "m" [], .wait 5, .load]
    let back := gone.step (.setStatus 1 .enabled)
    d.Loaded ∧ d.store.channelStatus? 1 = some .enabled ∧
      (∀ a ∈ d.store.abilities, a.channelId = 1 → a.enabled = true) ∧
      back.store = d.store ∧ back.chooser.isDisabled 1 = .ok false ∧
      back.chooser.isDisabled 2 = .ok true := by
  intro d gone back
  have hloaded : d.Loaded := ⟨loaded_twinDispatch.keyed, loaded_twinDispatch.table⟩
  have hstatus : d.store.channelStatus? 1 = some .enabled := by decide
  have habilities : ∀ a ∈ d.store.abilities, a.channelId = 1 → a.enabled = true := by decide
  have hflagged : d.chooser.isDisabled 2 = .ok true := by decide
  have hops : ∀ op ∈ [DispatchOp.load, .select "g" "m" [], .wait 5, .load], op.Idle := by
    simp [DispatchOp.Idle]
  have hs : ChannelStatus.manuallyDisabled ≠ .enabled := by decide
  obtain ⟨-, -, hstore, -, hid, hothers, -⟩ :=
    setStatus_restores hloaded hstatus habilities hs hops
  exact ⟨hloaded, hstatus, habilities, hstore, hid, (hothers 2 (by decide)).trans hflagged⟩

end Dispatch

end Tollgate
