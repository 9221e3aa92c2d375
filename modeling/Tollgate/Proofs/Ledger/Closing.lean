import Tollgate.Proofs.Ledger.Conservation

/-!
# Closing down

A gateway that is shut down writes what waits in its batch, but it does not
wait for the jobs in flight. What these post afterwards stays in the batch and
is all that stays there, so that nothing is lost where all jobs were done
before (`closing_accounted`).
-/

namespace Tollgate

namespace LedgerOp

/-- What may still happen after the shutdown: nothing is reserved or resolved any more, and
nobody flushes. -/
def IsLate : LedgerOp → Prop
  | .reserve _ | .consume .. | .undo _ | .abandon _ | .flush => False
  | .setChannel .. | .perform _ | .balance _ | .invalidate _ | .purge | .wait _ | .reloadRatios _ =>
    True

end LedgerOp

theorem Batch.flush_eq_empty (b : Batch) {s : Store} (h : s.Sound) : (b.flush s).2.1 = .empty := by
  refine (flushUnder_of_unkept s.outage b s fun c i v => ?_).2
  rw [fate_outage h]
  split <;> nofun

theorem Ledger.sum_perform {l : Ledger} {b : Books} (hs : b.store.Sound)
    (hbatched : l.batched = true) (now : Time) (job : Job)
    (hw : ∀ delta ∈ job.posting? c i, (b.tally c i).Within true delta) :
    (l.perform b now job).batch.sum c i = b.batch.sum c i + job.amount c i := by
  have htally := (posted_perform (l := l) hs now job).tally c i
  rw [hbatched] at htally
  have hpending : (l.perform b now job).batch.sum c i =
    ((job.posting? c i).elim (b.tally c i) ((b.tally c i).post true)).pending :=
    congrArg Tally.pending htally
  rw [hpending, Job.amount]
  cases hp : job.posting? c i with
  | none => exact (Int.add_zero _).symm
  | some delta =>
    have hfits : Word.Fits (b.batch.sum c i + delta) := hw delta hp
    show (if delta = 0 then b.batch.sum c i else Word.wrap (b.batch.sum c i + delta)) = _
    by_cases hz : delta = 0
    · simp [hz]
    · rw [if_neg hz, Word.wrap_eq_self hfits, Option.getD_some]

namespace Desk

variable {start d closed : Desk}

def close (d : Desk) : Desk := { d with gateway := d.gateway.shutdown }

def strand (d : Desk) (n : Nat) : Desk := d.revise n fun c => (c.abandon, [])

/-- A charge that is stranded has come to its end and nothing is paid back for it, not even once
the desk is closed. -/
theorem strand_unpaid (h : d.charges[n]? = some c) (hc : c.current.state = .reserved) :
    (d.strand n).charges[n]? =
        some { c with current := { c.current with state := .refunded } } ∧
      (d.strand n).close.books = d.close.books ∧
      (d.strand n).close.gateway.inFlight = d.close.gateway.inFlight := by
  have hn : n < d.charges.length := (List.getElem?_eq_some_iff.mp h).1
  have hstrand : d.strand n = { d with charges := d.charges.set n c.abandon } := by
    simp [strand, revise, h, Gateway.launchAll]
  rw [hstrand]
  refine ⟨?_, rfl, rfl⟩
  rw [List.getElem?_set_self hn, Charge.abandon, if_pos hc]

theorem ledger_resolve (d : Desk) (n : Nat) (usage : Option Usage) :
    (d.resolve n usage).2.gateway.ledger = d.gateway.ledger := by
  unfold resolve
  split
  · rfl
  · split <;> rfl

theorem ledger_revise (d : Desk) (n : Nat) (f : Charge → Charge × List Job) :
    (d.revise n f).gateway.ledger = d.gateway.ledger := by
  unfold revise
  split <;> rfl

theorem ledger_perform (d : Desk) (n : Nat) : (d.perform n).gateway.ledger = d.gateway.ledger := by
  unfold perform
  split <;> rfl

theorem batched_step (d : Desk) (op : LedgerOp) :
    (d.step op).2.gateway.ledger.batched = d.gateway.ledger.batched := by
  cases op with
  | consume n usage => exact congrArg (·.batched) (d.ledger_resolve n (some usage))
  | undo n => exact congrArg (·.batched) (d.ledger_resolve n none)
  | abandon n => exact congrArg (·.batched) (d.ledger_revise n _)
  | setChannel n channelId => exact congrArg (·.batched) (d.ledger_revise n _)
  | perform n => exact congrArg (·.batched) (d.ledger_perform n)
  | reserve | flush | balance | invalidate | purge | wait | reloadRatios => rfl

theorem batched_run (d : Desk) (ops : List LedgerOp) :
    (d.run ops).2.gateway.ledger.batched = d.gateway.ledger.batched := by
  induction ops generalizing d with
  | nil => rfl
  | cons op ops ih => exact (ih _).trans (batched_step d op)

theorem close_eq (hbatched : d.gateway.ledger.batched = true) :
    d.close = { (d.step .flush).2 with
      gateway := { (d.step .flush).2.gateway with tasks := [] } } := by
  rw [close, Gateway.shutdown]
  dsimp only
  rw [if_pos hbatched]
  rfl

theorem balanced_close (hb : start.Balanced d) (hbatched : d.gateway.ledger.batched = true)
    (hw : d.Within .flush) : start.Balanced d.close := by
  rw [close_eq hbatched]
  have hflush := balanced_flush hb hw
  exact hflush.same hflush.sound (fun _ _ _ hv => hv) rfl rfl

theorem batched_close (hbatched : d.gateway.ledger.batched = true) :
    d.close.gateway.ledger.batched = true := by
  rw [close_eq hbatched]
  exact hbatched

theorem batch_close (hs : d.books.store.Sound) (hbatched : d.gateway.ledger.batched = true) :
    d.close.books.batch = .empty := by
  rw [close_eq hbatched]
  exact Batch.flush_eq_empty d.books.batch hs

-- ---------------------------------------------------------------------------
-- After the shutdown
-- ---------------------------------------------------------------------------

/-- A desk some time after it was closed: every charge has come to its end, and what the jobs in
flight had still to post is in the batch or still to be posted. -/
structure Late (closed d : Desk) : Prop where
  batched : d.gateway.ledger.batched = true
  resolved : ∀ c ∈ d.charges, c.current.state ≠ .reserved
  waiting : ∀ c i, d.books.batch.sum c i + d.moving c i = closed.moving c i
  idle : closed.gateway.inFlight = [] → d.gateway.inFlight = [] ∧ d.books.batch = closed.books.batch

theorem Late.perform (h : closed.Late d) (hs : d.books.store.Sound) (hw : d.Within (.perform n)) :
    closed.Late (d.perform n) := by
  cases hj : d.gateway.inFlight[n]? with
  | none =>
    rw [Desk.perform, hj]
    exact h
  | some job =>
    have hperform : d.perform n = { d with gateway :=
        { d.gateway with inFlight := d.gateway.inFlight.eraseIdx n }.perform job } := by
      rw [Desk.perform, hj]
    refine ⟨(congrArg (·.batched) (d.ledger_perform n)).trans h.batched, ?_, fun c i => ?_,
      fun hidle => ?_⟩
    · rw [hperform]
      exact h.resolved
    · have hwithin : ∀ delta ∈ job.posting? c i, (d.books.tally c i).Within true delta :=
        h.batched ▸ hw job hj c i
      have hsum := Ledger.sum_perform (l := d.gateway.ledger) hs h.batched d.gateway.now job hwithin
      have hbatch : (d.perform n).books.batch.sum c i = d.books.batch.sum c i + job.amount c i := by
        rw [hperform]
        exact hsum
      have hmoved := moving_perform hj c i
      have hwaiting := h.waiting c i
      omega
    · rw [(h.idle hidle).1] at hj
      cases hj

theorem Late.setChannel (h : closed.Late d) (n : Nat) (channelId : Int) :
    closed.Late (d.revise n fun c => (c.setChannel channelId, [])) := by
  unfold revise
  cases hc : d.charges[n]? with
  | none => exact h
  | some c =>
    have hjobs : (d.gateway.launchAll []).inFlight = d.gateway.inFlight := List.append_nil _
    refine ⟨h.batched, fun e he => ?_, fun counter i => ?_, fun hidle => ?_⟩
    · rcases List.mem_or_eq_of_mem_set he with he | rfl
      · exact h.resolved e he
      · exact h.resolved c (List.mem_of_getElem? hc)
    · rw [moving, hjobs]
      exact h.waiting counter i
    · rw [hjobs]
      exact h.idle hidle

theorem late_step (h : closed.Late d) (hs : d.books.store.Sound) (hop : op.IsLate)
    (hw : d.Within op) : closed.Late (d.step op).2 := by
  cases op with
  | reserve | consume | undo | abandon | flush => exact hop.elim
  | setChannel n channelId => exact h.setChannel n channelId
  | perform n => exact h.perform hs hw
  | balance | invalidate | purge | wait | reloadRatios =>
    exact ⟨h.batched, h.resolved, h.waiting, h.idle⟩

theorem late_run (h : closed.Late d) (hb : start.Balanced d) (hops : ∀ op ∈ ops, op.IsLate)
    (hw : d.RunWithin ops) : closed.Late (d.run ops).2 := by
  induction ops generalizing d with
  | nil => exact h
  | cons op ops ih =>
    have hop := hops op (List.mem_cons_self ..)
    exact ih (late_step h hb.sound hop hw.1) (balanced_step hb hw.1)
      (fun op hmem => hops op (List.mem_cons_of_mem _ hmem)) hw.2

theorem heldOfUser_eq_zero (h : ∀ c ∈ d.charges, c.current.state ≠ .reserved) (u : Int) :
    d.heldOfUser u = 0 := by
  refine List.sum_eq_zero fun held hheld => ?_
  obtain ⟨c, hc, rfl⟩ := List.mem_map.mp hheld
  exact if_neg fun hreserved => h c hc hreserved.1

theorem late_close (hs : d.books.store.Sound) (hbatched : d.gateway.ledger.batched = true)
    (hresolved : ∀ c ∈ d.charges, c.current.state ≠ .reserved) : d.close.Late d.close := by
  refine ⟨batched_close hbatched, ?_, fun c i => ?_, fun hidle => ⟨hidle, rfl⟩⟩
  · rw [close_eq hbatched]
    exact hresolved
  · rw [batch_close hs hbatched]
    exact Int.zero_add _

/-- Once a desk is closed with every charge at its end and no job is left in flight, each user has
what it had in the beginning less what it has spent, save what waits in the batch; and there waits
what the jobs posted that were in flight at the shutdown. -/
theorem closing_accounted (h : d.Opening) (hbatched : d.gateway.ledger.batched = true)
    (hbefore : d.RunWithin before)
    (hresolved : ∀ c ∈ (d.run before).2.charges, c.current.state ≠ .reserved)
    (hflush : (d.run before).2.Within .flush) (hlate : ∀ op ∈ late, op.IsLate)
    (hafter : (d.run before).2.close.RunWithin late)
    (hj : ((d.run before).2.close.run late).2.gateway.inFlight = []) :
    (∀ u n, d.books.store.value? .userQuota u = some n →
      ∃ m, ((d.run before).2.close.run late).2.books.store.value? .userQuota u = some m ∧
        m + ((d.run before).2.close.run late).2.books.batch.sum .userQuota u =
          n - ((d.run before).2.close.run late).2.spentByUser u) ∧
    (∀ c i, ((d.run before).2.close.run late).2.books.batch.sum c i =
      ((d.run before).2.gateway.inFlight.map (·.amount c i)).sum) ∧
    ((d.run before).2.gateway.inFlight = [] →
      ((d.run before).2.close.run late).2.books.batch = .empty ∧
      ∀ u n, d.books.store.value? .userQuota u = some n →
        ((d.run before).2.close.run late).2.books.store.value? .userQuota u =
          some (n - ((d.run before).2.close.run late).2.spentByUser u)) := by
  have hopen := balanced_run h.balanced hbefore
  have hbatched' := (d.batched_run before).trans hbatched
  have hclosed := balanced_close hopen hbatched' hflush
  have hrun := late_run (late_close hopen.sound hbatched' hresolved) hclosed hlate hafter
  have hend := balanced_run hclosed hafter
  have hinFlight : (d.run before).2.close.gateway.inFlight = (d.run before).2.gateway.inFlight := by
    rw [close_eq hbatched']
    rfl
  generalize ((d.run before).2.close.run late).2 = rest at hj hrun hend ⊢
  have haccounts : ∀ u n, d.books.store.value? .userQuota u = some n →
      ∃ m, rest.books.store.value? .userQuota u = some m ∧
        m + rest.books.batch.sum .userQuota u = n - rest.spentByUser u := fun u n hn => by
    obtain ⟨m, hm, hsum⟩ := hend.settled h hj (.inl rfl) hn
    refine ⟨m, hm, hsum.trans ?_⟩
    rw [drained_user, heldOfUser_eq_zero hrun.resolved, Int.zero_add]
  refine ⟨haccounts, fun c i => ?_, fun hidle => ?_⟩
  · have hwaiting := hrun.waiting c i
    rw [moving, moving, hj, hinFlight] at hwaiting
    simpa using hwaiting
  · have hempty := (hrun.idle (hinFlight.trans hidle)).2.trans (batch_close hopen.sound hbatched')
    refine ⟨hempty, fun u n hn => ?_⟩
    obtain ⟨m, hm, hsum⟩ := haccounts u n hn
    rw [hempty] at hsum
    have hzero : Batch.empty.sum .userQuota u = 0 := rfl
    rw [hm, ← hsum, hzero, Int.add_zero]

-- ---------------------------------------------------------------------------
-- A charge that is settled after the shutdown
-- ---------------------------------------------------------------------------

def soleBefore : List LedgerOp := [.reserve soleRequest, .consume 0 ⟨10, 5⟩]

/-- A job that is in flight at the shutdown leaves what it posts in the batch. -/
theorem closing_strands :
    soleDesk.Opening ∧ soleDesk.gateway.ledger.batched = true ∧
    let rest := ((soleDesk.run soleBefore).2.close.run [.perform 0]).2
    rest.gateway.inFlight.isEmpty = true ∧ rest.books.batch ≠ .empty ∧
      rest.books.store.value? .userQuota 1 ≠ some (Word.greatest - rest.spentByUser 1) :=
  ⟨sole_opening, rfl, by decide +kernel⟩

theorem inFlight_soleBefore : (soleDesk.run soleBefore).2.gateway.inFlight =
    [.settle soleReservation.hold ⟨10, 5⟩] := by
  obtain ⟨b, hr, -⟩ := sole_reserve
  have hreserve : (soleDesk.step (.reserve soleRequest)).2 =
      soleDesk.enter (.ok soleReservation) b := by
    show soleDesk.enter (soleDesk.gateway.ledger.reserve soleDesk.books 0 soleRequest).1
      (soleDesk.gateway.ledger.reserve soleDesk.books 0 soleRequest).2 = _
    rw [hr]
  show ((soleDesk.step (.reserve soleRequest)).2.step (.consume 0 ⟨10, 5⟩)).2.gateway.inFlight = _
  rw [hreserve]
  rfl

theorem closing_accounted_sole :
    soleDesk.Opening ∧ soleDesk.RunWithin soleBefore ∧
      (soleDesk.run soleBefore).2.close.RunWithin [.perform 0] ∧
      ∃ m, ((soleDesk.run soleBefore).2.close.run [.perform 0]).2.books.store.value? .userQuota 1 =
          some m ∧
        m + ((soleDesk.run soleBefore).2.close.run [.perform 0]).2.books.batch.sum .userQuota 1 =
          Word.greatest -
            ((soleDesk.run soleBefore).2.close.run [.perform 0]).2.spentByUser 1 := by
  have hbefore : soleDesk.RunWithin soleBefore := ⟨sole_within.1.1, trivial, trivial⟩
  have hsound := (balanced_run sole_opening.balanced hbefore).sound
  have hbatch : (soleDesk.run soleBefore).2.books.batch = .empty := by decide +kernel
  have hbatched : (soleDesk.run soleBefore).2.gateway.ledger.batched = true := batched_run ..
  have hresolved : ∀ c ∈ (soleDesk.run soleBefore).2.charges, c.current.state ≠ .reserved := by
    decide +kernel
  have hflush : (soleDesk.run soleBefore).2.Within .flush := fun c i n hn => by
    rw [hbatch]
    exact (Int.add_zero n).symm ▸ hsound.fits hn
  have hlate : ∀ op ∈ [LedgerOp.perform 0], op.IsLate := by simp [LedgerOp.IsLate]
  have hafter : (soleDesk.run soleBefore).2.close.RunWithin [.perform 0] := by
    refine ⟨fun job hj c i delta hd => ?_, trivial⟩
    have hE := soleQuote.estimate_le 10 500
    rw [close_eq hbatched] at hj
    have hjob : (soleDesk.run soleBefore).2.gateway.inFlight[0]? = some job := hj
    rw [inFlight_soleBefore] at hjob
    obtain rfl := Option.some.inj hjob
    have hfits : Word.Fits delta :=
      Job.fits_posting ⟨Int.natCast_nonneg _, hE⟩ ⟨Int.natCast_nonneg _, hE⟩ hd
    rw [batched_close hbatched]
    show Word.Fits ((soleDesk.run soleBefore).2.close.books.batch.sum c i + delta)
    rw [batch_close hsound hbatched]
    exact (Int.zero_add delta).symm ▸ hfits
  have hj : ((soleDesk.run soleBefore).2.close.run [.perform 0]).2.gateway.inFlight = [] :=
    List.isEmpty_iff.mp (by decide +kernel)
  exact ⟨sole_opening, hbefore, hafter,
    (closing_accounted sole_opening rfl hbefore hresolved hflush hlate hafter hj).1 1 _ rfl⟩

end Desk

end Tollgate
