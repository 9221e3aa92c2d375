import Tollgate.Proofs.Ledger.Conservation
import Tollgate.Proofs.Ledger.Usage
import Tollgate.Proofs.Routing.Selection

/-!
# Usage and the log

The log has one entry for each reservation that was consumed, and the counters
of usage have grown by what the entries add up to (`usage_audited`). While a
settlement is in flight its entry is still to come (`Audited`).
-/

namespace Tollgate

namespace Numbered

theorem foldl_max (rows : List ρ) (key : ρ → Int) (a b : Int) :
    rows.foldl (fun top r => max top (key r)) (max a b) =
      max (rows.foldl (fun top r => max top (key r)) a) b := by
  induction rows generalizing a with
  | nil => rfl
  | cons r rows ih =>
    have hswap : max (max a b) (key r) = max (max a (key r)) b := by omega
    rw [List.foldl_cons, List.foldl_cons, hswap, ih]

theorem topId_add [Identified ρ] (t : Numbered ρ) {row : ρ}
    (h : Identified.id row = t.topId + 1) : (t.add (t.topId + 1) row).topId = t.topId + 1 := by
  rw [topId, add, List.foldl_append, foldl_max, List.foldl_cons, List.foldl_nil, h]
  show max (max t.topId (t.topId + 1)) (t.topId + 1) = t.topId + 1
  omega

end Numbered

theorem Batch.logs_flush (b : Batch) (s : Store) : (b.flush s).2.2.logs = s.logs := by
  rw [flush, flushUnder]
  generalize b.pending.entries.filter _ = es
  induction es generalizing s with
  | nil => rfl
  | cons e es ih =>
    rw [List.foldl_cons, ih]
    cases e.1.1 <;> rfl

structure Completion where
  charge : Nat
  hold : Hold
  usage : Usage

def LogEntry.unnumbered (e : LogEntry) : LogEntry := { e with id := 0 }

def Completion.entry (k : Completion) : LogEntry := k.hold.entry k.usage 0

def Job.entry? : Job → Option LogEntry
  | .settle h usage => some (h.entry usage 0)
  | .refund _ => none

theorem Reservation.leave_eq_ok {r r' : Reservation}
    (h : (do return (← r.become next, job)) = Except.ok (r', job')) :
    r.state = .reserved ∧ r' = { r with state := next } ∧ job' = job := by
  cases hb : r.become next with
  | error e => rw [hb] at h; cases h
  | ok r'' =>
    rw [hb] at h
    cases h
    obtain ⟨hs, rfl⟩ := become_eq_ok hb
    exact ⟨hs, rfl, rfl⟩

namespace Desk

variable {start d : Desk} {done : List Completion} {op : LedgerOp} {ops : List LedgerOp}

def completes (d : Desk) : LedgerOp → List Completion
  | .consume i usage =>
    match d.charges[i]? with
    | none => []
    | some c =>
      match c.current.consume usage with
      | .error _ => []
      | .ok _ => [⟨i, c.current.hold, usage⟩]
  | _ => []

def completions (d : Desk) : List LedgerOp → List Completion
  | [] => []
  | op :: ops => d.completes op ++ (d.step op).2.completions ops

-- ---------------------------------------------------------------------------
-- The charges
-- ---------------------------------------------------------------------------

/-- How the `i`-th charge bears out what was consumed. -/
structure Borne (done : List Completion) (i : Nat) (c : Charge) : Prop where
  hold : c.current.hold = { c.opened.hold with channelId := c.current.hold.channelId }
  completed : c.current.state = .completed ↔ ∃ k ∈ done, k.charge = i
  terms : ∀ k ∈ done, k.charge = i →
    c.usage = some k.usage ∧ k.hold = { c.opened.hold with channelId := k.hold.channelId }

theorem Borne.unconsumed (h : Borne done i c) (hs : c.current.state = .reserved) :
    ¬∃ k ∈ done, k.charge = i := by
  rw [← h.completed, hs]
  decide

theorem Borne.refund (h : Borne done i c) (hs : c.current.state = .reserved)
    (usage : Option Usage) :
    Borne done i ⟨c.opened, { c.current with state := .refunded }, usage⟩ where
  hold := h.hold
  completed := iff_of_false nofun (h.unconsumed hs)
  terms k hk hki := absurd ⟨k, hk, hki⟩ (h.unconsumed hs)

theorem Borne.abandon (h : Borne done i c) : Borne done i c.abandon := by
  rw [Charge.abandon]
  split
  · next hs => exact h.refund hs c.usage
  · exact h

theorem Borne.setChannel (h : Borne done i c) (channelId : Int) :
    Borne done i (c.setChannel channelId) where
  hold := by rw [Charge.setChannel, Reservation.setChannel, h.hold]
  completed := h.completed
  terms := h.terms

/-- Each charge was consumed once or not at all. -/
structure Recorded (d : Desk) (done : List Completion) : Prop where
  distinct : (done.map (·.charge)).Nodup
  known : ∀ k ∈ done, k.charge < d.charges.length
  borne : ∀ i c, d.charges[i]? = some c → Borne done i c

theorem Recorded.same {d' : Desk} (h : d.Recorded done) (hc : d'.charges = d.charges) :
    d'.Recorded done :=
  ⟨h.distinct, hc ▸ h.known, hc ▸ h.borne⟩

theorem Recorded.set {d' : Desk} (h : d.Recorded done) (hc : d.charges[i]? = some c)
    (hd : d'.charges = d.charges.set i c') (hnew : ∀ k ∈ new, k.charge = i)
    (hdistinct : ((done ++ new).map (·.charge)).Nodup) (hb : Borne (done ++ new) i c') :
    d'.Recorded (done ++ new) := by
  obtain ⟨hi, -⟩ := List.getElem?_eq_some_iff.mp hc
  refine ⟨hdistinct, fun k hk => ?_, fun j c'' hj => ?_⟩
  · rw [hd, List.length_set]
    rcases List.mem_append.mp hk with hk | hk
    · exact h.known k hk
    · exact hnew k hk ▸ hi
  · -- The other charges stand as they did, and nothing new is about them.
    rw [hd, List.getElem?_set] at hj
    split at hj
    · next hij =>
      subst hij
      exact Option.some.inj hj ▸ hb
    · next hij =>
      have hb' := h.borne j c'' hj
      refine ⟨hb'.hold, hb'.completed.trans ?_, fun k hk hkj => ?_⟩
      · simp only [List.mem_append, or_and_right, exists_or]
        refine (or_iff_left ?_).symm
        rintro ⟨k, hk, hkj⟩
        exact hij ((hnew k hk).symm.trans hkj)
      · rcases List.mem_append.mp hk with hk | hk
        · exact hb'.terms k hk hkj
        · exact absurd ((hnew k hk).symm.trans hkj) hij

theorem Recorded.consume {d' : Desk} (h : d.Recorded done) (hc : d.charges[i]? = some c)
    (hs : c.current.state = .reserved)
    (hd : d'.charges =
      d.charges.set i ⟨c.opened, { c.current with state := .completed }, some usage⟩) :
    d'.Recorded (done ++ [⟨i, c.current.hold, usage⟩]) := by
  have hb := h.borne i c hc
  have hnone := hb.unconsumed hs
  refine h.set hc hd (fun k hk => by rw [List.mem_singleton.mp hk]) ?_ ⟨hb.hold, ?_, ?_⟩
  · rw [List.map_append, List.nodup_append]
    refine ⟨h.distinct, List.pairwise_singleton _ _, fun n hn m hm => ?_⟩
    obtain ⟨k, hk, rfl⟩ := List.mem_map.mp hn
    rw [List.mem_singleton.mp hm]
    exact fun hki => hnone ⟨k, hk, hki⟩
  · exact iff_of_true rfl ⟨_, List.mem_append_right _ (List.mem_singleton_self _), rfl⟩
  · intro k hk hki
    rcases List.mem_append.mp hk with hk | hk
    · exact absurd ⟨k, hk, hki⟩ hnone
    · obtain rfl := List.mem_singleton.mp hk
      exact ⟨rfl, hb.hold⟩

theorem Recorded.replace {d' : Desk} (h : d.Recorded done) (hc : d.charges[i]? = some c)
    (hd : d'.charges = d.charges.set i c') (hb : Borne done i c → Borne done i c') :
    d'.Recorded done := by
  have hset := h.set hc hd (nofun : ∀ k ∈ ([] : List Completion), k.charge = i)
  rw [List.append_nil] at hset
  exact hset h.distinct (hb (h.borne i c hc))

theorem Recorded.revise (h : d.Recorded done) (i : Nat) {f : Charge → Charge × List Job}
    (hf : ∀ c, Borne done i c → Borne done i (f c).1) : (d.revise i f).Recorded done := by
  unfold Desk.revise
  cases hc : d.charges[i]? with
  | none => exact h
  | some c => exact h.replace hc rfl (hf c)

theorem Recorded.enter {books : Books} (h : d.Recorded done)
    (ha : ∀ r, answer = .ok r → r.state = .reserved) : (d.enter answer books).Recorded done := by
  cases answer with
  | error e => exact h.same (List.append_nil _)
  | ok r =>
    have hcharges : (d.enter (.ok r) books).charges = d.charges ++ [Charge.ofReservation r] := rfl
    refine ⟨h.distinct, fun k hk => ?_, fun i c hi => ?_⟩
    · rw [hcharges, List.length_append]
      exact Nat.lt_add_right _ (h.known k hk)
    · rw [hcharges, List.getElem?_append] at hi
      split at hi
      · exact h.borne i c hi
      · next hlast =>
        obtain rfl := List.mem_singleton.mp (List.mem_of_getElem? hi)
        have hnone : ¬∃ k ∈ done, k.charge = i := by
          rintro ⟨k, hk, hki⟩
          exact hlast (hki ▸ h.known k hk)
        refine ⟨rfl, iff_of_false ?_ hnone, fun k hk hki => absurd ⟨k, hk, hki⟩ hnone⟩
        rw [Charge.ofReservation, ha r rfl]
        decide

theorem step_consume (d : Desk) (i : Nat) (usage : Usage) :
    (d.step (.consume i usage)).2 = d ∧ d.completes (.consume i usage) = [] ∨
      ∃ c, d.charges[i]? = some c ∧ c.current.state = .reserved ∧
        d.completes (.consume i usage) = [⟨i, c.current.hold, usage⟩] ∧
        (d.step (.consume i usage)).2 = {
          gateway := d.gateway.launch (.settle c.current.hold usage)
          charges := d.charges.set i
            ⟨c.opened, { c.current with state := .completed }, some usage⟩ } := by
  simp only [step, resolve, completes, Option.elim_some]
  cases hc : d.charges[i]? with
  | none => exact .inl ⟨rfl, rfl⟩
  | some c =>
    cases hr : c.current.consume usage with
    | error e => exact .inl ⟨by simp only [hr], by simp only [hr]⟩
    | ok p =>
      obtain ⟨current, job⟩ := p
      obtain ⟨hs, rfl, rfl⟩ := Reservation.leave_eq_ok hr
      exact .inr ⟨c, rfl, hs, by simp only [hr], by simp only [hr]⟩

theorem step_undo (d : Desk) (i : Nat) :
    (d.step (.undo i)).2 = d ∨
      ∃ c, d.charges[i]? = some c ∧ c.current.state = .reserved ∧
        (d.step (.undo i)).2 = {
          gateway := d.gateway.launch (.refund c.current.hold)
          charges := d.charges.set i ⟨c.opened, { c.current with state := .refunded }, none⟩ } := by
  simp only [step, resolve, Option.elim_none]
  cases hc : d.charges[i]? with
  | none => exact .inl rfl
  | some c =>
    cases hr : c.current.undo with
    | error e => exact .inl (by simp only [hr])
    | ok p =>
      obtain ⟨current, job⟩ := p
      obtain ⟨hs, rfl, rfl⟩ := Reservation.leave_eq_ok hr
      exact .inr ⟨c, rfl, hs, by simp only [hr]⟩

theorem recorded_step (h : d.Recorded done) (op : LedgerOp) :
    (d.step op).2.Recorded (done ++ d.completes op) := by
  cases op with
  | consume i usage =>
    rcases step_consume d i usage with ⟨hstep, hnone⟩ | ⟨c, hc, hs, hone, hstep⟩
    · rwa [hstep, hnone, List.append_nil]
    · rw [hstep, hone]
      exact h.consume hc hs rfl
  | reserve request =>
    simp only [completes, List.append_nil]
    exact h.enter fun r hr => Ledger.state_reserve hr
  | undo i =>
    simp only [completes, List.append_nil]
    rcases step_undo d i with hstep | ⟨c, hc, hs, hstep⟩
    · rwa [hstep]
    · rw [hstep]
      exact h.replace hc rfl fun hb => hb.refund hs none
  | abandon i =>
    simp only [completes, List.append_nil]
    exact h.revise i fun c hb => hb.abandon
  | setChannel i channelId =>
    simp only [completes, List.append_nil]
    exact h.revise i fun c hb => hb.setChannel channelId
  | perform i =>
    simp only [completes, List.append_nil]
    refine h.same ?_
    rw [step, perform]
    split <;> rfl
  | flush | balance | invalidate | purge | wait | reloadRatios =>
    simp only [completes, List.append_nil]
    exact h.same rfl

theorem recorded_run (h : d.Recorded done) (ops : List LedgerOp) :
    (d.run ops).2.Recorded (done ++ d.completions ops) := by
  induction ops generalizing d done with
  | nil =>
    rw [completions, List.append_nil]
    exact h
  | cons op ops ih =>
    rw [completions, ← List.append_assoc]
    exact ih (recorded_step h op)

-- ---------------------------------------------------------------------------
-- The log and the counters
-- ---------------------------------------------------------------------------

/-- A desk that came from `start`: what was consumed is in the log or on its way there, and usage
has grown by what is in the log. -/
structure Audited (start d : Desk) (done : List Completion) : Prop where
  sound : d.books.store.Sound
  batched : d.gateway.ledger.batched = start.gateway.ledger.batched
  logged : (d.books.store.logs.rows.map LogEntry.unnumbered ++
    d.gateway.inFlight.filterMap Job.entry?).Perm (done.map Completion.entry)
  numbered : d.books.store.logs.topId =
    start.books.store.logs.topId + d.books.store.logs.rows.length
  counted : ∀ c i n, c.countsUse = true → start.books.store.value? c i = some n →
    (d.books.tally c i).Grown start.gateway.ledger.batched n
      (d.books.store.logs.rows.map (·.counts c i)).sum

theorem Audited.unused {d' : Desk} {new : List Completion} (h : start.Audited d done)
    (hu : Ledger.Unused d.books d'.books)
    (hb : d'.gateway.ledger.batched = d.gateway.ledger.batched)
    (hj : (d'.gateway.inFlight.filterMap Job.entry?).Perm
      (d.gateway.inFlight.filterMap Job.entry? ++ new.map Completion.entry)) :
    start.Audited d' (done ++ new) where
  sound := hu.sound
  batched := hb.trans h.batched
  logged := by
    rw [hu.logs, List.map_append]
    refine (hj.append_left _).trans ?_
    rw [← List.append_assoc]
    exact h.logged.append_right _
  numbered := by rw [hu.logs, h.numbered]
  counted c i n hc hn := by
    rw [hu.tally c i hc, hu.logs]
    exact h.counted c i n hc hn

theorem Audited.idle {d' : Desk} (h : start.Audited d done)
    (hu : Ledger.Unused d.books d'.books)
    (hb : d'.gateway.ledger.batched = d.gateway.ledger.batched)
    (hj : (d'.gateway.inFlight.filterMap Job.entry?).Perm
      (d.gateway.inFlight.filterMap Job.entry?)) : start.Audited d' done := by
  have hsame : start.Audited d' (done ++ []) := h.unused hu hb (by simpa using hj)
  rwa [List.append_nil] at hsame

theorem Audited.same {d' : Desk} (h : start.Audited d done) (hst : d'.books.store = d.books.store)
    (hba : d'.books.batch = d.books.batch)
    (hb : d'.gateway.ledger.batched = d.gateway.ledger.batched)
    (hj : d'.gateway.inFlight.filterMap Job.entry? = d.gateway.inFlight.filterMap Job.entry?) :
    start.Audited d' done :=
  h.idle ((Ledger.Unused.refl h.sound).same hst hba) hb (.of_eq hj)

theorem Audited.revise (h : start.Audited d done) (i : Nat) {f : Charge → Charge × List Job}
    (hf : ∀ c, (f c).2.filterMap Job.entry? = []) : start.Audited (d.revise i f) done := by
  unfold Desk.revise
  cases d.charges[i]? with
  | none => exact h
  | some c =>
    refine h.same rfl rfl rfl ?_
    show (d.gateway.inFlight ++ (f c).2).filterMap Job.entry? = _
    rw [List.filterMap_append, hf, List.append_nil]

theorem Audited.room {hold : Hold} {i : Nat} (h : start.Audited d done)
    (hroom : start.books.store.logs.topId + done.length ≤ Word.greatest)
    (hj : d.gateway.inFlight[i]? = some (Job.settle hold usage)) :
    d.books.store.logs.topId < Word.greatest := by
  have hlength := h.logged.length_eq
  have hmem : hold.entry usage 0 ∈ d.gateway.inFlight.filterMap Job.entry? :=
    List.mem_filterMap.mpr ⟨_, List.mem_of_getElem? hj, rfl⟩
  have hpos := List.length_pos_of_mem hmem
  simp only [List.length_append, List.length_map] at hlength
  rw [h.numbered]
  omega

theorem Audited.settle {rest : List Job} (hstart : start.books.store.Sound)
    (h : start.Audited d done) (hroom : d.books.store.logs.topId < Word.greatest)
    (hj : (Job.settle hold usage :: rest).Perm d.gateway.inFlight) :
    start.Audited { d with
      gateway := { d.gateway with inFlight := rest }.perform (.settle hold usage) } done := by
  let e := hold.entry usage (d.books.store.logs.topId + 1)
  let b := d.gateway.ledger.settle d.books d.gateway.now hold usage
  have hlogs : b.store.logs = d.books.store.logs.add (d.books.store.logs.topId + 1) e :=
    Ledger.logs_settle h.sound hroom
  have hposted : Ledger.Posted d.gateway.ledger d.books b (Job.settle hold usage).posting? :=
    Ledger.posted_settle h.sound d.gateway.now hold usage
  refine ⟨hposted.sound, h.batched, ?_, ?_, fun c i n hc hn => ?_⟩
  · show (b.store.logs.rows.map LogEntry.unnumbered ++ rest.filterMap Job.entry?).Perm _
    -- The entry has moved from the jobs to the log.
    have hentries : (e.unnumbered :: rest.filterMap Job.entry?).Perm
        (d.gateway.inFlight.filterMap Job.entry?) := hj.filterMap Job.entry?
    rw [hlogs, Numbered.add, List.map_append, List.append_assoc]
    exact (hentries.append_left _).trans h.logged
  · show b.store.logs.topId = start.books.store.logs.topId + (b.store.logs.rows.length : Int)
    rw [hlogs, Numbered.topId_add _ rfl, h.numbered]
    simp only [Numbered.add, List.length_append, List.length_singleton]
    omega
  · show (b.tally c i).Grown _ n (b.store.logs.rows.map (·.counts c i)).sum
    obtain ⟨hadded, hpos⟩ : ((Job.settle hold usage).posting? c i).getD 0 = e.counts c i ∧
        ∀ delta ∈ (Job.settle hold usage).posting? c i, 0 ≤ delta := Job.posting?_settle hc _
    rw [hlogs, hposted.tally, h.batched, Numbered.add, List.map_append, List.sum_append,
      List.map_singleton, List.sum_singleton, ← hadded]
    exact (h.counted c i n hc hn).posting (hstart.fits hn) hpos

theorem audited_perform (hstart : start.books.store.Sound) (h : start.Audited d done)
    (hroom : start.books.store.logs.topId + done.length ≤ Word.greatest) (i : Nat) :
    start.Audited (d.perform i) done := by
  unfold perform
  cases hj : d.gateway.inFlight[i]? with
  | none => exact h
  | some job =>
    -- The job is one of those in flight, and the rest stay there.
    have herase : (job :: d.gateway.inFlight.eraseIdx i).Perm d.gateway.inFlight := by
      obtain ⟨hi, rfl⟩ := List.getElem?_eq_some_iff.mp hj
      exact List.getElem_cons_eraseIdx_perm hi
    cases job with
    | settle hold usage => exact h.settle hstart (h.room hroom hj) herase
    | refund hold =>
      exact h.idle (Ledger.unused_refund h.sound d.gateway.now hold) rfl
        (herase.filterMap Job.entry?)

theorem audited_flush (hstart : start.books.store.Sound) (h : start.Audited d done) :
    start.Audited (d.step .flush).2 done where
  sound := Batch.sound_flush _ h.sound
  batched := h.batched
  logged := by
    show ((d.books.batch.flush d.books.store).2.2.logs.rows.map _ ++ _).Perm _
    rw [Batch.logs_flush]
    exact h.logged
  numbered := by
    show (d.books.batch.flush d.books.store).2.2.logs.topId =
      _ + ((d.books.batch.flush d.books.store).2.2.logs.rows.length : Int)
    rw [Batch.logs_flush]
    exact h.numbered
  counted c i n hc hn := by
    show Tally.Grown _ _ n ((d.books.batch.flush d.books.store).2.2.logs.rows.map _).sum
    rw [Batch.logs_flush]
    exact Books.grown_flush h.sound (h.counted c i n hc hn) (hstart.fits hn)

theorem audited_step (hstart : start.books.store.Sound) (h : start.Audited d done)
    (hroom : start.books.store.logs.topId + done.length ≤ Word.greatest) (op : LedgerOp) :
    start.Audited (d.step op).2 (done ++ d.completes op) := by
  cases op with
  | consume i usage =>
    rcases step_consume d i usage with ⟨hstep, hnone⟩ | ⟨c, -, -, hone, hstep⟩
    · rwa [hstep, hnone, List.append_nil]
    · rw [hstep, hone]
      refine h.unused ((Ledger.Unused.refl h.sound).same rfl rfl) rfl (.of_eq ?_)
      exact List.filterMap_append ..
  | reserve request =>
    have hu := Ledger.unused_reserve (l := d.gateway.ledger) h.sound d.gateway.now request
    exact h.unused hu rfl (.of_eq (List.append_nil _).symm)
  | undo i =>
    simp only [completes, List.append_nil]
    rcases step_undo d i with hstep | ⟨c, -, -, hstep⟩
    · rwa [hstep]
    · rw [hstep]
      exact h.same rfl rfl rfl (by simp [Gateway.launch, Job.entry?])
  | abandon i =>
    simp only [completes, List.append_nil]
    refine h.revise i fun c => ?_
    rw [Reservation.abandon]
    split <;> rfl
  | setChannel i channelId =>
    simp only [completes, List.append_nil]
    exact h.revise i fun c => rfl
  | perform i =>
    simp only [completes, List.append_nil]
    exact audited_perform hstart h hroom i
  | flush =>
    simp only [completes, List.append_nil]
    exact audited_flush hstart h
  | balance | invalidate | purge | wait | reloadRatios =>
    simp only [completes, List.append_nil]
    exact h.same rfl rfl rfl rfl

theorem audited_run (hstart : start.books.store.Sound) (h : start.Audited d done)
    (hroom : start.books.store.logs.topId + (done ++ d.completions ops).length ≤ Word.greatest) :
    start.Audited (d.run ops).2 (done ++ d.completions ops) := by
  -- What is done grows by as much as what is to come shrinks, and the room is for both.
  induction ops generalizing d done with
  | nil =>
    rw [completions, List.append_nil]
    exact h
  | cons op ops ih =>
    rw [completions, ← List.append_assoc] at hroom ⊢
    refine ih (audited_step hstart h ?_ op) hroom
    simp only [List.length_append] at hroom
    omega

theorem Opening.recorded (h : d.Opening) : d.Recorded [] where
  distinct := List.nodup_nil
  known := nofun
  borne i c hi := by rw [h.noCharges] at hi; cases hi

theorem Opening.audited (h : d.Opening) (hempty : d.books.store.logs.rows = []) :
    d.Audited d [] where
  sound := h.sound
  batched := rfl
  logged := by rw [hempty, h.noJobs]; rfl
  numbered := by simp [hempty]
  counted c i n _ hn _ := by
    refine ⟨n, Store.value?_eq_some.mp hn, Int.le_refl n, Int.le_of_eq (h.noSums c i).symm, ?_⟩
    rw [hempty, Books.tally, h.noSums]
    rfl

-- ---------------------------------------------------------------------------
-- The books at rest
-- ---------------------------------------------------------------------------

/-- A stored counter has grown by `total` with what waits for it, provided that it can. -/
def GrownBy (start d : Desk) (c : Counter) (i total : Int) : Prop :=
  ∀ n, start.books.store.value? c i = some n →
    Tally.HasRoom start.gateway.ledger.batched n total →
      ∃ m, d.books.store.value? c i = some m ∧ m + d.books.batch.sum c i - n = total

theorem Audited.grownBy (h : start.Audited d done) (hc : c.countsUse = true)
    (htotal : total = (d.books.store.logs.rows.map (·.counts c i)).sum) :
    start.GrownBy d c i total := by
  intro n hn hroom
  obtain ⟨m, hm, -, -, hsum⟩ := h.counted c i n hc hn (htotal ▸ hroom)
  refine ⟨m, Store.value?_eq_some.mpr hm, ?_⟩
  have hsum : m + d.books.batch.sum c i = n + total := htotal ▸ hsum
  omega

/-- Once nothing is in flight, the log has one entry for each charge that was consumed: its
request, the cost of its usage and the channel that it had then. No other charge has left any.
What users and channels have used, posted or waiting, is what their entries add up to. -/
theorem usage_audited (h : d.Opening) (hempty : d.books.store.logs.rows = [])
    (hroom : d.books.store.logs.topId + (d.completions ops).length ≤ Word.greatest)
    (hj : (d.run ops).2.gateway.inFlight = []) :
    let rows := (d.run ops).2.books.store.logs.rows
    (∀ u, d.GrownBy (d.run ops).2 .usedQuota u
      ((rows.filter (·.userId = u)).map (·.quota)).sum) ∧
    (∀ u, d.GrownBy (d.run ops).2 .requestCount u (rows.filter (·.userId = u)).length) ∧
    (∀ k, d.GrownBy (d.run ops).2 .channelUsedQuota k
      ((rows.filter (·.channelId = k)).map (·.quota)).sum) ∧
    (rows.map LogEntry.unnumbered).Perm ((d.completions ops).map Completion.entry) ∧
    ((d.completions ops).map (·.charge)).Nodup ∧
    (∀ i c, (d.run ops).2.charges[i]? = some c →
      (c.current.state = .completed ↔ ∃ k ∈ d.completions ops, k.charge = i)) ∧
    ∀ k ∈ d.completions ops, ∃ c, (d.run ops).2.charges[k.charge]? = some c ∧
      c.usage = some k.usage ∧ k.hold = { c.opened.hold with channelId := k.hold.channelId } := by
  intro rows
  have hrecorded : (d.run ops).2.Recorded (d.completions ops) := recorded_run h.recorded ops
  have haudited : d.Audited (d.run ops).2 (d.completions ops) :=
    audited_run h.sound (h.audited hempty) hroom
  refine ⟨fun u => haudited.grownBy rfl ?_, fun u => haudited.grownBy rfl ?_,
    fun k => haudited.grownBy rfl ?_, ?_, hrecorded.distinct,
    fun i c hi => (hrecorded.borne i c hi).completed, fun k hk => ?_⟩
  · simp [LogEntry.counts, List.sum_map_ite, rows]
  · simp [LogEntry.counts, List.sum_map_ite, rows]
  · simp [LogEntry.counts, List.sum_map_ite, rows]
  · have hlogged := haudited.logged
    rwa [hj, List.filterMap_nil, List.append_nil] at hlogged
  · have hget := List.getElem?_eq_getElem (hrecorded.known k hk)
    exact ⟨_, hget, (hrecorded.borne _ _ hget).terms k hk rfl⟩

def relayDesk : Desk :=
  soleDeskOver { rows := [2, 3].map fun id => .ofChannel (Chooser.spareChannel id) id }

/-- A charge moves to another channel, is consumed there and moves on, and taking it back then is
refused. -/
def relayOps : List LedgerOp :=
  [.reserve soleRequest, .setChannel 0 2, .consume 0 ⟨10, 5⟩, .setChannel 0 3, .undo 0, .perform 0]

theorem relay_run :
    relayDesk.completions relayOps =
        [⟨0, { soleReservation.hold with channelId := 2 }, ⟨10, 5⟩⟩] ∧
      (relayDesk.run relayOps).2.gateway.inFlight = [] := by
  obtain ⟨b, hr⟩ : ∃ b, soleDesk.gateway.ledger.reserve relayDesk.books 0 soleRequest =
      (.ok soleReservation, b) := (sole_reserve_over _).imp fun _ hr => hr.1
  have h₁ : (relayDesk.step (.reserve soleRequest)).2 =
      relayDesk.enter (.ok soleReservation) b := by
    show relayDesk.enter (soleDesk.gateway.ledger.reserve relayDesk.books 0 soleRequest).1
      (soleDesk.gateway.ledger.reserve relayDesk.books 0 soleRequest).2 = _
    rw [hr]
  have hrun (d : Desk) (op : LedgerOp) (ops : List LedgerOp) :
      (d.run (op :: ops)).2 = ((d.step op).2.run ops).2 := rfl
  rw [relayOps, hrun, completions, h₁]
  exact ⟨rfl, rfl⟩

theorem relay_opening : relayDesk.Opening where
  sound := {
    unlocked := rfl
    shown := rfl
    userIds := List.pairwise_singleton _ 1
    tokenIds := List.pairwise_singleton _ 1
    words := fun c i cell hc => by
      cases c with
      | userQuota => exact sole_opening.sound.words .userQuota i cell hc
      | usedQuota => exact sole_opening.sound.words .usedQuota i cell hc
      | requestCount => exact sole_opening.sound.words .requestCount i cell hc
      | tokenQuota => exact sole_opening.sound.words .tokenQuota i cell hc
      | channelUsedQuota =>
        obtain ⟨row, hrow, rfl⟩ := Option.map_eq_some_iff.mp hc
        obtain ⟨id, -, rfl⟩ := List.mem_map.mp (List.mem_of_find?_eq_some hrow)
        exact (by decide : Word.Fits 0) }
  noCharges := rfl
  noJobs := rfl
  noSums := fun _ _ => rfl

theorem usage_audited_relayed :
    let rows := (relayDesk.run relayOps).2.books.store.logs.rows
    (relayDesk.Opening ∧ (relayDesk.run relayOps).2.gateway.inFlight = []) ∧
      rows.map LogEntry.unnumbered =
        [{ soleReservation.hold with channelId := 2 }.entry ⟨10, 5⟩ 0] ∧
      ∃ m, (relayDesk.run relayOps).2.books.store.value? .channelUsedQuota 2 = some m ∧
        m + (relayDesk.run relayOps).2.books.batch.sum .channelUsedQuota 2 =
          soleQuote.cost ⟨10, 5⟩ := by
  intro rows
  obtain ⟨hcompletions, hj⟩ := relay_run
  have hroom : relayDesk.books.store.logs.topId + (relayDesk.completions relayOps).length ≤
      Word.greatest := by
    rw [hcompletions]
    decide
  obtain ⟨-, -, hchannels, hrows, -⟩ := usage_audited relay_opening rfl hroom hj
  rw [hcompletions] at hrows
  have hrows := List.perm_singleton.mp hrows
  refine ⟨⟨relay_opening, hj⟩, hrows, ?_⟩
  -- The one entry names the channel that the charge was consumed on.
  obtain ⟨e, he, hentry⟩ := List.map_eq_singleton_iff.mp hrows
  have htotal : ((rows.filter (·.channelId = 2)).map (·.quota)).sum =
      (soleQuote.cost ⟨10, 5⟩ : Int) := by
    have hchannel : e.channelId = 2 := congrArg LogEntry.channelId hentry
    have hquota : e.quota = (soleQuote.cost ⟨10, 5⟩ : Int) := congrArg LogEntry.quota hentry
    have he : rows = [e] := he
    simp [he, hchannel, hquota]
  have hgrown : relayDesk.GrownBy _ .channelUsedQuota 2 (soleQuote.cost ⟨10, 5⟩ : Int) :=
    htotal ▸ hchannels 2
  have hcost := soleQuote.cost_le ⟨10, 5⟩
  obtain ⟨m, hm, hsum⟩ := hgrown 0 rfl ⟨by omega, fun _ => hcost⟩
  exact ⟨m, hm, by omega⟩

end Desk

end Tollgate
