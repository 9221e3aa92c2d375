import Mathlib.Algebra.BigOperators.Group.List.Basic
import Mathlib.Algebra.GroupWithZero.Nat
import Mathlib.Algebra.Ring.Int.Defs
import Tollgate.Proofs.Ledger.Desk

/-!
# Conservation of quota

Quota is neither made nor lost: however reservations, their ends, their jobs,
flushes and the cache's mishaps follow each other, a balance and the sum that
waits for it make up the opening balance less what is held and what was spent.
While jobs are in flight the difference is what they still have to post
(`Balanced`), which every operation keeps.
-/

namespace Tollgate

-- ---------------------------------------------------------------------------
-- Amounts
-- ---------------------------------------------------------------------------

theorem wholeQuota_le (sum : Float) : (wholeQuota sum : Int) ≤ Word.greatest := by
  have h : wholeQuota sum ≤ Word.greatest.toNat := by
    rw [wholeQuota]
    exact Nat.min_le_right _ _
  simp only [Word.greatest] at h ⊢
  omega

theorem Quote.estimate_le (q : Quote) (promptTokens buffer : Nat) :
    (q.estimate promptTokens buffer : Int) ≤ Word.greatest :=
  wholeQuota_le _

theorem Quote.cost_le (q : Quote) (usage : Usage) : (q.cost usage : Int) ≤ Word.greatest := by
  unfold cost
  extract_lets sum cost
  split
  · decide
  · exact wholeQuota_le _

def Hold.cost (h : Hold) (usage : Usage) (c : Counter) (i : Int) : Int :=
  match c with
  | .userQuota => if i = h.userId then h.quote.cost usage else 0
  | .tokenQuota => if i = h.tokenId then h.quote.cost usage else 0
  | _ => 0

namespace Job

def amount (j : Job) (c : Counter) (i : Int) : Int := (j.posting? c i).getD 0

theorem getD_difference (own : Prop) [Decidable own] (cost reserved : Int) :
    (if own ∧ cost - reserved ≠ 0 then some (-(cost - reserved)) else none).getD 0 =
      (if own then reserved else 0) - if own then cost else 0 := by
  by_cases hown : own
  · by_cases hz : cost - reserved = 0
    · simp [hown, hz]; omega
    · simp [hown, hz]
  · simp [hown]

theorem amount_settle (hc : c = .userQuota ∨ c = .tokenQuota) :
    (settle h usage).amount c i = h.taken c i - h.cost usage c i := by
  rcases hc with rfl | rfl
  · exact getD_difference (i = h.userId) _ _
  · exact getD_difference (i = h.tokenId) _ _

theorem fits_posting (hu : 0 ≤ h.userReserved ∧ h.userReserved ≤ Word.greatest)
    (ht : 0 ≤ h.tokenReserved ∧ h.tokenReserved ≤ Word.greatest)
    (hd : delta ∈ (settle h usage).posting? c i) : Word.Fits delta := by
  have hcost := h.quote.cost_le usage
  simp only [Word.Fits, Word.least, Word.greatest] at hu ht hcost ⊢
  cases c <;> simp [posting?] at hd <;> omega

theorem getD_repayment (own : Prop) [Decidable own] {reserved : Int} (hr : 0 ≤ reserved) :
    (if own ∧ 0 < reserved then some reserved else none).getD 0 = if own then reserved else 0 := by
  by_cases hown : own
  · by_cases hp : 0 < reserved
    · simp [hown, hp]
    · simp [hown, hp]; omega
  · simp [hown]

theorem amount_refund (hu : 0 ≤ h.userReserved) (ht : 0 ≤ h.tokenReserved) :
    (refund h).amount c i = h.taken c i := by
  cases c with
  | userQuota => exact getD_repayment (i = h.userId) hu
  | tokenQuota => exact getD_repayment (i = h.tokenId) ht
  | usedQuota | requestCount | channelUsedQuota => rfl

end Job

theorem Reservation.become_eq_ok {r : Reservation} (h : r.become next = .ok r') :
    r.state = .reserved ∧ r' = { r with state := next } := by
  rw [become] at h
  split at h
  · next hc =>
    cases h
    simp only [ReservationState.canBecome, Bool.and_eq_true, decide_eq_true_eq] at hc
    exact ⟨hc.1, rfl⟩
  · cases h

namespace Charge

/-- The cost of the usage, at the price locked when the reservation was made. -/
def actualCost (c : Charge) : Int := c.usage.elim 0 fun usage => c.opened.hold.quote.cost usage

structure Kept (c : Charge) : Prop where
  hold : c.current.hold = { c.opened.hold with channelId := c.current.hold.channelId }
  user : 0 ≤ c.opened.hold.userReserved
  token : 0 ≤ c.opened.hold.tokenReserved
  consumed : c.current.state = .completed → c.usage.isSome

/-- What a charge costs a counter in the end, given how it stands. -/
def drain (c : Charge) (counter : Counter) (i : Int) : Int :=
  match c.current.state with
  | .reserved => c.opened.hold.taken counter i
  | .completed => c.usage.elim 0 (c.opened.hold.cost · counter i)
  | .refunded => 0

theorem Kept.taken_eq (h : Kept c) : c.current.hold.taken = c.opened.hold.taken := by
  rw [h.hold]
  rfl

theorem Kept.cost_eq (h : Kept c) : c.current.hold.cost = c.opened.hold.cost := by
  rw [h.hold]
  rfl

theorem Kept.amount_refund (h : Kept c) :
    (Job.refund c.current.hold).amount counter i = c.opened.hold.taken counter i := by
  rw [Job.amount_refund, h.taken_eq]
  · rw [h.hold]; exact h.user
  · rw [h.hold]; exact h.token

/-- A charge that comes to its end: what it drained before is drained after, or moved back by
the job that this starts. -/
theorem Kept.resolve {usage : Option Usage} {current : Reservation} (h : Kept c)
    (hc : counter = .userQuota ∨ counter = .tokenQuota)
    (hr : usage.elim c.current.undo c.current.consume = .ok (current, job)) :
    Kept ⟨c.opened, current, usage⟩ ∧
      drain ⟨c.opened, current, usage⟩ counter i + job.amount counter i = c.drain counter i := by
  cases usage with
  | none =>
    simp only [Option.elim_none, Reservation.undo] at hr
    cases hb : c.current.become .refunded with
    | error e => rw [hb] at hr; cases hr
    | ok r =>
      rw [hb] at hr
      cases hr
      obtain ⟨hs, rfl⟩ := Reservation.become_eq_ok hb
      refine ⟨⟨h.hold, h.user, h.token, fun hc => by cases hc⟩, ?_⟩
      simp [drain, hs, h.amount_refund]
  | some usage =>
    simp only [Option.elim_some, Reservation.consume] at hr
    cases hb : c.current.become .completed with
    | error e => rw [hb] at hr; cases hr
    | ok r =>
      rw [hb] at hr
      cases hr
      obtain ⟨hs, rfl⟩ := Reservation.become_eq_ok hb
      refine ⟨⟨h.hold, h.user, h.token, fun _ => rfl⟩, ?_⟩
      simp [drain, hs, Job.amount_settle hc, h.taken_eq, h.cost_eq]

theorem Kept.abandon (h : Kept c) :
    Kept c.abandon ∧ c.abandon.drain counter i +
      (c.current.abandon.toList.map (·.amount counter i)).sum = c.drain counter i := by
  by_cases hs : c.current.state = .reserved
  · have hk : Kept { c with current := { c.current with state := .refunded } } :=
      ⟨h.hold, h.user, h.token, fun hc => by cases hc⟩
    refine ⟨by rw [Charge.abandon, if_pos hs]; exact hk, ?_⟩
    by_cases ha : c.current.hold.isActive
    · simp [Charge.abandon, Reservation.abandon, drain, hs, ha, h.amount_refund]
    · have hu : c.opened.hold.userReserved = 0 ∧ c.opened.hold.tokenReserved = 0 := by
        rw [h.hold] at ha
        have hu := h.user
        have ht := h.token
        simp [Hold.isActive] at ha
        omega
      have hz : c.opened.hold.taken counter i = 0 := by
        cases counter <;> simp [Hold.taken, hu]
      simp [Charge.abandon, Reservation.abandon, drain, hs, ha, hz]
  · refine ⟨by rw [Charge.abandon, if_neg hs]; exact h, ?_⟩
    simp [Charge.abandon, Reservation.abandon, hs]

theorem Kept.setChannel (h : Kept c) (channelId : Int) : Kept (c.setChannel channelId) where
  hold := by
    rw [Charge.setChannel, Reservation.setChannel, h.hold]
  user := h.user
  token := h.token
  consumed := h.consumed

end Charge

namespace Desk

def drained (d : Desk) (c : Counter) (i : Int) : Int := (d.charges.map (·.drain c i)).sum

def moving (d : Desk) (c : Counter) (i : Int) : Int :=
  (d.gateway.inFlight.map (·.amount c i)).sum

/-- A desk that came from `start`: every balance stands where it started, less what has been
drained and what is on its way. -/
structure Balanced (start d : Desk) : Prop where
  sound : d.books.store.Sound
  kept : ∀ c ∈ d.charges, c.Kept
  standing : ∀ c i v, c = .userQuota ∨ c = .tokenQuota → start.books.standing? c i = some v →
    d.books.standing? c i = some (v - d.drained c i - d.moving c i)

variable {start d : Desk}

theorem Balanced.same (hb : start.Balanced d) (hs : d'.books.store.Sound)
    (ht : ∀ c i v, d.books.standing? c i = some v → d'.books.standing? c i = some v)
    (hc : d'.charges = d.charges) (hj : d'.gateway.inFlight = d.gateway.inFlight) :
    start.Balanced d' where
  sound := hs
  kept := hc ▸ hb.kept
  standing := fun c i v hcounter hv => by
    rw [drained, hc, moving, hj]
    exact ht c i _ (hb.standing c i v hcounter hv)

theorem Balanced.replace (hb : start.Balanced d) (hc : d.charges[n]? = some c) (hk : c'.Kept)
    (hd : ∀ counter i, counter = .userQuota ∨ counter = .tokenQuota →
      c'.drain counter i + (jobs.map (·.amount counter i)).sum = c.drain counter i) :
    start.Balanced { gateway := d.gateway.launchAll jobs, charges := d.charges.set n c' } where
  sound := hb.sound
  kept := fun e he => (List.mem_or_eq_of_mem_set he).elim (hb.kept e) (· ▸ hk)
  standing := fun counter i v hcounter hv => by
    refine (hb.standing counter i v hcounter hv).trans (congrArg some ?_)
    obtain ⟨hn, rfl⟩ := List.getElem?_eq_some_iff.mp hc
    have hset := List.sum_set' (d.charges.map (·.drain counter i)) n (c'.drain counter i)
    rw [dif_pos (by simpa using hn), List.getElem_map] at hset
    have hsum := hd counter i hcounter
    simp only [drained, moving, Gateway.launchAll, List.map_set, List.map_append,
      List.sum_append, hset]
    omega

theorem balanced_revise (hb : start.Balanced d) (n : Nat) {f : Charge → Charge × List Job}
    (hf : ∀ c counter i, c.Kept → (f c).1.Kept ∧
      (f c).1.drain counter i + ((f c).2.map (·.amount counter i)).sum = c.drain counter i) :
    start.Balanced (d.revise n f) := by
  unfold revise
  cases hc : d.charges[n]? with
  | none => exact hb
  | some c =>
    have hk := hb.kept c (List.mem_of_getElem? hc)
    exact hb.replace hc (hf c .userQuota 0 hk).1 fun counter i _ => (hf c counter i hk).2

theorem balanced_enter {books : Books} (hb : start.Balanced d)
    (ha : Ledger.Answered d.books answer books) : start.Balanced (d.enter answer books) := by
  cases answer with
  | error e =>
    refine hb.same ha.sound (fun c i v hv => ?_) (List.append_nil _) rfl
    exact (ha.standing c i v hv).trans (congrArg some (Int.sub_zero v))
  | ok r =>
    obtain ⟨hr, hu, ht⟩ := ha.opens r rfl
    refine ⟨ha.sound, fun c hc => ?_, fun c i v hcounter hv => ?_⟩
    · rcases List.mem_append.mp hc with hc | hc
      · exact hb.kept c hc
      · obtain rfl := List.mem_singleton.mp hc
        exact ⟨rfl, hu, ht, fun hc => by rw [Charge.ofReservation, hr] at hc; cases hc⟩
    · refine (ha.standing c i _ (hb.standing c i v hcounter hv)).trans (congrArg some ?_)
      have hdrain : (Charge.ofReservation r).drain c i = r.hold.taken c i := by
        simp [Charge.drain, Charge.ofReservation, hr]
      have hsum : (d.enter (.ok r) books).drained c i = d.drained c i + r.hold.taken c i := by
        simp [drained, enter, Except.toOption, hdrain]
      rw [hsum]
      show _ - _ - r.hold.taken c i = _ - _ - d.moving c i
      omega

theorem balanced_resolve (hb : start.Balanced d) (n : Nat) (usage : Option Usage) :
    start.Balanced (d.resolve n usage).2 := by
  unfold resolve
  cases hc : d.charges[n]? with
  | none => exact hb
  | some c =>
    have hk := hb.kept c (List.mem_of_getElem? hc)
    dsimp only
    split
    · exact hb
    · next current job hr =>
      have hdrain : ∀ counter i, counter = .userQuota ∨ counter = .tokenQuota →
          Charge.drain ⟨c.opened, current, usage⟩ counter i +
            ([job].map (·.amount counter i)).sum = c.drain counter i :=
        fun counter i hcounter => by simpa using (hk.resolve hcounter hr).2
      exact hb.replace hc (hk.resolve (i := 0) (.inl rfl) hr).1 hdrain

/-- What a job posts is no longer on its way. -/
theorem moving_perform (hj : d.gateway.inFlight[n]? = some job) (c : Counter) (i : Int) :
    job.amount c i + (d.perform n).moving c i = d.moving c i := by
  rw [perform, hj]
  obtain ⟨hn, rfl⟩ := List.getElem?_eq_some_iff.mp hj
  have hn' : n < (d.gateway.inFlight.map (·.amount c i)).length := by simpa using hn
  rw [moving, moving, ← List.CommMonoid.add_sum_eraseIdx hn', List.getElem_map, List.eraseIdx_map]
  rfl

theorem balanced_perform (hb : start.Balanced d) (hw : d.Within (.perform n)) :
    start.Balanced (d.perform n) := by
  unfold perform
  cases hj : d.gateway.inFlight[n]? with
  | none => exact hb
  | some job =>
    have hp := Ledger.posted_perform (l := d.gateway.ledger) hb.sound d.gateway.now job
    refine ⟨hp.sound, hb.kept, fun c i v hcounter hv => ?_⟩
    refine (Ledger.standing?_perform hb.sound d.gateway.now job (hw job hj c i)
      (hb.standing c i v hcounter hv)).trans (congrArg some ?_)
    have hmoved := moving_perform hj c i
    rw [perform, hj] at hmoved
    simp only [drained, moving, Gateway.perform] at hmoved ⊢
    rw [Job.amount] at hmoved
    omega

theorem balanced_flush (hb : start.Balanced d) (hw : d.Within .flush) :
    start.Balanced (d.step .flush).2 := by
  refine ⟨Batch.sound_flush _ hb.sound, hb.kept, fun c i v hcounter hv => ?_⟩
  obtain ⟨n, hn, hsum⟩ := Tally.standing?_eq_some.mp (hb.standing c i v hcounter hv)
  have hn : d.books.store.cell? c i = some (.int n) := hn
  have hsum : n + d.books.batch.sum c i = v - d.drained c i - d.moving c i := hsum
  have hf := hw c i n (Store.value?_eq_some.mpr hn)
  have hcell := Batch.cell?_flush d.books.batch hb.sound c i
  refine Tally.standing?_eq_some.mpr ⟨n + d.books.batch.sum c i, hcell.trans ?_, ?_⟩
  · by_cases hz : d.books.batch.sum c i = 0
    · simp [hz, hn]
    · simp [hz, hn, Cell.add_int hf]
  · show _ + (d.books.batch.flush d.books.store).2.1.sum c i = v - d.drained c i - d.moving c i
    rw [Batch.sum_flush _ hb.sound, hsum, Int.add_zero]

theorem balanced_step (hb : start.Balanced d) (hw : d.Within op) :
    start.Balanced (d.step op).2 := by
  cases op with
  | reserve request => exact balanced_enter hb (Ledger.answered_reserve hb.sound hw)
  | consume n usage => exact balanced_resolve hb n (some usage)
  | undo n => exact balanced_resolve hb n none
  | abandon n => exact balanced_revise hb n fun c counter i hk => hk.abandon
  | setChannel n channelId =>
    exact balanced_revise hb n fun c counter i hk => ⟨hk.setChannel channelId, by simp; rfl⟩
  | perform n => exact balanced_perform hb hw
  | flush => exact balanced_flush hb hw
  | balance | invalidate | purge | wait | reloadRatios =>
    exact hb.same hb.sound (fun _ _ _ hv => hv) rfl rfl

theorem balanced_run (hb : start.Balanced d) (hw : d.RunWithin ops) :
    start.Balanced (d.run ops).2 := by
  -- The opening desk stays fixed while the current one moves on.
  induction ops generalizing d with
  | nil => exact hb
  | cons op ops ih => exact ih (balanced_step hb hw.1) hw.2

-- ---------------------------------------------------------------------------
-- The balances at rest
-- ---------------------------------------------------------------------------

def heldOfUser (d : Desk) (u : Int) : Int :=
  (d.charges.map fun c =>
    if c.current.state = .reserved ∧ u = c.opened.hold.userId then c.opened.hold.userReserved
    else 0).sum

def heldOfToken (d : Desk) (t : Int) : Int :=
  (d.charges.map fun c =>
    if c.current.state = .reserved ∧ t = c.opened.hold.tokenId then c.opened.hold.tokenReserved
    else 0).sum

def spentByUser (d : Desk) (u : Int) : Int :=
  (d.charges.map fun c =>
    if c.current.state = .completed ∧ u = c.opened.hold.userId then c.actualCost else 0).sum

def spentByToken (d : Desk) (t : Int) : Int :=
  (d.charges.map fun c =>
    if c.current.state = .completed ∧ t = c.opened.hold.tokenId then c.actualCost else 0).sum

theorem drained_split {f g : Charge → Int} (h : ∀ c, c.drain counter i = f c + g c) :
    d.drained counter i = (d.charges.map f).sum + (d.charges.map g).sum := by
  rw [drained, ← List.sum_map_add]
  exact congrArg List.sum (List.map_congr_left fun c _ => h c)

theorem drained_user (d : Desk) (u : Int) :
    d.drained .userQuota u = d.heldOfUser u + d.spentByUser u := by
  refine drained_split fun c => ?_
  cases hs : c.current.state with
  | reserved => simp [Charge.drain, hs, Hold.taken]
  | completed => cases hu : c.usage <;> simp [Charge.drain, Charge.actualCost, hs, hu, Hold.cost]
  | refunded => simp [Charge.drain, hs]

theorem drained_token (d : Desk) (t : Int) :
    d.drained .tokenQuota t = d.heldOfToken t + d.spentByToken t := by
  refine drained_split fun c => ?_
  cases hs : c.current.state with
  | reserved => simp [Charge.drain, hs, Hold.taken]
  | completed => cases hu : c.usage <;> simp [Charge.drain, Charge.actualCost, hs, hu, Hold.cost]
  | refunded => simp [Charge.drain, hs]

theorem Opening.balanced (h : d.Opening) : d.Balanced d where
  sound := h.sound
  kept := fun c hc => by rw [h.noCharges] at hc; cases hc
  standing := fun c i v _ hv => by simpa [drained, moving, h.noCharges, h.noJobs] using hv

theorem Balanced.settled (hb : start.Balanced d) (hstart : start.Opening)
    (hj : d.gateway.inFlight = []) (hc : c = .userQuota ∨ c = .tokenQuota)
    (hn : start.books.store.value? c i = some n) :
    ∃ m, d.books.store.value? c i = some m ∧ m + d.books.batch.sum c i = n - d.drained c i := by
  have hv : start.books.standing? c i = some n := Tally.standing?_eq_some.mpr
    ⟨n, Store.value?_eq_some.mp hn, by rw [Books.tally, hstart.noSums, Int.add_zero]⟩
  obtain ⟨m, hm, hsum⟩ := Tally.standing?_eq_some.mp (hb.standing c i n hc hv)
  refine ⟨m, Store.value?_eq_some.mpr hm, hsum.trans ?_⟩
  simp [moving, hj]

/-- Once nothing is in flight, each user and each token has what it had in the beginning, less
what is held for it and what it has spent at the prices its reservations were made at. -/
theorem quota_conserved (h : d.Opening) (hw : d.RunWithin ops)
    (hj : (d.run ops).2.gateway.inFlight = []) :
    (∀ u n, d.books.store.value? .userQuota u = some n →
      ∃ m, (d.run ops).2.books.store.value? .userQuota u = some m ∧
        m + (d.run ops).2.books.batch.sum .userQuota u =
          n - (d.run ops).2.heldOfUser u - (d.run ops).2.spentByUser u) ∧
    (∀ t n, d.books.store.value? .tokenQuota t = some n →
      ∃ m, (d.run ops).2.books.store.value? .tokenQuota t = some m ∧
        m + (d.run ops).2.books.batch.sum .tokenQuota t =
          n - (d.run ops).2.heldOfToken t - (d.run ops).2.spentByToken t) ∧
    ∀ c ∈ (d.run ops).2.charges, c.current.state = .completed → c.usage.isSome := by
  have hb := balanced_run h.balanced hw
  refine ⟨fun u n hn => ?_, fun t n hn => ?_, fun c hc => (hb.kept c hc).consumed⟩
  · obtain ⟨m, hm, hsum⟩ := hb.settled h hj (.inl rfl) hn
    exact ⟨m, hm, by rw [hsum, drained_user]; omega⟩
  · obtain ⟨m, hm, hsum⟩ := hb.settled h hj (.inr rfl) hn
    exact ⟨m, hm, by rw [hsum, drained_token]; omega⟩

-- ---------------------------------------------------------------------------
-- One charge from its start to its end
-- ---------------------------------------------------------------------------

def soleUser : UserRow where
  id := 1
  username := "u"
  group := "default"
  quota := .int Word.greatest
  usedQuota := .int 0
  requestCount := .int 0
  status := .ofCode 1
  email := none

def soleToken : TokenRow where
  id := 1
  userId := 1
  key := "k"
  name := "t"
  status := .ofCode 1
  remainQuota := .int Word.greatest
  unlimited := false
  usedQuota := .int 0
  expiredTime := -1

def soleDesk : Desk where
  gateway := {
    ledger := {
      prices := { fallback := some ⟨1, 2⟩ }
      rules := { trustMultiple := 0 }
      batched := true }
    books.directory.store := { users.rows := [soleUser], tokens.rows := [soleToken] } }

def soleRequest : ChargeRequest where
  requestId := "r"
  userId := 1
  tokenId := 1
  tokenUnlimited := false
  group := "default"
  model := "m"
  channelId := 1
  promptTokens := 10

def soleQuote : Quote := ⟨1, 2, 1⟩

def soleReservation : Reservation where
  hold := {
    requestId := "r", userId := 1, tokenId := 1, channelId := 1, model := "m", quote := soleQuote
    userReserved := soleQuote.estimate 10 500, tokenReserved := soleQuote.estimate 10 500 }
  group := "default"
  estimated := soleQuote.estimate 10 500
  balanceBefore := Word.greatest
  state := .reserved

def soleDeskOver (channels : Numbered ChannelRow) : Desk where
  gateway := {
    ledger := soleDesk.gateway.ledger
    books.directory.store := { soleDesk.books.store with channels } }

theorem sole_reserve_over (channels : Numbered ChannelRow) : ∃ b,
    soleDesk.gateway.ledger.reserve (soleDeskOver channels).books 0 soleRequest =
      (.ok soleReservation, b) ∧ b.batch = .empty := by
  have h := soleQuote.estimate_le 10 500
  have hq : soleDesk.gateway.ledger.quote "default" "m" = .ok soleQuote := rfl
  have hu : (soleDeskOver channels).books.userQuota 0 1 =
    (.ok (some Word.greatest), (soleDeskOver channels).books) := rfl
  have hb : soleDesk.gateway.ledger.rules.preConsumeBuffer = 500 := rfl
  have ht : soleDesk.gateway.ledger.trusts Word.greatest (soleQuote.estimate 10 500) = false := rfl
  have hc : (Cell.int Word.greatest).covers (soleQuote.estimate 10 500) = true := by
    simpa [Cell.covers] using h
  unfold Ledger.reserve
  simp only [soleRequest, hq, hu, hb, ht, if_neg (Int.not_lt.mpr h)]
  simp [Ledger.reserveToken, Ledger.reserveUser, Ledger.reserveStored, Store.drawToken?,
    Store.drawUser?, Store.guard, soleDeskOver, soleDesk, soleToken, soleUser, soleReservation,
    Desk.books, Books.store, Books.cache, Books.withStore, Numbered.update, hc]

theorem sole_reserve : ∃ b,
    soleDesk.gateway.ledger.reserve soleDesk.books 0 soleRequest = (.ok soleReservation, b) ∧
      b.batch = .empty := sole_reserve_over {}

/-- A charge is made and consumed, then taken back in vain. -/
def soleOps : List LedgerOp :=
  [.reserve soleRequest, .consume 0 ⟨10, 5⟩, .undo 0, .perform 0]

theorem sole_within :
    soleDesk.RunWithin soleOps ∧ (soleDesk.run soleOps).2.gateway.inFlight = [] := by
  obtain ⟨b, hr, hb⟩ := sole_reserve
  let settled : Desk := ⟨
    (soleDesk.withBooks b).gateway.launch (.settle soleReservation.hold ⟨10, 5⟩),
    [⟨soleReservation, { soleReservation with state := .completed }, some ⟨10, 5⟩⟩]⟩
  have h₁ : (soleDesk.step (.reserve soleRequest)).2 = soleDesk.enter (.ok soleReservation) b := by
    show soleDesk.enter (soleDesk.gateway.ledger.reserve soleDesk.books 0 soleRequest).1
      (soleDesk.gateway.ledger.reserve soleDesk.books 0 soleRequest).2 = _
    rw [hr]
  have h₂ : ((soleDesk.enter (.ok soleReservation) b).step (.consume 0 ⟨10, 5⟩)).2 = settled := rfl
  have h₃ : (settled.step (.undo 0)).2 = settled := rfl
  have hE := soleQuote.estimate_le 10 500
  refine ⟨⟨?_, trivial, trivial, ?_, trivial⟩, ?_⟩
  · intro quote balance estimated _ _ _ _
    exact ⟨nofun, nofun⟩
  · rw [h₁, h₂, h₃]
    intro job hj c i delta hd
    obtain rfl : Job.settle soleReservation.hold ⟨10, 5⟩ = job := Option.some.inj hj
    have hp : (settled.books.tally c i).pending = 0 := by
      show b.batch.sum c i = 0
      rw [hb]; rfl
    show Word.Fits ((settled.books.tally c i).pending + delta)
    rw [hp]
    rw [Int.zero_add]
    exact Job.fits_posting ⟨Int.natCast_nonneg _, hE⟩ ⟨Int.natCast_nonneg _, hE⟩ hd
  · have hrun (d : Desk) (op : LedgerOp) (ops : List LedgerOp) :
        (d.run (op :: ops)).2 = ((d.step op).2.run ops).2 := rfl
    rw [soleOps, hrun, h₁, hrun, h₂, hrun, h₃, hrun]
    rfl

theorem sole_opening : soleDesk.Opening where
  sound := {
    unlocked := rfl
    shown := rfl
    userIds := List.pairwise_singleton _ 1
    tokenIds := List.pairwise_singleton _ 1
    words := fun c i cell hc => by
      have hcell : cell = .int Word.greatest ∨ cell = .int 0 := by
        cases c <;> simp [Desk.books, soleDesk, Books.store, Store.cell?, Store.userRow?,
          Store.tokenRow?, Store.channelRow?, soleUser, soleToken] at hc <;> simp [← hc.2]
      rcases hcell with rfl | rfl <;> simp [Cell.IsWord, Word.Fits, Word.least, Word.greatest] }
  noCharges := rfl
  noJobs := rfl
  noSums := fun _ _ => rfl

theorem quota_conserved_sole :
    soleDesk.Opening ∧ soleDesk.RunWithin soleOps ∧ (soleDesk.run soleOps).2.gateway.inFlight = [] ∧
      ∃ m, (soleDesk.run soleOps).2.books.store.value? .userQuota 1 = some m ∧
        m + (soleDesk.run soleOps).2.books.batch.sum .userQuota 1 =
          Word.greatest - (soleDesk.run soleOps).2.heldOfUser 1 -
            (soleDesk.run soleOps).2.spentByUser 1 :=
  ⟨sole_opening, sole_within.1, sole_within.2,
    (quota_conserved sole_opening sole_within.1 sole_within.2).1 1 _ rfl⟩

end Desk

end Tollgate
