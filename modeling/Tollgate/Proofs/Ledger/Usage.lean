import Tollgate.Proofs.Ledger.Charging
import Tollgate.Proofs.Ledger.Paying
import Tollgate.Proofs.Ledger.Reserving

/-!
# Counting usage

Three counters add up what settled requests have used. Nothing but a
settlement moves them (`unused_reserve`, `unused_refund`), and one that starts
at `n` stands at `n` and what has been posted since (`Tally.Grown`), whether
the postings wait or have been flushed.
-/

namespace Tollgate

def Counter.countsUse : Counter → Bool
  | .usedQuota | .requestCount | .channelUsedQuota => true
  | .userQuota | .tokenQuota => false

def LogEntry.counts (e : LogEntry) (c : Counter) (i : Int) : Int :=
  match c with
  | .usedQuota => if e.userId = i then e.quota else 0
  | .requestCount => if e.userId = i then 1 else 0
  | .channelUsedQuota => if e.channelId = i then e.quota else 0
  | .userQuota | .tokenQuota => 0

theorem Job.posting?_settle (hc : c.countsUse = true) (id : Int) :
    ((settle h usage).posting? c i).getD 0 = (h.entry usage id).counts c i ∧
      ∀ delta ∈ (settle h usage).posting? c i, 0 ≤ delta := by
  cases c with
  | userQuota | tokenQuota => cases hc
  | usedQuota | requestCount =>
    by_cases hi : i = h.userId
    · simp [posting?, LogEntry.counts, Hold.entry, hi]
    · simp [posting?, LogEntry.counts, Hold.entry, hi, Ne.symm hi]
  | channelUsedQuota =>
    by_cases hi : i = h.channelId
    · simp [posting?, LogEntry.counts, Hold.entry, hi]
    · simp [posting?, LogEntry.counts, Hold.entry, hi, Ne.symm hi]

-- ---------------------------------------------------------------------------
-- Growth
-- ---------------------------------------------------------------------------

namespace Tally

/-- A counter at `n` can take `total` in: the sum is a word, and so is what may wait at a time.
Past that a stored counter is no integer any more, and one in memory wraps. -/
def HasRoom (batched : Bool) (n total : Int) : Prop :=
  n + total ≤ Word.greatest ∧ (batched = true → total ≤ Word.greatest)

/-- A counter that was at `n` has taken `total` in, if it could. -/
def Grown (t : Tally) (batched : Bool) (n total : Int) : Prop :=
  HasRoom batched n total →
    ∃ m, t.cell = some (.int m) ∧ n ≤ m ∧ 0 ≤ t.pending ∧ m + t.pending = n + total

variable {t : Tally} {batched : Bool} {n total delta : Int}

theorem Grown.post (h : t.Grown batched n total) (hn : Word.Fits n) (hd : 0 ≤ delta) :
    (t.post batched delta).Grown batched n (total + delta) := by
  intro ⟨hsum, hwait⟩
  obtain ⟨m, hm, hnm, hpending, heq⟩ :=
    h ⟨by omega, fun hb => Int.le_trans (Int.le_add_of_nonneg_right hd) (hwait hb)⟩
  cases batched with
  | true =>
    -- The cell has not fallen below `n`, so no more waits than there is in total.
    have hfits : Word.Fits (t.pending + delta) :=
      ⟨by simp only [Word.least]; omega, by have := hwait rfl; omega⟩
    refine ⟨m, hm, hnm, ?_, ?_⟩
    · by_cases hz : delta = 0
      · simpa [Tally.post, hz] using hpending
      · simp only [Tally.post, if_true, if_neg hz, Word.wrap_eq_self hfits]
        omega
    · by_cases hz : delta = 0
      · simpa [Tally.post, hz] using heq
      · simp only [Tally.post, if_true, if_neg hz, Word.wrap_eq_self hfits]
        omega
  | false =>
    have hfits : Word.Fits (m + delta) := ⟨Int.le_trans hn.1 (by omega), by omega⟩
    refine ⟨m + delta, ?_, by omega, hpending, ?_⟩
    · simp [Tally.post, hm, Cell.add_int hfits]
    · simp only [Tally.post, Bool.false_eq_true, if_false]
      omega

theorem Grown.posting {delta? : Option Int} (h : t.Grown batched n total) (hn : Word.Fits n)
    (hd : ∀ delta ∈ delta?, 0 ≤ delta) :
    (delta?.elim t (t.post batched)).Grown batched n (total + delta?.getD 0) := by
  cases delta? with
  | none => simpa using h
  | some delta => exact h.post hn (hd delta rfl)

end Tally

/-- What waits is carried over, and the growth with it. -/
theorem Books.grown_flush {b : Books} (hs : b.store.Sound)
    (h : (b.tally c i).Grown batched n total) (hn : Word.Fits n) :
    Tally.Grown ⟨(b.batch.flush b.store).2.2.cell? c i, (b.batch.flush b.store).2.1.sum c i⟩
      batched n total := by
  intro hroom
  obtain ⟨m, hm, hnm, hpending, heq⟩ := h hroom
  have hm : b.store.cell? c i = some (.int m) := hm
  have hpending : 0 ≤ b.batch.sum c i := hpending
  have heq : m + b.batch.sum c i = n + total := heq
  have hsum := hroom.1
  have hfits : Word.Fits (m + b.batch.sum c i) := ⟨Int.le_trans hn.1 (by omega), by omega⟩
  have hcell : (b.batch.flush b.store).2.2.cell? c i = some (.int (m + b.batch.sum c i)) := by
    rw [Batch.cell?_flush _ hs, hm]
    by_cases hz : b.batch.sum c i = 0
    · simp [hz]
    · simp [hz, Cell.add_int hfits]
  refine ⟨m + b.batch.sum c i, hcell, by omega, ?_, ?_⟩
  · exact Int.le_of_eq (Batch.sum_flush _ hs c i).symm
  · show m + b.batch.sum c i + (b.batch.flush b.store).2.1.sum c i = n + total
    rw [Batch.sum_flush _ hs, Int.add_zero, heq]

-- ---------------------------------------------------------------------------
-- What uses nothing
-- ---------------------------------------------------------------------------

namespace Ledger

variable {l : Ledger} {b b' b'' : Books} {r : ChargeRequest} {now : Time} {u amount : Int}

/-- `b'` has come from `b` with no usage counted and none logged. -/
structure Unused (b b' : Books) : Prop extends Unlogged b b' where
  tally : ∀ c i, c.countsUse = true → b'.tally c i = b.tally c i

theorem Unused.refl (hs : b.store.Sound) : Unused b b := ⟨⟨hs, rfl⟩, fun _ _ _ => rfl⟩

theorem Unused.same (h : Unused b b') (hst : b''.store = b'.store) (hba : b''.batch = b'.batch) :
    Unused b b'' :=
  ⟨h.toUnlogged.same hst, fun c i hc => by rw [← h.tally c i hc, Books.tally, hst, hba]; rfl⟩

theorem Unused.tryPost (h : Unused b b') (hc : c.countsUse = false) (i delta : Int) :
    Unused b (l.tryPost b' c i delta) := by
  refine ⟨h.toUnlogged.tryPost c i delta, fun c' i' hc' => ?_⟩
  rw [tally_tryPost h.sound, if_neg, h.tally c' i' hc']
  rintro ⟨rfl, -⟩
  exact absurd (hc'.symm.trans hc) (by decide)

theorem Unused.drawn (h : Unused b b') (hd : Store.Drawn b'.store c i amount granted s)
    (hc : c.countsUse = false) (hs : s.Sound) (hl : s.logs = b'.store.logs) :
    Unused b (b'.withStore s) := by
  refine ⟨⟨hs, hl.trans h.logs⟩, fun c' i' hc' => ?_⟩
  rw [← h.tally c' i' hc']
  show Tally.mk (s.cell? c' i') _ = _
  rw [hd.cell?, if_neg]
  · rfl
  · rintro ⟨rfl, -⟩
    exact absurd (hc'.symm.trans hc) (by decide)

theorem unused_reserveToken (h : Unused b b') (hr : reserveToken b' r amount = .ok b'') :
    Unused b b'' := by
  rw [reserveToken] at hr
  split at hr
  · rw [h.sound.post?_eq] at hr
    cases hr
    have hposted := h.tryPost (l := { batched := false }) (c := .tokenQuota) rfl r.tokenId (-amount)
    rwa [tryPost, post_eq h.sound] at hposted
  · obtain ⟨granted, s, hdraw, hdrawn, hs⟩ := Store.drawToken?_spec h.sound r.tokenId amount
    have hlogs : s.logs = b'.store.logs := by
      rw [Store.drawToken?, h.sound.guard] at hdraw
      cases hdraw
      rfl
    rw [hdraw] at hr
    cases granted with
    | false => cases hr
    | true =>
      cases hr
      exact h.drawn hdrawn rfl hs hlogs

theorem unused_restoreToken (h : Unused b b') (t amount : Int) :
    Unused b (restoreToken b' t amount) := by
  rw [restoreToken_eq]
  split
  · exact h.tryPost rfl t amount
  · exact h

theorem unused_reserveStored (h : Unused b b') (hr : reserveStored b' u amount = .ok b'') :
    Unused b b'' := by
  obtain ⟨granted, s, hdraw, hdrawn, hs⟩ := Store.drawUser?_spec h.sound u amount
  have hlogs : s.logs = b'.store.logs := by
    rw [Store.drawUser?, h.sound.guard] at hdraw
    cases hdraw
    rfl
  rw [reserveStored, hdraw] at hr
  cases granted with
  | false =>
    dsimp only at hr
    split at hr <;> cases hr
  | true =>
    cases hr
    exact h.drawn hdrawn rfl hs hlogs

theorem unused_reserveUser (h : Unused b b') (now : Time) (u amount : Int) :
    Unused b (l.reserveUser b' now u amount).2 := by
  unfold reserveUser
  extract_lets stored key
  have hstored (cache : Option Cache) : Unused b (stored (b'.withCache cache)).2 := by
    have hcache : Unused b (b'.withCache cache) := h.same rfl rfl
    simp only [stored]
    cases hr : reserveStored (b'.withCache cache) u amount with
    | error e => exact hcache
    | ok b'' => exact unused_reserveStored hcache hr
  split
  · exact hstored b'.cache
  · split
    · exact hstored b'.cache
    · exact hstored _
    · exact h.same rfl rfl
    · next c _ =>
      have hcache : Unused b (b'.withCache (some c)) := h.same rfl rfl
      rw [post_eq hcache.sound]
      have hposted := hcache.tryPost (l := l) (c := .userQuota) rfl u (-amount)
      rwa [tryPost, post_eq hcache.sound] at hposted

theorem unused_pay (h : Unused b b') (now : Time) (r : ChargeRequest) (trusted : Bool)
    (amount : Int) : Unused b (l.pay b' now r trusted amount).2 := by
  unfold pay
  split
  · exact h
  · next b₁ hb₁ =>
    have htoken : Unused b b₁ := by
      cases trusted with
      | true =>
        cases hb₁
        exact h
      | false => exact unused_reserveToken h hb₁
    have huser := unused_reserveUser (l := l) htoken now r.userId amount
    generalize l.reserveUser b₁ now r.userId amount = p at huser ⊢
    obtain ⟨_ | _, b₂⟩ := p
    · exact unused_restoreToken huser _ _
    · exact huser

theorem unused_reserve (hs : b.store.Sound) (now : Time) (r : ChargeRequest) :
    Unused b (l.reserve b now r).2 := by
  rw [reserve_eq]
  cases l.quote r.group r.model with
  | error e => exact .refl hs
  | ok quote =>
    dsimp only
    have hlook : Unused b (b.userQuota now r.userId).2 := (Unused.refl hs).same rfl rfl
    generalize b.userQuota now r.userId = p at hlook ⊢
    obtain ⟨found, b₁⟩ := p
    rcases found with f | _ | balance
    · exact hlook
    · exact hlook
    · dsimp only
      split
      · exact hlook
      · exact unused_pay hlook now r _ _

theorem state_reserve {reservation : Reservation}
    (h : (l.reserve b now r).1 = .ok reservation) : reservation.state = .reserved := by
  rw [reserve_eq] at h
  cases hq : l.quote r.group r.model with
  | error e => rw [hq] at h; cases h
  | ok quote =>
    rw [hq] at h
    dsimp only at h
    generalize b.userQuota now r.userId = p at h
    obtain ⟨_ | _ | balance, b₁⟩ := p
    · cases h
    · cases h
    · dsimp only at h
      split at h
      · cases h
      · generalize (l.pay b₁ now r _ _).1 = paid at h
        cases paid with
        | error e => cases h
        | ok _ => cases h; rfl

theorem unused_refund (hs : b.store.Sound) (now : Time) (h : Hold) :
    Unused b (l.refund b now h) := by
  have hposted := posted_refund (l := l) hs now h
  refine ⟨⟨hposted.sound, logs_refund hs⟩, fun c i hc => ?_⟩
  have hnone : (Job.refund h).posting? c i = none := by
    cases c with
    | userQuota | tokenQuota => cases hc
    | usedQuota | requestCount | channelUsedQuota => rfl
  rw [hposted.tally, hnone]
  rfl

end Ledger

end Tollgate
