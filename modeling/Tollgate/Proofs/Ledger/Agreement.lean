import Tollgate.Proofs.Ledger.Mirror

/-!
# A cached ledger agrees with an uncached one

Two books that differ by a cache that mirrors (`Agree`) are led alike by every
operation of a ledger without batching: it answers both the same and leaves
books that agree again.
-/

namespace Tollgate

/-- `b₀` are the same books as `b` without the cache, which mirrors them. -/
structure Books.Agree (b b₀ : Books) (now : Time) : Prop where
  books : b₀ = b.uncached
  mirrored : b.Mirrored now

def Books.MoveFits (b : Books) (job : Job) : Prop :=
  ∀ u, ∀ delta ∈ job.posting? .userQuota u,
    ∀ n, b.store.value? .userQuota u = some n → Word.Fits (n + delta)

namespace Books.Agree

variable {b b₀ : Books} {now : Time} {cache : Option Cache}

theorem store (h : Agree b b₀ now) : b₀.store = b.store := by
  rw [h.books]
  rfl

theorem sound (h : Agree b b₀ now) : b₀.store.Sound := h.store ▸ h.mirrored.sound

theorem withStore (h : Agree b b₀ now) (hs : s.Sound)
    (hv : ∀ u, s.value? .userQuota u = b.store.value? .userQuota u) :
    Agree (b.withStore s) (b₀.withStore s) now := by
  refine ⟨?_, h.mirrored.withStore hs fun u n hn => (hv u).trans hn⟩
  rw [h.books]
  rfl

theorem withCache (h : Agree b b₀ now) (hm : (b.withCache cache).Mirrored now) :
    Agree (b.withCache cache) b₀ now := by
  refine ⟨?_, hm⟩
  rw [h.books]
  rfl

theorem userQuota (h : Agree b b₀ now) (u : Int) :
    (b₀.userQuota now u).1 = (b.userQuota now u).1 ∧
      Agree (b.userQuota now u).2 (b₀.userQuota now u).2 now ∧
      ∀ n, (b.userQuota now u).1 = .ok (some n) → b.store.value? .userQuota u = some n := by
  obtain ⟨hanswer, hm⟩ := h.mirrored.userQuota u
  have h₀ : b₀.userQuota now u = (b.storedQuota u, b₀) := by
    rw [h.books, uncached_userQuota]
  rw [h₀, hanswer]
  exact ⟨rfl, h.withCache hm, fun n hn => (storedQuota_eq_some h.mirrored.sound).mp hn⟩

-- ---------------------------------------------------------------------------
-- Settling and refunding
-- ---------------------------------------------------------------------------

variable {l : Ledger}

theorem tryPost_eq (hl : l.batched = false) (hs : b.store.Sound) (c : Counter) (i delta : Int) :
    l.tryPost b c i delta = b.withStore (b.store.post c i delta) := by
  rw [Ledger.tryPost, Ledger.post_eq hs, hl]
  rfl

theorem tryPost (h : Agree b b₀ now) (hl : l.batched = false) {c : Counter} (hc : c ≠ .userQuota)
    (i delta : Int) : Agree (l.tryPost b c i delta) (l.tryPost b₀ c i delta) now := by
  rw [tryPost_eq hl h.mirrored.sound, tryPost_eq hl h.sound, h.store]
  exact h.withStore (h.mirrored.sound.post c i delta) fun u =>
    Store.value?_post _ _ _ _ _ fun hu => hc hu.1.symm

theorem value?_tryPost (hl : l.batched = false) (hs : b.store.Sound) {c : Counter}
    (hc : c ≠ .userQuota) (i delta u : Int) :
    (l.tryPost b c i delta).store.value? .userQuota u = b.store.value? .userQuota u := by
  rw [tryPost_eq hl hs]
  exact Store.value?_post _ _ _ _ _ fun hu => hc hu.1.symm

/-- A balance moves in both; only the cached ledger may tell at once where it is now. -/
theorem move (h : Agree b b₀ now) (hl : l.batched = false) (u delta : Int)
    (hw : ∀ n, b.store.value? .userQuota u = some n → Word.Fits (n + delta)) :
    ∃ value b' b₀',
      Ledger.moveCached (l.tryPost b .userQuota u delta) now u delta = (value, b') ∧
      Ledger.moveCached (l.tryPost b₀ .userQuota u delta) now u delta = (none, b₀') ∧
      Agree b' b₀' now ∧ ∀ v, value = some v → b'.store.value? .userQuota u = some v := by
  obtain ⟨value, cache, hmove, htells, hm⟩ := h.mirrored.moveCached hw
  rw [tryPost_eq hl h.mirrored.sound, tryPost_eq hl h.sound, h.store]
  refine ⟨value, _, b₀.withStore (b.store.post .userQuota u delta), hmove, ?_, ⟨?_, hm⟩, htells⟩
  · rw [h.books]
    rfl
  · rw [h.books]
    rfl

theorem writeLog (h : Agree b b₀ now) (hold : Hold) (usage : Usage) (actual : Int) :
    Agree (Ledger.writeLog b hold usage actual) (Ledger.writeLog b₀ hold usage actual) now := by
  unfold Ledger.writeLog
  rw [h.store]
  split
  · next s hl =>
    rw [Store.addLog_eq_ok hl]
    refine h.withStore (h.mirrored.sound.withLogs _) fun u => ?_
    rw [Store.value?, Store.cell?_withLogs, Store.value?]
  · exact h

theorem value?_writeLog (b : Books) (hold : Hold) (usage : Usage) (actual u : Int) :
    (Ledger.writeLog b hold usage actual).store.value? .userQuota u =
      b.store.value? .userQuota u := by
  obtain ⟨logs, hl⟩ := Ledger.writeLog_eq b hold usage actual
  rw [hl]
  show Store.value? { b.store with logs } .userQuota u = _
  rw [Store.value?, Store.cell?_withLogs, Store.value?]

theorem notify (h : Agree b b₀ now) (u balance : Int) :
    Agree (Ledger.notify b u balance) (Ledger.notify b₀ u balance) now := by
  have hwatch : b₀.watch = b.watch := by rw [h.books]; rfl
  unfold Ledger.notify
  rw [hwatch]
  split
  · exact ⟨by rw [h.books]; rfl, ⟨h.mirrored.sound, h.mirrored.posted, h.mirrored.serves,
      h.mirrored.entry⟩⟩
  · exact ⟨by rw [h.books]; rfl, ⟨h.mirrored.sound, h.mirrored.posted, h.mirrored.serves,
      h.mirrored.entry⟩⟩

theorem tell (h : Agree b b₀ now)
    (hv : ∀ v, balance = some v → b.store.value? .userQuota u = some v) :
    Agree (Ledger.tell b now u balance) (Ledger.tell b₀ now u none) now := by
  dsimp only [Ledger.tell]
  cases balance with
  | some v =>
    have hstored : b.storedQuota u = .ok (some v) :=
      (storedQuota_eq_some h.mirrored.sound).mpr (hv v rfl)
    have h₀ : b₀.userQuota now u = (.ok (some v), b₀) := by
      rw [h.books, uncached_userQuota, hstored]
    rw [h₀]
    exact h.notify u v
  | none =>
    obtain ⟨hanswer, hagree, -⟩ := h.userQuota u
    generalize b.userQuota now u = p at hanswer hagree ⊢
    generalize b₀.userQuota now u = p₀ at hanswer hagree ⊢
    obtain ⟨answer, b'⟩ := p
    obtain ⟨answer₀, b₀'⟩ := p₀
    obtain rfl : answer₀ = answer := hanswer
    cases answer₀ with
    | error f => exact hagree
    | ok found =>
      cases found with
      | none => exact hagree
      | some v => exact hagree.notify u v

theorem settle (h : Agree b b₀ now) (hl : l.batched = false) {hold : Hold} {usage : Usage}
    (hw : ∀ delta ∈ (Job.settle hold usage).posting? .userQuota hold.userId,
      ∀ n, b.store.value? .userQuota hold.userId = some n → Word.Fits (n + delta)) :
    Agree (l.settle b now hold usage) (l.settle b₀ now hold usage) now := by
  unfold Ledger.settle
  extract_lets actual tokenDelta userDelta b₁ b₁₀
  have h₁ : Agree b₁ b₁₀ now := by
    by_cases hz : tokenDelta = 0
    · simpa only [b₁, b₁₀, if_pos hz] using h
    · simpa only [b₁, b₁₀, if_neg hz] using h.tryPost hl (by decide) hold.tokenId (-tokenDelta)
  have hvalue : b₁.store.value? .userQuota hold.userId =
      b.store.value? .userQuota hold.userId := by
    by_cases hz : tokenDelta = 0
    · simp only [b₁, if_pos hz]
    · simp only [b₁, if_neg hz]
      exact value?_tryPost hl h.mirrored.sound (by decide) _ _ _
  -- What the cached ledger knows of the balance by now is what the store has.
  have hmove : ∃ value b₂ b₂₀,
      (if userDelta = 0 then (none, b₁)
        else Ledger.moveCached (l.tryPost b₁ .userQuota hold.userId (-userDelta)) now hold.userId
          (-userDelta)) = (value, b₂) ∧
      (if userDelta = 0 then (none, b₁₀)
        else Ledger.moveCached (l.tryPost b₁₀ .userQuota hold.userId (-userDelta)) now hold.userId
          (-userDelta)) = (none, b₂₀) ∧
      Agree b₂ b₂₀ now ∧
        ∀ v, value = some v → b₂.store.value? .userQuota hold.userId = some v := by
    by_cases hz : userDelta = 0
    · simp only [if_pos hz]
      exact ⟨none, b₁, b₁₀, rfl, rfl, h₁, nofun⟩
    · simp only [if_neg hz]
      refine h₁.move hl _ _ fun n hn => hw _ ?_ n (hvalue ▸ hn)
      simp only [Job.posting?, true_and]
      rw [if_pos hz]
      rfl
  obtain ⟨value, b₂, b₂₀, he, he₀, h₂, hv⟩ := hmove
  rw [he, he₀]
  have h₃ := h₂.tryPost hl (c := .usedQuota) (by decide) hold.userId actual
  have h₄ := h₃.tryPost hl (c := .requestCount) (by decide) hold.userId 1
  have h₅ := h₄.tryPost hl (c := .channelUsedQuota) (by decide) hold.channelId actual
  refine (h₅.writeLog hold usage actual).tell fun v hvalue => ?_
  rw [value?_writeLog, value?_tryPost hl h₄.mirrored.sound (by decide),
    value?_tryPost hl h₃.mirrored.sound (by decide),
    value?_tryPost hl h₂.mirrored.sound (by decide)]
  exact hv v hvalue

theorem refund (h : Agree b b₀ now) (hl : l.batched = false) {hold : Hold}
    (hw : ∀ delta ∈ (Job.refund hold).posting? .userQuota hold.userId,
      ∀ n, b.store.value? .userQuota hold.userId = some n → Word.Fits (n + delta)) :
    Agree (l.refund b now hold) (l.refund b₀ now hold) now := by
  unfold Ledger.refund
  extract_lets b₁ b₁₀
  have h₁ : Agree b₁ b₁₀ now := by
    by_cases hp : 0 < hold.tokenReserved
    · simpa only [b₁, b₁₀, if_pos hp] using h.tryPost hl (by decide) hold.tokenId hold.tokenReserved
    · simpa only [b₁, b₁₀, if_neg hp] using h
  have hvalue : b₁.store.value? .userQuota hold.userId =
      b.store.value? .userQuota hold.userId := by
    by_cases hp : 0 < hold.tokenReserved
    · simp only [b₁, if_pos hp]
      exact value?_tryPost hl h.mirrored.sound (by decide) _ _ _
    · simp only [b₁, if_neg hp]
  by_cases hp : 0 < hold.userReserved
  · rw [if_pos hp, if_pos hp]
    obtain ⟨value, b₂, b₂₀, he, he₀, h₂, -⟩ :=
      h₁.move hl hold.userId hold.userReserved fun n hn =>
        hw _ (by simp [Job.posting?, hp]) n (hvalue ▸ hn)
    rw [he, he₀]
    exact h₂
  · rw [if_neg hp, if_neg hp]
    exact h₁

theorem perform (h : Agree b b₀ now) (hl : l.batched = false) {job : Job}
    (hw : MoveFits b job) : Agree (l.perform b now job) (l.perform b₀ now job) now := by
  cases job with
  | settle hold usage => exact h.settle hl (hw hold.userId)
  | refund hold => exact h.refund hl (hw hold.userId)

-- ---------------------------------------------------------------------------
-- Reserving
-- ---------------------------------------------------------------------------

theorem reserveToken (h : Agree b b₀ now) (r : ChargeRequest) (amount : Int) :
    (∃ e, Ledger.reserveToken b r amount = .error e ∧
      Ledger.reserveToken b₀ r amount = .error e) ∨
    ∃ b' b₀', Ledger.reserveToken b r amount = .ok b' ∧
      Ledger.reserveToken b₀ r amount = .ok b₀' ∧ Agree b' b₀' now ∧
      ∀ u, b'.store.value? .userQuota u = b.store.value? .userQuota u := by
  have hs := h.mirrored.sound
  unfold Ledger.reserveToken
  rw [h.store]
  by_cases hu : r.tokenUnlimited
  · have hv (u : Int) := Store.value?_post b.store .tokenQuota r.tokenId (-amount) u nofun
    rw [if_pos hu, if_pos hu, hs.post?_eq]
    exact .inr ⟨_, _, rfl, rfl, h.withStore (hs.post _ _ _) hv, hv⟩
  · obtain ⟨granted, s, hdraw, hdrawn, hs'⟩ := Store.drawToken?_spec hs r.tokenId amount
    rw [if_neg hu, if_neg hu, hdraw]
    cases granted with
    | false => exact .inl ⟨_, rfl, rfl⟩
    | true =>
      have hv (u : Int) : s.value? .userQuota u = b.store.value? .userQuota u :=
        hdrawn.value?_of_ne nofun
      exact .inr ⟨_, _, rfl, rfl, h.withStore hs' hv, hv⟩

/-- A balance that covers the amount can be drawn on in both: where the cache holds it, by
posting what was drawn, and in the store where it does not. -/
theorem reserveUser (h : Agree b b₀ now) (hl : l.batched = false)
    (hn : b.store.value? .userQuota u = some n) (ha : 0 ≤ amount) (hle : amount ≤ n) :
    ∃ b' b₀', l.reserveUser b now u amount = (.ok (), b') ∧
      l.reserveUser b₀ now u amount = (.ok (), b₀') ∧ Agree b' b₀' now ∧
      b'.store.value? .userQuota u = some (n - amount) := by
  have hs := h.mirrored.sound
  have hsub : Word.Fits (n + -amount) := Int.sub_eq_add_neg ▸ (hs.fits hn).sub ha hle
  have hw : ∀ m, b.store.value? .userQuota u = some m → Word.Fits (m + -amount) := by
    rw [hn]
    rintro _ ⟨⟩
    exact hsub
  have hdraw := Store.drawUser?_eq_post hs hn ha hle
  have hstored (cache : Option Cache) : Ledger.reserveStored (b.withCache cache) u amount =
      .ok ((b.withStore (b.store.post .userQuota u (-amount))).withCache cache) := by
    have hdraw' : (b.withCache cache).store.drawUser? u amount = _ := hdraw
    rw [Ledger.reserveStored, hdraw']
    rfl
  -- Whatever becomes of the cache, the store has to lose the amount.
  have hpaid : ∃ cache, l.reserveUser b now u amount =
      (.ok (), (b.withStore (b.store.post .userQuota u (-amount))).withCache cache) ∧
      ∀ c, cache = some c → Leads c b now u (-amount) := by
    unfold Ledger.reserveUser
    extract_lets stored key
    have hself : Ledger.reserveStored b u amount = _ := hstored b.cache
    cases hc : b.cache with
    | none =>
      refine ⟨none, ?_, fun c he => by cases he⟩
      simp only [stored, hself, hc]
    | some c =>
      obtain ⟨outcome, c', hdrawn, houtcome, hleads⟩ := h.mirrored.draw hc hn ha hle
      refine ⟨some c', ?_, fun _ he => Option.some.inj he ▸ hleads⟩
      simp only [key, hdrawn]
      rcases houtcome with rfl | rfl
      · simp only [stored, hstored]
      · have hpost : l.post (b.withCache (some c')) .userQuota u (-amount) = _ :=
          Ledger.post_eq (b := b.withCache (some c')) hs .userQuota u (-amount)
        simp only [hpost, hl]
        rfl
  obtain ⟨cache, hb, hleads⟩ := hpaid
  have hb₀ : l.reserveUser b₀ now u amount =
      (.ok (), (b.withStore (b.store.post .userQuota u (-amount))).withCache none) := by
    have huncached : Ledger.reserveStored b.uncached u amount = _ := hstored none
    have hnone : b.uncached.cache = none := rfl
    rw [h.books]
    unfold Ledger.reserveUser
    simp only [hnone, huncached]
  refine ⟨_, _, hb, hb₀, ⟨rfl, h.mirrored.follow hw hleads⟩, ?_⟩
  exact Store.value?_post_own hn hsub

/-- Both ledgers give one answer and are left with books that agree. What a reservation takes
is covered by the stored balance. -/
structure Reserves (p p₀ : Except LedgerError Reservation × Books) (now : Time) (u : Int) :
    Prop where
  answer : p₀.1 = p.1
  agree : Agree p.2 p₀.2 now
  covered : ∀ r, p.1 = .ok r → r.hold.userId = u ∧ r.hold.userReserved ≤ r.balanceBefore ∧
    Word.Fits r.balanceBefore ∧
    p.2.store.value? .userQuota u = some (r.balanceBefore - r.hold.userReserved)

theorem Reserves.refused (h : Agree b b₀ now) (e : LedgerError) (u : Int) :
    Reserves (.error e, b) (.error e, b₀) now u :=
  ⟨rfl, h, nofun⟩

theorem Reserves.moveFits (h : Reserves (.ok r, b) p₀ now u) : b.MoveFits (.refund r.hold) := by
  obtain ⟨hu, -, hf, hleft⟩ := h.covered r rfl
  intro v delta hdelta n hn
  simp only [Job.posting?] at hdelta
  split at hdelta
  · next hc =>
    cases hdelta
    have hn' : b.store.value? .userQuota u = some n := by rw [← hu, ← hc.1]; exact hn
    obtain rfl : r.balanceBefore - r.hold.userReserved = n :=
      Option.some.inj (hleft.symm.trans hn')
    rwa [Int.sub_add_cancel]
  · cases hdelta

theorem reserve (h : Agree b b₀ now) (hl : l.batched = false) (r : ChargeRequest) :
    Reserves (l.reserve b now r) (l.reserve b₀ now r) now r.userId := by
  unfold Ledger.reserve
  cases hq : l.quote r.group r.model with
  | error e => exact .refused h e _
  | ok quote =>
  dsimp only
  have hpos := Int.natCast_nonneg (quote.estimate r.promptTokens l.rules.preConsumeBuffer)
  generalize (quote.estimate r.promptTokens l.rules.preConsumeBuffer : Int) = estimated at hpos ⊢
  obtain ⟨hanswer, h₁, hfound⟩ := h.userQuota r.userId
  have hstore : (b.userQuota now r.userId).2.store = b.store := rfl
  generalize b.userQuota now r.userId = p at hanswer h₁ hfound hstore ⊢
  generalize b₀.userQuota now r.userId = p₀ at hanswer h₁ ⊢
  obtain ⟨found, b₁⟩ := p
  obtain ⟨found₀, b₁₀⟩ := p₀
  obtain rfl : found₀ = found := hanswer
  rcases found₀ with f | _ | balance
  · exact .refused h₁ _ _
  · exact .refused h₁ _ _
  dsimp only
  by_cases hless : balance < estimated
  · rw [if_pos hless, if_pos hless]
    exact .refused h₁ _ _
  rw [if_neg hless, if_neg hless]
  -- The token pays in both or refuses in both, and the balance of the user stays.
  have htoken : (∃ e,
      (if l.trusts balance estimated then .ok b₁ else Ledger.reserveToken b₁ r estimated) =
        Except.error e ∧
      (if l.trusts balance estimated then .ok b₁₀ else Ledger.reserveToken b₁₀ r estimated) =
        Except.error e) ∨
      ∃ b₂ b₂₀,
        (if l.trusts balance estimated then .ok b₁ else Ledger.reserveToken b₁ r estimated) =
          Except.ok b₂ ∧
        (if l.trusts balance estimated then .ok b₁₀ else Ledger.reserveToken b₁₀ r estimated) =
          Except.ok b₂₀ ∧
        Agree b₂ b₂₀ now ∧ ∀ u, b₂.store.value? .userQuota u = b₁.store.value? .userQuota u := by
    by_cases ht : l.trusts balance estimated
    · simp only [if_pos ht]
      exact .inr ⟨b₁, b₁₀, rfl, rfl, h₁, fun _ => rfl⟩
    · simp only [if_neg ht]
      exact h₁.reserveToken r estimated
  obtain ⟨e, he, he₀⟩ | ⟨b₂, b₂₀, he, he₀, h₂, hkept⟩ := htoken
  · rw [he, he₀]
    exact .refused h₁ e _
  · rw [he, he₀]
    have hn : b₂.store.value? .userQuota r.userId = some balance := by
      rw [hkept, hstore]
      exact hfound balance rfl
    obtain ⟨b₃, b₃₀, hu, hu₀, h₃, hleft⟩ := h₂.reserveUser hl hn hpos (Int.not_lt.mp hless)
    simp only [hu, hu₀]
    refine ⟨rfl, h₃, ?_⟩
    rintro _ ⟨⟩
    exact ⟨rfl, Int.not_lt.mp hless, h.mirrored.sound.fits (hfound balance rfl), hleft⟩

end Books.Agree

end Tollgate
