import Tollgate.Proofs.Ledger.Desk
import Tollgate.Proofs.Ledger.Paying

/-!
# How far a cached balance lags

With batching a cached balance follows every posting at once and the stored
one at a flush. The two differ for good by what was still waiting when the
balance was read into the cache: a flush does not end that lag, expiry does
(`flush_tells`).
-/

namespace Tollgate

namespace Books

variable {b b' : Books} {now t : Time} {u : Int} {lag lag' : Int → Int} {l : Ledger}

def holds (b : Books) (now : Time) (u : Int) : Bool := b.cache.any (·.holds now u)

def waiting (b : Books) (u : Int) : Int := b.batch.sum .userQuota u

def lagged (b : Books) (lag : Int → Int) (u : Int) : Option Int :=
  (b.store.value? .userQuota u).map (· + (b.waiting u - lag u))

/-- The lags where each balance that does not live in `b` is read while the sums of `b'` wait. -/
def relag (b b' : Books) (now : Time) (lag : Int → Int) (u : Int) : Int :=
  if b.holds now u then lag u else b'.waiting u

/-- Each balance that lives in the cache lags by the amount given for its user. -/
structure Lags (b : Books) (now : Time) (lag : Int → Int) : Prop where
  sound : b.store.Sound
  serves : ∀ c, b.cache = some c → c.refused = []
  tells : ∀ c, b.cache = some c → c.Tells now (b.lagged lag)

theorem Lags.congr (h : b.Lags now lag) (heq : ∀ u, b.holds now u = true → lag' u = lag u) :
    b.Lags now lag' := by
  refine ⟨h.sound, h.serves, fun c hc => (h.tells c hc).congr fun u hu => ?_⟩
  rw [lagged, lagged, heq u (by rw [holds, hc]; exact hu)]

theorem Lags.reread (h : b'.Lags t lag) (hh : ∀ u, b'.holds t u = true → b.holds now u = true)
    (b'' : Books) : b'.Lags t (b.relag b'' now lag) :=
  h.congr fun u hu => if_pos (hh u hu)

theorem Lags.frame (h : b.Lags now lag) (hs : b'.store.Sound)
    (hv : ∀ u, b'.store.value? .userQuota u = b.store.value? .userQuota u)
    (hw : ∀ u, b'.waiting u = b.waiting u) (hc : b'.cache = b.cache) : b'.Lags now lag := by
  refine ⟨hs, fun c hc' => h.serves c (hc ▸ hc'), fun c hc' => ?_⟩
  have hlagged : b'.lagged lag = b.lagged lag := by
    funext u
    rw [lagged, lagged, hv, hw]
  rw [hlagged]
  exact h.tells c (hc ▸ hc')

theorem Lags.narrow (h : b.Lags now lag) (ht : now ≤ t) (hs : b'.store = b.store)
    (hw : b'.batch = b.batch)
    (hc : ∀ c', b'.cache = some c' → ∃ c, b.cache = some c ∧ c'.refused = c.refused ∧
      ∀ k e, c'.entries.get? k = some e → c.entries.get? k = some e) (b'' : Books) :
    b'.Lags t (b.relag b'' now lag) := by
  have hlagged : b'.lagged lag = b.lagged lag := by
    funext u
    rw [lagged, lagged, waiting, waiting, hs, hw]
  have hlags : b'.Lags t lag := by
    refine ⟨hs ▸ h.sound, fun c' hc' => ?_, fun c' hc' => ?_⟩
    · obtain ⟨c, hget, hr, -⟩ := hc c' hc'
      exact hr.trans (h.serves c hget)
    · obtain ⟨c, hget, -, he⟩ := hc c' hc'
      exact hlagged ▸ (h.tells c hget).narrow he ht
  refine hlags.reread (fun u hu => ?_) b''
  obtain ⟨c', hc', hheld⟩ := (Option.any_eq_true _ _).mp hu
  obtain ⟨c, hget, -, he⟩ := hc c' hc'
  rw [holds, hget]
  exact Cache.holds_mono he ht hheld

theorem Lags.userQuota (h : b.Lags now lag) (u : Int) :
    (b.userQuota now u).1 =
        (b.storedQuota u).map (·.map (· + (b.waiting u - b.relag b now lag u))) ∧
      (b.userQuota now u).2.Lags now (b.relag b now lag) := by
  rw [userQuota_eq]
  cases hc : b.cache with
  | none =>
    have hrelag : b.relag b now lag u = b.waiting u := by rw [relag, holds, hc]; rfl
    rw [Cache.fetch_none, hrelag, Int.sub_self]
    refine ⟨?_, h.sound, nofun, nofun⟩
    rcases b.storedQuota u with f | _ | n <;> simp [Except.map]
  | some c =>
    have hheld (v : Int) : b.holds now v = c.holds now v := by rw [holds, hc]; rfl
    obtain ⟨c', hfetch, hr, htells⟩ := (h.tells c hc).fetch (h.serves c hc) u b.directory.ttl
      (b.storedQuota u) (b.lagged (b.relag b now lag))
      (fun v hv => by rw [lagged, lagged, relag, hheld, if_pos hv])
      (fun n hidle hn => by
        have hvalue := (storedQuota_eq_some h.sound).mp hn
        rw [lagged, relag, hheld, if_neg (by rw [hidle]; decide), hvalue, Int.sub_self]
        exact ⟨congrArg some (Int.add_zero n), h.sound.fits hvalue⟩)
    rw [hfetch]
    refine ⟨?_, h.sound, fun _ he => Option.some.inj he ▸ hr,
      fun _ he => Option.some.inj he ▸ htells⟩
    rw [relag, hheld]
    by_cases hv : c.holds now u = true
    · -- What lives tells the stored balance, so there is one.
      obtain ⟨e, hget, hlive⟩ := Cache.holds_iff.mp hv
      obtain ⟨n, hn, -, -⟩ := h.tells c hc u e hget hlive
      obtain ⟨m, hm, rfl⟩ := Option.map_eq_some_iff.mp hn
      rw [if_pos hv, if_pos hv, hn, (storedQuota_eq_some h.sound).mpr hm]
      rfl
    · rw [if_neg hv, if_neg hv, Int.sub_self]
      rcases b.storedQuota u with f | _ | n <;> simp [Except.map]

-- ---------------------------------------------------------------------------
-- Postings
-- ---------------------------------------------------------------------------

theorem tryPost_batched (hl : l.batched = true) (b : Books) (c : Counter) (i delta : Int) :
    l.tryPost b c i delta = { b with batch := b.batch.add c i delta } := by
  rw [Ledger.tryPost, Ledger.post, hl]
  rfl

theorem Lags.tryPost (h : b.Lags now lag) (hl : l.batched = true) {c : Counter}
    (hc : c ≠ .userQuota) (i delta : Int) : (l.tryPost b c i delta).Lags now lag := by
  rw [tryPost_batched hl]
  refine h.frame h.sound (fun _ => rfl) (fun u => ?_) rfl
  show (b.batch.add c i delta).sum .userQuota u = _
  rw [Batch.sum_add, if_neg fun he => hc he.1.symm]
  rfl

theorem waiting_tryPost (hl : l.batched = true) {c : Counter} (hc : c ≠ .userQuota)
    (i delta u : Int) : (l.tryPost b c i delta).waiting u = b.waiting u := by
  rw [tryPost_batched hl, waiting, waiting]
  show (b.batch.add c i delta).sum .userQuota u = _
  rw [Batch.sum_add, if_neg fun he => hc he.1.symm]

theorem waiting_add (hw : Word.Fits (b.waiting u + delta)) (v : Int) :
    ({ b with batch := b.batch.add .userQuota u delta } : Books).waiting v =
      if v = u then b.waiting u + delta else b.waiting v := by
  show (b.batch.add .userQuota u delta).sum .userQuota v = _
  rw [Batch.sum_add]
  by_cases hv : v = u
  · subst hv
    by_cases hd : delta = 0
    · simp [hd, waiting]
    · rw [if_pos ⟨rfl, rfl, hd⟩, if_pos rfl]
      exact Word.wrap_eq_self hw
  · rw [if_neg fun he => hv he.2.1, if_neg hv]
    rfl

theorem lagged_add (hw : Word.Fits (b.waiting u + delta)) (lag : Int → Int) :
    ({ b with batch := b.batch.add .userQuota u delta } : Books).lagged lag =
      Cache.movedBy (b.lagged lag) u delta := by
  funext v
  rw [lagged, waiting_add hw, Cache.movedBy, lagged, lagged]
  by_cases hv : v = u
  · subst hv
    rw [if_pos rfl, if_pos rfl, Option.map_map]
    refine congrArg (Option.map · (b.store.value? .userQuota v)) (funext fun n => ?_)
    show n + (b.waiting v + delta - lag v) = n + (b.waiting v - lag v) + delta
    omega
  · rw [if_neg hv, if_neg hv]
    rfl

def Takes (b : Books) (now : Time) (u delta : Int) : Prop :=
  Word.Fits (b.waiting u + delta) ∧
    ∀ n, Cache.hit? .word b.cache now (AccountKey.userQuota u).text = some n → Word.Fits (n + delta)

/-- `b'` has come from `b` without a lookup, and nothing has become of the lags. -/
structure Kept (b b' : Books) (now : Time) (lag : Int → Int) : Prop where
  lags : b'.Lags now lag
  holds : ∀ v, b'.holds now v = b.holds now v

theorem Kept.refl (h : b.Lags now lag) : Kept b b now lag := ⟨h, fun _ => rfl⟩

theorem Kept.tryPost (h : Kept b b' now lag) (hl : l.batched = true) {c : Counter}
    (hc : c ≠ .userQuota) (i delta : Int) : Kept b (l.tryPost b' c i delta) now lag := by
  refine ⟨h.lags.tryPost hl hc i delta, fun v => ?_⟩
  rw [tryPost_batched hl]
  exact h.holds v

theorem Kept.writeLog (h : Kept b b' now lag) (hold : Hold) (usage : Usage) (actual : Int) :
    Kept b (Ledger.writeLog b' hold usage actual) now lag := by
  obtain ⟨logs, hlogs⟩ := Ledger.writeLog_eq b' hold usage actual
  rw [hlogs]
  refine ⟨h.lags.frame (h.lags.sound.withLogs logs) (fun u => ?_) (fun _ => rfl) rfl, h.holds⟩
  show Store.value? { b'.store with logs } .userQuota u = _
  rw [Store.value?, Store.cell?_withLogs, Store.value?]

theorem Kept.move (h : Kept b b' now lag) (hl : l.batched = true) (hw : b'.Takes now u delta) :
    Kept b (Ledger.moveCached (l.tryPost b' .userQuota u delta) now u delta).2 now lag := by
  have hcache : ({ b' with batch := b'.batch.add .userQuota u delta } : Books).cache =
      b'.cache := rfl
  rw [tryPost_batched hl, Ledger.moveCached, hcache]
  cases hc : b'.cache with
  | none =>
    refine ⟨⟨h.lags.sound, h.lags.serves, fun c hc' => ?_⟩, h.holds⟩
    cases hc.symm.trans hc'
  | some c =>
    have hr := h.lags.serves c hc
    have htells := h.lags.tells c hc
    obtain ⟨c', hcredit, hr', htells', hholds⟩ := htells.credit hr u delta
      fun n hheld hn => hw.2 n (by rw [hc, htells.hit? hr, if_pos hheld, hn])
    simp only [hcredit]
    refine ⟨⟨h.lags.sound, fun _ he => Option.some.inj he ▸ hr', fun _ he => ?_⟩, fun v => ?_⟩
    · rw [← Option.some.inj he]
      exact lagged_add hw.1 lag ▸ htells'
    · rw [← h.holds v, Books.holds, Books.holds, hc]
      exact hholds v

theorem Kept.notify (h : Kept b b' now lag) (u balance : Int) :
    Kept b (Ledger.notify b' u balance) now lag := by
  rw [Ledger.notify]
  split <;>
    exact ⟨h.lags.frame h.lags.sound (fun _ => rfl) (fun _ => rfl) rfl, h.holds⟩

theorem Kept.tell (h : Kept b b' now lag) (u : Int) (balance : Option Int) :
    (Ledger.tell b' now u balance).Lags now
      (b.relag (Ledger.tell b' now u balance) now lag) := by
  have hrelag : b.relag (Ledger.tell b' now u balance) now lag = b'.relag b' now lag := by
    funext v
    rw [relag, relag, h.holds, waiting, (Ledger.store_tell b' now u balance).2]
    rfl
  rw [hrelag]
  cases balance with
  | some balance =>
    have hkept := (Kept.refl h.lags).notify u balance
    exact hkept.lags.reread (fun v hv => (hkept.holds v).symm.trans hv) _
  | none =>
    have hlook := (h.lags.userQuota u).2
    dsimp only [Ledger.tell]
    generalize b'.userQuota now u = p at hlook ⊢
    obtain ⟨answer, b''⟩ := p
    rcases answer with f | _ | balance
    · exact hlook
    · exact hlook
    · exact ((Kept.refl hlook).notify u balance).lags

-- ---------------------------------------------------------------------------
-- Settling and refunding
-- ---------------------------------------------------------------------------

def JobTakes (b : Books) (now : Time) (job : Job) : Prop :=
  ∀ u, ∀ delta ∈ job.posting? .userQuota u, b.Takes now u delta

theorem Kept.takes_tryPost (hl : l.batched = true) {c : Counter} (hc : c ≠ .userQuota)
    (i delta : Int) (h : b.Takes now u delta') : (l.tryPost b c i delta).Takes now u delta' := by
  refine ⟨?_, ?_⟩
  · rw [waiting_tryPost hl hc]
    exact h.1
  · rw [tryPost_batched hl]
    exact h.2

theorem Lags.settle (h : b.Lags now lag) (hl : l.batched = true) {hold : Hold} {usage : Usage}
    (hw : b.JobTakes now (.settle hold usage)) :
    (l.settle b now hold usage).Lags now (b.relag (l.settle b now hold usage) now lag) := by
  unfold Ledger.settle
  extract_lets actual tokenDelta userDelta b₁
  have h₁ : Kept b b₁ now lag ∧
      ∀ delta, b.Takes now hold.userId delta → b₁.Takes now hold.userId delta := by
    by_cases hz : tokenDelta = 0
    · simp only [b₁, if_pos hz]
      exact ⟨.refl h, fun _ ht => ht⟩
    · simp only [b₁, if_neg hz]
      exact ⟨(Kept.refl h).tryPost hl (by decide) _ _,
        fun _ ht => Kept.takes_tryPost hl (by decide) _ _ ht⟩
  split
  rename_i balance b₂ hb₂
  have h₂ : Kept b b₂ now lag := by
    by_cases hz : userDelta = 0
    · rw [if_pos hz] at hb₂
      cases hb₂
      exact h₁.1
    · rw [if_neg hz] at hb₂
      have hposts : -userDelta ∈ (Job.settle hold usage).posting? .userQuota hold.userId := by
        simp only [Job.posting?, true_and]
        rw [if_pos hz]
        rfl
      have hmove := h₁.1.move hl (h₁.2 _ (hw _ _ hposts))
      rw [hb₂] at hmove
      exact hmove
  extract_lets b₃ b₄ b₅ b₆
  have h₆ : Kept b b₆ now lag :=
    (((h₂.tryPost hl (by decide) hold.userId actual).tryPost hl (by decide) hold.userId 1).tryPost
      hl (by decide) hold.channelId actual).writeLog hold usage actual
  exact h₆.tell hold.userId balance

theorem Lags.refund (h : b.Lags now lag) (hl : l.batched = true) {hold : Hold}
    (hw : b.JobTakes now (.refund hold)) :
    (l.refund b now hold).Lags now (b.relag (l.refund b now hold) now lag) := by
  have hkept : Kept b (l.refund b now hold) now lag := by
    unfold Ledger.refund
    extract_lets b₁
    have h₁ : Kept b b₁ now lag ∧
        ∀ delta, b.Takes now hold.userId delta → b₁.Takes now hold.userId delta := by
      by_cases hp : 0 < hold.tokenReserved
      · simp only [b₁, if_pos hp]
        exact ⟨(Kept.refl h).tryPost hl (by decide) _ _,
          fun _ ht => Kept.takes_tryPost hl (by decide) _ _ ht⟩
      · simp only [b₁, if_neg hp]
        exact ⟨.refl h, fun _ ht => ht⟩
    by_cases hp : 0 < hold.userReserved
    · rw [if_pos hp]
      have hposts : hold.userReserved ∈ (Job.refund hold).posting? .userQuota hold.userId := by
        simp only [Job.posting?, true_and]
        rw [if_pos hp]
        rfl
      exact h₁.1.move hl (h₁.2 _ (hw _ _ hposts))
    · rw [if_neg hp]
      exact h₁.1
  exact hkept.lags.reread (fun v hv => (hkept.holds v).symm.trans hv) _

theorem Lags.perform (h : b.Lags now lag) (hl : l.batched = true) {job : Job}
    (hw : b.JobTakes now job) :
    (l.perform b now job).Lags now (b.relag (l.perform b now job) now lag) := by
  cases job with
  | settle hold usage => exact h.settle hl hw
  | refund hold => exact h.refund hl hw

-- ---------------------------------------------------------------------------
-- Reserving
-- ---------------------------------------------------------------------------

def ReserveTakes (l : Ledger) (b : Books) (now : Time) (r : ChargeRequest) : Prop :=
  ∀ quote balance, l.quote r.group r.model = .ok quote →
    (b.userQuota now r.userId).1 = .ok (some balance) →
    (quote.estimate r.promptTokens l.rules.preConsumeBuffer : Int) ≤ balance →
    Word.Fits (b.waiting r.userId + -(quote.estimate r.promptTokens l.rules.preConsumeBuffer : Int))

theorem Lags.withTokens (h : b.Lags now lag) (amount : Int)
    (hb : Ledger.reserveToken b r amount = .ok b') :
    b'.Lags now lag ∧ ∀ u, b'.waiting u = b.waiting u := by
  obtain ⟨s, rfl, hs, hvalue, -⟩ := Ledger.reserveToken_ok h.sound hb
  exact ⟨h.frame hs hvalue (fun _ => rfl) rfl, fun _ => rfl⟩

theorem Lags.restoreToken (h : b.Lags now lag) (t amount : Int) :
    (Ledger.restoreToken b t amount).Lags now lag := by
  rw [Ledger.restoreToken]
  split
  · rw [h.sound.post?_eq]
    exact h.frame (h.sound.post .tokenQuota t amount)
      (fun u => Store.value?_post _ .tokenQuota t amount u nofun) (fun _ => rfl) rfl
  · exact h

theorem Lags.reserveStored (h : b.Lags now lag) (hidle : b.holds now u = false)
    (hb : Ledger.reserveStored b u amount = .ok b') : b'.Lags now lag := by
  obtain ⟨granted, s, hdraw, hdrawn, hs⟩ := Store.drawUser?_spec h.sound u amount
  rw [Ledger.reserveStored, hdraw] at hb
  cases granted with
  | false =>
    dsimp only at hb
    split at hb <;> cases hb
  | true =>
    cases hb
    refine ⟨hs, h.serves, fun c hc => (h.tells c hc).congr fun v hv => ?_⟩
    have hvu : v ≠ u := by
      rintro rfl
      rw [holds, show b.cache = some c from hc] at hidle
      cases hidle.symm.trans hv
    rw [lagged, lagged]
    show (s.value? .userQuota v).map _ = _
    rw [hdrawn.value?_of_ne fun he => hvu he.2]
    rfl

theorem Lags.reserveUser (h : b.Lags now lag) (hl : l.batched = true) (u : Int)
    (ha : 0 ≤ amount) (hw : Word.Fits (b.waiting u + -amount)) :
    (l.reserveUser b now u amount).2.Lags now lag := by
  unfold Ledger.reserveUser
  extract_lets stored key
  have hstored (b : Books) (h : b.Lags now lag) (hidle : b.holds now u = false) :
      (stored b).2.Lags now lag := by
    simp only [stored]
    cases hr : Ledger.reserveStored b u amount with
    | error e => exact h
    | ok b' => exact h.reserveStored hidle hr
  cases hc : b.cache with
  | none => exact hstored b h (by rw [holds, hc]; rfl)
  | some c =>
    obtain ⟨outcome, c', hdraw, hr, houtcome⟩ :=
      (h.tells c hc).draw (h.serves c hc) u ha
    have hserves : ∀ c'', (b.withCache (some c')).cache = some c'' → c''.refused = [] :=
      fun _ he => Option.some.inj he ▸ hr
    simp only [key, hdraw]
    rcases houtcome with ⟨rfl, hidle, htells⟩ | ⟨n, rfl, -, -, rfl⟩ | ⟨n, rfl, -, -, htells⟩
    · exact hstored _ ⟨h.sound, hserves, fun _ he => Option.some.inj he ▸ htells⟩ hidle
    · exact ⟨h.sound, hserves, fun _ he => Option.some.inj he ▸ h.tells c' hc⟩
    · have hpost : l.post (b.withCache (some c')) .userQuota u (-amount) =
          .ok { b.withCache (some c') with
            batch := (b.withCache (some c')).batch.add .userQuota u (-amount) } := by
        rw [Ledger.post, hl]
        rfl
      simp only [hpost]
      refine ⟨h.sound, hserves, fun _ he => ?_⟩
      rw [← Option.some.inj he]
      exact lagged_add (b := b.withCache (some c')) hw lag ▸ htells

theorem Lags.pay (h : b.Lags now lag) (hl : l.batched = true) {r : ChargeRequest} (trusted : Bool)
    (ha : 0 ≤ amount) (hw : Word.Fits (b.waiting r.userId + -amount)) :
    (l.pay b now r trusted amount).2.Lags now lag := by
  have htoken : ∀ b', (if trusted then .ok b else Ledger.reserveToken b r amount) = Except.ok b' →
      b'.Lags now lag ∧ ∀ u, b'.waiting u = b.waiting u := by
    intro b' hb'
    cases trusted with
    | true =>
      cases hb'
      exact ⟨h, fun _ => rfl⟩
    | false => exact h.withTokens amount hb'
  unfold Ledger.pay
  split
  · exact h
  · next b' hb' =>
    obtain ⟨h', hwaiting⟩ := htoken b' hb'
    have huser := h'.reserveUser hl r.userId ha (by rw [hwaiting]; exact hw)
    generalize l.reserveUser b' now r.userId amount = p at huser ⊢
    obtain ⟨_ | _, b''⟩ := p
    · exact huser.restoreToken _ _
    · exact huser

theorem Lags.reserve (h : b.Lags now lag) (hl : l.batched = true) {r : ChargeRequest}
    (hw : ReserveTakes l b now r) :
    (l.reserve b now r).2.Lags now (b.relag b now lag) := by
  rw [Ledger.reserve_eq]
  cases hq : l.quote r.group r.model with
  | error e => exact h.reread (fun _ hv => hv) b
  | ok quote =>
    dsimp only
    have hlook := (h.userQuota r.userId).2
    have hwaiting : (b.userQuota now r.userId).2.waiting r.userId = b.waiting r.userId := rfl
    have hfits := hw quote
    generalize b.userQuota now r.userId = p at hlook hwaiting hfits ⊢
    obtain ⟨found, b₁⟩ := p
    rcases found with f | _ | balance
    · exact hlook
    · exact hlook
    · dsimp only
      split
      · exact hlook
      · next hcover =>
        refine hlook.pay hl _ (Int.natCast_nonneg _) ?_
        rw [hwaiting]
        exact hfits balance hq rfl (Int.not_lt.mp hcover)

/-- A flush carries over what waits, so that no lag is made or mended. -/
theorem Lags.flush (h : b.Lags now lag)
    (hw : ∀ u n, b.store.value? .userQuota u = some n → Word.Fits (n + b.waiting u)) :
    (Books.withStore { b with batch := (b.batch.flush b.store).2.1 }
      (b.batch.flush b.store).2.2).Lags now lag := by
  refine ⟨Batch.sound_flush _ h.sound, h.serves, fun c hc => ?_⟩
  refine (h.tells c hc).congr fun u hu => ?_
  obtain ⟨e, hget, hlive⟩ := Cache.holds_iff.mp hu
  obtain ⟨_, htold, -, -⟩ := h.tells c hc u e hget hlive
  obtain ⟨n, hn, -⟩ := Option.map_eq_some_iff.mp htold
  have hvalue : (b.batch.flush b.store).2.2.value? .userQuota u = some (n + b.waiting u) := by
    rw [Store.value?_eq_some, Batch.cell?_flush _ h.sound, Store.value?_eq_some.mp hn]
    by_cases hz : b.batch.sum .userQuota u = 0
    · rw [if_pos hz, waiting, hz, Int.add_zero]
    · rw [if_neg hz]
      exact congrArg some (Cell.add_int (hw u n hn))
  have hwaiting : (b.batch.flush b.store).2.1.sum .userQuota u = 0 := Batch.sum_flush _ h.sound _ _
  show ((b.batch.flush b.store).2.2.value? .userQuota u).map
    (· + ((b.batch.flush b.store).2.1.sum .userQuota u - lag u)) = _
  rw [hvalue, hwaiting, lagged, hn]
  refine congrArg some ?_
  show n + b.waiting u + (0 - lag u) = n + (b.waiting u - lag u)
  omega

end Books

namespace Desk

variable {d : Desk} {op : LedgerOp} {ops : List LedgerOp} {lag : Int → Int}

/-- The lags after an operation. A reservation reads a balance before it draws on it, any other
operation reads one, if at all, when it has posted. -/
def lagAfter (d : Desk) (lag : Int → Int) (op : LedgerOp) : Int → Int :=
  match op with
  | .reserve _ => d.books.relag d.books d.gateway.now lag
  | op => d.books.relag (d.step op).2.books d.gateway.now lag

/-- What was waiting for each user when the balance that lives in the cache was read. -/
def lags (d : Desk) (lag : Int → Int) : List LedgerOp → Int → Int
  | [] => lag
  | op :: ops => (d.step op).2.lags (d.lagAfter lag op) ops

def Takes (d : Desk) : LedgerOp → Prop
  | .reserve request => Books.ReserveTakes d.gateway.ledger d.books d.gateway.now request
  | .perform i => ∀ job, d.gateway.inFlight[i]? = some job → d.books.JobTakes d.gateway.now job
  | .flush => ∀ u n, d.books.store.value? .userQuota u = some n →
      Word.Fits (n + d.books.waiting u)
  | _ => True

def AllTake (d : Desk) : List LedgerOp → Prop
  | [] => True
  | op :: ops => d.Takes op ∧ (d.step op).2.AllTake ops

/-- Postings wait, and the balances in the cache lag by the given amounts. -/
structure Lagging (d : Desk) (lag : Int → Int) : Prop where
  batched : d.gateway.ledger.batched = true
  books : d.books.Lags d.gateway.now lag

theorem Lagging.resolve (h : d.Lagging lag) (i : Nat) (usage : Option Usage) (b : Books) :
    (d.resolve i usage).2.Lagging (d.books.relag b d.gateway.now lag) := by
  have hbooks := h.books.reread (fun _ hv => hv) b
  simp only [Desk.resolve]
  split
  · exact ⟨h.batched, hbooks⟩
  · split
    · exact ⟨h.batched, hbooks⟩
    · exact ⟨h.batched, hbooks⟩

theorem Lagging.revise (h : d.Lagging lag) (i : Nat) (f : Charge → Charge × List Job) (b : Books) :
    (d.revise i f).Lagging (d.books.relag b d.gateway.now lag) := by
  have hbooks := h.books.reread (fun _ hv => hv) b
  simp only [Desk.revise]
  split
  · exact ⟨h.batched, hbooks⟩
  · exact ⟨h.batched, hbooks⟩

theorem Lagging.perform (h : d.Lagging lag) (hw : d.Takes (.perform i)) :
    (d.perform i).Lagging (d.books.relag (d.perform i).books d.gateway.now lag) := by
  simp only [Desk.perform]
  cases hj : d.gateway.inFlight[i]? with
  | none => exact ⟨h.batched, h.books.reread (fun _ hv => hv) _⟩
  | some job => exact ⟨h.batched, h.books.perform h.batched (hw job hj)⟩

theorem Lagging.invalidate (h : d.Lagging lag) (u : Int) (b : Books) :
    (d.step (.invalidate u)).2.Lagging (d.books.relag b d.gateway.now lag) := by
  refine ⟨h.batched, h.books.narrow (Nat.le_refl _) ?_ ?_ (fun c' hc' => ?_) b⟩
  · rfl
  · rfl
  have heq := Directory.invalidateUser_eq (d := d.books.directory) h.books.serves u
  have hcache : (d.books.directory.invalidateUser u).cache = some c' := hc'
  rw [heq] at hcache
  obtain ⟨c, hc, rfl⟩ := Option.map_eq_some_iff.mp hcache
  exact ⟨c, hc, rfl, fun _ _ he => Cache.get?_drop (Cache.get?_drop (Cache.get?_drop he))⟩

theorem Lagging.purge (h : d.Lagging lag) (b : Books) :
    (d.step .purge).2.Lagging (d.books.relag b d.gateway.now lag) := by
  refine ⟨h.batched, h.books.narrow (Nat.le_refl _) ?_ ?_ (fun c' hc' => ?_) b⟩
  · rfl
  · rfl
  obtain ⟨c, hc, rfl⟩ := Option.map_eq_some_iff.mp hc'
  refine ⟨c, hc, rfl, fun k e he => ?_⟩
  rw [Cache.purge, Dict.get?_filter] at he
  exact (Option.filter_eq_some_iff.mp he).1

theorem Lagging.wait (h : d.Lagging lag) (span : Duration) (b : Books) :
    (d.step (.wait span)).2.Lagging (d.books.relag b d.gateway.now lag) :=
  ⟨h.batched, h.books.narrow (Nat.le_add_right _ _) rfl rfl
    (fun c hc => ⟨c, hc, rfl, fun _ _ he => he⟩) b⟩

theorem lagging_step (h : d.Lagging lag) (hw : d.Takes op) :
    (d.step op).2.Lagging (d.lagAfter lag op) := by
  cases op with
  | reserve request => exact ⟨h.batched, h.books.reserve h.batched hw⟩
  | consume i usage => exact h.resolve i (some usage) _
  | undo i => exact h.resolve i none _
  | abandon i => exact h.revise i _ _
  | setChannel i channelId => exact h.revise i _ _
  | perform i => exact h.perform hw
  | flush => exact ⟨h.batched, (h.books.flush hw).reread (fun _ hv => hv) _⟩
  | balance u => exact ⟨h.batched, (h.books.userQuota u).2⟩
  | invalidate u => exact h.invalidate u _
  | purge => exact h.purge _
  | wait span => exact h.wait span _
  | reloadRatios ratios => exact ⟨h.batched, h.books.reread (fun _ hv => hv) _⟩

theorem lagging_run (h : d.Lagging lag) (hw : d.AllTake ops) :
    (d.run ops).2.Lagging (d.lags lag ops) := by
  induction ops generalizing d lag with
  | nil => exact h
  | cons op ops ih => exact ih (lagging_step h hw.1) hw.2

theorem run_append (d : Desk) (ops later : List LedgerOp) :
    (d.run (ops ++ later)).2 = ((d.run ops).2.run later).2 := by
  induction ops generalizing d with
  | nil => rfl
  | cons op ops ih => exact ih (d.step op).2

theorem allTake_append {later : List LedgerOp} :
    d.AllTake (ops ++ later) ↔ d.AllTake ops ∧ (d.run ops).2.AllTake later := by
  induction ops generalizing d with
  | nil => exact ⟨fun h => ⟨trivial, h⟩, fun h => h.2⟩
  | cons op ops ih =>
    show d.Takes op ∧ (d.step op).2.AllTake (ops ++ later) ↔
      (d.Takes op ∧ (d.step op).2.AllTake ops) ∧ ((d.step op).2.run ops).2.AllTake later
    rw [ih, and_assoc]

theorem lags_append (d : Desk) (lag : Int → Int) (ops later : List LedgerOp) :
    d.lags lag (ops ++ later) = (d.run ops).2.lags (d.lags lag ops) later := by
  induction ops generalizing d lag with
  | nil => rfl
  | cons op ops ih => exact ih (d.step op).2 (d.lagAfter lag op)

/-- Postings wait, the store is sound, and the cache serves and holds no balance yet. -/
structure Blank (d : Desk) : Prop where
  batched : d.gateway.ledger.batched = true
  sound : d.books.store.Sound
  serves : ∀ c, d.books.cache = some c → c.refused = []
  blank : ∀ c u, d.books.cache = some c →
    c.entries.get? (AccountKey.userQuota u).text = none

theorem Blank.lagging (h : d.Blank) (lag : Int → Int) : d.Lagging lag :=
  ⟨h.batched, h.sound, h.serves, fun c hc u e hget _ => by
    rw [h.blank c u hc] at hget
    cases hget⟩

theorem waiting_flush (hs : d.books.store.Sound) (u : Int) :
    (d.step .flush).2.books.waiting u = 0 := Batch.sum_flush _ hs _ _

/-- Right after a flush a balance is looked up as it is stored, less what was waiting when the
balance in the cache was read. Where none lives in the cache there is no such lag. -/
theorem flush_tells (h : d.Blank) (hw : d.AllTake (ops ++ [.flush])) (u : Int) :
    let d' := (d.run (ops ++ [.flush])).2
    let lag := d.lags (fun _ => 0) (ops ++ [.flush])
    (d'.books.userQuota d'.gateway.now u).1 =
        (d'.books.storedQuota u).map (·.map (· - lag u)) ∧
      (d'.books.holds d'.gateway.now u = false → lag u = 0) := by
  intro d' lag
  have hd' : d'.Lagging lag := lagging_run (h.lagging fun _ => 0) hw
  have hbefore := lagging_run (h.lagging fun _ => 0) (allTake_append.mp hw).1
  have hflushed : d' = ((d.run ops).2.step .flush).2 := run_append d ops [.flush]
  have hwaiting : d'.books.waiting u = 0 := by
    rw [hflushed]
    exact waiting_flush hbefore.books.sound u
  -- The cache is as it was before the flush.
  have hholds : d'.books.holds d'.gateway.now u =
      (d.run ops).2.books.holds (d.run ops).2.gateway.now u := by
    rw [hflushed]
    rfl
  have hlag : d'.books.holds d'.gateway.now u = false → lag u = 0 := by
    intro hidle
    have hlast : lag = (d.run ops).2.lagAfter (d.lags (fun _ => 0) ops) .flush :=
      lags_append d _ ops [.flush]
    rw [hlast]
    show (d.run ops).2.books.relag ((d.run ops).2.step .flush).2.books _ _ u = 0
    rw [Books.relag, ← hholds, hidle, ← hflushed]
    exact hwaiting
  have hrelag : d'.books.relag d'.books d'.gateway.now lag u = lag u := by
    rw [Books.relag, hwaiting]
    cases hheld : d'.books.holds d'.gateway.now u with
    | true => rfl
    | false => exact (hlag hheld).symm
  refine ⟨?_, hlag⟩
  rw [(hd'.books.userQuota u).1, hwaiting, hrelag]
  refine congrArg (Except.map · (d'.books.storedQuota u)) (funext fun found => ?_)
  refine congrArg (Option.map · found) (funext fun n => ?_)
  show n + (0 - lag u) = n - lag u
  omega

def lentUser : UserRow where
  id := 1
  username := "u"
  group := "default"
  quota := .int 10000
  usedQuota := .int 0
  requestCount := .int 0
  status := .enabled
  email := none

def lentToken : TokenRow where
  id := 1
  userId := 1
  key := "k"
  name := "t"
  status := .enabled
  remainQuota := .int 10000
  unlimited := false
  usedQuota := .int 0
  expiredTime := -1

def lentDesk : Desk where
  gateway := {
    ledger := { prices.fallback := some ⟨1, 1⟩, batched := true }
    books.directory := {
      store := { users.rows := [lentUser], tokens.rows := [lentToken] }
      cache := some {}
      ttl := 60 } }

def lentRequest : ChargeRequest where
  requestId := "r"
  userId := 1
  tokenId := 1
  tokenUnlimited := false
  group := "default"
  model := "m"
  channelId := 1
  promptTokens := 100

/-- The balance expires while what was reserved still waits. -/
def lentOps : List LedgerOp := [.balance 1, .reserve lentRequest, .wait 60, .balance 1, .flush]

theorem blank_lentDesk : lentDesk.Blank where
  batched := rfl
  sound := {
    unlocked := rfl
    shown := rfl
    userIds := List.pairwise_singleton _ 1
    tokenIds := List.pairwise_singleton _ 1
    words := fun c i cell hc => by
      have hcell : cell = .int 10000 ∨ cell = .int 0 := by
        cases c <;> simp [books, lentDesk, Books.store, Store.cell?, Store.userRow?,
          Store.tokenRow?, Store.channelRow?, lentUser, lentToken] at hc <;> simp [← hc.2]
      rcases hcell with rfl | rfl <;> simp [Cell.IsWord, Word.Fits, Word.least, Word.greatest] }
  serves := by rintro _ ⟨⟩; rfl
  blank := by rintro _ u ⟨⟩; rfl

/-- The balance is read into the cache again while the reservation waits to be posted, and the
flush that posts it leaves the cache as it is. -/
theorem flush_leaves_lag :
    let d := (lentDesk.run lentOps).2
    lentDesk.Blank ∧ lentDesk.charges = [] ∧
      (d.books.userQuota d.gateway.now 1).1.toOption = some (some 10000) ∧
      (d.books.storedQuota 1).toOption = some (some 9400) :=
  ⟨blank_lentDesk, rfl, by decide +kernel, by decide +kernel⟩

theorem allTake_lentDesk : lentDesk.AllTake lentOps := by
  refine ⟨trivial, ?_, trivial, trivial, fun u n hn => ?_, trivial⟩
  · intro quote balance hquote _ _
    obtain rfl : ⟨1, 1, 1⟩ = quote := Except.ok.inj hquote
    decide +kernel
  · -- There is no other user.
    have hids : ((lentDesk.run lentOps.dropLast).2.books.store.users.rows.map (·.id)) = [1] := by
      decide +kernel
    obtain ⟨row, hrow, -⟩ := Option.map_eq_some_iff.mp (Store.value?_eq_some.mp hn)
    have hfound : List.find? (fun r : UserRow => decide (r.id = u)) _ = some row := hrow
    have hid : row.id = u := by simpa using List.find?_some hfound
    have hu : u ∈ [1] := by
      rw [← hids, ← hid]
      exact List.mem_map_of_mem (List.mem_of_find?_eq_some hfound)
    obtain rfl := List.mem_singleton.mp hu
    have hvalue : (lentDesk.run lentOps.dropLast).2.books.store.value? .userQuota 1 =
        some 10000 := by decide +kernel
    obtain rfl := Option.some.inj (hvalue.symm.trans hn)
    decide +kernel

/-- What the lookup tells too much is the reservation. -/
theorem flush_tells_lent :
    let d := (lentDesk.run lentOps).2
    let lag := lentDesk.lags (fun _ => 0) lentOps
    lentDesk.Blank ∧ lentDesk.AllTake lentOps ∧ lag 1 = -600 ∧
      (d.books.userQuota d.gateway.now 1).1 = (d.books.storedQuota 1).map (·.map (· - lag 1)) := by
  have htells := @flush_tells lentDesk lentOps.dropLast blank_lentDesk allTake_lentDesk 1
  exact ⟨blank_lentDesk, allTake_lentDesk, by decide +kernel, htells.1⟩

end Desk

end Tollgate
