import Tollgate.Proofs.Ledger.Conservation
import Tollgate.Proofs.Ledger.Refusing

/-!
# What a request for quota is answered

A request has up to four checks to pass: a price, a user, a balance that
covers the estimate, and a token that covers it where the balance does not make
the request trusted. `verdict` reads the answer off the books as they stand,
without a lookup, a write or a way back. Where nothing fails, `reserve` gives
this answer, whatever the cache holds; it charges once where it grants and
changes nothing where it refuses (`reserve_decided`).
-/

namespace Tollgate

theorem fits_of_readWord? (h : readWord? raw = some n) : Word.Fits n := by
  obtain ⟨m, -, hm⟩ := Option.bind_eq_some_iff.mp h
  split at hm
  · next hfits =>
    cases hm
    exact hfits
  · cases hm

namespace Cache

variable {c : Cache} {cache cache' : Option Cache} {now : Time} {key : String}
  {amount balance left : Int}

theorem filter_isLive {e : CacheEntry} (h : now < e.expires) :
    (some e).filter (·.isLive now) = some e :=
  Option.filter_eq_some_iff.mpr ⟨rfl, decide_eq_true h⟩

/-- One entry has been lowered: what lived under the key is `left`, and what did not live there
is gone. -/
structure Lowered (key : String) (now : Time) (left : Int) (cache cache' : Option Cache) :
    Prop where
  own : entryAt cache' key =
    ((entryAt cache key).filter (·.isLive now)).map fun e => { e with text := toString left }
  others : ∀ k, k ≠ key → entryAt cache' k = entryAt cache k

theorem Lowered.text_eq (h : Lowered key now left cache cache')
    (he : entryAt cache' key = some e) : e.text = toString left := by
  rw [h.own] at he
  obtain ⟨_, -, rfl⟩ := Option.map_eq_some_iff.mp he
  rfl

theorem lowered_drop (hdead : ∀ e, c.entries.get? key = some e → ¬now < e.expires) :
    Lowered key now left (some c) (some (c.drop key)) where
  own := by
    have hgone : entryAt (some (c.drop key)) key = none := by
      show (c.entries.erase key).get? key = none
      rw [Dict.get?_erase, if_pos rfl]
    have hnone : (entryAt (some c) key).filter (·.isLive now) = none :=
      Option.filter_eq_none_iff.mpr fun e he => by simpa [CacheEntry.isLive] using hdead e he
    rw [hgone, hnone]
    rfl
  others := fun k hk => (Dict.get?_erase ..).trans (if_neg hk)

theorem draw_told (hr : c.refused = [])
    (hreads : ∀ e, c.entries.get? key = some e → now < e.expires → readWord? e.text = some balance)
    (ha : 0 ≤ amount) (hle : amount ≤ balance) :
    ∃ outcome c', c.draw now key amount = .ok (outcome, c') ∧
      (outcome = .applied balance ∨
        outcome = .missing ∧ ∀ e, c.entries.get? key = some e → ¬now < e.expires) ∧
      Lowered key now (balance - amount) (some c) (some c') := by
  cases hget : c.entries.get? key with
  | none =>
    rw [draw_absent hget, serve_eq hr]
    refine ⟨.missing, c, rfl, .inr ⟨rfl, fun e he => by cases he⟩, ?_, fun _ _ => rfl⟩
    show c.entries.get? key = ((c.entries.get? key).filter _).map _
    rw [hget]
    rfl
  | some e =>
    by_cases hlive : now < e.expires
    · have hread := hreads e hget hlive
      have hfits := (fits_of_readWord? hread).sub ha hle
      rw [draw_live hget hlive hread, serve_eq hr, Word.wrap_eq_self hfits]
      refine ⟨.applied balance, c.put key { e with text := toString (balance - amount) },
        congrArg Except.ok (if_neg (Int.not_lt.mpr hle)), .inl rfl, ?_,
        fun k hk => by rw [entryAt_put, if_neg hk]⟩
      have hentry : entryAt (some c) key = some e := hget
      rw [entryAt_put, if_pos rfl, hentry, filter_isLive hlive]
      rfl
    · rw [draw_expired hget hlive, serve_eq hr]
      refine ⟨.missing, c.drop key, rfl, .inr ⟨rfl, ?_⟩, lowered_drop ?_⟩
      · rintro _ ⟨⟩
        exact hlive
      · intro e' he'
        obtain rfl := Option.some.inj (hget.symm.trans he')
        exact hlive

end Cache

-- ---------------------------------------------------------------------------
-- The balance that counts
-- ---------------------------------------------------------------------------

namespace Books

variable {b b' : Books} {cache : Option Cache} {now : Time} {u v n left : Int}

/-- The balance of a user that lives in the cache, if it can be read. -/
def mirror? (b : Books) (now : Time) (u : Int) : Option Int :=
  ((Cache.entryAt b.cache (AccountKey.userQuota u).text).filter (·.isLive now)).bind fun e =>
    Codec.word.decode e.text

/-- The balance that a request of a user is judged by: what lives in the cache before what is
stored. -/
def balance? (b : Books) (now : Time) (u : Int) : Option Int :=
  (b.mirror? now u).or (b.store.value? .userQuota u)

/-- Nothing fails that a request of the user asks of the books: the store and the cache serve, and
the balance is stored as an integer if there is a row for it. -/
structure Unfailing (b : Books) (u : Int) : Prop where
  sound : b.store.Sound
  serves : ∀ c, b.cache = some c → c.refused = []
  reads : ∃ found, b.store.userQuota? u = .ok found

theorem mirror?_eq_some : b.mirror? now u = some n ↔
    ∃ e, Cache.entryAt b.cache (AccountKey.userQuota u).text = some e ∧ now < e.expires ∧
      Codec.word.decode e.text = some n := by
  simp [mirror?, CacheEntry.isLive, Option.bind_eq_some_iff, Option.filter_eq_some_iff, and_assoc]

theorem hit?_eq_mirror? (h : ∀ c, b.cache = some c → c.refused = []) (now : Time) (u : Int) :
    Cache.hit? .word b.cache now (AccountKey.userQuota u).text = b.mirror? now u := by
  refine Option.ext fun n => ?_
  rw [Cache.hit?_eq_some, mirror?_eq_some]
  constructor
  · rintro ⟨c, e, -, -, he⟩
    exact ⟨e, he⟩
  · rintro ⟨e, hentry, he⟩
    obtain ⟨c, hc, -⟩ := Option.bind_eq_some_iff.mp hentry
    refine ⟨c, e, hc, ?_, hentry, he⟩
    rw [h c hc]
    exact List.not_mem_nil

theorem Unfailing.storedQuota (h : b.Unfailing u) :
    b.storedQuota u = .ok (b.store.value? .userQuota u) := by
  obtain ⟨found, hfound⟩ := h.reads
  have hstored : b.storedQuota u = .ok found := by rw [Books.storedQuota, hfound]; rfl
  rw [hstored]
  refine congrArg Except.ok (Option.ext fun n => ?_)
  rw [← storedQuota_eq_some h.sound, hstored]
  exact ⟨fun heq => congrArg Except.ok heq, Except.ok.inj⟩

theorem Unfailing.userQuota (h : b.Unfailing u) (now : Time) :
    ∃ cache, b.userQuota now u = (.ok (b.balance? now u), b.withCache cache) ∧
      Cache.Filled b.store b.directory.ttl now b.cache cache ∧
      ∀ key, key ≠ (AccountKey.userQuota u).text →
        Cache.entryAt cache key = Cache.entryAt b.cache key := by
  have hanswer : (Cache.fetch .word b.cache now (AccountKey.userQuota u).text b.directory.ttl
      (b.storedQuota u)).1 = .ok (b.balance? now u) := by
    rw [Cache.fetch_fst, hit?_eq_mirror? h.serves, h.storedQuota, balance?]
    cases b.mirror? now u <;> rfl
  refine ⟨_, ?_, Cache.filled_fetch (.userQuota u) b.store b.directory.ttl now b.cache
    (LookupFault.mk .quota), fun key hkey => (Cache.AgreeAt.fetch_other _ _ _ _ _ hkey).entry⟩
  rw [userQuota_eq, hanswer]
  rfl

theorem Unfailing.serves_filled (h : b.Unfailing u)
    (hfilled : Cache.Filled s ttl now b.cache cache) :
    ∀ c, (b.withCache cache).cache = some c → c.refused = [] := by
  intro c hc
  obtain rfl : cache = some c := hc
  obtain ⟨c₀, hc₀, heq⟩ := hfilled.before
  exact heq ▸ h.serves c₀ hc₀

theorem Unfailing.mirror?_filled (h : b.Unfailing u)
    (hfilled : Cache.Filled s ttl now b.cache cache) (hn : b.mirror? now v = some n) :
    (b.withCache cache).mirror? now v = some n := by
  have hhit : Cache.hit? .word b.cache now (AccountKey.userQuota v).text = some n :=
    (hit?_eq_mirror? h.serves now v).trans hn
  have hkept := hfilled.keeps (.userQuota v) (by
    show (Cache.hit? .word _ _ _).isSome = true
    rw [hhit]
    rfl)
  have hcache : (b.withCache cache).cache = cache := rfl
  rw [← hn, mirror?, mirror?, hcache, hkept]

theorem mirror?_lowered
    (h : Cache.Lowered (AccountKey.userQuota u).text now left b.cache b'.cache)
    (hw : Word.Fits left) (hn : b.mirror? now u = some n) : b'.mirror? now u = some left := by
  obtain ⟨e, he, hlive, -⟩ := mirror?_eq_some.mp hn
  refine mirror?_eq_some.mpr ⟨{ e with text := toString left }, ?_, hlive, Codec.decode_word hw⟩
  rw [h.own, he, Cache.filter_isLive hlive]
  rfl

end Books

namespace Ledger

variable {l : Ledger} {b b' : Books} {r : ChargeRequest} {now : Time}
  {u amount paid balance : Int} {trusted : Bool}

-- ---------------------------------------------------------------------------
-- The verdict
-- ---------------------------------------------------------------------------

def Distrusts (l : Ledger) (balance estimated : Int) : Prop :=
  l.rules.trustMultiple = 0 ∨ balance ≤ Word.saturate (estimated * l.rules.trustMultiple)

instance (l : Ledger) (balance estimated : Int) : Decidable (l.Distrusts balance estimated) :=
  inferInstanceAs (Decidable (_ ∨ _))

theorem trusts_eq_decide (l : Ledger) (balance estimated : Int) :
    l.trusts balance estimated = !decide (l.Distrusts balance estimated) := by
  by_cases hzero : l.rules.trustMultiple = 0
  · simp [trusts, Distrusts, hzero]
  · simp [trusts, Distrusts, hzero, Nat.pos_iff_ne_zero, ← decide_not]

def TokenShort (b : Books) (r : ChargeRequest) (amount : Int) : Prop :=
  r.tokenUnlimited = false ∧ (b.store.cell? .tokenQuota r.tokenId).any (·.covers amount) = false

instance (b : Books) (r : ChargeRequest) (amount : Int) : Decidable (TokenShort b r amount) :=
  inferInstanceAs (Decidable (_ ∧ _))

theorem tokenShort_withCache :
    TokenShort (b.withCache cache) r amount ↔ TokenShort b r amount := Iff.rfl

/-- The answer to a request, by the books as they stand. -/
def verdict (l : Ledger) (b : Books) (now : Time) (r : ChargeRequest) :
    Except LedgerError Reservation :=
  match l.prices.price? r.model with
  | none => .error (.priceNotFound r.model)
  | some price =>
    let quote : Quote := ⟨price.inputRatio, price.outputRatio, l.ratios.ratio r.group⟩
    let estimated : Int := quote.estimate r.promptTokens l.rules.preConsumeBuffer
    match b.balance? now r.userId with
    | none => .error (.userNotFound r.userId)
    | some balance =>
      if balance < estimated then .error (.insufficient estimated balance)
      else if l.Distrusts balance estimated ∧ TokenShort b r estimated then
        .error (.tokenInsufficient estimated)
      else .ok {
        hold := {
          requestId := r.requestId, userId := r.userId, tokenId := r.tokenId
          channelId := r.channelId, model := r.model, quote, userReserved := estimated
          tokenReserved := if l.Distrusts balance estimated then estimated else 0 }
        group := r.group, estimated, balanceBefore := balance, state := .reserved }

-- ---------------------------------------------------------------------------
-- Paying
-- ---------------------------------------------------------------------------

theorem reserveToken_short (hs : b.store.Sound) (h : TokenShort b r amount) :
    reserveToken b r amount = .error (.tokenInsufficient amount) := by
  obtain ⟨granted, s, hdraw, hdrawn, -⟩ := Store.drawToken?_spec hs r.tokenId amount
  have hgranted : granted = false := hdrawn.granted_eq.trans h.2
  rw [reserveToken, hdraw, hgranted, h.1]
  rfl

theorem reserveToken_covered (hs : b.store.Sound) (h : ¬TokenShort b r amount) :
    ∃ b', reserveToken b r amount = .ok b' := by
  rw [reserveToken]
  split
  · rw [hs.post?_eq]
    exact ⟨_, rfl⟩
  · next hlimited =>
    obtain ⟨granted, s, hdraw, hdrawn, -⟩ := Store.drawToken?_spec hs r.tokenId amount
    have hgranted : granted = true := hdrawn.granted_eq.trans <| eq_true_of_ne_false
      fun hshort => h ⟨eq_false_of_ne_true hlimited, hshort⟩
    rw [hdraw, hgranted]
    exact ⟨_, rfl⟩

theorem tally_reserveToken (hs : b.store.Sound) (h : reserveToken b r amount = .ok b')
    (hne : ¬(c = .tokenQuota ∧ i = r.tokenId)) : b'.tally c i = b.tally c i := by
  rw [reserveToken] at h
  split at h
  · rw [hs.post?_eq] at h
    cases h
    show Tally.mk ((b.store.post .tokenQuota r.tokenId (-amount)).cell? c i) (b.batch.sum c i) = _
    rw [Store.cell?_post, if_neg hne]
    rfl
  · obtain ⟨granted, s, hdraw, hdrawn, -⟩ := Store.drawToken?_spec hs r.tokenId amount
    rw [hdraw] at h
    cases granted with
    | false => cases h
    | true =>
      cases h
      show Tally.mk (s.cell? c i) (b.batch.sum c i) = _
      rw [hdrawn.cell?, if_neg fun hc => hne ⟨hc.1, hc.2.1⟩]
      rfl

theorem reserveStored_told (hs : b.store.Sound) (ht : b.Told now u balance) (ha : 0 ≤ amount)
    (hle : amount ≤ balance)
    (hdead : ∀ e, Cache.entryAt b.cache (AccountKey.userQuota u).text = some e → ¬now < e.expires)
    (cache : Option Cache) :
    b.store.value? .userQuota u = some balance ∧
      reserveStored (b.withCache cache) u amount =
        .ok ((tryPost { batched := false } b .userQuota u (-amount)).withCache cache) := by
  have hv : b.store.value? .userQuota u = some balance := by
    rcases ht.backed with hv | ⟨e, he, hlive⟩
    · exact hv
    · exact absurd hlive (hdead e he)
  refine ⟨hv, ?_⟩
  rw [reserveStored_covered (b := b.withCache cache) hs hv ha hle, tryPost, post_eq hs]
  rfl

theorem reserveUser_told (hs : b.store.Sound) (hr : ∀ c, b.cache = some c → c.refused = [])
    (ht : b.Told now u balance) (ha : 0 ≤ amount) (hle : amount ≤ balance) :
    ∃ cache batched,
      l.reserveUser b now u amount =
        (.ok (), (tryPost { batched } b .userQuota u (-amount)).withCache cache) ∧
      (batched = l.batched ∨ batched = false ∧ b.store.value? .userQuota u = some balance) ∧
      Cache.Lowered (AccountKey.userQuota u).text now (balance - amount) b.cache cache := by
  unfold reserveUser
  extract_lets stored key
  cases hc : b.cache with
  | none =>
    obtain ⟨hv, hpaid⟩ :=
      reserveStored_told hs ht ha hle (fun e he => by rw [hc] at he; cases he) b.cache
    refine ⟨b.cache, false, ?_, .inr ⟨rfl, hv⟩, ?_⟩
    · simp only [stored]
      rw [show b = b.withCache b.cache from rfl, hpaid]
      rfl
    · rw [hc]
      exact ⟨rfl, fun _ _ => rfl⟩
  | some c =>
    obtain ⟨outcome, c', hdraw, houtcome, hlowered⟩ :=
      Cache.draw_told (hr c hc) (fun e he => ht.reads c e hc (hr c hc) he) ha hle
    dsimp only
    rw [hdraw]
    rcases houtcome with rfl | ⟨rfl, hdead⟩
    · refine ⟨some c', l.batched, ?_, .inl rfl, hlowered⟩
      dsimp only
      rw [post_eq (b := b.withCache (some c')) hs, tryPost, post_eq hs]
      cases l.batched <;> rfl
    · obtain ⟨hv, hpaid⟩ :=
        reserveStored_told hs ht ha hle (fun e he => hdead e (by rw [hc] at he; exact he)) (some c')
      refine ⟨some c', false, ?_, .inr ⟨rfl, hv⟩, hlowered⟩
      simp only [stored, hpaid]

structure TokenPaid (b b' : Books) (r : ChargeRequest) (paid : Int) : Prop where
  token : (r.tokenUnlimited → (b.tally .tokenQuota r.tokenId).Within false (-paid)) →
    ∀ v, b.standing? .tokenQuota r.tokenId = some v →
      b'.standing? .tokenQuota r.tokenId = some (v - paid)
  used : b.store.Takes .tokenQuota r.tokenId (-paid) →
    b'.store.tokenUsed? r.tokenId = (b.store.tokenUsed? r.tokenId).map (· + paid)

structure TokenCharged (b b' : Books) (r : ChargeRequest) (paid : Int) : Prop
    extends TokenPaid b b' r paid where
  sound : b'.store.Sound
  cache : b'.cache = b.cache
  others : ∀ c i, ¬(c = .tokenQuota ∧ i = r.tokenId) → b'.tally c i = b.tally c i

/-- A request has been charged, with `amount` to the user and `paid` to the token, and nothing to
any other counter. The user pays by a single posting, which takes the amount off what is stored
and waiting unless the sum is no word. -/
structure Charges (l : Ledger) (b b' : Books) (r : ChargeRequest) (amount paid : Int) : Prop
    extends TokenPaid b b' r paid where
  posted : ∃ batched : Bool, (batched → l.batched) ∧
    b'.tally .userQuota r.userId = (b.tally .userQuota r.userId).post batched (-amount)
  user : (b.tally .userQuota r.userId).Within l.batched (-amount) →
    ∀ v, b.standing? .userQuota r.userId = some v →
      b'.standing? .userQuota r.userId = some (v - amount)
  others : ∀ c i, ¬(c = .userQuota ∧ i = r.userId) → ¬(c = .tokenQuota ∧ i = r.tokenId) →
    b'.tally c i = b.tally c i

theorem tokenCharged (hs : b.store.Sound) (ha : 0 ≤ amount)
    (h : (if trusted then Except.ok b else reserveToken b r amount) = .ok b') :
    TokenCharged b b' r (if trusted then 0 else amount) := by
  cases trusted with
  | true =>
    cases h
    exact ⟨⟨fun _ v hv => by simpa using hv, fun _ => by simp⟩, hs, rfl, fun _ _ _ => rfl⟩
  | false =>
    have hpaid : reserveToken b r amount = .ok b' := h
    obtain ⟨s, rfl, hs', -, hpost⟩ := reserveToken_ok hs hpaid
    show TokenCharged b (b.withStore s) r amount
    refine ⟨⟨fun hw v hv => (taken_reserveToken hs hpaid ha hw).own v hv, fun htakes => ?_⟩, hs',
      rfl, fun c i hne => tally_reserveToken hs hpaid hne⟩
    show s.tokenUsed? r.tokenId = _
    rw [hpost htakes, Store.post_eq_moved htakes, Store.tokenUsed?_moved]
    simp [Amounts.single]

theorem TokenCharged.told (h : TokenCharged b b' r paid) (ht : b.Told now u balance) :
    b'.Told now u balance := by
  have hv : b'.store.value? .userQuota u = b.store.value? .userQuota u :=
    congrArg (fun t => t.cell.bind Cell.int?) (h.others .userQuota u (by simp))
  refine ⟨?_, ?_⟩
  · rw [hv, h.cache]
    exact ht.backed
  · rw [h.cache]
    exact ht.reads

theorem pay_told (hs : b.store.Sound) (hr : ∀ c, b.cache = some c → c.refused = [])
    (ht : b.Told now r.userId balance) (ha : 0 ≤ amount) (hle : amount ≤ balance) :
    (l.pay b now r trusted amount).1 =
      if trusted = false ∧ TokenShort b r amount then .error (.tokenInsufficient amount)
      else .ok () := by
  have huser {b₂ : Books}
      (hpaid : (if trusted then Except.ok b else reserveToken b r amount) = .ok b₂) :
      (l.reserveUser b₂ now r.userId amount).1 = .ok () := by
    have htoken := tokenCharged hs ha hpaid
    obtain ⟨cache, batched, hanswer, -⟩ := reserveUser_told (l := l) htoken.sound
      (fun c hc => hr c (htoken.cache ▸ hc)) (htoken.told ht) ha hle
    rw [hanswer]
  rw [pay_answer]
  by_cases hshort : trusted = false ∧ TokenShort b r amount
  · rw [if_pos hshort, hshort.1, if_neg Bool.false_ne_true, reserveToken_short hs hshort.2]
    rfl
  · have hpaid : ∃ b₂, (if trusted then Except.ok b else reserveToken b r amount) = .ok b₂ := by
      cases trusted with
      | true => exact ⟨b, rfl⟩
      | false => exact reserveToken_covered hs fun h => hshort ⟨rfl, h⟩
    obtain ⟨b₂, hpaid⟩ := hpaid
    rw [if_neg hshort, hpaid]
    exact huser hpaid

theorem within_covered (hs : b.store.Sound) (hv : b.store.value? c i = some balance)
    (ha : 0 ≤ amount) (hle : amount ≤ balance) : (b.tally c i).Within false (-amount) := by
  rw [Tally.Within, if_neg Bool.false_ne_true]
  intro n hn
  obtain rfl : balance = n := Option.some.inj (hv.symm.trans (Store.value?_eq_some.mpr hn))
  exact Int.sub_eq_add_neg ▸ (hs.fits hv).sub ha hle

theorem tokenUsed?_tryPost (hs : b.store.Sound) (u delta t : Int) :
    (l.tryPost b .userQuota u delta).store.tokenUsed? t = b.store.tokenUsed? t := by
  rw [tryPost, post_eq hs]
  cases l.batched <;> rfl

theorem charges_pay (hs : b.store.Sound) (hr : ∀ c, b.cache = some c → c.refused = [])
    (ht : b.Told now r.userId balance) (ha : 0 ≤ amount) (hle : amount ≤ balance)
    (h : l.pay b now r trusted amount = (.ok (), b')) :
    l.Charges b b' r amount (if trusted then 0 else amount) ∧
      Cache.Lowered (AccountKey.userQuota r.userId).text now (balance - amount) b.cache
        b'.cache := by
  unfold pay at h
  cases hpaid : if trusted then Except.ok b else reserveToken b r amount with
  | error e =>
    rw [hpaid] at h
    cases h
  | ok b₂ =>
    rw [hpaid] at h
    have htoken := tokenCharged hs ha hpaid
    obtain ⟨cache, batched, hanswer, hbatched, hlowered⟩ := reserveUser_told (l := l)
      htoken.sound (fun c hc => hr c (htoken.cache ▸ hc)) (htoken.told ht) ha hle
    dsimp only at h
    rw [hanswer] at h
    obtain ⟨-, rfl⟩ := Prod.mk.inj h
    -- The user pays by one posting, which no other counter notices.
    have htally (c : Counter) (i : Int) :
        ((tryPost { batched } b₂ .userQuota r.userId (-amount)).withCache cache).tally c i =
          if c = .userQuota ∧ i = r.userId then (b₂.tally c i).post batched (-amount)
          else b₂.tally c i := by
      refine (tally_tryPost htoken.sound .userQuota r.userId (-amount) c i).trans ?_
      split
      · next hc => rw [hc.1, hc.2]
      · rfl
    have hown := htoken.others .userQuota r.userId (by simp)
    have hused := tokenUsed?_tryPost (l := { batched }) htoken.sound r.userId (-amount) r.tokenId
    refine ⟨⟨⟨fun hw v hv => ?_, fun ht => hused.trans (htoken.used ht)⟩, ⟨batched, ?_, ?_⟩,
      fun hw v hv => ?_, fun c i hu ht => ?_⟩, htoken.cache ▸ hlowered⟩
    · rw [Books.standing?, htally, if_neg (by simp)]
      exact htoken.token hw v hv
    · rcases hbatched with rfl | ⟨rfl, -⟩
      · exact id
      · exact fun h => absurd h Bool.false_ne_true
    · rw [htally, if_pos ⟨rfl, rfl⟩, hown]
    · have hwithin : (b₂.tally .userQuota r.userId).Within batched (-amount) := by
        rcases hbatched with rfl | ⟨rfl, hvalue⟩
        · exact hown ▸ hw
        · exact within_covered htoken.sound hvalue ha hle
      rw [Books.standing?, htally, if_pos ⟨rfl, rfl⟩, Int.sub_eq_add_neg]
      exact Tally.standing?_post hwithin (hown ▸ hv)
    · rw [htally, if_neg hu]
      exact htoken.others c i ht

-- ---------------------------------------------------------------------------
-- The answer and its effect
-- ---------------------------------------------------------------------------

/-- Books that a refused request leaves: nothing was written, and the cache at most filled where
it could not be read. -/
structure Spared (b b' : Books) (now : Time) : Prop where
  books : b' = b.withCache b'.cache
  filled : Cache.Filled b.store b.directory.ttl now b.cache b'.cache
  mirror : ∀ u n, b.mirror? now u = some n → b'.mirror? now u = some n

/-- Books that a granted request leaves. The balance in the cache is lowered with the one that is
stored, and what was read into the cache only now is lowered as well. -/
structure Granted (l : Ledger) (b b' : Books) (now : Time) (r : ChargeRequest) (g : Reservation) :
    Prop where
  charges : l.Charges b b' r g.estimated g.hold.tokenReserved
  mirror : ∀ n, b.mirror? now r.userId = some n → b'.mirror? now r.userId = some (n - g.estimated)
  left : ∀ e, Cache.entryAt b'.cache (AccountKey.userQuota r.userId).text = some e →
    e.text = toString (g.balanceBefore - g.estimated)
  others : ∀ key, key ≠ (AccountKey.userQuota r.userId).text →
    Cache.entryAt b'.cache key = Cache.entryAt b.cache key

theorem reserve_answer (l : Ledger) (now : Time) (h : b.Unfailing r.userId) :
    (l.reserve b now r).1 = l.verdict b now r := by
  rw [reserve_eq, verdict, quote]
  cases l.prices.price? r.model with
  | none => rfl
  | some price =>
  obtain ⟨cache, hlook, hfilled, -⟩ := h.userQuota now
  dsimp only
  rw [hlook]
  cases hbalance : b.balance? now r.userId with
  | none => rfl
  | some balance =>
  rw [hbalance] at hlook
  dsimp only
  split
  · rfl
  · next hcover =>
    rw [pay_told (b := b.withCache cache) h.sound (h.serves_filled hfilled)
      (Books.told_userQuota h.sound hlook) (Int.natCast_nonneg _) (Int.not_lt.mp hcover),
      trusts_eq_decide]
    generalize (Nat.cast (Quote.estimate _ _ _) : Int) = estimated
    by_cases hd : l.Distrusts balance estimated
    · by_cases ht : TokenShort b r estimated <;>
        simp [hd, ht, tokenShort_withCache, Except.map]
    · simp [hd, Except.map]

theorem spared_reserve (h : b.Unfailing r.userId) (hv : l.verdict b now r = .error e) :
    Spared b (l.reserve b now r).2 now := by
  have hanswer := (reserve_answer l now h).trans hv
  generalize hp : l.reserve b now r = p at hanswer ⊢
  obtain ⟨answer, b'⟩ := p
  obtain rfl : answer = .error e := hanswer
  obtain ⟨cache, rfl, hfilled⟩ :=
    refused_reserve h.sound (fun c hc hne => absurd (h.serves c hc) hne) hp
  exact ⟨rfl, hfilled, fun u n hn => h.mirror?_filled hfilled hn⟩

theorem granted_reserve (h : b.Unfailing r.userId) (hv : l.verdict b now r = .ok g) :
    l.Granted b (l.reserve b now r).2 now r g := by
  have hanswer := (reserve_answer l now h).trans hv
  obtain ⟨cache, hlook, hfilled, hothers⟩ := h.userQuota now
  revert hanswer
  rw [reserve_eq]
  cases l.quote r.group r.model with
  | error e => nofun
  | ok quote =>
  dsimp only
  rw [hlook]
  cases hbalance : b.balance? now r.userId with
  | none => nofun
  | some balance =>
  rw [hbalance] at hlook
  dsimp only
  split
  · nofun
  next hcover =>
  have hle := Int.not_lt.mp hcover
  have htold := Books.told_userQuota h.sound hlook
  rcases hpay : l.pay (b.withCache cache) now r
      (l.trusts balance (quote.estimate r.promptTokens l.rules.preConsumeBuffer))
      (quote.estimate r.promptTokens l.rules.preConsumeBuffer) with
    ⟨e | _, b'⟩
  · nofun
  rintro ⟨⟩
  obtain ⟨hcharges, hlowered⟩ := charges_pay (b := b.withCache cache) h.sound
    (h.serves_filled hfilled) htold (Int.natCast_nonneg _) hle hpay
  refine ⟨⟨⟨hcharges.token, hcharges.used⟩, hcharges.posted, hcharges.user, hcharges.others⟩,
    fun n hn => ?_, fun e he => hlowered.text_eq he,
    fun key hkey => (hlowered.others key hkey).trans (hothers key hkey)⟩
  obtain rfl : n = balance := by
    rw [Books.balance?, hn] at hbalance
    exact Option.some.inj hbalance
  obtain ⟨e, -, -, hdecode⟩ := Books.mirror?_eq_some.mp hn
  have hfits := fits_of_readWord? (readWord?_of_decode hdecode)
  exact Books.mirror?_lowered hlowered (hfits.sub (Int.natCast_nonneg _) hle)
    (h.mirror?_filled hfilled hn)

/-- A request is answered by the first check that it fails, whatever the cache holds and for
however long. If it passes them all it is charged once and exactly, and otherwise not at all. -/
theorem reserve_decided (l : Ledger) (now : Time) (h : b.Unfailing r.userId) :
    (l.reserve b now r).1 = l.verdict b now r ∧
      (∀ e, l.verdict b now r = .error e → Spared b (l.reserve b now r).2 now) ∧
      ∀ g, l.verdict b now r = .ok g → l.Granted b (l.reserve b now r).2 now r g :=
  ⟨reserve_answer l now h, fun _ hv => spared_reserve h hv, fun _ hv => granted_reserve h hv⟩

/-- Books of the sole desk with a balance in the cache that a draw could read, and a lookup
cannot. -/
def signedBooks : Books where
  directory := {
    store := Desk.soleDesk.books.store
    cache := some (({} : Cache).put (AccountKey.userQuota 1).text ⟨"+5", 60⟩)
    ttl := 60 }

theorem unfailing_signedBooks : signedBooks.Unfailing 1 where
  sound := Desk.sole_opening.sound
  serves := by rintro _ ⟨⟩; rfl
  reads := ⟨some Word.greatest, rfl⟩

theorem signed_verdict :
    Desk.soleDesk.gateway.ledger.verdict signedBooks 0 Desk.soleRequest =
      .ok Desk.soleReservation := by
  have hle := Desk.soleQuote.estimate_le 10 500
  have hbalance : signedBooks.balance? 0 1 = some Word.greatest := rfl
  have hshort : ¬TokenShort signedBooks Desk.soleRequest (Desk.soleQuote.estimate 10 500) := by
    rintro ⟨-, hcovers⟩
    have hcovers : decide ((Desk.soleQuote.estimate 10 500 : Int) ≤ Word.greatest) = false :=
      hcovers
    exact of_decide_eq_false hcovers hle
  have hprice : Desk.soleDesk.gateway.ledger.prices.price? Desk.soleRequest.model =
      some ⟨1, 2⟩ := rfl
  rw [verdict, hprice]
  dsimp only
  rw [show signedBooks.balance? 0 Desk.soleRequest.userId = _ from hbalance]
  exact (if_neg (Int.not_lt.mpr hle)).trans (if_neg fun h => hshort h.2)

/-- The user is judged by what is stored, and pays by a posting that waits. -/
theorem reserve_decided_signed :
    let paid := Desk.soleDesk.gateway.ledger.reserve signedBooks 0 Desk.soleRequest
    signedBooks.Unfailing 1 ∧ paid.1 = .ok Desk.soleReservation ∧
      paid.2.standing? .userQuota 1 =
        some (Word.greatest - (Desk.soleQuote.estimate 10 500 : Int)) := by
  intro paid
  obtain ⟨hanswer, -, hgranted⟩ := reserve_decided (r := Desk.soleRequest)
    Desk.soleDesk.gateway.ledger 0 unfailing_signedBooks
  refine ⟨unfailing_signedBooks, hanswer.trans signed_verdict, ?_⟩
  refine (hgranted _ signed_verdict).charges.user ?_ Word.greatest rfl
  have hle := Desk.soleQuote.estimate_le 10 500
  show Word.Fits (0 + -(Desk.soleQuote.estimate 10 500 : Int))
  simp only [Word.Fits, Word.least, Word.greatest] at hle ⊢
  omega

end Ledger

end Tollgate
