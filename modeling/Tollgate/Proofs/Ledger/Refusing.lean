import Tollgate.Proofs.Cache.Filling
import Tollgate.Proofs.Ledger.Paying

/-!
# A refused reservation

A reservation that is refused leaves the books as they were but for what the
lookup of the balance put into the cache (`refused_reserve`). A balance that
was looked up is one that can be drawn, unless the cache fails in between;
then the token has paid already, and is paid back.
-/

namespace Tollgate

-- ---------------------------------------------------------------------------
-- Draws
-- ---------------------------------------------------------------------------

namespace Cache

variable {c c' : Cache} {now : Time} {key : String} {amount : Int}

theorem draw_spec (c : Cache) (now : Time) (key : String) (amount : Int) :
    match c.draw now key amount with
    | .error _ => CacheVerb.draw ∈ c.refused ∨
        ∃ e, c.entries.get? key = some e ∧ now < e.expires ∧ readWord? e.text = none
    | .ok (.missing, _) => ∀ e, c.entries.get? key = some e → ¬now < e.expires
    | .ok (.insufficient n, c') => c' = c ∧ n < amount ∧
        ∃ e, c.entries.get? key = some e ∧ now < e.expires ∧ readWord? e.text = some n
    | .ok (.applied _, _) => True := by
  by_cases hdraw : CacheVerb.draw ∈ c.refused
  · rw [draw, serve, if_pos hdraw]
    exact .inl hdraw
  · have hserve : c.serve .draw = .ok () := if_neg hdraw
    cases hget : c.entries.get? key with
    | none =>
      rw [draw_absent hget, hserve]
      intro e he
      cases he
    | some e =>
      by_cases hlive : now < e.expires
      · cases hword : readWord? e.text with
        | none =>
          rw [draw_unread hget hlive hword, hserve]
          exact .inr ⟨e, rfl, hlive, hword⟩
        | some n =>
          rw [draw_live hget hlive hword, hserve, Except.map]
          by_cases hless : n < amount
          · rw [if_pos hless]
            exact ⟨rfl, hless, e, rfl, hlive, hword⟩
          · rw [if_neg hless]
            trivial
      · rw [draw_expired hget hlive, hserve]
        rintro _ ⟨⟩
        exact hlive

theorem AgreeAt.draw (h : AgreeAt key (some c) (some c')) (now : Time) (amount : Int) :
    (c'.draw now key amount).map Prod.fst = (c.draw now key amount).map Prod.fst := by
  have hrefused : c'.refused = c.refused := Option.some.inj h.refused
  have hentry : c'.entries.get? key = c.entries.get? key := h.entry
  have hserve : c'.serve .draw = c.serve .draw := by rw [serve, serve, hrefused]
  cases hget : c.entries.get? key with
  | none =>
    rw [draw_absent hget, draw_absent (hentry.trans hget), hserve]
    cases c.serve .draw <;> rfl
  | some e =>
    have hget' := hentry.trans hget
    by_cases hlive : now < e.expires
    · cases hword : readWord? e.text with
      | none =>
        rw [draw_unread hget hlive hword, draw_unread hget' hlive hword, hserve]
      | some n =>
        rw [draw_live hget hlive hword, draw_live hget' hlive hword, hserve]
        cases c.serve .draw with
        | error f => rfl
        | ok _ => by_cases hless : n < amount <;> simp [hless, Except.map]
    · rw [draw_expired hget hlive, draw_expired hget' hlive, hserve]
      cases c.serve .draw <;> rfl

end Cache

-- ---------------------------------------------------------------------------
-- A balance that was looked up
-- ---------------------------------------------------------------------------

namespace Books

variable {b b' : Books} {now : Time} {u balance : Int}

/-- What is known of a balance once it has been looked up: if it was not in the cache it is in the
store, and a cache that serves holds no other. -/
structure Told (b : Books) (now : Time) (u balance : Int) : Prop where
  backed : b.store.value? .userQuota u = some balance ∨
    ∃ e, Cache.entryAt b.cache (AccountKey.userQuota u).text = some e ∧ now < e.expires
  reads : ∀ c e, b.cache = some c → c.refused = [] →
    c.entries.get? (AccountKey.userQuota u).text = some e → now < e.expires →
      readWord? e.text = some balance

theorem told_userQuota (hs : b.store.Sound)
    (h : b.userQuota now u = (.ok (some balance), b')) : b'.Told now u balance := by
  rw [userQuota_eq] at h
  obtain ⟨hanswer, rfl⟩ := Prod.mk.inj h
  rw [Cache.fetch_fst] at hanswer
  unfold Cache.fetch
  cases hhit : Cache.hit? .word b.cache now (AccountKey.userQuota u).text with
  | some v =>
    rw [hhit] at hanswer
    cases hanswer
    obtain ⟨c, e, hc, -, he, hlive, hdecode⟩ := Cache.hit?_eq_some.mp hhit
    refine ⟨.inr ⟨e, he, hlive⟩, fun c' e' hc' _ he' _ => ?_⟩
    obtain rfl := Option.some.inj (hc.symm.trans hc')
    have he : c.entries.get? (AccountKey.userQuota u).text = some e := by
      rw [hc] at he
      exact he
    obtain rfl := Option.some.inj (he.symm.trans he')
    exact readWord?_of_decode hdecode
  | none =>
    rw [hhit] at hanswer
    have hstored : b.storedQuota u = .ok (some balance) := hanswer
    have hvalue := (storedQuota_eq_some hs).mp hstored
    rw [hstored]
    refine ⟨.inl hvalue, fun c e hc hr he _ => ?_⟩
    -- A cache that serves has been told the balance by this lookup.
    cases hcache : b.cache with
    | none =>
      rw [hcache] at hc
      cases hc
    | some c₀ =>
      rw [hcache] at hc
      dsimp only at hc
      rw [Cache.remember_some] at hc
      obtain rfl := Option.some.inj hc
      by_cases hset : CacheVerb.set ∈ c₀.refused
      · rw [if_pos hset] at hr
        rw [hr] at hset
        cases hset
      · rw [if_neg hset, Cache.put, Dict.get?_set, if_pos rfl] at he
        cases he
        rw [Codec.encode_word]
        exact readWord?_toString (hs.fits hvalue)

theorem store_withCache (b : Books) (cache : Option Cache) :
    (b.withCache cache).store = b.store := rfl

theorem cache_withCache (b : Books) (cache : Option Cache) :
    (b.withCache cache).cache = cache := rfl

theorem filled_userQuota (h : b.userQuota now u = (answer, b')) :
    ∃ cache, b' = b.withCache cache ∧
      Cache.Filled b.store b.directory.ttl now b.cache cache := by
  rw [userQuota_eq] at h
  obtain ⟨-, rfl⟩ := Prod.mk.inj h
  exact ⟨_, rfl, Cache.filled_fetch (.userQuota u) b.store b.directory.ttl now b.cache _⟩

theorem Told.withStore (h : b.Told now u balance)
    (hv : s.value? .userQuota u = b.store.value? .userQuota u) :
    (b.withStore s).Told now u balance :=
  ⟨h.backed.imp_left hv.trans, h.reads⟩

end Books

namespace Ledger

variable {l : Ledger} {b b' : Books} {r : ChargeRequest} {now : Time} {u balance amount : Int}
  {e : LedgerError}

theorem reserveStored_covered (hs : b.store.Sound)
    (hv : b.store.value? .userQuota u = some balance) (ha : 0 ≤ amount) (hle : amount ≤ balance) :
    reserveStored b u amount = .ok (b.withStore (b.store.post .userQuota u (-amount))) := by
  rw [reserveStored, Store.drawUser?_eq_post hs hv ha hle]

theorem reserveStored_short (hs : b.store.Sound)
    (hv : b.store.value? .userQuota u = some balance) (ha : 0 ≤ amount) (hlt : balance < amount) :
    reserveStored b u amount = .error (.insufficient amount balance) := by
  obtain ⟨granted, s, hdraw, hdrawn, -⟩ := Store.drawUser?_spec hs u amount
  have hgranted : granted = false := by
    rw [(hdrawn.value? hv (hs.fits hv) ha).1]
    exact decide_eq_false (Int.not_le.mpr hlt)
  rw [reserveStored, hdraw, hgranted]
  dsimp only
  rw [(Store.userQuota?_eq_some hs).mpr hv]

theorem refused_reserveUser (hs : b.store.Sound) (ht : b.Told now u balance) (ha : 0 ≤ amount)
    (hle : amount ≤ balance) (h : l.reserveUser b now u amount = (.error e, b')) :
    b' = b ∧ ∃ c, b.cache = some c ∧ c.refused ≠ [] := by
  unfold reserveUser at h
  extract_lets stored key at h
  -- The store refuses no balance of its own.
  have hlives (cache : Option Cache) (h : stored (b.withCache cache) = (.error e, b')) :
      b' = b.withCache cache ∧
        ∃ c entry, b.cache = some c ∧ c.entries.get? key = some entry ∧ now < entry.expires := by
    simp only [stored] at h
    rcases ht.backed with hv | ⟨entry, hentry, hlive⟩
    · rw [reserveStored_covered (b := b.withCache cache) hs hv ha hle] at h
      cases h
    · obtain ⟨c, hc, hget⟩ := Option.bind_eq_some_iff.mp hentry
      split at h
      · cases h
      · cases h
        exact ⟨rfl, c, entry, hc, hget, hlive⟩
  have hsame {c : Cache} (hc : b.cache = some c) : b.withCache (some c) = b := by
    rw [← hc]
    rfl
  split at h
  · next hc =>
    obtain ⟨-, c, entry, hc', -⟩ := hlives b.cache h
    rw [hc] at hc'
    cases hc'
  next c hc =>
  have hdraw := c.draw_spec now key amount
  split at h
  · next f heq =>
    obtain ⟨rfl, c', entry, hc', hget, hlive⟩ := hlives b.cache h
    obtain rfl := Option.some.inj (hc.symm.trans hc')
    refine ⟨rfl, c, hc, fun hr => ?_⟩
    rw [heq] at hdraw
    rcases hdraw with hrefused | ⟨entry', hget', -, hread⟩
    · rw [hr] at hrefused
      cases hrefused
    · obtain rfl := Option.some.inj (hget.symm.trans hget')
      rw [ht.reads c entry hc hr hget hlive] at hread
      cases hread
  · next heq =>
    obtain ⟨-, c', entry, hc', hget, hlive⟩ := hlives _ h
    obtain rfl := Option.some.inj (hc.symm.trans hc')
    rw [heq] at hdraw
    exact absurd hlive (hdraw entry hget)
  · next n c' heq =>
    rw [heq] at hdraw
    obtain ⟨rfl, hless, entry, hget, hlive, hread⟩ := hdraw
    cases h
    refine ⟨hsame hc, c', hc, fun hr => ?_⟩
    rw [ht.reads c' entry hc hr hget hlive] at hread
    obtain rfl := Option.some.inj hread
    omega
  · next n c' _ =>
    rw [post_eq (b := b.withCache (some c')) hs] at h
    cases h

-- ---------------------------------------------------------------------------
-- Paying back
-- ---------------------------------------------------------------------------

/-- What a token has paid can be paid back to the last unit. -/
def Repayable (s : Store) (tokenId amount : Int) : Prop :=
  s.Takes .tokenQuota tokenId 0 ∧ s.Takes .tokenQuota tokenId (-amount)

theorem restoreToken_post (hs : b.store.Sound) (ha : 0 ≤ amount)
    (h : Repayable b.store tokenId amount) :
    restoreToken (b.withStore (b.store.post .tokenQuota tokenId (-amount))) tokenId amount = b := by
  obtain ⟨hzero, htakes⟩ := h
  rw [restoreToken]
  split
  · have hback := Store.post_post_neg htakes hzero
    have hpost := (hs.post .tokenQuota tokenId (-amount)).post?_eq .tokenQuota tokenId amount
    rw [Int.neg_neg] at hback
    rw [hback] at hpost
    show (((b.store.post .tokenQuota tokenId (-amount)).post? .tokenQuota tokenId amount).map
      _).toOption.getD _ = b
    rw [hpost]
    rfl
  · obtain rfl : amount = 0 := by omega
    rw [Int.neg_zero, Store.post_zero hzero]
    rfl

theorem refused_pay (hs : b.store.Sound) (ht : b.Told now r.userId balance) (ha : 0 ≤ amount)
    (hle : amount ≤ balance)
    (hback : ∀ c, b.cache = some c → c.refused ≠ [] → Repayable b.store r.tokenId amount)
    (h : l.pay b now r trusted amount = (.error e, b')) : b' = b := by
  unfold pay at h
  cases trusted with
  | true =>
    simp only [if_true] at h
    split at h
    · next huser =>
      cases h
      obtain ⟨rfl, -⟩ := refused_reserveUser hs ht ha hle huser
      rfl
    · cases h
  | false =>
    simp only [Bool.false_eq_true, if_false] at h
    cases htoken : reserveToken b r amount with
    | error e =>
      rw [htoken] at h
      cases h
      rfl
    | ok b₂ =>
      rw [htoken] at h
      dsimp only at h
      split at h
      · next huser =>
        cases h
        obtain ⟨s, rfl, hs', hv, hpost⟩ := reserveToken_ok hs htoken
        obtain ⟨rfl, c, hc, hrefused⟩ :=
          refused_reserveUser (b := b.withStore s) hs' (ht.withStore (hv _)) ha hle huser
        have hrepay := hback c hc hrefused
        rw [hpost hrepay.2]
        exact restoreToken_post hs ha hrepay
      · cases h

/-- A request that is refused has changed nothing but what the lookup of the balance filled in. -/
theorem refused_reserve (hs : b.store.Sound)
    (hback : ∀ c, b.cache = some c → c.refused ≠ [] → ∀ quote,
      l.quote r.group r.model = .ok quote →
        Repayable b.store r.tokenId (quote.estimate r.promptTokens l.rules.preConsumeBuffer))
    (h : l.reserve b now r = (.error e, b')) :
    ∃ cache, b' = b.withCache cache ∧
      Cache.Filled b.store b.directory.ttl now b.cache cache := by
  rw [reserve_eq] at h
  split at h
  · cases h
    exact ⟨b.cache, rfl, .refl ..⟩
  next quote hquote =>
  extract_lets estimated at h
  rcases hfound : b.userQuota now r.userId with ⟨found, b₁⟩
  obtain ⟨cache, rfl, hfilled⟩ := Books.filled_userQuota hfound
  rw [hfound] at h
  match found with
  | .error f =>
    cases h
    exact ⟨cache, rfl, hfilled⟩
  | .ok none =>
    cases h
    exact ⟨cache, rfl, hfilled⟩
  | .ok (some balance) =>
    dsimp only at h
    split at h
    · cases h
      exact ⟨cache, rfl, hfilled⟩
    · next hcover =>
      obtain ⟨hanswer, rfl⟩ := Prod.mk.inj h
      rcases hpay : l.pay (b.withCache cache) now r (l.trusts balance estimated) estimated with
        ⟨e' | _, b₂⟩
      · refine ⟨cache, ?_, hfilled⟩
        refine refused_pay (b := b.withCache cache) hs (Books.told_userQuota hs hfound)
          (Int.natCast_nonneg _) (by omega) (fun c hc hrefused => ?_) hpay
        -- The cache fails after the lookup as it did before.
        obtain rfl : cache = some c := hc
        obtain ⟨c₀, hc₀, heq⟩ := hfilled.before
        exact hback c₀ hc₀ (heq ▸ hrefused) quote hquote
      · rw [hpay] at hanswer
        cases hanswer

-- ---------------------------------------------------------------------------
-- What an answer depends on
-- ---------------------------------------------------------------------------

theorem reserveToken_withCache (b : Books) (cache : Option Cache) (r : ChargeRequest)
    (amount : Int) :
    reserveToken (b.withCache cache) r amount =
      (reserveToken b r amount).map (·.withCache cache) := by
  unfold reserveToken
  rw [Books.store_withCache]
  split
  · cases b.store.post? .tokenQuota r.tokenId (-amount) <;> rfl
  · rcases b.store.drawToken? r.tokenId amount with f | ⟨granted, s⟩
    · rfl
    · cases granted <;> rfl

theorem reserveStored_withCache (b : Books) (cache : Option Cache) (u amount : Int) :
    reserveStored (b.withCache cache) u amount =
      (reserveStored b u amount).map (·.withCache cache) := by
  unfold reserveStored
  rw [Books.store_withCache]
  rcases b.store.drawUser? u amount with f | ⟨granted, s⟩
  · rfl
  · cases granted with
    | true => rfl
    | false => rcases b.store.userQuota? u with f | (_ | available) <;> rfl

theorem post_withCache (l : Ledger) (b : Books) (cache : Option Cache) (c : Counter)
    (i delta : Int) :
    l.post (b.withCache cache) c i delta = (l.post b c i delta).map (·.withCache cache) := by
  unfold post
  rw [Books.store_withCache]
  split
  · rfl
  · cases b.store.post? c i delta <;> rfl

theorem reserveUser_congr
    (h : Cache.AgreeAt (AccountKey.userQuota u).text cache cache') :
    (l.reserveUser (b.withCache cache') now u amount).1 =
      (l.reserveUser (b.withCache cache) now u amount).1 := by
  unfold reserveUser
  extract_lets stored key
  have hstored (b : Books) (cache cache' : Option Cache) :
      (stored (b.withCache cache')).1 = (stored (b.withCache cache)).1 := by
    simp only [stored, reserveStored_withCache]
    cases reserveStored b u amount <;> rfl
  have hrefused := h.refused
  rw [Books.cache_withCache, Books.cache_withCache]
  cases cache <;> cases cache' <;> simp at hrefused
  · exact hstored b _ _
  · next c c' =>
    have hdraw : (c'.draw now key amount).map Prod.fst = (c.draw now key amount).map Prod.fst :=
      h.draw now amount
    dsimp only
    generalize c.draw now key amount = drawn at hdraw ⊢
    generalize c'.draw now key amount = drawn' at hdraw ⊢
    rcases drawn with f | ⟨outcome, c₁⟩ <;> rcases drawn' with f' | ⟨outcome', c₁'⟩ <;>
      simp only [Except.map, Except.ok.injEq, reduceCtorEq] at hdraw
    · exact hstored b _ _
    · subst hdraw
      cases outcome' with
      | missing => exact hstored b _ _
      | insufficient n => rfl
      | applied n =>
        simp only [post_withCache]
        cases l.post b .userQuota u (-amount) <;> rfl

theorem pay_congr (h : Cache.AgreeAt (AccountKey.userQuota r.userId).text cache cache') :
    (l.pay (b.withCache cache') now r trusted amount).1 =
      (l.pay (b.withCache cache) now r trusted amount).1 := by
  have huser (b : Books) : (l.reserveUser (b.withCache cache') now r.userId amount).1 =
      (l.reserveUser (b.withCache cache) now r.userId amount).1 := reserveUser_congr h
  have hpaid (cache : Option Cache) :
      (if trusted then .ok (b.withCache cache) else reserveToken (b.withCache cache) r amount) =
        (if trusted then .ok b else reserveToken b r amount).map (·.withCache cache) := by
    rw [reserveToken_withCache]
    cases trusted <;> rfl
  rw [pay_answer, pay_answer, hpaid, hpaid]
  cases if trusted then .ok b else reserveToken b r amount with
  | error e => rfl
  | ok b₁ => exact huser b₁

/-- Books that differ in the cache alone, and not about the balance of the user, answer a request
alike. -/
theorem reserve_congr (h : Cache.AgreeAt (AccountKey.userQuota r.userId).text b.cache cache) :
    (l.reserve (b.withCache cache) now r).1 = (l.reserve b now r).1 := by
  rw [reserve_eq, reserve_eq]
  cases l.quote r.group r.model with
  | error e => rfl
  | ok quote =>
    obtain ⟨hanswer, hagree⟩ := h.fetch .word now b.directory.ttl (b.storedQuota r.userId)
    have hleft : (b.withCache cache).userQuota now r.userId =
        ((Cache.fetch .word cache now (AccountKey.userQuota r.userId).text b.directory.ttl
            (b.storedQuota r.userId)).1,
          b.withCache (Cache.fetch .word cache now (AccountKey.userQuota r.userId).text
            b.directory.ttl (b.storedQuota r.userId)).2) := rfl
    dsimp only
    rw [hleft, Books.userQuota_eq, hanswer]
    generalize (Cache.fetch .word b.cache now _ _ _).2 = cache₁ at hagree ⊢
    generalize (Cache.fetch .word cache now _ _ _).2 = cache₁' at hagree ⊢
    rcases (Cache.fetch .word b.cache now _ _ _).1 with f | (_ | balance)
    · rfl
    · rfl
    · dsimp only
      split
      · rfl
      · exact congrArg (Except.map _) (pay_congr hagree)

end Ledger

end Tollgate
