import Tollgate.Proofs.Ledger.Paying
import Tollgate.Proofs.Ledger.Reserving
import Tollgate.Proofs.Store.Accounts

/-!
# What charges leave alone

A charge moves the two counters of a token. Whose the token is, under which
key and with what limits, are its terms, and stay as they are; nor do charges
bring copies of tokens into the cache (`Steady`). Where a token has to pay in
advance it covers the payment in the store, whatever a copy says
(`covered_reserve`).
-/

namespace Tollgate

def TokenRow.terms (r : TokenRow) : TokenRow :=
  { r with remainQuota := .int 0, usedQuota := .int 0 }

namespace Store

variable {s s' : Store} {key : String} {r : TokenRow}

def terms (s : Store) : List TokenRow := s.tokens.rows.map TokenRow.terms

theorem tokenRowByKey?_of_terms (h : s'.terms = s.terms) (hr : s.tokenRowByKey? key = some r) :
    ∃ r', s'.tokenRowByKey? key = some r' ∧ r'.terms = r.terms := by
  have hfind (t : Store) :
      (t.tokenRowByKey? key).map TokenRow.terms = t.terms.find? fun r => r.key = key := by
    rw [terms, List.find?_map]
    rfl
  have hmap : (s'.tokenRowByKey? key).map TokenRow.terms = some r.terms := by
    rw [hfind, h, ← hfind, hr]
    rfl
  obtain ⟨r', hr', hterms⟩ := Option.map_eq_some_iff.mp hmap
  exact ⟨r', hr', hterms⟩

theorem tokenByKey?_eq_ok (h : s.tokenByKey? key = .ok (some t)) :
    ∃ r, s.tokenRowByKey? key = some r ∧ r.id = t.id ∧ r.unlimited = t.unlimited ∧
      r.remainQuota = .int t.remainQuota := by
  rw [tokenByKey?, bind_eq_ok] at h
  obtain ⟨-, -, h⟩ := h
  split at h
  · cases h
  · next r hr =>
    simp only [TokenRow.read, bind_eq_ok, pure_eq_ok] at h
    obtain ⟨_, ⟨remain, hremain, used, -, rfl⟩, ht⟩ := h
    obtain rfl := Option.some.inj ht
    refine ⟨r, hr, rfl, rfl, ?_⟩
    cases hcell : r.remainQuota with
    | int n =>
      rw [hcell] at hremain
      cases hremain
      rfl
    | real x =>
      rw [hcell] at hremain
      cases hremain

theorem cell?_of_row (hids : (s.tokens.rows.map (·.id)).Nodup)
    (hr : s.tokenRowByKey? key = some r) : s.cell? .tokenQuota r.id = some r.remainQuota := by
  have hmem := List.mem_of_find?_eq_some hr
  rw [cell?, tokenRow?, find?_of_mem TokenRow.id hids hmem]
  rfl

theorem ids_of_terms (h : s'.terms = s.terms) :
    s'.tokens.rows.map (·.id) = s.tokens.rows.map (·.id) := by
  have hids (t : Store) : t.tokens.rows.map (·.id) = t.terms.map (·.id) := by
    rw [terms, List.map_map]
    rfl
  rw [hids, hids, h]

theorem terms_update (s : Store) (p : TokenRow → Bool) {f : TokenRow → TokenRow}
    (hf : ∀ r, (f r).terms = r.terms) :
    ({ s with tokens := s.tokens.update p f } : Store).terms = s.terms := by
  rw [terms, Numbered.update, List.map_map]
  refine List.map_congr_left fun r _ => ?_
  by_cases hr : p r <;> simp [hr, hf]

theorem terms_post (s : Store) (c : Counter) (i delta : Int) :
    (s.post c i delta).terms = s.terms := by
  cases c with
  | tokenQuota => exact terms_update s _ fun _ => rfl
  | userQuota | usedQuota | requestCount | channelUsedQuota => rfl

theorem terms_post? (h : s.post? c i delta = .ok s') : s'.terms = s.terms := by
  rw [post?, bind_eq_ok] at h
  obtain ⟨-, -, h⟩ := h
  cases h
  exact terms_post ..

theorem terms_drawUser (h : s.drawUser? u amount = .ok (covered, s')) : s'.terms = s.terms := by
  rw [terms, (writesUser_drawUser h).tokens, terms]

theorem terms_flush (b : Batch) (s : Store) : (b.flush s).2.2.terms = s.terms := by
  have hfold (posted : List ((Counter × Int) × Int)) (s : Store) :
      (posted.foldl (fun s e => s.post e.1.1 e.1.2 e.2) s).terms = s.terms := by
    induction posted generalizing s with
    | nil => rfl
    | cons e posted ih => exact (ih _).trans (terms_post ..)
  exact hfold _ s

theorem drawToken?_eq_ok (h : s.drawToken? t amount = .ok (covered, s')) :
    s'.terms = s.terms ∧
      (covered = true → ∃ r ∈ s.tokens.rows, r.id = t ∧ r.remainQuota.covers amount = true) := by
  rw [drawToken?, bind_eq_ok] at h
  obtain ⟨-, -, h⟩ := h
  cases h
  refine ⟨terms_update s _ fun _ => rfl, fun hany => ?_⟩
  obtain ⟨r, hr, hcovers⟩ := List.any_eq_true.mp hany
  rw [Bool.and_eq_true, decide_eq_true_eq] at hcovers
  exact ⟨r, hr, hcovers⟩

end Store

-- ---------------------------------------------------------------------------
-- Copies of tokens
-- ---------------------------------------------------------------------------

namespace Cache

variable {c c' : Cache} {now : Time} {u : Int}

/-- The copy of a token that a cache keeps. -/
def copyAt (cache : Option Cache) (key : String) : Option CacheEntry :=
  entryAt cache (AccountKey.token key).text

theorem copyAt_put_quota (c : Cache) (u : Int) (e : CacheEntry) (key : String) :
    copyAt (some (c.put (AccountKey.userQuota u).text e)) key = copyAt (some c) key :=
  (entryAt_put ..).trans (if_neg fun h => by cases AccountKey.text_injective h)

theorem copyAt_draw (h : c.draw now (AccountKey.userQuota u).text amount = .ok (outcome, c'))
    (he : copyAt (some c') key = some e) : copyAt (some c) key = some e := by
  rcases draw_cases h with ⟨-, rfl | rfl⟩ | ⟨_, _, -, -, -, ⟨-, -, rfl⟩ | ⟨-, -, rfl⟩⟩
  · exact he
  · exact get?_drop he
  · exact he
  · rwa [copyAt_put_quota] at he

theorem copyAt_credit (h : c.credit now (AccountKey.userQuota u).text delta = .ok (value, c'))
    (key : String) : copyAt (some c') key = copyAt (some c) key := by
  rcases credit_cases h with ⟨-, rfl⟩ | ⟨_, _, -, -, -, -, rfl⟩
  · rfl
  · exact copyAt_put_quota ..

end Cache

theorem Directory.copyAt_forget {d : Directory} (k : AccountKey)
    (he : Cache.copyAt (d.forget k).cache key = some e) : Cache.copyAt d.cache key = some e := by
  unfold forget at he
  cases hc : d.cache with
  | none =>
    rw [hc] at he
    exact he
  | some c =>
    rw [hc, Option.map_some] at he
    dsimp only at he
    split at he
    · next c' hdelete =>
      rw [Cache.delete, bind_eq_ok] at hdelete
      obtain ⟨-, -, hdelete⟩ := hdelete
      cases hdelete
      exact Cache.get?_drop he
    · exact he

namespace Ledger

variable {l : Ledger} {b b' b'' : Books} {now : Time} {r : ChargeRequest} {s : Store}

/-- `b'` has come from `b` with the terms of every token unchanged and no token copied. -/
structure Steady (b b' : Books) : Prop where
  ttl : b'.directory.ttl = b.directory.ttl
  terms : b'.store.terms = b.store.terms
  copies : ∀ key e, Cache.copyAt b'.cache key = some e → Cache.copyAt b.cache key = some e

theorem Steady.refl (b : Books) : Steady b b := ⟨rfl, rfl, fun _ _ he => he⟩

theorem Steady.trans (h : Steady b b') (h' : Steady b' b'') : Steady b b'' :=
  ⟨h'.ttl.trans h.ttl, h'.terms.trans h.terms, fun key e he => h.copies key e (h'.copies key e he)⟩

theorem steady_withStore (b : Books) (h : s.terms = b.store.terms) : Steady b (b.withStore s) :=
  ⟨rfl, h, fun _ _ he => he⟩

theorem steady_withCache (b : Books) {cache : Option Cache}
    (h : ∀ key e, Cache.copyAt cache key = some e → Cache.copyAt b.cache key = some e) :
    Steady b (b.withCache cache) :=
  ⟨rfl, rfl, h⟩

-- ---------------------------------------------------------------------------
-- Postings
-- ---------------------------------------------------------------------------

theorem steady_post (h : l.post b c i delta = .ok b') : Steady b b' := by
  rw [post] at h
  split at h
  · cases h
    exact ⟨rfl, rfl, fun _ _ he => he⟩
  · obtain ⟨s, hs, rfl⟩ := map_eq_ok.mp h
    exact steady_withStore b (Store.terms_post? hs)

theorem steady_tryPost (l : Ledger) (b : Books) (c : Counter) (i delta : Int) :
    Steady b (l.tryPost b c i delta) := by
  rw [tryPost]
  cases h : l.post b c i delta with
  | error f => exact .refl b
  | ok b' => exact steady_post h

theorem steady_userQuota (b : Books) (now : Time) (u : Int) : Steady b (b.userQuota now u).2 := by
  refine ⟨rfl, rfl, fun key e he => ?_⟩
  have hkey : (AccountKey.token key).text ≠ (AccountKey.userQuota u).text := fun h => by
    cases AccountKey.text_injective h
  have hagree := Cache.AgreeAt.fetch_other .word b.cache now b.directory.ttl
    ((b.store.userQuota? u).mapError (LookupFault.mk .quota)) hkey
  exact hagree.entry.symm.trans he

theorem steady_moveCached (b : Books) (now : Time) (u delta : Int) :
    Steady b (moveCached b now u delta).2 := by
  unfold moveCached
  cases hc : b.cache with
  | none => exact .refl b
  | some c =>
    dsimp only
    split
    · next value c' hcredit =>
      refine steady_withCache b fun key e he => ?_
      rw [hc, ← Cache.copyAt_credit hcredit key]
      exact he
    · refine ⟨rfl, rfl, fun key e he => ?_⟩
      exact Directory.copyAt_forget _ (Directory.copyAt_forget _ (Directory.copyAt_forget _ he))

theorem steady_notify (b : Books) (u balance : Int) : Steady b (notify b u balance) := by
  rw [notify]
  split <;> exact ⟨rfl, rfl, fun _ _ he => he⟩

theorem steady_writeLog (b : Books) (h : Hold) (usage : Usage) (actual : Int) :
    Steady b (writeLog b h usage actual) := by
  obtain ⟨logs, hlogs⟩ := writeLog_eq b h usage actual
  rw [hlogs]
  exact steady_withStore b rfl

theorem steady_tell (b : Books) (now : Time) (u : Int) (balance : Option Int) :
    Steady b (tell b now u balance) := by
  cases balance with
  | some balance => exact steady_notify b u balance
  | none =>
    have hlook := steady_userQuota b now u
    dsimp only [tell]
    generalize b.userQuota now u = p at hlook ⊢
    obtain ⟨answer, b'⟩ := p
    rcases answer with f | _ | balance
    · exact hlook
    · exact hlook
    · exact hlook.trans (steady_notify b' u balance)

-- ---------------------------------------------------------------------------
-- Settling and refunding
-- ---------------------------------------------------------------------------

theorem steady_settle (l : Ledger) (b : Books) (now : Time) (h : Hold) (usage : Usage) :
    Steady b (l.settle b now h usage) := by
  unfold settle
  extract_lets actual tokenDelta userDelta b₁
  have h₁ : Steady b b₁ := by
    by_cases hz : tokenDelta = 0
    · simpa only [b₁, if_pos hz] using Steady.refl b
    · simpa only [b₁, if_neg hz] using steady_tryPost l b ..
  split
  rename_i balance b₂ hb₂
  have h₂ : Steady b₁ b₂ := by
    split at hb₂
    · cases hb₂
      exact .refl b₁
    · have hmoved := (steady_tryPost l b₁ .userQuota h.userId (-userDelta)).trans
        (steady_moveCached _ now h.userId (-userDelta))
      rw [hb₂] at hmoved
      exact hmoved
  extract_lets b₃ b₄ b₅ b₆
  have h₅ : Steady b₂ b₅ := ((steady_tryPost l b₂ ..).trans (steady_tryPost l b₃ ..)).trans
    (steady_tryPost l b₄ ..)
  have h₆ : Steady b₅ b₆ := steady_writeLog b₅ h usage actual
  exact (((h₁.trans h₂).trans h₅).trans h₆).trans (steady_tell b₆ now h.userId balance)

theorem steady_refund (l : Ledger) (b : Books) (now : Time) (h : Hold) :
    Steady b (l.refund b now h) := by
  unfold refund
  extract_lets b₁
  have h₁ : Steady b b₁ := by
    by_cases hp : 0 < h.tokenReserved
    · simpa only [b₁, if_pos hp] using steady_tryPost l b ..
    · simpa only [b₁, if_neg hp] using Steady.refl b
  split
  · exact (h₁.trans (steady_tryPost ..)).trans (steady_moveCached ..)
  · exact h₁

theorem steady_perform (l : Ledger) (b : Books) (now : Time) (job : Job) :
    Steady b (l.perform b now job) := by
  cases job with
  | settle h usage => exact steady_settle l b now h usage
  | refund h => exact steady_refund l b now h

-- ---------------------------------------------------------------------------
-- Reserving
-- ---------------------------------------------------------------------------

theorem paid_reserveToken (h : reserveToken b r amount = .ok b') :
    Steady b b' ∧ (r.tokenUnlimited = false →
      ∃ row ∈ b.store.tokens.rows, row.id = r.tokenId ∧ row.remainQuota.covers amount = true) := by
  rw [reserveToken] at h
  split at h
  · next hunlimited =>
    split at h
    · cases h
    · next s hpost =>
      cases h
      exact ⟨steady_withStore b (Store.terms_post? hpost),
        fun hlimited => absurd hunlimited (by rw [hlimited]; decide)⟩
  · split at h
    · cases h
    · cases h
    · next s hdraw =>
      cases h
      obtain ⟨hterms, hcovers⟩ := Store.drawToken?_eq_ok hdraw
      exact ⟨steady_withStore b hterms, fun _ => hcovers rfl⟩

theorem steady_restoreToken (b : Books) (t amount : Int) : Steady b (restoreToken b t amount) := by
  rw [restoreToken_eq]
  split
  · exact steady_tryPost ..
  · exact .refl b

theorem steady_reserveStored (h : reserveStored b u amount = .ok b') : Steady b b' := by
  rw [reserveStored] at h
  split at h
  · cases h
  · next s hdraw =>
    cases h
    exact steady_withStore b (Store.terms_drawUser hdraw)
  · split at h <;> cases h

theorem steady_reserveUser (l : Ledger) (b : Books) (now : Time) (u amount : Int) :
    Steady b (l.reserveUser b now u amount).2 := by
  unfold reserveUser
  extract_lets stored key
  have hstored (b : Books) : Steady b (stored b).2 := by
    simp only [stored]
    cases h : reserveStored b u amount with
    | error e => exact .refl b
    | ok b' => exact steady_reserveStored h
  cases hc : b.cache with
  | none => exact hstored b
  | some c =>
    have hdrawn {outcome : CacheDraw} {c' : Cache}
        (hdraw : c.draw now key amount = .ok (outcome, c')) : Steady b (b.withCache (some c')) :=
      steady_withCache b fun key e he => hc.symm ▸ Cache.copyAt_draw hdraw he
    dsimp only
    split
    · exact hstored b
    · next c' hdraw => exact (hdrawn hdraw).trans (hstored _)
    · next c' hdraw => exact hdrawn hdraw
    · next c' hdraw =>
      split
      · next b' hpost => exact (hdrawn hdraw).trans (steady_post hpost)
      · -- What was drawn on the cache goes back to it.
        refine steady_withCache b fun key' e he => hc.symm ▸ Cache.copyAt_draw hdraw ?_
        split at he
        · next c'' hcredit => rwa [Cache.copyAt_credit hcredit] at he
        · exact he

theorem steady_pay (l : Ledger) (b : Books) (now : Time) (r : ChargeRequest) (trusted : Bool)
    (amount : Int) : Steady b (l.pay b now r trusted amount).2 := by
  unfold pay
  split
  · exact .refl b
  · next b₁ hb₁ =>
    have htoken : Steady b b₁ := by
      cases trusted with
      | true =>
        cases hb₁
        exact .refl b
      | false => exact (paid_reserveToken hb₁).1
    have huser := htoken.trans (steady_reserveUser l b₁ now r.userId amount)
    generalize l.reserveUser b₁ now r.userId amount = p at huser ⊢
    obtain ⟨_ | _, b₂⟩ := p
    · exact huser.trans (steady_restoreToken ..)
    · exact huser

theorem steady_reserve (l : Ledger) (b : Books) (now : Time) (r : ChargeRequest) :
    Steady b (l.reserve b now r).2 := by
  rw [reserve_eq]
  cases l.quote r.group r.model with
  | error e => exact .refl b
  | ok quote =>
    dsimp only
    have hlook := steady_userQuota b now r.userId
    generalize b.userQuota now r.userId = p at hlook ⊢
    obtain ⟨found, b₁⟩ := p
    rcases found with f | _ | balance
    · exact hlook
    · exact hlook
    · dsimp only
      split
      · exact hlook
      · exact hlook.trans (steady_pay ..)

/-- What is set aside for a token that is limited and not trusted, its row covers. -/
theorem covered_reserve {res : Reservation} (h : (l.reserve b now r).1 = .ok res)
    (hlimited : r.tokenUnlimited = false)
    (htrust : l.trusts res.balanceBefore res.estimated = false) :
    ∃ row ∈ b.store.tokens.rows, row.id = r.tokenId ∧
      row.remainQuota.covers res.estimated = true := by
  rw [reserve_eq] at h
  cases hq : l.quote r.group r.model with
  | error e =>
    rw [hq] at h
    cases h
  | ok quote =>
    rw [hq] at h
    dsimp only at h
    have hstore : (b.userQuota now r.userId).2.store = b.store := rfl
    generalize b.userQuota now r.userId = p at h hstore
    obtain ⟨_ | _ | balance, b₁⟩ := p
    · cases h
    · cases h
    · dsimp only at h
      split at h
      · cases h
      · obtain ⟨_, hpaid, rfl⟩ := map_eq_ok.mp h
        dsimp only at htrust ⊢
        rw [pay_answer, htrust] at hpaid
        obtain ⟨b₂, htoken, -⟩ := bind_eq_ok.mp hpaid
        exact hstore ▸ (paid_reserveToken htoken).2 hlimited

end Ledger

end Tollgate
