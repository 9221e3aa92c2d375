import Tollgate.Proofs.Cache.Telling
import Tollgate.Proofs.Ledger.Tally

/-!
# Cached balances mirror stored ones

Without batching a live entry always tells the stored balance of its user, so
books with a cache answer as the same books without one (`uncached`). Each
operation of the ledger keeps the mirror and commutes with forgetting the
cache.
-/

namespace Tollgate

theorem Directory.invalidateUser_eq {d : Directory} (h : ∀ c, d.cache = some c → c.refused = [])
    (u : Int) : d.invalidateUser u = { d with cache := d.cache.map (·.withoutUser u) } := by
  unfold invalidateUser forget
  cases hc : d.cache with
  | none => rfl
  | some c =>
    have hdelete (c' : Cache) (hr : c'.refused = c.refused) (key : AccountKey) :
        c'.delete key.text = .ok (c'.drop key.text) :=
      Cache.delete_eq (hr.trans (h c hc)) key.text
    simp only [Option.map_some]
    rw [hdelete c rfl, hdelete (c.drop _) rfl, hdelete ((c.drop _).drop _) rfl]
    rfl

namespace Store

variable {s : Store}

theorem userQuota?_eq_some (h : s.Sound) :
    s.userQuota? u = .ok (some n) ↔ s.value? .userQuota u = some n := by
  rw [userQuota?, h.guard, value?_eq_some, cell?]
  cases s.userRow? u with
  | none => exact iff_of_false (fun h => by cases h) (fun h => by cases h)
  | some r =>
    show (do return some (← r.quota.read 0 "quota")) = Except.ok (some n) ↔
      some r.quota = some (.int n)
    cases r.quota with
    | int m => exact ⟨fun h => by cases h; rfl, fun h => by cases h; rfl⟩
    | real x => exact iff_of_false (fun h => by cases h) (fun h => by cases h)

end Store

namespace Books

def uncached (b : Books) : Books := b.withCache none

/-- An entry that lives tells the stored balance of its user, in decimal. -/
structure Mirrored (b : Books) (now : Time) : Prop where
  sound : b.store.Sound
  posted : b.batch = .empty
  serves : ∀ c, b.cache = some c → c.refused = []
  entry : ∀ c u e, b.cache = some c →
    c.entries.get? (AccountKey.userQuota u).text = some e → now < e.expires →
      ∃ n, e.text = toString n ∧ b.store.value? .userQuota u = some n

variable {b b' : Books} {c c' : Cache} {now : Time}

theorem Mirrored.uncached (h : b.Mirrored now) : b.uncached.Mirrored now :=
  ⟨h.sound, h.posted, nofun, nofun⟩

theorem Mirrored.later (h : b.Mirrored now) (hn : now ≤ t) : b.Mirrored t :=
  ⟨h.sound, h.posted, h.serves, fun c u e hc he ht =>
    h.entry c u e hc he (Nat.lt_of_le_of_lt hn ht)⟩

theorem Mirrored.tells (h : b.Mirrored now) (hc : b.cache = some c) :
    c.Tells now (b.store.value? .userQuota) := fun u e hget hlive => by
  obtain ⟨n, ht, hn⟩ := h.entry c u e hc hget hlive
  exact ⟨n, hn, h.sound.fits hn, ht⟩

theorem Mirrored.of_tells (h : b.Mirrored now) (hr : c'.refused = [])
    (ht : c'.Tells now (b.store.value? .userQuota)) : (b.withCache (some c')).Mirrored now where
  sound := h.sound
  posted := h.posted
  serves := by rintro _ ⟨⟩; exact hr
  entry := by
    rintro _ u e ⟨⟩ hget hlive
    obtain ⟨n, hn, -, htext⟩ := ht u e hget hlive
    exact ⟨n, htext, hn⟩

theorem Mirrored.narrow (h : b.Mirrored now) (hc : b.cache = some c) (c' : Cache)
    (hr : c'.refused = c.refused)
    (he : ∀ k e, c'.entries.get? k = some e → c.entries.get? k = some e) :
    (b.withCache (some c')).Mirrored now :=
  h.of_tells (hr.trans (h.serves c hc)) ((h.tells hc).narrow he (Nat.le_refl now))

theorem Mirrored.withStore (h : b.Mirrored now) (hs : s.Sound)
    (hv : ∀ u n, b.store.value? .userQuota u = some n → s.value? .userQuota u = some n) :
    (b.withStore s).Mirrored now where
  sound := hs
  posted := h.posted
  serves := h.serves
  entry := fun c u e hc hget hlive => by
    obtain ⟨n, ht, hn⟩ := h.entry c u e hc hget hlive
    exact ⟨n, ht, hv u n hn⟩

/-- The balance of a user as the store tells it to the directory. -/
def storedQuota (b : Books) (u : Int) : Except LookupFault (Option Int) :=
  (b.store.userQuota? u).mapError (LookupFault.mk .quota)

theorem storedQuota_eq_some (hs : b.store.Sound) :
    b.storedQuota u = .ok (some n) ↔ b.store.value? .userQuota u = some n := by
  rw [← Store.userQuota?_eq_some hs, storedQuota]
  cases b.store.userQuota? u with
  | error f => exact iff_of_false (fun h => by cases h) (fun h => by cases h)
  | ok found => exact ⟨fun h => by cases h; rfl, fun h => by cases h; rfl⟩

theorem userQuota_eq (b : Books) (now : Time) (u : Int) :
    b.userQuota now u =
      ((Cache.fetch .word b.cache now (AccountKey.userQuota u).text b.directory.ttl
          (b.storedQuota u)).1,
        b.withCache (Cache.fetch .word b.cache now (AccountKey.userQuota u).text b.directory.ttl
          (b.storedQuota u)).2) := rfl

theorem uncached_userQuota (b : Books) (now : Time) (u : Int) :
    b.uncached.userQuota now u = (b.storedQuota u, b.uncached) := by
  rw [userQuota_eq]
  show ((Cache.fetch _ none _ _ _ _).1, b.uncached.withCache (Cache.fetch _ none _ _ _ _).2) = _
  rw [Cache.fetch_none]
  rfl

theorem Mirrored.userQuota (h : b.Mirrored now) (u : Int) :
    (b.userQuota now u).1 = b.storedQuota u ∧ (b.userQuota now u).2.Mirrored now := by
  rw [userQuota_eq]
  cases hc : b.cache with
  | none =>
    rw [Cache.fetch_none]
    exact ⟨rfl, h.uncached⟩
  | some c =>
    obtain ⟨c', hfetch, hr, htells⟩ := (h.tells hc).fetch (h.serves c hc) u b.directory.ttl
      (b.storedQuota u) (b.store.value? .userQuota) (fun _ _ => rfl) fun n _ hn =>
        have hvalue := (storedQuota_eq_some h.sound).mp hn
        ⟨hvalue, h.sound.fits hvalue⟩
    rw [hfetch]
    refine ⟨?_, h.of_tells hr htells⟩
    by_cases hheld : c.holds now u = true
    · obtain ⟨e, hget, hlive⟩ := Cache.holds_iff.mp hheld
      obtain ⟨n, -, hn⟩ := h.entry c u e hc hget hlive
      rw [if_pos hheld, hn, (storedQuota_eq_some h.sound).mpr hn]
    · rw [if_neg hheld]

end Books

-- ---------------------------------------------------------------------------
-- Moving a balance
-- ---------------------------------------------------------------------------

theorem Store.value?_post (s : Store) (c : Counter) (i delta u : Int)
    (h : ¬(.userQuota = c ∧ u = i)) :
    (s.post c i delta).value? .userQuota u = s.value? .userQuota u := by
  rw [value?, cell?_post, if_neg h, value?]

theorem Store.value?_post_own {s : Store} (hn : s.value? .userQuota u = some n)
    (hw : Word.Fits (n + delta)) :
    (s.post .userQuota u delta).value? .userQuota u = some (n + delta) := by
  rw [value?_eq_some] at hn ⊢
  rw [cell?_post, if_pos ⟨rfl, rfl⟩, hn, Option.map_some, Cell.add_int hw]

namespace Books

variable {b : Books} {c c' : Cache} {now : Time} {cache : Option Cache}

theorem Mirrored.overwrite (h : b.Mirrored now) (hs : s.Sound)
    (hv : ∀ v, v ≠ u → s.value? .userQuota v = b.store.value? .userQuota v) :
    Mirrored { b.withStore s with directory := (b.withStore s).directory.invalidateUser u }
      now := by
  rw [Directory.invalidateUser_eq (d := (b.withStore s).directory) h.serves]
  refine ⟨hs, h.posted, fun c hc => ?_, fun c v e hc hget hlive => ?_⟩
  · obtain ⟨c', hc', rfl⟩ := Option.map_eq_some_iff.mp hc
    exact h.serves c' hc'
  · obtain ⟨c', hc', rfl⟩ := Option.map_eq_some_iff.mp hc
    obtain ⟨hne, hget'⟩ := c'.get?_withoutUser u v hget
    obtain ⟨n, ht, hn⟩ := h.entry c' v e hc' hget' hlive
    exact ⟨n, ht, (hv v hne).trans hn⟩

/-- What lives in a cache that is ahead of the books by one move of a user's balance. -/
structure Leads (c : Cache) (b : Books) (now : Time) (u delta : Int) : Prop where
  serves : c.refused = []
  others : ∀ v e, v ≠ u → c.entries.get? (AccountKey.userQuota v).text = some e →
    now < e.expires → ∃ n, e.text = toString n ∧ b.store.value? .userQuota v = some n
  own : ∀ e, c.entries.get? (AccountKey.userQuota u).text = some e → now < e.expires →
    ∃ n, e.text = toString (n + delta) ∧ b.store.value? .userQuota u = some n

theorem leads_of_tells (hr : c.refused = [])
    (ht : c.Tells now (Cache.movedBy (b.store.value? .userQuota) u delta)) :
    Leads c b now u delta where
  serves := hr
  others := fun v e hv hget hlive => by
    obtain ⟨n, hn, -, htext⟩ := ht v e hget hlive
    exact ⟨n, htext, (Cache.movedBy_of_ne hv).symm.trans hn⟩
  own := fun e hget hlive => by
    obtain ⟨_, hmoved, -, htext⟩ := ht u e hget hlive
    rw [Cache.movedBy, if_pos rfl] at hmoved
    obtain ⟨n, hn, rfl⟩ := Option.map_eq_some_iff.mp hmoved
    exact ⟨n, htext, hn⟩

/-- The books catch up with a cache that leads. -/
theorem Mirrored.follow (h : b.Mirrored now)
    (hw : ∀ n, b.store.value? .userQuota u = some n → Word.Fits (n + delta))
    (hcache : ∀ c, cache = some c → Leads c b now u delta) :
    ((b.withStore (b.store.post .userQuota u delta)).withCache cache).Mirrored now where
  sound := h.sound.post .userQuota u delta
  posted := h.posted
  serves := fun c hc => (hcache c hc).serves
  entry := fun c v e hc hget hlive => by
    show ∃ n, e.text = toString n ∧
      (b.store.post .userQuota u delta).value? .userQuota v = some n
    -- Only the cell of this user has moved, and only this entry is ahead.
    by_cases hv : v = u
    · subst hv
      obtain ⟨n, ht, hn⟩ := (hcache c hc).own e hget hlive
      exact ⟨n + delta, ht, Store.value?_post_own hn (hw n hn)⟩
    · obtain ⟨n, ht, hn⟩ := (hcache c hc).others v e hv hget hlive
      exact ⟨n, ht, (Store.value?_post _ _ _ _ _ fun hc => hv hc.2).trans hn⟩

theorem Mirrored.draw (h : b.Mirrored now) (hc : b.cache = some c)
    (hn : b.store.value? .userQuota u = some n) (ha : 0 ≤ amount) (hle : amount ≤ n) :
    ∃ outcome c', c.draw now (AccountKey.userQuota u).text amount = .ok (outcome, c') ∧
      (outcome = .missing ∨ outcome = .applied n) ∧ Leads c' b now u (-amount) := by
  obtain ⟨outcome, c', hdraw, hr, hends⟩ := (h.tells hc).draw (h.serves c hc) u ha
  refine ⟨outcome, c', hdraw, ?_⟩
  rcases hends with ⟨rfl, hidle, ht⟩ | ⟨m, -, hm, hless, -⟩ | ⟨m, rfl, hm, -, ht⟩
  · exact ⟨.inl rfl, leads_of_tells hr (ht.moved_idle hidle _)⟩
  · obtain rfl := Option.some.inj (hn.symm.trans hm)
    omega
  · obtain rfl := Option.some.inj (hn.symm.trans hm)
    exact ⟨.inr rfl, leads_of_tells hr ht⟩

theorem Mirrored.credit (h : b.Mirrored now) (hc : b.cache = some c)
    (hw : ∀ n, b.store.value? .userQuota u = some n → Word.Fits (n + delta)) :
    ∃ value c', c.credit now (AccountKey.userQuota u).text delta = .ok (value, c') ∧
      (∀ v, value = some v → ∃ n, b.store.value? .userQuota u = some n ∧ v = n + delta) ∧
      Leads c' b now u delta := by
  obtain ⟨c', hcredit, hr, ht, -⟩ :=
    (h.tells hc).credit (h.serves c hc) u delta fun n _ hn => hw n hn
  refine ⟨_, c', hcredit, fun v hv => ?_, leads_of_tells hr ht⟩
  split at hv
  · obtain ⟨n, hn, rfl⟩ := Option.map_eq_some_iff.mp hv
    exact ⟨n, hn, rfl⟩
  · cases hv

/-- A balance that is posted and moved in the cache is mirrored on, and what the move tells is
the stored balance. -/
theorem Mirrored.moveCached (h : b.Mirrored now)
    (hw : ∀ n, b.store.value? .userQuota u = some n → Word.Fits (n + delta)) :
    ∃ value cache,
      Ledger.moveCached (b.withStore (b.store.post .userQuota u delta)) now u delta =
        (value, (b.withStore (b.store.post .userQuota u delta)).withCache cache) ∧
      (∀ v, value = some v → (b.store.post .userQuota u delta).value? .userQuota u = some v) ∧
      ((b.withStore (b.store.post .userQuota u delta)).withCache cache).Mirrored now := by
  have hcache : (b.withStore (b.store.post .userQuota u delta)).cache = b.cache := rfl
  rw [Ledger.moveCached, hcache]
  cases hc : b.cache with
  | none =>
    refine ⟨none, b.cache, rfl, (fun v hv => by cases hv), h.follow hw fun c hc' => ?_⟩
    rw [hc] at hc'
    cases hc'
  | some c =>
    obtain ⟨value, c', hcredit, htells, hleads⟩ := h.credit hc hw
    refine ⟨value, some c', by simp only [hcredit], fun v hv => ?_, h.follow hw ?_⟩
    · obtain ⟨n, hn, rfl⟩ := htells v hv
      exact Store.value?_post_own hn (hw n hn)
    · rintro _ ⟨⟩
      exact hleads

end Books

end Tollgate
