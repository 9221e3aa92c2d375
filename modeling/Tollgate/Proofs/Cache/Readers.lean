import Tollgate.Proofs.Cache.Filling

/-!
# The two readers of a balance

A lookup reads a balance as JSON, while a draw and a credit read it as a plain
integer. They agree on every text that a lookup accepts and on every text that
one of the three writes (`ReadsAs`), so a balance that was looked up in a live
entry is the one that a draw or a credit finds there (`balance_readers_agree`).
-/

namespace Tollgate

structure ReadsAs (text : String) (n : Int) : Prop where
  lookedUp : Codec.word.decode text = some n
  drawn : readWord? text = some n

theorem readsAs_of_decode (h : Codec.word.decode raw = some n) : ReadsAs raw n :=
  ⟨h, readWord?_of_decode h⟩

theorem readsAs_toString (h : Word.Fits n) : ReadsAs (toString n) n :=
  readsAs_of_decode (Codec.decode_word h)

theorem Word.fits_wrap (n : Int) : Word.Fits (Word.wrap n) := by
  have hle := Int.le_bmod (x := n) (m := 18446744073709551616) (by decide)
  have hlt := Int.bmod_lt (x := n) (m := 18446744073709551616) (by decide)
  simp only [Word.Fits, Word.wrap, Word.least, Word.greatest]
  omega

namespace Cache

variable {c c' : Cache} {now : Time} {key : String} {n amount delta : Int}

-- ---------------------------------------------------------------------------
-- What is written
-- ---------------------------------------------------------------------------

/-- The entry under the key says `n` to both readers. -/
def Says (cache : Option Cache) (key : String) (n : Int) : Prop :=
  ∃ e, entryAt cache key = some e ∧ ReadsAs e.text n

theorem says_put (c : Cache) (key : String) (hn : Word.Fits n) (expires : Time) :
    Says (some (c.put key ⟨toString n, expires⟩)) key n :=
  ⟨_, by rw [entryAt_put, if_pos rfl], readsAs_toString hn⟩

theorem says_fetch (hhit : hit? .word (some c) now key = none) (hset : CacheVerb.set ∉ c.refused)
    (hn : Word.Fits n) (ttl : Duration) :
    Says (fetch .word (some c) now key ttl (.ok (some n) : Except ε (Option Int))).2 key n := by
  unfold fetch
  rw [hhit]
  dsimp only
  rw [remember_some, if_neg hset, Codec.encode_word]
  exact says_put c key hn _

theorem says_draw (h : c.draw now key amount = .ok (.applied n, c')) :
    Says (some c') key (Word.wrap (n - amount)) := by
  rcases draw_cases h with ⟨⟨⟩, -⟩ | ⟨e, m, -, -, -, ⟨⟨⟩, -⟩ | ⟨⟨⟩, -, rfl⟩⟩
  exact says_put c key (Word.fits_wrap _) e.expires

theorem says_credit (h : c.credit now key delta = .ok (some n, c')) : Says (some c') key n := by
  rcases credit_cases h with ⟨⟨⟩, -⟩ | ⟨e, m, -, -, -, ⟨⟩, rfl⟩
  exact says_put c key (Word.fits_wrap _) e.expires

-- ---------------------------------------------------------------------------
-- What is found
-- ---------------------------------------------------------------------------

/-- At `t`, a draw and a credit on the entry work on the balance `n`: where the cache serves them,
nothing else can go wrong. -/
structure WorksOn (c : Cache) (t : Time) (key : String) (e : CacheEntry) (n : Int) : Prop where
  draw : ∀ amount, c.draw t key amount = (c.serve .draw).map fun _ =>
    if n < amount then (.insufficient n, c)
    else (.applied n, c.put key { e with text := toString (Word.wrap (n - amount)) })
  credit : ∀ delta, c.credit t key delta = (c.serve .credit).map fun _ =>
    (some (Word.wrap (n + delta)), c.put key { e with text := toString (Word.wrap (n + delta)) })

theorem serve_ne_notInteger (c : Cache) (verb : CacheVerb) (f : Unit → α) (raw : String) :
    (c.serve verb).map f ≠ .error (.notInteger raw) := by
  rw [serve]
  split
  · intro h
    cases h
  · intro h
    cases h

end Cache

open Cache in
/-- What a lookup accepts as a balance, an integer of 64 bits in its shortest decimal form with
JSON's white space around it, draws and credits read as the same one. All three write what both
read back. So what is found in a live entry is what a draw or a credit on the entry works on, for
as long as the entry lives. -/
theorem balance_readers_agree :
    (∀ raw n, Codec.word.decode raw = some n ↔ Word.Fits n ∧ ∃ before after,
      raw.toList = before ++ ((toString n).toList ++ after) ∧
        (∀ c ∈ before, Json.isSpace c = true) ∧ ∀ c ∈ after, Json.isSpace c = true) ∧
    (∀ raw n, Codec.word.decode raw = some n → readWord? raw = some n) ∧
    (∀ (c : Cache) now key ttl n, hit? .word (some c) now key = none → CacheVerb.set ∉ c.refused →
      Word.Fits n →
      Says (fetch .word (some c) now key ttl (.ok (some n) : Except LookupFault _)).2 key n) ∧
    (∀ (c c' : Cache) now key amount n, c.draw now key amount = .ok (.applied n, c') →
      Says (some c') key (Word.wrap (n - amount))) ∧
    (∀ (c c' : Cache) now key delta n, c.credit now key delta = .ok (some n, c') →
      Says (some c') key n) ∧
    ∀ (d : Directory) c now u n, d.cache = some c →
      hit? .word d.cache now (AccountKey.userQuota u).text = some n →
      d.userQuota now u = (.ok (some n), d) ∧
        ∃ e, c.entries.get? (AccountKey.userQuota u).text = some e ∧ now < e.expires ∧
          ∀ t < e.expires, c.WorksOn t (AccountKey.userQuota u).text e n ∧ ∀ amount raw,
            c.draw t (AccountKey.userQuota u).text amount ≠ .error (.notInteger raw) ∧
            c.credit t (AccountKey.userQuota u).text amount ≠ .error (.notInteger raw) := by
  refine ⟨fun _ _ => Codec.decode_word_iff, fun _ _ => readWord?_of_decode,
    fun c now key ttl n hhit hset hn => says_fetch hhit hset hn ttl,
    fun _ _ _ _ _ _ => says_draw, fun _ _ _ _ _ _ => says_credit,
    fun d c now u n hc hhit => ⟨?_, ?_⟩⟩
  · show ((fetch .word d.cache now (AccountKey.userQuota u).text d.ttl _).1, _) = _
    unfold fetch
    rw [hhit]
  · rw [hc] at hhit
    obtain ⟨_, e, ⟨⟩, -, hentry, hlive, hdecode⟩ := hit?_eq_some.mp hhit
    refine ⟨e, hentry, hlive, fun t ht => ?_⟩
    have hword := readWord?_of_decode hdecode
    have hworks : c.WorksOn t (AccountKey.userQuota u).text e n :=
      ⟨draw_live hentry ht hword, credit_live hentry ht hword⟩
    refine ⟨hworks, fun amount raw => ⟨?_, ?_⟩⟩
    · rw [hworks.draw]
      exact serve_ne_notInteger c .draw _ raw
    · rw [hworks.credit]
      exact serve_ne_notInteger c .credit _ raw

def spacedCache : Cache :=
  { entries := .ofList [((AccountKey.userQuota 7).text, ⟨"\n 42\t", 60⟩)] }

def spacedDirectory : Directory := { cache := some spacedCache, ttl := 60 }

theorem balance_readers_agree_spaced :
    readWord? "\n 42\t" = some 42 ∧
      spacedDirectory.userQuota 0 7 = (.ok (some 42), spacedDirectory) ∧
      spacedCache.draw 30 (AccountKey.userQuota 7).text 40 = .ok (.applied 42,
        spacedCache.put (AccountKey.userQuota 7).text ⟨"2", 60⟩) ∧
      Cache.Says (some (spacedCache.put (AccountKey.userQuota 7).text ⟨"2", 60⟩))
        (AccountKey.userQuota 7).text 2 := by
  obtain ⟨haccepts, hagree, -, hdrawn, -, hfound⟩ := balance_readers_agree
  have hdecode : Codec.word.decode "\n 42\t" = some 42 :=
    (haccepts _ _).mpr ⟨by decide, "\n ".toList, "\t".toList, rfl, List.all_eq_true.mp rfl,
      List.all_eq_true.mp rfl⟩
  have hentry : spacedCache.entries.get? (AccountKey.userQuota 7).text =
      some ⟨"\n 42\t", 60⟩ := rfl
  have hhit : Cache.hit? .word (some spacedCache) 0 (AccountKey.userQuota 7).text = some 42 :=
    Cache.hit?_eq_some.mpr ⟨spacedCache, _, rfl, by decide, hentry, by decide, hdecode⟩
  obtain ⟨hanswer, e, he, -, hworks⟩ := hfound spacedDirectory spacedCache 0 7 42 rfl hhit
  obtain rfl := Option.some.inj (hentry.symm.trans he)
  have hdraw : spacedCache.draw 30 (AccountKey.userQuota 7).text 40 = .ok (.applied 42,
      spacedCache.put (AccountKey.userQuota 7).text ⟨"2", 60⟩) :=
    ((hworks 30 (by decide)).1.draw 40).trans rfl
  exact ⟨hagree _ _ hdecode, hanswer, hdraw, hdrawn _ _ _ _ _ _ hdraw⟩

end Tollgate
