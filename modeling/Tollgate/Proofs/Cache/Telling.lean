import Tollgate.Proofs.Answers
import Tollgate.Proofs.Cache.Words

/-!
# What a cache tells of balances

A cache that serves every verb tells, for each user whose balance lives in it,
an amount that both ways of reading come to (`Tells`). A lookup adds the
amount that was computed, and a draw or a credit moves the amount of one user.
What draws and credits do with any entry is said once (`draw_cases`,
`credit_cases`).
-/

namespace Tollgate

namespace Cache

variable {c c' : Cache} {now t : Time} {u : Int} {told told' : Int → Option Int}

theorem serve_eq (h : c.refused = []) (verb : CacheVerb) : c.serve verb = .ok () := by
  simp [serve, h]

theorem hit?_eq (h : c.refused = []) (codec : Codec α) (now : Time) (key : String) :
    hit? codec (some c) now key = (c.live? now key).bind codec.decode := by
  simp only [hit?, get, serve_eq h]
  cases c.live? now key <;> rfl

theorem live?_eq_some :
    c.live? now key = some text ↔
      ∃ e, c.entries.get? key = some e ∧ now < e.expires ∧ e.text = text := by
  simp [live?, CacheEntry.isLive, Option.map_eq_some_iff, Option.filter_eq_some_iff, and_assoc]

theorem fetch_none (codec : Codec α) (now : Time) (key : String) (ttl : Duration)
    (computed : Except ε (Option α)) :
    fetch codec none now key ttl computed = (computed, none) := by
  unfold fetch
  cases computed with
  | error e => rfl
  | ok found => cases found <;> rfl

theorem delete_eq (h : c.refused = []) (key : String) : c.delete key = .ok (c.drop key) := by
  rw [delete, serve_eq h]
  rfl

theorem get?_drop (h : (c.drop key).entries.get? k = some e) : c.entries.get? k = some e := by
  rw [drop, Dict.get?_erase] at h
  split at h
  · cases h
  · exact h

-- ---------------------------------------------------------------------------
-- Draws and credits
-- ---------------------------------------------------------------------------

section Drawing

variable {e : CacheEntry} {key : String} {n amount delta : Int}

theorem draw_absent (hget : c.entries.get? key = none) (now : Time) (amount : Int) :
    c.draw now key amount = (c.serve .draw).map fun _ => (.missing, c) := by
  rw [draw, hget]
  cases c.serve .draw <;> rfl

theorem draw_expired (hget : c.entries.get? key = some e) (hdead : ¬now < e.expires)
    (amount : Int) :
    c.draw now key amount = (c.serve .draw).map fun _ => (.missing, c.drop key) := by
  rw [draw]
  cases c.serve .draw with
  | error f => rfl
  | ok _ =>
    simp [hget, CacheEntry.isLive, hdead, bind, Except.bind, pure, Except.pure, Except.map]

/-- What a draw on a live balance does: it has no other way to fail than being refused. -/
theorem draw_live (hget : c.entries.get? key = some e) (hlive : now < e.expires)
    (hword : readWord? e.text = some n) (amount : Int) :
    c.draw now key amount = (c.serve .draw).map fun _ =>
      if n < amount then (.insufficient n, c)
      else (.applied n, c.put key { e with text := toString (Word.wrap (n - amount)) }) := by
  rw [draw]
  cases c.serve .draw with
  | error f => rfl
  | ok _ =>
    by_cases hless : n < amount <;>
      simp [hget, CacheEntry.isLive, hlive, CacheEntry.word, hword, hless, bind, Except.bind, pure,
        Except.pure, Except.map]

theorem draw_unread (hget : c.entries.get? key = some e) (hlive : now < e.expires)
    (hword : readWord? e.text = none) (amount : Int) :
    c.draw now key amount = c.serve .draw >>= fun _ => .error (.notInteger e.text) := by
  rw [draw]
  cases c.serve .draw with
  | error f => rfl
  | ok _ => simp [hget, CacheEntry.isLive, hlive, CacheEntry.word, hword, bind, Except.bind]

/-- A draw that is answered finds nothing that lives, or works on the live balance that it reads. -/
theorem draw_cases (h : c.draw now key amount = .ok (outcome, c')) :
    (outcome = .missing ∧ (c' = c ∨ c' = c.drop key)) ∨
      ∃ e n, c.entries.get? key = some e ∧ now < e.expires ∧ readWord? e.text = some n ∧
        ((outcome = .insufficient n ∧ n < amount ∧ c' = c) ∨
          outcome = .applied n ∧ amount ≤ n ∧
            c' = c.put key { e with text := toString (Word.wrap (n - amount)) }) := by
  cases hget : c.entries.get? key with
  | none =>
    rw [draw_absent hget, map_eq_ok] at h
    obtain ⟨-, -, ⟨⟩⟩ := h
    exact .inl ⟨rfl, .inl rfl⟩
  | some e =>
    by_cases hlive : now < e.expires
    · cases hword : readWord? e.text with
      | none =>
        rw [draw_unread hget hlive hword, bind_eq_ok] at h
        obtain ⟨-, -, ⟨⟩⟩ := h
      | some n =>
        rw [draw_live hget hlive hword, map_eq_ok] at h
        obtain ⟨-, -, h⟩ := h
        refine .inr ⟨e, n, rfl, hlive, hword, ?_⟩
        by_cases hless : n < amount
        · rw [if_pos hless] at h
          cases h
          exact .inl ⟨rfl, hless, rfl⟩
        · rw [if_neg hless] at h
          cases h
          exact .inr ⟨rfl, Int.not_lt.mp hless, rfl⟩
    · rw [draw_expired hget hlive, map_eq_ok] at h
      obtain ⟨-, -, ⟨⟩⟩ := h
      exact .inl ⟨rfl, .inr rfl⟩

theorem credit_gone (hgone : ∀ e, c.entries.get? key = some e → ¬now < e.expires) (delta : Int) :
    c.credit now key delta = (c.serve .credit).map fun _ => (none, c) := by
  rw [credit]
  cases c.serve .credit with
  | error f => rfl
  | ok _ =>
    cases hget : c.entries.get? key with
    | none => rfl
    | some e =>
      simp [CacheEntry.isLive, hgone e hget, bind, Except.bind, pure, Except.pure, Except.map]

theorem credit_live (hget : c.entries.get? key = some e) (hlive : now < e.expires)
    (hword : readWord? e.text = some n) (delta : Int) :
    c.credit now key delta = (c.serve .credit).map fun _ =>
      (some (Word.wrap (n + delta)),
        c.put key { e with text := toString (Word.wrap (n + delta)) }) := by
  rw [credit]
  cases c.serve .credit with
  | error f => rfl
  | ok _ =>
    simp [hget, CacheEntry.isLive, hlive, CacheEntry.word, hword, bind, Except.bind, pure,
      Except.pure, Except.map]

theorem credit_unread (hget : c.entries.get? key = some e) (hlive : now < e.expires)
    (hword : readWord? e.text = none) (delta : Int) :
    c.credit now key delta = c.serve .credit >>= fun _ => .error (.notInteger e.text) := by
  rw [credit]
  cases c.serve .credit with
  | error f => rfl
  | ok _ => simp [hget, CacheEntry.isLive, hlive, CacheEntry.word, hword, bind, Except.bind]

theorem credit_cases (h : c.credit now key delta = .ok (value, c')) :
    (value = none ∧ c' = c) ∨
      ∃ e n, c.entries.get? key = some e ∧ now < e.expires ∧ readWord? e.text = some n ∧
        value = some (Word.wrap (n + delta)) ∧
          c' = c.put key { e with text := toString (Word.wrap (n + delta)) } := by
  by_cases hgone : ∀ e, c.entries.get? key = some e → ¬now < e.expires
  · rw [credit_gone hgone, map_eq_ok] at h
    obtain ⟨-, -, ⟨⟩⟩ := h
    exact .inl ⟨rfl, rfl⟩
  · obtain ⟨e, hget, hlive⟩ : ∃ e, c.entries.get? key = some e ∧ now < e.expires := by
      simpa using hgone
    cases hword : readWord? e.text with
    | none =>
      rw [credit_unread hget hlive hword, bind_eq_ok] at h
      obtain ⟨-, -, ⟨⟩⟩ := h
    | some n =>
      rw [credit_live hget hlive hword, map_eq_ok] at h
      obtain ⟨-, -, ⟨⟩⟩ := h
      exact .inr ⟨e, n, hget, hlive, hword, rfl, rfl⟩

end Drawing

-- ---------------------------------------------------------------------------
-- Balances
-- ---------------------------------------------------------------------------

def withoutUser (c : Cache) (u : Int) : Cache :=
  ((c.drop (AccountKey.userGroup u).text).drop (AccountKey.userEnabled u).text).drop
    (AccountKey.userQuota u).text

theorem get?_withoutUser (c : Cache) (u v : Int) :
    (c.withoutUser u).entries.get? (AccountKey.userQuota v).text = some e →
      v ≠ u ∧ c.entries.get? (AccountKey.userQuota v).text = some e := by
  intro h
  refine ⟨fun hv => ?_, get?_drop (get?_drop (get?_drop h))⟩
  rw [withoutUser, drop, Dict.get?_erase, if_pos (hv ▸ rfl)] at h
  cases h

-- ---------------------------------------------------------------------------
-- Balances that live
-- ---------------------------------------------------------------------------

def holds (c : Cache) (now : Time) (u : Int) : Bool :=
  (c.live? now (AccountKey.userQuota u).text).isSome

theorem holds_iff :
    c.holds now u = true ↔
      ∃ e, c.entries.get? (AccountKey.userQuota u).text = some e ∧ now < e.expires := by
  rw [holds, Option.isSome_iff_exists]
  simp only [live?_eq_some]
  constructor
  · rintro ⟨_, e, hget, hlive, -⟩
    exact ⟨e, hget, hlive⟩
  · rintro ⟨e, hget, hlive⟩
    exact ⟨_, e, hget, hlive, rfl⟩

theorem holds_mono (he : ∀ k e, c'.entries.get? k = some e → c.entries.get? k = some e)
    (ht : now ≤ t) (h : c'.holds t u = true) : c.holds now u = true := by
  obtain ⟨e, hget, hlive⟩ := holds_iff.mp h
  exact holds_iff.mpr ⟨e, he _ e hget, Nat.lt_of_le_of_lt ht hlive⟩

theorem holds_put :
    (c.put (AccountKey.userQuota u).text e).holds now v =
      if v = u then decide (now < e.expires) else c.holds now v := by
  by_cases hv : v = u
  · subst hv
    by_cases hlive : now < e.expires <;>
      simp [holds, live?, put, Dict.get?_set, CacheEntry.isLive, hlive]
  · have hkey : (AccountKey.userQuota v).text ≠ (AccountKey.userQuota u).text :=
      fun h => hv (AccountKey.text_userQuota_inj h)
    rw [if_neg hv, holds, holds, live?, live?, put, Dict.get?_set, if_neg hkey]

/-- Each balance that lives is the one that is told of its user, in decimal. -/
def Tells (c : Cache) (now : Time) (told : Int → Option Int) : Prop :=
  ∀ u e, c.entries.get? (AccountKey.userQuota u).text = some e → now < e.expires →
    ∃ n, told u = some n ∧ Word.Fits n ∧ e.text = toString n

def movedBy (told : Int → Option Int) (u delta : Int) : Int → Option Int := fun v =>
  if v = u then (told u).map (· + delta) else told v

theorem movedBy_own (hn : told u = some n) : movedBy told u delta u = some (n + delta) := by
  simp [movedBy, hn]

theorem movedBy_of_ne (hv : v ≠ u) : movedBy told u delta v = told v := if_neg hv

theorem Tells.congr (h : c.Tells now told) (heq : ∀ u, c.holds now u = true → told' u = told u) :
    c.Tells now told' := fun u e hget hlive => by
  rw [heq u (holds_iff.mpr ⟨e, hget, hlive⟩)]
  exact h u e hget hlive

theorem Tells.narrow (h : c.Tells now told)
    (he : ∀ k e, c'.entries.get? k = some e → c.entries.get? k = some e) (ht : now ≤ t) :
    c'.Tells t told :=
  fun u e hget hlive => h u e (he _ e hget) (Nat.lt_of_le_of_lt ht hlive)

theorem Tells.put (h : c.Tells now told) (hn : told' u = some n) (hf : Word.Fits n)
    (hothers : ∀ v, v ≠ u → c.holds now v = true → told' v = told v) (expires : Time) :
    (c.put (AccountKey.userQuota u).text ⟨toString n, expires⟩).Tells now told' := by
  intro v e hget hlive
  rw [Cache.put, Dict.get?_set] at hget
  split at hget
  · next hkey =>
    cases hget
    rw [AccountKey.text_userQuota_inj hkey]
    exact ⟨n, hn, hf, rfl⟩
  · next hkey =>
    rw [hothers v (fun hv => hkey (hv ▸ rfl)) (holds_iff.mpr ⟨e, hget, hlive⟩)]
    exact h v e hget hlive

theorem Tells.reads (h : c.Tells now told)
    (hget : c.entries.get? (AccountKey.userQuota u).text = some e) (hlive : now < e.expires) :
    ∃ n, told u = some n ∧ Word.Fits n ∧ readWord? e.text = some n ∧
      Codec.word.decode e.text = some n := by
  obtain ⟨n, hn, hf, ht⟩ := h u e hget hlive
  refine ⟨n, hn, hf, ?_, ?_⟩
  · rw [ht, readWord?_toString hf]
  · rw [ht, Codec.decode_word hf]

theorem Tells.hit? (h : c.Tells now told) (hr : c.refused = []) :
    Cache.hit? .word (some c) now (AccountKey.userQuota u).text =
      if c.holds now u then told u else none := by
  rw [hit?_eq hr]
  cases hl : c.live? now (AccountKey.userQuota u).text with
  | some text =>
    obtain ⟨e, hget, hlive, rfl⟩ := live?_eq_some.mp hl
    obtain ⟨n, hn, -, -, hdecode⟩ := h.reads hget hlive
    rw [Option.bind_some, hdecode, if_pos (holds_iff.mpr ⟨e, hget, hlive⟩), hn]
  | none =>
    rw [holds, hl]
    rfl

/-- A lookup answers what is told where a balance lives, and keeps what it computes otherwise. -/
theorem Tells.fetch (h : c.Tells now told) (hr : c.refused = []) (u : Int) (ttl : Duration)
    (computed : Except ε (Option Int)) (told' : Int → Option Int)
    (hothers : ∀ v, c.holds now v = true → told' v = told v)
    (hown : ∀ n, c.holds now u = false → computed = .ok (some n) → told' u = some n ∧ Word.Fits n) :
    ∃ c', Cache.fetch .word (some c) now (AccountKey.userQuota u).text ttl computed =
        (if c.holds now u then .ok (told u) else computed, some c') ∧
      c'.refused = [] ∧ c'.Tells now told' := by
  have hkept : c.Tells now told' := h.congr hothers
  unfold Cache.fetch
  rw [h.hit? hr]
  by_cases hholds : c.holds now u = true
  · obtain ⟨e, hget, hlive⟩ := holds_iff.mp hholds
    obtain ⟨n, hn, -⟩ := h u e hget hlive
    rw [if_pos hholds, if_pos hholds, hn]
    exact ⟨c, rfl, hr, hkept⟩
  · rw [if_neg hholds, if_neg hholds]
    match hc : computed with
    | .error f => exact ⟨c, rfl, hr, hkept⟩
    | .ok none => exact ⟨c, rfl, hr, hkept⟩
    | .ok (some n) =>
      obtain ⟨hn, hf⟩ := hown n (by simpa using hholds) rfl
      refine ⟨c.put (AccountKey.userQuota u).text ⟨toString n, now + ttl⟩, ?_, hr,
        hkept.put hn hf (fun _ _ _ => rfl) _⟩
      simp only [remember, Option.map_some, Cache.set, serve_eq hr, Codec.encode_word]
      rfl

theorem Tells.moved_idle (h : c.Tells now told) (hidle : c.holds now u = false) (delta : Int) :
    c.Tells now (movedBy told u delta) :=
  h.congr fun v hv => movedBy_of_ne fun heq => by
    rw [heq, hidle] at hv
    cases hv

theorem Tells.credit (h : c.Tells now told) (hr : c.refused = []) (u delta : Int)
    (hw : ∀ n, c.holds now u = true → told u = some n → Word.Fits (n + delta)) :
    ∃ c', c.credit now (AccountKey.userQuota u).text delta =
        .ok (if c.holds now u then (told u).map (· + delta) else none, c') ∧
      c'.refused = [] ∧ c'.Tells now (movedBy told u delta) ∧
      ∀ v, c'.holds now v = c.holds now v := by
  by_cases hholds : c.holds now u = true
  · obtain ⟨e, hget, hlive⟩ := holds_iff.mp hholds
    obtain ⟨n, hn, hf, hword, -⟩ := h.reads hget hlive
    have hnext := hw n hholds hn
    refine ⟨c.put (AccountKey.userQuota u).text ⟨toString (n + delta), e.expires⟩, ?_, hr,
      h.put (movedBy_own hn) hnext (fun _ hv _ => movedBy_of_ne hv) _, fun v => ?_⟩
    · rw [credit_live hget hlive hword, serve_eq hr, Word.wrap_eq_self hnext, if_pos hholds, hn]
      rfl
    · rw [holds_put]
      by_cases hv : v = u
      · rw [if_pos hv, hv, hholds]
        exact decide_eq_true hlive
      · rw [if_neg hv]
  · have hgone : ∀ e, c.entries.get? (AccountKey.userQuota u).text = some e → ¬now < e.expires :=
      fun e hget hlive => hholds (holds_iff.mpr ⟨e, hget, hlive⟩)
    refine ⟨c, ?_, hr, h.moved_idle (Bool.eq_false_iff.mpr hholds) delta, fun _ => rfl⟩
    rw [credit_gone hgone, serve_eq hr, if_neg hholds]
    rfl

theorem Tells.draw (h : c.Tells now told) (hr : c.refused = []) (u : Int) (ha : 0 ≤ amount) :
    ∃ outcome c', c.draw now (AccountKey.userQuota u).text amount = .ok (outcome, c') ∧
      c'.refused = [] ∧
      ((outcome = .missing ∧ c'.holds now u = false ∧ c'.Tells now told) ∨
        (∃ n, outcome = .insufficient n ∧ told u = some n ∧ n < amount ∧ c' = c) ∨
        ∃ n, outcome = .applied n ∧ told u = some n ∧ amount ≤ n ∧
          c'.Tells now (movedBy told u (-amount))) := by
  cases hget : c.entries.get? (AccountKey.userQuota u).text with
  | none =>
    have hidle : c.holds now u = false := by simp [holds, live?, hget]
    rw [draw_absent hget, serve_eq hr]
    exact ⟨.missing, c, rfl, hr, .inl ⟨rfl, hidle, h⟩⟩
  | some e =>
    by_cases hlive : now < e.expires
    · obtain ⟨n, hn, hf, hword, -⟩ := h.reads hget hlive
      rw [draw_live hget hlive hword, serve_eq hr]
      by_cases hless : n < amount
      · exact ⟨.insufficient n, c, congrArg Except.ok (if_pos hless), hr,
          .inr (.inl ⟨n, rfl, hn, hless, rfl⟩)⟩
      · have hsub : Word.Fits (n - amount) := hf.sub ha (Int.not_lt.mp hless)
        rw [Word.wrap_eq_self hsub]
        refine ⟨.applied n, c.put (AccountKey.userQuota u).text ⟨toString (n - amount), e.expires⟩,
          congrArg Except.ok (if_neg hless), hr,
          .inr (.inr ⟨n, rfl, hn, Int.not_lt.mp hless, ?_⟩)⟩
        exact h.put (movedBy_own hn) hsub (fun _ hv _ => movedBy_of_ne hv) _
    · rw [draw_expired hget hlive, serve_eq hr]
      refine ⟨.missing, c.drop (AccountKey.userQuota u).text, rfl, hr,
        .inl ⟨rfl, ?_, h.narrow (fun _ _ => get?_drop) (Nat.le_refl now)⟩⟩
      simp [holds, live?, Cache.drop, Dict.get?_erase]

end Cache

end Tollgate
