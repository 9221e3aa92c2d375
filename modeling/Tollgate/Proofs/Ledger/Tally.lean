import Tollgate.Ledger
import Tollgate.Proofs.Batch.Sums

/-!
# Tallies

What the books have on record about one counter: the cell it is kept in and
the sum that waits to be posted to it. Settling and refunding change a tally
by at most one posting (`tally_perform`); reserving takes the estimate off the
user and, unless the balance is trusted, off the token.
-/

namespace Tollgate

structure Tally where
  cell : Option Cell
  pending : Int

namespace Tally

def post (t : Tally) (batched : Bool) (delta : Int) : Tally :=
  if batched then
    { t with pending := if delta = 0 then t.pending else Word.wrap (t.pending + delta) }
  else { t with cell := t.cell.map (·.add delta) }

/-- The integer that the counter stands at once all that waits is posted. -/
def standing? (t : Tally) : Option Int := (t.cell.bind Cell.int?).map (· + t.pending)

def Within (t : Tally) (batched : Bool) (delta : Int) : Prop :=
  if batched then Word.Fits (t.pending + delta)
  else ∀ n, t.cell = some (.int n) → Word.Fits (n + delta)

theorem standing?_eq_some {t : Tally} :
    t.standing? = some v ↔ ∃ n, t.cell = some (.int n) ∧ n + t.pending = v := by
  obtain ⟨cell, pending⟩ := t
  cases cell with
  | none => simp [standing?]
  | some c => cases c <;> simp [standing?, Cell.int?]

theorem standing?_post {t : Tally} (hw : t.Within batched delta) (hv : t.standing? = some v) :
    (t.post batched delta).standing? = some (v + delta) := by
  obtain ⟨n, hn, rfl⟩ := standing?_eq_some.mp hv
  rw [standing?_eq_some]
  cases batched with
  | true =>
    refine ⟨n, hn, ?_⟩
    have hf : Word.Fits (t.pending + delta) := by simpa [Within] using hw
    by_cases hd : delta = 0
    · simp [post, hd]
    · simp only [post, if_true, if_neg hd, Word.wrap_eq_self hf]
      omega
  | false =>
    have hf : Word.Fits (n + delta) := by
      rw [Within, if_neg Bool.false_ne_true] at hw
      exact hw n hn
    refine ⟨n + delta, ?_, ?_⟩
    · simp [post, hn, Cell.add_int hf]
    · simp only [post, Bool.false_eq_true, if_false]
      omega

end Tally

namespace Books

def tally (b : Books) (c : Counter) (i : Int) : Tally := ⟨b.store.cell? c i, b.batch.sum c i⟩

def standing? (b : Books) (c : Counter) (i : Int) : Option Int := (b.tally c i).standing?

end Books

namespace Job

def posting? (j : Job) (c : Counter) (i : Int) : Option Int :=
  match j, c with
  | .settle h usage, .tokenQuota =>
    if i = h.tokenId ∧ (h.quote.cost usage : Int) - h.tokenReserved ≠ 0 then
      some (-(h.quote.cost usage - h.tokenReserved))
    else none
  | .settle h usage, .userQuota =>
    if i = h.userId ∧ (h.quote.cost usage : Int) - h.userReserved ≠ 0 then
      some (-(h.quote.cost usage - h.userReserved))
    else none
  | .settle h usage, .usedQuota => if i = h.userId then some (h.quote.cost usage) else none
  | .settle h _, .requestCount => if i = h.userId then some 1 else none
  | .settle h usage, .channelUsedQuota =>
    if i = h.channelId then some (h.quote.cost usage) else none
  | .refund h, .tokenQuota =>
    if i = h.tokenId ∧ 0 < h.tokenReserved then some h.tokenReserved else none
  | .refund h, .userQuota =>
    if i = h.userId ∧ 0 < h.userReserved then some h.userReserved else none
  | .refund _, _ => none

end Job

namespace Ledger

variable {l : Ledger} {b b' b'' : Books}

-- ---------------------------------------------------------------------------
-- Postings
-- ---------------------------------------------------------------------------

theorem post_eq (hs : b.store.Sound) (c : Counter) (i delta : Int) :
    l.post b c i delta = .ok (if l.batched then { b with batch := b.batch.add c i delta }
      else b.withStore (b.store.post c i delta)) := by
  rw [post, hs.post?_eq]
  cases l.batched <;> rfl

theorem tally_tryPost (hs : b.store.Sound) (c : Counter) (i delta : Int) (c' : Counter) (i' : Int) :
    (l.tryPost b c i delta).tally c' i' =
      if c' = c ∧ i' = i then (b.tally c i).post l.batched delta else b.tally c' i' := by
  rw [tryPost, post_eq hs]
  cases l.batched with
  | true =>
    show Tally.mk (b.store.cell? c' i') ((b.batch.add c i delta).sum c' i') = _
    rw [Batch.sum_add]
    by_cases h : c' = c ∧ i' = i
    · obtain ⟨rfl, rfl⟩ := h
      by_cases hd : delta = 0 <;> simp [Tally.post, Books.tally, hd]
    · have hne : ¬(c' = c ∧ i' = i ∧ delta ≠ 0) := fun hc => h ⟨hc.1, hc.2.1⟩
      rw [if_neg h, if_neg hne, Books.tally]
  | false =>
    show Tally.mk ((b.store.post c i delta).cell? c' i') (b.batch.sum c' i') = _
    rw [Store.cell?_post]
    by_cases h : c' = c ∧ i' = i
    · obtain ⟨rfl, rfl⟩ := h
      simp [Tally.post, Books.tally]
    · rw [if_neg h, if_neg h, Books.tally]

theorem sound_tryPost (hs : b.store.Sound) (c : Counter) (i delta : Int) :
    (l.tryPost b c i delta).store.Sound := by
  rw [tryPost, post_eq hs]
  cases l.batched with
  | true => exact hs
  | false => exact hs.post c i delta

theorem store_moveCached (b : Books) (now : Time) (u delta : Int) :
    (moveCached b now u delta).2.store = b.store ∧
      (moveCached b now u delta).2.batch = b.batch := by
  rw [moveCached]
  split
  · exact ⟨rfl, rfl⟩
  · split <;> exact ⟨rfl, rfl⟩

theorem writeLog_eq (b : Books) (h : Hold) (usage : Usage) (actual : Int) :
    ∃ logs, writeLog b h usage actual = b.withStore { b.store with logs } := by
  rw [writeLog]
  split
  · next hl => exact ⟨_, congrArg b.withStore (Store.addLog_eq_ok hl)⟩
  · exact ⟨b.store.logs, rfl⟩

theorem store_notify (b : Books) (u balance : Int) :
    (notify b u balance).store = b.store ∧ (notify b u balance).batch = b.batch := by
  rw [notify]
  split <;> exact ⟨rfl, rfl⟩

/-- `b'` has come from `b` by at most one posting to each counter: `f` tells the amounts. -/
structure Posted (l : Ledger) (b b' : Books) (f : Counter → Int → Option Int) : Prop where
  sound : b'.store.Sound
  tally : ∀ c i, b'.tally c i = (f c i).elim (b.tally c i) ((b.tally c i).post l.batched)

theorem Posted.refl (hs : b.store.Sound) : Posted l b b fun _ _ => none := ⟨hs, fun _ _ => rfl⟩

theorem Posted.single (hs : b.store.Sound) (c : Counter) (i delta : Int) :
    Posted l b (l.tryPost b c i delta)
      fun c' i' => if c' = c ∧ i' = i then some delta else none := by
  refine ⟨sound_tryPost hs c i delta, fun c' i' => ?_⟩
  rw [tally_tryPost hs]
  by_cases h : c' = c ∧ i' = i
  · rw [if_pos h, if_pos h, h.1, h.2]; rfl
  · rw [if_neg h, if_neg h]; rfl

theorem Posted.same (h : Posted l b b' f) (hst : b''.store = b'.store)
    (hba : b''.batch = b'.batch) : Posted l b b'' f := by
  refine ⟨hst ▸ h.sound, fun c i => ?_⟩
  rw [← h.tally, Books.tally, Books.tally, hst, hba]

theorem Posted.trans (h : Posted l b b' f) (h' : Posted l b' b'' g)
    (hd : ∀ c i, f c i = none ∨ g c i = none) :
    Posted l b b'' fun c i => (f c i).or (g c i) := by
  refine ⟨h'.sound, fun c i => ?_⟩
  rw [h'.tally, h.tally]
  rcases hd c i with hf | hg
  · rw [hf]; rfl
  · rw [hg, Option.or_none]; rfl

theorem Posted.writeLog (h : Posted l b b' f) (hold : Hold) (usage : Usage) (actual : Int) :
    Posted l b (Ledger.writeLog b' hold usage actual) f := by
  obtain ⟨logs, hl⟩ := writeLog_eq b' hold usage actual
  rw [hl]
  refine ⟨h.sound.withLogs logs, fun c i => ?_⟩
  rw [← h.tally]
  show Tally.mk (Store.cell? { b'.store with logs } c i) _ = _
  rw [Store.cell?_withLogs]
  rfl

theorem Posted.congr (h : Posted l b b' f) (hfg : ∀ c i, f c i = g c i) : Posted l b b' g :=
  ⟨h.sound, fun c i => hfg c i ▸ h.tally c i⟩

/-- A posting that is left out where `skip` holds. -/
theorem Posted.unless (hs : b.store.Sound) (skip : Prop) [Decidable skip] (c : Counter)
    (i delta : Int) :
    Posted l b (if skip then b else l.tryPost b c i delta)
      fun c' i' => if c' = c ∧ i' = i ∧ ¬skip then some delta else none := by
  by_cases h : skip
  · simpa [h] using Posted.refl hs
  · simpa [h] using Posted.single hs c i delta

/-- Tells a user of the balance where it is known, and of the one looked up where it is not. -/
def tell (b : Books) (now : Time) (u : Int) : Option Int → Books
  | some balance => notify b u balance
  | none =>
    match b.userQuota now u with
    | (.ok (some balance), b) => notify b u balance
    | (_, b) => b

theorem store_tell (b : Books) (now : Time) (u : Int) (balance : Option Int) :
    (tell b now u balance).store = b.store ∧ (tell b now u balance).batch = b.batch := by
  cases balance with
  | some balance => exact store_notify b u balance
  | none =>
    dsimp only [tell]
    split
    · next _ b' hb =>
      have hb' : b' = (b.userQuota now u).2 := by rw [hb]
      subst hb'
      exact store_notify _ u _
    · next _ b' _ hb =>
      have hb' : b' = (b.userQuota now u).2 := by rw [hb]
      subst hb'
      exact ⟨rfl, rfl⟩

theorem posted_settle (hs : b.store.Sound) (now : Time) (h : Hold) (usage : Usage) :
    Posted l b (l.settle b now h usage) (Job.settle h usage).posting? := by
  unfold settle
  extract_lets actual tokenDelta userDelta b₁
  have h₁ : Posted l b b₁ _ := .unless hs (tokenDelta = 0) .tokenQuota h.tokenId (-tokenDelta)
  split
  rename_i balance b₂ hb₂
  have h₂ : Posted l b₁ b₂ fun c i =>
      if c = .userQuota ∧ i = h.userId ∧ ¬userDelta = 0 then some (-userDelta) else none := by
    have hu := Posted.unless (l := l) h₁.sound (userDelta = 0) .userQuota h.userId (-userDelta)
    by_cases hz : userDelta = 0
    · rw [if_pos hz] at hb₂ hu
      cases hb₂
      exact hu
    · rw [if_neg hz] at hb₂ hu
      have hm := store_moveCached (l.tryPost b₁ .userQuota h.userId (-userDelta)) now h.userId
        (-userDelta)
      rw [hb₂] at hm
      exact hu.same hm.1 hm.2
  extract_lets b₃ b₄ b₅ b₆
  have h₃ : Posted l b₂ b₃ _ := .single h₂.sound .usedQuota h.userId actual
  have h₄ : Posted l b₃ b₄ _ := .single h₃.sound .requestCount h.userId 1
  have h₅ : Posted l b₄ b₅ _ := .single h₄.sound .channelUsedQuota h.channelId actual
  have h₆ := ((((h₁.trans h₂ ?_).trans h₃ ?_).trans h₄ ?_).trans h₅ ?_).writeLog h usage actual
  · have hsame := store_tell b₆ now h.userId balance
    refine (h₆.same hsame.1 hsame.2).congr fun c i => ?_
    cases c <;> simp [Job.posting?, tokenDelta, userDelta, actual]
  all_goals intro c i; cases c <;> simp

theorem posted_refund (hs : b.store.Sound) (now : Time) (h : Hold) :
    Posted l b (l.refund b now h) (Job.refund h).posting? := by
  unfold refund
  extract_lets b₁
  have h₁ : Posted l b b₁ fun c i =>
      if c = .tokenQuota ∧ i = h.tokenId ∧ 0 < h.tokenReserved then some h.tokenReserved
      else none := by
    by_cases hp : 0 < h.tokenReserved
    · simpa [b₁, hp] using Posted.single hs .tokenQuota h.tokenId h.tokenReserved
    · simpa [b₁, hp] using Posted.refl hs
  by_cases hp : 0 < h.userReserved
  · rw [if_pos hp]
    have h₂ := Posted.single (l := l) h₁.sound .userQuota h.userId h.userReserved
    have hm := store_moveCached (l.tryPost b₁ .userQuota h.userId h.userReserved) now h.userId
      h.userReserved
    refine ((h₁.trans h₂ fun c i => ?_).same hm.1 hm.2).congr fun c i => ?_
    · cases c <;> simp
    · cases c <;> simp [Job.posting?, hp]
  · rw [if_neg hp]
    refine h₁.congr fun c i => ?_
    cases c <;> simp [Job.posting?, hp]

theorem posted_perform (hs : b.store.Sound) (now : Time) (job : Job) :
    Posted l b (l.perform b now job) job.posting? := by
  cases job with
  | settle h usage => exact posted_settle hs now h usage
  | refund h => exact posted_refund hs now h

theorem standing?_perform (hs : b.store.Sound) (now : Time) (job : Job)
    (hw : ∀ delta ∈ job.posting? c i, (b.tally c i).Within l.batched delta)
    (hv : b.standing? c i = some v) :
    (l.perform b now job).standing? c i = some (v + (job.posting? c i).getD 0) := by
  rw [Books.standing?, (posted_perform hs now job).tally]
  cases hp : job.posting? c i with
  | none => simpa [Books.standing?] using hv
  | some delta => exact Tally.standing?_post (hw delta hp) hv

end Ledger

end Tollgate
