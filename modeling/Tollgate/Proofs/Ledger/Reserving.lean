import Tollgate.Proofs.Ledger.Tally

/-!
# Reserving, by its effect on the counters

A reservation takes what its hold says off the user and the token, and nothing
else; a refused one takes nothing, even where the token had paid already
(`answered_reserve`).
-/

namespace Tollgate

theorem Cache.isSome_fetch (codec : Codec α) (cache : Option Cache) (now : Time) (key : String)
    (ttl : Duration) (computed : Except ε (Option α)) :
    (Cache.fetch codec cache now key ttl computed).2.isSome = cache.isSome := by
  unfold Cache.fetch
  split
  · rfl
  · split
    · exact Option.isSome_map
    · rfl

def Hold.taken (h : Hold) (c : Counter) (i : Int) : Int :=
  match c with
  | .userQuota => if i = h.userId then h.userReserved else 0
  | .tokenQuota => if i = h.tokenId then h.tokenReserved else 0
  | _ => 0

namespace Books

variable {b b' b'' : Books}

structure Taken (b b' : Books) (c : Counter) (i amount : Int) : Prop where
  sound : b'.store.Sound
  others : ∀ c' i', ¬(c' = c ∧ i' = i) → b'.tally c' i' = b.tally c' i'
  own : ∀ v, b.standing? c i = some v → b'.standing? c i = some (v - amount)

theorem Taken.nothing (hs : b'.store.Sound) (ht : ∀ c i, b'.tally c i = b.tally c i) (c : Counter)
    (i : Int) : Taken b b' c i 0 := by
  refine ⟨hs, fun c' i' _ => ht c' i', fun v hv => ?_⟩
  rw [standing?, ht, Int.sub_zero]
  exact hv

theorem Taken.standing? (h : Taken b b' c i amount) (hv : b.standing? c' i' = some v) :
    b'.standing? c' i' = some (v - if c' = c ∧ i' = i then amount else 0) := by
  by_cases hc : c' = c ∧ i' = i
  · obtain ⟨rfl, rfl⟩ := hc
    simpa using h.own v hv
  · rw [Books.standing?, h.others c' i' hc, if_neg hc, Int.sub_zero]
    exact hv

theorem Taken.congr_left (h : Taken b b'' c i amount) (ht : ∀ c i, b.tally c i = b'.tally c i) :
    Taken b' b'' c i amount :=
  ⟨h.sound, fun c' i' hne => ht c' i' ▸ h.others c' i' hne,
    fun v hv => h.own v (by rw [Books.standing?, ht]; exact hv)⟩

theorem Taken.congr_right (h : Taken b b' c i amount) (hs : b''.store.Sound)
    (ht : ∀ c i, b''.tally c i = b'.tally c i) : Taken b b'' c i amount :=
  ⟨hs, fun c' i' hne => (ht c' i').trans (h.others c' i' hne),
    fun v hv => by rw [Books.standing?, ht]; exact h.own v hv⟩

theorem Taken.of_drawn (hs : b.store.Sound) (hd : Store.Drawn b.store c i amount true s)
    (hs' : s.Sound) (ha : 0 ≤ amount) : Taken b (b.withStore s) c i amount := by
  refine ⟨hs', fun c' i' hne => ?_, fun v hv => ?_⟩
  · show Tally.mk (s.cell? c' i') _ = _
    rw [hd.cell?, if_neg fun hc => hne ⟨hc.1, hc.2.1⟩]
    rfl
  · obtain ⟨n, hn, rfl⟩ := Tally.standing?_eq_some.mp hv
    have hval := Store.value?_eq_some.mpr hn
    have hcell : s.cell? c i = some (.int (n - amount)) :=
      Store.value?_eq_some.mp (hd.value? hval (hs.fits hval) ha).2
    refine Tally.standing?_eq_some.mpr ⟨n - amount, hcell, ?_⟩
    show n - amount + b.batch.sum c i = n + b.batch.sum c i - amount
    omega

end Books

namespace Ledger

variable {l : Ledger} {b b' : Books} {r : ChargeRequest}

theorem taken_post (hs : b.store.Sound) (h : l.post b c i (-amount) = .ok b')
    (hw : (b.tally c i).Within l.batched (-amount)) : Books.Taken b b' c i amount := by
  have hb : b' = l.tryPost b c i (-amount) := by rw [tryPost, h]; rfl
  subst hb
  refine ⟨sound_tryPost hs c i _, fun c' i' hne => ?_, fun v hv => ?_⟩
  · rw [tally_tryPost hs, if_neg hne]
  · rw [Books.standing?, tally_tryPost hs, if_pos ⟨rfl, rfl⟩, Int.sub_eq_add_neg]
    exact Tally.standing?_post hw hv

theorem taken_reserveToken (hs : b.store.Sound) (h : reserveToken b r amount = .ok b')
    (ha : 0 ≤ amount)
    (hw : r.tokenUnlimited → (b.tally .tokenQuota r.tokenId).Within false (-amount)) :
    Books.Taken b b' .tokenQuota r.tokenId amount := by
  rw [reserveToken] at h
  split at h
  · next hu =>
    rw [hs.post?_eq] at h
    cases h
    exact taken_post (l := { batched := false }) hs (by rw [post_eq hs]; rfl) (hw hu)
  · obtain ⟨granted, s, hd, hdrawn, hs'⟩ := Store.drawToken?_spec hs r.tokenId amount
    rw [hd] at h
    cases granted with
    | false => cases h
    | true => cases h; exact .of_drawn hs hdrawn hs' ha

theorem taken_reserveStored (hs : b.store.Sound) (h : reserveStored b u amount = .ok b')
    (ha : 0 ≤ amount) : Books.Taken b b' .userQuota u amount := by
  rw [reserveStored] at h
  obtain ⟨granted, s, hd, hdrawn, hs'⟩ := Store.drawUser?_spec hs u amount
  rw [hd] at h
  cases granted with
  | true => cases h; exact .of_drawn hs hdrawn hs' ha
  | false =>
    dsimp only at h
    split at h <;> cases h

theorem restoreToken_eq (b : Books) (t amount : Int) :
    restoreToken b t amount =
      if 0 < amount then tryPost { batched := false } b .tokenQuota t amount else b := rfl

theorem standing?_restoreToken (hs : b.store.Sound) (ht : Books.Taken b b' .tokenQuota t amount)
    (hb : b'.batch = b.batch) (ha : 0 ≤ amount) (hv : b.standing? c i = some v) :
    (restoreToken b' t amount).standing? c i = some v := by
  have hv' := ht.standing? hv
  rw [restoreToken_eq]
  by_cases hp : 0 < amount
  · rw [if_pos hp, Books.standing?, tally_tryPost ht.sound]
    by_cases hc : c = .tokenQuota ∧ i = t
    · obtain ⟨rfl, rfl⟩ := hc
      rw [if_pos ⟨rfl, rfl⟩] at hv' ⊢
      have hw : (b'.tally .tokenQuota i).Within false amount := by
        intro m hm
        obtain ⟨n, hn, rfl⟩ := Tally.standing?_eq_some.mp hv
        obtain ⟨m', hm', hmv⟩ := Tally.standing?_eq_some.mp hv'
        obtain rfl : m = m' := by rw [hm] at hm'; cases hm'; rfl
        have hsum : (b'.tally .tokenQuota i).pending = (b.tally .tokenQuota i).pending := by
          show b'.batch.sum _ _ = b.batch.sum _ _
          rw [hb]
        have hmn : m + amount = n := by omega
        have hval : b.store.value? .tokenQuota i = some n := Store.value?_eq_some.mpr hn
        exact hmn ▸ hs.fits hval
      rw [Tally.standing?_post hw hv', Int.sub_add_cancel]
    · rw [if_neg hc] at hv' ⊢
      rwa [Int.sub_zero] at hv'
  · rw [if_neg hp, hv']
    have hz : amount = 0 := by omega
    simp [hz]

theorem sound_restoreToken (hs : b.store.Sound) (t amount : Int) :
    (restoreToken b t amount).store.Sound := by
  rw [restoreToken_eq]
  split
  · exact sound_tryPost hs _ _ _
  · exact hs

/-- What a draw on a user leaves behind: the amount is taken, or no counter has changed. -/
def UserPaid (b : Books) (u amount : Int) : Except LedgerError Unit × Books → Prop
  | (.ok (), b') => Books.Taken b b' .userQuota u amount
  | (.error _, b') => b'.store = b.store ∧ b'.batch = b.batch

theorem userPaid_reserveUser (hs : b.store.Sound) (ha : 0 ≤ amount)
    (hw : b.cache.isSome → (b.tally .userQuota u).Within l.batched (-amount)) :
    UserPaid b u amount (l.reserveUser b now u amount) := by
  unfold reserveUser
  extract_lets stored key
  have hstored (cache : Option Cache) : UserPaid b u amount (stored (b.withCache cache)) := by
    simp only [stored]
    cases hr : reserveStored (b.withCache cache) u amount with
    | error e => exact ⟨rfl, rfl⟩
    | ok b' =>
      have ht := taken_reserveStored (b := b.withCache cache) hs hr ha
      exact ht.congr_left fun _ _ => rfl
  split
  · next hc => exact hstored b.cache
  · next c hc =>
    split
    · exact hstored b.cache
    · exact hstored _
    · exact ⟨rfl, rfl⟩
    · next c' _ =>
      have hcs : b.cache.isSome := by rw [hc]; rfl
      split
      · next b' hp =>
        exact (taken_post (b := b.withCache (some c')) hs hp (hw hcs)).congr_left fun _ _ => rfl
      · exact ⟨rfl, rfl⟩

/-- The sums that a reservation makes are words, where it comes to make them. -/
def ReserveWithin (l : Ledger) (b : Books) (now : Time) (r : ChargeRequest) : Prop :=
  ∀ quote balance (estimated : Int), l.quote r.group r.model = .ok quote →
    (b.userQuota now r.userId).1 = .ok (some balance) →
    estimated = quote.estimate r.promptTokens l.rules.preConsumeBuffer → estimated ≤ balance →
    (r.tokenUnlimited → ¬l.trusts balance estimated →
      (b.tally .tokenQuota r.tokenId).Within false (-estimated)) ∧
    (b.cache.isSome → (b.tally .userQuota r.userId).Within l.batched (-estimated))

def answerTaken (answer : Except LedgerError Reservation) (c : Counter) (i : Int) : Int :=
  match answer with
  | .ok r => r.hold.taken c i
  | .error _ => 0

/-- The books after an answer: the counters have lost what it has taken. -/
structure Answered (b : Books) (answer : Except LedgerError Reservation) (b' : Books) : Prop where
  sound : b'.store.Sound
  standing : ∀ c i v, b.standing? c i = some v →
    b'.standing? c i = some (v - answerTaken answer c i)
  opens : ∀ r, answer = .ok r →
    r.state = .reserved ∧ 0 ≤ r.hold.userReserved ∧ 0 ≤ r.hold.tokenReserved

theorem Answered.refused (hs : b'.store.Sound)
    (hv : ∀ c i v, b.standing? c i = some v → b'.standing? c i = some v) (e : LedgerError) :
    Answered b (.error e) b' :=
  ⟨hs, fun c i v h => by rw [answerTaken, Int.sub_zero]; exact hv c i v h, fun r h => by cases h⟩

theorem reserveToken_frame (h : reserveToken b r amount = .ok b') :
    b'.batch = b.batch ∧ b'.cache = b.cache := by
  rw [reserveToken] at h
  split at h <;> split at h <;> cases h <;> exact ⟨rfl, rfl⟩

theorem answered_reserve (hs : b.store.Sound) (hw : l.ReserveWithin b now r) :
    Answered b (l.reserve b now r).1 (l.reserve b now r).2 := by
  generalize hp : l.reserve b now r = p
  obtain ⟨answer, b'⟩ := p
  unfold reserve at hp
  split at hp
  · cases hp
    exact .refused hs (fun _ _ _ h => h) _
  next quote hq =>
  extract_lets estimated at hp
  have hpos : 0 ≤ estimated := Int.natCast_nonneg _
  -- The lookup changes no more than the cache.
  rcases hlook : b.userQuota now r.userId with ⟨found, b₁⟩
  have hb₁ : b₁ = (b.userQuota now r.userId).2 := by rw [hlook]
  have htally (c : Counter) (i : Int) : b₁.tally c i = b.tally c i := by rw [hb₁]; rfl
  have hs₁ : b₁.store.Sound := by rw [hb₁]; exact hs
  have hkeep : ∀ c i v, b.standing? c i = some v → b₁.standing? c i = some v :=
    fun c i v h => by rw [Books.standing?, htally]; exact h
  rw [hlook] at hp
  split at hp
  · next heq => cases heq; cases hp; exact .refused hs₁ hkeep _
  · next heq => cases heq; cases hp; exact .refused hs₁ hkeep _
  next balance _ heq =>
  cases heq
  split at hp
  · cases hp; exact .refused hs₁ hkeep _
  next hcover =>
  have hwithin := hw quote balance estimated hq (by rw [hlook]) rfl (by omega)
  extract_lets tokenReserved tokenPaid at hp
  cases htoken : tokenPaid with
  | error e => rw [htoken] at hp; cases hp; exact .refused hs₁ hkeep _
  | ok b₂ =>
  rw [htoken] at hp
  dsimp only at hp
  -- A trusted token pays nothing, any other one the estimate.
  have hpaid : Books.Taken b₁ b₂ .tokenQuota r.tokenId tokenReserved ∧ b₂.batch = b₁.batch ∧
      b₂.cache = b₁.cache ∧ 0 ≤ tokenReserved := by
    by_cases ht : l.trusts balance estimated
    · simp only [tokenPaid, tokenReserved, if_pos ht] at htoken ⊢
      cases htoken
      exact ⟨.nothing hs₁ (fun _ _ => rfl) _ _, rfl, rfl, Int.le_refl 0⟩
    · simp only [tokenPaid, tokenReserved, if_neg ht] at htoken ⊢
      have hf := reserveToken_frame htoken
      refine ⟨taken_reserveToken hs₁ htoken hpos fun hu => ?_, hf.1, hf.2, hpos⟩
      rw [htally]
      exact hwithin.1 hu ht
  obtain ⟨htaken, hbatch, hcache, hres⟩ := hpaid
  have huser : UserPaid b₂ r.userId estimated (l.reserveUser b₂ now r.userId estimated) :=
    userPaid_reserveUser htaken.sound hpos (fun hc => by
      rw [htaken.others _ _ (by simp), htally]
      refine hwithin.2 ?_
      rw [hcache, hb₁] at hc
      exact (Cache.isSome_fetch _ _ _ _ _ _).symm.trans hc)
  split at hp
  · next e b₃ he =>
    rw [he] at huser
    cases hp
    have htaken₃ : Books.Taken b₁ b₃ .tokenQuota r.tokenId tokenReserved :=
      htaken.congr_right (huser.1 ▸ htaken.sound) fun c i => by
        rw [Books.tally, Books.tally, huser.1, huser.2]
    refine .refused (sound_restoreToken htaken₃.sound _ _) (fun c i v hv => ?_) _
    exact standing?_restoreToken hs₁ htaken₃ (huser.2.trans hbatch) hres (hkeep c i v hv)
  · next b₃ he =>
    rw [he] at huser
    cases hp
    refine ⟨huser.sound, fun c i v hv => ?_, fun r hr => ?_⟩
    · rw [huser.standing? (htaken.standing? (hkeep c i v hv))]
      cases c <;> simp [answerTaken, Hold.taken]
    · cases hr
      exact ⟨rfl, hpos, hres⟩

end Ledger

end Tollgate
