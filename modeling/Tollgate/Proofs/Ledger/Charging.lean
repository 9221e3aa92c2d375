import Tollgate.Proofs.Ledger.Tally

/-!
# What a settlement charges

A settlement adds one entry to the log (`logs_settle`) and the cost to the
counter of one channel, both of them the channel of the hold
(`charged_settle`). Other jobs leave the log alone.
-/

namespace Tollgate

def Hold.entry (h : Hold) (usage : Usage) (id : Int) : LogEntry where
  id := id
  createdAt := ""
  userId := h.userId
  tokenId := h.tokenId
  channelId := h.channelId
  model := h.model
  promptTokens := usage.promptTokens
  completionTokens := usage.completionTokens
  quota := h.quote.cost usage
  requestId := some h.requestId

theorem Store.Sound.addLog_eq {s : Store} (hs : s.Sound) (hroom : s.logs.topId < Word.greatest)
    (e : LogEntry) :
    s.addLog e = .ok (s.logs.topId + 1,
      { s with logs := s.logs.add (s.logs.topId + 1) { e with id := s.logs.topId + 1 } }) := by
  have hassign : s.logs.assign 0 = .ok (s.logs.topId + 1) := by
    rw [Numbered.assign, if_neg (Int.lt_irrefl 0), if_pos hroom]
  rw [Store.addLog, hs.guard, hassign]
  rfl

namespace Ledger

variable {l : Ledger} {b b' b'' : Books} {now : Time} {h : Hold} {usage : Usage}

/-- `b'` has come from `b` without a write to the log, and its store is still sound. -/
structure Unlogged (b b' : Books) : Prop where
  sound : b'.store.Sound
  logs : b'.store.logs = b.store.logs

theorem Unlogged.tryPost (hu : Unlogged b b') (c : Counter) (i d : Int) :
    Unlogged b (l.tryPost b' c i d) := by
  refine ⟨sound_tryPost hu.sound c i d, ?_⟩
  rw [Ledger.tryPost, post_eq hu.sound, ← hu.logs]
  cases l.batched with
  | true => rfl
  | false => cases c <;> rfl

theorem Unlogged.same (hu : Unlogged b b') (hs : b''.store = b'.store) : Unlogged b b'' :=
  ⟨hs ▸ hu.sound, hs ▸ hu.logs⟩

theorem Unlogged.moveCached (hu : Unlogged b b') (now : Time) (u d : Int) :
    Unlogged b (Ledger.moveCached (l.tryPost b' .userQuota u d) now u d).2 :=
  (hu.tryPost .userQuota u d).same (store_moveCached _ now u d).1

theorem logs_writeLog (hs : b.store.Sound) (hroom : b.store.logs.topId < Word.greatest) :
    (writeLog b h usage (h.quote.cost usage)).store.logs =
      b.store.logs.add (b.store.logs.topId + 1) (h.entry usage (b.store.logs.topId + 1)) := by
  rw [writeLog, hs.addLog_eq hroom]
  rfl

theorem logs_settle (hs : b.store.Sound) (hroom : b.store.logs.topId < Word.greatest) :
    (l.settle b now h usage).store.logs =
      b.store.logs.add (b.store.logs.topId + 1) (h.entry usage (b.store.logs.topId + 1)) := by
  have hb : Unlogged b b := ⟨hs, rfl⟩
  unfold settle
  extract_lets actual tokenDelta userDelta b₁
  have h₁ : Unlogged b b₁ := by
    by_cases hz : tokenDelta = 0
    · simpa [b₁, hz] using hb
    · simpa [b₁, hz] using hb.tryPost .tokenQuota h.tokenId (-tokenDelta)
  split
  rename_i balance b₂ hb₂
  have h₂ : Unlogged b b₂ := by
    split at hb₂
    · cases hb₂
      exact h₁
    · have hm := h₁.moveCached (l := l) now h.userId (-userDelta)
      rw [hb₂] at hm
      exact hm
  extract_lets b₃ b₄ b₅ b₆
  have h₅ : Unlogged b b₅ :=
    ((h₂.tryPost .usedQuota h.userId actual).tryPost .requestCount h.userId 1).tryPost
      .channelUsedQuota h.channelId actual
  have h₆ : b₆.store.logs = _ := logs_writeLog h₅.sound (h₅.logs ▸ hroom)
  rw [h₅.logs] at h₆
  rw [← h₆]
  exact congrArg Store.logs (store_tell b₆ now h.userId balance).1

theorem logs_refund (hs : b.store.Sound) : (l.refund b now h).store.logs = b.store.logs := by
  have hb : Unlogged b b := ⟨hs, rfl⟩
  unfold refund
  extract_lets b₁
  have h₁ : Unlogged b b₁ := by
    by_cases hp : 0 < h.tokenReserved
    · simpa [b₁, hp] using hb.tryPost .tokenQuota h.tokenId h.tokenReserved
    · simpa [b₁, hp] using hb
  split
  · exact (h₁.moveCached now h.userId h.userReserved).logs
  · exact h₁.logs

end Ledger

/-- `b'` has come from `b` by charging a cost to one channel: its counter alone has grown by the
cost, and the log by one entry, which names the channel and the cost. -/
structure Books.Charged (b b' : Books) (batched : Bool) (channelId cost : Int)
    (requestId : String) : Prop where
  own : ∀ v, b.standing? .channelUsedQuota channelId = some v →
    (b.tally .channelUsedQuota channelId).Within batched cost →
    b'.standing? .channelUsedQuota channelId = some (v + cost)
  others : ∀ id, id ≠ channelId → b'.tally .channelUsedQuota id = b.tally .channelUsedQuota id
  logged : ∃ e : LogEntry, b'.store.logs.rows = b.store.logs.rows ++ [e] ∧
    e.channelId = channelId ∧ e.quota = cost ∧ e.requestId = some requestId

theorem Ledger.charged_settle {l : Ledger} {b : Books} (hs : b.store.Sound)
    (hroom : b.store.logs.topId < Word.greatest) (now : Time) (h : Hold) (usage : Usage) :
    b.Charged (l.settle b now h usage) l.batched h.channelId (h.quote.cost usage) h.requestId where
  own v hv hw := by
    have hpost : (Job.settle h usage).posting? .channelUsedQuota h.channelId =
        some (h.quote.cost usage : Int) := if_pos rfl
    have hmoved := standing?_perform (l := l) hs now (.settle h usage) (by
      rintro delta hd
      rw [hpost] at hd
      obtain rfl := Option.some.inj hd
      exact hw) hv
    rwa [hpost] at hmoved
  others id hid := by
    have hpost : (Job.settle h usage).posting? .channelUsedQuota id = none := if_neg hid
    rw [(posted_settle hs now h usage).tally, hpost]
    rfl
  logged := ⟨_, congrArg Numbered.rows (logs_settle hs hroom), rfl, rfl, rfl⟩

end Tollgate
