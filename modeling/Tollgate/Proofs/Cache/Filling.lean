import Tollgate.Directory
import Tollgate.Proofs.Cache.Telling

/-!
# What lookups leave in the cache

A lookup writes no more than one entry, and only where the cache has no answer
for it: the stored value under the key that was asked for (`fetch_cases`).
However many lookups are made, what the cache could answer stays in it
(`Filled.keeps`).
-/

namespace Tollgate

namespace AccountKey

def Value : AccountKey → Type
  | .token _ => Token
  | .userGroup _ => String
  | .userEnabled _ => Bool
  | .userQuota _ => Int

def codec : (k : AccountKey) → Codec k.Value
  | .token _ => Codec.token
  | .userGroup _ => Codec.text
  | .userEnabled _ => Codec.flag
  | .userQuota _ => Codec.word

def stored (s : Store) : (k : AccountKey) → Except StoreFault (Option k.Value)
  | .token key => s.tokenByKey? key
  | .userGroup u => s.userGroup? u
  | .userEnabled u => s.userEnabled? u
  | .userQuota u => s.userQuota? u

end AccountKey

namespace Cache

variable {c : Cache} {cache cache' cache'' : Option Cache} {now : Time} {key k : String}
  {ttl : Duration} {s : Store}

def entryAt (cache : Option Cache) (key : String) : Option CacheEntry :=
  cache.bind (·.entries.get? key)

/-- The caches give the same answers about one key. -/
structure AgreeAt (key : String) (cache cache' : Option Cache) : Prop where
  refused : cache'.map (·.refused) = cache.map (·.refused)
  entry : entryAt cache' key = entryAt cache key

theorem AgreeAt.refl (key : String) (cache : Option Cache) : AgreeAt key cache cache := ⟨rfl, rfl⟩

theorem AgreeAt.trans (h : AgreeAt key cache cache') (h' : AgreeAt key cache' cache'') :
    AgreeAt key cache cache'' :=
  ⟨h'.refused.trans h.refused, h'.entry.trans h.entry⟩

theorem AgreeAt.hit? (h : AgreeAt key cache cache') (codec : Codec α) (now : Time) :
    Cache.hit? codec cache' now key = Cache.hit? codec cache now key := by
  obtain ⟨hrefused, hentry⟩ := h
  cases cache <;> cases cache' <;> simp [entryAt] at hrefused hentry
  · rfl
  · simp [Cache.hit?, Cache.get, serve, live?, hrefused, hentry]

theorem hit?_eq_some {codec : Codec α} {v : α} :
    hit? codec cache now key = some v ↔ ∃ c e, cache = some c ∧ CacheVerb.get ∉ c.refused ∧
      entryAt cache key = some e ∧ now < e.expires ∧ codec.decode e.text = some v := by
  cases cache with
  | none => simp [hit?]
  | some c =>
    by_cases hget : CacheVerb.get ∈ c.refused
    · simp [hit?, get, serve, hget, bind, Except.bind]
    · cases hlive : c.live? now key with
      | none =>
        simp only [hit?, get, serve, hget, hlive, bind, Except.bind, pure, Except.pure, if_false]
        refine iff_of_false (fun hnone => by cases hnone) ?_
        rintro ⟨_, e, ⟨⟩, -, he, hnow, -⟩
        have := live?_eq_some.mpr ⟨e, he, hnow, rfl⟩
        rw [hlive] at this
        cases this
      | some raw =>
        obtain ⟨e, he, hnow, rfl⟩ := live?_eq_some.mp hlive
        simp only [hit?, get, serve, hget, hlive, bind, Except.bind, pure, Except.pure, if_false]
        constructor
        · intro hv
          exact ⟨c, e, rfl, hget, he, hnow, hv⟩
        · rintro ⟨_, e', ⟨⟩, -, he', -, hv⟩
          obtain rfl := Option.some.inj (he.symm.trans he')
          exact hv

theorem remember_some (codec : Codec α) (c : Cache) (now : Time) (key : String) (ttl : Duration)
    (v : α) :
    remember codec (some c) now key ttl v =
      some (if CacheVerb.set ∈ c.refused then c
        else c.put key ⟨codec.encode v, now + ttl⟩) := by
  rw [remember, Option.map_some, Cache.set, serve]
  by_cases hset : CacheVerb.set ∈ c.refused
  · rw [if_pos hset, if_pos hset]
    rfl
  · rw [if_neg hset, if_neg hset]
    rfl

/-- All that a lookup may do to the cache. -/
theorem fetch_cases (codec : Codec α) (cache : Option Cache) (now : Time) (key : String)
    (ttl : Duration) (computed : Except ε (Option α)) :
    (fetch codec cache now key ttl computed).2 = cache ∨
      ∃ c v, cache = some c ∧ hit? codec cache now key = none ∧ computed = .ok (some v) ∧
        (fetch codec cache now key ttl computed).2 =
          some (c.put key ⟨codec.encode v, now + ttl⟩) := by
  unfold fetch
  cases hhit : hit? codec cache now key with
  | some v => exact .inl rfl
  | none =>
    match computed with
    | .error e => exact .inl rfl
    | .ok none => exact .inl rfl
    | .ok (some v) =>
      cases cache with
      | none => exact .inl rfl
      | some c =>
        dsimp only
        rw [remember_some]
        split
        · exact .inl rfl
        · exact .inr ⟨c, v, rfl, rfl, rfl, rfl⟩

theorem fetch_fst (codec : Codec α) (cache : Option Cache) (now : Time) (key : String)
    (ttl : Duration) (computed : Except ε (Option α)) :
    (fetch codec cache now key ttl computed).1 =
      (hit? codec cache now key).elim computed fun v => .ok (some v) := by
  unfold fetch
  cases hit? codec cache now key with
  | some v => rfl
  | none =>
    match computed with
    | .error e => rfl
    | .ok none => rfl
    | .ok (some v) => rfl

theorem entryAt_put (c : Cache) (key : String) (e : CacheEntry) (k : String) :
    entryAt (some (c.put key e)) k = if k = key then some e else entryAt (some c) k :=
  Dict.get?_set ..

theorem AgreeAt.fetch_other (codec : Codec α) (cache : Option Cache) (now : Time) (ttl : Duration)
    (computed : Except ε (Option α)) (hk : k ≠ key) :
    AgreeAt k cache (fetch codec cache now key ttl computed).2 := by
  rcases fetch_cases codec cache now key ttl computed with heq | ⟨c, v, rfl, -, -, heq⟩
  · rw [heq]
    exact .refl k cache
  · rw [heq]
    exact ⟨rfl, by rw [entryAt_put, if_neg hk]⟩

/-- Caches that agree about a key answer a lookup alike, and agree about it from then on. -/
theorem AgreeAt.fetch (h : AgreeAt key cache cache') (codec : Codec α) (now : Time)
    (ttl : Duration) (computed : Except ε (Option α)) :
    (Cache.fetch codec cache' now key ttl computed).1 =
        (Cache.fetch codec cache now key ttl computed).1 ∧
      AgreeAt key (Cache.fetch codec cache now key ttl computed).2
        (Cache.fetch codec cache' now key ttl computed).2 := by
  refine ⟨by rw [fetch_fst, fetch_fst, h.hit?], ?_⟩
  unfold Cache.fetch
  rw [h.hit?]
  cases Cache.hit? codec cache now key with
  | some v => exact h
  | none =>
    match computed with
    | .error e => exact h
    | .ok none => exact h
    | .ok (some v) =>
      obtain ⟨hrefused, hentry⟩ := h
      cases cache <;> cases cache' <;> simp at hrefused
      · exact .refl key none
      · next c c' =>
        dsimp only
        rw [remember_some, remember_some, hrefused]
        split
        · exact ⟨congrArg some hrefused, hentry⟩
        · refine ⟨congrArg some hrefused, ?_⟩
          rw [entryAt_put, entryAt_put, if_pos rfl, if_pos rfl]

-- ---------------------------------------------------------------------------
-- Any number of lookups
-- ---------------------------------------------------------------------------

/-- An entry that lookups in a store have filled: the cache had no answer under its key, and the
store has. -/
structure FilledAt (s : Store) (ttl : Duration) (now : Time) (cache cache' : Option Cache)
    (k : AccountKey) (v : k.Value) : Prop where
  unanswered : hit? k.codec cache now k.text = none
  stored : k.stored s = .ok (some v)
  entry : entryAt cache' k.text = some ⟨k.codec.encode v, now + ttl⟩

/-- One cache has come from another by lookups in a store. -/
structure Filled (s : Store) (ttl : Duration) (now : Time) (cache cache' : Option Cache) :
    Prop where
  refused : cache'.map (·.refused) = cache.map (·.refused)
  entry : ∀ key, entryAt cache' key = entryAt cache key ∨
    ∃ (k : AccountKey) (v : k.Value), k.text = key ∧ FilledAt s ttl now cache cache' k v

theorem Filled.refl (s : Store) (ttl : Duration) (now : Time) (cache : Option Cache) :
    Filled s ttl now cache cache := ⟨rfl, fun _ => .inl rfl⟩

theorem Filled.agreeAt (h : Filled s ttl now cache cache')
    (hkey : entryAt cache' key = entryAt cache key) : AgreeAt key cache cache' :=
  ⟨h.refused, hkey⟩

theorem Filled.before {c' : Cache} (h : Filled s ttl now cache (some c')) :
    ∃ c, cache = some c ∧ c.refused = c'.refused :=
  Option.map_eq_some_iff.mp h.refused.symm

theorem Filled.trans (h : Filled s ttl now cache cache') (h' : Filled s ttl now cache' cache'') :
    Filled s ttl now cache cache'' := by
  refine ⟨h'.refused.trans h.refused, fun key => ?_⟩
  rcases h'.entry key with hkept' | ⟨k, v, rfl, hfilled'⟩
  · rcases h.entry key with hkept | ⟨k, v, rfl, hfilled⟩
    · exact .inl (hkept'.trans hkept)
    · exact .inr ⟨k, v, rfl, hfilled.unanswered, hfilled.stored, hkept'.trans hfilled.entry⟩
  · refine .inr ⟨k, v, rfl, ?_, hfilled'.stored, hfilled'.entry⟩
    rcases h.entry k.text with hkept | ⟨k₁, v₁, htext, hfilled⟩
    · rw [← (h.agreeAt hkept).hit?]
      exact hfilled'.unanswered
    · obtain rfl := AccountKey.text_injective htext
      exact hfilled.unanswered

theorem Filled.keeps (h : Filled s ttl now cache cache') (k : AccountKey)
    (hk : (hit? k.codec cache now k.text).isSome) :
    entryAt cache' k.text = entryAt cache k.text := by
  rcases h.entry k.text with hkept | ⟨k₁, v₁, htext, hfilled⟩
  · exact hkept
  · obtain rfl := AccountKey.text_injective htext
    rw [hfilled.unanswered] at hk
    cases hk

theorem filled_fetch (k : AccountKey) (s : Store) (ttl : Duration) (now : Time)
    (cache : Option Cache) (fault : StoreFault → ε) :
    Filled s ttl now cache
      (fetch k.codec cache now k.text ttl ((k.stored s).mapError fault)).2 := by
  rcases fetch_cases k.codec cache now k.text ttl ((k.stored s).mapError fault) with
    heq | ⟨c, v, rfl, hhit, hstored, heq⟩
  · rw [heq]
    exact .refl ..
  · rw [heq]
    refine ⟨rfl, fun key => ?_⟩
    by_cases hkey : key = k.text
    · subst hkey
      refine .inr ⟨k, v, rfl, hhit, ?_, by rw [entryAt_put, if_pos rfl]⟩
      cases hs : k.stored s with
      | error f =>
        rw [hs] at hstored
        cases hstored
      | ok found =>
        rw [hs] at hstored
        cases hstored
        rfl
    · exact .inl (by rw [entryAt_put, if_neg hkey])

end Cache

end Tollgate
