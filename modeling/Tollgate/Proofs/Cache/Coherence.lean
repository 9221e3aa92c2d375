import Tollgate.Proofs.Cache.Codecs
import Tollgate.Proofs.Store.Accounts

/-!
# Lookups tell what is stored

A directory answers as its store would, whatever it has kept from earlier
lookups (`lookups_transparent`). Rows are added without a word to the cache,
which keeps no absence; who changes a row has its keys forgotten at once. What
stands in the cache is then what the store tells (`Coherent`), and every
operation keeps it so.
-/

namespace Tollgate

namespace Cache

variable {cache cache' : Option Cache} {now : Time} {key : String} {e : CacheEntry}

def Forgets (cache : Option Cache) : Prop := ∀ c, cache = some c → CacheVerb.delete ∉ c.refused

theorem Forgets.congr (h : Forgets cache)
    (hrefused : cache'.map (·.refused) = cache.map (·.refused)) : Forgets cache' := by
  intro c' hc'
  rw [hc', Option.map_some] at hrefused
  obtain ⟨c, hc, hsame⟩ := Option.map_eq_some_iff.mp hrefused.symm
  exact hsame ▸ h c hc

theorem entryAt_purge (h : Cache.entryAt (cache.map (·.purge now)) key = some e) :
    Cache.entryAt cache key = some e := by
  cases cache with
  | none => cases h
  | some c =>
    have hget : (c.purge now).entries.get? key = some e := h
    rw [Cache.purge, Dict.get?_filter] at hget
    exact (Option.filter_eq_some_iff.mp hget).1

end Cache

namespace Directory

variable {d : Directory} {k : AccountKey} {key : String} {e : CacheEntry}

theorem forget_eq (h : Cache.Forgets d.cache) (k : AccountKey) :
    d.forget k = { d with cache := d.cache.map (·.drop k.text) } := by
  unfold forget
  cases hc : d.cache with
  | none => rfl
  | some c =>
    rw [Option.map_some, Option.map_some, Cache.delete, Cache.serve, if_neg (h c hc)]
    rfl

theorem forgets_forget (h : Cache.Forgets d.cache) (k : AccountKey) :
    Cache.Forgets (d.forget k).cache := by
  rw [forget_eq h]
  exact h.congr (by rw [Option.map_map]; rfl)

theorem entryAt_forget (h : Cache.Forgets d.cache)
    (he : Cache.entryAt (d.forget k).cache key = some e) :
    key ≠ k.text ∧ Cache.entryAt d.cache key = some e := by
  rw [forget_eq h] at he
  cases hc : d.cache with
  | none =>
    rw [hc] at he
    cases he
  | some c =>
    rw [hc] at he
    have hget : (c.drop k.text).entries.get? key = some e := he
    rw [Cache.drop, Dict.get?_erase] at hget
    split at hget
    · cases hget
    · next hkey => exact ⟨hkey, hget⟩

def find (d : Directory) (now : Time) : AccountKey → Directory
  | .token key => (d.tokenByKey now key).2
  | .userGroup u => (d.userGroup now u).2
  | .userEnabled u => (d.userEnabled now u).2
  | .userQuota u => (d.userQuota now u).2

theorem find_eq (d : Directory) (now : Time) (k : AccountKey) :
    ∃ fault : StoreFault → LookupFault, d.find now k = { d with cache := (Cache.fetch k.codec
      d.cache now k.text d.ttl ((k.stored d.store).mapError fault)).2 } := by
  cases k <;> exact ⟨_, rfl⟩

end Directory

-- ---------------------------------------------------------------------------
-- A directory at work
-- ---------------------------------------------------------------------------

structure Registry where
  directory : Directory
  now : Time := 0

/-- Lookups, the passing of time, and writes of others. A row is written as `after` has it, and
the keys of it are forgotten at once; what the cache keeps under keys of no account may change in
any way. -/
inductive RegistryOp where
  | find (key : AccountKey)
  | purge
  | wait (span : Duration)
  | addUser (user : User)
  | addToken (token : Token)
  | writeUser (userId : Int) (after : Store)
  | writeToken (key : String) (after : Store)
  | share (after : Option Cache)

namespace Registry

def store (r : Registry) : Store := r.directory.store

def cache (r : Registry) : Option Cache := r.directory.cache

def added (r : Registry) (answer : Except StoreFault (Int × Store)) : Registry :=
  match answer with
  | .error _ => r
  | .ok (_, store) => { r with directory.store := store }

def step (r : Registry) : RegistryOp → Registry
  | .find key => { r with directory := r.directory.find r.now key }
  | .purge => { r with directory.cache := r.cache.map (·.purge r.now) }
  | .wait span => { r with now := r.now + span }
  | .addUser user => r.added (r.store.addUser user)
  | .addToken token => r.added (r.store.addToken token)
  | .writeUser u after =>
    { r with directory := { r.directory with store := after }.invalidateUser u }
  | .writeToken key after =>
    { r with directory := { r.directory with store := after }.invalidateToken key }
  | .share after => { r with directory.cache := after }

def run (r : Registry) (ops : List RegistryOp) : Registry := ops.foldl step r

/-- Writes touch the row that they are about, and nobody else writes under account keys. -/
def Allows (r : Registry) : RegistryOp → Prop
  | .writeUser u after => r.store.WritesUser u after
  | .writeToken key after => r.store.WritesToken key after
  | .share after => ∀ k : AccountKey, Cache.AgreeAt k.text r.cache after
  | _ => True

def AllowsAll (r : Registry) : List RegistryOp → Prop
  | [] => True
  | op :: ops => r.Allows op ∧ (r.step op).AllowsAll ops

-- ---------------------------------------------------------------------------
-- What the cache holds
-- ---------------------------------------------------------------------------

variable {r r' : Registry}

/-- Whatever can be read in the cache, the store tells. -/
structure Coherent (r : Registry) : Prop where
  forgets : Cache.Forgets r.cache
  told : ∀ (k : AccountKey) e v, Cache.entryAt r.cache k.text = some e →
    k.codec.decode e.text = some v → k.stored r.store = .ok (some v)

theorem Coherent.narrow (h : r.Coherent) (hforgets : Cache.Forgets r'.cache)
    (hentry : ∀ (k : AccountKey) e, Cache.entryAt r'.cache k.text = some e →
      Cache.entryAt r.cache k.text = some e ∧ r.store.Keeps k r'.store) : r'.Coherent where
  forgets := hforgets
  told := fun k e v he hv => by
    obtain ⟨he, hkeeps⟩ := hentry k e he
    exact hkeeps v (h.told k e v he hv)

theorem store_find (r : Registry) (k : AccountKey) : (r.step (.find k)).store = r.store := by
  obtain ⟨fault, hfind⟩ := r.directory.find_eq r.now k
  exact congrArg (·.store) hfind

theorem coherent_find (h : r.Coherent) (k : AccountKey) : (r.step (.find k)).Coherent := by
  obtain ⟨fault, hfind⟩ := r.directory.find_eq r.now k
  have hfilled := Cache.filled_fetch k r.store r.directory.ttl r.now r.cache fault
  have hcache : (r.step (.find k)).cache = (Cache.fetch k.codec r.cache r.now k.text
      r.directory.ttl ((k.stored r.store).mapError fault)).2 := congrArg (·.cache) hfind
  rw [← hcache] at hfilled
  refine ⟨h.forgets.congr hfilled.refused, fun l e v he hv => ?_⟩
  rw [store_find]
  rcases hfilled.entry l.text with hkept | ⟨l', v', htext, hfilled⟩
  · exact h.told l e v (hkept ▸ he) hv
  · -- What a lookup has put there is what the store told it.
    obtain rfl := AccountKey.text_injective htext
    obtain rfl := Option.some.inj (hfilled.entry.symm.trans he)
    obtain rfl := l'.faithful v' v hv
    exact hfilled.stored

theorem coherent_purge (h : r.Coherent) : (r.step .purge).Coherent := by
  refine h.narrow (h.forgets.congr ?_) fun k e he => ⟨Cache.entryAt_purge he, fun _ hv => hv⟩
  show (r.cache.map _).map _ = _
  rw [Option.map_map]
  rfl

theorem coherent_added (h : r.Coherent) {answer : Except StoreFault (Int × Store)}
    (hkeeps : ∀ newId s, answer = .ok (newId, s) → ∀ k, r.store.Keeps k s) :
    (r.added answer).Coherent := by
  unfold added
  split
  · exact h
  · exact h.narrow h.forgets fun k e he => ⟨he, hkeeps _ _ rfl k⟩

theorem coherent_writeUser (h : r.Coherent) (hwrite : r.store.WritesUser u after) :
    (r.step (.writeUser u after)).Coherent := by
  have hwritten : Cache.Forgets ({ r.directory with store := after } : Directory).cache := h.forgets
  have hgroup := Directory.forgets_forget hwritten (.userGroup u)
  have henabled := Directory.forgets_forget hgroup (.userEnabled u)
  refine h.narrow (Directory.forgets_forget henabled (.userQuota u)) fun k e he => ?_
  obtain ⟨hquota, he⟩ := Directory.entryAt_forget henabled he
  obtain ⟨hen, he⟩ := Directory.entryAt_forget hgroup he
  obtain ⟨hgr, he⟩ := Directory.entryAt_forget hwritten he
  refine ⟨he, hwrite.keeps k fun hk => ?_⟩
  cases k <;> cases hk
  · exact hgr rfl
  · exact hen rfl
  · exact hquota rfl

theorem coherent_writeToken (h : r.Coherent) (hwrite : r.store.WritesToken key after) :
    (r.step (.writeToken key after)).Coherent := by
  have hwritten : Cache.Forgets ({ r.directory with store := after } : Directory).cache := h.forgets
  refine h.narrow (Directory.forgets_forget hwritten (.token key)) fun k e he => ?_
  obtain ⟨hk, he⟩ := Directory.entryAt_forget hwritten he
  exact ⟨he, hwrite.keeps k fun heq => hk (heq ▸ rfl)⟩

theorem coherent_step (h : r.Coherent) (hop : r.Allows op) : (r.step op).Coherent := by
  cases op with
  | find k => exact coherent_find h k
  | purge => exact coherent_purge h
  | wait span => exact h.narrow h.forgets fun k e he => ⟨he, fun _ hv => hv⟩
  | addUser user => exact coherent_added h fun _ _ hadd => Store.keeps_addUser hadd
  | addToken token => exact coherent_added h fun _ _ hadd => Store.keeps_addToken hadd
  | writeUser u after => exact coherent_writeUser h hop
  | writeToken key after => exact coherent_writeToken h hop
  | share after =>
    exact h.narrow (h.forgets.congr (hop (.token "")).refused) fun k e he =>
      ⟨(hop k).entry ▸ he, fun _ hv => hv⟩

theorem coherent_run (h : r.Coherent) (hops : r.AllowsAll ops) : (r.run ops).Coherent := by
  induction ops generalizing r with
  | nil => exact h
  | cons op ops ih => exact ih (coherent_step h hops.1) hops.2

structure Cold (r : Registry) : Prop where
  forgets : Cache.Forgets r.cache
  empty : ∀ k : AccountKey, Cache.entryAt r.cache k.text = none

theorem Cold.coherent (h : r.Cold) : r.Coherent where
  forgets := h.forgets
  told := fun k e v he _ => by
    rw [h.empty k] at he
    cases he

/-- Where the cache has an answer, the store has the same. -/
theorem Coherent.answer (h : r.Coherent) (k : AccountKey) (ttl : Duration)
    (fault : StoreFault → LookupFault) :
    (Cache.fetch k.codec r.cache r.now k.text ttl ((k.stored r.store).mapError fault)).1 =
      (k.stored r.store).mapError fault := by
  rw [Cache.fetch_fst]
  cases hhit : Cache.hit? k.codec r.cache r.now k.text with
  | none => rfl
  | some v =>
    obtain ⟨-, e, -, -, he, -, hv⟩ := Cache.hit?_eq_some.mp hhit
    rw [h.told k e v he hv]
    rfl

/-- However lookups, insertions, writes and the passing of time follow each other, each lookup
answers what is stored at that moment. -/
theorem lookups_transparent (hcold : r.Cold) (hops : r.AllowsAll ops) :
    (∀ key, ((r.run ops).directory.tokenByKey (r.run ops).now key).1 =
      ((r.run ops).store.tokenByKey? key).mapError (LookupFault.mk .token)) ∧
    (∀ u, ((r.run ops).directory.userGroup (r.run ops).now u).1 =
      ((r.run ops).store.userGroup? u).mapError (LookupFault.mk .group)) ∧
    (∀ u, ((r.run ops).directory.userEnabled (r.run ops).now u).1 =
      ((r.run ops).store.userEnabled? u).mapError (LookupFault.mk .enabled)) ∧
    ∀ u, ((r.run ops).directory.userQuota (r.run ops).now u).1 =
      ((r.run ops).store.userQuota? u).mapError (LookupFault.mk .quota) := by
  have h := coherent_run hcold.coherent hops
  exact ⟨fun key => h.answer (.token key) _ _, fun u => h.answer (.userGroup u) _ _,
    fun u => h.answer (.userEnabled u) _ _, fun u => h.answer (.userQuota u) _ _⟩

-- ---------------------------------------------------------------------------
-- A balance that is drawn on between two lookups
-- ---------------------------------------------------------------------------

def drawnUser : User where
  id := 1
  username := "u"
  group := "default"
  quota := 100
  usedQuota := 0
  requestCount := 0
  status := .enabled
  email := none

def drawnStore (quota : Int) : Store where
  users := { rows := [{ UserRow.ofUser drawnUser 1 with quota := .int quota }], lastId := 1 }

def drawnRegistry : Registry where
  directory := { cache := some {}, ttl := Duration.ofSecs 60 }

def drawnOps : List RegistryOp :=
  [.addUser drawnUser, .find (.userQuota 1), .writeUser 1 (drawnStore 70)]

theorem cold_drawnRegistry : drawnRegistry.Cold where
  forgets := fun c hc => by
    obtain rfl := Option.some.inj hc
    exact List.not_mem_nil
  empty := fun k => rfl

theorem allowsAll_drawnOps : drawnRegistry.AllowsAll drawnOps := by
  refine ⟨trivial, trivial, ?_, trivial⟩
  show (Registry.step _ (.find (.userQuota 1))).store.WritesUser 1 (drawnStore 70)
  rw [store_find]
  have hdraw : (drawnStore 100).drawUser? 1 30 = .ok (true, drawnStore 70) := rfl
  exact Store.writesUser_drawUser hdraw

theorem lookups_transparent_drawn :
    drawnRegistry.Cold ∧ drawnRegistry.AllowsAll drawnOps ∧
      (drawnRegistry.run drawnOps).store.userQuota? 1 = .ok (some 70) ∧
      ((drawnRegistry.run drawnOps).directory.userQuota (drawnRegistry.run drawnOps).now 1).1 =
        ((drawnRegistry.run drawnOps).store.userQuota? 1).mapError (LookupFault.mk .quota) :=
  ⟨cold_drawnRegistry, allowsAll_drawnOps, rfl,
    (lookups_transparent cold_drawnRegistry allowsAll_drawnOps).2.2.2 1⟩

end Registry

end Tollgate
