import Tollgate.Proofs.Cache.Filling
import Tollgate.Proofs.Store.Listing

/-!
# Accounts in the store

What a store tells under an account key rests on one row, of a user or of a
token. A statement that leaves the row alone leaves what is told (`Keeps`); one
that adds a row leaves all that was told before.
-/

namespace Tollgate

/-- The user whose row is told of. -/
def AccountKey.userId? : AccountKey → Option Int
  | .token _ => none
  | .userGroup u | .userEnabled u | .userQuota u => some u

namespace Store

variable {s s' : Store} {u : Int} {key : String} {k : AccountKey}

def tokenRowByKey? (s : Store) (key : String) : Option TokenRow :=
  s.tokens.rows.find? (·.key = key)

/-- What the one store tells under a key, the other tells as well. -/
def Keeps (s : Store) (k : AccountKey) (s' : Store) : Prop :=
  ∀ v, k.stored s = .ok (some v) → k.stored s' = .ok (some v)

theorem stored_user (hk : k.userId? = some u) (hguard : s'.guard = s.guard)
    (hrow : s'.userRow? u = s.userRow? u) : k.stored s' = k.stored s := by
  cases k <;> cases hk <;>
    · simp only [AccountKey.stored, userGroup?, userEnabled?, userQuota?, hguard, hrow]
      rfl

theorem stored_token (hguard : s'.guard = s.guard)
    (hrow : s'.tokenRowByKey? key = s.tokenRowByKey? key) :
    (AccountKey.token key).stored s' = (AccountKey.token key).stored s := by
  rw [tokenRowByKey?, tokenRowByKey?] at hrow
  simp only [AccountKey.stored, tokenByKey?, hguard, hrow]
  rfl

theorem userRow_of_stored (hk : k.userId? = some u) (hv : k.stored s = .ok (some v)) :
    ∃ r, s.userRow? u = some r := by
  cases hr : s.userRow? u with
  | some r => exact ⟨r, rfl⟩
  | none =>
    cases hg : s.guard .users <;> cases k <;> cases hk <;>
      · simp only [AccountKey.stored, userGroup?, userEnabled?, userQuota?, hg, hr] at hv
        cases hv

theorem tokenRow_of_stored (hv : (AccountKey.token key).stored s = .ok (some v)) :
    ∃ r, s.tokenRowByKey? key = some r := by
  cases hr : s.tokenRowByKey? key with
  | some r => exact ⟨r, rfl⟩
  | none =>
    rw [tokenRowByKey?] at hr
    cases hg : s.guard .tokens <;>
      · simp only [AccountKey.stored, tokenByKey?, hg, hr] at hv
        cases hv

theorem keeps_of_rows (hguard : s'.guard = s.guard) (k : AccountKey)
    (hu : ∀ u, k.userId? = some u → ∀ r, s.userRow? u = some r → s'.userRow? u = some r)
    (ht : ∀ key, k = .token key →
      ∀ r, s.tokenRowByKey? key = some r → s'.tokenRowByKey? key = some r) : s.Keeps k s' := by
  intro v hv
  cases hk : k.userId? with
  | some u =>
    obtain ⟨r, hr⟩ := userRow_of_stored hk hv
    rw [stored_user hk hguard ((hu u hk r hr).trans hr.symm), hv]
  | none =>
    cases k with
    | token key =>
      obtain ⟨r, hr⟩ := tokenRow_of_stored hv
      rw [stored_token hguard ((ht key rfl r hr).trans hr.symm), hv]
    | userGroup | userEnabled | userQuota => cases hk

-- ---------------------------------------------------------------------------
-- Writes
-- ---------------------------------------------------------------------------

/-- A write that neither changes nor loses a row of any other user. -/
structure WritesUser (s : Store) (u : Int) (s' : Store) : Prop where
  guard : s'.guard = s.guard
  tokens : s'.tokens = s.tokens
  others : ∀ v ≠ u, ∀ r, s.userRow? v = some r → s'.userRow? v = some r

structure WritesToken (s : Store) (key : String) (s' : Store) : Prop where
  guard : s'.guard = s.guard
  users : s'.users = s.users
  others : ∀ k ≠ key, ∀ r, s.tokenRowByKey? k = some r → s'.tokenRowByKey? k = some r

theorem WritesUser.keeps (h : s.WritesUser u s') (k : AccountKey) (hk : k.userId? ≠ some u) :
    s.Keeps k s' :=
  keeps_of_rows h.guard k (fun v hv => h.others v fun heq => hk (heq ▸ hv))
    fun key _ r hr => by rwa [tokenRowByKey?, h.tokens]

theorem WritesToken.keeps (h : s.WritesToken key s') (k : AccountKey) (hk : k ≠ .token key) :
    s.Keeps k s' :=
  keeps_of_rows h.guard k (fun u _ r hr => by rwa [userRow?, h.users])
    fun key' hkey' => h.others key' fun heq => hk (heq ▸ hkey')

theorem find?_update [DecidableEq κ] {t : Numbered ρ} {key : ρ → κ} {f : ρ → ρ} {p : ρ → Bool}
    (hf : ∀ r, key (f r) = key r) (hp : ∀ r ∈ t.rows, p r = true → key r ≠ i) :
    (t.update p f).rows.find? (fun r => key r = i) = t.rows.find? fun r => key r = i := by
  obtain ⟨rows, top⟩ := t
  simp only [Numbered.update]
  induction rows with
  | nil => rfl
  | cons r rows ih =>
    have hrest := ih fun r' hr' => hp r' (List.mem_cons_of_mem _ hr')
    by_cases hr : p r = true
    · have hne := hp r (List.mem_cons_self ..) hr
      simp [hr, hf, hne, hrest]
    · by_cases hkey : key r = i <;> simp [hr, hkey, hrest]

theorem writesUser_update {p : UserRow → Bool} {f : UserRow → UserRow}
    (hp : ∀ r ∈ s.users.rows, p r = true → r.id = u) (hf : ∀ r, (f r).id = r.id) :
    s.WritesUser u { s with users := s.users.update p f } where
  guard := rfl
  tokens := rfl
  others := fun v hv r hr => by
    refine (find?_update hf fun r' hr' hpr => ?_).trans hr
    rw [hp r' hr' hpr]
    exact hv.symm

theorem writesUser_drawUser (h : s.drawUser? u amount = .ok (covered, s')) :
    s.WritesUser u s' := by
  rw [drawUser?, bind_eq_ok] at h
  obtain ⟨-, -, h⟩ := h
  cases h
  exact writesUser_update (fun _ _ hr => of_decide_eq_true (Bool.and_eq_true_iff.mp hr).1)
    fun _ => rfl

theorem find?_add {t : Numbered ρ} {p : ρ → Bool} (h : t.rows.find? p = some r) (newId : Int)
    (row : ρ) : (t.add newId row).rows.find? p = some r := by
  rw [Numbered.add, List.find?_append, h]
  rfl

theorem addUser_eq_ok (h : s.addUser user = .ok (newId, s')) :
    s' = { s with users := s.users.add newId (.ofUser user newId) } := by
  simp only [addUser, bind_eq_ok] at h
  obtain ⟨-, -, i, -, h⟩ := h
  split at h
  · cases h
  split at h
  · cases h
  cases h
  rfl

theorem addToken_eq_ok (h : s.addToken token = .ok (newId, s')) :
    s' = { s with tokens := s.tokens.add newId (.ofToken token newId) } := by
  simp only [addToken, bind_eq_ok] at h
  obtain ⟨-, -, i, -, h⟩ := h
  split at h
  · cases h
  split at h
  · cases h
  cases h
  rfl

theorem keeps_addUser (h : s.addUser user = .ok (newId, s')) (k : AccountKey) : s.Keeps k s' := by
  have heq := addUser_eq_ok h
  refine keeps_of_rows (by rw [heq]; rfl) k (fun u _ r hr => ?_) fun key _ r hr => ?_
  · rw [heq]
    exact find?_add hr ..
  · rw [heq]
    exact hr

theorem keeps_addToken (h : s.addToken token = .ok (newId, s')) (k : AccountKey) :
    s.Keeps k s' := by
  have heq := addToken_eq_ok h
  refine keeps_of_rows (by rw [heq]; rfl) k (fun u _ r hr => ?_) fun key _ r hr => ?_
  · rw [heq]
    exact hr
  · rw [heq]
    exact find?_add hr ..

end Store

end Tollgate
