import Tollgate.Limiter.Key
import Tollgate.Limiter.Strategy
import Tollgate.Proofs.Cache.Words

/-!
# Names in the shared store

Accounts and the counts of limiters are kept in one store under keys that are
put together from parts, one behind the other, with colons between them. A
colon may also stand inside a part. Every key can still be taken apart in one
way only: it begins with a part that has no colon, and so it ends.
-/

namespace Tollgate

-- ---------------------------------------------------------------------------
-- Cutting at a separator
-- ---------------------------------------------------------------------------

theorem append_separator_inj {a b rest rest' : List α} (ha : sep ∉ a) (hb : sep ∉ b)
    (h : a ++ sep :: rest = b ++ sep :: rest') : a = b ∧ rest = rest' := by
  induction a generalizing b with
  | nil =>
    cases b with
    | nil => exact ⟨rfl, (List.cons.inj h).2⟩
    | cons y b =>
      obtain ⟨rfl, -⟩ := List.cons.inj h
      exact absurd (List.mem_cons_self ..) hb
  | cons x a ih =>
    rw [List.mem_cons, not_or] at ha
    cases b with
    | nil => exact absurd (List.cons.inj h).1.symm ha.1
    | cons y b =>
      rw [List.mem_cons, not_or] at hb
      obtain ⟨rfl, htail⟩ := List.cons.inj h
      obtain ⟨rfl, hrest⟩ := ih ha.2 hb.2 htail
      exact ⟨rfl, hrest⟩

theorem separator_append_inj {a b front front' : List α} (ha : sep ∉ a) (hb : sep ∉ b)
    (h : front ++ sep :: a = front' ++ sep :: b) : front = front' ∧ a = b := by
  have hreverse := congrArg List.reverse h
  simp only [List.reverse_append, List.reverse_cons, List.append_assoc, List.singleton_append]
    at hreverse
  obtain ⟨hback, hfront⟩ := append_separator_inj (mt List.mem_reverse.mp ha)
    (mt List.mem_reverse.mp hb) hreverse
  exact ⟨List.reverse_inj.mp hfront, List.reverse_inj.mp hback⟩

theorem colon_not_mem_toString (n : Int) : ':' ∉ (toString n).toList := by
  intro h
  rw [Text.toList_toString] at h
  have hdigit (m : Nat) : ':' ∉ Nat.toDigits 10 m := fun hm => by
    have := Text.isDigit_of_mem_toDigits hm
    simp [Text.isDigit] at this
  split at h
  · rcases List.mem_cons.mp h with hc | hm
    · cases hc
    · exact hdigit _ hm
  · exact hdigit _ h

theorem LimitStrategy.colon_not_mem_tag (s : LimitStrategy) : ':' ∉ s.tag.toList := by
  cases s <;> simp [tag]

theorem qualifiedKey_injective {deployment key key' : String}
    (h : qualifiedKey deployment key = qualifiedKey deployment key') : key = key' := by
  unfold qualifiedKey at h
  split at h
  · exact h
  · have hlist := congrArg String.toList h
    simp only [String.toList_append] at hlist
    exact String.toList_inj.mp (List.append_cancel_left hlist)

-- ---------------------------------------------------------------------------
-- What is kept
-- ---------------------------------------------------------------------------

/-- What is kept in the shared store: facts of accounts, and what the users of a group have used
of a limit. -/
inductive SharedEntry where
  | account (key : AccountKey)
  | relayed (strategy : LimitStrategy) (group : String) (userId : Int)

namespace SharedEntry

def text : SharedEntry → String
  | .account key => key.text
  | .relayed strategy group userId => (LimiterKey.relay group userId).storageKey strategy.tag

def fullKey (deployment : String) (e : SharedEntry) : String := qualifiedKey deployment e.text

/-- What an entry is about: a fact of an account, or the state of a limit in the form that the
strategy keeps it in. -/
def meaning : SharedEntry → AccountKey ⊕ (String × String × Int)
  | .account key => .inl key
  | .relayed strategy group userId => .inr (strategy.tag, group, userId)

theorem toList_relayed (strategy : LimitStrategy) (group : String) (userId : Int) :
    (relayed strategy group userId).text.toList =
      "rl:".toList ++ (strategy.tag.toList ++ ':' :: ("relay:".toList ++
        ((group.toList ++ ":user".toList) ++ ':' :: (toString userId).toList))) := by
  simp [text, LimiterKey.storageKey, LimiterKey.relay]

theorem meaning_relayed_inj
    (h : (relayed strategy group userId).text = (relayed strategy' group' userId').text) :
    strategy.tag = strategy'.tag ∧ group = group' ∧ userId = userId' := by
  have hlist := congrArg String.toList h
  rw [toList_relayed, toList_relayed] at hlist
  obtain ⟨htag, hrest⟩ := append_separator_inj strategy.colon_not_mem_tag
    strategy'.colon_not_mem_tag (List.append_cancel_left hlist)
  obtain ⟨hgroup, huser⟩ := separator_append_inj (colon_not_mem_toString userId)
    (colon_not_mem_toString userId') (List.append_cancel_left hrest)
  exact ⟨String.toList_inj.mp htag, String.toList_inj.mp (List.append_cancel_right hgroup),
    Text.toString_injective (String.toList_inj.mp huser)⟩

theorem text_account_ne (key : AccountKey) (strategy : LimitStrategy) (group : String)
    (userId : Int) : (account key).text ≠ (relayed strategy group userId).text := by
  intro h
  have hlist := congrArg String.toList h
  rw [toList_relayed] at hlist
  cases key <;> simp [text, AccountKey.text] at hlist

theorem text_eq_iff (e f : SharedEntry) : e.text = f.text ↔ e.meaning = f.meaning := by
  cases e with
  | account key =>
    cases f with
    | account key' =>
      refine ⟨fun h => congrArg Sum.inl (AccountKey.text_injective h), fun h => ?_⟩
      rw [Sum.inl.inj h]
    | relayed strategy group userId =>
      exact iff_of_false (text_account_ne key strategy group userId) nofun
  | relayed strategy group userId =>
    cases f with
    | account key =>
      exact iff_of_false (text_account_ne key strategy group userId).symm nofun
    | relayed strategy' group' userId' =>
      constructor
      · intro h
        obtain ⟨htag, rfl, rfl⟩ := meaning_relayed_inj h
        rw [meaning, htag, meaning]
      · intro h
        obtain ⟨htag, hrest⟩ := Prod.mk.inj (Sum.inr.inj h)
        obtain ⟨rfl, rfl⟩ := Prod.mk.inj hrest
        rw [text, htag, text]

/-- Under any deployment, two entries share a key exactly where they are about the same. -/
theorem fullKey_eq_iff (deployment : String) (e f : SharedEntry) :
    e.fullKey deployment = f.fullKey deployment ↔ e.meaning = f.meaning := by
  rw [← text_eq_iff]
  exact ⟨qualifiedKey_injective, fun h => congrArg (qualifiedKey deployment) h⟩

/-- A group whose name imitates the end of a key. -/
example : (relayed .unlimited "a:user:7" 1).text = "rl:none:relay:a:user:7:user:1" := by decide

end SharedEntry

end Tollgate
