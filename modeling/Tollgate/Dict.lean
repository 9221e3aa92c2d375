/-!
# Finite maps

A map is the list of its entries, oldest first, in which no key occurs twice.
`get?` is its view: `get?_set`, `get?_erase`, `get?_filter` and `get?_ofList`
say what each operation does to it, and nothing else need look at the list.
-/

namespace Tollgate

structure Dict (α β : Type) where
  entries : List (α × β)
  distinct : (entries.map Prod.fst).Nodup
deriving DecidableEq

namespace Dict

variable {α β : Type}

def empty : Dict α β := ⟨[], List.nodup_nil⟩

instance : Inhabited (Dict α β) := ⟨empty⟩

def size (d : Dict α β) : Nat := d.entries.length

def isEmpty (d : Dict α β) : Bool := d.entries.isEmpty

def keys (d : Dict α β) : List α := d.entries.map Prod.fst

theorem nodup_keys (d : Dict α β) : d.keys.Nodup := d.distinct

def filter (p : α → β → Bool) (d : Dict α β) : Dict α β where
  entries := d.entries.filter fun e => p e.1 e.2
  distinct := d.distinct.sublist (List.filter_sublist.map _)

variable [DecidableEq α]

def get? (d : Dict α β) (k : α) : Option β :=
  (d.entries.find? (·.1 = k)).map Prod.snd

def contains (d : Dict α β) (k : α) : Bool := (d.get? k).isSome

def getD (d : Dict α β) (k : α) (v : β) : β := (d.get? k).getD v

def erase (d : Dict α β) (k : α) : Dict α β := d.filter fun a _ => a ≠ k

/-- An entry list with `k` bound to `v`, in place where `k` was bound before. -/
def put (k : α) (v : β) : List (α × β) → List (α × β)
  | [] => [(k, v)]
  | e :: rest => if e.1 = k then (k, v) :: rest else e :: put k v rest

theorem keys_put (k : α) (v : β) (es : List (α × β)) :
    (put k v es).map Prod.fst =
      if k ∈ es.map Prod.fst then es.map Prod.fst else es.map Prod.fst ++ [k] := by
  induction es with
  | nil => simp [put]
  | cons e rest ih =>
    by_cases h : e.1 = k
    · subst h; simp [put]
    · simp only [put, if_neg h, List.map_cons, ih, List.mem_cons]
      by_cases hk : k ∈ rest.map Prod.fst <;> simp [hk, Ne.symm h]

def set (d : Dict α β) (k : α) (v : β) : Dict α β where
  entries := put k v d.entries
  distinct := by
    rw [keys_put]
    split
    · exact d.distinct
    · next h =>
      refine List.nodup_append.mpr ⟨d.distinct, by simp, ?_⟩
      intro a ha b hb
      rw [List.mem_singleton] at hb
      exact fun hab => h (hb ▸ hab ▸ ha)

/-- Later pairs win. -/
def ofList (es : List (α × β)) : Dict α β :=
  es.foldl (fun d e => d.set e.1 e.2) empty

def adjust (d : Dict α β) (k : α) (v : β) (f : β → β) : Dict α β :=
  d.set k (f (d.getD k v))

/-- The same value under every key, in whatever order the entries are. -/
def agrees [BEq β] (d e : Dict α β) : Bool :=
  d.size == e.size && d.entries.all fun x => (e.get? x.1).any (· == x.2)

instance [BEq β] : BEq (Dict α β) := ⟨agrees⟩

theorem get?_empty (k : α) : (empty : Dict α β).get? k = none := rfl

theorem get?_set (d : Dict α β) (k a : α) (v : β) :
    (d.set k v).get? a = if a = k then some v else d.get? a := by
  simp only [get?, set]
  induction d.entries with
  | nil => by_cases h : a = k <;> simp [put, h, eq_comm]
  | cons e rest ih =>
    by_cases he : e.1 = k
    · by_cases h : a = k
      · simp [put, he, h]
      · have : ¬ k = a := fun hk => h hk.symm
        have hea : ¬ e.1 = a := fun hk => h (hk ▸ he)
        simp [put, he, h, this]
    · by_cases hea : e.1 = a
      · have : ¬ a = k := fun h => he (hea.trans h)
        simp [put, hea, this]
      · simp only [put, if_neg he, List.find?_cons]
        simpa [hea] using ih

theorem get?_eq_some_iff (d : Dict α β) (k : α) (v : β) :
    d.get? k = some v ↔ (k, v) ∈ d.entries := by
  obtain ⟨es, hd⟩ := d
  simp only [get?]
  induction es with
  | nil => simp
  | cons e rest ih =>
    simp only [List.map_cons, List.nodup_cons] at hd
    by_cases h : e.1 = k
    · subst h
      simp only [List.find?_cons, decide_true, Option.map_some, List.mem_cons]
      constructor
      · intro hv
        exact .inl (by cases e; simp_all)
      · rintro (hv | hv)
        · exact congrArg some (congrArg Prod.snd hv).symm
        · exact absurd (List.mem_map_of_mem hv) hd.1
    · have hne : (k, v) ≠ e := fun hke => h (by rw [← hke])
      simpa [List.find?_cons, h, hne] using ih hd.2

theorem get?_filter (d : Dict α β) (p : α → β → Bool) (k : α) :
    (d.filter p).get? k = (d.get? k).filter (p k) := by
  apply Option.ext
  intro v
  rw [get?_eq_some_iff, Option.filter_eq_some_iff, get?_eq_some_iff]
  simp [filter]

theorem get?_erase (d : Dict α β) (k a : α) :
    (d.erase k).get? a = if a = k then none else d.get? a := by
  rw [erase, get?_filter]
  by_cases h : a = k
  · simp [h]
  · cases d.get? a <;> simp [h]

theorem get?_ofList (es : List (α × β)) (k : α) :
    (ofList es).get? k = (es.reverse.find? (·.1 = k)).map Prod.snd := by
  suffices h : ∀ d : Dict α β, (es.foldl (fun d e => d.set e.1 e.2) d).get? k =
      ((es.reverse.find? (·.1 = k)).map Prod.snd).or (d.get? k) by
    rw [ofList, h, get?_empty, Option.or_none]
  induction es with
  | nil => exact fun _ => rfl
  | cons e es ih =>
    intro d
    rw [List.foldl_cons, ih, get?_set, List.reverse_cons, List.find?_append]
    cases es.reverse.find? (·.1 = k) with
    | some _ => rfl
    | none => by_cases h : e.1 = k <;> simp [h, eq_comm (a := k)]

theorem get?_ofList_map (ks : List α) (f : α → β) (k : α) :
    (ofList (ks.map fun k => (k, f k))).get? k = if k ∈ ks then some (f k) else none := by
  rw [get?_ofList, ← List.map_reverse, List.find?_map]
  simp only [Function.comp_def, Option.map_map]
  cases ha : ks.reverse.find? fun a => decide (a = k) with
  | some a =>
    have hak := List.find?_some ha
    obtain rfl : a = k := of_decide_eq_true hak
    rw [if_pos (List.mem_reverse.mp (List.mem_of_find?_eq_some ha))]
    rfl
  | none =>
    have hk : k ∉ ks := fun hk => by
      simpa using List.find?_eq_none.mp ha k (List.mem_reverse.mpr hk)
    rw [if_neg hk]
    rfl

theorem contains_iff_mem_keys (d : Dict α β) (k : α) : d.contains k = true ↔ k ∈ d.keys := by
  simp only [contains, Option.isSome_iff_exists, get?_eq_some_iff, keys, List.mem_map]
  constructor
  · rintro ⟨v, hv⟩; exact ⟨(k, v), hv, rfl⟩
  · rintro ⟨⟨a, v⟩, hv, rfl⟩; exact ⟨v, hv⟩

end Dict

end Tollgate
