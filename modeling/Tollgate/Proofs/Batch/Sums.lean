import Tollgate.Proofs.Store.Counters

/-!
# Sums that wait

What `add` and `flush` do to the sums of a batch and to the cells of the
store: a flush moves a sum over to its cell, keeps it, or drops it, by the
fate of that one sum alone.
-/

namespace Tollgate

namespace Batch

theorem sum_add (b : Batch) (c : Counter) (i value : Int) (c' : Counter) (i' : Int) :
    (b.add c i value).sum c' i' =
      if c' = c ∧ i' = i ∧ value ≠ 0 then Word.wrap (b.sum c i + value) else b.sum c' i' := by
  by_cases hv : value = 0
  · simp [add, hv]
  · simp only [add, hv, if_false, sum, Dict.getD, Dict.adjust, Dict.get?_set, Prod.mk.injEq,
      ne_eq, not_false_eq_true, and_true]
    by_cases h : c' = c ∧ i' = i <;> simp [h]

theorem cell?_foldl_post {es : List ((Counter × Int) × Int)} (hd : (es.map Prod.fst).Nodup)
    (s : Store) (c : Counter) (i : Int) :
    (es.foldl (fun s e => s.post e.1.1 e.1.2 e.2) s).cell? c i =
      (es.find? (·.1 = (c, i))).elim (s.cell? c i) fun e => (s.cell? c i).map (·.add e.2) := by
  induction es generalizing s with
  | nil => rfl
  | cons e rest ih =>
    rw [List.map_cons, List.nodup_cons] at hd
    obtain ⟨⟨c', i'⟩, v⟩ := e
    rw [List.foldl_cons, ih hd.2, Store.cell?_post]
    by_cases h : (c', i') = (c, i)
    · obtain ⟨rfl, rfl⟩ := Prod.mk.inj h
      have hrest : rest.find? (·.1 = (c', i')) = none := by
        rw [List.find?_eq_none]
        intro e he hk
        have hk : e.1 = (c', i') := of_decide_eq_true hk
        have hm : e.1 ∈ rest.map Prod.fst := List.mem_map_of_mem he
        exact hd.1 (hk ▸ hm)
      simp [hrest]
    · have hne : ¬(c = c' ∧ i = i') := fun hc => h (by rw [hc.1, hc.2])
      simp [h, hne]

variable (o : Outage) (b : Batch) (s : Store)

theorem sum_of_get?_none {c : Counter} {i : Int} (h : b.pending.get? (c, i) = none) :
    b.sum c i = 0 := by
  simp [sum, Dict.getD, h]

theorem sum_of_get?_some {c : Counter} {i v : Int} (h : b.pending.get? (c, i) = some v) :
    b.sum c i = v := by
  simp [sum, Dict.getD, h]

theorem fate_zero_ne_posted (c : Counter) (i : Int) : o.fate c i 0 ≠ .posted := by
  by_cases h : o.locked c <;> simp [Outage.fate, h]

theorem cell?_flushUnder (c : Counter) (i : Int) :
    (flushUnder o b s).2.2.cell? c i =
      if o.fate c i (b.sum c i) = .posted then (s.cell? c i).map (·.add (b.sum c i))
      else s.cell? c i := by
  let posted := b.pending.filter fun k v => o.fate k.1 k.2 v = .posted
  have hpost : (flushUnder o b s).2.2.cell? c i =
      (posted.entries.find? (·.1 = (c, i))).elim (s.cell? c i) fun e =>
        (s.cell? c i).map (·.add e.2) := cell?_foldl_post posted.distinct s c i
  have hfind : (posted.entries.find? (·.1 = (c, i))).map Prod.snd =
      (b.pending.get? (c, i)).filter fun v => o.fate c i v = .posted := b.pending.get?_filter _ _
  cases hv : b.pending.get? (c, i) with
  | none =>
    rw [hv] at hfind
    rw [hpost, Option.map_eq_none_iff.mp hfind, b.sum_of_get?_none hv,
      if_neg (fate_zero_ne_posted o c i)]
    rfl
  | some v =>
    rw [hv] at hfind
    rw [hpost, b.sum_of_get?_some hv]
    by_cases hf : o.fate c i v = .posted
    · rw [Option.filter_some_pos (by simpa using hf)] at hfind
      obtain ⟨e, he, rfl⟩ := Option.map_eq_some_iff.mp hfind
      rw [he, if_pos hf]
      rfl
    · rw [Option.filter_some_neg (by simpa using hf)] at hfind
      rw [Option.map_eq_none_iff.mp hfind, if_neg hf]
      rfl

/-- The sums that share a fate. -/
theorem getD_filter_fate (f : Fate) (c : Counter) (i : Int) :
    (b.pending.filter fun k v => o.fate k.1 k.2 v = f).getD (c, i) 0 =
      if o.fate c i (b.sum c i) = f then b.sum c i else 0 := by
  have hget : (b.pending.filter fun k v => o.fate k.1 k.2 v = f).get? (c, i) =
      (b.pending.get? (c, i)).filter fun v => o.fate c i v = f := b.pending.get?_filter _ _
  rw [Dict.getD, hget]
  cases hv : b.pending.get? (c, i) with
  | none => simp [b.sum_of_get?_none hv]
  | some v =>
    rw [b.sum_of_get?_some hv]
    by_cases hf : o.fate c i v = f
    · rw [Option.filter_some_pos (by simpa using hf), if_pos hf]
      rfl
    · rw [Option.filter_some_neg (by simpa using hf), if_neg hf]
      rfl

theorem sum_flushUnder (c : Counter) (i : Int) :
    (flushUnder o b s).2.1.sum c i = if o.fate c i (b.sum c i) = .kept then b.sum c i else 0 :=
  getD_filter_fate o b .kept c i

/-- A flush that keeps nothing reports no failure and leaves nothing to post. -/
theorem flushUnder_of_unkept (h : ∀ c i v, o.fate c i v ≠ .kept) :
    (flushUnder o b s).1.failed = 0 ∧ (flushUnder o b s).2.1 = .empty := by
  constructor
  · exact List.countP_eq_zero.mpr fun e _ => by simp [h]
  · simp [flushUnder, Dict.filter, h, empty, Dict.empty]

theorem sound_foldl_post (es : List ((Counter × Int) × Int)) {s : Store} (h : s.Sound) :
    (es.foldl (fun s e => s.post e.1.1 e.1.2 e.2) s).Sound := by
  induction es generalizing s with
  | nil => exact h
  | cons e rest ih => exact ih (h.post _ _ _)

-- ---------------------------------------------------------------------------
-- A flush without faults
-- ---------------------------------------------------------------------------

theorem fate_outage {s : Store} (h : s.Sound) (c : Counter) (i v : Int) :
    s.outage.fate c i v = if v = 0 then .dropped else .posted := by
  simp [Outage.fate, Store.outage, h.unlocked, h.shown]

theorem cell?_flush {s : Store} (h : s.Sound) (c : Counter) (i : Int) :
    (b.flush s).2.2.cell? c i =
      if b.sum c i = 0 then s.cell? c i else (s.cell? c i).map (·.add (b.sum c i)) := by
  rw [flush, cell?_flushUnder, fate_outage h]
  by_cases hz : b.sum c i = 0 <;> simp [hz]

theorem sum_flush {s : Store} (h : s.Sound) (c : Counter) (i : Int) :
    (b.flush s).2.1.sum c i = 0 := by
  rw [flush, sum_flushUnder, fate_outage h]
  by_cases hz : b.sum c i = 0 <;> simp [hz]

theorem sound_flush {s : Store} (h : s.Sound) : (b.flush s).2.2.Sound := sound_foldl_post _ h

end Batch

end Tollgate
