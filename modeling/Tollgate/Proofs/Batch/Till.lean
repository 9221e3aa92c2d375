import Mathlib.Algebra.BigOperators.Group.List.Basic
import Mathlib.Algebra.GroupWithZero.Nat
import Mathlib.Algebra.Ring.Int.Defs
import Tollgate.Proofs.Batch.Sums
import Tollgate.Proofs.Store.Moves

/-!
# Nothing is lost on the way to the store

A till is a batch with the store that it is flushed to. Whatever fails during
the flushes, the store is the one of the beginning, moved by what was added
less what still waits (`store_run`). So no addition is lost or made twice, and
once nothing waits the store depends on the additions alone, not on their
order nor on the flushes (`nothing_lost`).
-/

namespace Tollgate

def Outage.none : Outage where
  locked _ := false
  refused _ _ := false

theorem Outage.fate_none_ne_kept (c : Counter) (i v : Int) : Outage.none.fate c i v ≠ .kept := by
  by_cases hv : v = 0 <;> simp [fate, none, hv]

theorem Outage.eq_zero_of_dropped {o : Outage} (h : o.fate c i v = .dropped) : v = 0 := by
  rw [fate] at h
  split at h
  · cases h
  · split at h
    · assumption
    · split at h <;> cases h

-- ---------------------------------------------------------------------------
-- Totals
-- ---------------------------------------------------------------------------

abbrev Entries := List ((Counter × Int) × Int)

namespace Amounts

/-- What the values for each counter and id come to. -/
def total (es : Entries) : Amounts := fun c i => ((es.filter fun e => e.1 = (c, i)).map (·.2)).sum

theorem total_cons (e : (Counter × Int) × Int) (es : Entries) (c : Counter) (i : Int) :
    total (e :: es) c i = single e.1.1 e.1.2 e.2 c i + total es c i := by
  obtain ⟨⟨c', i'⟩, v⟩ := e
  by_cases h : c = c' ∧ i = i'
  · obtain ⟨rfl, rfl⟩ := h
    simp [total, single]
  · have hne : ¬(c' = c ∧ i' = i) := fun hc => h ⟨hc.1.symm, hc.2.symm⟩
    simp [total, single, h, hne]

theorem total_perm {es es' : Entries} (h : es.Perm es') : total es = total es' :=
  funext fun _ => funext fun _ => ((h.filter _).map _).sum_eq

theorem total_of_not_mem {es : Entries} (h : (c, i) ∉ es.map Prod.fst) : total es c i = 0 := by
  have hnone : es.filter (fun e => e.1 = (c, i)) = [] := by
    rw [List.filter_eq_nil_iff]
    intro e he hk
    exact h (of_decide_eq_true hk ▸ List.mem_map_of_mem he)
  rw [total, hnone]
  rfl

theorem total_entries (d : Dict (Counter × Int) Int) (c : Counter) (i : Int) :
    total d.entries c i = d.getD (c, i) 0 := by
  cases hget : d.get? (c, i) with
  | none =>
    have hkey : (c, i) ∉ d.keys := by
      rw [← Dict.contains_iff_mem_keys, Dict.contains, hget]
      exact Bool.false_ne_true
    rw [total_of_not_mem hkey, Dict.getD, hget]
    rfl
  | some v =>
    obtain ⟨before, later, hsplit⟩ := List.append_of_mem ((d.get?_eq_some_iff _ _).mp hget)
    have hperm : d.entries.Perm (((c, i), v) :: (before ++ later)) := hsplit ▸ List.perm_middle
    have hkeys := (hperm.map Prod.fst).nodup_iff.mp d.distinct
    rw [List.map_cons, List.nodup_cons] at hkeys
    rw [total_perm hperm, total_cons, total_of_not_mem hkeys.1, Dict.getD, hget]
    simp [single]

end Amounts

-- ---------------------------------------------------------------------------
-- A flush
-- ---------------------------------------------------------------------------

namespace Batch

theorem foldl_post_eq_moved {es : Entries} {s : Store} (hd : (es.map Prod.fst).Nodup)
    (h : ∀ e ∈ es, s.Takes e.1.1 e.1.2 e.2) :
    es.foldl (fun s e => s.post e.1.1 e.1.2 e.2) s = s.moved (.total es) := by
  induction es generalizing s with
  | nil => exact (Store.moved_zero fun _ _ => rfl).symm
  | cons e es ih =>
    rw [List.map_cons, List.nodup_cons] at hd
    rw [List.foldl_cons, Store.post_eq_moved (h e (List.mem_cons_self ..)), ih hd.2,
      Store.moved_moved]
    · exact Store.moved_congr fun c i => (Amounts.total_cons e es c i).symm
    · -- The first posting went to a counter of its own.
      intro e' he'
      have hne : ¬(e'.1.1 = e.1.1 ∧ e'.1.2 = e.1.2) :=
        fun hk => hd.1 (Prod.ext hk.1 hk.2 ▸ List.mem_map_of_mem he')
      refine .moved ?_
      rw [Amounts.single, if_neg hne, Int.zero_add]
      exact h e' (List.mem_cons_of_mem _ he')

variable {o : Outage} {b : Batch} {s : Store}

/-- The postings of a flush leave words. -/
def FlushWithin (o : Outage) (b : Batch) (s : Store) : Prop :=
  ∀ e ∈ b.pending.entries, o.fate e.1.1 e.1.2 e.2 = .posted → s.Takes e.1.1 e.1.2 e.2

instance (o : Outage) (b : Batch) (s : Store) : Decidable (FlushWithin o b s) :=
  inferInstanceAs (Decidable (∀ _ ∈ _, _ → _))

theorem store_flushUnder (h : FlushWithin o b s) :
    (flushUnder o b s).2.2 =
      s.moved fun c i => b.sum c i - (flushUnder o b s).2.1.sum c i := by
  let posted := b.pending.filter fun k v => o.fate k.1 k.2 v = .posted
  have hstore : (flushUnder o b s).2.2 = s.moved (.total posted.entries) := by
    refine foldl_post_eq_moved posted.distinct fun e he => ?_
    obtain ⟨he, hf⟩ := List.mem_filter.mp he
    exact h e he (of_decide_eq_true hf)
  rw [hstore]
  refine Store.moved_congr fun c i => ?_
  rw [Amounts.total_entries, getD_filter_fate, sum_flushUnder]
  cases hf : o.fate c i (b.sum c i) with
  | posted => exact (Int.sub_zero _).symm
  | dropped =>
    rw [Outage.eq_zero_of_dropped hf]
    rfl
  | kept => exact (Int.sub_self _).symm

theorem sum_countP_counters (keys : List (Counter × Int)) :
    (Counter.all.map fun c => keys.countP fun k => k.1 = c).sum = keys.length := by
  induction keys with
  | nil => rfl
  | cons k keys ih =>
    simp only [Counter.all, List.map_cons, List.map_nil, List.sum_cons, List.sum_nil,
      List.countP_cons, List.length_cons] at ih ⊢
    cases hk : k.1 <;> simp <;> omega

theorem sizes_flushUnder (o : Outage) (b : Batch) (s : Store) :
    (flushUnder o b s).2.1.sizes.sum = (flushUnder o b s).1.failed := by
  have hsizes : (flushUnder o b s).2.1.sizes.sum =
      (flushUnder o b s).2.1.pending.entries.length :=
    (sum_countP_counters _).trans (List.length_map _)
  rw [hsizes]
  exact List.countP_eq_length_filter.symm

end Batch

-- ---------------------------------------------------------------------------
-- Runs
-- ---------------------------------------------------------------------------

structure Till where
  batch : Batch
  store : Store

inductive BatchOp where
  | add (counter : Counter) (id value : Int)
  | flush (outage : Outage)

namespace BatchOp

def addition? : BatchOp → Option ((Counter × Int) × Int)
  | .add c i v => some ((c, i), v)
  | .flush _ => none

def additions (ops : List BatchOp) : Entries := ops.filterMap addition?

def added (ops : List BatchOp) (c : Counter) (i : Int) : Int := Amounts.total (additions ops) c i

end BatchOp

namespace Till

open BatchOp (additions added)

def opening (s : Store) : Till := ⟨.empty, s⟩

def flush (t : Till) (o : Outage) : FlushReport × Till :=
  let (report, batch, store) := t.batch.flushUnder o t.store
  (report, ⟨batch, store⟩)

def step (t : Till) : BatchOp → Till
  | .add c i v => { t with batch := t.batch.add c i v }
  | .flush o => (t.flush o).2

def run (t : Till) : List BatchOp → Till
  | [] => t
  | op :: ops => (t.step op).run ops

def Within (t : Till) : BatchOp → Prop
  | .add c i v => Word.Fits (t.batch.sum c i + v)
  | .flush o => Batch.FlushWithin o t.batch t.store

instance (t : Till) : (op : BatchOp) → Decidable (t.Within op)
  | .add c i v => inferInstanceAs (Decidable (Word.Fits (t.batch.sum c i + v)))
  | .flush o => inferInstanceAs (Decidable (Batch.FlushWithin o t.batch t.store))

def RunWithin (t : Till) : List BatchOp → Prop
  | [] => True
  | op :: ops => t.Within op ∧ (t.step op).RunWithin ops

def decideRun (t : Till) : (ops : List BatchOp) → Decidable (t.RunWithin ops)
  | [] => .isTrue trivial
  | op :: ops =>
    have := (t.step op).decideRun ops
    inferInstanceAs (Decidable (t.Within op ∧ (t.step op).RunWithin ops))

instance (t : Till) (ops : List BatchOp) : Decidable (t.RunWithin ops) := t.decideRun ops

variable {t : Till} {op : BatchOp} {ops : List BatchOp}

/-- What is in the store and what waits make up what was there and what was added. -/
theorem store_step (hw : t.Within op) :
    (t.step op).store = t.store.moved fun c i =>
      t.batch.sum c i + added [op] c i - (t.step op).batch.sum c i := by
  cases op with
  | add c i v =>
    refine (Store.moved_zero fun c' i' => ?_).symm
    have hsum : added [.add c i v] c' i' = Amounts.single c i v c' i' := by
      show Amounts.total [((c, i), v)] c' i' = _
      rw [Amounts.total_cons]
      exact Int.add_zero _
    rw [hsum, step, Batch.sum_add, Word.wrap_eq_self hw, Amounts.single]
    by_cases h : c' = c ∧ i' = i
    · obtain ⟨rfl, rfl⟩ := h
      by_cases hv : v = 0 <;> simp [hv]
    · have hne : ¬(c' = c ∧ i' = i ∧ v ≠ 0) := fun hc => h ⟨hc.1, hc.2.1⟩
      rw [if_neg h, if_neg hne]
      omega
  | flush o =>
    refine (Batch.store_flushUnder hw).trans (Store.moved_congr fun c i => ?_)
    rw [show added [.flush o] c i = 0 from rfl, Int.add_zero]
    rfl

theorem added_cons (op : BatchOp) (ops : List BatchOp) (c : Counter) (i : Int) :
    added (op :: ops) c i = added [op] c i + added ops c i := by
  cases op with
  | add c' i' v =>
    show Amounts.total (((c', i'), v) :: additions ops) c i =
      Amounts.total [((c', i'), v)] c i + _
    rw [Amounts.total_cons, Amounts.total_cons, show Amounts.total [] c i = 0 from rfl,
      Int.add_zero]
    rfl
  | flush o => exact (Int.zero_add _).symm

theorem store_run (hw : t.RunWithin ops) :
    (t.run ops).store = t.store.moved fun c i =>
      t.batch.sum c i + added ops c i - (t.run ops).batch.sum c i := by
  induction ops generalizing t with
  | nil =>
    refine (Store.moved_zero fun c i => ?_).symm
    show t.batch.sum c i + 0 - t.batch.sum c i = 0
    omega
  | cons op ops ih =>
    rw [run, ih hw.2, store_step hw.1, Store.moved_moved]
    refine Store.moved_congr fun c i => ?_
    rw [added_cons op ops]
    omega

theorem run_append (ops later : List BatchOp) : t.run (ops ++ later) = (t.run ops).run later := by
  induction ops generalizing t with
  | nil => rfl
  | cons op ops ih => exact ih

theorem flush_none (t : Till) :
    (t.flush .none).1.failed = 0 ∧ (t.step (.flush .none)).batch = .empty :=
  Batch.flushUnder_of_unkept .none t.batch t.store Outage.fate_none_ne_kept

theorem batch_run_flushed (t : Till) (ops : List BatchOp) :
    (t.run (ops ++ [.flush .none])).batch = .empty := by
  rw [run_append]
  exact (flush_none _).2

theorem store_run_flushed (s : Store) (hw : (opening s).RunWithin (ops ++ [.flush .none])) :
    ((opening s).run (ops ++ [.flush .none])).store = s.moved (added ops) := by
  rw [store_run hw]
  refine Store.moved_congr fun c i => ?_
  have hadded : added (ops ++ [.flush .none]) c i = added ops c i := by
    rw [added, additions, List.filterMap_append]
    exact congrArg (Amounts.total · c i) (List.append_nil _)
  rw [hadded, batch_run_flushed]
  show 0 + added ops c i - 0 = added ops c i
  omega

/-- However flushes fail, each counter and what waits for it make up what it stood at in the
beginning and what was added; a token's usage goes the other way. What a flush could not post is
all that waits after it. And a flush without faults reports no failure and leaves nothing waiting,
with the store moved by what was added: it is the same for the same additions, in whatever order
and with whatever flushes between. -/
theorem nothing_lost (s : Store) (hw : (opening s).RunWithin ops) :
    (∀ c i n, s.value? c i = some n →
      ∃ m, ((opening s).run ops).store.value? c i = some m ∧
        m + ((opening s).run ops).batch.sum c i = n + added ops c i) ∧
    (∀ i n, s.tokenUsed? i = some n →
      ∃ m, ((opening s).run ops).store.tokenUsed? i = some m ∧
        m - ((opening s).run ops).batch.sum .tokenQuota i = n - added ops .tokenQuota i) ∧
    (∀ o, (((opening s).run ops).flush o).2.batch.sizes.sum =
      (((opening s).run ops).flush o).1.failed) ∧
    ((opening s).RunWithin (ops ++ [.flush .none]) →
      (((opening s).run ops).flush .none).1.failed = 0 ∧
      ((opening s).run (ops ++ [.flush .none])).batch = .empty ∧
      ((opening s).run (ops ++ [.flush .none])).store = s.moved (added ops) ∧
      ∀ ops', (additions ops).Perm (additions ops') →
        (opening s).RunWithin (ops' ++ [.flush .none]) →
        ((opening s).run (ops ++ [.flush .none])).store =
          ((opening s).run (ops' ++ [.flush .none])).store) := by
  refine ⟨fun c i n hn => ?_, fun i n hn => ?_,
    fun o => Batch.sizes_flushUnder o _ ((opening s).run ops).store, fun hw₁ => ?_⟩
  · rw [store_run hw, Store.value?_moved]
    refine ⟨_, congrArg _ hn, ?_⟩
    show n + (0 + added ops c i - _) + _ = _
    omega
  · rw [store_run hw, Store.tokenUsed?_moved]
    refine ⟨_, congrArg _ hn, ?_⟩
    show n + -(0 + added ops .tokenQuota i - _) - _ = _
    omega
  · refine ⟨(flush_none _).1, batch_run_flushed (opening s) ops, store_run_flushed s hw₁,
      fun ops' hperm hw₂ => ?_⟩
    have hsame : added ops = added ops' := Amounts.total_perm hperm
    rw [store_run_flushed s hw₁, store_run_flushed s hw₂, hsame]

def strandedStore : Store where
  users := { rows := [{
    id := 1, username := "u", group := "default", quota := .int 1000, usedQuota := .int 0
    requestCount := .int 0, status := .enabled, email := none }] }
  tokens := { rows := [{
    id := 1, userId := 1, key := "k", name := "t", status := .enabled, remainQuota := .int 500
    unlimited := false, usedQuota := .int 0, expiredTime := -1 }] }

def stranded : Outage where
  locked c := c = .tokenQuota
  refused c _ := c = .userQuota

/-- A flush in the middle strands both sums, and the balance takes more before the next one. -/
def strandedOps : List BatchOp :=
  [.add .userQuota 1 (-300), .add .tokenQuota 1 (-200), .flush stranded, .add .userQuota 1 100,
    .add .requestCount 1 1]

theorem nothing_lost_stranded :
    (opening strandedStore).RunWithin (strandedOps ++ [.flush .none]) ∧
      (∃ m, ((opening strandedStore).run strandedOps).store.value? .userQuota 1 = some m ∧
        m + ((opening strandedStore).run strandedOps).batch.sum .userQuota 1 = 800) ∧
      ((opening strandedStore).run (strandedOps ++ [.flush .none])).store =
        strandedStore.moved (added strandedOps) ∧
      ((opening strandedStore).run (strandedOps ++ [.flush .none])).store =
        ((opening strandedStore).run
          ([.add .requestCount 1 1, .add .tokenQuota 1 (-200), .add .userQuota 1 100,
            .add .userQuota 1 (-300)] ++ [.flush .none])).store := by
  have hw : (opening strandedStore).RunWithin strandedOps := by decide
  have hflushed : (opening strandedStore).RunWithin (strandedOps ++ [.flush .none]) := by decide
  obtain ⟨hkept, -, -, hlast⟩ := nothing_lost strandedStore hw
  obtain ⟨-, -, hstore, hsame⟩ := hlast hflushed
  exact ⟨hflushed, hkept .userQuota 1 1000 rfl, hstore, hsame _ (by decide) (by decide)⟩

end Till

end Tollgate
