import Tollgate.Dict
import Tollgate.Store

/-!
# Batched postings

Postings gathered in memory, one running sum for each counter and id, until a
flush writes each sum with one statement. A sum whose statement fails stays
for the next flush, and so do all sums of a counter that finds the database
locked. A sum of zero needs no statement.
-/

namespace Tollgate

structure Batch where
  pending : Dict (Counter × Int) Int := .empty
deriving DecidableEq

structure FlushReport where
  applied : Nat
  failed : Nat
deriving DecidableEq, Repr

/-- What goes wrong during a flush: the counters that find the database locked, and the single
statements that fail. -/
structure Outage where
  locked : Counter → Bool
  refused : Counter → Int → Bool

inductive Fate where
  | posted
  | dropped
  | kept
deriving DecidableEq, Repr

def Outage.fate (o : Outage) (counter : Counter) (id value : Int) : Fate :=
  if o.locked counter then .kept
  else if value = 0 then .dropped
  else if o.refused counter id then .kept
  else .posted

def Store.outage (s : Store) : Outage where
  locked _ := s.poisoned
  refused counter _ := counter.table ∈ s.hidden

namespace Batch

instance : Inhabited Batch := ⟨{}⟩

def empty : Batch := {}

def sum (b : Batch) (counter : Counter) (id : Int) : Int := b.pending.getD (counter, id) 0

def add (b : Batch) (counter : Counter) (id value : Int) : Batch :=
  if value = 0 then b
  else ⟨b.pending.adjust (counter, id) 0 fun n => Word.wrap (n + value)⟩

def size (b : Batch) (counter : Counter) : Nat := b.pending.keys.countP (·.1 = counter)

def sizes (b : Batch) : List Nat := Counter.all.map b.size

def flushUnder (o : Outage) (b : Batch) (s : Store) : FlushReport × Batch × Store :=
  let fate := fun e : (Counter × Int) × Int => o.fate e.1.1 e.1.2 e.2
  ({ applied := b.pending.entries.countP (fate · = .posted)
     failed := b.pending.entries.countP (fate · = .kept) },
   ⟨b.pending.filter fun k v => fate (k, v) = .kept⟩,
   (b.pending.entries.filter (fate · = .posted)).foldl (fun s e => s.post e.1.1 e.1.2 e.2) s)

def flush (b : Batch) (s : Store) : FlushReport × Batch × Store := flushUnder s.outage b s

end Batch

end Tollgate
