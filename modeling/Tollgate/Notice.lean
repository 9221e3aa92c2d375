import Tollgate.Dict

/-!
# Balance notices

A user is told once that the balance runs low and once that it is used up.
Only a balance that is neither arms the watch again.
-/

namespace Tollgate

inductive Notice where
  | low (balance threshold : Int)
  | exhausted
deriving DecidableEq, Repr

inductive AlarmLevel where
  | low
  | exhausted
deriving DecidableEq, Repr

def AlarmLevel.rank : AlarmLevel → Nat
  | .low => 1
  | .exhausted => 2

/-- The level that a balance is at; a threshold of zero or less never counts as low. -/
def AlarmLevel.of? (threshold balance : Int) : Option AlarmLevel :=
  if balance ≤ 0 then some .exhausted
  else if 0 < threshold ∧ balance < threshold then some .low
  else none

/-- `told` holds the highest level that each user has been told of. -/
structure Watch where
  threshold : Int := 0
  told : Dict Int AlarmLevel := .empty

namespace Watch

instance : Inhabited Watch := ⟨{}⟩

def notice (w : Watch) (balance : Int) : AlarmLevel → Notice
  | .low => .low balance w.threshold
  | .exhausted => .exhausted

def observe (w : Watch) (userId balance : Int) : Option Notice × Watch :=
  match AlarmLevel.of? w.threshold balance with
  | none => (none, { w with told := w.told.erase userId })
  | some level =>
    match w.told.get? userId with
    | some before =>
      if level.rank ≤ before.rank then (none, w)
      else (some (w.notice balance level), { w with told := w.told.set userId level })
    | none => (some (w.notice balance level), { w with told := w.told.set userId level })

def observeAll (w : Watch) : List (Int × Int) → List (Option Notice)
  | [] => []
  | (userId, balance) :: rest =>
    let (told, w) := w.observe userId balance
    told :: observeAll w rest

end Watch

end Tollgate
