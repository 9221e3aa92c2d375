import Tollgate.Gateway
import Tollgate.Proofs.Ledger.Reserving

/-!
# A ledger at work

A desk is a gateway together with all reservations that its ledger has made. A
run is a list of operations in any order: reservations, their settlement,
refund or loss, repeated and illegal attempts at these, the jobs in flight one
by one at any later time, flushes, lookups and whatever befalls the cache.
-/

namespace Tollgate

/-- A reservation as it was made and as it is now, and the usage that it was consumed with. -/
structure Charge where
  opened : Reservation
  current : Reservation
  usage : Option Usage := none

structure Desk where
  gateway : Gateway
  charges : List Charge := []

/-- Charges and jobs are named by their place in their list; `perform` runs a job in flight. -/
inductive LedgerOp where
  | reserve (request : ChargeRequest)
  | consume (charge : Nat) (usage : Usage)
  | undo (charge : Nat)
  | abandon (charge : Nat)
  | setChannel (charge : Nat) (channelId : Int)
  | perform (job : Nat)
  | flush
  | balance (userId : Int)
  | invalidate (userId : Int)
  | purge
  | wait (span : Duration)
  | reloadRatios (ratios : GroupRatios)

inductive Outcome where
  | reservation (answer : Except LedgerError Reservation)
  | resolution (answer : Except LedgerError Unit)
  | balance (answer : Except LookupFault (Option Int))
  | flushed (report : FlushReport)
  | done

namespace Charge

def ofReservation (r : Reservation) : Charge where
  opened := r
  current := r

def abandon (c : Charge) : Charge :=
  if c.current.state = .reserved then
    { c with current := { c.current with state := .refunded } }
  else c

def setChannel (c : Charge) (channelId : Int) : Charge :=
  { c with current := c.current.setChannel channelId }

end Charge

namespace Desk

def books (d : Desk) : Books := d.gateway.books

def withBooks (d : Desk) (books : Books) : Desk := { d with gateway := { d.gateway with books } }

def enter (d : Desk) (answer : Except LedgerError Reservation) (books : Books) : Desk where
  gateway := (d.withBooks books).gateway
  charges := d.charges ++ (answer.toOption.map Charge.ofReservation).toList

def revise (d : Desk) (i : Nat) (f : Charge → Charge × List Job) : Desk :=
  match d.charges[i]? with
  | none => d
  | some c => { gateway := d.gateway.launchAll (f c).2, charges := d.charges.set i (f c).1 }

/-- Consumes a charge, or takes it back where there is no usage; its job is then in flight. -/
def resolve (d : Desk) (i : Nat) (usage : Option Usage) : Outcome × Desk :=
  match d.charges[i]? with
  | none => (.done, d)
  | some c =>
    match usage.elim c.current.undo c.current.consume with
    | .error e => (.resolution (.error e), d)
    | .ok (current, job) =>
      (.resolution (.ok ()),
        { gateway := d.gateway.launch job
          charges := d.charges.set i { opened := c.opened, current, usage } })

def perform (d : Desk) (i : Nat) : Desk :=
  match d.gateway.inFlight[i]? with
  | none => d
  | some job =>
    { d with gateway := { d.gateway with inFlight := d.gateway.inFlight.eraseIdx i }.perform job }

def step (d : Desk) : LedgerOp → Outcome × Desk
  | .reserve request =>
    let (answer, books) := d.gateway.ledger.reserve d.books d.gateway.now request
    (.reservation answer, d.enter answer books)
  | .consume i usage => d.resolve i (some usage)
  | .undo i => d.resolve i none
  | .abandon i => (.done, d.revise i fun c => (c.abandon, c.current.abandon.toList))
  | .setChannel i channelId => (.done, d.revise i fun c => (c.setChannel channelId, []))
  | .perform i => (.done, d.perform i)
  | .flush =>
    let (report, gateway) := d.gateway.flush
    (.flushed report, { d with gateway })
  | .balance userId =>
    let (answer, books) := d.books.userQuota d.gateway.now userId
    (.balance answer, d.withBooks books)
  | .invalidate userId =>
    (.done, d.withBooks { d.books with directory := d.books.directory.invalidateUser userId })
  | .purge => (.done, { d with gateway := d.gateway.runTask .cachePurge })
  | .wait span => (.done, { d with gateway := { d.gateway with now := d.gateway.now + span } })
  | .reloadRatios ratios => (.done, { d with gateway := d.gateway.reloadRatios ratios })

def run (d : Desk) : List LedgerOp → List Outcome × Desk
  | [] => ([], d)
  | op :: ops =>
    let (outcome, d) := d.step op
    let (outcomes, d) := d.run ops
    (outcome :: outcomes, d)

/-- The sums that an operation makes are words. -/
def Within (d : Desk) : LedgerOp → Prop
  | .reserve request => d.gateway.ledger.ReserveWithin d.books d.gateway.now request
  | .perform i => ∀ job, d.gateway.inFlight[i]? = some job → ∀ c id, ∀ delta ∈ job.posting? c id,
      (d.books.tally c id).Within d.gateway.ledger.batched delta
  | .flush => ∀ c id n, d.books.store.value? c id = some n →
      Word.Fits (n + d.books.batch.sum c id)
  | _ => True

def RunWithin (d : Desk) : List LedgerOp → Prop
  | [] => True
  | op :: ops => d.Within op ∧ (d.step op).2.RunWithin ops

/-- Nothing has been charged yet, and nothing waits to be posted. -/
structure Opening (d : Desk) : Prop where
  sound : d.books.store.Sound
  noCharges : d.charges = []
  noJobs : d.gateway.inFlight = []
  noSums : ∀ c i, d.books.batch.sum c i = 0

end Desk

end Tollgate
