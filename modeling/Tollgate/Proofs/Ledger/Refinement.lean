import Tollgate.Proofs.Ledger.Agreement
import Tollgate.Proofs.Ledger.Desk

/-!
# The cache changes no answer

A desk with a cache answers every operation as the desk without one, sends the
same notices and writes the same store, where balances that are changed from
outside are invalidated at once. What lives in its cache about a balance is
the stored balance, throughout.
-/

namespace Tollgate

inductive SharedOp where
  | ledger (op : LedgerOp)
  | overwrite (userId quota : Int)

namespace Desk

def overwrite (d : Desk) (userId quota : Int) : Desk :=
  let b := d.books.withStore <|
    (d.books.store.overwrite .users "quota" userId quota).toOption.elim d.books.store Prod.snd
  d.withBooks { b with directory := b.directory.invalidateUser userId }

def serve (d : Desk) : SharedOp → Outcome × Desk
  | .ledger op => d.step op
  | .overwrite userId quota => (.done, d.overwrite userId quota)

def serveAll (d : Desk) : List SharedOp → List Outcome × Desk
  | [] => ([], d)
  | op :: ops =>
    let (outcome, d) := d.serve op
    let (outcomes, d) := d.serveAll ops
    (outcome :: outcomes, d)

def Fits (d : Desk) : SharedOp → Prop
  | .ledger (.perform i) => ∀ job, d.gateway.inFlight[i]? = some job → d.books.MoveFits job
  | .ledger _ => True
  | .overwrite _ quota => Word.Fits quota

def AllFit (d : Desk) : List SharedOp → Prop
  | [] => True
  | op :: ops => d.Fits op ∧ (d.serve op).2.AllFit ops

def uncached (d : Desk) : Desk := d.withBooks d.books.uncached

/-- Postings are written at once, and the cache mirrors the store. -/
structure Mirrored (d : Desk) : Prop where
  direct : d.gateway.ledger.batched = false
  books : d.books.Mirrored d.gateway.now

/-- What happens to the desk happens to the desk without its cache. -/
structure Commutes (d : Desk) (f : Desk → α × Desk) : Prop where
  uncached : f d.uncached = ((f d).1, (f d).2.uncached)
  mirrored : (f d).2.Mirrored

variable {d : Desk}

theorem Mirrored.agree (h : d.Mirrored) : d.books.Agree d.books.uncached d.gateway.now :=
  ⟨rfl, h.books⟩

theorem Mirrored.reserve (h : d.Mirrored) (request : ChargeRequest) :
    d.Commutes (·.step (.reserve request)) := by
  have hr := h.agree.reserve h.direct request
  refine ⟨?_, h.direct, hr.agree.mirrored⟩
  show (Outcome.reservation
      (d.gateway.ledger.reserve d.books.uncached d.gateway.now request).1,
    d.uncached.enter (d.gateway.ledger.reserve d.books.uncached d.gateway.now request).1
      (d.gateway.ledger.reserve d.books.uncached d.gateway.now request).2) = _
  rw [hr.answer, hr.agree.books]
  rfl

theorem Mirrored.resolve (h : d.Mirrored) (i : Nat) (usage : Option Usage) :
    d.Commutes (·.resolve i usage) := by
  have hcharges : d.uncached.charges = d.charges := rfl
  constructor
  · simp only [Desk.resolve, hcharges]
    cases d.charges[i]? with
    | none => rfl
    | some c =>
      cases hr : usage.elim c.current.undo c.current.consume with
      | error e => simp only [hr]
      | ok p =>
        simp only [hr]
        rfl
  · simp only [Desk.resolve]
    split
    · exact h
    · split
      · exact h
      · exact ⟨h.direct, h.books⟩

theorem Mirrored.revise (h : d.Mirrored) (i : Nat) (f : Charge → Charge × List Job) :
    d.Commutes fun d => (Outcome.done, d.revise i f) := by
  have hcharges : d.uncached.charges = d.charges := rfl
  constructor
  · simp only [Desk.revise, hcharges]
    cases d.charges[i]? with
    | none => rfl
    | some c => rfl
  · simp only [Desk.revise]
    split
    · exact h
    · exact ⟨h.direct, h.books⟩

theorem Mirrored.perform (h : d.Mirrored)
    (hw : ∀ job, d.gateway.inFlight[i]? = some job → d.books.MoveFits job) :
    d.Commutes fun d => (Outcome.done, d.perform i) := by
  have hjobs : d.uncached.gateway.inFlight = d.gateway.inFlight := rfl
  simp only [Desk.perform]
  constructor
  · rw [hjobs]
    cases hj : d.gateway.inFlight[i]? with
    | none => rfl
    | some job =>
      have hp := h.agree.perform h.direct (hw job hj)
      show (Outcome.done, Desk.mk { d.gateway with
        inFlight := d.gateway.inFlight.eraseIdx i
        books := d.gateway.ledger.perform d.books.uncached d.gateway.now job } d.charges) = _
      rw [hp.books]
      rfl
  · cases hj : d.gateway.inFlight[i]? with
    | none => exact h
    | some job => exact ⟨h.direct, (h.agree.perform h.direct (hw job hj)).mirrored⟩

theorem Mirrored.flush (h : d.Mirrored) : d.Commutes (·.step .flush) := by
  -- Nothing ever waits without batching, so there is nothing to write.
  have hbatch (d : Desk) (hd : d.books.batch = .empty) :
      d.step .flush = (.flushed ⟨0, 0⟩, d) := by
    have hb : { d.gateway.books with batch := .empty } = d.gateway.books := by
      rw [← hd]
      rfl
    have hd : d.gateway.books.batch = .empty := hd
    simp only [step, Gateway.flush, hd]
    show (Outcome.flushed ⟨0, 0⟩, Desk.mk { d.gateway with
      books := Books.withStore { d.gateway.books with batch := .empty } d.gateway.store }
        d.charges) = _
    rw [hb]
    rfl
  have hd := hbatch d h.books.posted
  have hd₀ := hbatch d.uncached h.books.posted
  refine ⟨?_, ?_⟩
  · rw [hd, hd₀]
  · rw [hd]
    exact h

theorem Mirrored.balance (h : d.Mirrored) (u : Int) : d.Commutes (·.step (.balance u)) := by
  obtain ⟨hanswer, hagree, -⟩ := h.agree.userQuota u
  refine ⟨?_, h.direct, hagree.mirrored⟩
  show (Outcome.balance (d.books.uncached.userQuota d.gateway.now u).1,
    d.uncached.withBooks (d.books.uncached.userQuota d.gateway.now u).2) = _
  rw [hanswer, hagree.books]
  rfl

theorem Mirrored.purge (h : d.Mirrored) : d.Commutes (·.step .purge) := by
  refine ⟨rfl, h.direct, ?_⟩
  show (d.books.withCache (d.books.cache.map (·.purge d.gateway.now))).Mirrored d.gateway.now
  cases hc : d.books.cache with
  | none => exact h.books.uncached
  | some c =>
    refine h.books.narrow hc (c.purge d.gateway.now) rfl fun k e he => ?_
    rw [Cache.purge, Dict.get?_filter] at he
    exact (Option.filter_eq_some_iff.mp he).1

theorem Mirrored.overwrite (h : d.Mirrored) (hw : Word.Fits quota) (u : Int) :
    d.Commutes fun d => (Outcome.done, d.overwrite u quota) := by
  refine ⟨rfl, h.direct, ?_⟩
  have hs := h.books.sound
  cases ho : d.books.store.overwrite .users "quota" u quota with
  | error f =>
    simp only [Desk.overwrite, ho]
    exact h.books.overwrite (s := d.books.store) (u := u) hs fun _ _ => rfl
  | ok p =>
    simp only [Desk.overwrite, ho]
    refine h.books.overwrite (s := p.2) (u := u) ?_ fun v hv => ?_
    · rw [Store.overwrite_quota hs ho]
      exact hs.withQuota hw u
    · rw [Store.overwrite_quota hs ho, Store.value?, Store.cell?_withQuota,
        if_neg fun hc => hv hc.2, Store.value?]

theorem commutes_step (h : d.Mirrored) (hw : d.Fits (.ledger op)) : d.Commutes (·.step op) := by
  cases op with
  | reserve request => exact h.reserve request
  | consume i usage => exact h.resolve i (some usage)
  | undo i => exact h.resolve i none
  | abandon i => exact h.revise i _
  | setChannel i channelId => exact h.revise i _
  | perform i => exact h.perform hw
  | flush => exact h.flush
  | balance u => exact h.balance u
  | invalidate u =>
    exact ⟨rfl, h.direct, h.books.overwrite (s := d.books.store) h.books.sound fun _ _ => rfl⟩
  | purge => exact h.purge
  | wait span => exact ⟨rfl, h.direct, h.books.later (Nat.le_add_right _ _)⟩
  | reloadRatios ratios => exact ⟨rfl, h.direct, h.books⟩

theorem commutes_serve (h : d.Mirrored) (hw : d.Fits op) : d.Commutes (·.serve op) := by
  cases op with
  | ledger op => exact commutes_step h hw
  | overwrite u quota => exact h.overwrite hw u

theorem commutes_serveAll (h : d.Mirrored) (hw : d.AllFit ops) : d.Commutes (·.serveAll ops) := by
  -- Each operation leaves a desk that mirrors, so the rest starts from one as well.
  induction ops generalizing d with
  | nil => exact ⟨rfl, h⟩
  | cons op ops ih =>
    have hop := commutes_serve h hw.1
    have hops := ih hop.mirrored hw.2
    refine ⟨?_, hops.mirrored⟩
    simp only [serveAll, hop.uncached, hops.uncached]

/-- A desk that writes its postings at once, over a sound store and an empty cache. -/
structure Cold (d : Desk) : Prop where
  direct : d.gateway.ledger.batched = false
  sound : d.books.store.Sound
  posted : d.books.batch = .empty
  cache : d.books.cache = some {}

theorem Cold.mirrored (h : d.Cold) : d.Mirrored where
  direct := h.direct
  books := {
    sound := h.sound
    posted := h.posted
    serves := by
      rw [h.cache]
      rintro _ ⟨⟩
      rfl
    entry := by
      rw [h.cache]
      rintro _ u e ⟨⟩ hget
      cases hget }

/-- Starting from an empty cache, every answer, every notice and what is stored are those of the
desk without a cache. What lives in the cache about a balance is the stored balance, so what a
reservation leaves of it is never negative. -/
theorem cache_transparent (h : d.Cold) (hw : d.AllFit ops) :
    (d.uncached.serveAll ops).1 = (d.serveAll ops).1 ∧
    (d.uncached.serveAll ops).2.books.store = (d.serveAll ops).2.books.store ∧
    (d.uncached.serveAll ops).2.books.notices = (d.serveAll ops).2.books.notices ∧
    (∀ c u text, (d.serveAll ops).2.books.cache = some c →
      c.live? (d.serveAll ops).2.gateway.now (AccountKey.userQuota u).text = some text →
      ∃ n, text = toString n ∧ (d.serveAll ops).2.books.store.value? .userQuota u = some n) ∧
    ∀ request r, ((d.serveAll ops).2.step (.reserve request)).1 = .reservation (.ok r) →
      ∃ n, ((d.serveAll ops).2.step (.reserve request)).2.books.store.value? .userQuota
        request.userId = some n ∧ 0 ≤ n := by
  have hall := commutes_serveAll h.mirrored hw
  have hm := hall.mirrored
  rw [hall.uncached]
  refine ⟨rfl, rfl, rfl, fun c u text hc hlive => ?_, fun request r hr => ?_⟩
  · obtain ⟨e, hget, hnow, rfl⟩ := Cache.live?_eq_some.mp hlive
    exact hm.books.entry c u e hc hget hnow
  · obtain ⟨-, hle, -, hleft⟩ :=
      (hm.agree.reserve hm.direct request).covered r (Outcome.reservation.inj hr)
    exact ⟨_, hleft, by omega⟩

theorem fits_undone (h : d.Mirrored) (hc : d.charges = []) (hj : d.gateway.inFlight = [])
    (request : ChargeRequest) :
    ((d.serve (.ledger (.reserve request))).2.serve (.ledger (.undo 0))).2.Fits
      (.ledger (.perform 0)) := by
  intro job hjob
  have hr := h.agree.reserve h.direct request
  -- The job in flight can only be the refund of what was just taken.
  have hopened : (d.serve (.ledger (.reserve request))).2 =
      d.enter (d.gateway.ledger.reserve d.books d.gateway.now request).1
        (d.gateway.ledger.reserve d.books d.gateway.now request).2 := rfl
  rw [hopened] at hjob ⊢
  generalize d.gateway.ledger.reserve d.books d.gateway.now request = p at hr hjob ⊢
  obtain ⟨answer, b⟩ := p
  cases answer with
  | error e =>
    simp [serve, step, Desk.resolve, enter, withBooks, hc, hj, Except.toOption] at hjob
  | ok r =>
    have hmove := hr.moveFits
    by_cases hs : r.state.canBecome .refunded
    · have hdesk : ((d.enter (.ok r) b).serve (.ledger (.undo 0))).2.books = b ∧
          ((d.enter (.ok r) b).serve (.ledger (.undo 0))).2.gateway.inFlight =
            [.refund r.hold] := by
        simp [serve, step, Desk.resolve, enter, withBooks, hc, hj, Except.toOption, books,
          Charge.ofReservation, Reservation.undo, Reservation.become, hs, Gateway.launch, bind,
          Except.bind, pure, Except.pure]
      rw [hdesk.2] at hjob
      cases hjob
      rw [hdesk.1]
      exact hmove
    · simp [serve, step, Desk.resolve, enter, withBooks, hc, hj, Except.toOption,
        Charge.ofReservation, Reservation.undo, Reservation.become, hs, bind, Except.bind] at hjob

def coldUser : UserRow where
  id := 1
  username := "u"
  group := "default"
  quota := .int Word.greatest
  usedQuota := .int 0
  requestCount := .int 0
  status := .ofCode 1
  email := none

def coldDesk : Desk where
  gateway := {
    ledger.prices.fallback := some ⟨1, 2⟩
    books.directory := { store.users.rows := [coldUser], cache := some {}, ttl := 60 } }

def coldRequest : ChargeRequest where
  requestId := "r"
  userId := 1
  tokenId := 1
  tokenUnlimited := true
  group := "default"
  model := "m"
  channelId := 1
  promptTokens := 10

theorem cold_coldDesk : coldDesk.Cold where
  direct := rfl
  sound := {
    unlocked := rfl
    shown := rfl
    userIds := List.pairwise_singleton _ 1
    tokenIds := List.Pairwise.nil
    words := fun c i cell hc => by
      have hcell : cell = .int Word.greatest ∨ cell = .int 0 := by
        cases c <;> simp [Desk.books, coldDesk, Books.store, Store.cell?, Store.userRow?,
          Store.tokenRow?, Store.channelRow?, coldUser] at hc <;> simp [← hc.2]
      rcases hcell with rfl | rfl <;> simp [Cell.IsWord, Word.Fits, Word.least, Word.greatest] }
  posted := rfl
  cache := rfl

def coldOps : List SharedOp :=
  [.ledger (.reserve coldRequest), .ledger (.undo 0), .ledger (.perform 0), .overwrite 1 0,
    .ledger (.balance 1)]

theorem cold_allFit : coldDesk.AllFit coldOps := by
  have hzero : Word.Fits 0 := by decide
  exact ⟨trivial, trivial, fits_undone cold_coldDesk.mirrored rfl rfl coldRequest, hzero, trivial,
    trivial⟩

theorem cache_transparent_undone :
    coldDesk.Cold ∧ coldDesk.AllFit coldOps ∧
      (coldDesk.uncached.serveAll coldOps).1 = (coldDesk.serveAll coldOps).1 :=
  ⟨cold_coldDesk, cold_allFit, (cache_transparent cold_coldDesk cold_allFit).1⟩

end Desk

end Tollgate
