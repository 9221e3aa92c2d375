import Tollgate.Batch
import Tollgate.Directory
import Tollgate.Notice
import Tollgate.Reservation
import Tollgate.Store.Logs

/-!
# The ledger

Reserving quota for a request, then settling or refunding the reservation.
The cached balance of a user is drawn on before the store and follows what is
posted to it; with batching, user and usage postings wait in memory while
reservations on tokens are always written at once.
-/

namespace Tollgate

/-- Everything a charge may change. `notices` are those sent so far, oldest first. -/
structure Books where
  directory : Directory := {}
  batch : Batch := .empty
  watch : Watch := {}
  notices : List (Int × Notice) := []

namespace Books

def store (b : Books) : Store := b.directory.store

def cache (b : Books) : Option Cache := b.directory.cache

def withStore (b : Books) (s : Store) : Books := { b with directory.store := s }

def withCache (b : Books) (c : Option Cache) : Books := { b with directory.cache := c }

def userQuota (b : Books) (now : Time) (userId : Int) :
    Except LookupFault (Option Int) × Books :=
  let (answer, directory) := b.directory.userQuota now userId
  (answer, { b with directory })

end Books

structure ChargeRequest where
  requestId : String
  userId : Int
  tokenId : Int
  tokenUnlimited : Bool
  group : String
  model : String
  channelId : Int
  promptTokens : Nat

structure Ledger where
  prices : PriceList := {}
  ratios : GroupRatios := .empty
  rules : QuotaSettings := {}
  batched : Bool := false

namespace Ledger

def quote (l : Ledger) (group model : String) : Except LedgerError Quote :=
  match l.prices.price? model with
  | none => .error (.priceNotFound model)
  | some p => .ok ⟨p.inputRatio, p.outputRatio, l.ratios.ratio group⟩

def trusts (l : Ledger) (balance estimated : Int) : Bool :=
  0 < l.rules.trustMultiple && Word.saturate (estimated * l.rules.trustMultiple) < balance

-- ---------------------------------------------------------------------------
-- Postings
-- ---------------------------------------------------------------------------

def post (l : Ledger) (b : Books) (counter : Counter) (id delta : Int) :
    Except StoreFault Books :=
  if l.batched then .ok { b with batch := b.batch.add counter id delta }
  else (b.store.post? counter id delta).map b.withStore

def tryPost (l : Ledger) (b : Books) (counter : Counter) (id delta : Int) : Books :=
  (l.post b counter id delta).toOption.getD b

/-- Moves a cached balance along with what was posted and tells its new value. A cache that
cannot follow loses what it holds about the user. -/
def moveCached (b : Books) (now : Time) (userId delta : Int) : Option Int × Books :=
  match b.cache with
  | none => (none, b)
  | some c =>
    match c.credit now (AccountKey.userQuota userId).text delta with
    | .ok (value, c) => (value, b.withCache (some c))
    | .error _ => (none, { b with directory := b.directory.invalidateUser userId })

-- ---------------------------------------------------------------------------
-- Reserving
-- ---------------------------------------------------------------------------

def reserveToken (b : Books) (r : ChargeRequest) (amount : Int) : Except LedgerError Books :=
  if r.tokenUnlimited then
    match b.store.post? .tokenQuota r.tokenId (-amount) with
    | .error f => .error (.store f.message)
    | .ok s => .ok (b.withStore s)
  else
    match b.store.drawToken? r.tokenId amount with
    | .error f => .error (.store f.message)
    | .ok (false, _) => .error (.tokenInsufficient amount)
    | .ok (true, s) => .ok (b.withStore s)

def restoreToken (b : Books) (tokenId amount : Int) : Books :=
  if 0 < amount then ((b.store.post? .tokenQuota tokenId amount).map b.withStore).toOption.getD b
  else b

def reserveStored (b : Books) (userId amount : Int) : Except LedgerError Books :=
  match b.store.drawUser? userId amount with
  | .error f => .error (.store f.message)
  | .ok (true, s) => .ok (b.withStore s)
  | .ok (false, _) =>
    match b.store.userQuota? userId with
    | .error f => .error (.store f.message)
    | .ok none => .error (.userNotFound userId)
    | .ok (some available) => .error (.insufficient amount available)

/-- Draws on the cached balance and posts the draw, or on the stored balance where none is
cached. A draw that cannot be posted is returned to the cache. -/
def reserveUser (l : Ledger) (b : Books) (now : Time) (userId amount : Int) :
    Except LedgerError Unit × Books :=
  let stored := fun b : Books =>
    match reserveStored b userId amount with
    | .ok b => (.ok (), b)
    | .error e => (.error e, b)
  let key := (AccountKey.userQuota userId).text
  match b.cache with
  | none => stored b
  | some c =>
    match c.draw now key amount with
    | .error _ => stored b
    | .ok (.missing, c) => stored (b.withCache (some c))
    | .ok (.insufficient balance, c) =>
      (.error (.insufficient amount balance), b.withCache (some c))
    | .ok (.applied _, c) =>
      match l.post (b.withCache (some c)) .userQuota userId (-amount) with
      | .ok b => (.ok (), b)
      | .error f =>
        let c := match c.credit now key amount with
          | .ok (_, c) => c
          | .error _ => c
        (.error (.store f.message), b.withCache (some c))

/-- Sets the estimated cost of a request aside. The user always pays it in advance, the token
unless the balance is trusted; a token that has paid is repaid when the user cannot. -/
def reserve (l : Ledger) (b : Books) (now : Time) (r : ChargeRequest) :
    Except LedgerError Reservation × Books :=
  match l.quote r.group r.model with
  | .error e => (.error e, b)
  | .ok quote =>
    let estimated : Int := quote.estimate r.promptTokens l.rules.preConsumeBuffer
    match b.userQuota now r.userId with
    | (.error f, b) => (.error (.store f.message), b)
    | (.ok none, b) => (.error (.userNotFound r.userId), b)
    | (.ok (some balance), b) =>
      if balance < estimated then (.error (.insufficient estimated balance), b)
      else
        let tokenReserved := if l.trusts balance estimated then 0 else estimated
        let tokenPaid :=
          if l.trusts balance estimated then .ok b else reserveToken b r estimated
        match tokenPaid with
        | .error e => (.error e, b)
        | .ok b =>
          match l.reserveUser b now r.userId estimated with
          | (.error e, b) => (.error e, restoreToken b r.tokenId tokenReserved)
          | (.ok (), b) =>
            (.ok {
              hold := {
                requestId := r.requestId, userId := r.userId, tokenId := r.tokenId
                channelId := r.channelId, model := r.model, quote
                userReserved := estimated, tokenReserved }
              group := r.group, estimated, balanceBefore := balance, state := .reserved }, b)

-- ---------------------------------------------------------------------------
-- Settling and refunding
-- ---------------------------------------------------------------------------

def writeLog (b : Books) (h : Hold) (usage : Usage) (actual : Int) : Books :=
  match b.store.addLog {
      id := 0, createdAt := "", userId := h.userId, tokenId := h.tokenId, channelId := h.channelId
      model := h.model, promptTokens := usage.promptTokens
      completionTokens := usage.completionTokens, quota := actual
      requestId := some h.requestId } with
  | .ok (_, s) => b.withStore s
  | .error _ => b

def notify (b : Books) (userId balance : Int) : Books :=
  match b.watch.observe userId balance with
  | (none, watch) => { b with watch }
  | (some notice, watch) => { b with watch, notices := b.notices ++ [(userId, notice)] }

/-- User and token each pay, or get back, what the actual cost differs from what they paid in
advance. No failed write keeps the others from being made. -/
def settle (l : Ledger) (b : Books) (now : Time) (h : Hold) (usage : Usage) : Books :=
  let actual : Int := h.quote.cost usage
  let tokenDelta := actual - h.tokenReserved
  let userDelta := actual - h.userReserved
  let b := if tokenDelta = 0 then b else l.tryPost b .tokenQuota h.tokenId (-tokenDelta)
  let (balance, b) :=
    if userDelta = 0 then (none, b)
    else moveCached (l.tryPost b .userQuota h.userId (-userDelta)) now h.userId (-userDelta)
  let b := l.tryPost b .usedQuota h.userId actual
  let b := l.tryPost b .requestCount h.userId 1
  let b := l.tryPost b .channelUsedQuota h.channelId actual
  let b := writeLog b h usage actual
  match balance with
  | some balance => notify b h.userId balance
  | none =>
    match b.userQuota now h.userId with
    | (.ok (some balance), b) => notify b h.userId balance
    | (_, b) => b

def refund (l : Ledger) (b : Books) (now : Time) (h : Hold) : Books :=
  let b := if 0 < h.tokenReserved then l.tryPost b .tokenQuota h.tokenId h.tokenReserved else b
  if 0 < h.userReserved then
    (moveCached (l.tryPost b .userQuota h.userId h.userReserved) now h.userId h.userReserved).2
  else b

def perform (l : Ledger) (b : Books) (now : Time) : Job → Books
  | .settle h usage => l.settle b now h usage
  | .refund h => l.refund b now h

end Ledger

end Tollgate
