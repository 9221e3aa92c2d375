import Tollgate.Gateway

/-!
# Admission

A request passes authentication, the rate limit, routing and the reservation
of quota, in this order, or is refused by the first of them that fails. Once
admitted it moves from channel to channel as they fail, and never back to one
that it has tried.
-/

namespace Tollgate

structure AdmissionRequest where
  requestId : String
  tokenKey : String
  model : String
  promptTokens : Nat
deriving DecidableEq, Repr

structure Draft where
  request : AdmissionRequest
  token : Option Token := none
  group : Option String := none
  channel : Option Channel := none
  tried : List Int := []
  reservation : Option Reservation := none

/-- An admitted request, which owns its reservation until it is completed, aborted or abandoned. -/
structure Admission where
  requestId : String
  model : String
  userId : Int
  tokenId : Int
  group : String
  channel : Channel
  tried : List Int
  reservation : Reservation
  attempts : Nat

inductive AdmissionStep where
  | auth
  | rateLimit
  | routing
  | quota
deriving DecidableEq, Repr

namespace AdmissionStep

def all : List AdmissionStep := [.auth, .rateLimit, .routing, .quota]

def name : AdmissionStep → String
  | .auth => "auth"
  | .rateLimit => "rate_limit"
  | .routing => "routing"
  | .quota => "quota"

def ofName? (s : String) : Option AdmissionStep := all.find? (·.name = s)

def isEnabled (config : Config) : AdmissionStep → Bool
  | .rateLimit => config.rateLimit.enabled
  | _ => true

def enabled (config : Config) : List AdmissionStep := all.filter (·.isEnabled config)

end AdmissionStep

def insertTried (tried : List Int) (id : Int) : List Int :=
  if id ∈ tried then tried else tried ++ [id]

namespace Draft

def requireToken (d : Draft) : Except AdmissionError Token :=
  d.token.elim (.error (.missing .token)) .ok

def requireGroup (d : Draft) : Except AdmissionError String :=
  d.group.elim (.error (.missing .group)) .ok

def requireChannel (d : Draft) : Except AdmissionError Channel :=
  d.channel.elim (.error (.missing .channel)) .ok

def requireReservation (d : Draft) : Except AdmissionError Reservation :=
  d.reservation.elim (.error (.missing .reservation)) .ok

def toAdmission (d : Draft) : Except AdmissionError Admission := do
  let token ← d.requireToken
  let group ← d.requireGroup
  let channel ← d.requireChannel
  let reservation ← d.requireReservation
  return { requestId := d.request.requestId, model := d.request.model, userId := token.userId
           tokenId := token.id, group, channel, tried := d.tried, reservation, attempts := 1 }

end Draft

def Token.verify (t : Token) (unixNow : Int) : Except AdmissionError Unit :=
  match t.status with
  | .disabled => .error (.auth .tokenDisabled)
  | .expired => .error (.auth .tokenExpired)
  | .exhausted => .error .tokenExhausted
  | .enabled =>
    if t.isExpiredAt unixNow then .error (.auth .tokenExpired)
    else if !t.unlimited && t.remainQuota ≤ 0 then .error .tokenExhausted
    else .ok ()

namespace Gateway

-- ---------------------------------------------------------------------------
-- The steps
-- ---------------------------------------------------------------------------

def findToken (g : Gateway) (key : String) : Except AdmissionError Token × Gateway :=
  let (answer, directory) := g.books.directory.tokenByKey g.now key
  let g := { g with books.directory := directory }
  match answer with
  | .error f => (.error (.internal f.message), g)
  | .ok none => (.error (.auth .unknownToken), g)
  | .ok (some token) => ((token.verify g.unixNow).map fun _ => token, g)

def checkUser (g : Gateway) (userId : Int) : Except AdmissionError Unit × Gateway :=
  let (answer, directory) := g.books.directory.userEnabled g.now userId
  let g := { g with books.directory := directory }
  match answer with
  | .error f => (.error (.internal f.message), g)
  | .ok (some true) => (.ok (), g)
  | .ok (some false) => (.error (.auth .userDisabled), g)
  | .ok none => (.error (.auth .userMissing), g)

def findGroup (g : Gateway) (userId : Int) : Except AdmissionError String × Gateway :=
  let (answer, directory) := g.books.directory.userGroup g.now userId
  let g := { g with books.directory := directory }
  match answer with
  | .error f => (.error (.internal f.message), g)
  | .ok (some group) => (.ok group, g)
  | .ok none => (.error (.auth .userMissing), g)

def authenticate (g : Gateway) (d : Draft) : Except AdmissionError Draft × Gateway :=
  let key := Text.trim d.request.tokenKey
  if key.isEmpty then (.error (.auth .noToken), g)
  else
    match g.findToken key with
    | (.error e, g) => (.error e, g)
    | (.ok token, g) =>
      match g.checkUser token.userId with
      | (.error e, g) => (.error e, g)
      | (.ok (), g) =>
        match g.findGroup token.userId with
        | (.error e, g) => (.error e, g)
        | (.ok group, g) => (.ok { d with token := some token, group := some group }, g)

def strategyFor (g : Gateway) (group : String) : LimitStrategy :=
  .forRpm (g.config.rateLimit.rpmFor group) g.config.rateLimit

def limitRate (g : Gateway) (d : Draft) : Except AdmissionError Draft × Gateway :=
  match d.requireGroup, d.requireToken with
  | .error e, _ => (.error e, g)
  | _, .error e => (.error e, g)
  | .ok group, .ok token =>
    match g.limiter.allow g.now (.relay group token.userId) (g.strategyFor group) 1 with
    | (true, limiter) => (.ok d, { g with limiter })
    | (false, limiter) =>
      (.error (.rateLimited group (g.config.rateLimit.rpmFor group)), { g with limiter })

def nextChannel (g : Gateway) (group model : String) (tried : List Int) :
    Except AdmissionError Channel × Gateway :=
  let (answer, random) := g.chooser.select g.now group model [Chooser.excluding tried] g.random
  (answer.mapError .routing, { g with random })

def route (g : Gateway) (d : Draft) : Except AdmissionError Draft × Gateway :=
  match d.requireGroup with
  | .error e => (.error e, g)
  | .ok group =>
    match g.nextChannel group d.request.model d.tried with
    | (.error e, g) => (.error e, g)
    | (.ok channel, g) => (.ok { d with channel := some channel }, g)

def chargeRequest (d : Draft) : Except AdmissionError ChargeRequest := do
  let token ← d.requireToken
  let group ← d.requireGroup
  let channel ← d.requireChannel
  return { requestId := d.request.requestId, userId := token.userId, tokenId := token.id
           tokenUnlimited := token.unlimited, group, model := d.request.model
           channelId := channel.id, promptTokens := d.request.promptTokens }

/-- A reservation that the draft already held is given up. -/
def reserveQuota (g : Gateway) (d : Draft) : Except AdmissionError Draft × Gateway :=
  match chargeRequest d with
  | .error e => (.error e, g)
  | .ok request =>
    match g.ledger.reserve g.books g.now request with
    | (.error e, books) => (.error (.ledger e), { g with books })
    | (.ok reservation, books) =>
      (.ok { d with reservation := some reservation },
        { g with books }.launchAll (d.reservation.bind (·.abandon)).toList)

def runStep (g : Gateway) (d : Draft) : AdmissionStep → Except AdmissionError Draft × Gateway
  | .auth => g.authenticate d
  | .rateLimit => g.limitRate d
  | .routing => g.route d
  | .quota => g.reserveQuota d

/-- Runs the steps up to the first that fails; the draft is as it was before that one. -/
def runSteps (g : Gateway) (d : Draft) :
    List AdmissionStep → Option (AdmissionStep × AdmissionError) × Draft × Gateway
  | [] => (none, d, g)
  | step :: steps =>
    match g.runStep d step with
    | (.error e, g) => (some (step, e), d, g)
    | (.ok d, g) => g.runSteps d steps

-- ---------------------------------------------------------------------------
-- The life of a request
-- ---------------------------------------------------------------------------

def discard (g : Gateway) (d : Draft) : Gateway :=
  g.launchAll (d.reservation.bind (·.abandon)).toList

def acceptDraft (g : Gateway) (d : Draft) : Except AdmissionError Admission × Gateway :=
  match d.toAdmission with
  | .ok a => (.ok a, g)
  | .error e => (.error e, g.discard d)

def accept (g : Gateway) (request : AdmissionRequest) : Except AdmissionError Admission × Gateway :=
  match g.runSteps { request } (AdmissionStep.enabled g.config) with
  | (some (_, e), d, g) => (.error e, g.discard d)
  | (none, d, g) => g.acceptDraft d

def resolve (g : Gateway) (outcome : Except LedgerError (Reservation × Job)) :
    Except AdmissionError Unit × Gateway :=
  match outcome with
  | .error e => (.error (.ledger e), g)
  | .ok (_, job) => (.ok (), g.launch job)

def complete (g : Gateway) (a : Admission) (usage : Usage) : Except AdmissionError Unit × Gateway :=
  g.resolve (a.reservation.consume usage)

def abort (g : Gateway) (a : Admission) : Except AdmissionError Unit × Gateway :=
  g.resolve a.reservation.undo

def abandon (g : Gateway) (a : Admission) : Gateway := g.launchAll a.reservation.abandon.toList

/-- What the failure of a channel does to the chooser: it rests for the model, and goes out of
service if it will not recover. -/
def penalize (g : Gateway) (channelId : Int) (model : String) (f : ProviderFailure) : Gateway :=
  let chooser := { g.chooser with cooldowns := g.chooser.cooldowns.mark g.now channelId model }
  if g.config.routing.autoDisableEnabled && f.disablesChannel then
    let (_, chooser, store) := chooser.autoDisable g.store channelId
    { g with chooser }.withStore store
  else { g with chooser }

/-- Moves a request whose channel failed to the next one. A failure that is not the channel's
fault is returned to the client as it is. -/
def reportFailure (g : Gateway) (a : Admission) (f : ProviderFailure) :
    Except AdmissionError Channel × Admission × Gateway :=
  let a := { a with tried := insertTried a.tried a.channel.id }
  if !f.isChannelFault then (.error (.provider f), a, g)
  else
    match (g.penalize a.channel.id a.model f).nextChannel a.group a.model a.tried with
    | (.error e, g) => (.error e, a, g)
    | (.ok next, g) =>
      (.ok next,
        { a with channel := next, reservation := a.reservation.setChannel next.id
                 attempts := a.attempts + 1 }, g)

end Gateway

end Tollgate
