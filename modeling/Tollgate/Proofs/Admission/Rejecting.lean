import Tollgate.Proofs.Admission.Checking
import Tollgate.Proofs.Ledger.Conservation

/-!
# A rejection leaves no trace

An admission ends as its checks answer one after the other, each of them on
the gateway as it was (`ask`). A request is admitted where they all pass it;
the first that fails gives its error, and with it the gateway is spared
(`rejection_traceless`).
-/

namespace Tollgate

namespace Gateway

variable {g g' : Gateway} {d d' : Draft} {request : AdmissionRequest}

-- ---------------------------------------------------------------------------
-- A run of the checks
-- ---------------------------------------------------------------------------

/-- What the checks say one after the other, each of them on the gateway as it is. -/
def ask (g : Gateway) (d : Draft) (steps : List AdmissionStep) : Except AdmissionError Draft :=
  steps.foldlM (fun d step => (g.runStep d step).1) d

theorem ask_cons (h : (g.runStep d step).1 = .ok d') (steps : List AdmissionStep) :
    g.ask d (step :: steps) = g.ask d' steps := by
  rw [ask, List.foldlM_cons, h]
  rfl

theorem ask_rejected (h : g.ask d passed = .ok d') (he : (g.runStep d' step).1 = .error e)
    (rest : List AdmissionStep) : g.ask d (passed ++ step :: rest) = .error e := by
  unfold ask at h ⊢
  rw [List.foldlM_append, h]
  show g.ask d' (step :: rest) = _
  rw [ask, List.foldlM_cons, he]
  rfl

/-- The first check to fail, with the draft that it fails on. -/
structure FirstFailure (g : Gateway) (d : Draft) (steps passed : List AdmissionStep)
    (failed : AdmissionStep) (d' : Draft) (e : AdmissionError) : Prop where
  inOrder : ∃ rest, steps = passed ++ failed :: rest
  passes : g.ask d passed = .ok d'
  fails : (g.runStep d' failed).1 = .error e

theorem FirstFailure.cons (h : FirstFailure g d₁ steps passed failed d' e)
    (hpass : (g.runStep d step).1 = .ok d₁) :
    FirstFailure g d (step :: steps) (step :: passed) failed d' e := by
  obtain ⟨⟨rest, rfl⟩, hpassed, hfails⟩ := h
  exact ⟨⟨rest, rfl⟩, (ask_cons hpass passed).trans hpassed, hfails⟩

theorem FirstFailure.ask (h : FirstFailure g d steps passed failed d' e) :
    g.ask d steps = .error e := by
  obtain ⟨⟨rest, rfl⟩, hpassed, hfails⟩ := h
  exact ask_rejected hpassed hfails rest

/-- How a run of the checks ends: as they answer on the gateway before it, and with nothing of it
left where one of them has failed. -/
structure RunEnds (steps : List AdmissionStep) (request : AdmissionRequest) (d : Draft)
    (g g₁ : Gateway) : Prop where
  passed : ∀ d' g', g₁.runSteps d steps = (none, d', g') → g.ask d steps = .ok d'
  failed : ∀ failed e d' g', g₁.runSteps d steps = (some (failed, e), d', g') →
    d'.reservation = none ∧ Spared g request g' ∧
      ∃ passed, FirstFailure g d steps passed failed d' e ∧
        g₁.runSteps d (passed ++ [failed]) = (some (failed, e), d', g')

theorem runEnds_nil (request : AdmissionRequest) (d : Draft) (g g₁ : Gateway) :
    RunEnds [] request d g g₁ := by
  refine ⟨fun d' g' hend => ?_, fun failed e d' g' hend => ?_⟩
  · cases hend
    rfl
  · cases hend

theorem Checked.runSteps (h : Checked steps request d g g₁) (hg : g.Dependable request)
    (hsteps : steps.Pairwise AdmissionStep.Precedes) : RunEnds steps request d g g₁ := by
  induction steps generalizing d g₁ with
  | nil => exact runEnds_nil request d g g₁
  | cons step steps ih =>
    rw [List.pairwise_cons] at hsteps
    obtain ⟨hanswer, hspared, hchecked⟩ := h.runStep hg hsteps.1
    rcases hrun : g₁.runStep d step with ⟨e | d₁, g₂⟩
    · rw [hrun] at hanswer hspared
      have hstop (later : List AdmissionStep) :
          g₁.runSteps d (step :: later) = (some (step, e), d, g₂) := by
        rw [Gateway.runSteps, hrun]
      constructor
      · intro d' g' hend
        rw [hstop] at hend
        cases hend
      · intro failed e' d' g' hend
        rw [hstop] at hend
        cases hend
        exact ⟨h.unreserved, hspared e rfl, [], ⟨⟨steps, rfl⟩, rfl, hanswer.symm⟩, hstop []⟩
    · rw [hrun] at hanswer hchecked
      have hgo (later : List AdmissionStep) :
          g₁.runSteps d (step :: later) = g₂.runSteps d₁ later := by
        rw [Gateway.runSteps, hrun]
      -- After quota nothing is left to run.
      have hrest : RunEnds steps request d₁ g g₂ := by
        by_cases hquota : step = .quota
        · subst hquota
          rw [AdmissionStep.eq_nil_of_quota hsteps.1]
          exact runEnds_nil request d₁ g g₂
        · exact ih (hchecked d₁ rfl hquota) hsteps.2
      constructor
      · intro d' g' hend
        rw [hgo] at hend
        rw [ask_cons hanswer.symm]
        exact hrest.passed d' g' hend
      · intro failed e d' g' hend
        rw [hgo] at hend
        obtain ⟨hunreserved, hspared', passed, hfirst, hstop⟩ := hrest.failed failed e d' g' hend
        refine ⟨hunreserved, hspared', step :: passed, hfirst.cons hanswer.symm, ?_⟩
        rw [List.cons_append, hgo]
        exact hstop

-- ---------------------------------------------------------------------------
-- The whole admission
-- ---------------------------------------------------------------------------

theorem discard_unreserved (g : Gateway) (h : d.reservation = none) : g.discard d = g := by
  rw [discard, h]
  exact congrArg (fun jobs => { g with inFlight := jobs }) (List.append_nil _)

theorem toAdmission_reserved (h : g.reserveQuota d = (.ok d', g')) :
    ∃ a, d'.toAdmission = .ok a := by
  unfold reserveQuota at h
  split at h
  · cases h
  next r hcharge =>
  split at h
  · cases h
  next reservation _ _ =>
  cases h
  simp only [chargeRequest, bind_eq_ok, pure_eq_ok, Draft.requireToken_ok, Draft.requireGroup_ok,
    Draft.requireChannel_ok] at hcharge
  obtain ⟨token, htoken, group, hgroup, channel, hchannel, -⟩ := hcharge
  simp only [Draft.toAdmission, bind_eq_ok, pure_eq_ok, Draft.requireToken_ok,
    Draft.requireGroup_ok, Draft.requireChannel_ok, Draft.requireReservation_ok]
  exact ⟨_, token, htoken, group, hgroup, channel, hchannel, reservation, rfl, rfl⟩

theorem accept_passed
    (h : g.runSteps { request } (AdmissionStep.enabled g.config) = (none, d, g')) :
    ∃ a, g.accept request = (.ok a, g') ∧ d.Becomes a := by
  obtain ⟨before, hsteps, -⟩ := enabled_eq g.config
  have hlast := h
  rw [hsteps] at hlast
  obtain ⟨d₁, g₁, -, hquota⟩ := runSteps_append.mp hlast
  obtain ⟨a, ha⟩ := toAdmission_reserved hquota
  refine ⟨a, ?_, Draft.toAdmission_ok ha⟩
  unfold accept
  rw [h]
  show g'.acceptDraft d = (.ok a, g')
  rw [acceptDraft, ha]

/-- The first check to fail gives its error, and with it the request has left no trace; one that
passes all of them is admitted. -/
theorem rejection_traceless (h : g.Dependable request) :
    (∀ e, (g.accept request).1 = .error e →
      Spared g request (g.accept request).2 ∧
      (∀ k : AccountKey, (Cache.hit? k.codec g.books.cache g.now k.text).isSome →
        Cache.entryAt (g.accept request).2.books.cache k.text =
          Cache.entryAt g.books.cache k.text) ∧
      ∃ passed failed d,
        FirstFailure g { request } (AdmissionStep.checks g.config.rateLimit.enabled) passed
          failed d e ∧
        (g.accept request).2 = (g.runSteps { request } (passed ++ [failed])).2.2) ∧
    (∀ a, (g.accept request).1 = .ok a →
      ∃ d, g.ask { request } (AdmissionStep.checks g.config.rateLimit.enabled) = .ok d ∧
        d.channel = some a.channel ∧ d.reservation = some a.reservation ∧
        a.reservation.state = .reserved ∧ a.reservation.hold.channelId = a.channel.id) ∧
    ((∃ a, (g.accept request).1 = .ok a) ↔
      ∃ d, g.ask { request } (AdmissionStep.checks g.config.rateLimit.enabled) = .ok d) := by
  have hrun := (Checked.start (AdmissionStep.enabled g.config) g request).runSteps h
    (AdmissionStep.pairwise_enabled g.config)
  rw [← AdmissionStep.enabled_eq_checks]
  rcases hsteps : g.runSteps { request } (AdmissionStep.enabled g.config) with
    ⟨_ | ⟨failed, e⟩, d, g'⟩
  · have hask := hrun.passed d g' hsteps
    obtain ⟨a, haccept, hbecomes⟩ := accept_passed hsteps
    rw [haccept]
    refine ⟨fun e he => (by cases he), fun a' ha => ?_, fun _ => ⟨d, hask⟩, fun _ => ⟨a, rfl⟩⟩
    cases ha
    have hopened := opened_accept (g := g) (congrArg Prod.fst haccept)
    exact ⟨d, hask, hbecomes.channel, hbecomes.reservation, hopened.state, hopened.billed⟩
  · obtain ⟨hunreserved, hspared, passed, hfirst, hstop⟩ := hrun.failed failed e d g' hsteps
    have haccept : g.accept request = (.error e, g') := by
      rw [accept, hsteps]
      dsimp only
      rw [discard_unreserved g' hunreserved]
    rw [haccept]
    refine ⟨fun e' he => ?_, fun a ha => (by cases ha), fun ⟨a, ha⟩ => (by cases ha), ?_⟩
    · cases he
      exact ⟨hspared, hspared.filled.keeps, passed, failed, d, hfirst, by rw [hstop]⟩
    · rintro ⟨d', hd'⟩
      rw [hfirst.ask] at hd'
      cases hd'

-- ---------------------------------------------------------------------------
-- A token that is paid back
-- ---------------------------------------------------------------------------

def staleToken : TokenRow := { Desk.soleToken with unlimited := true }

/-- A user whose balance is kept in a cache that refuses to draw on it, and who has less than
nothing in the store. -/
def staleGateway : Gateway :=
  { Desk.soleDesk.gateway with
    books.directory := {
      store := {
        users.rows := [{ Desk.soleUser with quota := .int (-1) }]
        tokens.rows := [staleToken] }
      cache := some (Cache.put { refused := [.draw] } (AccountKey.userQuota 1).text
        ⟨toString Word.greatest, 1⟩) }
    chooser.table := {
      channels := .ofList [(1, Chooser.spareChannel 1)]
      routes := .ofList [(("default", "m"), [⟨0, [1]⟩])] } }

def staleRequest : AdmissionRequest := ⟨"r", "k", "m", 10⟩

def staleError : AdmissionError :=
  .ledger (.insufficient (Desk.soleQuote.estimate 10 500) (-1))

theorem sound_staleGateway : staleGateway.store.Sound where
  unlocked := rfl
  shown := rfl
  userIds := List.pairwise_singleton _ 1
  tokenIds := List.pairwise_singleton _ 1
  words := fun c i cell hc => by
    have hcell : cell = .int (-1) ∨ cell = .int 0 ∨ cell = .int Word.greatest := by
      cases c <;> simp [staleGateway, store, Books.store, Store.cell?, Store.userRow?,
        Store.tokenRow?, Store.channelRow?, Desk.soleUser, staleToken, Desk.soleToken] at hc <;>
        simp [← hc.2]
    rcases hcell with rfl | rfl | rfl <;>
      simp [Cell.IsWord, Word.Fits, Word.least, Word.greatest]

def staleCharge : ChargeRequest := { Desk.soleRequest with tokenUnlimited := true }

theorem stale_pay (h : 0 ≤ amount) :
    (staleGateway.ledger.pay staleGateway.books 0 staleCharge false amount).1 =
      .error (.insufficient amount (-1)) := by
  let paid := staleGateway.books.withStore (staleGateway.store.post .tokenQuota 1 (-amount))
  have hsound : paid.store.Sound := sound_staleGateway.post .tokenQuota 1 (-amount)
  have hvalue : paid.store.value? .userQuota 1 = some (-1) :=
    staleGateway.store.value?_post .tokenQuota 1 (-amount) 1 (by simp)
  have hstored := Ledger.reserveStored_short hsound hvalue h (by omega)
  rw [Ledger.pay_answer]
  show (staleGateway.ledger.reserveUser paid 0 1 amount).1 = _
  rw [Ledger.reserveUser_answer, hstored]
  · rfl
  · rintro _ ⟨⟩
    exact List.mem_singleton_self _

theorem stale_reserve :
    (staleGateway.ledger.reserve staleGateway.books 0 staleCharge).1 =
      .error (.insufficient (Desk.soleQuote.estimate 10 500) (-1)) := by
  have hle := Desk.soleQuote.estimate_le 10 500
  have hquote : staleGateway.ledger.quote staleCharge.group staleCharge.model =
      .ok Desk.soleQuote := rfl
  have hhit : Cache.hit? .word staleGateway.books.cache 0 (AccountKey.userQuota 1).text =
      some Word.greatest :=
    Cache.hit?_eq_some.mpr ⟨_, _, rfl, by decide, (Cache.entryAt_put ..).trans (if_pos rfl),
      by decide, Codec.decode_word (by decide)⟩
  have hlook : staleGateway.books.userQuota 0 staleCharge.userId =
      (.ok (some Word.greatest), staleGateway.books) := by
    show staleGateway.books.userQuota 0 1 = _
    rw [Books.userQuota_eq]
    unfold Cache.fetch
    rw [hhit]
    rfl
  have hpay := stale_pay (Int.natCast_nonneg (Desk.soleQuote.estimate 10 500))
  rw [Ledger.reserve_eq, hquote]
  dsimp only
  rw [hlook]
  show (if Word.greatest < (Desk.soleQuote.estimate 10 500 : Int) then _ else
    (Except.map _ (staleGateway.ledger.pay staleGateway.books 0 staleCharge false
      (Desk.soleQuote.estimate 10 500)).1, _)).1 = _
  rw [if_neg (Int.not_lt.mpr hle), hpay]
  rfl

def staleDraft : Draft where
  request := staleRequest
  token := staleToken.read.toOption
  group := some "default"

theorem stale_quota : (staleGateway.runStep
    { staleDraft with channel := some (Chooser.spareChannel 1) } .quota).1 =
      .error staleError := by
  have hcharge : chargeRequest { staleDraft with channel := some (Chooser.spareChannel 1) } =
      .ok staleCharge := rfl
  have hanswer : (staleGateway.ledger.reserve staleGateway.books staleGateway.now staleCharge).1 =
      .error (.insufficient (Desk.soleQuote.estimate 10 500) (-1)) := stale_reserve
  rw [runStep, reserveQuota, hcharge]
  dsimp only
  generalize staleGateway.ledger.reserve staleGateway.books staleGateway.now staleCharge = p
    at hanswer ⊢
  obtain ⟨answer, b⟩ := p
  obtain rfl : answer = _ := hanswer
  dsimp only
  rw [staleError]

theorem stale_ask :
    staleGateway.ask { request := staleRequest } (AdmissionStep.checks true) =
      .error staleError := by
  have hauth : (staleGateway.runStep { request := staleRequest } .auth).1 = .ok staleDraft := rfl
  have hlimit : (staleGateway.runStep staleDraft .rateLimit).1 = .ok staleDraft := rfl
  have hroute : (staleGateway.runStep staleDraft .routing).1 =
      .ok { staleDraft with channel := some (Chooser.spareChannel 1) } := rfl
  have hpassed : staleGateway.ask { request := staleRequest } [.auth, .rateLimit, .routing] =
      .ok { staleDraft with channel := some (Chooser.spareChannel 1) } := by
    rw [ask_cons hauth, ask_cons hlimit, ask_cons hroute]
    rfl
  have hchecks : AdmissionStep.checks true = [.auth, .rateLimit, .routing] ++ [.quota] := rfl
  rw [hchecks]
  exact ask_rejected hpassed stale_quota []

theorem dependable_staleGateway : staleGateway.Dependable staleRequest where
  sound := sound_staleGateway
  repayable := fun _ _ _ _ token _ quote _ _ _ _ => by
    have hle := quote.estimate_le staleRequest.promptTokens
      staleGateway.ledger.rules.preConsumeBuffer
    generalize quote.estimate staleRequest.promptTokens
      staleGateway.ledger.rules.preConsumeBuffer = amount at hle ⊢
    have htakes (d : Int) (hd : -Word.greatest ≤ d ∧ d ≤ 0) :
        staleGateway.store.Takes .tokenQuota token.id d := by
      intro row hrow _
      obtain rfl : row = staleToken := List.mem_singleton.mp hrow
      simp only [Word.greatest] at hd
      simp only [staleToken, Desk.soleToken, Cell.Takes, Word.Fits, Word.least, Word.greatest]
      omega
    exact ⟨htakes 0 (by decide), htakes (-amount) (by omega)⟩

theorem rejection_traceless_stale :
    staleGateway.Dependable staleRequest ∧
      (staleGateway.accept staleRequest).1 = .error staleError ∧
      Spared staleGateway staleRequest (staleGateway.accept staleRequest).2 := by
  obtain ⟨hrejects, -, hpasses⟩ := rejection_traceless dependable_staleGateway
  have hlimited : staleGateway.config.rateLimit.enabled = true := rfl
  rw [hlimited] at hrejects hpasses
  cases hanswer : (staleGateway.accept staleRequest).1 with
  | ok a =>
    obtain ⟨d, hd⟩ := hpasses.mp ⟨a, hanswer⟩
    rw [stale_ask] at hd
    cases hd
  | error e =>
    obtain ⟨hspared, -, passed, failed, d, hfirst, -⟩ := hrejects e hanswer
    have he := hfirst.ask
    rw [stale_ask] at he
    obtain rfl := Except.error.inj he
    exact ⟨dependable_staleGateway, rfl, hspared⟩

end Gateway

end Tollgate
