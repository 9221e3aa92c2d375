import Mathlib.Data.Finset.Card
import Tollgate.Proofs.Admission.Accepting
import Tollgate.Proofs.Ledger.Charging
import Tollgate.Proofs.Ledger.Conservation
import Tollgate.Proofs.Routing.Dispatch

/-!
# Failover

An admission that reports failures moves on to channels that it has not used
before, whatever becomes of the gateway between the reports, and its
reservation moves along (`Follows`). Since no channel comes twice there are
fewer moves than channels, and in the end the channel in use is charged
(`failover_exact`).
-/

namespace Tollgate

-- ---------------------------------------------------------------------------
-- One report
-- ---------------------------------------------------------------------------

namespace Chooser

theorem table_setStatus (c : Chooser) (s : Store) (id : Int) {status : ChannelStatus}
    (h : status.isEnabled = false) : (c.setStatus s id status).2.1.table = c.table := by
  unfold setStatus
  split
  · rfl
  · split
    · rfl
    · rw [h]
      exact table_takeOut c id

theorem table_autoDisable (c : Chooser) (s : Store) (id : Int) :
    (c.autoDisable s id).2.1.table = c.table := by
  unfold autoDisable
  split
  · rfl
  · next channel _ =>
    by_cases hban : channel.autoBan
    · rw [if_pos hban]
      exact table_setStatus c s id rfl
    · rw [if_neg hban]

end Chooser

namespace Gateway

variable {g g' : Gateway} {a a' : Admission} {f : ProviderFailure} {next : Channel}
  {e : AdmissionError}

theorem channels_penalize (g : Gateway) (id : Int) (model : String) (f : ProviderFailure) :
    (g.penalize id model f).chooser.channels = g.chooser.channels := by
  rw [penalize]
  extract_lets chooser
  split
  · split
    next _ chooser' store' heq =>
    have htable : chooser'.table = g.chooser.table :=
      (congrArg (·.2.1.table) heq).symm.trans (Chooser.table_autoDisable _ g.store id)
    show chooser'.channels = g.chooser.channels
    rw [Chooser.channels, htable, Chooser.channels]
  · rfl

theorem reportFailure_ok (h : g.reportFailure a f = (.ok next, a', g')) :
    f.isChannelFault = true ∧ next ∈ g.chooser.channels ∧
      next.id ∉ insertTried a.tried a.channel.id ∧
      a' = { a with
        channel := next, tried := insertTried a.tried a.channel.id
        reservation := a.reservation.setChannel next.id, attempts := a.attempts + 1 } := by
  unfold reportFailure at h
  dsimp only at h
  split at h
  · cases h
  next hfault =>
  split at h
  · cases h
  next next' g₁ hnext =>
  cases h
  obtain ⟨hmem, hfresh, -⟩ := nextChannel_ok hnext
  rw [channels_penalize] at hmem
  exact ⟨by simpa using hfault, hmem, hfresh, rfl⟩

theorem reportFailure_error (h : g.reportFailure a f = (.error e, a', g')) :
    a' = { a with tried := insertTried a.tried a.channel.id } := by
  unfold reportFailure at h
  dsimp only at h
  split at h
  · cases h
    rfl
  · split at h
    · cases h
      rfl
    · cases h

theorem reportFailure_of_client (g : Gateway) (a : Admission)
    (hf : f.isChannelFault = false) :
    g.reportFailure a f =
      (.error (.provider f), { a with tried := insertTried a.tried a.channel.id }, g) := by
  rw [reportFailure]
  simp [hf]

theorem complete_of_reserved (g : Gateway) (hstate : a.reservation.state = .reserved)
    (usage : Usage) :
    g.complete a usage = (.ok (), g.launch (.settle a.reservation.hold usage)) := by
  simp [complete, Reservation.consume, Reservation.become, ReservationState.canBecome, hstate,
    resolve, bind, Except.bind, pure, Except.pure]

end Gateway

theorem mem_insertTried {i id : Int} {tried : List Int} :
    i ∈ insertTried tried id ↔ i = id ∨ i ∈ tried := by
  rw [insertTried]
  split
  · next h =>
    constructor
    · exact .inr
    · rintro (rfl | hi)
      · exact h
      · exact hi
  · simp [or_comm]

-- ---------------------------------------------------------------------------
-- A run of reports
-- ---------------------------------------------------------------------------

/-- A failure of the channel in use, and the gateway at the time that it is reported. -/
structure Report where
  gateway : Gateway
  failure : ProviderFailure

/-- An admission that has reported failures, with the ids of the channels it has used, the oldest
first, of those it has reported on, and how often it was answered with another channel. -/
structure Trail where
  admission : Admission
  used : List Int
  failed : List Int
  moves : Nat

namespace Trail

def start (a : Admission) : Trail := ⟨a, [a.channel.id], [], 0⟩

def report (t : Trail) (r : Report) : Trail :=
  let failed := t.failed ++ [t.admission.channel.id]
  match r.gateway.reportFailure t.admission r.failure with
  | (.ok next, a, _) => ⟨a, t.used ++ [next.id], failed, t.moves + 1⟩
  | (.error _, a, _) => ⟨a, t.used, failed, t.moves⟩

def run (a : Admission) (reports : List Report) : Trail := reports.foldl report (start a)

/-- What a trail keeps to from the admission `a` on. -/
structure Follows (a : Admission) (t : Trail) : Prop where
  distinct : t.used.Nodup
  last : t.used.getLast? = some t.admission.channel.id
  billed : t.admission.reservation = a.reservation.setChannel t.admission.channel.id
  attempts : t.admission.attempts = t.used.length
  moves : t.used.length = 1 + t.moves
  failed : ∀ id ∈ t.failed, id ∈ t.admission.tried
  behind : ∀ id ∈ t.used, id ∈ insertTried t.admission.tried t.admission.channel.id

variable {a a' : Admission} {t : Trail} {r : Report} {ids : Finset Int} {g g' : Gateway}
  {f : ProviderFailure} {next : Channel} {c : Chooser} {answer : Except AdmissionError Channel}

theorem follows_start (ha : Gateway.Opened c a) : Follows a (start a) where
  distinct := List.nodup_singleton _
  last := rfl
  billed := by
    rw [start, ← ha.billed]
    rfl
  attempts := ha.attempts
  moves := rfl
  failed := nofun
  behind id hid := mem_insertTried.mpr (.inl (List.mem_singleton.mp hid))

theorem Follows.fresh (h : Follows a t)
    (hr : g.reportFailure t.admission f = (.ok next, a', g')) : next.id ∉ t.used := by
  obtain ⟨-, -, hfresh, -⟩ := Gateway.reportFailure_ok hr
  exact fun hused => hfresh (h.behind _ hused)

theorem Follows.hold (h : Follows a t) :
    t.admission.reservation.hold.channelId = t.admission.channel.id := by
  rw [h.billed]
  rfl

theorem Follows.answered (h : Follows a t)
    (hr : g.reportFailure t.admission f = (answer, a', g')) :
    (∀ next, answer = .ok next → a'.channel = next ∧ next.id ∉ t.used) ∧
    (∀ e, answer = .error e → a'.channel = t.admission.channel ∧
      a'.attempts = t.admission.attempts ∧ a'.reservation = t.admission.reservation) ∧
    (f.isChannelFault = false → answer = .error (.provider f) ∧ g' = g) := by
  refine ⟨?_, ?_, ?_⟩
  · rintro next rfl
    have hfresh := h.fresh hr
    obtain ⟨-, -, -, rfl⟩ := Gateway.reportFailure_ok hr
    exact ⟨rfl, hfresh⟩
  · rintro e rfl
    obtain rfl := Gateway.reportFailure_error hr
    exact ⟨rfl, rfl, rfl⟩
  · intro hf
    rw [Gateway.reportFailure_of_client g _ hf] at hr
    cases hr
    exact ⟨rfl, rfl⟩

theorem Follows.report (h : Follows a t) (r : Report) : Follows a (t.report r) := by
  have hfailed : ∀ id ∈ t.failed ++ [t.admission.channel.id],
      id ∈ insertTried t.admission.tried t.admission.channel.id := by
    intro id hid
    rw [mem_insertTried]
    rcases List.mem_append.mp hid with hid | hid
    · exact .inr (h.failed id hid)
    · exact .inl (List.mem_singleton.mp hid)
  unfold Trail.report
  extract_lets failed
  rcases hr : r.gateway.reportFailure t.admission r.failure with ⟨e | next, a', g'⟩
  · obtain rfl := Gateway.reportFailure_error hr
    exact ⟨h.distinct, h.last, h.billed, h.attempts, h.moves, hfailed, fun id hid =>
      mem_insertTried.mpr (.inr (h.behind id hid))⟩
  · have hfresh := h.fresh hr
    obtain ⟨-, -, -, rfl⟩ := Gateway.reportFailure_ok hr
    refine ⟨?_, List.getLast?_concat .., ?_, ?_, ?_, hfailed, fun id hid => ?_⟩
    · refine List.nodup_append.mpr ⟨h.distinct, List.nodup_singleton _, ?_⟩
      rintro id hid _ hnext rfl
      exact hfresh (List.mem_singleton.mp hnext ▸ hid)
    · show t.admission.reservation.setChannel next.id = _
      rw [h.billed]
      rfl
    · simp [h.attempts]
    · simp [h.moves, Nat.add_assoc]
    · rw [mem_insertTried]
      rcases List.mem_append.mp hid with hid | hid
      · exact .inr (h.behind id hid)
      · exact .inl (List.mem_singleton.mp hid)

theorem follows_run (ha : Gateway.Opened c a) (reports : List Report) :
    Follows a (run a reports) := by
  have hrun : ∀ t, Follows a t → Follows a (reports.foldl Trail.report t) := by
    induction reports with
    | nil => exact fun _ h => h
    | cons r reports ih => exact fun t h => ih _ (h.report r)
  exact hrun _ (follows_start ha)

-- ---------------------------------------------------------------------------
-- How long a run can go on
-- ---------------------------------------------------------------------------

theorem used_report (hr : ∀ channel ∈ r.gateway.chooser.channels, channel.id ∈ ids)
    (ht : ∀ id ∈ t.used, id ∈ ids) : ∀ id ∈ (t.report r).used, id ∈ ids := by
  unfold Trail.report
  extract_lets failed
  rcases hreport : r.gateway.reportFailure t.admission r.failure with ⟨e | next, a', g'⟩
  · exact ht
  · obtain ⟨-, hmem, -, -⟩ := Gateway.reportFailure_ok hreport
    intro id hid
    rcases List.mem_append.mp hid with hid | hid
    · exact ht id hid
    · exact List.mem_singleton.mp hid ▸ hr next hmem

/-- Only channels that the table has had are ever used. -/
theorem used_run (ha : a.channel.id ∈ ids) {reports : List Report}
    (hr : ∀ r ∈ reports, ∀ channel ∈ r.gateway.chooser.channels, channel.id ∈ ids) :
    ∀ id ∈ (run a reports).used, id ∈ ids := by
  have hrun : ∀ t : Trail, (∀ id ∈ t.used, id ∈ ids) →
      ∀ id ∈ (reports.foldl Trail.report t).used, id ∈ ids := by
    induction reports with
    | nil => exact fun _ h => h
    | cons r reports ih =>
      intro t ht
      exact ih (fun r' hr' => hr r' (List.mem_cons_of_mem _ hr')) _
        (used_report (hr r (List.mem_cons_self ..)) ht)
  exact hrun _ fun id hid => List.mem_singleton.mp hid ▸ ha

theorem moves_run_le (ha : Gateway.Opened c a) {reports : List Report}
    (hids : ∀ channel ∈ c.channels, channel.id ∈ ids)
    (hr : ∀ r ∈ reports, ∀ channel ∈ r.gateway.chooser.channels, channel.id ∈ ids) :
    (run a reports).moves ≤ ids.card - 1 := by
  have ht := follows_run ha reports
  have hsub : (run a reports).used.toFinset ⊆ ids := by
    intro id hid
    exact used_run (hids _ ha.channel) hr id (List.mem_toFinset.mp hid)
  have hle := Finset.card_le_card hsub
  rw [List.toFinset_card_of_nodup ht.distinct, ht.moves] at hle
  omega

-- ---------------------------------------------------------------------------
-- The whole of it
-- ---------------------------------------------------------------------------

theorem Follows.charged (h : Follows a t) (g : Gateway) (usage : Usage) (hs : g.store.Sound)
    (hroom : g.store.logs.topId < Word.greatest) :
    g.books.Charged (g.perform (.settle t.admission.reservation.hold usage)).books
      g.ledger.batched t.admission.channel.id (a.reservation.hold.quote.cost usage)
      a.reservation.hold.requestId := by
  have hcharged := Ledger.charged_settle (l := g.ledger) hs hroom g.now
    t.admission.reservation.hold usage
  rw [h.hold, h.billed] at hcharged
  rw [h.billed]
  exact hcharged

/-- Failover never repeats a channel and keeps the bill with the channel that serves. The gateway
of each report is arbitrary, so anything may happen between two reports. -/
theorem failover_exact {g₀ : Gateway} {request : AdmissionRequest} {a : Admission}
    (haccept : (g₀.accept request).1 = .ok a) (reports : List Report) :
    let t := run a reports
    (t.used.Nodup ∧ t.used.getLast? = some t.admission.channel.id ∧
      t.admission.reservation.hold.channelId = t.admission.channel.id ∧
      t.admission.reservation = a.reservation.setChannel t.admission.channel.id ∧
      t.admission.attempts = t.used.toFinset.card ∧ t.used.toFinset.card = 1 + t.moves ∧
      ∀ id ∈ t.failed, id ∈ t.admission.tried) ∧
    -- one report more
    (∀ (g : Gateway) (f : ProviderFailure) answer a' g',
      g.reportFailure t.admission f = (answer, a', g') →
      (∀ next, answer = .ok next → a'.channel = next ∧ next.id ∉ t.used) ∧
      (∀ e, answer = .error e → a'.channel = t.admission.channel ∧
        a'.attempts = t.admission.attempts ∧ a'.reservation = t.admission.reservation) ∧
      (f.isChannelFault = false → answer = .error (.provider f) ∧ g' = g)) ∧
    (∀ ids : Finset Int, (∀ channel ∈ g₀.chooser.channels, channel.id ∈ ids) →
      (∀ r ∈ reports, ∀ channel ∈ r.gateway.chooser.channels, channel.id ∈ ids) →
      t.moves ≤ ids.card - 1) ∧
    -- completion
    (∀ (g : Gateway) (usage : Usage), g.complete t.admission usage =
      (.ok (), g.launch (.settle t.admission.reservation.hold usage))) ∧
    ∀ (g : Gateway) (usage : Usage), g.store.Sound → g.store.logs.topId < Word.greatest →
      g.books.Charged (g.perform (.settle t.admission.reservation.hold usage)).books
        g.ledger.batched t.admission.channel.id (a.reservation.hold.quote.cost usage)
        a.reservation.hold.requestId := by
  intro t
  have ha := Gateway.opened_accept haccept
  have ht := follows_run ha reports
  have hcard : t.used.toFinset.card = t.used.length := List.toFinset_card_of_nodup ht.distinct
  have hstate : t.admission.reservation.state = .reserved := by
    rw [ht.billed]
    exact ha.state
  refine ⟨⟨ht.distinct, ht.last, ht.hold, ht.billed, ht.attempts.trans hcard.symm,
    hcard.trans ht.moves, ht.failed⟩, ?_, ?_, ?_, ?_⟩
  · intro g f answer a' g' hr
    exact ht.answered hr
  · intro ids hids hreports
    exact moves_run_le ha hids hreports
  · intro g usage
    exact g.complete_of_reserved hstate usage
  · intro g usage hs hroom
    exact ht.charged g usage hs hroom

-- ---------------------------------------------------------------------------
-- A channel that stands by
-- ---------------------------------------------------------------------------

def reliefGateway : Gateway :=
  { Desk.soleDesk.gateway with
    chooser.table := {
      channels := .ofList [(1, Chooser.spareChannel 1), (2, Chooser.spareChannel 2)]
      routes := .ofList [(("default", "m"), [⟨1, [1]⟩, ⟨0, [2]⟩])] } }

def reliefRequest : AdmissionRequest := ⟨"r", "k", "m", 10⟩

def reliefAdmission : Admission where
  requestId := "r"
  model := "m"
  userId := 1
  tokenId := 1
  group := "default"
  channel := Chooser.spareChannel 1
  tried := []
  reservation := Desk.soleReservation
  attempts := 1

theorem relief_accept : (reliefGateway.accept reliefRequest).1 = .ok reliefAdmission := by
  obtain ⟨b, hreserve, -⟩ := Desk.sole_reserve
  let routed := reliefGateway.runSteps { request := reliefRequest } [.auth, .rateLimit, .routing]
  have hbefore : reliefGateway.runSteps { request := reliefRequest }
      [.auth, .rateLimit, .routing] = (none, routed.2.1, routed.2.2) := rfl
  have hquota : routed.2.2.runStep routed.2.1 .quota =
      (.ok { routed.2.1 with reservation := some Desk.soleReservation },
        { routed.2.2 with books := b }.launchAll []) := by
    have hcharge : Gateway.chargeRequest routed.2.1 = .ok Desk.soleRequest := rfl
    have hreserve : routed.2.2.ledger.reserve routed.2.2.books routed.2.2.now Desk.soleRequest =
        (.ok Desk.soleReservation, b) := hreserve
    simp only [Gateway.runStep, Gateway.reserveQuota, hcharge, hreserve]
    rfl
  have hrun := Gateway.runSteps_append.mpr ⟨routed.2.1, routed.2.2, hbefore, hquota⟩
  have hsteps : AdmissionStep.enabled reliefGateway.config =
      [.auth, .rateLimit, .routing] ++ [.quota] := rfl
  rw [Gateway.accept, hsteps, hrun]
  rfl

/-- Both channels fail. Every report finds the gateway as it was in the beginning, without a
cooldown, and a failure of the client comes between. -/
def reliefReports : List Report :=
  [⟨reliefGateway, ⟨503, "down"⟩⟩, ⟨reliefGateway, ⟨400, "bad request"⟩⟩,
    ⟨reliefGateway, ⟨503, "down"⟩⟩]

def reliefRow : ChannelRow where
  id := 2
  name := "c"
  key := "k"
  baseUrl := none
  status := .enabled
  weight := 3
  priority := 0
  group := "g"
  models := "m"
  proxy := none
  usedQuota := .int 0
  autoBan := true

def billedGateway : Gateway :=
  { reliefGateway with books.directory.store.channels.rows := [reliefRow] }

theorem sound_billedGateway : billedGateway.store.Sound :=
  have hsole := Desk.sole_opening.sound
  { unlocked := rfl
    shown := rfl
    userIds := hsole.userIds
    tokenIds := hsole.tokenIds
    words := fun c i cell hc => by
      cases c with
      | userQuota => exact hsole.words .userQuota i cell hc
      | usedQuota => exact hsole.words .usedQuota i cell hc
      | requestCount => exact hsole.words .requestCount i cell hc
      | tokenQuota => exact hsole.words .tokenQuota i cell hc
      | channelUsedQuota =>
        have hcell : cell = .int 0 := by
          simp [billedGateway, Gateway.store, Books.store, Store.cell?, Store.channelRow?,
            reliefRow] at hc
          exact hc.2.symm
        simp [hcell, Cell.IsWord, Word.Fits, Word.least, Word.greatest] }

theorem failover_exact_spare :
    let t := run reliefAdmission reliefReports
    let cost : Int := Desk.soleQuote.cost ⟨10, 5⟩
    let job := Job.settle t.admission.reservation.hold ⟨10, 5⟩
    (reliefGateway.accept reliefRequest).1 = .ok reliefAdmission ∧
    t.used = [1, 2] ∧ t.used.Nodup ∧ t.admission.reservation.hold.channelId = 2 ∧
    t.admission.attempts = 2 ∧ t.moves ≤ ({1, 2} : Finset Int).card - 1 ∧
    (billedGateway.complete t.admission ⟨10, 5⟩).1 = .ok () ∧
    (billedGateway.perform job).books.standing? .channelUsedQuota 2 = some (0 + cost) := by
  intro t cost job
  obtain ⟨⟨hnodup, -, hhold, -, hattempts, -, -⟩, -, hmoves, hcomplete, hcharged⟩ :=
    failover_exact relief_accept reliefReports
  have hids : ∀ channel ∈ reliefGateway.chooser.channels, channel.id ∈ ({1, 2} : Finset Int) := by
    decide
  have hreports : ∀ r ∈ reliefReports, r.gateway = reliefGateway := by
    simp [reliefReports]
  have hwithin : (billedGateway.books.tally .channelUsedQuota 2).Within true cost := by
    have hcost := Desk.soleQuote.cost_le ⟨10, 5⟩
    have hpos : 0 ≤ cost := Int.natCast_nonneg _
    show Word.Fits (0 + cost)
    simp only [Word.Fits, Word.least, Word.greatest] at hcost ⊢
    omega
  refine ⟨relief_accept, rfl, hnodup, hhold, hattempts,
    hmoves _ hids fun r hr => hreports r hr ▸ hids,
    congrArg Prod.fst (hcomplete billedGateway ⟨10, 5⟩), ?_⟩
  exact (hcharged billedGateway ⟨10, 5⟩ sound_billedGateway (by decide)).own 0 rfl hwithin

end Trail

end Tollgate
