import Tollgate.Proofs.Admission.Checking
import Tollgate.Proofs.Cache.Coherence
import Tollgate.Proofs.Ledger.Terms
import Tollgate.Proofs.Routing.Dispatch

/-!
# Copies of tokens

A request is judged by what the directory tells of its token, which may be a
copy in the cache (`admits_accept`). An acceptance copies no token but from
the store as it is (`copies_accept`), and nothing else that a gateway does
copies any (`steady_settle`, `steady_advance`, `steady_reportFailure`).
-/

namespace Tollgate

theorem Token.remains_of_verify {t : Token} (h : t.verify unixNow = .ok ())
    (hlimited : t.unlimited = false) : 0 < t.remainQuota := by
  unfold verify at h
  split at h
  · cases h
  · cases h
  · cases h
  · split at h
    · cases h
    · split at h
      · cases h
      · next hspent =>
        simp only [hlimited, Bool.not_false, Bool.true_and, decide_eq_true_eq] at hspent
        omega

namespace Chooser

theorem tokens_setStatus (c : Chooser) (s : Store) (id : Int) (status : ChannelStatus) :
    (c.setStatus s id status).2.2.tokens = s.tokens := by
  unfold setStatus
  split
  · rfl
  next s₁ hwrite =>
  have h₁ : s₁.tokens = s.tokens := by
    unfold writeStatus at hwrite
    split at hwrite
    · cases hwrite
    · cases hwrite
    · next s₁ hset =>
      cases hwrite
      rw [Store.setChannelStatus, bind_eq_ok] at hset
      obtain ⟨-, -, hset⟩ := hset
      exact congrArg (·.2.tokens) (Except.ok.inj hset).symm
  split
  · exact h₁
  next s₂ habilities =>
  have h₂ : s₂.tokens = s.tokens := by
    rw [Store.setAbilitiesEnabled, bind_eq_ok] at habilities
    obtain ⟨-, -, habilities⟩ := habilities
    cases habilities
    exact h₁
  split
  · split <;> exact h₂
  · exact h₂

theorem tokens_autoDisable (c : Chooser) (s : Store) (id : Int) :
    (c.autoDisable s id).2.2.tokens = s.tokens := by
  rcases c.autoDisable_eq s id with ⟨-, -, -, heq⟩ | ⟨-, heq⟩
  · rw [heq]
    exact c.tokens_setStatus s id _
  · rw [heq]

end Chooser

namespace Gateway

variable {g g' g'' g₁ : Gateway} {d d' : Draft} {request : AdmissionRequest} {a : Admission}
  {t : Token} {steps : List AdmissionStep}

open Ledger (Steady)

-- ---------------------------------------------------------------------------
-- What copies no token
-- ---------------------------------------------------------------------------

theorem steady_settle (g : Gateway) : Steady g.books g.settle.books := by
  have hjobs (jobs : List Job) (g : Gateway) : Steady g.books (jobs.foldl perform g).books := by
    induction jobs generalizing g with
    | nil => exact .refl g.books
    | cons job jobs ih =>
      have hjob : Steady g.books (g.perform job).books :=
        Ledger.steady_perform g.ledger g.books g.now job
      exact hjob.trans (ih _)
  exact hjobs g.inFlight { g with inFlight := [] }

theorem steady_runTask (g : Gateway) (kind : TaskKind) :
    Steady g.books (g.runTask kind).books := by
  cases kind with
  | batchFlush => exact ⟨rfl, Store.terms_flush g.books.batch g.store, fun _ _ he => he⟩
  | cooldownSweep | limiterSweep => exact .refl g.books
  | routingSync =>
    unfold runTask reloadRoutes
    rcases g.chooser.load g.store.routingSource with _ | ⟨report, chooser⟩ <;>
      exact .refl g.books
  | cachePurge => exact Ledger.steady_withCache g.books fun _ _ he => Cache.entryAt_purge he

theorem steady_runTasksUntil (g : Gateway) (time : Time) (runs : Nat) :
    Steady g.books (g.runTasksUntil time runs).books := by
  induction runs generalizing g with
  | zero => exact .refl g.books
  | succ runs ih =>
    rw [runTasksUntil]
    split
    · exact .refl g.books
    · next task tasks _ =>
      exact (steady_runTask { g with now := task.due, tasks } task.kind).trans (ih _)

theorem steady_advance (g : Gateway) (span : Duration) : Steady g.books (g.advance span).books :=
  steady_runTasksUntil g _ _

theorem steady_penalize (g : Gateway) (id : Int) (model : String) (f : ProviderFailure) :
    Steady g.books (g.penalize id model f).books := by
  rw [penalize]
  extract_lets chooser
  split
  · split
    next _ chooser' store' heq =>
    have htokens : store'.tokens = g.store.tokens :=
      (congrArg (·.2.2.tokens) heq).symm.trans (Chooser.tokens_autoDisable _ g.store id)
    exact Ledger.steady_withStore g.books (by rw [Store.terms, htokens]; rfl)
  · exact .refl g.books

theorem steady_reportFailure (g : Gateway) (a : Admission) (f : ProviderFailure) :
    Steady g.books (g.reportFailure a f).2.2.books := by
  unfold reportFailure
  extract_lets a'
  split
  · exact .refl g.books
  · have hpenalize := g.steady_penalize a'.channel.id a'.model f
    unfold nextChannel
    generalize g.penalize a'.channel.id a'.model f = g' at hpenalize ⊢
    dsimp only
    rcases g'.chooser.select g'.now a'.group a'.model [Chooser.excluding a'.tried] g'.random with
      ⟨_ | _, random⟩ <;> exact hpenalize

theorem books_resolve (g : Gateway) (outcome : Except LedgerError (Reservation × Job)) :
    (g.resolve outcome).2.books = g.books := by
  unfold resolve
  split <;> rfl

-- ---------------------------------------------------------------------------
-- What is copied
-- ---------------------------------------------------------------------------

/-- `g'` has come from `g` with the terms of every token unchanged, and a token is copied only as
the store of `g` tells it. -/
structure Copies (g g' : Gateway) : Prop where
  ttl : g'.books.directory.ttl = g.books.directory.ttl
  terms : g'.store.terms = g.store.terms
  copies : ∀ key e, Cache.copyAt g'.books.cache key = some e →
    Cache.copyAt g.books.cache key = some e ∨
      ∃ t, g.store.tokenByKey? key = .ok (some t) ∧
        e = ⟨Codec.token.encode t, g.now + g.books.directory.ttl⟩

theorem Copies.refl (g : Gateway) : Copies g g := ⟨rfl, rfl, fun _ _ he => .inl he⟩

theorem Copies.steady (h : Copies g g') (hs : Steady g'.books g''.books) : Copies g g'' :=
  ⟨hs.ttl.trans h.ttl, hs.terms.trans h.terms, fun key e he => h.copies key e (hs.copies key e he)⟩

theorem Spared.copies (h : Spared g request g') : Copies g g' := by
  refine ⟨by rw [h.same]; rfl, by rw [h.same]; rfl, fun key e he => ?_⟩
  rcases h.filled.entry (AccountKey.token key).text with hkept | ⟨k, v, htext, hfilled⟩
  · exact .inl (hkept.symm.trans he)
  · obtain rfl := AccountKey.text_injective htext
    exact .inr ⟨v, hfilled.stored, Option.some.inj (he.symm.trans hfilled.entry)⟩

theorem steady_reserveQuota (g : Gateway) (d : Draft) :
    Steady g.books (g.reserveQuota d).2.books := by
  unfold reserveQuota
  split
  · exact .refl g.books
  · next r _ =>
    have hreserve := Ledger.steady_reserve g.ledger g.books g.now r
    generalize g.ledger.reserve g.books g.now r = p at hreserve ⊢
    obtain ⟨_ | _, books⟩ := p <;> exact hreserve

theorem Checked.copies (h : Checked steps request d g g₁)
    (hsteps : steps.Pairwise AdmissionStep.Precedes) : Copies g (g₁.runSteps d steps).2.2 := by
  induction steps generalizing d g₁ with
  | nil => exact h.toSpared.copies
  | cons step steps ih =>
    rw [List.pairwise_cons] at hsteps
    rw [Gateway.runSteps]
    by_cases hquota : step = .quota
    · subst hquota
      rw [AdmissionStep.eq_nil_of_quota hsteps.1]
      have hreserve : Steady g₁.books (g₁.runStep d .quota).2.books :=
        steady_reserveQuota g₁ d
      generalize g₁.runStep d .quota = p at hreserve ⊢
      obtain ⟨_ | _, g'⟩ := p <;> exact h.toSpared.copies.steady hreserve
    · obtain ⟨-, hspared, hchecked⟩ := h.runCheck hquota hsteps.1
      rcases hrun : g₁.runStep d step with ⟨e | d', g'⟩
      · rw [hrun] at hspared
        exact hspared.copies
      · rw [hrun] at hchecked
        exact ih (hchecked d' rfl) hsteps.2

theorem copies_accept (g : Gateway) (request : AdmissionRequest) :
    Copies g (g.accept request).2 := by
  have hrun := (Checked.start (AdmissionStep.enabled g.config) g request).copies
    (AdmissionStep.pairwise_enabled g.config)
  rw [accept]
  generalize g.runSteps { request } (AdmissionStep.enabled g.config) = p at hrun ⊢
  obtain ⟨_ | ⟨step, e⟩, d, g'⟩ := p
  · dsimp only [acceptDraft]
    split <;> exact hrun.steady (.refl g'.books)
  · exact hrun.steady (.refl g'.books)

-- ---------------------------------------------------------------------------
-- What a request is judged by
-- ---------------------------------------------------------------------------

theorem findToken_ok (h : (g.findToken key).1 = .ok t) :
    (g.books.directory.tokenByKey g.now key).1 = .ok (some t) ∧ t.verify g.unixNow = .ok () := by
  unfold findToken at h
  generalize g.books.directory.tokenByKey g.now key = p at h ⊢
  obtain ⟨f | _ | found, directory⟩ := p
  · cases h
  · cases h
  · obtain ⟨_, hverify, rfl⟩ := map_eq_ok.mp h
    exact ⟨rfl, hverify⟩

theorem token_authenticate (h : (g.authenticate d).1 = .ok d') (ht : d'.token = some t) :
    (g.books.directory.tokenByKey g.now (Text.trim d.request.tokenKey)).1 = .ok (some t) ∧
      t.verify g.unixNow = .ok () := by
  unfold authenticate at h
  extract_lets key at h
  split at h
  · cases h
  split at h
  · cases h
  next token g₁ hfind =>
  split at h
  · cases h
  split at h
  · cases h
  cases h
  obtain rfl := Option.some.inj ht
  exact findToken_ok (congrArg Prod.fst hfind)

theorem Checked.reserved (h : Checked steps request d g g₁)
    (hsteps : steps.Pairwise AdmissionStep.Precedes) (hquota : .quota ∈ steps)
    (hrun : g₁.runSteps d steps = (none, d', g')) :
    ∃ d₁ g₂, Checked [.quota] request d₁ g g₂ ∧ g₂.reserveQuota d₁ = (.ok d', g') := by
  induction steps generalizing d g₁ with
  | nil => cases hquota
  | cons step steps ih =>
    rw [List.pairwise_cons] at hsteps
    rcases hstep : g₁.runStep d step with ⟨e | d₁, g₂⟩
    · rw [Gateway.runSteps, hstep] at hrun
      cases hrun
    · rw [Gateway.runSteps, hstep] at hrun
      by_cases hlast : step = .quota
      · subst hlast
        obtain rfl := AdmissionStep.eq_nil_of_quota hsteps.1
        cases hrun
        exact ⟨d, g₁, h, hstep⟩
      · obtain ⟨-, -, hchecked⟩ := h.runCheck hlast hsteps.1
        rw [hstep] at hchecked
        have hmem := (List.mem_cons.mp hquota).resolve_left (Ne.symm hlast)
        exact ih (hchecked d₁ rfl) hsteps.2 hmem hrun

/-- The token by which a request was admitted: as the directory tells of it, it may be used, and
unless the balance is trusted its row covers what was set aside. -/
structure Admits (g : Gateway) (key : String) (a : Admission) (t : Token) : Prop where
  told : (g.books.directory.tokenByKey g.now key).1 = .ok (some t)
  verified : t.verify g.unixNow = .ok ()
  tokenId : a.tokenId = t.id
  covered : t.unlimited = false →
    g.ledger.trusts a.reservation.balanceBefore a.reservation.estimated = false →
      ∃ row ∈ g.store.tokens.rows, row.id = t.id ∧
        row.remainQuota.covers a.reservation.estimated = true

theorem admits_accept (h : (g.accept request).1 = .ok a) :
    ∃ t, g.Admits (Text.trim request.tokenKey) a t := by
  unfold accept at h
  split at h
  · cases h
  next d' g' hrun =>
  obtain ⟨before, henabled, -⟩ := enabled_eq g.config
  obtain ⟨d₁, g₂, hchecked, hquota⟩ :=
    (Checked.start (AdmissionStep.enabled g.config) g request).reserved
      (AdmissionStep.pairwise_enabled g.config) (by rw [henabled]; simp) hrun
  have hstore : g₂.store = g.store := by
    rw [hchecked.same]
    rfl
  have hledger : g₂.ledger = g.ledger := by rw [hchecked.same]
  unfold reserveQuota at hquota
  split at hquota
  · cases hquota
  next r hr =>
  split at hquota
  · cases hquota
  next res books hreserve =>
  cases hquota
  simp only [chargeRequest, bind_eq_ok, pure_eq_ok, Draft.requireToken_ok] at hr
  obtain ⟨t, ht, group, -, channel, -, rfl⟩ := hr
  obtain ⟨d₀, hauth, htoken, -⟩ := hchecked.known (by rw [ht]; rfl)
  obtain ⟨htold, hverified⟩ := token_authenticate hauth (htoken.trans ht)
  unfold acceptDraft at h
  split at h
  · next a' hadmission =>
    cases h
    simp only [Draft.toAdmission, bind_eq_ok, pure_eq_ok, Draft.requireToken_ok,
      Draft.requireReservation_ok] at hadmission
    obtain ⟨t', ht', group', -, channel', -, res', hres', rfl⟩ := hadmission
    obtain rfl := Option.some.inj (ht.symm.trans ht')
    obtain rfl := Option.some.inj hres'
    refine ⟨t, htold, hverified, rfl, fun hlimited htrust => ?_⟩
    rw [← hstore]
    exact Ledger.covered_reserve (congrArg Prod.fst hreserve) hlimited (hledger ▸ htrust)
  · cases h

end Gateway

end Tollgate
