import Tollgate.Proofs.Admission.Accepting
import Tollgate.Proofs.Ledger.Refusing

/-!
# The checks of an admission, one by one

Each check answers as it would on the gateway before any has run, since what
those before it have changed it does not read (`Checked`). One that rejects
the request has changed nothing but the count that the caller is limited by,
the entries that lookups have filled in the cache, and the draws of routing
(`Spared`).
-/

namespace Tollgate

theorem Limiter.allow_spec (l : Limiter) (now : Time) (key : LimiterKey)
    (strategy : LimitStrategy) (n : Nat) :
    (l.allow now key strategy n).2 = { l with
      slots := (l.allow now key strategy n).2.slots
      calls := (l.allow now key strategy n).2.calls } ∧
    ∀ k ≠ key, (l.allow now key strategy n).2.slots.get? k = l.slots.get? k := by
  have hallow : (l.allow now key strategy n).2 = (l.check now key strategy n).2 := by
    unfold allow
    split <;> next heq => rw [heq]
  rw [hallow]
  unfold check
  split
  · exact ⟨rfl, fun _ _ => rfl⟩
  · unfold acquire
    dsimp only
    split
    · exact ⟨rfl, fun _ _ => rfl⟩
    · exact ⟨rfl, fun k hk => (Dict.get?_set ..).trans (if_neg hk)⟩

namespace AdmissionStep

/-- The order of the steps: none comes twice, nothing after the quota or before
authentication. -/
def Precedes (step later : AdmissionStep) : Prop :=
  step ≠ later ∧ step ≠ .quota ∧ later ≠ .auth

instance (step later : AdmissionStep) : Decidable (Precedes step later) :=
  inferInstanceAs (Decidable (_ ∧ _ ∧ _))

theorem pairwise_enabled (config : Config) : (enabled config).Pairwise Precedes :=
  (by decide : all.Pairwise Precedes).filter _

theorem eq_nil_of_quota (h : ∀ later ∈ steps, Precedes .quota later) : steps = [] :=
  List.eq_nil_iff_forall_not_mem.mpr fun later hlater => (h later hlater).2.1 rfl

def checks (limited : Bool) : List AdmissionStep :=
  if limited then [.auth, .rateLimit, .routing, .quota] else [.auth, .routing, .quota]

theorem enabled_eq_checks (config : Config) : enabled config = checks config.rateLimit.enabled := by
  cases h : config.rateLimit.enabled <;> simp [enabled, all, isEnabled, checks, h]

end AdmissionStep

def Draft.limiterKey? (d : Draft) : Option LimiterKey := do
  some (.relay (← d.group) (← d.token).userId)

namespace Gateway

variable {g g' g'' : Gateway}

-- ---------------------------------------------------------------------------
-- Looking accounts up
-- ---------------------------------------------------------------------------

/-- One gateway has come from another by lookups of accounts other than balances. -/
structure Looked (g g' : Gateway) : Prop where
  same : g' = { g with books := g.books.withCache g'.books.cache }
  filled : Cache.Filled g.store g.books.directory.ttl g.now g.books.cache g'.books.cache
  balances : ∀ u, Cache.AgreeAt (AccountKey.userQuota u).text g.books.cache g'.books.cache

theorem Looked.refl (g : Gateway) : Looked g g := ⟨rfl, .refl .., fun _ => .refl ..⟩

theorem Looked.trans (h : Looked g g') (h' : Looked g' g'') : Looked g g'' := by
  obtain ⟨hsame, hfilled, hbalances⟩ := h
  obtain ⟨hsame', hfilled', hbalances'⟩ := h'
  have hstore : g'.store = g.store := by rw [hsame]; rfl
  have httl : g'.books.directory.ttl = g.books.directory.ttl := by rw [hsame]; rfl
  have hnow : g'.now = g.now := by rw [hsame]
  refine ⟨?_, hfilled.trans (hstore ▸ httl ▸ hnow ▸ hfilled'),
    fun u => (hbalances u).trans (hbalances' u)⟩
  rw [hsame', hsame]
  rfl

theorem looked_lookup (g : Gateway) (k : AccountKey) (hk : ∀ u, k ≠ .userQuota u)
    (fact : AccountFact) :
    Looked g { g with books.directory :=
      (g.books.directory.lookup g.now k.codec k fact (k.stored g.store)).2 } where
  same := rfl
  filled := Cache.filled_fetch k g.store _ g.now g.books.cache _
  balances := fun u => .fetch_other _ _ _ _ _ fun h => hk u (AccountKey.text_injective h).symm

theorem looked_findToken (g : Gateway) (key : String) : Looked g (g.findToken key).2 := by
  have hlook := looked_lookup g (.token key) nofun .token
  unfold findToken
  dsimp only
  split <;> exact hlook

theorem looked_checkUser (g : Gateway) (userId : Int) : Looked g (g.checkUser userId).2 := by
  have hlook := looked_lookup g (.userEnabled userId) nofun .enabled
  unfold checkUser
  dsimp only
  split <;> exact hlook

theorem looked_findGroup (g : Gateway) (userId : Int) : Looked g (g.findGroup userId).2 := by
  have hlook := looked_lookup g (.userGroup userId) nofun .group
  unfold findGroup
  dsimp only
  split <;> exact hlook

theorem looked_authenticate (g : Gateway) (d : Draft) : Looked g (g.authenticate d).2 := by
  unfold authenticate
  extract_lets key
  split
  · exact .refl g
  have hkey := looked_findToken g key
  split
  · next heq =>
    rw [heq] at hkey
    exact hkey
  next token g₁ heq =>
  rw [heq] at hkey
  have huser := hkey.trans (looked_checkUser g₁ token.userId)
  split
  · next heq =>
    rw [heq] at huser
    exact huser
  next g₂ heq =>
  rw [heq] at huser
  have hgroup := huser.trans (looked_findGroup g₂ token.userId)
  split
  · next heq =>
    rw [heq] at hgroup
    exact hgroup
  · next heq =>
    rw [heq] at hgroup
    exact hgroup

-- ---------------------------------------------------------------------------
-- The rate limit and routing
-- ---------------------------------------------------------------------------

variable {d d' : Draft} {request : AdmissionRequest}

theorem limitRate_spec (g : Gateway) (d : Draft) :
    (g.limitRate d).2 = { g with limiter := { g.limiter with
      slots := (g.limitRate d).2.limiter.slots, calls := (g.limitRate d).2.limiter.calls } } ∧
    (d.limiterKey? = none → (g.limitRate d).2.limiter = g.limiter) ∧
    ∀ key, d.limiterKey? ≠ some key →
      (g.limitRate d).2.limiter.slots.get? key = g.limiter.slots.get? key := by
  unfold limitRate
  split
  · exact ⟨rfl, fun _ => rfl, fun _ _ => rfl⟩
  · exact ⟨rfl, fun _ => rfl, fun _ _ => rfl⟩
  · next group token hgroup htoken =>
    have hkey : d.limiterKey? = some (.relay group token.userId) := by
      rw [Draft.limiterKey?, Draft.requireGroup_ok.mp hgroup, Draft.requireToken_ok.mp htoken]
      rfl
    rw [hkey]
    have hallow := g.limiter.allow_spec g.now (.relay group token.userId) (g.strategyFor group) 1
    generalize g.limiter.allow g.now (.relay group token.userId) (g.strategyFor group) 1 = p
      at hallow ⊢
    obtain ⟨allowed, limiter⟩ := p
    obtain ⟨hsame, hothers⟩ := hallow
    have hspec : { g with limiter } = { g with limiter := { g.limiter with
        slots := limiter.slots, calls := limiter.calls } } :=
      congrArg (fun limiter => { g with limiter }) hsame
    cases allowed <;>
      exact ⟨hspec, (fun hnone => by cases hnone),
        fun key hne => hothers key fun h => hne (h ▸ rfl)⟩

theorem limitRate_congr (hlimiter : g'.limiter = g.limiter) (hconfig : g'.config = g.config)
    (hnow : g'.now = g.now) : (g'.limitRate d).1 = (g.limitRate d).1 := by
  unfold limitRate strategyFor
  rw [hlimiter, hconfig, hnow]
  split
  · rfl
  · rfl
  · next group token _ _ =>
    rcases g.limiter.allow g.now (.relay group token.userId) _ 1 with ⟨_ | _, limiter⟩ <;> rfl

theorem route_spec (g : Gateway) (d : Draft) :
    (g.route d).2 = { g with random := (g.route d).2.random } := by
  unfold route
  split
  · rfl
  · next group _ =>
    unfold nextChannel
    rcases g.chooser.select g.now group d.request.model [Chooser.excluding d.tried] g.random with
      ⟨_ | _, random⟩ <;> rfl

theorem route_congr (hchooser : g'.chooser = g.chooser) (hrandom : g'.random = g.random)
    (hnow : g'.now = g.now) : (g'.route d).1 = (g.route d).1 := by
  unfold route nextChannel
  rw [hchooser, hrandom, hnow]
  split
  · rfl
  · next group _ =>
    dsimp only
    rcases g.chooser.select g.now group d.request.model [Chooser.excluding d.tried] g.random with
      ⟨_ | _, random⟩ <;> rfl

-- ---------------------------------------------------------------------------
-- The checks
-- ---------------------------------------------------------------------------

def callerKey? (g : Gateway) (request : AdmissionRequest) : Option LimiterKey :=
  (g.authenticate { request }).1.toOption.bind (·.limiterKey?)

/-- What a request that was rejected has changed at most: a count of the caller's, which takes a
caller who is known, the entries that lookups have filled, and the source of the draws. -/
structure Spared (g : Gateway) (request : AdmissionRequest) (g' : Gateway) : Prop where
  same : g' = { g with
    books := g.books.withCache g'.books.cache
    limiter := { g.limiter with slots := g'.limiter.slots, calls := g'.limiter.calls }
    random := g'.random }
  filled : Cache.Filled g.store g.books.directory.ttl g.now g.books.cache g'.books.cache
  unknown : g.callerKey? request = none → g'.limiter = g.limiter
  others : ∀ key, g.callerKey? request ≠ some key →
    g'.limiter.slots.get? key = g.limiter.slots.get? key

/-- A gateway on which some checks have passed, and the draft that they have made, before the
steps that are left. -/
structure Checked (left : List AdmissionStep) (request : AdmissionRequest) (d : Draft)
    (g g' : Gateway) : Prop extends Spared g request g' where
  asked : d.request = request
  unreserved : d.reservation = none
  known : d.token.isSome → ∃ d₁, (g.authenticate { request }).1 = .ok d₁ ∧
    d₁.token = d.token ∧ d₁.group = d.group
  balances : ∀ u, Cache.AgreeAt (AccountKey.userQuota u).text g.books.cache g'.books.cache
  first : .auth ∈ left → g' = g ∧ d = { request }
  uncounted : .rateLimit ∈ left → g'.limiter = g.limiter
  undrawn : .routing ∈ left → g'.random = g.random

theorem Checked.start (left : List AdmissionStep) (g : Gateway) (request : AdmissionRequest) :
    Checked left request { request } g g where
  same := rfl
  filled := .refl ..
  unknown := fun _ => rfl
  others := fun _ _ => rfl
  asked := rfl
  unreserved := rfl
  known := fun h => (by cases h)
  balances := fun _ => .refl ..
  first := fun _ => ⟨rfl, rfl⟩
  uncounted := fun _ => rfl
  undrawn := fun _ => rfl

variable {left : List AdmissionStep}

theorem Checked.caller (h : Checked left request d g g') (hkey : d.limiterKey? = some key) :
    g.callerKey? request = some key := by
  have htoken : d.token.isSome := by
    cases ht : d.token with
    | some token => rfl
    | none => simp [Draft.limiterKey?, ht] at hkey
  obtain ⟨d₁, hd₁, htoken₁, hgroup₁⟩ := h.known htoken
  rw [callerKey?, hd₁]
  show d₁.limiterKey? = some key
  rw [Draft.limiterKey?, htoken₁, hgroup₁]
  exact hkey

theorem Looked.spared (h : Looked g g') (request : AdmissionRequest) : Spared g request g' where
  same := by
    rw [h.same]
    rfl
  filled := h.filled
  unknown := fun _ => by rw [h.same]
  others := fun key _ => by rw [h.same]

theorem checked_authenticate (g : Gateway) (request : AdmissionRequest) :
    Spared g request (g.authenticate { request }).2 ∧
      ∀ d', (g.authenticate { request }).1 = .ok d' → .auth ∉ left →
        Checked left request d' g (g.authenticate { request }).2 := by
  have hlooked := looked_authenticate g { request }
  have hspared := hlooked.spared request
  refine ⟨hspared, fun d' hd hleft => ?_⟩
  obtain ⟨⟨token, group, rfl⟩, -⟩ := authenticate_ok (Prod.ext hd rfl :
    g.authenticate { request } = (.ok d', (g.authenticate { request }).2))
  exact {
    toSpared := hspared
    asked := rfl
    unreserved := rfl
    known := fun _ => ⟨_, hd, rfl, rfl⟩
    balances := hlooked.balances
    first := fun h => absurd h hleft
    uncounted := fun _ => by rw [hlooked.same]
    undrawn := fun _ => by rw [hlooked.same] }

theorem Checked.limitRate (h : Checked (.rateLimit :: left) request d g g')
    (hleft : .auth ∉ left ∧ .rateLimit ∉ left) :
    (g'.limitRate d).1 = (g.limitRate d).1 ∧ Spared g request (g'.limitRate d).2 ∧
      ∀ d', (g'.limitRate d).1 = .ok d' → Checked left request d' g (g'.limitRate d).2 := by
  have hlimiter := h.uncounted (List.mem_cons_self ..)
  obtain ⟨hsame, hunknown, hothers⟩ := limitRate_spec g' d
  have hspared : Spared g request (g'.limitRate d).2 := {
    same := by
      rw [hsame, h.same]
      rfl
    filled := by
      rw [hsame]
      exact h.filled
    unknown := fun hnone => by
      refine (hunknown ?_).trans hlimiter
      cases hd : d.limiterKey? with
      | none => rfl
      | some key =>
        rw [h.caller hd] at hnone
        cases hnone
    others := fun key hkey => by
      rw [hothers key fun hd => hkey (h.caller hd), hlimiter] }
  refine ⟨limitRate_congr hlimiter (by rw [h.same]) (by rw [h.same]), hspared, fun d' hd => ?_⟩
  obtain ⟨rfl, -⟩ := limitRate_ok (Prod.ext hd rfl :
    g'.limitRate d = (.ok d', (g'.limitRate d).2))
  exact {
    toSpared := hspared
    asked := h.asked
    unreserved := h.unreserved
    known := h.known
    balances := by
      rw [hsame]
      exact h.balances
    first := fun hauth => absurd hauth hleft.1
    uncounted := fun hlimit => absurd hlimit hleft.2
    undrawn := fun hroute => by
      rw [hsame]
      exact h.undrawn (List.mem_cons_of_mem _ hroute) }

theorem Checked.route (h : Checked (.routing :: left) request d g g')
    (hleft : .auth ∉ left ∧ .routing ∉ left) :
    (g'.route d).1 = (g.route d).1 ∧ Spared g request (g'.route d).2 ∧
      ∀ d', (g'.route d).1 = .ok d' → Checked left request d' g (g'.route d).2 := by
  have hsame := route_spec g' d
  have hspared : Spared g request (g'.route d).2 := {
    same := by
      rw [hsame, h.same]
      rfl
    filled := by
      rw [hsame]
      exact h.filled
    unknown := by
      rw [hsame]
      exact h.unknown
    others := by
      rw [hsame]
      exact h.others }
  refine ⟨route_congr (by rw [h.same]) (h.undrawn (List.mem_cons_self ..)) (by rw [h.same]),
    hspared, fun d' hd => ?_⟩
  obtain ⟨⟨channel, -, rfl⟩, -⟩ := route_ok (Prod.ext hd rfl :
    g'.route d = (.ok d', (g'.route d).2))
  exact {
    toSpared := hspared
    asked := h.asked
    unreserved := h.unreserved
    known := h.known
    balances := by
      rw [hsame]
      exact h.balances
    first := fun hauth => absurd hauth hleft.1
    uncounted := fun hlimit => by
      rw [hsame]
      exact h.uncounted (List.mem_cons_of_mem _ hlimit)
    undrawn := fun hroute => absurd hroute hleft.2 }

/-- The statements of the store are carried out; where the cache fails, what the token of the
caller pays in advance can be paid back to it to the last unit. -/
structure Dependable (g : Gateway) (request : AdmissionRequest) : Prop where
  sound : g.store.Sound
  repayable : ∀ c, g.books.cache = some c → c.refused ≠ [] →
    ∀ d token group quote, (g.authenticate { request }).1 = .ok d → d.token = some token →
      d.group = some group → g.ledger.quote group request.model = .ok quote →
        Ledger.Repayable g.store token.id
          (quote.estimate request.promptTokens g.ledger.rules.preConsumeBuffer)

theorem chargeRequest_asked (h : chargeRequest d = .ok r) :
    d.group = some r.group ∧ (∃ token, d.token = some token ∧ r.tokenId = token.id) ∧
      r.model = d.request.model ∧ r.promptTokens = d.request.promptTokens := by
  simp only [chargeRequest, bind_eq_ok, pure_eq_ok, Draft.requireToken_ok,
    Draft.requireGroup_ok] at h
  obtain ⟨token, htoken, group, hgroup, channel, -, rfl⟩ := h
  exact ⟨hgroup, ⟨token, htoken, rfl⟩, rfl, rfl⟩

theorem reserveQuota_congr (hbooks : g'.books = g.books.withCache g'.books.cache)
    (hledger : g'.ledger = g.ledger) (hnow : g'.now = g.now)
    (hagree : ∀ u, Cache.AgreeAt (AccountKey.userQuota u).text g.books.cache g'.books.cache) :
    (g'.reserveQuota d).1 = (g.reserveQuota d).1 := by
  unfold reserveQuota
  rw [hledger, hnow]
  cases chargeRequest d with
  | error e => rfl
  | ok r =>
    have hanswer : (g.ledger.reserve g'.books g.now r).1 =
        (g.ledger.reserve g.books g.now r).1 := by
      rw [hbooks]
      exact Ledger.reserve_congr (hagree r.userId)
    dsimp only
    generalize g.ledger.reserve g'.books g.now r = p' at hanswer ⊢
    generalize g.ledger.reserve g.books g.now r = p at hanswer ⊢
    obtain ⟨answer', b'⟩ := p'
    obtain ⟨answer, b⟩ := p
    obtain rfl : answer' = answer := hanswer
    cases answer' <;> rfl

theorem Checked.reserveQuota (h : Checked left request d g g') (hg : g.Dependable request) :
    (g'.reserveQuota d).1 = (g.reserveQuota d).1 ∧
      ∀ e, (g'.reserveQuota d).1 = .error e → Spared g request (g'.reserveQuota d).2 := by
  have hbooks : g'.books = g.books.withCache g'.books.cache := by
    rw [h.same]
    rfl
  refine ⟨reserveQuota_congr hbooks (by rw [h.same]) (by rw [h.same]) h.balances, fun e he => ?_⟩
  unfold Gateway.reserveQuota at he ⊢
  cases hcharge : chargeRequest d with
  | error e => exact h.toSpared
  | ok r =>
    rw [hcharge] at he
    dsimp only at he ⊢
    rcases hreserve : g'.ledger.reserve g'.books g'.now r with ⟨e' | reservation, b⟩
    · have hstore : g'.books.store = g.store := by
        rw [hbooks]
        rfl
      have hledger : g'.ledger = g.ledger := by rw [h.same]
      obtain ⟨hgroup, ⟨token, htoken, hid⟩, hmodel, htokens⟩ := chargeRequest_asked hcharge
      obtain ⟨d₁, hd₁, htoken₁, hgroup₁⟩ := h.known (by rw [htoken]; rfl)
      obtain ⟨cache, rfl, hfilled⟩ := Ledger.refused_reserve (hstore ▸ hg.sound)
        (fun c hc hrefused quote hquote => by
          obtain ⟨c₀, hc₀, heq⟩ := (hc ▸ h.filled).before
          rw [hmodel, h.asked, hledger] at hquote
          rw [hstore, htokens, h.asked, hledger, hid]
          exact hg.repayable c₀ hc₀ (heq ▸ hrefused) d₁ token r.group quote hd₁
            (htoken₁.trans htoken) (hgroup₁.trans hgroup) hquote) hreserve
      have httl : g'.books.directory.ttl = g.books.directory.ttl := by
        rw [hbooks]
        rfl
      have hnow : g'.now = g.now := by rw [h.same]
      exact {
        same := by
          rw [h.same]
          rfl
        filled := h.filled.trans (hstore ▸ httl ▸ hnow ▸ hfilled)
        unknown := h.unknown
        others := h.others }
    · rw [hreserve] at he
      cases he

theorem Checked.runCheck (h : Checked (step :: left) request d g g') (hstep : step ≠ .quota)
    (hleft : ∀ later ∈ left, step.Precedes later) :
    (g'.runStep d step).1 = (g.runStep d step).1 ∧ Spared g request (g'.runStep d step).2 ∧
      ∀ d', (g'.runStep d step).1 = .ok d' → Checked left request d' g (g'.runStep d step).2 := by
  have hnot {later : AdmissionStep} (hlater : ¬step.Precedes later) : later ∉ left :=
    fun hmem => hlater (hleft later hmem)
  cases step with
  | auth =>
    obtain ⟨rfl, rfl⟩ := h.first (List.mem_cons_self ..)
    obtain ⟨hspared, hchecked⟩ := checked_authenticate g' request
    exact ⟨rfl, hspared, fun d' hd => hchecked d' hd (hnot (by decide))⟩
  | rateLimit => exact h.limitRate ⟨hnot (by decide), hnot (by decide)⟩
  | routing => exact h.route ⟨hnot (by decide), hnot (by decide)⟩
  | quota => exact absurd rfl hstep

theorem Checked.runStep (h : Checked (step :: left) request d g g') (hg : g.Dependable request)
    (hleft : ∀ later ∈ left, step.Precedes later) :
    (g'.runStep d step).1 = (g.runStep d step).1 ∧
      (∀ e, (g'.runStep d step).1 = .error e → Spared g request (g'.runStep d step).2) ∧
      ∀ d', (g'.runStep d step).1 = .ok d' → step ≠ .quota →
        Checked left request d' g (g'.runStep d step).2 := by
  by_cases hstep : step = .quota
  · subst hstep
    obtain ⟨hanswer, hspared⟩ := h.reserveQuota hg
    exact ⟨hanswer, hspared, fun _ _ hne => absurd rfl hne⟩
  · obtain ⟨hanswer, hspared, hchecked⟩ := h.runCheck hstep hleft
    exact ⟨hanswer, fun _ _ => hspared, fun d' hd _ => hchecked d' hd⟩

end Gateway

end Tollgate
