import Tollgate.Admission
import Tollgate.Proofs.Routing.Selection
import Tollgate.Proofs.Store.Listing

/-!
# What an acceptance gives

Each step of an admission adds what it is for to the draft and leaves the rest
of it alone, and none of them touches the chooser. An admitted request begins
on a channel of the table, with nothing tried and with a reservation that is
billed to this channel (`opened_accept`).
-/

namespace Tollgate

namespace Chooser

variable {c : Chooser} {now : Time} {group model : String} {filters : List ChannelFilter}
  {r r' : RandomSource} {channel : Channel}

def channels (c : Chooser) : List Channel := c.table.channels.entries.map Prod.snd

/-- Whatever the weights, a selected channel is one of the table that every filter accepts. -/
theorem mem_of_select (h : c.select now group model filters r = (.ok channel, r')) :
    channel ∈ c.channels ∧ ∀ accept ∈ filters, accept channel = true := by
  obtain ⟨⟨id, hid⟩, heligible⟩ := eligible_of_select h
  exact ⟨List.mem_map.mpr ⟨_, (Dict.get?_eq_some_iff _ _ _).mp hid, rfl⟩, heligible.accepted⟩

end Chooser

structure Reservation.For (res : Reservation) (r : ChargeRequest) : Prop where
  state : res.state = .reserved
  requestId : res.hold.requestId = r.requestId
  userId : res.hold.userId = r.userId
  tokenId : res.hold.tokenId = r.tokenId
  channelId : res.hold.channelId = r.channelId
  model : res.hold.model = r.model

theorem Ledger.for_reserve {l : Ledger} {b b' : Books}
    (h : l.reserve b now r = (.ok res, b')) : res.For r := by
  unfold Ledger.reserve at h
  split at h
  · cases h
  extract_lets estimated at h
  split at h
  · cases h
  · cases h
  split at h
  · cases h
  extract_lets tokenReserved tokenPaid at h
  cases htoken : tokenPaid with
  | error e =>
    rw [htoken] at h
    cases h
  | ok b₁ =>
    rw [htoken] at h
    dsimp only at h
    split at h
    · cases h
    · cases h
      exact ⟨rfl, rfl, rfl, rfl, rfl, rfl⟩

-- ---------------------------------------------------------------------------
-- Drafts
-- ---------------------------------------------------------------------------

namespace Draft

variable {d : Draft} {t : Token} {name : String} {ch : Channel} {res : Reservation}

@[simp] theorem requireToken_ok : d.requireToken = .ok t ↔ d.token = some t := elim_eq_ok

@[simp] theorem requireGroup_ok : d.requireGroup = .ok name ↔ d.group = some name := elim_eq_ok

@[simp] theorem requireChannel_ok : d.requireChannel = .ok ch ↔ d.channel = some ch := elim_eq_ok

@[simp] theorem requireReservation_ok :
    d.requireReservation = .ok res ↔ d.reservation = some res := elim_eq_ok

structure Becomes (d : Draft) (a : Admission) : Prop where
  channel : d.channel = some a.channel
  reservation : d.reservation = some a.reservation
  tried : a.tried = d.tried
  attempts : a.attempts = 1

theorem toAdmission_ok (h : d.toAdmission = .ok a) : d.Becomes a := by
  simp only [toAdmission, bind_eq_ok, pure_eq_ok, requireToken_ok, requireGroup_ok,
    requireChannel_ok, requireReservation_ok] at h
  obtain ⟨token, -, group, -, channel, hchannel, reservation, hreservation, rfl⟩ := h
  exact ⟨hchannel, hreservation, rfl, rfl⟩

theorem chargeRequest_ok (h : Gateway.chargeRequest d = .ok r) :
    ∃ ch, d.channel = some ch ∧ r.channelId = ch.id := by
  simp only [Gateway.chargeRequest, bind_eq_ok, pure_eq_ok, requireToken_ok,
    requireGroup_ok, requireChannel_ok] at h
  obtain ⟨token, -, group, -, channel, hchannel, rfl⟩ := h
  exact ⟨channel, hchannel, rfl⟩

end Draft

namespace Gateway

variable {g g' : Gateway} {d d' : Draft} {a : Admission}

-- ---------------------------------------------------------------------------
-- The steps
-- ---------------------------------------------------------------------------

theorem chooser_findToken (g : Gateway) (key : String) :
    (g.findToken key).2.chooser = g.chooser := by
  unfold findToken
  split
  split <;> rfl

theorem chooser_checkUser (g : Gateway) (userId : Int) :
    (g.checkUser userId).2.chooser = g.chooser := by
  unfold checkUser
  split
  split <;> rfl

theorem chooser_findGroup (g : Gateway) (userId : Int) :
    (g.findGroup userId).2.chooser = g.chooser := by
  unfold findGroup
  split
  split <;> rfl

theorem authenticate_ok (h : g.authenticate d = (.ok d', g')) :
    (∃ token group, d' = { d with token := some token, group := some group }) ∧
      g'.chooser = g.chooser := by
  unfold authenticate at h
  extract_lets key at h
  split at h
  · cases h
  have hkey := chooser_findToken g key
  split at h
  · cases h
  next token g₁ heq =>
  rw [heq] at hkey
  have huser := chooser_checkUser g₁ token.userId
  split at h
  · cases h
  next g₂ heq =>
  rw [heq] at huser
  have hgroup := chooser_findGroup g₂ token.userId
  split at h
  · cases h
  next group g₃ heq =>
  rw [heq] at hgroup
  cases h
  exact ⟨⟨token, group, rfl⟩, hgroup.trans (huser.trans hkey)⟩

theorem limitRate_ok (h : g.limitRate d = (.ok d', g')) :
    d' = d ∧ g'.chooser = g.chooser := by
  unfold limitRate at h
  split at h
  · cases h
  · cases h
  · split at h
    · cases h
      exact ⟨rfl, rfl⟩
    · cases h

theorem nextChannel_ok (h : g.nextChannel group model tried = (.ok channel, g')) :
    channel ∈ g.chooser.channels ∧ channel.id ∉ tried ∧ g'.chooser = g.chooser := by
  unfold nextChannel at h
  rcases hselect : g.chooser.select g.now group model [Chooser.excluding tried] g.random with
    ⟨_ | found, random⟩
  · rw [hselect] at h
    cases h
  · rw [hselect] at h
    cases h
    obtain ⟨hmem, haccept⟩ := Chooser.mem_of_select hselect
    refine ⟨hmem, ?_, rfl⟩
    simpa [Chooser.excluding] using haccept _ (List.mem_singleton_self _)

theorem route_ok (h : g.route d = (.ok d', g')) :
    (∃ channel ∈ g.chooser.channels, d' = { d with channel := some channel }) ∧
      g'.chooser = g.chooser := by
  unfold route at h
  split at h
  · cases h
  · split at h
    · cases h
    · next channel g₁ hnext =>
      cases h
      obtain ⟨hmem, -, hchooser⟩ := nextChannel_ok hnext
      exact ⟨⟨channel, hmem, rfl⟩, hchooser⟩

theorem reserveQuota_ok (h : g.reserveQuota d = (.ok d', g')) :
    ∃ reservation channel, d' = { d with reservation := some reservation } ∧
      d.channel = some channel ∧ reservation.state = .reserved ∧
      reservation.hold.channelId = channel.id := by
  unfold reserveQuota at h
  split at h
  · cases h
  next request hrequest =>
  split at h
  · cases h
  next reservation books hreserve =>
  cases h
  have hfor := Ledger.for_reserve hreserve
  obtain ⟨channel, hchannel, hid⟩ := Draft.chargeRequest_ok hrequest
  exact ⟨reservation, channel, rfl, hchannel, hfor.state, hfor.channelId.trans hid⟩

-- ---------------------------------------------------------------------------
-- The whole admission
-- ---------------------------------------------------------------------------

/-- A draft before its reservation: nothing tried, and a channel of the chooser if it has any. -/
structure Begun (c : Chooser) (d : Draft) : Prop where
  tried : d.tried = []
  channel : ∀ channel, d.channel = some channel → channel ∈ c.channels

theorem begun_runStep (hd : Begun g.chooser d) (hstep : step ≠ .quota)
    (h : g.runStep d step = (.ok d', g')) : Begun g'.chooser d' ∧ g'.chooser = g.chooser := by
  cases step with
  | auth =>
    rw [runStep] at h
    obtain ⟨⟨token, group, rfl⟩, hchooser⟩ := authenticate_ok h
    exact ⟨⟨hd.tried, hchooser ▸ hd.channel⟩, hchooser⟩
  | rateLimit =>
    rw [runStep] at h
    obtain ⟨rfl, hchooser⟩ := limitRate_ok h
    exact ⟨hchooser ▸ hd, hchooser⟩
  | routing =>
    rw [runStep] at h
    obtain ⟨⟨channel, hmem, rfl⟩, hchooser⟩ := route_ok h
    refine ⟨⟨hd.tried, ?_⟩, hchooser⟩
    rintro _ ⟨⟩
    exact hchooser ▸ hmem
  | quota => exact absurd rfl hstep

theorem runSteps_append : g.runSteps d (before ++ [last]) = (none, d', g') ↔
    ∃ d₁ g₁, g.runSteps d before = (none, d₁, g₁) ∧ g₁.runStep d₁ last = (.ok d', g') := by
  induction before generalizing g d with
  | nil =>
    constructor
    · intro h
      rw [List.nil_append, runSteps] at h
      split at h
      · cases h
      · next hstep =>
        cases h
        exact ⟨d, g, rfl, hstep⟩
    · rintro ⟨d₁, g₁, ⟨⟩, hstep⟩
      rw [List.nil_append, runSteps, hstep]
      rfl
  | cons step before ih =>
    rw [List.cons_append, runSteps, runSteps]
    rcases g.runStep d step with ⟨_ | d₁, g₁⟩
    · simp
    · exact ih

theorem begun_runSteps (hd : Begun g.chooser d) (hsteps : AdmissionStep.quota ∉ steps)
    (h : g.runSteps d steps = (none, d', g')) :
    Begun g'.chooser d' ∧ g'.chooser = g.chooser := by
  induction steps generalizing g d with
  | nil =>
    cases h
    exact ⟨hd, rfl⟩
  | cons step steps ih =>
    rw [List.mem_cons, not_or] at hsteps
    rw [runSteps] at h
    split at h
    · cases h
    · next d₁ g₁ hstep =>
      obtain ⟨hd₁, hchooser⟩ := begun_runStep hd (Ne.symm hsteps.1) hstep
      obtain ⟨hd', hchooser'⟩ := ih hd₁ hsteps.2 h
      exact ⟨hd', hchooser'.trans hchooser⟩

theorem enabled_eq (config : Config) :
    ∃ before, AdmissionStep.enabled config = before ++ [.quota] ∧ .quota ∉ before := by
  refine ⟨if config.rateLimit.enabled then [.auth, .rateLimit, .routing] else [.auth, .routing],
    ?_, ?_⟩ <;>
    cases h : config.rateLimit.enabled <;>
    simp [AdmissionStep.enabled, AdmissionStep.all, AdmissionStep.isEnabled, h]

structure Opened (c : Chooser) (a : Admission) : Prop where
  channel : a.channel ∈ c.channels
  tried : a.tried = []
  attempts : a.attempts = 1
  state : a.reservation.state = .reserved
  billed : a.reservation.hold.channelId = a.channel.id

theorem opened_accept (h : (g.accept request).1 = .ok a) : Opened g.chooser a := by
  unfold accept at h
  split at h
  · cases h
  next d g₁ hrun =>
  obtain ⟨before, hsteps, hquota⟩ := enabled_eq g.config
  rw [hsteps] at hrun
  obtain ⟨d₁, g₂, hbefore, hlast⟩ := runSteps_append.mp hrun
  obtain ⟨hbegun, hchooser⟩ := begun_runSteps ⟨rfl, by rintro _ ⟨⟩⟩ hquota hbefore
  rw [runStep] at hlast
  obtain ⟨reservation, channel, rfl, hchannel, hstate, hbilled⟩ := reserveQuota_ok hlast
  unfold acceptDraft at h
  split at h
  · next a' hadmission =>
    cases h
    obtain ⟨hchannel', hreservation, htried, hattempts⟩ := Draft.toAdmission_ok hadmission
    obtain rfl := Option.some.inj hreservation
    obtain rfl := Option.some.inj (hchannel.symm.trans hchannel')
    exact ⟨hchooser ▸ hbegun.channel _ hchannel, htried.trans hbegun.tried, hattempts, hstate,
      hbilled⟩
  · cases h

end Gateway

end Tollgate
