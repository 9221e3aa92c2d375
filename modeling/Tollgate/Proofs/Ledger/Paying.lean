import Tollgate.Proofs.Ledger.Mirror
import Tollgate.Proofs.Store.Moves

/-!
# What a reservation pays

A reservation prices the request, looks the balance up and, where the balance
covers the estimate, pays it (`reserve_eq`). What is said about paying, by
token and user, carries over to the reservation.
-/

namespace Tollgate

namespace Ledger

theorem reserveToken_ok (hs : b.store.Sound) (h : reserveToken b r amount = .ok b') :
    ∃ s, b' = b.withStore s ∧ s.Sound ∧
      (∀ u, s.value? .userQuota u = b.store.value? .userQuota u) ∧
      (b.store.Takes .tokenQuota r.tokenId (-amount) →
        s = b.store.post .tokenQuota r.tokenId (-amount)) := by
  rw [reserveToken] at h
  split at h
  · rw [hs.post?_eq] at h
    cases h
    exact ⟨_, rfl, hs.post .., fun u => Store.value?_post _ _ _ _ _ (by simp), fun _ => rfl⟩
  · obtain ⟨granted, s, hdraw, hdrawn, hs'⟩ := Store.drawToken?_spec hs r.tokenId amount
    rw [hdraw] at h
    cases granted with
    | false => cases h
    | true =>
      cases h
      exact ⟨s, rfl, hs', fun u => hdrawn.value?_of_ne (by simp),
        fun htakes => Store.drawToken?_eq_post hs htakes hdraw⟩

theorem reserveUser_answer {l : Ledger} (h : ∀ c, b.cache = some c → CacheVerb.draw ∈ c.refused) :
    (l.reserveUser b now u amount).1 = (reserveStored b u amount).map fun _ => () := by
  unfold reserveUser
  extract_lets stored key
  have hstored : (stored b).1 = (reserveStored b u amount).map fun _ => () := by
    simp only [stored]
    cases reserveStored b u amount <;> rfl
  cases hc : b.cache with
  | none => exact hstored
  | some c =>
    have hdraw : ∃ f, c.draw now key amount = .error f := by
      rw [Cache.draw, Cache.serve, if_pos (h c hc)]
      exact ⟨_, rfl⟩
    obtain ⟨f, hdraw⟩ := hdraw
    simp only [hdraw]
    exact hstored

def pay (l : Ledger) (b : Books) (now : Time) (r : ChargeRequest) (trusted : Bool)
    (amount : Int) : Except LedgerError Unit × Books :=
  match if trusted then .ok b else reserveToken b r amount with
  | .error e => (.error e, b)
  | .ok b =>
    match l.reserveUser b now r.userId amount with
    | (.error e, b) => (.error e, restoreToken b r.tokenId (if trusted then 0 else amount))
    | (.ok (), b) => (.ok (), b)

theorem pay_answer (l : Ledger) (b : Books) (now : Time) (r : ChargeRequest) (trusted : Bool)
    (amount : Int) :
    (l.pay b now r trusted amount).1 =
      (if trusted then .ok b else reserveToken b r amount).bind fun b =>
        (l.reserveUser b now r.userId amount).1 := by
  unfold pay
  cases if trusted then .ok b else reserveToken b r amount with
  | error e => rfl
  | ok b =>
    dsimp only [Except.bind]
    rcases l.reserveUser b now r.userId amount with ⟨_ | _, b'⟩ <;> rfl

/-- Once the balance is known to cover the estimate, a reservation is a matter of paying it. -/
theorem reserve_eq (l : Ledger) (b : Books) (now : Time) (r : ChargeRequest) :
    l.reserve b now r =
      match l.quote r.group r.model with
      | .error e => (.error e, b)
      | .ok quote =>
        let estimated : Int := quote.estimate r.promptTokens l.rules.preConsumeBuffer
        match b.userQuota now r.userId with
        | (.error f, b) => (.error (.store f.message), b)
        | (.ok none, b) => (.error (.userNotFound r.userId), b)
        | (.ok (some balance), b) =>
          if balance < estimated then (.error (.insufficient estimated balance), b)
          else
            let trusted := l.trusts balance estimated
            let paid := l.pay b now r trusted estimated
            (paid.1.map fun _ => {
              hold := {
                requestId := r.requestId, userId := r.userId, tokenId := r.tokenId
                channelId := r.channelId, model := r.model, quote
                userReserved := estimated, tokenReserved := if trusted then 0 else estimated }
              group := r.group, estimated, balanceBefore := balance, state := .reserved },
              paid.2) := by
  unfold reserve
  cases l.quote r.group r.model with
  | error e => rfl
  | ok quote =>
    dsimp only
    rcases b.userQuota now r.userId with ⟨f | found, b₁⟩
    · rfl
    cases found with
    | none => rfl
    | some balance =>
      dsimp only
      split
      · rfl
      · rw [pay]
        generalize (if l.trusts balance (quote.estimate r.promptTokens l.rules.preConsumeBuffer)
          then Except.ok b₁ else reserveToken b₁ r _) = tokenPaid
        cases tokenPaid with
        | error e => rfl
        | ok b₂ =>
          dsimp only
          rcases l.reserveUser b₂ now r.userId
            (quote.estimate r.promptTokens l.rules.preConsumeBuffer) with ⟨e | _, b₃⟩
          · rfl
          · rfl

end Ledger

end Tollgate
