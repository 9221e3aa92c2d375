import Tollgate.Proofs.Admission.Copies
import Tollgate.Proofs.Admission.Failover

/-!
# What an admission vouches for

A token without limit aside, who is admitted had quota left on its token when
the directory read it: just then, or within the life of a copy before
(`admitted_vouched`). Since then requests whose balance is trusted may have
overdrawn it (`overdrawn_admitted`); any other is admitted only where the
token covers what is set aside.
-/

namespace Tollgate

-- ---------------------------------------------------------------------------
-- A gateway at work
-- ---------------------------------------------------------------------------

/-- A gateway with the requests that it has admitted and that have not come to their end. -/
structure Hall where
  gateway : Gateway
  admissions : List Admission := []

/-- Admissions are named by their place in the list. `settle` performs what is in flight, and the
wall clock shows what it will once time has passed. -/
inductive HallOp where
  | accept (request : AdmissionRequest)
  | report (admission : Nat) (failure : ProviderFailure)
  | complete (admission : Nat) (usage : Usage)
  | abort (admission : Nat)
  | abandon (admission : Nat)
  | settle
  | advance (span : Duration) (unixNow : Int)

namespace Hall

def store (h : Hall) : Store := h.gateway.store

def now (h : Hall) : Time := h.gateway.now

def ttl (h : Hall) : Duration := h.gateway.books.directory.ttl

def report (h : Hall) (n : Nat) (f : ProviderFailure) : Hall :=
  match h.admissions[n]? with
  | none => h
  | some a =>
    let (_, a, gateway) := h.gateway.reportFailure a f
    ⟨gateway, h.admissions.set n a⟩

def finish (h : Hall) (n : Nat) (f : Gateway → Admission → Gateway) : Hall :=
  match h.admissions[n]? with
  | none => h
  | some a => ⟨f h.gateway a, h.admissions.eraseIdx n⟩

def step (h : Hall) : HallOp → Hall
  | .accept request =>
    let (answer, gateway) := h.gateway.accept request
    ⟨gateway, h.admissions ++ answer.toOption.toList⟩
  | .report n failure => h.report n failure
  | .complete n usage => h.finish n fun g a => (g.complete a usage).2
  | .abort n => h.finish n fun g a => (g.abort a).2
  | .abandon n => h.finish n Gateway.abandon
  | .settle => { h with gateway := h.gateway.settle }
  | .advance span unixNow => { h with gateway := { h.gateway.advance span with unixNow } }

def run (h : Hall) (ops : List HallOp) : Hall := ops.foldl step h

variable {start : Hall} {ops : List HallOp} {key : String} {t : Token}

theorem run_concat (start : Hall) (ops : List HallOp) (op : HallOp) :
    start.run (ops ++ [op]) = (start.run ops).step op := List.foldl_concat ..

theorem copies_finish (h : Hall) (n : Nat) {f : Gateway → Admission → Gateway}
    (hf : ∀ g a, (f g a).books = g.books) : h.gateway.Copies (h.finish n f).gateway := by
  unfold finish
  split
  · exact .refl h.gateway
  · next a _ =>
    refine (Gateway.Copies.refl h.gateway).steady ?_
    rw [hf]
    exact .refl h.gateway.books

theorem copies_step (h : Hall) (op : HallOp) : h.gateway.Copies (h.step op).gateway := by
  have hrefl := Gateway.Copies.refl h.gateway
  cases op with
  | accept request =>
    have haccept := h.gateway.copies_accept request
    rw [step]
    generalize h.gateway.accept request = p at haccept ⊢
    exact haccept
  | report n failure =>
    show Gateway.Copies h.gateway (h.report n failure).gateway
    unfold report
    split
    · exact hrefl
    · next a _ => exact hrefl.steady (h.gateway.steady_reportFailure a failure)
  | complete n usage => exact h.copies_finish n fun g a => g.books_resolve _
  | abort n => exact h.copies_finish n fun g a => g.books_resolve _
  | abandon n => exact h.copies_finish n fun g a => rfl
  | settle => exact hrefl.steady h.gateway.steady_settle
  | advance span unixNow => exact hrefl.steady (h.gateway.steady_advance span)

-- ---------------------------------------------------------------------------
-- Where copies come from
-- ---------------------------------------------------------------------------

structure Opening (h : Hall) : Prop where
  cold : ∀ key, Cache.copyAt h.gateway.books.cache key = none
  tokenIds : (h.store.tokens.rows.map (·.id)).Nodup

/-- What the directory tells of a token is what the store told after `before`: nothing has happened
since, or it is the copy that was made then and has not expired. -/
structure Vouches (start : Hall) (before after : List HallOp) (key : String) (t : Token) :
    Prop where
  stored : (start.run before).store.tokenByKey? key = .ok (some t)
  recent : after = [] ∨
    Cache.copyAt (start.run (before ++ after)).gateway.books.cache key =
        some ⟨Codec.token.encode t, (start.run before).now + start.ttl⟩ ∧
      (start.run (before ++ after)).now < (start.run before).now + start.ttl

/-- What a run has left of the tokens: their terms, and copies that were true when made. -/
structure Traced (start : Hall) (ops : List HallOp) : Prop where
  ttl : (start.run ops).ttl = start.ttl
  terms : (start.run ops).store.terms = start.store.terms
  copies : ∀ key e, Cache.copyAt (start.run ops).gateway.books.cache key = some e →
    ∃ before after t, ops = before ++ after ∧
      (start.run before).store.tokenByKey? key = .ok (some t) ∧
      e = ⟨Codec.token.encode t, (start.run before).now + start.ttl⟩

theorem traced_run (h : start.Opening) (ops : List HallOp) : start.Traced ops := by
  induction ops using List.reverseRecOn with
  | nil => exact ⟨rfl, rfl, fun key e he => by cases (h.cold key).symm.trans he⟩
  | append_singleton ops op ih =>
    have hstep := (start.run ops).copies_step op
    rw [← run_concat] at hstep
    refine ⟨hstep.ttl.trans ih.ttl, hstep.terms.trans ih.terms, fun key e he => ?_⟩
    rcases hstep.copies key e he with hkept | ⟨t, ht, rfl⟩
    · obtain ⟨before, after, t, rfl, ht, rfl⟩ := ih.copies key e hkept
      exact ⟨before, after ++ [op], t, List.append_assoc .., ht, rfl⟩
    · refine ⟨ops, [op], t, rfl, ht, ?_⟩
      rw [← ih.ttl]
      rfl

theorem Traced.told (h : start.Traced ops)
    (htold : ((start.run ops).gateway.books.directory.tokenByKey (start.run ops).now key).1 =
      .ok (some t)) :
    ∃ before after, ops = before ++ after ∧ start.Vouches before after key t := by
  rw [Directory.tokenByKey, Directory.lookup] at htold
  dsimp only at htold
  rw [Cache.fetch_fst] at htold
  cases hhit : Cache.hit? .token (start.run ops).gateway.books.directory.cache (start.run ops).now
      (AccountKey.token key).text with
  | none =>
    rw [hhit] at htold
    exact ⟨ops, [], (List.append_nil ops).symm, mapError_eq_ok.mp htold, .inl rfl⟩
  | some found =>
    rw [hhit] at htold
    cases htold
    obtain ⟨c, e, hcache, -, he, hlive, hdecode⟩ := Cache.hit?_eq_some.mp hhit
    obtain ⟨before, after, copied, rfl, hstored, rfl⟩ := h.copies key e he
    obtain rfl := Codec.faithful_token copied t hdecode
    exact ⟨before, after, rfl, hstored, .inr ⟨he, hlive⟩⟩

/-- Who is admitted is judged by a token as the store told of it at once or less than the life of a
copy ago. A token that is limited had quota left on it at that moment; and unless the balance is
trusted, what is set aside is covered by what the token has left now. -/
theorem admitted_vouched (h : start.Opening) (ops : List HallOp) {request : AdmissionRequest}
    {a : Admission} (haccept : ((start.run ops).gateway.accept request).1 = .ok a) :
    ∃ row t before after,
      (start.run ops).store.tokenRowByKey? (Text.trim request.tokenKey) = some row ∧
      row.id = a.tokenId ∧
      ((start.run ops).gateway.books.directory.tokenByKey (start.run ops).now
        (Text.trim request.tokenKey)).1 = .ok (some t) ∧
      ops = before ++ after ∧ start.Vouches before after (Text.trim request.tokenKey) t ∧
      (start.run before).store.value? .tokenQuota a.tokenId = some t.remainQuota ∧
      (row.unlimited = false → 0 < t.remainQuota ∧
        ((start.run ops).gateway.ledger.trusts a.reservation.balanceBefore
            a.reservation.estimated = false →
          row.remainQuota.covers a.reservation.estimated = true)) := by
  have hids (ops : List HallOp) : ((start.run ops).store.tokens.rows.map (·.id)).Nodup :=
    Store.ids_of_terms (traced_run h ops).terms ▸ h.tokenIds
  obtain ⟨t, htold, hverified, hid, hcovered⟩ := Gateway.admits_accept haccept
  obtain ⟨before, after, hops, hvouches⟩ := (traced_run h ops).told htold
  obtain ⟨r, hr, hrid, hlimit, hremain⟩ := Store.tokenByKey?_eq_ok hvouches.stored
  obtain ⟨row, hrow, hterms⟩ := Store.tokenRowByKey?_of_terms
    ((traced_run h ops).terms.trans (traced_run h before).terms.symm) hr
  have hrowId : row.id = t.id := (congrArg TokenRow.id hterms).trans hrid
  have hrowLimit : row.unlimited = t.unlimited := (congrArg TokenRow.unlimited hterms).trans hlimit
  have hcell := Store.cell?_of_row (hids before) hr
  rw [hrid, ← hid, hremain] at hcell
  refine ⟨row, t, before, after, hrow, hrowId.trans hid.symm, htold, hops, hvouches,
    Store.value?_eq_some.mpr hcell, fun hlimited => ⟨?_, fun htrust => ?_⟩⟩
  · exact Token.remains_of_verify hverified (hrowLimit.symm.trans hlimited)
  · obtain ⟨row', hmem', hid', hcovers⟩ := hcovered (hrowLimit.symm.trans hlimited) htrust
    have hmem : row ∈ (start.run ops).store.tokens.rows := List.mem_of_find?_eq_some hrow
    obtain rfl := List.inj_on_of_nodup_map (hids ops) hmem' hmem (hid'.trans hrowId.symm)
    exact hcovers

-- ---------------------------------------------------------------------------
-- A token that is overdrawn
-- ---------------------------------------------------------------------------

def trustedHall : Hall where
  gateway := { Trail.reliefGateway with
    ledger := { Desk.soleDesk.gateway.ledger with
      rules := { trustMultiple := 10 }, batched := false }
    books.directory := {
      store := {
        users.rows := [{ Desk.soleUser with quota := .int 1000000 }]
        tokens.rows := [{ Desk.soleToken with remainQuota := .int 15 }] }
      cache := some {}
      ttl := Duration.ofSecs 60 } }

def overdraw : List HallOp := [.accept Trail.reliefRequest, .complete 0 ⟨10, 5⟩, .settle]

theorem opening_trustedHall : trustedHall.Opening where
  cold := fun _ => rfl
  tokenIds := List.pairwise_singleton _ 1

/-- The next request is judged by a copy from before and admitted by a token below zero. -/
theorem overdrawn_admitted :
    trustedHall.Opening ∧ trustedHall.gateway.ledger.batched = false ∧
    ((trustedHall.run overdraw).store.tokenRowByKey? "k").map (fun r => (r.id, r.unlimited)) =
      some (1, false) ∧
    (trustedHall.run overdraw).store.value? .tokenQuota 1 = some (-5) ∧
    ((trustedHall.run overdraw).gateway.accept Trail.reliefRequest).1.toOption.map (·.tokenId) =
      some 1 :=
  ⟨opening_trustedHall, rfl, by decide +kernel, by decide +kernel, by decide +kernel⟩

theorem admitted_vouched_overdrawn :
    trustedHall.Opening ∧
      ∃ a, ((trustedHall.run overdraw).gateway.accept Trail.reliefRequest).1 = .ok a ∧
        ∃ t before after, overdraw = before ++ after ∧ trustedHall.Vouches before after "k" t ∧
          (trustedHall.run before).store.value? .tokenQuota a.tokenId = some t.remainQuota ∧
          0 < t.remainQuota := by
  have hok {answer : Except AdmissionError Admission} (h : answer.toOption.isSome = true) :
      ∃ a, answer = .ok a := by
    cases answer with
    | error e => cases h
    | ok a => exact ⟨a, rfl⟩
  obtain ⟨a, ha⟩ := hok (by decide +kernel :
    ((trustedHall.run overdraw).gateway.accept Trail.reliefRequest).1.toOption.isSome = true)
  obtain ⟨row, t, before, after, hrow, -, -, hops, hvouches, hvalue, hlimit⟩ :=
    admitted_vouched opening_trustedHall overdraw ha
  have hlimited : ((trustedHall.run overdraw).store.tokenRowByKey?
      (Text.trim Trail.reliefRequest.tokenKey)).map (·.unlimited) = some false := by decide +kernel
  have hkey : Text.trim Trail.reliefRequest.tokenKey = "k" := by decide +kernel
  rw [hrow] at hlimited
  rw [hkey] at hvouches
  exact ⟨opening_trustedHall, a, ha, t, before, after, hops, hvouches, hvalue,
    (hlimit (Option.some.inj hlimited)).1⟩

end Hall

end Tollgate
