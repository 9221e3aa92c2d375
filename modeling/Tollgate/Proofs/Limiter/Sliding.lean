import Tollgate.Proofs.Limiter.Serving

/-!
# Sliding windows are exact

A sliding meter forgets grants that have left the window, yet it decides as
if it had kept them all: the limiter tracks the whole history of a key's
grants (`Tracks`), and each decision is the one that this history calls for
(`sliding_exact`).
-/

namespace Tollgate

namespace Meter

def kept : Option Meter → List (Time × Nat)
  | some (.sliding grants) => grants
  | _ => []

/-- The units granted later than `window` before `now`. -/
def unitsWithin (history : List (Time × Nat)) (window : Duration) (now : Time) : Nat :=
  units (history.filter fun g => now < g.1 + window)

theorem units_append (a b : List (Time × Nat)) : units (a ++ b) = units a + units b := by
  induction a with
  | nil => simp [units]
  | cons g rest ih =>
    simp only [units, List.cons_append, List.foldr_cons] at ih ⊢
    omega

theorem units_sublist {a b : List (Time × Nat)} (h : a.Sublist b) : units a ≤ units b := by
  induction h with
  | slnil => exact Nat.le_refl 0
  | cons g _ ih => exact Nat.le_trans ih (Nat.le_add_left _ _)
  | cons_cons g _ ih => exact Nat.add_le_add_left ih _

theorem left_iff {time now window : Nat} (h : time ≤ now) :
    window ≤ now - time ↔ ¬now < time + window := by
  omega

theorem recent_eq_filter {grants : List (Time × Nat)} (hs : grants.Pairwise (·.1 ≤ ·.1))
    (hp : ∀ g ∈ grants, g.1 ≤ now) :
    recent grants window now = grants.filter fun g => now < g.1 + window := by
  induction grants with
  | nil => rfl
  | cons g rest ih =>
    have hg : window ≤ now - g.1 ↔ ¬now < g.1 + window := left_iff (hp g (List.mem_cons_self ..))
    rw [List.pairwise_cons] at hs
    by_cases h : now < g.1 + window
    · -- Nothing has left the window that came after a grant which has not.
      have hrest : ∀ g' ∈ rest, now < g'.1 + window := fun g' hg' =>
        Nat.lt_of_lt_of_le h (Nat.add_le_add_right (hs.1 g' hg') window)
      have hall : ∀ g' ∈ g :: rest, decide (now < g'.1 + window) = true := by
        simpa [h] using hrest
      rw [List.filter_eq_self.mpr hall, recent, List.dropWhile_cons_of_neg]
      simpa [hg] using h
    · rw [List.filter_cons_of_neg (by simpa using h), recent, List.dropWhile_cons_of_pos]
      · exact ih hs.2 fun g' hg' => hp g' (List.mem_cons_of_mem _ hg')
      · simpa [hg] using h

def slidingDecision (limit used n : Nat) : Decision :=
  if used + n ≤ limit then ⟨true, limit - (used + n)⟩ else ⟨false, limit - used⟩

theorem acquireSliding_eq (m : Option Meter) (limit : Nat) (window : Duration) (n : Nat)
    (now : Time) :
    acquireSliding m limit window n now =
      let grants := recent (kept m) window now
      let decision := slidingDecision limit (units grants) n
      (decision, .sliding (if decision.allowed then grants ++ [(now, n)] else grants)) := by
  have hdecide (grants : List (Time × Nat)) :
      (if limit < units grants + n then
        (⟨false, limit - units grants⟩, .sliding grants)
      else (⟨true, limit - units grants - n⟩, .sliding (grants ++ [(now, n)])) :
          Decision × Meter) =
        (slidingDecision limit (units grants) n,
          .sliding (if (slidingDecision limit (units grants) n).allowed then grants ++ [(now, n)]
            else grants)) := by
    rw [slidingDecision]
    by_cases h : units grants + n ≤ limit
    · simp [h, Nat.not_lt.mpr h, Nat.sub_sub]
    · simp [h, Nat.lt_of_not_le h]
  rcases m with _ | ⟨_ | _ | grants⟩ <;> exact hdecide _

end Meter

def Narrow (window : Duration) (p : Time → Bool) : Prop :=
  ∀ a b, p a = true → p b = true → a < b + window

theorem narrow_from (window : Duration) (start : Time) :
    Narrow window fun a => start ≤ a ∧ a < start + window := by
  intro a b ha hb
  have ha := (of_decide_eq_true ha).2
  have hb := (of_decide_eq_true hb).1
  exact Nat.lt_of_lt_of_le ha (Nat.add_le_add_right hb window)

theorem narrow_to (window : Duration) (start : Time) :
    Narrow window fun a => start < a ∧ a ≤ start + window := by
  intro a b ha hb
  have ha := (of_decide_eq_true ha).2
  have hb := (of_decide_eq_true hb).1
  exact Nat.lt_of_le_of_lt ha (Nat.add_lt_add_right hb window)

namespace Limiter

open Meter (kept units unitsWithin slidingDecision)

variable {l l' : Limiter} {k : LimiterKey} {limit : Nat} {window : Duration} {now : Time}
  {history : List (Time × Nat)} {call : LimiterCall}

/-- The limiter holds all grants of a key that will ever count again, and those have never been
more than the limit. -/
structure Tracks (l : Limiter) (k : LimiterKey) (limit : Nat) (window : Duration) (now : Time)
    (history : List (Time × Nat)) : Prop where
  working : l.failing = false
  past : ∀ g ∈ history, g.1 ≤ now
  sorted : history.Pairwise (·.1 ≤ ·.1)
  held : (kept (l.meter? k)).Sublist history
  counts : ∀ t, now ≤ t → (kept (l.meter? k)).filter (fun g => t < g.1 + window) =
    history.filter fun g => t < g.1 + window
  capped : ∀ p, Narrow window p → units (history.filter fun g => p g.1) ≤ limit

theorem Tracks.ofUnseen (hf : l.failing = false) (hk : l.slots.get? k = none) (limit : Nat)
    (window : Duration) (now : Time) : l.Tracks k limit window now [] where
  working := hf
  past := nofun
  sorted := .nil
  held := by rw [meter?, hk]; exact .slnil
  counts := fun _ _ => by rw [meter?, hk]; rfl
  capped := fun _ _ => Nat.zero_le _

theorem Tracks.later (h : l.Tracks k limit window now history) (ht : now ≤ t) :
    l.Tracks k limit window t history where
  working := h.working
  past := fun g hg => Nat.le_trans (h.past g hg) ht
  sorted := h.sorted
  held := h.held
  counts := fun u hu => h.counts u (Nat.le_trans ht hu)
  capped := h.capped

theorem Tracks.serve_other (h : l.Tracks k limit window now history) (hk : k ≠ call.key) :
    (l.serve call).2.Tracks k limit window now history := by
  have hm : (l.serve call).2.meter? k = l.meter? k := by
    rw [meter?, get?_serve_of_ne h.working hk, meter?]
  exact {
    working := failing_serve h.working
    past := h.past
    sorted := h.sorted
    held := hm ▸ h.held
    counts := hm ▸ h.counts
    capped := h.capped }

theorem Tracks.recent (h : l.Tracks k limit window now history) (ht : now ≤ t) :
    Meter.recent (kept (l.meter? k)) window t = history.filter fun g => t < g.1 + window := by
  rw [Meter.recent_eq_filter (h.sorted.sublist h.held), h.counts t ht]
  exact fun g hg => Nat.le_trans (h.past g (h.held.subset hg)) ht

/-- A grant that fits its window keeps every narrow set of times below the limit. -/
theorem Tracks.capped_append (h : l.Tracks k limit window now history)
    (hn : unitsWithin history window t + n ≤ limit) (hp : Narrow window p) :
    units ((history ++ [(t, n)]).filter fun g => p g.1) ≤ limit := by
  by_cases hpt : p t
  · -- Every grant that is near `t` still counts at `t`.
    have hnear : history.filter (fun g => p g.1) =
        (history.filter fun g => t < g.1 + window).filter fun g => p g.1 := by
      rw [List.filter_filter]
      refine List.filter_congr fun g _ => ?_
      cases hg : p g.1 with
      | false => rfl
      | true => exact (decide_eq_true (hp t g.1 hpt hg)).symm
    have hle : units (history.filter fun g => p g.1) ≤ unitsWithin history window t :=
      Meter.units_sublist (hnear ▸ List.filter_sublist)
    rw [List.filter_append, Meter.units_append]
    simp [hpt, units] at hle ⊢
    omega
  · simpa [List.filter_append, hpt] using h.capped p hp

theorem Tracks.serve_own (h : l.Tracks call.key limit window now history)
    (hs : call.strategy = .slidingWindow limit window) (ht : now ≤ call.time) :
    let decision := slidingDecision limit (unitsWithin history window call.time) call.units
    (l.serve call).1 = .ok decision ∧
      (l.serve call).2.Tracks call.key limit window call.time
        (history ++ if decision.allowed then [(call.time, call.units)] else []) := by
  intro decision
  obtain ⟨hanswer, hmeter⟩ := serve_sliding h.working hs
  rw [Meter.acquireSliding_eq, h.recent ht] at hanswer hmeter
  refine ⟨hanswer, ?_⟩
  have hkept : kept ((l.serve call).2.meter? call.key) =
      (history.filter fun g => call.time < g.1 + window) ++
        if decision.allowed then [(call.time, call.units)] else [] := by
    rw [hmeter]
    show (if decision.allowed then _ else _) = _
    split
    · rfl
    · exact (List.append_nil _).symm
  have hnew : ∀ g ∈ (if decision.allowed then [(call.time, call.units)] else []),
      g.1 = call.time := by
    split
    · intro g hg; rw [List.mem_singleton.mp hg]
    · exact nofun
  have hpast : ∀ g ∈ history, g.1 ≤ call.time := fun g hg => Nat.le_trans (h.past g hg) ht
  exact {
    working := failing_serve h.working
    past := fun g hg => by
      rcases List.mem_append.mp hg with hg | hg
      · exact hpast g hg
      · exact Nat.le_of_eq (hnew g hg)
    sorted := by
      refine List.pairwise_append.mpr ⟨h.sorted, ?_, fun a ha b hb => hnew b hb ▸ hpast a ha⟩
      split
      · exact List.pairwise_singleton _ _
      · exact .nil
    held := hkept ▸ List.filter_sublist.append_right _
    counts := fun t htt => by
      rw [hkept, List.filter_append, List.filter_append, List.filter_filter]
      refine congrArg (· ++ _) (List.filter_congr fun g _ => ?_)
      -- What counts later counts now.
      cases hg : decide (t < g.1 + window) with
      | false => rfl
      | true => exact decide_eq_true (Nat.lt_of_le_of_lt htt (of_decide_eq_true hg))
    capped := fun p hp => by
      by_cases hfits : unitsWithin history window call.time + call.units ≤ limit
      · simpa [decision, slidingDecision, hfits] using h.capped_append hfits hp
      · simpa [decision, slidingDecision, hfits] using h.capped p hp }

-- ---------------------------------------------------------------------------
-- Runs
-- ---------------------------------------------------------------------------

structure Orderly (k : LimiterKey) (limit : Nat) (window : Duration) (now : Time)
    (calls : List LimiterCall) : Prop where
  started : ∀ call ∈ calls, now ≤ call.time
  ordered : calls.Pairwise (·.time ≤ ·.time)
  strategy : ∀ call ∈ calls, call.key = k → call.strategy = .slidingWindow limit window

variable {calls before : List LimiterCall} {past rest : Transcript}

theorem Orderly.next (h : Orderly k limit window now (call :: calls)) :
    now ≤ call.time ∧ (call.key = k → call.strategy = .slidingWindow limit window) ∧
      Orderly k limit window call.time calls :=
  ⟨h.started _ (List.mem_cons_self ..), h.strategy _ (List.mem_cons_self ..),
    (List.pairwise_cons.mp h.ordered).1, (List.pairwise_cons.mp h.ordered).2,
    fun c hc => h.strategy c (List.mem_cons_of_mem _ hc)⟩

theorem Tracks.after (h : l.Tracks k limit window now history)
    (ho : Orderly k limit window now calls) (hn : now ≤ t) (ht : ∀ call ∈ calls, call.time ≤ t) :
    (l.after calls).Tracks k limit window t (history ++ (l.transcript calls).granted k) := by
  induction calls generalizing l now history with
  | nil => exact (List.append_nil history).symm ▸ h.later hn
  | cons call calls ih =>
    obtain ⟨hnow, hstrategy, hnext⟩ := ho.next
    have htc := ht call (List.mem_cons_self ..)
    have htr := fun c hc => ht c (List.mem_cons_of_mem _ hc)
    rw [Limiter.after, transcript]
    by_cases hk : call.key = k
    · subst hk
      obtain ⟨hanswer, hserved⟩ := h.serve_own (hstrategy rfl) hnow
      rw [hanswer, Transcript.granted_cons_own, ← List.append_assoc]
      exact ih hserved hnext htc htr
    · rw [Transcript.granted_cons_other hk]
      exact ih ((h.later hnow).serve_other (Ne.symm hk)) hnext htc htr

theorem Tracks.transcript_congr (h : l.Tracks k limit window now history)
    (h' : l'.Tracks k limit window now history)
    (hother : ∀ j, j ≠ k → l.slots.get? j = l'.slots.get? j)
    (ho : Orderly k limit window now calls) : l.transcript calls = l'.transcript calls := by
  induction calls generalizing l l' now history with
  | nil => rfl
  | cons call calls ih =>
    obtain ⟨hnow, hstrategy, hnext⟩ := ho.next
    rw [transcript, transcript]
    by_cases hk : call.key = k
    · subst hk
      obtain ⟨hanswer, hserved⟩ := h.serve_own (hstrategy rfl) hnow
      obtain ⟨hanswer', hserved'⟩ := h'.serve_own (hstrategy rfl) hnow
      rw [hanswer, hanswer', ih hserved hserved' (fun j hj => ?_) hnext]
      rw [get?_serve_of_ne h.working hj, get?_serve_of_ne h'.working hj, hother j hj]
    · obtain ⟨hanswer, hslot⟩ := serve_congr h.working h'.working (hother call.key hk)
      rw [hanswer, ih ((h.later hnow).serve_other (Ne.symm hk))
        ((h'.later hnow).serve_other (Ne.symm hk)) (fun j hj => ?_) hnext]
      by_cases hj' : j = call.key
      · rw [hj', hslot]
      · rw [get?_serve_of_ne h.working hj', get?_serve_of_ne h'.working hj', hother j hj]

theorem Orderly.cut (h : Orderly k limit window now (before ++ call :: calls)) :
    Orderly k limit window now before ∧ (∀ c ∈ before, c.time ≤ call.time) ∧
      Orderly k limit window now (call :: calls) := by
  obtain ⟨hbefore, hcalls, hcross⟩ := List.pairwise_append.mp h.ordered
  refine ⟨⟨?_, hbefore, ?_⟩, fun c hc => hcross c hc call (List.mem_cons_self ..), ?_, hcalls, ?_⟩
  · exact fun c hc => h.started c (List.mem_append_left _ hc)
  · exact fun c hc => h.strategy c (List.mem_append_left _ hc)
  · exact fun c hc => h.started c (List.mem_append_right _ hc)
  · exact fun c hc => h.strategy c (List.mem_append_right _ hc)

theorem exists_last (calls : List LimiterCall) : ∃ t, ∀ call ∈ calls, call.time ≤ t := by
  induction calls with
  | nil => exact ⟨0, nofun⟩
  | cons call calls ih =>
    obtain ⟨t, ht⟩ := ih
    refine ⟨max call.time t, fun c hc => ?_⟩
    rcases List.mem_cons.mp hc with rfl | hc
    · exact Nat.le_max_left _ _
    · exact Nat.le_trans (ht c hc) (Nat.le_max_right _ _)

theorem Tracks.split (h : l.Tracks k limit window 0 [])
    (ho : Orderly k limit window 0 calls)
    (hsplit : l.transcript calls = past ++ (call, answer) :: rest) :
    (l.after (past.map Prod.fst)).Tracks k limit window call.time (past.granted k) ∧
      Orderly k limit window call.time (call :: rest.map Prod.fst) := by
  obtain ⟨hcalls, hpast, -, -⟩ := transcript_split hsplit
  subst hcalls
  obtain ⟨hbefore, htimes, hrest⟩ := ho.cut
  refine ⟨?_, ⟨fun c hc => ?_, hrest.ordered, hrest.strategy⟩⟩
  · simpa [hpast] using h.after hbefore (Nat.zero_le _) htimes
  · rcases List.mem_cons.mp hc with rfl | hc
    · exact Nat.le_refl _
    · exact hrest.next.2.2.started c hc

/-- A sliding window grants what its history of grants allows: a call is allowed exactly where
the units granted within the window before it leave room for it, what remains then counts its own
units too, and a refusal leaves no trace. So no window's length of time sees more than the limit. -/
theorem sliding_exact (hf : l.failing = false) (hk : l.slots.get? k = none)
    (ho : calls.Pairwise (·.time ≤ ·.time))
    (hs : ∀ call ∈ calls, call.key = k → call.strategy = .slidingWindow limit window) :
    (∀ (past rest : Transcript) call answer,
      l.transcript calls = past ++ (call, answer) :: rest → call.key = k →
      ∃ decision, answer = .ok decision ∧
        (decision.allowed ↔
          unitsWithin (past.granted k) window call.time + call.units ≤ limit) ∧
        decision.remaining = if decision.allowed then
            limit - (unitsWithin (past.granted k) window call.time + call.units)
          else limit - unitsWithin (past.granted k) window call.time) ∧
    (∀ (past rest : Transcript) call decision,
      l.transcript calls = past ++ (call, .ok decision) :: rest → call.key = k →
      decision.allowed = false →
      l.transcript ((past ++ rest).map Prod.fst) = past ++ rest) ∧
    ∀ start,
      units (((l.transcript calls).granted k).filter fun g =>
        start ≤ g.1 ∧ g.1 < start + window) ≤ limit ∧
      units (((l.transcript calls).granted k).filter fun g =>
        start < g.1 ∧ g.1 ≤ start + window) ≤ limit := by
  have htracks : l.Tracks k limit window 0 [] := .ofUnseen hf hk limit window 0
  have horderly : Orderly k limit window 0 calls := ⟨fun _ _ => Nat.zero_le _, ho, hs⟩
  refine ⟨fun past rest call answer hsplit hcall => ?_,
    fun past rest call decision hsplit hcall hdenied => ?_, fun start => ?_⟩
  · subst hcall
    obtain ⟨hpast, hrest⟩ := htracks.split horderly hsplit
    obtain ⟨hanswer, -⟩ := hpast.serve_own (hrest.next.2.1 rfl) (Nat.le_refl _)
    refine ⟨_, (transcript_split hsplit).2.2.1.trans hanswer, ?_⟩
    by_cases hfits : unitsWithin (past.granted call.key) window call.time + call.units ≤ limit
    · simp [slidingDecision, hfits]
    · simp [slidingDecision, hfits]
  · subst hcall
    obtain ⟨hpast, hrest⟩ := htracks.split horderly hsplit
    obtain ⟨hanswer, hserved⟩ := hpast.serve_own (hrest.next.2.1 rfl) (Nat.le_refl _)
    obtain ⟨-, htranscript, heq, htail⟩ := transcript_split hsplit
    obtain rfl : decision = slidingDecision limit
        (unitsWithin (past.granted call.key) window call.time) call.units :=
      Except.ok.inj (heq.trans hanswer)
    rw [hdenied] at hserved
    have hsame := hpast.transcript_congr (by simpa using hserved)
      (fun j hj => (get?_serve_of_ne hpast.working hj).symm) hrest.next.2.2
    rw [List.map_append, transcript_append, htranscript, hsame, htail]
  · obtain ⟨t, ht⟩ := exists_last calls
    have hafter := htracks.after horderly (Nat.zero_le t) ht
    rw [List.nil_append] at hafter
    exact ⟨hafter.capped _ (narrow_from window start), hafter.capped _ (narrow_to window start)⟩

def polledCall (units : Nat) (time : Time) : LimiterCall where
  key := ⟨"r", "i"⟩
  strategy := .slidingWindow 3 10
  units := units
  time := time

/-- The third call finds the window full, the last one finds the first call's units gone. -/
def polledCalls : List LimiterCall :=
  [polledCall 2 0, { polledCall 9 3 with key := ⟨"r", "j"⟩ }, polledCall 1 6, polledCall 1 6,
    polledCall 2 11]

theorem sliding_exact_polled :
    polledCalls.Pairwise (·.time ≤ ·.time) ∧
      (({} : Limiter).transcript polledCalls).granted ⟨"r", "i"⟩ = [(0, 2), (6, 1), (11, 2)] ∧
      ∀ start, units ((({} : Limiter).transcript polledCalls).granted ⟨"r", "i"⟩ |>.filter fun g =>
        start ≤ g.1 ∧ g.1 < start + 10) ≤ 3 := by
  have ho : polledCalls.Pairwise (·.time ≤ ·.time) := by decide
  have hs : ∀ call ∈ polledCalls, call.key = ⟨"r", "i"⟩ →
      call.strategy = .slidingWindow 3 10 := by
    simp [polledCalls, polledCall]
  exact ⟨ho, rfl, fun start => ((sliding_exact rfl rfl ho hs).2.2 start).1⟩

end Limiter

end Tollgate
