import Tollgate.Proofs.Limiter.Sweeping

/-!
# Fixed windows

The calls on a key fall into windows: the first one opens a window, and so
does each one that comes when the window before is over, whether it is granted
or not. A fixed meter counts what has been granted in the window in progress
(`Metered`), so that each window grants its limit and no more, and a length of
time that straddles two of them at most twice that (`windows_exact`).
-/

namespace Tollgate

/-- When a window opened, and the calls that fell into it with their answers, oldest first. -/
structure CallWindow where
  start : Time
  entries : Transcript

def CallWindow.used (w : CallWindow) (k : LimiterKey) : Nat := Meter.units (w.entries.granted k)

/-- The window that a call falls into, a new one where none is in progress, and the windows before
it; the latest stands first. -/
def currentWindow (window : Duration) (ws : List CallWindow) (now : Time) :
    CallWindow × List CallWindow :=
  match ws with
  | [] => (⟨now, []⟩, [])
  | w :: ws => if now < w.start + window then (w, ws) else (⟨now, []⟩, w :: ws)

def joinWindows (window : Duration) (ws : List CallWindow)
    (e : LimiterCall × Except LimiterFault Decision) : List CallWindow :=
  let (w, earlier) := currentWindow window ws e.1.time
  ⟨w.start, w.entries ++ [e]⟩ :: earlier

/-- A window opens with its first call and holds calls for its length. -/
structure CallWindow.Lasts (w : CallWindow) (window : Duration) : Prop where
  opened : w.entries.head?.map (·.1.time) = some w.start
  inside : ∀ e ∈ w.entries, w.start ≤ e.1.time ∧ e.1.time < w.start + window

/-- Calls fall into windows, the latest first, each of which opens once the one before it is
over. -/
structure Splits (window : Duration) (t : Transcript) (ws : List CallWindow) : Prop where
  whole : (ws.reverse.map (·.entries)).flatten = t
  lasts : ∀ w ∈ ws, w.Lasts window
  apart : ws.Pairwise fun w earlier => earlier.start + window ≤ w.start

variable {window : Duration} {t : Transcript} {w : CallWindow} {ws : List CallWindow}
  {k : LimiterKey} {limit : Nat} {e : LimiterCall × Except LimiterFault Decision}

theorem lasts_open (hw : 0 < window) (e : LimiterCall × Except LimiterFault Decision) :
    CallWindow.Lasts ⟨e.1.time, [e]⟩ window where
  opened := rfl
  inside := by
    intro e' he'
    rw [List.mem_singleton.mp he']
    exact ⟨Nat.le_refl _, Nat.lt_add_of_pos_right hw⟩

theorem CallWindow.Lasts.append (h : w.Lasts window) (hfrom : w.start ≤ e.1.time)
    (hto : e.1.time < w.start + window) :
    CallWindow.Lasts ⟨w.start, w.entries ++ [e]⟩ window where
  opened := by
    obtain ⟨first, hfirst, hstart⟩ := Option.map_eq_some_iff.mp h.opened
    simp [List.head?_append, hfirst, hstart]
  inside := by
    intro e' he'
    rcases List.mem_append.mp he' with he' | he'
    · exact h.inside e' he'
    · rw [List.mem_singleton.mp he']
      exact ⟨hfrom, hto⟩

theorem splits_nil (window : Duration) : Splits window [] [] :=
  ⟨rfl, nofun, .nil⟩

theorem Splits.start_le (h : Splits window t (w :: ws)) {now : Time}
    (he : ∀ e ∈ t, e.1.time ≤ now) : w.start ≤ now := by
  have hopened := (h.lasts w (List.mem_cons_self ..)).opened
  obtain ⟨first, hfirst, hstart⟩ := Option.map_eq_some_iff.mp hopened
  rw [← hstart]
  refine he first ?_
  rw [← h.whole]
  simp [List.mem_of_mem_head? hfirst]

theorem Splits.join (h : Splits window t ws) (hw : 0 < window)
    (he : ∀ e' ∈ t, e'.1.time ≤ e.1.time) : Splits window (t ++ [e]) (joinWindows window ws e) := by
  cases ws with
  | nil =>
    obtain rfl : [] = t := h.whole
    refine ⟨rfl, ?_, List.pairwise_singleton _ _⟩
    intro w hmem
    rw [List.mem_singleton.mp hmem]
    exact lasts_open hw e
  | cons w ws =>
    have hstart := h.start_le he
    obtain ⟨hwhole, hlasts, hapart⟩ := h
    obtain ⟨hlatest, hearlier⟩ := List.forall_mem_cons.mp hlasts
    obtain ⟨hover, hapart'⟩ := List.pairwise_cons.mp hapart
    rw [joinWindows, currentWindow]
    by_cases hlt : e.1.time < w.start + window
    · rw [if_pos hlt]
      refine ⟨?_, ?_, List.pairwise_cons.mpr ⟨hover, hapart'⟩⟩
      · rw [← hwhole]
        simp
      · exact List.forall_mem_cons.mpr ⟨hlatest.append hstart hlt, hearlier⟩
    · rw [if_neg hlt]
      have hnext : w.start + window ≤ e.1.time := Nat.le_of_not_lt hlt
      refine ⟨?_, ?_, List.pairwise_cons.mpr ⟨?_, hapart⟩⟩
      · rw [← hwhole]
        simp
      · exact List.forall_mem_cons.mpr ⟨lasts_open hw e, hlasts⟩
      · intro earlier hearly
        rcases List.mem_cons.mp hearly with rfl | hearly
        · exact hnext
        · exact Nat.le_trans (hover earlier hearly) (Nat.le_trans (Nat.le_add_right ..) hnext)

-- ---------------------------------------------------------------------------
-- Grants
-- ---------------------------------------------------------------------------

namespace Transcript

theorem granted_append (a b : Transcript) :
    Transcript.granted k (a ++ b) = a.granted k ++ b.granted k := List.filterMap_append

theorem units_granted_concat (t : Transcript) (call : LimiterCall) (decision : Decision) :
    Meter.units (Transcript.granted call.key (t ++ [(call, .ok decision)])) =
      Meter.units (t.granted call.key) + if decision.allowed then call.units else 0 := by
  rw [granted_append, Meter.units_append, granted_cons_own]
  cases decision.allowed <;> simp [Meter.units, granted]

theorem granted_answersTo (t : Transcript) (k : LimiterKey) :
    (t.answersTo k).granted k = t.granted k := by
  rw [answersTo, granted, List.filterMap_filter, granted]
  congr 1
  funext e
  obtain ⟨call, answer⟩ := e
  by_cases hkey : call.key = k
  · simp [hkey]
  · cases answer <;> simp [hkey]

theorem mem_granted {g : Time × Nat} (hg : g ∈ t.granted k) : ∃ e ∈ t, e.1.time = g.1 := by
  obtain ⟨⟨call, answer⟩, he, hgrant⟩ := List.mem_filterMap.mp hg
  refine ⟨_, he, ?_⟩
  cases answer with
  | error f => cases hgrant
  | ok decision =>
    dsimp only at hgrant
    split at hgrant
    · rw [← Option.some.inj hgrant]
    · cases hgrant

end Transcript

def Transcript.grantedAt (t : Transcript) (k : LimiterKey) (p : Time → Bool) : Nat :=
  Meter.units ((t.granted k).filter fun g => p g.1)

theorem Transcript.grantedAt_append (a b : Transcript) (k : LimiterKey) (p : Time → Bool) :
    Transcript.grantedAt (a ++ b) k p = a.grantedAt k p + b.grantedAt k p := by
  rw [grantedAt, granted_append, List.filter_append, Meter.units_append, grantedAt, grantedAt]

theorem Transcript.grantedAt_le (t : Transcript) (k : LimiterKey) (p : Time → Bool) :
    t.grantedAt k p ≤ Meter.units (t.granted k) := Meter.units_sublist List.filter_sublist

theorem Transcript.exists_of_grantedAt {p : Time → Bool} (h : t.grantedAt k p ≠ 0) :
    ∃ e ∈ t, p e.1.time = true := by
  by_contra hnone
  refine h ?_
  have hempty : (t.granted k).filter (fun g => p g.1) = [] := by
    rw [List.filter_eq_nil_iff]
    intro g hg hp
    obtain ⟨e, he, htime⟩ := mem_granted hg
    exact hnone ⟨e, he, htime ▸ hp⟩
  rw [grantedAt, hempty]
  rfl

theorem Splits.split (h : Splits window t (w :: ws)) :
    ∃ before, t = before ++ w.entries ∧ Splits window before ws := by
  obtain ⟨hwhole, hlasts, hapart⟩ := h
  refine ⟨(ws.reverse.map (·.entries)).flatten, ?_, rfl, ?_, ?_⟩
  · rw [← hwhole]
    simp
  · exact (List.forall_mem_cons.mp hlasts).2
  · exact (List.pairwise_cons.mp hapart).2

theorem Splits.exists_window (h : Splits window t ws) (he : e ∈ t) :
    ∃ w ∈ ws, e.1.time < w.start + window := by
  rw [← h.whole, List.mem_flatten] at he
  obtain ⟨entries, hentries, he⟩ := he
  obtain ⟨w, hw, rfl⟩ := List.mem_map.mp hentries
  rw [List.mem_reverse] at hw
  exact ⟨w, hw, ((h.lasts w hw).inside e he).2⟩

theorem Splits.mem (h : Splits window t ws) (hw : w ∈ ws) (he : e ∈ w.entries) : e ∈ t := by
  rw [← h.whole, List.mem_flatten]
  exact ⟨w.entries, List.mem_map_of_mem (List.mem_reverse.mpr hw), he⟩

theorem far_apart {early middle late x y length : Nat} (hx : x < early + length)
    (hearly : early + length ≤ middle) (hmiddle : middle + length ≤ late) (hy : late ≤ y) :
    ¬y < x + length := by
  omega

/-- Times less than a window apart meet two windows at most. -/
theorem Splits.grantedAt_le (h : Splits window t ws) (hcap : ∀ w ∈ ws, w.used k ≤ limit)
    {p : Time → Bool} (hp : Narrow window p) : t.grantedAt k p ≤ 2 * limit := by
  induction ws generalizing t with
  | nil =>
    obtain rfl : [] = t := h.whole
    exact Nat.zero_le _
  | cons w ws ih =>
    obtain ⟨before, rfl, hbefore⟩ := h.split
    obtain ⟨hw, hws⟩ := List.forall_mem_cons.mp hcap
    have hlatest := Nat.le_trans (w.entries.grantedAt_le k p) hw
    rw [Transcript.grantedAt_append]
    by_cases hz : w.entries.grantedAt k p = 0
    · rw [hz]
      exact ih hbefore hws
    obtain ⟨e, he, hpe⟩ := Transcript.exists_of_grantedAt hz
    have hstart := ((h.lasts w (List.mem_cons_self ..)).inside e he).1
    cases ws with
    | nil =>
      obtain rfl : [] = before := hbefore.whole
      have hnone : Transcript.grantedAt [] k p = 0 := rfl
      omega
    | cons w' ws =>
      obtain ⟨past, rfl, hpast⟩ := hbefore.split
      have hnext := Nat.le_trans (w'.entries.grantedAt_le k p) (hws w' (List.mem_cons_self ..))
      obtain ⟨hover, hapart⟩ := List.pairwise_cons.mp h.apart
      -- What was granted before these two windows is too long ago.
      have hlong : past.grantedAt k p = 0 := by
        by_contra hpos
        obtain ⟨e', he', hpe'⟩ := Transcript.exists_of_grantedAt hpos
        obtain ⟨w'', hw'', hlt⟩ := hpast.exists_window he'
        exact far_apart hlt ((List.pairwise_cons.mp hapart).1 w'' hw'')
          (hover w' (List.mem_cons_self ..)) hstart (hp _ _ hpe hpe')
      rw [Transcript.grantedAt_append, hlong]
      omega

-- ---------------------------------------------------------------------------
-- The meter
-- ---------------------------------------------------------------------------

def CallWindow.Decided (w : CallWindow) (k : LimiterKey) (limit : Nat) : Prop :=
  ∀ (before after : Transcript) call answer, w.entries = before ++ (call, answer) :: after →
    answer = .ok (Meter.slidingDecision limit (Meter.units (before.granted k)) call.units)

theorem CallWindow.Decided.append (h : w.Decided k limit) (call : LimiterCall) :
    CallWindow.Decided
      ⟨w.start, w.entries ++ [(call, .ok (Meter.slidingDecision limit (w.used k) call.units))]⟩
      k limit := by
  intro before after call' answer hcut
  rcases List.eq_nil_or_concat after with rfl | ⟨after, last, rfl⟩
  · obtain ⟨rfl, hlast⟩ := List.append_inj' hcut rfl
    obtain ⟨rfl, rfl⟩ := Prod.mk.inj (List.singleton_inj.mp hlast)
    rfl
  · rw [List.concat_eq_append, ← List.cons_append, ← List.append_assoc] at hcut
    exact h before after call' answer (List.append_inj' hcut rfl).1

theorem CallWindow.used_append (w : CallWindow) (call : LimiterCall) (decision : Decision) :
    CallWindow.used ⟨w.start, w.entries ++ [(call, .ok decision)]⟩ call.key =
      w.used call.key + if decision.allowed then call.units else 0 :=
  Transcript.units_granted_concat w.entries call decision

theorem CallWindow.decided_nil (start : Time) (k : LimiterKey) (limit : Nat) :
    CallWindow.Decided ⟨start, []⟩ k limit := by
  intro before after call answer hcut
  simp at hcut

namespace Meter

theorem sum_lt_size {used n : Nat} (hlimit : limit ≤ UInt64.size - UInt32.size)
    (hused : used ≤ limit) (hn : n < UInt32.size) : used + n < UInt64.size := by
  simp only [UInt64.size, UInt32.size] at *
  omega

theorem slidingDecision_spec (limit used n : Nat) :
    ((slidingDecision limit used n).allowed = true ↔ used + n ≤ limit) ∧
      (slidingDecision limit used n).remaining =
        limit - (used + if (slidingDecision limit used n).allowed then n else 0) := by
  rw [slidingDecision]
  by_cases h : used + n ≤ limit
  · simp [h]
  · simp [h]

theorem used_le {used n : Nat} (hused : used ≤ limit) :
    used + (if (slidingDecision limit used n).allowed then n else 0) ≤ limit := by
  split
  · next hallowed => exact (slidingDecision_spec limit used n).1.mp hallowed
  · exact hused

/-- A fixed meter decides by what its window has used, as long as its sum is a word. -/
theorem acquireFixed_eq {m : Option Meter} {start : Time} {used n : Nat}
    (hstate : fixedState m window now = (start, used)) (hsum : used + n < UInt64.size) :
    acquireFixed m limit window n now =
      (slidingDecision limit used n,
        .fixed start (used + if (slidingDecision limit used n).allowed then n else 0)) := by
  rw [acquireFixed, hstate, slidingDecision]
  dsimp only
  rw [Nat.mod_eq_of_lt hsum]
  by_cases h : used + n ≤ limit
  · simp [h, Nat.not_lt.mpr h]
  · simp [h, Nat.lt_of_not_le h]

end Meter

namespace Limiter

variable {l : Limiter} {call : LimiterCall}

/-- The meter of a key counts what the latest window has granted, and no window has granted more
than the limit. -/
structure Metered (l : Limiter) (k : LimiterKey) (limit : Nat) (ws : List CallWindow) : Prop where
  working : l.failing = false
  meter : l.meter? k = ws.head?.map fun w => .fixed w.start (w.used k)
  capped : ∀ w ∈ ws, w.used k ≤ limit
  decided : ∀ w ∈ ws, w.Decided k limit

theorem Metered.state (h : l.Metered k limit ws) (hs : Splits window t ws) {now : Time}
    (ht : ∀ e ∈ t, e.1.time ≤ now) :
    Meter.fixedState (l.meter? k) window now =
      ((currentWindow window ws now).1.start, (currentWindow window ws now).1.used k) := by
  rw [h.meter]
  cases ws with
  | nil => rfl
  | cons w ws =>
    have hstart : now - w.start < window ↔ now < w.start + window :=
      Nat.sub_lt_iff_lt_add' (hs.start_le ht)
    simp only [List.head?_cons, Option.map_some, Meter.fixedState, currentWindow, hstart]
    split <;> rfl

theorem Metered.current (h : l.Metered k limit ws) (window : Duration) (now : Time) :
    (currentWindow window ws now).1.used k ≤ limit ∧
      (currentWindow window ws now).1.Decided k limit ∧
      ∀ w ∈ (currentWindow window ws now).2, w.used k ≤ limit ∧ w.Decided k limit := by
  have hnew := CallWindow.decided_nil now k limit
  cases ws with
  | nil => exact ⟨Nat.zero_le _, hnew, nofun⟩
  | cons w ws =>
    obtain ⟨hcap, hcaps⟩ := List.forall_mem_cons.mp h.capped
    obtain ⟨hdecided, hdecideds⟩ := List.forall_mem_cons.mp h.decided
    rw [currentWindow]
    split
    · exact ⟨hcap, hdecided, fun w hw => ⟨hcaps w hw, hdecideds w hw⟩⟩
    · exact ⟨Nat.zero_le _, hnew, fun w hw => ⟨h.capped w hw, h.decided w hw⟩⟩

theorem Metered.serve_own (h : l.Metered call.key limit ws) (hs : Splits window t ws)
    (ht : ∀ e ∈ t, e.1.time ≤ call.time) (hstrategy : call.strategy = .fixedWindow limit window)
    (hlimit : limit ≤ UInt64.size - UInt32.size) (hunits : call.units < UInt32.size) :
    (l.serve call).2.Metered call.key limit
      (joinWindows window ws (call, (l.serve call).1)) := by
  obtain ⟨hcap, hdecided, hearlier⟩ := h.current window call.time
  have hstate := h.state hs ht
  generalize hw : currentWindow window ws call.time = current at *
  obtain ⟨hanswer, hmeter⟩ := serve_fixed h.working hstrategy
  rw [Meter.acquireFixed_eq hstate (Meter.sum_lt_size hlimit hcap hunits)] at hanswer hmeter
  refine ⟨failing_serve h.working, ?_, ?_, ?_⟩
  · rw [hmeter, joinWindows]
    dsimp only
    rw [hw, hanswer]
    show _ = some (Meter.fixed current.1.start (CallWindow.used _ _))
    rw [CallWindow.used_append]
  · rw [joinWindows]
    dsimp only
    rw [hw, hanswer]
    refine List.forall_mem_cons.mpr ⟨?_, fun w hw => (hearlier w hw).1⟩
    rw [CallWindow.used_append]
    exact Meter.used_le hcap
  · rw [joinWindows]
    dsimp only
    rw [hw, hanswer]
    exact List.forall_mem_cons.mpr ⟨hdecided.append call, fun w hw => (hearlier w hw).2⟩

theorem Metered.serve_other (h : l.Metered k limit ws) (hk : k ≠ call.key) :
    (l.serve call).2.Metered k limit ws where
  working := failing_serve h.working
  meter := by rw [meter?, get?_serve_of_ne h.working hk, ← meter?, h.meter]
  capped := h.capped
  decided := h.decided

theorem Metered.of_unseen (hf : l.failing = false) (hk : l.slots.get? k = none) (limit : Nat) :
    l.Metered k limit [] where
  working := hf
  meter := by rw [meter?, hk]; rfl
  capped := nofun
  decided := nofun

-- ---------------------------------------------------------------------------
-- Runs
-- ---------------------------------------------------------------------------

theorem Metered.after (h : l.Metered k limit ws) (hs : Splits window t ws) (now : Time)
    (ht : ∀ e ∈ t, e.1.time ≤ now) (hwindow : 0 < window)
    (hlimit : limit ≤ UInt64.size - UInt32.size) {calls : List LimiterCall}
    (hnow : ∀ call ∈ calls, now ≤ call.time) (ho : calls.Pairwise (·.time ≤ ·.time))
    (hk : ∀ call ∈ calls, call.key = k →
      call.strategy = .fixedWindow limit window ∧ call.units < UInt32.size) :
    ∃ ws, (l.after calls).Metered k limit ws ∧
      Splits window (t ++ (l.transcript calls).answersTo k) ws := by
  induction calls generalizing l t ws now with
  | nil =>
    refine ⟨ws, h, ?_⟩
    rw [transcript, Transcript.answersTo, List.filter_nil, List.append_nil]
    exact hs
  | cons call calls ih =>
    obtain ⟨hcall, -⟩ := List.forall_mem_cons.mp hnow
    obtain ⟨hlater, ho⟩ := List.pairwise_cons.mp ho
    obtain ⟨hown, hk⟩ := List.forall_mem_cons.mp hk
    have ht : ∀ e ∈ t, e.1.time ≤ call.time := fun e he => Nat.le_trans (ht e he) hcall
    rw [Limiter.after, transcript, Transcript.answersTo]
    by_cases hkey : call.key = k
    · subst hkey
      obtain ⟨hstrategy, hunits⟩ := hown rfl
      have hserved := h.serve_own hs ht hstrategy hlimit hunits
      have hjoined := hs.join (e := (call, (l.serve call).1)) hwindow ht
      have ht' : ∀ e ∈ t ++ [(call, (l.serve call).1)], e.1.time ≤ call.time := by
        intro e he
        rcases List.mem_append.mp he with he | he
        · exact ht e he
        · rw [List.mem_singleton.mp he]
      obtain ⟨ws', hmetered, hsplits⟩ := ih hserved hjoined call.time ht' hlater ho hk
      refine ⟨ws', hmetered, ?_⟩
      rw [List.filter_cons_of_pos (by simp)]
      simpa [Transcript.answersTo] using hsplits
    · rw [List.filter_cons_of_neg (by simpa using hkey)]
      exact ih (h.serve_other (Ne.symm hkey)) hs call.time ht hlater ho hk

open Meter (units)

/-- The calls on a key that is used with one fixed window fall into windows. A call is allowed
exactly where what its window has granted before leaves room for it, and what remains then counts
its own units too; so a window never grants more than the limit, its first call is refused only
for more than that, and no length of a window sees more than twice the limit. The sums behind
this are words and the differences are not negative. -/
theorem windows_exact {calls : List LimiterCall} (hf : l.failing = false)
    (hk : l.slots.get? k = none) (ho : calls.Pairwise (·.time ≤ ·.time))
    (hs : ∀ call ∈ calls, call.key = k →
      call.strategy = .fixedWindow limit window ∧ call.units < UInt32.size)
    (hwindow : 0 < window) (hlimit : limit ≤ UInt64.size - UInt32.size) :
    (∃ ws, Splits window ((l.transcript calls).answersTo k) ws ∧ ∀ w ∈ ws,
      (∀ (before after : Transcript) call answer, w.entries = before ++ (call, answer) :: after →
        ∃ decision, answer = .ok decision ∧
          (decision.allowed ↔ units (before.granted k) + call.units ≤ limit) ∧
          decision.remaining =
            limit - units (Transcript.granted k (before ++ [(call, answer)]))) ∧
      (∀ call answer after, w.entries = (call, answer) :: after → call.units ≤ limit →
        answer = .ok ⟨true, limit - call.units⟩) ∧
      units (w.entries.granted k) ≤ limit) ∧
    (∀ start,
      units (((l.transcript calls).granted k).filter fun g =>
        start ≤ g.1 ∧ g.1 < start + window) ≤ 2 * limit ∧
      units (((l.transcript calls).granted k).filter fun g =>
        start < g.1 ∧ g.1 ≤ start + window) ≤ 2 * limit) ∧
    ∀ (past rest : Transcript) call decision,
      l.transcript calls = past ++ (call, .ok decision) :: rest → call.key = k →
      let (start, count) :=
        Meter.fixedState ((l.after (past.map Prod.fst)).meter? k) window call.time
      count ≤ limit ∧ count + call.units < UInt64.size ∧
        (decision.allowed → call.units ≤ limit - count) ∧
        ((l.after (past.map Prod.fst)).serve call).2.meter? k =
          some (.fixed start (count + if decision.allowed then call.units else 0)) := by
  have hnew : l.Metered k limit [] := .of_unseen hf hk limit
  obtain ⟨ws, hmetered, hsplits⟩ := hnew.after (splits_nil window) 0 nofun hwindow hlimit
    (fun _ _ => Nat.zero_le _) ho hs
  rw [List.nil_append] at hsplits
  refine ⟨⟨ws, hsplits, fun w hw => ⟨?_, ?_, hmetered.capped w hw⟩⟩, fun start => ?_, ?_⟩
  · intro before after call answer hcut
    have hkey : call.key = k := by
      have hmem := hsplits.mem hw (e := (call, answer)) (by simp [hcut])
      simpa [Transcript.answersTo] using (List.mem_filter.mp hmem).2
    obtain ⟨hallowed, hremaining⟩ :=
      Meter.slidingDecision_spec limit (units (before.granted k)) call.units
    rw [hmetered.decided w hw before after call answer hcut]
    refine ⟨_, rfl, hallowed, hremaining.trans ?_⟩
    subst hkey
    rw [Transcript.units_granted_concat]
  · intro call answer after hfirst hunits
    rw [hmetered.decided w hw [] after call answer hfirst]
    simp [Meter.slidingDecision, units, Transcript.granted, hunits]
  · have hnarrow {p : Time → Bool} (hp : Narrow window p) :
        units (((l.transcript calls).granted k).filter fun g => p g.1) ≤ 2 * limit := by
      rw [← Transcript.granted_answersTo]
      exact hsplits.grantedAt_le hmetered.capped hp
    exact ⟨hnarrow (narrow_from window start), hnarrow (narrow_to window start)⟩
  · intro past rest call decision hcut hkey
    subst hkey
    obtain ⟨hcalls, hpast, hanswer, -⟩ := transcript_split hcut
    obtain ⟨hbefore, -, hcross⟩ := List.pairwise_append.mp (hcalls ▸ ho)
    have hlast : ∀ c ∈ past.map Prod.fst, c.time ≤ call.time :=
      fun c hc => hcross c hc call (List.mem_cons_self ..)
    obtain ⟨hstrategy, hunits⟩ := hs call (by rw [hcalls]; simp) rfl
    obtain ⟨ws, hmetered, hsplits⟩ := hnew.after (splits_nil window) 0 nofun hwindow hlimit
      (fun _ _ => Nat.zero_le _) hbefore fun c hc => hs c (by rw [hcalls]; simp [hc])
    rw [hpast, List.nil_append] at hsplits
    have htimes : ∀ e ∈ past.answersTo call.key, e.1.time ≤ call.time := fun e he =>
      hlast e.1 (List.mem_map_of_mem (List.mem_filter.mp he).1)
    have hstate := hmetered.state hsplits htimes
    obtain ⟨hcap, -, -⟩ := hmetered.current window call.time
    have hsum := Meter.sum_lt_size hlimit hcap hunits
    obtain ⟨hanswer', hmeter⟩ := serve_fixed hmetered.working hstrategy
    rw [Meter.acquireFixed_eq hstate hsum] at hanswer' hmeter
    obtain rfl := Except.ok.inj (hanswer.trans hanswer')
    rw [hstate]
    refine ⟨hcap, hsum, fun hallowed => ?_, hmeter⟩
    have hfits := (Meter.slidingDecision_spec limit _ call.units).1.mp hallowed
    omega

def windowedCall (units : Nat) (time : Time) : LimiterCall where
  key := ⟨"r", "i"⟩
  strategy := .fixedWindow 3 10
  units := units
  time := time

/-- The third call is refused, the fourth one fills the window just before it closes, and the
fifth one opens the next. -/
def straddlingCalls : List LimiterCall :=
  [windowedCall 2 0, { windowedCall 9 3 with key := ⟨"r", "j"⟩ }, windowedCall 2 6,
    windowedCall 1 9, windowedCall 3 10, windowedCall 1 19]

theorem windows_exact_straddling :
    straddlingCalls.Pairwise (·.time ≤ ·.time) ∧
      (∀ call ∈ straddlingCalls, call.key = ⟨"r", "i"⟩ →
        call.strategy = .fixedWindow 3 10 ∧ call.units < UInt32.size) ∧
      (({} : Limiter).transcript straddlingCalls).granted ⟨"r", "i"⟩ = [(0, 2), (9, 1), (10, 3)] ∧
      ∀ start, units ((({} : Limiter).transcript straddlingCalls).granted ⟨"r", "i"⟩ |>.filter
        fun g => start ≤ g.1 ∧ g.1 < start + 10) ≤ 2 * 3 := by
  have ho : straddlingCalls.Pairwise (·.time ≤ ·.time) := by decide
  have hs : ∀ call ∈ straddlingCalls, call.key = ⟨"r", "i"⟩ →
      call.strategy = .fixedWindow 3 10 ∧ call.units < UInt32.size := by
    simp [straddlingCalls, windowedCall, UInt32.size]
  exact ⟨ho, hs, rfl,
    fun start => ((windows_exact rfl rfl ho hs (by decide) (by decide)).2.1 start).1⟩

end Limiter

end Tollgate
