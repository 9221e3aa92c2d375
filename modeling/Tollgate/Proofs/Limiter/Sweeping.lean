import Mathlib.Data.List.TakeWhile
import Tollgate.Proofs.Limiter.Sliding

/-!
# Sweeps and other keys go unnoticed

A key that is always used with one window gets the answers that it would get
alone on a limiter that is never swept (`answers_isolated`). Other keys have
slots of their own; and a slot that is idle enough to be swept holds nothing
but times that have left the window, so that a fresh slot in its place comes
to the same (`Tended.acquire_idle`).
-/

namespace Tollgate

def LimitStrategy.IsWindow : LimitStrategy → Prop
  | .fixedWindow .. | .slidingWindow .. => True
  | .unlimited | .tokenBucket .. => False

-- ---------------------------------------------------------------------------
-- Meters
-- ---------------------------------------------------------------------------

namespace Meter

variable {m : Option Meter} {window : Duration} {now : Time}

def times : Option Meter → List Time
  | some (.fixed start _) => [start]
  | some (.sliding grants) => grants.map Prod.fst
  | some (.bucket ..) | none => []

/-- All that a meter goes by has left the window. -/
def Spent (m : Option Meter) (window : Duration) (now : Time) : Prop :=
  ∀ time ∈ times m, window ≤ now - time

theorem acquireFixed_spent (h : Spent m window now) (limit n : Nat) :
    acquireFixed m limit window n now = acquireFixed none limit window n now := by
  have hstate : fixedState m window now = fixedState none window now := by
    rcases m with _ | ⟨start, count⟩ | _ | _
    · rfl
    · have hstart : ¬now - start < window := Nat.not_lt.mpr (h start (List.mem_singleton_self _))
      exact if_neg hstart
    · rfl
    · rfl
  rw [acquireFixed, hstate, acquireFixed]

theorem fst_mem_times {g : Time × Nat} (h : g ∈ kept m) : g.1 ∈ times m := by
  rcases m with _ | _ | _ | grants
  · cases h
  · cases h
  · cases h
  · exact List.mem_map_of_mem h

theorem recent_spent (h : Spent m window now) : recent (kept m) window now = [] := by
  rw [recent, List.dropWhile_eq_nil_iff]
  intro g hg
  exact decide_eq_true (h g.1 (fst_mem_times hg))

theorem acquireSliding_spent (h : Spent m window now) (limit n : Nat) :
    acquireSliding m limit window n now = acquireSliding none limit window n now := by
  have hnone : recent (kept none) window now = [] := rfl
  rw [acquireSliding_eq, acquireSliding_eq, recent_spent h, hnone]

theorem times_acquireFixed {time : Time}
    (h : time ∈ times (some (acquireFixed m limit window n now).2)) :
    time ∈ times m ∨ time = now := by
  have hstart : (fixedState m window now).1 ∈ times m ∨ (fixedState m window now).1 = now := by
    rcases m with _ | ⟨start, count⟩ | _ | _
    · exact .inr rfl
    · rw [fixedState]
      split
      · exact .inl (List.mem_singleton_self _)
      · exact .inr rfl
    · exact .inr rfl
    · exact .inr rfl
  have htime : time = (fixedState m window now).1 := by
    rw [acquireFixed] at h
    dsimp only at h
    split at h <;> exact List.mem_singleton.mp h
  exact htime ▸ hstart

theorem times_acquireSliding {time : Time}
    (h : time ∈ times (some (acquireSliding m limit window n now).2)) :
    time ∈ times m ∨ time = now := by
  have hrecent : ∀ g ∈ recent (kept m) window now, g.1 ∈ times m := fun g hg =>
    fst_mem_times ((List.dropWhile_sublist _).subset hg)
  rw [acquireSliding_eq] at h
  obtain ⟨g, hg, rfl⟩ := List.mem_map.mp h
  split at hg
  · rcases List.mem_append.mp hg with hg | hg
    · exact .inl (hrecent g hg)
    · rw [List.mem_singleton.mp hg]
      exact .inr rfl
  · exact .inl (hrecent g hg)

end Meter

-- ---------------------------------------------------------------------------
-- Slots
-- ---------------------------------------------------------------------------

namespace LimiterSlot

variable {slot : LimiterSlot} {s : LimitStrategy} {now t : Time}

/-- A slot that only one strategy has used, last at a time that nothing in it is past. -/
structure Tended (slot : LimiterSlot) (s : LimitStrategy) (now : Time) : Prop where
  ttl : slot.idleTtl = s.idleTtl
  seen : slot.lastSeen ≤ now
  times : ∀ time ∈ Meter.times slot.meter, time ≤ slot.lastSeen

theorem acquire_spent (hs : s.IsWindow) (h : Meter.Spent slot.meter s.window t) (n : Nat) :
    slot.acquire s n t = (fresh t).acquire s n t := by
  cases s with
  | fixedWindow limit window =>
    simp only [acquire, fresh, Meter.acquireFixed_spent (show Meter.Spent _ window t from h)]
  | slidingWindow limit window =>
    simp only [acquire, fresh, Meter.acquireSliding_spent (show Meter.Spent _ window t from h)]
  | unlimited => exact hs.elim
  | tokenBucket rate burst => exact hs.elim

theorem Tended.later (h : slot.Tended s now) (ht : now ≤ t) : slot.Tended s t where
  ttl := h.ttl
  seen := Nat.le_trans h.seen ht
  times := h.times

theorem times_acquire (hs : s.IsWindow) {time : Time}
    (h : time ∈ Meter.times (slot.acquire s n now).2.meter) :
    time ∈ Meter.times slot.meter ∨ time = now := by
  cases s with
  | fixedWindow limit window => exact Meter.times_acquireFixed h
  | slidingWindow limit window => exact Meter.times_acquireSliding h
  | unlimited => exact hs.elim
  | tokenBucket rate burst => exact hs.elim

theorem tended_acquire (hs : s.IsWindow) (h : ∀ time ∈ Meter.times slot.meter, time ≤ now)
    (n : Nat) : (slot.acquire s n now).2.Tended s now where
  ttl := rfl
  seen := Nat.le_refl now
  times := fun time htime => by
    rcases times_acquire hs htime with hold | rfl
    · exact h time hold
    · exact Nat.le_refl _

theorem left_of_idle {window time seen now t : Nat} (hidle : 2 * window < now - seen)
    (hseen : time ≤ seen) (ht : now ≤ t) : window ≤ t - time := by
  omega

/-- Idle for two windows, a slot has outlived all that it holds by one window at least. -/
theorem Tended.spent (h : slot.Tended s now) (hidle : slot.isIdle now = true) (ht : now ≤ t) :
    Meter.Spent slot.meter s.window t := by
  intro time htime
  have hlong : slot.idleTtl < now - slot.lastSeen := of_decide_eq_true hidle
  rw [h.ttl] at hlong
  exact left_of_idle hlong (h.times time htime) ht

/-- An idle slot answers as a fresh one in its place would. -/
theorem Tended.acquire_idle (h : slot.Tended s now) (hs : s.IsWindow)
    (hidle : slot.isIdle now = true) (ht : now ≤ t) (n : Nat) :
    slot.acquire s n t = (fresh t).acquire s n t :=
  acquire_spent hs (h.spent hidle ht) n

end LimiterSlot

-- ---------------------------------------------------------------------------
-- Runs with sweeps
-- ---------------------------------------------------------------------------

inductive LimiterOp where
  | ask (call : LimiterCall)
  | sweep (time : Time)

def LimiterOp.time : LimiterOp → Time
  | .ask call => call.time
  | .sweep t => t

def LimiterOp.callsOf (k : LimiterKey) : List LimiterOp → List LimiterCall
  | [] => []
  | .ask call :: ops => if call.key = k then call :: callsOf k ops else callsOf k ops
  | .sweep _ :: ops => callsOf k ops

def Transcript.answersTo (k : LimiterKey) (t : Transcript) : Transcript :=
  t.filter fun entry => entry.1.key = k

namespace Limiter

open LimiterOp (callsOf)

def record (l : Limiter) : List LimiterOp → Transcript
  | [] => []
  | .ask call :: ops => (call, (l.serve call).1) :: (l.serve call).2.record ops
  | .sweep time :: ops => (l.sweep time).record ops

variable {l alone : Limiter} {k : LimiterKey} {s : LimitStrategy} {now t : Time}
  {call : LimiterCall} {ops : List LimiterOp}

/-- What a key asks for from `now` on, it is given by both limiters alike. -/
structure Alike (l alone : Limiter) (k : LimiterKey) (s : LimitStrategy) (now : Time) : Prop where
  working : l.failing = false
  working' : alone.failing = false
  tended : ∀ slot, l.slots.get? k = some slot → slot.Tended s now
  acquire : ∀ t, now ≤ t → ∀ n, (l.slots.getD k (.fresh t)).acquire s n t =
    (alone.slots.getD k (.fresh t)).acquire s n t

theorem Alike.later (h : l.Alike alone k s now) (ht : now ≤ t) : l.Alike alone k s t where
  working := h.working
  working' := h.working'
  tended := fun slot hslot => (h.tended slot hslot).later ht
  acquire := fun u hu n => h.acquire u (Nat.le_trans ht hu) n

theorem Alike.of_unseen (hf : l.failing = false) (hk : l.slots.get? k = none) (s : LimitStrategy)
    (now : Time) : l.Alike {} k s now where
  working := hf
  working' := rfl
  tended := fun slot hslot => by rw [hk] at hslot; cases hslot
  acquire := fun t _ n => by rw [Dict.getD, hk]; rfl

theorem get?_serve_own (hf : l.failing = false) (call : LimiterCall) :
    (l.serve call).2.slots.get? call.key =
      some ((l.slots.getD call.key (.fresh call.time)).acquire call.strategy call.units
        call.time).2 := by
  rw [serve_eq hf]
  exact (l.slots.get?_set _ _ _).trans (if_pos rfl)

theorem Alike.serve_own (h : l.Alike alone call.key call.strategy now)
    (hs : call.strategy.IsWindow) (ht : now ≤ call.time) :
    (l.serve call).1 = (alone.serve call).1 ∧
      (l.serve call).2.Alike (alone.serve call).2 call.key call.strategy call.time := by
  have hsame := h.acquire call.time ht call.units
  have htimes : ∀ time ∈ Meter.times (l.slots.getD call.key (.fresh call.time)).meter,
      time ≤ call.time := by
    rw [Dict.getD]
    cases hslot : l.slots.get? call.key with
    | none =>
      intro time htime
      exact absurd htime List.not_mem_nil
    | some slot =>
      have htended := (h.tended slot hslot).later ht
      exact fun time htime => Nat.le_trans (htended.times time htime) htended.seen
  have hslot := get?_serve_own h.working call
  have hslot' := get?_serve_own h.working' call
  refine ⟨by rw [serve_eq h.working, serve_eq h.working', hsame], ?_⟩
  exact {
    working := failing_serve h.working
    working' := failing_serve h.working'
    tended := fun slot hget => by
      rw [hslot] at hget
      rw [← Option.some.inj hget]
      exact LimiterSlot.tended_acquire hs htimes call.units
    acquire := fun t _ n => by rw [Dict.getD, Dict.getD, hslot, hslot', hsame] }

theorem Alike.serve_other (h : l.Alike alone k s now) (hk : k ≠ call.key) :
    (l.serve call).2.Alike alone k s now := by
  have hslot := get?_serve_of_ne h.working hk
  exact {
    working := failing_serve h.working
    working' := h.working'
    tended := hslot ▸ h.tended
    acquire := fun t ht n => by
      rw [Dict.getD, hslot]
      exact h.acquire t ht n }

theorem Alike.sweep (h : l.Alike alone k s now) (hs : s.IsWindow) :
    (l.sweep now).Alike alone k s now := by
  have hget : (l.sweep now).slots.get? k = (l.slots.get? k).filter fun slot => !slot.isIdle now :=
    l.slots.get?_filter _ k
  refine ⟨h.working, h.working', fun slot hslot => ?_, fun t ht n => ?_⟩
  · rw [hget, Option.filter_eq_some_iff] at hslot
    exact h.tended slot hslot.1
  · rw [← h.acquire t ht n, Dict.getD, Dict.getD, hget]
    cases hslot : l.slots.get? k with
    | none => rfl
    | some slot =>
      cases hidle : slot.isIdle now with
      | false => rw [Option.filter_some_pos (by simp [hidle])]
      | true =>
        rw [Option.filter_some_neg (by simp [hidle])]
        exact ((h.tended slot hslot).acquire_idle hs hidle ht n).symm

theorem Alike.record (h : l.Alike alone k s now) (hs : s.IsWindow)
    (ho : ops.Pairwise (·.time ≤ ·.time)) (ht : ∀ op ∈ ops, now ≤ op.time)
    (hk : ∀ call, .ask call ∈ ops → call.key = k → call.strategy = s) :
    (l.record ops).answersTo k = alone.transcript (callsOf k ops) := by
  -- Along the run both limiters move on, and the time with them.
  induction ops generalizing l alone now with
  | nil => rfl
  | cons op ops ih =>
    have hnow := ht op (List.mem_cons_self ..)
    obtain ⟨hnext, ho'⟩ := List.pairwise_cons.mp ho
    have hk' : ∀ call, .ask call ∈ ops → call.key = k → call.strategy = s :=
      fun call hcall => hk call (List.mem_cons_of_mem _ hcall)
    cases op with
    | sweep time => exact ih ((h.later hnow).sweep hs) ho' hnext hk'
    | ask call =>
      rw [Limiter.record, callsOf, Transcript.answersTo]
      by_cases hown : call.key = k
      · subst hown
        obtain rfl := hk call (List.mem_cons_self ..) rfl
        obtain ⟨hanswer, hafter⟩ := h.serve_own hs hnow
        rw [List.filter_cons_of_pos (by simp), if_pos rfl, transcript, hanswer]
        exact congrArg _ (ih hafter ho' hnext hk')
      · rw [List.filter_cons_of_neg (by simpa using hown), if_neg hown]
        exact ih ((h.later hnow).serve_other (Ne.symm hown)) ho' hnext hk'

/-- A key that is always used with one window, fixed or sliding, gets the answers that it would
get from a new limiter without the calls on other keys and without the sweeps. -/
theorem answers_isolated (hf : l.failing = false) (hk : l.slots.get? k = none)
    (ho : ops.Pairwise (·.time ≤ ·.time)) (hw : s.IsWindow)
    (hs : ∀ call, .ask call ∈ ops → call.key = k → call.strategy = s) :
    (l.record ops).answersTo k = ({} : Limiter).transcript (callsOf k ops) :=
  (Alike.of_unseen hf hk s 0).record hw ho (fun _ _ => Nat.zero_le _) hs

def sweptCall (identity : String) (units : Nat) (time : Time) : LimiterCall where
  key := ⟨"r", identity⟩
  strategy := .fixedWindow 3 10
  units := units
  time := time

/-- The first sweep comes a moment too early for the slot, the second one takes it. -/
def sweptOps : List LimiterOp :=
  [.ask (sweptCall "i" 2 0), .ask (sweptCall "j" 3 4), .ask (sweptCall "i" 2 9), .sweep 29,
    .ask (sweptCall "j" 1 29), .sweep 30, .ask (sweptCall "i" 3 30)]

theorem answers_isolated_swept :
    sweptOps.Pairwise (·.time ≤ ·.time) ∧
      ((({} : Limiter).record sweptOps).answersTo ⟨"r", "i"⟩).map Prod.snd =
        [.ok ⟨true, 1⟩, .ok ⟨false, 1⟩, .ok ⟨true, 0⟩] := by
  have ho : sweptOps.Pairwise (·.time ≤ ·.time) := by decide
  have hw : (LimitStrategy.fixedWindow 3 10).IsWindow := trivial
  have hs : ∀ call, .ask call ∈ sweptOps → call.key = ⟨"r", "i"⟩ →
      call.strategy = .fixedWindow 3 10 := by
    simp [sweptOps, sweptCall]
  exact ⟨ho, congrArg (List.map Prod.snd) (answers_isolated rfl rfl ho hw hs)⟩

end Limiter

end Tollgate
