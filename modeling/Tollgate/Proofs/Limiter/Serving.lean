import Tollgate.Limiter

/-!
# A limiter at work

Calls on any number of keys, answered one after the other. A call changes the
slot of its own key only, and what it changes there depends on that slot's
meter alone.
-/

namespace Tollgate

structure LimiterCall where
  key : LimiterKey
  strategy : LimitStrategy
  units : Nat
  time : Time

abbrev Transcript := List (LimiterCall × Except LimiterFault Decision)

namespace Limiter

variable {l l' : Limiter} {k : LimiterKey} {call : LimiterCall}

def serve (l : Limiter) (call : LimiterCall) : Except LimiterFault Decision × Limiter :=
  l.acquire call.time call.key call.strategy call.units

def transcript (l : Limiter) : List LimiterCall → Transcript
  | [] => []
  | call :: calls => (call, (l.serve call).1) :: (l.serve call).2.transcript calls

def after (l : Limiter) : List LimiterCall → Limiter
  | [] => l
  | call :: calls => (l.serve call).2.after calls

theorem map_fst_transcript (calls : List LimiterCall) :
    (l.transcript calls).map Prod.fst = calls := by
  induction calls generalizing l with
  | nil => rfl
  | cons call calls ih => rw [transcript, List.map_cons, ih]

theorem transcript_append (calls later : List LimiterCall) :
    l.transcript (calls ++ later) = l.transcript calls ++ (l.after calls).transcript later := by
  induction calls generalizing l with
  | nil => rfl
  | cons call calls ih => exact congrArg (_ :: ·) ih

/-- Where a transcript is cut, the limiter has answered the calls before the cut. -/
theorem transcript_split {calls : List LimiterCall} {past rest : Transcript}
    (h : l.transcript calls = past ++ (call, answer) :: rest) :
    calls = past.map Prod.fst ++ call :: rest.map Prod.fst ∧
      l.transcript (past.map Prod.fst) = past ∧
      answer = ((l.after (past.map Prod.fst)).serve call).1 ∧
      ((l.after (past.map Prod.fst)).serve call).2.transcript (rest.map Prod.fst) = rest := by
  have hcalls : calls = past.map Prod.fst ++ call :: rest.map Prod.fst := by
    rw [← map_fst_transcript (l := l) calls, h, List.map_append, List.map_cons]
  have hlength : (l.transcript (past.map Prod.fst)).length = past.length := by
    rw [← List.length_map Prod.fst, map_fst_transcript, List.length_map]
  rw [hcalls, transcript_append, transcript] at h
  obtain ⟨hpast, hrest⟩ := List.append_inj h hlength
  obtain ⟨hanswer, hrest⟩ := List.cons.inj hrest
  exact ⟨hcalls, hpast, (congrArg Prod.snd hanswer).symm, hrest⟩

def meter? (l : Limiter) (k : LimiterKey) : Option Meter := (l.slots.get? k).bind (·.meter)

theorem serve_eq (hf : l.failing = false) :
    l.serve call =
      (.ok ((l.slots.getD call.key (.fresh call.time)).acquire call.strategy call.units
          call.time).1,
        { l with
          calls := l.calls + 1
          slots := l.slots.set call.key ((l.slots.getD call.key (.fresh call.time)).acquire
            call.strategy call.units call.time).2 }) := by
  simp [serve, acquire, hf]

theorem failing_serve (hf : l.failing = false) : (l.serve call).2.failing = false := by
  rw [serve_eq hf]
  exact hf

theorem get?_serve_of_ne (hf : l.failing = false) (hk : k ≠ call.key) :
    (l.serve call).2.slots.get? k = l.slots.get? k := by
  rw [serve_eq hf]
  simp [Dict.get?_set, hk]

/-- Limiters that agree on a key answer its calls alike. -/
theorem serve_congr (hf : l.failing = false) (hf' : l'.failing = false)
    (hk : l.slots.get? call.key = l'.slots.get? call.key) :
    (l.serve call).1 = (l'.serve call).1 ∧
      (l.serve call).2.slots.get? call.key = (l'.serve call).2.slots.get? call.key := by
  simp [serve_eq hf, serve_eq hf', Dict.getD, hk, Dict.get?_set]

theorem meter_getD (l : Limiter) (k : LimiterKey) (now : Time) :
    (l.slots.getD k (.fresh now)).meter = l.meter? k := by
  rw [Dict.getD, meter?]
  cases l.slots.get? k <;> rfl

theorem serve_sliding (hf : l.failing = false)
    (hs : call.strategy = .slidingWindow limit window) :
    (l.serve call).1 =
        .ok (Meter.acquireSliding (l.meter? call.key) limit window call.units call.time).1 ∧
      (l.serve call).2.meter? call.key =
        some (Meter.acquireSliding (l.meter? call.key) limit window call.units call.time).2 := by
  rw [serve_eq hf, hs]
  simp [LimiterSlot.acquire, meter?, Dict.get?_set, meter_getD l call.key]

theorem serve_fixed (hf : l.failing = false)
    (hs : call.strategy = .fixedWindow limit window) :
    (l.serve call).1 =
        .ok (Meter.acquireFixed (l.meter? call.key) limit window call.units call.time).1 ∧
      (l.serve call).2.meter? call.key =
        some (Meter.acquireFixed (l.meter? call.key) limit window call.units call.time).2 := by
  rw [serve_eq hf, hs]
  simp [LimiterSlot.acquire, meter?, Dict.get?_set, meter_getD l call.key]

end Limiter

namespace Transcript

def granted (k : LimiterKey) (t : Transcript) : List (Time × Nat) :=
  t.filterMap fun (call, answer) =>
    match answer with
    | .ok decision =>
      if call.key = k ∧ decision.allowed then some (call.time, call.units) else none
    | .error _ => none

theorem granted_cons_other {k : LimiterKey} (h : call.key ≠ k) (t : Transcript) :
    Transcript.granted k ((call, answer) :: t) = t.granted k := by
  cases answer <;> simp [granted, h]

theorem granted_cons_own (call : LimiterCall) (decision : Decision) (t : Transcript) :
    Transcript.granted call.key ((call, .ok decision) :: t) =
      (if decision.allowed then [(call.time, call.units)] else []) ++ t.granted call.key := by
  cases h : decision.allowed <;> simp [granted, h]

end Transcript

end Tollgate
