import Mathlib.Algebra.GroupWithZero.Nat
import Tollgate.Routing.Draw

/-!
# Draws fall on weights

A bounded draw stays below its bound, so a draw below the sum of the weights
finds the one place whose share of the sum it falls on, and that place has a
positive weight (`pick_of_pos`).
-/

namespace Tollgate

namespace RandomSource

theorem drawFrom_lt (h : 0 < total) (words : List UInt64) : (drawFrom total words).1 < total := by
  induction words with
  | nil => exact h
  | cons w rest ih =>
    rw [drawFrom]
    split
    · exact Nat.div_lt_of_lt_mul (Nat.mul_lt_mul_of_pos_right w.toNat_lt_size h)
    · exact ih

theorem below_lt (r : RandomSource) (h : 0 < total) : (r.below total).1 < total :=
  drawFrom_lt h r.words

end RandomSource

namespace Weights

theorem total_eq_sum (h : ws.sum < UInt64.size) : total ws = ws.sum := Nat.mod_eq_of_lt h

/-- The place that `n` falls on is the one whose share of the sum `n` lies in. -/
theorem place?_eq_some {ws : List Nat} :
    place? n ws = some i ↔
      i < ws.length ∧ (ws.take i).sum ≤ n ∧ n < (ws.take (i + 1)).sum := by
  induction ws generalizing n i with
  | nil => simp [place?]
  | cons w ws ih =>
    rw [place?]
    by_cases hn : n < w
    · rw [if_pos hn]
      cases i with
      | zero => simp [hn]
      | succ i => simp; omega
    · rw [if_neg hn]
      cases i with
      | zero => simp; omega
      | succ i =>
        rw [Option.map_eq_some_iff]
        simp only [Nat.add_right_cancel_iff, exists_eq_right, ih, List.length_cons,
          List.take_succ_cons, List.sum_cons]
        omega

theorem place?_isSome (h : n < ws.sum) : (place? n ws).isSome := by
  induction ws generalizing n with
  | nil => cases h
  | cons w ws ih =>
    rw [place?]
    split
    · rfl
    · rw [List.sum_cons] at h
      rw [Option.isSome_map]
      exact ih (by omega)

theorem weight_of_place? (h : place? n ws = some i) : ∃ w, ws[i]? = some w ∧ 0 < w := by
  obtain ⟨hi, hle, hlt⟩ := place?_eq_some.mp h
  refine ⟨ws[i], List.getElem?_eq_getElem hi, ?_⟩
  rw [List.take_succ_eq_append_getElem hi, List.sum_append, List.sum_singleton] at hlt
  omega

theorem pick_of_zero (h : ws.sum = 0) (r : RandomSource) : pick ws r = (none, r) := by
  rw [pick, if_pos]
  rw [total_eq_sum (by rw [h]; decide), h]

/-- A positive sum is drawn below once, and the draw finds a place of positive weight. -/
theorem pick_of_pos (hpos : 0 < ws.sum) (hsize : ws.sum < UInt64.size) (r : RandomSource) :
    ∃ i w, ws[i]? = some w ∧ 0 < w ∧ pick ws r = (some i, (r.below ws.sum).2) := by
  have htotal := total_eq_sum hsize
  obtain ⟨i, hi⟩ := Option.isSome_iff_exists.mp (place?_isSome (r.below_lt hpos))
  obtain ⟨w, hw, hw'⟩ := weight_of_place? hi
  refine ⟨i, w, hw, hw', ?_⟩
  rw [pick, htotal, if_neg (Nat.ne_of_gt hpos)]
  exact congrArg (·, _) hi

end Weights

end Tollgate
