import Mathlib.Algebra.BigOperators.Group.Finset.Basic
import Mathlib.Algebra.Order.BigOperators.Group.List
import Mathlib.Algebra.Order.Floor.Div
import Mathlib.Order.Interval.Finset.Nat
import Tollgate.Proofs.Routing.Draws

/-!
# Draws are fair

A word that is accepted falls on one of the numbers below the bound, and on
each of them as many words fall as on any other (`card_fallsOn`): those whose
multiples of the bound lie in one stretch, which is a whole multiple of the
bound long. So the words that lead to a place are in proportion to its weight
(`pick_proportional`).
-/

namespace Tollgate

namespace RandomSource

variable {total word n m k : Nat}

def leadingZeros (total : Nat) : Nat := 63 - Nat.log2 total

theorem leadingZeros_bounds (hpos : 0 < total) (hsize : total < UInt64.size) :
    2 ^ 63 ≤ total * 2 ^ leadingZeros total ∧ total * 2 ^ leadingZeros total < 2 ^ 64 := by
  have hlog : Nat.log2 total ≤ 63 := by
    have : Nat.log2 total < 64 := (Nat.log2_lt (Nat.ne_of_gt hpos)).mpr hsize
    omega
  have hlow := Nat.log2_self_le (Nat.ne_of_gt hpos)
  have hhigh : total < 2 ^ (Nat.log2 total + 1) := Nat.lt_log2_self
  have hsum : Nat.log2 total + leadingZeros total = 63 := by
    unfold leadingZeros
    omega
  constructor
  · calc 2 ^ 63 = 2 ^ Nat.log2 total * 2 ^ leadingZeros total := by rw [← Nat.pow_add, hsum]
      _ ≤ total * 2 ^ leadingZeros total := Nat.mul_le_mul_right _ hlow
  · calc total * 2 ^ leadingZeros total
        < 2 ^ (Nat.log2 total + 1) * 2 ^ leadingZeros total :=
          Nat.mul_lt_mul_of_pos_right hhigh (Nat.two_pow_pos _)
      _ = 2 ^ 64 := by
          rw [← Nat.pow_add]
          congr 1
          omega

theorem accepts_iff (hpos : 0 < total) :
    accepts total word = true ↔
      word * total % UInt64.size < total * 2 ^ leadingZeros total := by
  have hzone : zone total = total * 2 ^ leadingZeros total - 1 := by
    rw [zone, Nat.shiftLeft_eq, leadingZeros]
  have hscaled : 0 < total * 2 ^ leadingZeros total := Nat.mul_pos hpos (Nat.two_pow_pos _)
  rw [accepts, decide_eq_true_iff, hzone]
  omega

/-- The least word whose multiple of the bound is not below a number's stretch. -/
def firstOn (total n : Nat) : Nat := n * UInt64.size ⌈/⌉ total

theorem firstOn_add_le (hpos : 0 < total) :
    firstOn total n + k ≤ word ↔ n * UInt64.size + total * k ≤ word * total := by
  by_cases hk : k ≤ word
  · obtain ⟨m, rfl⟩ := Nat.exists_eq_add_of_le hk
    have hm : firstOn total n ≤ m ↔ n * UInt64.size ≤ total * m := by
      rw [firstOn, ceilDiv_le_iff_le_mul hpos]
    rw [Nat.add_comm, Nat.add_le_add_iff_left, hm, Nat.add_mul, Nat.mul_comm k, Nat.mul_comm m,
      Nat.add_comm (total * k), Nat.add_le_add_iff_right]
  · refine iff_of_false (by omega) fun h => hk ?_
    refine Nat.le_of_mul_le_mul_left ?_ hpos
    rw [Nat.mul_comm total word]
    exact Nat.le_trans (Nat.le_add_left _ _) h

/-- The words that fall on a number early in its stretch follow one another. -/
theorem fallsOn_iff (hpos : 0 < total) (hk : total * k ≤ UInt64.size) (hn : n < total) :
    (word < UInt64.size ∧ word * total % UInt64.size < total * k ∧
        word * total / UInt64.size = n) ↔
      firstOn total n ≤ word ∧ word < firstOn total n + k := by
  have hfirst : firstOn total n ≤ word ↔ n * UInt64.size ≤ word * total := by
    simpa using firstOn_add_le (k := 0) hpos
  have hlast : word < firstOn total n + k ↔ word * total < n * UInt64.size + total * k := by
    rw [← Nat.not_le, firstOn_add_le hpos, Nat.not_le]
  rw [hfirst, hlast]
  constructor
  · rintro ⟨-, hlow, hstretch⟩
    have hword := Nat.div_add_mod' (word * total) UInt64.size
    rw [hstretch] at hword
    omega
  · rintro ⟨hfrom, hto⟩
    have hstretch : word * total / UInt64.size = n :=
      Nat.div_eq_of_lt_le hfrom (by rw [Nat.add_mul]; omega)
    have hword := Nat.div_add_mod' (word * total) UInt64.size
    rw [hstretch] at hword
    refine ⟨?_, by omega, hstretch⟩
    -- The last stretch ends where the multiple of the first number that is no word begins.
    refine Nat.lt_of_mul_lt_mul_right (a := total) ?_
    calc word * total < n * UInt64.size + UInt64.size := by omega
      _ = (n + 1) * UInt64.size := by rw [Nat.add_mul, Nat.one_mul]
      _ ≤ total * UInt64.size := Nat.mul_le_mul_right _ hn
      _ = UInt64.size * total := Nat.mul_comm _ _

def fallsOn (total n : Nat) : Finset Nat :=
  (Finset.range UInt64.size).filter fun word =>
    accepts total word ∧ word * total / UInt64.size = n

theorem disjoint_fallsOn (h : n ≠ m) : Disjoint (fallsOn total n) (fallsOn total m) := by
  rw [Finset.disjoint_left]
  intro word hn hm
  simp only [fallsOn, Finset.mem_filter] at hn hm
  exact h (hn.2.2.symm.trans hm.2.2)

theorem card_fallsOn (hsize : total < UInt64.size) (hn : n < total) :
    (fallsOn total n).card = 2 ^ leadingZeros total := by
  have hpos : 0 < total := Nat.zero_lt_of_lt hn
  have hfits : total * 2 ^ leadingZeros total ≤ UInt64.size :=
    Nat.le_of_lt (leadingZeros_bounds hpos hsize).2
  have hfalls : fallsOn total n =
      Finset.Ico (firstOn total n) (firstOn total n + 2 ^ leadingZeros total) := by
    ext word
    rw [fallsOn, Finset.mem_filter, Finset.mem_range, Finset.mem_Ico, accepts_iff hpos,
      fallsOn_iff hpos hfits hn]
  rw [hfalls, Nat.card_Ico, Nat.add_sub_cancel_left]

theorem below_accepted (h : accepts total word = true) (hw : word < UInt64.size)
    (rest : List UInt64) (drawn : Nat) :
    RandomSource.below ⟨UInt64.ofNat word :: rest, drawn⟩ total =
      (word * total / UInt64.size, ⟨rest, drawn + 1⟩) := by
  have hword : (UInt64.ofNat word).toNat = word := UInt64.toNat_ofNat_of_lt hw
  simp [below, drawFrom, taken, hword, h]

theorem below_rejected (h : accepts total word = false) (hw : word < UInt64.size)
    (rest : List UInt64) (drawn : Nat) :
    RandomSource.below ⟨UInt64.ofNat word :: rest, drawn⟩ total =
      RandomSource.below ⟨rest, drawn + 1⟩ total := by
  have hword : (UInt64.ofNat word).toNat = word := UInt64.toNat_ofNat_of_lt hw
  simp [below, drawFrom, taken, hword, h, Nat.add_assoc, Nat.add_comm 1]

end RandomSource

namespace Weights

open RandomSource (accepts fallsOn leadingZeros leadingZeros_bounds card_fallsOn
  disjoint_fallsOn below_accepted below_rejected)

variable {ws : List Nat} {i w : Nat}

theorem pick_of_ne_zero (hsize : ws.sum < UInt64.size) (h : ws.sum ≠ 0) (r : RandomSource) :
    pick ws r = (place? (r.below ws.sum).1 ws, (r.below ws.sum).2) := by
  rw [pick, total_eq_sum hsize, if_neg h]

def leadTo (ws : List Nat) (rest : List UInt64) (drawn i : Nat) : Finset Nat :=
  (Finset.range UInt64.size).filter fun word =>
    accepts ws.sum word ∧ (pick ws ⟨UInt64.ofNat word :: rest, drawn⟩).1 = some i

theorem sum_take_succ (hw : ws[i]? = some w) : (ws.take (i + 1)).sum = (ws.take i).sum + w := by
  obtain ⟨hi, rfl⟩ := List.getElem?_eq_some_iff.mp hw
  rw [List.take_succ_eq_append_getElem hi, List.sum_append, List.sum_singleton]

theorem sum_take_le (ws : List Nat) (i : Nat) : (ws.take i).sum ≤ ws.sum :=
  (List.take_sublist i ws).sum_le_sum fun _ _ => Nat.zero_le _

theorem leadTo_eq (hsize : ws.sum < UInt64.size) (h : ws.sum ≠ 0) (hi : i < ws.length)
    (rest : List UInt64) (drawn : Nat) :
    leadTo ws rest drawn i =
      (Finset.Ico (ws.take i).sum (ws.take (i + 1)).sum).biUnion (fallsOn ws.sum) := by
  ext word
  simp only [leadTo, fallsOn, Finset.mem_filter, Finset.mem_range, Finset.mem_biUnion,
    Finset.mem_Ico]
  constructor
  · rintro ⟨hword, haccepts, hpick⟩
    rw [pick_of_ne_zero hsize h, below_accepted haccepts hword] at hpick
    obtain ⟨-, hfrom, hto⟩ := place?_eq_some.mp hpick
    exact ⟨_, ⟨hfrom, hto⟩, hword, haccepts, rfl⟩
  · rintro ⟨n, ⟨hfrom, hto⟩, hword, haccepts, rfl⟩
    refine ⟨hword, haccepts, ?_⟩
    rw [pick_of_ne_zero hsize h, below_accepted haccepts hword]
    exact place?_eq_some.mpr ⟨hi, hfrom, hto⟩

theorem card_leadTo (hsize : ws.sum < UInt64.size) (hw : ws[i]? = some w) (rest : List UInt64)
    (drawn : Nat) : (leadTo ws rest drawn i).card = w * 2 ^ leadingZeros ws.sum := by
  have hsucc := sum_take_succ hw
  have hle := sum_take_le ws (i + 1)
  by_cases h : ws.sum = 0
  · -- Nothing is picked, and the place has no weight.
    obtain rfl : w = 0 := by omega
    rw [Nat.zero_mul, Finset.card_eq_zero, leadTo, Finset.filter_eq_empty_iff]
    intro word _ hpick
    rw [pick_of_zero h] at hpick
    cases hpick.2
  · have hi : i < ws.length := (List.getElem?_eq_some_iff.mp hw).1
    rw [leadTo_eq hsize h hi, Finset.card_biUnion]
    · rw [Finset.sum_congr rfl fun n hn => card_fallsOn hsize (n := n) ?_]
      · rw [Finset.sum_const, Nat.card_Ico, smul_eq_mul]
        congr 1
        omega
      · have := (Finset.mem_Ico.mp hn).2
        omega
    · intro n _ m _ hne
      exact disjoint_fallsOn hne

/-- A pick finds the one place whose share of the sum the drawn number lies in, which is never a
place without weight; it finds none, and draws nothing, only where there is no weight at all. Of
the words that a draw accepts, each place has as many as its weight times the same power of two;
the others are passed over. -/
theorem pick_proportional (hsize : ws.sum < UInt64.size) :
    (∀ r, ((pick ws r).1 = none ↔ ws.sum = 0) ∧ (ws.sum = 0 → (pick ws r).2 = r)) ∧
    (0 < ws.sum → ∀ r : RandomSource,
      (r.below ws.sum).1 < ws.sum ∧
      ∃ i, pick ws r = (some i, (r.below ws.sum).2) ∧ (∃ w, ws[i]? = some w ∧ 0 < w) ∧
        ∀ j, j < ws.length ∧ (ws.take j).sum ≤ (r.below ws.sum).1 ∧
          (r.below ws.sum).1 < (ws.take (j + 1)).sum ↔ j = i) ∧
    (0 < ws.sum → ∀ word < UInt64.size, ∀ rest drawn,
      (accepts ws.sum word = true ↔
        word * ws.sum % UInt64.size ≤ ws.sum <<< leadingZeros ws.sum - 1) ∧
      RandomSource.below ⟨UInt64.ofNat word :: rest, drawn⟩ ws.sum =
        if accepts ws.sum word then (word * ws.sum / UInt64.size, ⟨rest, drawn + 1⟩)
        else RandomSource.below ⟨rest, drawn + 1⟩ ws.sum) ∧
    (0 < ws.sum → 2 ^ 63 ≤ ws.sum * 2 ^ leadingZeros ws.sum ∧
      ws.sum * 2 ^ leadingZeros ws.sum < 2 ^ 64) ∧
    ∀ i w, ws[i]? = some w → ∀ rest drawn,
      (leadTo ws rest drawn i).card = w * 2 ^ leadingZeros ws.sum := by
  refine ⟨fun r => ?_, fun hpos r => ?_, fun hpos word hw rest drawn => ?_,
    fun hpos => leadingZeros_bounds hpos hsize, fun i w hw rest drawn => ?_⟩
  · by_cases h : ws.sum = 0
    · rw [pick_of_zero h]
      exact ⟨iff_of_true rfl h, fun _ => rfl⟩
    · obtain ⟨i, w, -, -, hpick⟩ := pick_of_pos (Nat.pos_of_ne_zero h) hsize r
      rw [hpick]
      exact ⟨iff_of_false nofun h, fun hz => absurd hz h⟩
  · obtain ⟨i, w, hw, hwpos, hpick⟩ := pick_of_pos hpos hsize r
    refine ⟨r.below_lt hpos, i, hpick, ⟨w, hw, hwpos⟩, fun j => ?_⟩
    have hplace : place? (r.below ws.sum).1 ws = some i := by
      rw [pick_of_ne_zero hsize (Nat.ne_of_gt hpos)] at hpick
      exact (Prod.mk.inj hpick).1
    rw [← place?_eq_some, hplace, Option.some_inj, eq_comm]
  · refine ⟨decide_eq_true_iff, ?_⟩
    cases haccepts : accepts ws.sum word with
    | true => exact below_accepted haccepts hw rest drawn
    | false => exact below_rejected haccepts hw rest drawn
  · exact card_leadTo hsize hw rest drawn

/-- A place without weight between two others, and a sum that is a power of two. -/
theorem pick_proportional_idle :
    [3, 0, 5].sum < UInt64.size ∧ (leadTo [3, 0, 5] [] 0 0).card = 3 * 2 ^ 60 ∧
      (leadTo [3, 0, 5] [] 0 1).card = 0 ∧ (leadTo [3, 0, 5] [] 0 2).card = 5 * 2 ^ 60 := by
  have hsize : [3, 0, 5].sum < UInt64.size := by decide
  have hcard := (pick_proportional hsize).2.2.2.2
  exact ⟨hsize, hcard 0 3 rfl [] 0, (hcard 1 0 rfl [] 0).trans (Nat.zero_mul _),
    hcard 2 5 rfl [] 0⟩

end Weights

end Tollgate
