import Tollgate.Text.Blank
import Tollgate.Text.Integer

/-!
# Integers read back

The digits that an integer is written with are read as that integer, and no
white space is among them. So no two integers are written alike. Digits are
those that their number is written with if no zero leads them.
-/

namespace Tollgate.Text

theorem foldDigits_eq (n : Nat) (cs : List Char) : foldDigits n cs = Nat.ofDigitChars 10 cs n := by
  induction cs generalizing n with
  | nil => rw [foldDigits.eq_def, Nat.ofDigitChars_nil]
  | cons c cs ih =>
    rw [foldDigits.eq_def]
    exact (ih _).trans (by rw [Nat.ofDigitChars_cons, Nat.mul_comm, digitValue])

theorem natOfDigits_toDigits (n : Nat) : natOfDigits (Nat.toDigits 10 n) = n := by
  rw [natOfDigits, foldDigits_eq, Nat.ofDigitChars_ten_toDigits]

theorem isDigit_of_mem_toDigits {n : Nat} (h : c ∈ Nat.toDigits 10 n) : isDigit c = true :=
  Nat.isDigit_of_mem_toDigits (by decide) (by decide) h

theorem toNat_of_isDigit (h : isDigit c = true) : 48 ≤ c.toNat ∧ c.toNat ≤ 57 := by
  simpa [isDigit, Char.le_def, UInt32.le_iff_toNat_le] using h

theorem digitValue_lt (h : isDigit c = true) : digitValue c < 10 := by
  have hc := toNat_of_isDigit h
  have hzero : '0'.toNat = 48 := rfl
  rw [digitValue, hzero]
  omega

theorem digitChar_digitValue (h : isDigit c = true) : Nat.digitChar (digitValue c) = c := by
  have hc := toNat_of_isDigit h
  have hzero : '0'.toNat = 48 := rfl
  apply Char.toNat_inj.mp
  rw [Nat.toNat_digitChar_of_lt_ten (digitValue_lt h), digitValue, hzero]
  omega

theorem toDigits_foldDigits {n : Nat} (hn : 0 < n) (hcs : ∀ c ∈ cs, isDigit c = true) :
    Nat.toDigits 10 (foldDigits n cs) = Nat.toDigits 10 n ++ cs := by
  induction cs generalizing n with
  | nil => rw [foldDigits.eq_def, List.append_nil]
  | cons c cs ih =>
    obtain ⟨hc, hcs⟩ := List.forall_mem_cons.mp hcs
    have hlt := digitValue_lt hc
    calc Nat.toDigits 10 (foldDigits (n * 10 + digitValue c) cs)
        = Nat.toDigits 10 (n * 10 + digitValue c) ++ cs := ih (by omega) hcs
      _ = Nat.toDigits 10 n ++ [c] ++ cs := by
        rw [Nat.mul_comm, ← Nat.toDigits_append_toDigits (by decide) hn hlt,
          Nat.toDigits_of_lt_base hlt, digitChar_digitValue hc]
      _ = Nat.toDigits 10 n ++ c :: cs := by simp

theorem toDigits_natOfDigits (hcs : ∀ d ∈ c :: cs, isDigit d = true) (hzero : c ≠ '0') :
    Nat.toDigits 10 (natOfDigits (c :: cs)) = c :: cs := by
  obtain ⟨hc, hcs⟩ := List.forall_mem_cons.mp hcs
  have hpos : 0 < digitValue c := Nat.pos_of_ne_zero fun h => hzero <| by
    rw [← digitChar_digitValue hc, h]
    rfl
  calc Nat.toDigits 10 (foldDigits (0 * 10 + digitValue c) cs)
      = Nat.toDigits 10 (digitValue c) ++ cs := by
        rw [Nat.zero_mul, Nat.zero_add, toDigits_foldDigits hpos hcs]
    _ = c :: cs := by
        rw [Nat.toDigits_of_lt_base (digitValue_lt hc), digitChar_digitValue hc,
          List.singleton_append]

theorem readDigits?_toDigits (n : Nat) : readDigits? (Nat.toDigits 10 n) = some n := by
  rw [readDigits?, if_pos, natOfDigits_toDigits]
  exact ⟨Nat.toDigits_ne_nil, List.all_eq_true.mpr fun _ hc => isDigit_of_mem_toDigits hc⟩

/-- The characters of an integer: a sign where it is negative, then digits. -/
theorem toList_toString (n : Int) :
    (toString n).toList =
      if n < 0 then '-' :: Nat.toDigits 10 n.natAbs else Nat.toDigits 10 n.natAbs := by
  cases n with
  | ofNat m =>
    have hm : ¬Int.ofNat m < 0 := Int.not_lt.mpr (Int.natCast_nonneg m)
    rw [if_neg hm]
    exact Nat.toList_repr
  | negSucc m =>
    rw [if_pos (Int.negSucc_lt_zero m)]
    show ("-" ++ Nat.repr (m + 1)).toList = _
    rw [String.toList_append, Nat.toList_repr]
    rfl

theorem readSigned?_digits (hd : ∀ c ∈ cs, isDigit c = true) (h : readDigits? cs = some n) :
    readSigned? cs = some (n : Int) := by
  rw [readSigned?.eq_def]
  split
  · have := hd '-' (List.mem_cons_self ..)
    simp [isDigit] at this
  · have := hd '+' (List.mem_cons_self ..)
    simp [isDigit] at this
  · rw [h]
    rfl

theorem readSigned?_toDigits (n : Nat) : readSigned? (Nat.toDigits 10 n) = some (n : Int) :=
  readSigned?_digits (fun _ hc => isDigit_of_mem_toDigits hc) (readDigits?_toDigits n)

theorem readSigned?_toString (n : Int) : readSigned? (toString n).toList = some n := by
  rw [toList_toString]
  split
  · next h =>
    rw [readSigned?, readDigits?_toDigits]
    show some (-(n.natAbs : Int)) = some n
    exact congrArg some (by omega)
  · next h =>
    rw [readSigned?_toDigits]
    exact congrArg some (by omega)

theorem toString_injective {m n : Int} (h : toString m = toString n) : m = n := by
  have hm := readSigned?_toString m
  rw [h, readSigned?_toString] at hm
  exact (Option.some.inj hm).symm

-- ---------------------------------------------------------------------------
-- White space
-- ---------------------------------------------------------------------------

theorem trimChars_around {before cs after : List Char} (hb : ∀ c ∈ before, isBlank c = true)
    (hcs : ∀ c ∈ cs, isBlank c = false) (ha : ∀ c ∈ after, isBlank c = true) :
    trimChars (before ++ (cs ++ after)) = cs := by
  rw [trimChars, List.dropWhile_append_of_pos hb]
  cases cs with
  | nil =>
    have hafter : after.dropWhile isBlank = [] := by
      rw [← List.append_nil after, List.dropWhile_append_of_pos ha]
      rfl
    rw [List.nil_append, hafter]
    rfl
  | cons c cs =>
    have hfirst : isBlank c = false := hcs c (List.mem_cons_self ..)
    have hlast : (c :: cs).reverse.dropWhile isBlank = (c :: cs).reverse := by
      obtain ⟨last, rest, hrev⟩ := List.exists_cons_of_ne_nil (l := (c :: cs).reverse) (by simp)
      have hmem : last ∈ c :: cs := List.mem_reverse.mp (hrev ▸ List.mem_cons_self ..)
      rw [hrev, List.dropWhile_cons_of_neg (by simp [hcs last hmem])]
    rw [List.cons_append, List.dropWhile_cons_of_neg (by simp [hfirst]), ← List.cons_append,
      List.reverse_append,
      List.dropWhile_append_of_pos fun x hx => ha x (List.mem_reverse.mp hx), hlast,
      List.reverse_reverse]

theorem trimChars_eq_self {cs : List Char} (h : ∀ c ∈ cs, isBlank c = false) :
    trimChars cs = cs := by
  simpa using @trimChars_around [] cs [] nofun h nofun

theorem isBlank_of_isDigit (h : isDigit c = true) : isBlank c = false := by
  have hc := toNat_of_isDigit h
  simp [isBlank]
  omega

theorem isBlank_of_mem_toString {n : Int} (h : c ∈ (toString n).toList) : isBlank c = false := by
  rw [toList_toString] at h
  split at h
  · rcases List.mem_cons.mp h with rfl | h
    · rfl
    · exact isBlank_of_isDigit (isDigit_of_mem_toDigits h)
  · exact isBlank_of_isDigit (isDigit_of_mem_toDigits h)

end Tollgate.Text
