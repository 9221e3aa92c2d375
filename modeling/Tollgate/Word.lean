/-!
# Signed 64-bit quantities

Balances and counters are signed 64-bit words. In memory their sums wrap;
products that only serve a comparison saturate. `wrap_eq_self` is the fact
that lets a proof forget the wrapping: within the range nothing wraps.
-/

namespace Tollgate.Word

def least : Int := -9223372036854775808
def greatest : Int := 9223372036854775807

def Fits (n : Int) : Prop := least ≤ n ∧ n ≤ greatest

instance (n : Int) : Decidable (Fits n) := inferInstanceAs (Decidable (_ ∧ _))

theorem Fits.sub {n amount : Int} (hw : Fits n) (ha : 0 ≤ amount) (hle : amount ≤ n) :
    Fits (n - amount) := by
  simp only [Fits, least, greatest] at hw ⊢
  omega

def wrap (n : Int) : Int := Int.bmod n 18446744073709551616

theorem wrap_eq_self {n : Int} (h : Fits n) : wrap n = n := by
  simp only [Fits, least, greatest] at h
  rw [wrap, Int.bmod_eq_of_le] <;> omega

def saturate (n : Int) : Int := max least (min greatest n)

end Tollgate.Word
