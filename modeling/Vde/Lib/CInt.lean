import Mathlib.Algebra.Ring.Int.Defs

/-!
# C integers

Values of the type `int`, as two's complement numbers of 32 bits, and their conversion to a
`size_t` of 64 bits. Other signed integers have 64 bits.
-/

namespace Vde

def toInt32 (x : Int) : Int := Int.bmod x 4294967296

/-- A value stored in a signed integer of 64 bits, such as a `time_t`. -/
def toInt64 (x : Int) : Int := Int.bmod x 18446744073709551616

def toSize (x : Int) : Nat := (x % 18446744073709551616).toNat

def ptrdiffMax : Nat := 9223372036854775807

lemma toInt32_eq {x : Int} (h0 : -2147483648 ≤ x) (h1 : x < 2147483648) : toInt32 x = x := by
  rw [toInt32]
  exact Int.bmod_eq_of_le (by omega) (by omega)

lemma toInt32_of_lt {n : Nat} (h : n < 2147483648) : toInt32 n = n := toInt32_eq (by omega) (by omega)

lemma toInt32_lt (x : Int) : toInt32 x < 2147483648 := by
  have h := Int.bmod_lt (x := x) (m := 4294967296) (by decide)
  rw [toInt32]
  omega

lemma le_toInt32 (x : Int) : -2147483648 ≤ toInt32 x := by
  have h := Int.le_bmod (x := x) (m := 4294967296) (by decide)
  rw [toInt32]
  omega

lemma toInt32_congr (x : Int) : ∃ k, toInt32 x = x + 4294967296 * k := by
  obtain ⟨k, hk⟩ := Int.dvd_bmod_sub_self (x := x) (m := 4294967296)
  exact ⟨k, by rw [toInt32]; omega⟩

lemma toInt32_le {x : Int} (h : 0 ≤ x) : toInt32 x ≤ x := by
  obtain ⟨k, hk⟩ := toInt32_congr x
  have hlt := toInt32_lt x
  omega

lemma toInt64_eq {x : Int} (h0 : 0 ≤ x) (h1 : x < 9223372036854775808) : toInt64 x = x := by
  rw [toInt64]
  exact Int.bmod_eq_of_le (by omega) (by omega)

lemma toSize_of_nonneg {x : Int} (h0 : 0 ≤ x) (h1 : x < 18446744073709551616) : toSize x = x.toNat := by
  rw [toSize, Int.emod_eq_of_lt h0 h1]

end Vde
