import Mathlib.Data.Rat.Floor

/-!
# Conversions of doubles

A `double` is an exact number here. What it is converted to is cut off towards zero.
-/

namespace Vde

/-- A `double` stored in a `long long`. -/
def truncate (x : ℚ) : Int := x.num.tdiv x.den

/-- A `double` converted to `unsigned int`: the low half of the conversion to 64 bits, which has none where the
number is out of range. -/
def toUnsigned (x : ℚ) : Nat := if x < 9223372036854775808 then (truncate x % 4294967296).toNat else 0

def doubleToInt (x : ℚ) : Int := if -2147483649 < x ∧ x < 2147483648 then truncate x else -2147483648

lemma truncate_of_pos {x : ℚ} (hx : 0 < x) : truncate x = ⌊x⌋ := by
  rw [truncate, Rat.floor_def', Int.tdiv_eq_ediv_of_nonneg (Rat.num_nonneg.mpr hx.le)]

end Vde
