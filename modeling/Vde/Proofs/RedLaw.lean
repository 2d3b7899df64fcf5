import Mathlib.Tactic.FieldSimp
import Mathlib.Tactic.Linarith
import Mathlib.Tactic.Ring
import Vde.RouterQueue

/-!
# The probability of random early detection

Between the minimum and the maximum the probability to drop a packet should grow along a line from 0 to `P`. The
formula of `qred_may_enqueue` divides only the minimum by the width of this range.
-/

namespace Vde

def RedChoice.dropProbability : RedChoice → ℚ
  | accept => 0
  | draw p => p
  | drop => 1

def redProbability (min max : BitVec 32) (P : ℚ) (limit size : BitVec 32) : ℚ :=
  (redChoice min max P limit size).dropProbability

def redLaw (min max : BitVec 32) (P : ℚ) (limit size : BitVec 32) : ℚ :=
  if size < min then 0
  else if size < max then P * ((size.toNat : ℚ) - min.toNat) / ((max.toNat : ℚ) - min.toNat)
  else if size < limit then P
  else 1

structure RedSettings where
  min : BitVec 32
  max : BitVec 32
  P : ℚ
  limit : BitVec 32
  min_lt : min < max
  max_le : max ≤ limit
  P_nonneg : 0 ≤ P
  P_le : P ≤ 1

namespace RedSettings

def probability (r : RedSettings) (size : BitVec 32) : ℚ := redProbability r.min r.max r.P r.limit size

def law (r : RedSettings) (size : BitVec 32) : ℚ := redLaw r.min r.max r.P r.limit size

/-- The policy keeps the law for all sizes of the queue, and so a fuller queue drops no less, and at most with `P` below
the limit. -/
structure Kept (r : RedSettings) : Prop where
  law : ∀ size, r.probability size = r.law size
  mono : ∀ size size', size ≤ size' → r.probability size ≤ r.probability size'
  bounded : ∀ size < r.limit, r.probability size ≤ r.P

variable {r : RedSettings} {size size' : BitVec 32}

lemma width_pos (r : RedSettings) : (0 : ℚ) < (r.max.toNat : ℚ) - r.min.toNat := by
  have hlt : r.min.toNat < r.max.toNat := r.min_lt
  exact sub_pos.mpr (by exact_mod_cast hlt)

/-! ### The law -/

lemma law_below (h : size < r.min) : r.law size = 0 := by rw [law, redLaw, if_pos h]

lemma law_slope (hmin : r.min ≤ size) (hmax : size < r.max) :
    r.law size = r.P * ((size.toNat : ℚ) - r.min.toNat) / ((r.max.toNat : ℚ) - r.min.toNat) := by
  rw [law, redLaw, if_neg (BitVec.not_lt.mpr hmin), if_pos hmax]

lemma law_flat (hmax : r.max ≤ size) (hlimit : size < r.limit) : r.law size = r.P := by
  have hmin : ¬size < r.min := BitVec.not_lt.mpr (BitVec.le_of_lt (Nat.lt_of_lt_of_le r.min_lt hmax))
  rw [law, redLaw, if_neg hmin, if_neg (BitVec.not_lt.mpr hmax), if_pos hlimit]

lemma law_full (hlimit : r.limit ≤ size) : r.law size = 1 := by
  have hmax : r.max ≤ size := BitVec.le_trans r.max_le hlimit
  have hmin : ¬size < r.min := BitVec.not_lt.mpr (BitVec.le_of_lt (Nat.lt_of_lt_of_le r.min_lt hmax))
  rw [law, redLaw, if_neg hmin, if_neg (BitVec.not_lt.mpr hmax), if_neg (BitVec.not_lt.mpr hlimit)]

lemma size_cases (r : RedSettings) (size : BitVec 32) :
    size < r.min ∨ (r.min ≤ size ∧ size < r.max) ∨ (r.max ≤ size ∧ size < r.limit) ∨ r.limit ≤ size := by
  simp only [BitVec.lt_def, BitVec.le_def]
  omega

lemma law_le (r : RedSettings) (h : size < r.limit) : r.law size ≤ r.P := by
  have hwidth := r.width_pos
  rcases r.size_cases size with hmin | ⟨hmin, hmax⟩ | ⟨hmax, -⟩ | hlimit
  · rw [law_below hmin]
    exact r.P_nonneg
  · have hle : (size.toNat : ℚ) ≤ r.max.toNat := by exact_mod_cast (BitVec.lt_def.mp hmax).le
    rw [law_slope hmin hmax, div_le_iff₀ hwidth]
    exact mul_le_mul_of_nonneg_left (by linarith) r.P_nonneg
  · rw [law_flat hmax h]
  · exact absurd h (BitVec.not_lt.mpr hlimit)

lemma law_nonneg (r : RedSettings) (size : BitVec 32) : 0 ≤ r.law size := by
  have hwidth := r.width_pos
  rcases r.size_cases size with hmin | ⟨hmin, hmax⟩ | ⟨hmax, hlimit⟩ | hlimit
  · rw [law_below hmin]
  · have hle : (r.min.toNat : ℚ) ≤ size.toNat := by exact_mod_cast hmin
    rw [law_slope hmin hmax]
    exact div_nonneg (mul_nonneg r.P_nonneg (by linarith)) hwidth.le
  · rw [law_flat hmax hlimit]
    exact r.P_nonneg
  · rw [law_full hlimit]
    exact zero_le_one

lemma law_le_one (r : RedSettings) (size : BitVec 32) : r.law size ≤ 1 := by
  by_cases hlimit : size < r.limit
  · exact (r.law_le hlimit).trans r.P_le
  · rw [law_full (BitVec.not_lt.mp hlimit)]

lemma law_mono (r : RedSettings) (h : size ≤ size') : r.law size ≤ r.law size' := by
  rcases r.size_cases size' with hmin | ⟨hmin, hmax⟩ | ⟨hmax, hlimit⟩ | hlimit
  · rw [law_below hmin, law_below (Nat.lt_of_le_of_lt h hmin)]
  · by_cases hbelow : size < r.min
    · rw [law_below hbelow]
      exact r.law_nonneg size'
    have hle : (size.toNat : ℚ) ≤ size'.toNat := by exact_mod_cast h
    rw [law_slope hmin hmax, law_slope (BitVec.not_lt.mp hbelow) (Nat.lt_of_le_of_lt h hmax)]
    apply div_le_div_of_nonneg_right _ r.width_pos.le
    exact mul_le_mul_of_nonneg_left (by linarith) r.P_nonneg
  · rw [law_flat hmax hlimit]
    exact r.law_le (Nat.lt_of_le_of_lt h hlimit)
  · rw [law_full hlimit]
    exact r.law_le_one size

/-! ### The formula -/

lemma probability_eq_iff (r : RedSettings) (size : BitVec 32) : r.probability size = r.law size ↔ size < r.min ∨
    r.max ≤ size ∨ r.P = 0 ∨ r.max.toNat = r.min.toNat + 1 ∨ size = 0 := by
  have hwidth := r.width_pos
  rw [probability, redProbability, redChoice, law, redLaw]
  by_cases hmin : size < r.min
  · rw [if_pos hmin, if_pos hmin]
    exact ⟨fun _ => .inl hmin, fun _ => rfl⟩
  rw [if_neg hmin, if_neg hmin]
  by_cases hmax : size < r.max
  · rw [if_pos hmax, if_pos hmax, RedChoice.dropProbability]
    have hdiff : r.P * (size.toNat - r.min.toNat / ((r.max.toNat : ℚ) - r.min.toNat)) -
        r.P * ((size.toNat : ℚ) - r.min.toNat) / ((r.max.toNat : ℚ) - r.min.toNat) =
        r.P * size.toNat * ((r.max.toNat : ℚ) - r.min.toNat - 1) / ((r.max.toNat : ℚ) - r.min.toNat) := by
      field_simp
      ring
    have hslope : (r.max.toNat : ℚ) - r.min.toNat - 1 = 0 ↔ r.max.toNat = r.min.toNat + 1 := by
      rw [sub_sub, sub_eq_zero]
      exact_mod_cast Iff.rfl
    have hempty : (size.toNat : ℚ) = 0 ↔ size = 0 := by
      rw [Nat.cast_eq_zero, ← BitVec.toNat_inj]
      rfl
    rw [← sub_eq_zero, hdiff, div_eq_zero_iff, mul_eq_zero, mul_eq_zero, hslope, hempty]
    have hnmax : ¬r.max ≤ size := BitVec.not_le.mpr hmax
    have hne : (r.max.toNat : ℚ) - r.min.toNat ≠ 0 := ne_of_gt hwidth
    tauto
  have hge : r.max ≤ size := BitVec.not_lt.mp hmax
  rw [if_neg hmax, if_neg hmax]
  refine ⟨fun _ => .inr (.inl hge), fun _ => ?_⟩
  split <;> rfl

/-- The policy keeps the law for a size, and for all sizes, exactly under these conditions. -/
theorem red_kept_iff (r : RedSettings) :
    (∀ size, r.probability size = r.law size ↔
      size < r.min ∨ r.max ≤ size ∨ r.P = 0 ∨ r.max.toNat = r.min.toNat + 1 ∨ size = 0) ∧
      (r.Kept ↔ r.P = 0 ∨ r.max.toNat = r.min.toNat + 1) := by
  refine ⟨r.probability_eq_iff, ?_⟩
  constructor
  · intro h
    -- the greatest size of the range
    have hlt : r.min.toNat < r.max.toNat := r.min_lt
    have hbound := r.max.isLt
    have hsize : (r.max - 1).toNat = r.max.toNat - 1 := by
      have hone : (1 : BitVec 32).toNat = 1 := rfl
      rw [BitVec.toNat_sub, hone]
      omega
    rcases (r.probability_eq_iff (r.max - 1)).mp (h.law _) with hmin | hmax | hP | hslope | hempty
    · rw [BitVec.lt_def] at hmin
      omega
    · rw [BitVec.le_def] at hmax
      omega
    · exact .inl hP
    · exact .inr hslope
    · have hzero : (r.max - 1).toNat = 0 := congrArg BitVec.toNat hempty
      exact .inr (by omega)
  intro h
  have hlaw (size : BitVec 32) : r.probability size = r.law size := by
    rw [r.probability_eq_iff]
    tauto
  exact
    { law := hlaw
      mono := by
        intro size size' hle
        rw [hlaw, hlaw]
        exact r.law_mono hle
      bounded := by
        intro size hlt
        rw [hlaw]
        exact r.law_le hlt }

end RedSettings

def redExample : RedSettings :=
  { min := 100, max := 200, P := 1 / 2, limit := 300
    min_lt := by decide, max_le := by decide, P_nonneg := by norm_num, P_le := by norm_num }

/-- At 150 bytes the formula is greater than one. -/
theorem red_law_broken : ¬∀ r : RedSettings, r.Kept := by
  intro h
  have hbound := (h redExample).bounded 150 (by decide)
  have hval : redExample.probability 150 = 149 / 2 := by
    rw [RedSettings.probability, redProbability, redChoice, if_neg (by decide), if_pos (by decide),
      RedChoice.dropProbability]
    change (1 / 2 : ℚ) * ((150 : Nat) - (100 : Nat) / ((200 : Nat) - (100 : Nat))) = 149 / 2
    norm_num
  rw [hval] at hbound
  change (149 / 2 : ℚ) ≤ 1 / 2 at hbound
  norm_num at hbound

end Vde
