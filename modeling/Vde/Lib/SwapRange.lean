import Mathlib.Data.List.Nodup
import Mathlib.Data.List.Perm.Basic
import Mathlib.Data.List.Range
import Mathlib.Logic.Equiv.Basic

/-!
# Arrays that exchange two entries

An array is a function on its indices. Exchanging two indices of a range permutes its entries, and
so does moving the last entry into the place of a deleted one.
-/

namespace Vde

open List Function

universe u

variable {α : Type u}

lemma map_swap_perm (f : Nat → α) {a d i j : Nat} (hi : a ≤ i ∧ i < a + d) (hj : a ≤ j ∧ j < a + d) :
    ((range' a d).map (f ∘ Equiv.swap i j)).Perm ((range' a d).map f) := by
  rw [← map_map]
  apply Perm.map
  apply (perm_ext_iff_of_nodup _ nodup_range').mpr
  · intro k
    rw [mem_map, mem_range'_1]
    constructor
    · intro h
      obtain ⟨l, hl, rfl⟩ := h
      rw [mem_range'_1] at hl
      by_cases hli : l = i
      · rw [hli, Equiv.swap_apply_left]
        exact hj
      by_cases hlj : l = j
      · rw [hlj, Equiv.swap_apply_right]
        exact hi
      rw [Equiv.swap_apply_of_ne_of_ne hli hlj]
      exact hl
    intro hk
    refine ⟨Equiv.swap i j k, ?_, Equiv.swap_apply_self i j k⟩
    rw [mem_range'_1]
    by_cases hki : k = i
    · rw [hki, Equiv.swap_apply_left]
      exact hj
    by_cases hkj : k = j
    · rw [hkj, Equiv.swap_apply_right]
      exact hi
    rw [Equiv.swap_apply_of_ne_of_ne hki hkj]
    exact hk
  · exact Nodup.map (Equiv.injective _) nodup_range'

lemma map_swap_outside (f : Nat → α) {a d i j : Nat} (hi : ¬(a ≤ i ∧ i < a + d)) (hj : ¬(a ≤ j ∧ j < a + d)) :
    (range' a d).map (f ∘ Equiv.swap i j) = (range' a d).map f := by
  apply map_congr_left
  intro k hk
  rw [mem_range'_1] at hk
  have hki : k ≠ i := by
    intro he
    exact hi (he ▸ hk)
  have hkj : k ≠ j := by
    intro he
    exact hj (he ▸ hk)
  rw [comp_apply, Equiv.swap_apply_of_ne_of_ne hki hkj]

lemma range_move_last (f : Nat → α) {m i : Nat} (hi : i ≤ m) :
    ((range (m + 1)).map f).Perm (f i :: (range m).map (Function.update f i (f m))) := by
  have hswap : ((range (m + 1)).map (f ∘ Equiv.swap i m)).Perm ((range (m + 1)).map f) := by
    rw [range_eq_range']
    exact map_swap_perm f (by omega) (by omega)
  have hfront : (range m).map (f ∘ Equiv.swap i m) =
      (range m).map (Function.update f i (f m)) := by
    apply map_congr_left
    intro k hk
    have hkm : k ≠ m := (mem_range.mp hk).ne
    by_cases hki : k = i
    · rw [hki, comp_apply, Equiv.swap_apply_left, update_self]
    · rw [comp_apply, Equiv.swap_apply_of_ne_of_ne hki hkm, update_of_ne hki]
  refine hswap.symm.trans ?_
  rw [range_succ, map_append, hfront, map_singleton, comp_apply,
    Equiv.swap_apply_right]
  exact perm_append_singleton (f i) _

end Vde
