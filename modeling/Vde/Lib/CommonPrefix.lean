import Mathlib.Data.List.Basic

/-!
# Common prefixes

The number of leading places at which two lists agree, and the longest common prefix of a family of lists. The
longest common prefix of a family with one list more is the part of the old one that agrees with this list.
-/

namespace Vde

open List

universe u

variable {α : Type u}

structure LongestPrefix (p : List α) (ss : List (List α)) : Prop where
  common : ∀ s ∈ ss, p <+: s
  longest : ∀ q, (∀ s ∈ ss, q <+: s) → q <+: p

lemma longestPrefix_singleton (s : List α) : LongestPrefix s [s] where
  common := by
    intro s' hs'
    exact mem_singleton.mp hs' ▸ prefix_rfl
  longest := fun _ h => h s (mem_singleton_self s)

lemma LongestPrefix.eq {p q : List α} {ss : List (List α)} (hp : LongestPrefix p ss) (hq : LongestPrefix q ss) :
    p = q :=
  (hq.longest p hp.common).eq_of_length
    (Nat.le_antisymm (hq.longest p hp.common).length_le (hp.longest q hq.common).length_le)

section

variable [DecidableEq α]

def agreement : List α → List α → Nat
  | x :: xs, y :: ys => if x = y then agreement xs ys + 1 else 0
  | _, _ => 0

lemma agreement_nil (ys : List α) : agreement [] ys = 0 := by
  cases ys with
  | nil => rfl
  | cons y ys => rfl

lemma agreement_cons_self (x : α) (xs ys : List α) : agreement (x :: xs) (x :: ys) = agreement xs ys + 1 := by
  rw [agreement, if_pos rfl]

lemma agreement_cons_ne {x y : α} (h : x ≠ y) (xs ys : List α) : agreement (x :: xs) (y :: ys) = 0 := by
  rw [agreement, if_neg h]

lemma agreement_le (xs ys : List α) : agreement xs ys ≤ xs.length ∧ agreement xs ys ≤ ys.length := by
  induction xs generalizing ys with
  | nil => exact ⟨Nat.zero_le _, Nat.zero_le _⟩
  | cons x xs ih =>
    cases ys with
    | nil => exact ⟨Nat.zero_le _, Nat.zero_le _⟩
    | cons y ys =>
      by_cases hxy : x = y
      · subst hxy
        rw [agreement_cons_self]
        exact ⟨Nat.succ_le_succ (ih ys).1, Nat.succ_le_succ (ih ys).2⟩
      rw [agreement_cons_ne hxy]
      exact ⟨Nat.zero_le _, Nat.zero_le _⟩

lemma take_agreement (xs ys : List α) : xs.take (agreement xs ys) = ys.take (agreement xs ys) := by
  induction xs generalizing ys with
  | nil =>
    cases ys with
    | nil => rfl
    | cons y ys => rfl
  | cons x xs ih =>
    cases ys with
    | nil => rfl
    | cons y ys =>
      by_cases hxy : x = y
      · subst hxy
        rw [agreement_cons_self, take_succ_cons, take_succ_cons, ih]
      rw [agreement_cons_ne hxy]
      rfl

lemma length_le_agreement {p xs ys : List α} (hx : p <+: xs) (hy : p <+: ys) : p.length ≤ agreement xs ys := by
  induction p generalizing xs ys with
  | nil => exact Nat.zero_le _
  | cons a p ih =>
    obtain ⟨tx, rfl⟩ := hx
    obtain ⟨ty, rfl⟩ := hy
    rw [cons_append, cons_append, agreement_cons_self]
    exact Nat.succ_le_succ (ih (prefix_append p tx) (prefix_append p ty))

lemma agreement_begins (xs ys : List α) : xs.take (agreement xs ys) <+: ys := by
  rw [take_agreement]
  exact take_prefix _ _

lemma agreement_comm (xs ys : List α) : agreement xs ys = agreement ys xs := by
  induction xs generalizing ys with
  | nil => cases ys <;> rfl
  | cons x xs ih =>
    cases ys with
    | nil => rfl
    | cons y ys =>
      by_cases hxy : x = y
      · subst hxy
        rw [agreement_cons_self, agreement_cons_self, ih]
      · rw [agreement_cons_ne hxy, agreement_cons_ne (Ne.symm hxy)]

lemma LongestPrefix.snoc {p : List α} {ss : List (List α)} (h : LongestPrefix p ss) (s : List α) :
    LongestPrefix (p.take (agreement p s)) (ss ++ [s]) where
  common := by
    intro s' hs'
    rcases mem_append.mp hs' with hold | hnew
    · exact ( take_prefix _ _).trans (h.common s' hold)
    rw [mem_singleton.mp hnew]
    exact agreement_begins p s
  longest := by
    intro q hq
    have hp : q <+: p := h.longest q fun s' hs' => hq s' (mem_append_left _ hs')
    have hs : q <+: s := hq s (mem_append_right _ (mem_singleton_self s))
    exact prefix_take_iff.mpr ⟨hp, length_le_agreement hp hs⟩

end

end Vde
