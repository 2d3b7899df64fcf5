import Mathlib.Data.List.Sort

/-!
# Stable sorts

A stable sort of a list by a key has the entries in the order of their keys, and those of one key in the order of the
list. Entries that are inserted one after the other, each behind those of its key, are sorted like that.
-/

namespace Vde

open List

universe u v

variable {α : Type u} {κ : Type v} [LinearOrder κ]

structure StableSort (key : α → κ) (l s : List α) : Prop where
  sorted : s.Pairwise fun a b => key a ≤ key b
  same : ∀ k, (s.filter fun a => key a = k) = l.filter fun a => key a = k

variable {key : α → κ} {l s : List α}

def insertByKey (key : α → κ) (a : α) (l : List α) : List α := l.orderedInsert (fun a b => key a < key b) a

lemma insertByKey_cons (a b : α) (l : List α) :
    insertByKey key a (b :: l) = if key a < key b then a :: b :: l else b :: insertByKey key a l := rfl

lemma mem_insertByKey {a b : α} : b ∈ insertByKey key a l ↔ b = a ∨ b ∈ l := mem_orderedInsert _

lemma sorted_insertByKey (a : α) (h : l.Pairwise fun a b => key a ≤ key b) :
    (insertByKey key a l).Pairwise fun a b => key a ≤ key b := by
  induction l with
  | nil => exact pairwise_singleton _ a
  | cons b l ih =>
    obtain ⟨hb, hl⟩ := pairwise_cons.mp h
    rw [insertByKey_cons]
    by_cases hlt : key a < key b
    · rw [if_pos hlt]
      refine pairwise_cons.mpr ⟨fun c hc => ?_, h⟩
      cases mem_cons.mp hc with
      | inl hcb => exact hcb ▸ hlt.le
      | inr hcl => exact hlt.le.trans (hb c hcl)
    rw [if_neg hlt]
    refine pairwise_cons.mpr ⟨fun c hc => ?_, ih hl⟩
    cases mem_insertByKey.mp hc with
    | inl hca => exact hca ▸ not_lt.mp hlt
    | inr hcl => exact hb c hcl

lemma filter_insertByKey (a : α) (h : l.Pairwise fun a b => key a ≤ key b) (k : κ) :
    ((insertByKey key a l).filter fun b => key b = k) = (l.filter fun b => key b = k) ++ [a].filter fun b => key b =
    k := by
  induction l with
  | nil => rfl
  | cons b l ih =>
    obtain ⟨hb, hl⟩ := pairwise_cons.mp h
    rw [insertByKey_cons]
    by_cases hlt : key a < key b
    · rw [if_pos hlt, filter_cons]
      by_cases hk : key a = k
      · -- no entry behind has the key
        have hnone : ((b :: l).filter fun c => key c = k) = [] := by
          refine filter_eq_nil_iff.mpr fun c hc => ?_
          have hac : key a < key c := by
            cases mem_cons.mp hc with
            | inl hcb => exact hcb ▸ hlt
            | inr hcl => exact hlt.trans_le (hb c hcl)
          rw [decide_eq_true_eq]
          exact fun hck => hac.ne (hk.trans hck.symm)
        rw [hnone, if_pos (decide_eq_true hk)]
        simp [hk]
      · simp [hk]
    rw [if_neg hlt, filter_cons, filter_cons, ih hl]
    by_cases hk : key b = k
    · simp [hk]
    · simp [hk]

lemma stableSort_nil (key : α → κ) : StableSort key [] [] := ⟨Pairwise.nil, fun _ => rfl⟩

lemma StableSort.insertByKey (h : StableSort key l s) (a : α) :
    StableSort key (l ++ [a]) (Vde.insertByKey key a s) where
  sorted := sorted_insertByKey a h.sorted
  same := by
    intro k
    rw [filter_insertByKey a h.sorted k, h.same k, filter_append]

end Vde
