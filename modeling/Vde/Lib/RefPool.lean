import Mathlib.Algebra.BigOperators.Group.Finset.Piecewise

/-!
# Pools of objects with reference counts

An object of the pool has a count and goes when its last holder puts it back; the pool counts its objects. The
references are a multiset: the counts agree with it as long as an object is only put by one of its holders.
-/

namespace Vde

open Finset Function

structure RefPool (α : Type*) where
  live : Finset α
  count : α → Int
  nelem : Int

namespace RefPool

variable {α : Type*} [DecidableEq α]

def empty : RefPool α := { live := ∅, count := fun _ => 0, nelem := 0 }

def alloc (p : RefPool α) (a : α) : RefPool α :=
  { live := insert a p.live, count := update p.count a 1, nelem := p.nelem + 1 }

def hold (p : RefPool α) (a : α) : RefPool α := { p with count := update p.count a (p.count a + 1) }

/-- One reference less; the object goes with the last one. -/
def put (p : RefPool α) (a : α) : RefPool α :=
  if p.count a - 1 = 0 then { live := p.live.erase a, count := update p.count a 0, nelem := p.nelem - 1 }
  else { p with count := update p.count a (p.count a - 1) }

structure Counts (p : RefPool α) (refs : Multiset α) : Prop where
  mem : ∀ a, a ∈ p.live ↔ a ∈ refs
  count : ∀ a ∈ p.live, p.count a = refs.count a
  nelem : p.nelem = p.live.card

variable {p : RefPool α} {refs : Multiset α} {a : α}

lemma counts_empty : (empty : RefPool α).Counts 0 where
  mem a := by simp [empty]
  count a ha := by simp [empty] at ha
  nelem := rfl

lemma Counts.alloc (h : p.Counts refs) (ha : a ∉ p.live) : (p.alloc a).Counts (a ::ₘ refs) where
  mem b := by
    rw [Multiset.mem_cons, ← h.mem b]
    exact mem_insert
  count b hb := by
    have hrefs : refs.count a = 0 := Multiset.count_eq_zero.2 fun hmem => ha ((h.mem a).2 hmem)
    dsimp only [RefPool.alloc]
    by_cases hba : b = a
    · subst hba
      rw [update_self, Multiset.count_cons_self, hrefs]
      rfl
    have hlive : b ∈ p.live := (mem_insert.1 hb).resolve_left hba
    rw [update_of_ne hba, Multiset.count_cons_of_ne hba, h.count b hlive]
  nelem := by
    dsimp only [RefPool.alloc]
    rw [card_insert_of_notMem ha, h.nelem]
    rfl

lemma Counts.hold (h : p.Counts refs) (ha : a ∈ p.live) : (p.hold a).Counts (a ::ₘ refs) where
  mem b := by
    rw [Multiset.mem_cons, ← h.mem b]
    constructor
    · exact .inr
    intro hb
    cases hb with
    | inl heq =>
      rw [heq]
      exact ha
    | inr hmem => exact hmem
  count b hb := by
    dsimp only [RefPool.hold]
    by_cases hba : b = a
    · subst hba
      rw [update_self, Multiset.count_cons_self, h.count b ha]
      rfl
    · rw [update_of_ne hba, Multiset.count_cons_of_ne hba, h.count b hb]
  nelem := h.nelem

lemma Counts.put (h : p.Counts (a ::ₘ refs)) : (p.put a).Counts refs := by
  have hlive : a ∈ p.live := (h.mem a).2 (Multiset.mem_cons_self a refs)
  have hcount := h.count a hlive
  rw [Multiset.count_cons_self] at hcount
  have hother : ∀ b, b ≠ a → (b ∈ p.live ↔ b ∈ refs) := by
    intro b hb
    rw [h.mem b, Multiset.mem_cons]
    exact or_iff_right hb
  have hcounts : ∀ b, b ≠ a → b ∈ p.live → p.count b = refs.count b := by
    intro b hb hmem
    rw [h.count b hmem, Multiset.count_cons_of_ne hb]
  unfold RefPool.put
  by_cases hlast : p.count a - 1 = 0
  · rw [if_pos hlast]
    have hgone : a ∉ refs := by
      rw [← Multiset.count_eq_zero]
      omega
    constructor
    · intro b
      by_cases hb : b = a
      · subst hb
        simp [hgone]
      rw [mem_erase, hother b hb]
      exact and_iff_right hb
    · intro b hmem
      obtain ⟨hb, hmem⟩ := mem_erase.1 hmem
      dsimp only
      rw [update_of_ne hb]
      exact hcounts b hb hmem
    have hpos := card_pos.2 ⟨a, hlive⟩
    have := h.nelem
    rw [card_erase_of_mem hlive]
    dsimp only
    omega
  rw [if_neg hlast]
  have hstays : a ∈ refs := by
    rw [← Multiset.count_pos]
    omega
  constructor
  · intro b
    by_cases hb : b = a
    · subst hb
      simp [hlive, hstays]
    · exact hother b hb
  · intro b hmem
    dsimp only
    by_cases hb : b = a
    · subst hb
      rw [update_self]
      omega
    rw [update_of_ne hb]
    exact hcounts b hb hmem
  · exact h.nelem

lemma Counts.putAll {l : List α} (h : p.Counts (↑l + refs)) : (l.foldl RefPool.put p).Counts refs := by
  induction l generalizing p with
  | nil => simpa using h
  | cons a l ih =>
    apply ih
    apply Counts.put
    rw [← Multiset.cons_add]
    exact h

/-- An object is there exactly as long as somebody refers to it. -/
lemma Counts.count_pos_iff (h : p.Counts refs) : a ∈ p.live ↔ 0 < refs.count a := by
  rw [h.mem a, Multiset.count_pos]

end RefPool

/-! ## The references of several holders -/

section Holders

variable {ι α : Type*} [DecidableEq ι] {s : Finset ι} {holds : ι → Multiset α} {i : ι} {b : Multiset α}

lemma sum_holds_update (hi : i ∈ s) : ∑ j ∈ s, update holds i b j + holds i = ∑ j ∈ s, holds j + b := by
  rw [sum_update_of_mem hi, sdiff_singleton_eq_erase, ← add_sum_erase s holds hi, add_comm b, add_right_comm,
    add_comm (holds i)]

end Holders

end Vde
