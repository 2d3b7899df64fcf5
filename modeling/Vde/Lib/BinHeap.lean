import Mathlib.Data.List.Dedup
import Mathlib.Order.Lattice
import Vde.Lib.SwapRange

/-!
# Binary heaps in an array

The elements of a heap stand at the places `1` to `n` of an array and the parent of place `i` is
`i / 2`. Both directions of sifting move a hole through the array and store the element only at
the end. Place `0` holds a sentinel that no element comes before.
-/

namespace Vde

open Function List

universe u v

variable {α : Type u} {κ : Type v}

section Sift

variable (lt : α → α → Bool)

/-- Moves the hole at `k` towards the root and puts `x` where its parent does not come after
it. -/
def siftUp (h : Nat → α) (x : α) : Nat → Nat → (Nat → α)
  | 0, k => update h k x
  | fuel + 1, k =>
    if lt x (h (k / 2)) then siftUp (update h k (h (k / 2))) x fuel (k / 2)
    else update h k x

def firstChild (h : Nat → α) (n k : Nat) : Nat :=
  if 2 * k < n ∧ lt (h (2 * k + 1)) (h (2 * k)) then 2 * k + 1 else 2 * k

def siftDown (h : Nat → α) (x : α) (n : Nat) : Nat → Nat → (Nat → α)
  | 0, k => update h k x
  | fuel + 1, k =>
    if k ≤ n / 2 then
      if lt x (h (firstChild lt h n k)) then update h k x
      else siftDown (update h k (h (firstChild lt h n k))) x n fuel (firstChild lt h n k)
    else update h k x

end Sift

def slots (h : Nat → α) (n : Nat) : List α := (range' 1 n).map h

@[simp] lemma slots_zero (h : Nat → α) : slots h 0 = [] := rfl

@[simp] lemma slots_length (h : Nat → α) (n : Nat) : (slots h n).length = n := by
  simp [slots]

lemma slots_succ (h : Nat → α) (n : Nat) : slots h (n + 1) = slots h n ++ [h (n + 1)] := by
  simp [slots, range'_concat, Nat.add_comm]

lemma slots_cons (h : Nat → α) (n : Nat) : slots h (n + 1) = h 1 :: (range' 2 n).map h := by
  simp [slots, range'_succ]

variable {h : Nat → α} {n : Nat}

lemma mem_slots {x : α} : x ∈ slots h n ↔ ∃ i, 1 ≤ i ∧ i ≤ n ∧ h i = x := by
  simp only [slots, mem_map, mem_range'_1]
  constructor
  · rintro ⟨i, hi, rfl⟩
    exact ⟨i, hi.1, by omega, rfl⟩
  rintro ⟨i, h1, h2, rfl⟩
  exact ⟨i, ⟨h1, by omega⟩, rfl⟩

lemma slots_congr (h' : Nat → α) (heq : ∀ i, 1 ≤ i → i ≤ n → h i = h' i) : slots h n = slots h' n := by
  apply map_congr_left
  intro i hi
  rw [mem_range'_1] at hi
  exact heq i hi.1 (by omega)

variable {k : Nat}

lemma slots_move_hole (h : Nat → α) (x : α) {j : Nat} (hk : 1 ≤ k) (hkn : k ≤ n) (hj : 1 ≤ j) (hjn : j ≤ n) :
    (slots (update (update h k (h j)) j x) n).Perm (slots (update h k x) n) := by
  have hswap : update (update h k (h j)) j x =
      update h k x ∘ Equiv.swap k j := by
    funext i
    by_cases hij : i = j
    · subst hij
      simp
    by_cases hik : i = k
    · subst hik
      have hji : j ≠ i := fun he => hij he.symm
      simp [hij, hji]
    · simp [hij, hik, Equiv.swap_apply_of_ne_of_ne hik hij]
  rw [hswap]
  exact map_swap_perm _ (by omega) (by omega)

section Order

variable [LinearOrder κ] (key : α → κ)

/-- No place holds an element that comes before its parent. -/
def HeapOrdered (h : Nat → α) (n : Nat) : Prop :=
  ∀ i, 2 ≤ i → i ≤ n → key (h (i / 2)) ≤ key (h i)

/-- The pairs of parent and child that the hole at `k` does not touch are in order, and so are the
hole's parent and children. -/
structure HoleOrdered (h : Nat → α) (n k : Nat) : Prop where
  apart : ∀ i, 2 ≤ i → i ≤ n → i ≠ k → i / 2 ≠ k → key (h (i / 2)) ≤ key (h i)
  across : 2 ≤ k → ∀ i, i ≤ n → i / 2 = k → key (h (k / 2)) ≤ key (h i)

variable {key}

lemma HeapOrdered.root_le (ho : HeapOrdered key h n) (i : Nat) (hi : 1 ≤ i)
    (hin : i ≤ n) : key (h 1) ≤ key (h i) := by
  induction i using Nat.strongRecOn with
  | ind i ih =>
    by_cases h1 : i = 1
    · rw [h1]
    · exact le_trans (ih (i / 2) (by omega) (by omega) (by omega)) (ho i (by omega) hin)

lemma HoleOrdered.fill {x : α} (ho : HoleOrdered key h n k) (habove : 2 ≤ k → key (h (k / 2)) ≤ key x)
    (hbelow : ∀ i, 2 ≤ i → i ≤ n → i / 2 = k → key x ≤ key (h i)) : HeapOrdered key (update h k x) n := by
  intro i h2 hin
  by_cases hik : i = k
  · subst hik
    rw [update_self, update_of_ne (by omega)]
    exact habove h2
  by_cases hpk : i / 2 = k
  · rw [hpk, update_self, update_of_ne hik]
    exact hbelow i h2 hin hpk
  rw [update_of_ne hik, update_of_ne hpk]
  exact ho.apart i h2 hin hik hpk

variable {lt : α → α → Bool} (hlt : ∀ a b, lt a b = true ↔ key a < key b)

include hlt

lemma siftUp_heap (h : Nat → α) (x : α) (n fuel k : Nat) (hk : 1 ≤ k) (hkn : k ≤ n) (hfuel : k ≤ fuel)
    (hsentinel : lt x (h 0) = false) (ho : HoleOrdered key h n k)
    (hbelow : ∀ i, 2 ≤ i → i ≤ n → i / 2 = k → key x ≤ key (h i)) : HeapOrdered key (siftUp lt h x fuel k) n ∧
    (slots (siftUp lt h x fuel k) n).Perm (slots (update h k x) n) ∧ siftUp lt h x fuel k 0 = h 0 := by
  induction fuel generalizing h k with
  | zero => omega
  | succ fuel ih =>
    rw [siftUp]
    by_cases hup : lt x (h (k / 2)) = true
    · rw [if_pos hup]
      have hx : key x < key (h (k / 2)) := (hlt _ _).mp hup
      have hpos : 1 ≤ k / 2 := by
        by_contra hz
        have hz0 : k / 2 = 0 := by omega
        rw [hz0, hsentinel] at hup
        exact absurd hup (by simp)
      have hzero : update h k (h (k / 2)) 0 = h 0 := update_of_ne (by omega) _ _
      have hrec := ih (update h k (h (k / 2))) (k / 2) hpos (by omega) (by omega)
        (by rw [hzero]; exact hsentinel) ?_ ?_
      · refine ⟨hrec.1, hrec.2.1.trans ?_, hrec.2.2.trans hzero⟩
        exact slots_move_hole h x hk hkn hpos (by omega)
      · constructor
        · intro i h2 hin hik hpi
          have hne : i ≠ k := fun he => hpi (by rw [he])
          rw [update_of_ne hne]
          by_cases hpk : i / 2 = k
          · rw [hpk, update_self]
            exact ho.across (by omega) i hin hpk
          rw [update_of_ne hpk]
          exact ho.apart i h2 hin hne hpk
        intro h2 i hin hpi
        have hgrand : key (h (k / 2 / 2)) ≤ key (h (k / 2)) :=
          ho.apart (k / 2) h2 (by omega) (by omega) (by omega)
        rw [update_of_ne (by omega : k / 2 / 2 ≠ k)]
        by_cases hik : i = k
        · rw [hik, update_self]
          exact hgrand
        rw [update_of_ne hik]
        have hparent := ho.apart i (by omega) hin hik (by omega)
        rw [hpi] at hparent
        exact le_trans hgrand hparent
      intro i h2 hin hpi
      by_cases hik : i = k
      · rw [hik, update_self]
        exact le_of_lt hx
      rw [update_of_ne hik]
      have hparent := ho.apart i h2 hin hik (by omega)
      rw [hpi] at hparent
      exact le_trans (le_of_lt hx) hparent
    · rw [if_neg hup]
      refine ⟨ho.fill ?_ hbelow, Perm.refl _, update_of_ne (by omega) _ _⟩
      intro _
      exact not_lt.mp (fun h' => hup ((hlt _ _).mpr h'))

omit hlt in
variable (lt) in
lemma firstChild_bounds (h : Nat → α) (hk : 1 ≤ k) (hkn : k ≤ n / 2) :
    firstChild lt h n k / 2 = k ∧ k < firstChild lt h n k ∧ firstChild lt h n k ≤ n := by
  rw [firstChild]
  split <;> omega

lemma firstChild_le (h : Nat → α) {i : Nat} (hin : i ≤ n) (hpi : i / 2 = k) :
    key (h (firstChild lt h n k)) ≤ key (h i) := by
  rw [firstChild]
  have hi : i = 2 * k ∨ i = 2 * k + 1 := by omega
  split
  · rename_i hc
    have hless := le_of_lt ((hlt _ _).mp hc.2)
    rcases hi with rfl | rfl
    · exact hless
    · exact le_refl _
  rename_i hc
  rcases hi with rfl | rfl
  · exact le_refl _
  · refine not_lt.mp (fun hless => hc ⟨by omega, (hlt _ _).mpr hless⟩)

lemma siftDown_heap (h : Nat → α) (x : α) (n fuel k : Nat) (hk : 1 ≤ k) (hfuel : n < fuel + k)
    (ho : HoleOrdered key h n k) (habove : 2 ≤ k → key (h (k / 2)) ≤ key x) :
    HeapOrdered key (siftDown lt h x n fuel k) n ∧
    (slots (siftDown lt h x n fuel k) n).Perm (slots (update h k x) n) ∧ siftDown lt h x n fuel k 0 = h 0 := by
  induction fuel generalizing h k with
  | zero =>
    refine ⟨ho.fill habove ?_, Perm.refl _, update_of_ne (by omega) _ _⟩
    intro i _ hin hpi
    omega
  | succ fuel ih =>
    rw [siftDown]
    by_cases hleaf : k ≤ n / 2
    · rw [if_pos hleaf]
      obtain ⟨hparent, hgt, hle⟩ := firstChild_bounds lt h hk hleaf
      have hmin := fun i hin hpi => firstChild_le hlt h (n := n) (k := k) (i := i) hin hpi
      generalize firstChild lt h n k = j at *
      by_cases hstop : lt x (h j) = true
      · rw [if_pos hstop]
        have hx : key x < key (h j) := (hlt _ _).mp hstop
        refine ⟨ho.fill habove ?_, Perm.refl _, update_of_ne (by omega) _ _⟩
        intro i _ hin hpi
        exact le_trans (le_of_lt hx) (hmin i hin hpi)
      rw [if_neg hstop]
      have hx : key (h j) ≤ key x := not_lt.mp (fun h' => hstop ((hlt _ _).mpr h'))
      have hzero : update h k (h j) 0 = h 0 := update_of_ne (by omega) _ _
      have hrec := ih (update h k (h j)) j (by omega) (by omega) ?_ ?_
      · refine ⟨hrec.1, hrec.2.1.trans ?_, hrec.2.2.trans hzero⟩
        exact slots_move_hole h x hk (by omega) (by omega) hle
      · constructor
        · intro i h2 hin hij hpij
          by_cases hik : i = k
          · subst hik
            rw [update_self, update_of_ne (by omega)]
            exact ho.across h2 j hle hparent
          rw [update_of_ne hik]
          by_cases hpk : i / 2 = k
          · rw [hpk, update_self]
            exact hmin i hin hpk
          rw [update_of_ne hpk]
          exact ho.apart i h2 hin hik hpk
        intro h2 i hin hpi
        rw [hparent, update_self, update_of_ne (by omega)]
        have := ho.apart i (by omega) hin (by omega) (by omega)
        rwa [hpi] at this
      intro _
      rw [hparent, update_self]
      exact hx
    · rw [if_neg hleaf]
      refine ⟨ho.fill habove ?_, Perm.refl _, update_of_ne (by omega) _ _⟩
      intro i _ hin hpi
      omega

lemma heap_push (ho : HeapOrdered key h n) (x : α) (hsentinel : lt x (h 0) = false) :
    HeapOrdered key (siftUp lt h x (n + 1) (n + 1)) (n + 1) ∧
    (slots (siftUp lt h x (n + 1) (n + 1)) (n + 1)).Perm (x :: slots h n) ∧ siftUp lt h x (n + 1) (n + 1) 0 =
    h 0 := by
  have hhole : HoleOrdered key h (n + 1) (n + 1) :=
    { apart := fun i h2 hin hi _ => ho i h2 (by omega)
      across := fun _ i hin hi => by omega }
  obtain ⟨hheap, hperm, hzero⟩ := siftUp_heap hlt h x (n + 1) (n + 1) (n + 1) (by omega)
    le_rfl le_rfl hsentinel hhole (fun i _ hin hi => by omega)
  refine ⟨hheap, hperm.trans ?_, hzero⟩
  rw [slots_succ, update_self,
    slots_congr h (fun i _ hi => update_of_ne (by omega) _ _)]
  exact perm_append_singleton x _

lemma heap_pop (ho : HeapOrdered key h (n + 1)) : HeapOrdered key (siftDown lt h (h (n + 1)) n n 1) n ∧
    (h 1 :: slots (siftDown lt h (h (n + 1)) n n 1) n).Perm (slots h (n + 1)) ∧ siftDown lt h (h (n + 1)) n n 1 0 =
    h 0 := by
  have hhole : HoleOrdered key h n 1 :=
    { apart := fun i h2 hin _ _ => ho i h2 (by omega)
      across := fun h2 => by omega }
  obtain ⟨hheap, hperm, hzero⟩ := siftDown_heap hlt h (h (n + 1)) n n 1 le_rfl (by omega)
    hhole (fun h2 => by omega)
  refine ⟨hheap, (hperm.cons (h 1)).trans ?_, hzero⟩
  cases n with
  | zero => simp [slots_succ]
  | succ n =>
    have htail : (range' 2 n).map (update h 1 (h (n + 1 + 1))) =
        (range' 2 n).map h := by
      apply map_congr_left
      intro i hi
      rw [mem_range'_1] at hi
      exact update_of_ne (by omega) _ _
    rw [slots_cons, update_self, htail, slots_succ h (n + 1), slots_cons]
    exact (perm_append_singleton _ _).symm.cons _

end Order

end Vde
