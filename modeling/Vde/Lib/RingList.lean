import Mathlib.Data.List.Nodup

/-!
# Circular lists held by their tail

The cells of a circular list lie in a heap; the list itself is a pointer to its last cell, whose
link leads back to the first one. `IsRing h tail xs` says which cells and values the list has, in
order. Cells are added behind the last one and taken from the front; other lists of the same heap
are not touched.
-/

namespace Vde

open List Function

universe u

structure RingCell (α : Type u) where
  val : α
  next : Nat
  deriving DecidableEq, Repr

/-- Cells by their address; a free address holds `none`. -/
abbrev RingHeap (α : Type u) := Nat → Option (RingCell α)

variable {α : Type u}

def ringNext (h : RingHeap α) (a : Nat) : Nat := ((h a).map RingCell.next).getD 0

def setNext (h : RingHeap α) (a b : Nat) : RingHeap α :=
  update h a ((h a).map (fun c => { c with next := b }))

/-- The new cell behind the last one; its address is the new tail. -/
def ringAdd (h : RingHeap α) (tail : Option Nat) (new : Nat) (v : α) : RingHeap α :=
  match tail with
  | none => update h new (some ⟨v, new⟩)
  | some t => setNext (update h new (some ⟨v, ringNext h t⟩)) t new

def ringDrop (h : RingHeap α) (t : Nat) : RingHeap α × Option Nat :=
  let first := ringNext h t
  if first = t then (update h first none, none)
  else (update (setNext h t (ringNext h first)) first none, some t)

def firstOr (stop : Nat) : List (Nat × α) → Nat
  | [] => stop
  | x :: _ => x.1

def Linked (h : RingHeap α) : List (Nat × α) → Nat → Prop
  | [], _ => True
  | x :: xs, stop => h x.1 = some ⟨x.2, firstOr stop xs⟩ ∧ Linked h xs stop

structure IsRing (h : RingHeap α) (tail : Option Nat) (xs : List (Nat × α)) : Prop where
  nodup : (xs.map Prod.fst).Nodup
  last : tail = (xs.map Prod.fst).getLast?
  linked : Linked h xs (firstOr 0 xs)

lemma isRing_nil (h : RingHeap α) : IsRing h none [] := ⟨nodup_nil, rfl, trivial⟩

lemma linked_append (h : RingHeap α) (xs : List (Nat × α)) (y : Nat × α) (ys : List (Nat × α))
    (stop : Nat) : Linked h (xs ++ y :: ys) stop ↔ Linked h xs y.1 ∧ Linked h (y :: ys) stop := by
  induction xs with
  | nil => simp [Linked]
  | cons x xs ih =>
    have hfirst : firstOr stop (xs ++ y :: ys) = firstOr y.1 xs := by
      cases xs with
      | nil => rfl
      | cons z xs => rfl
    rw [cons_append]
    constructor
    · rintro ⟨hx, hrest⟩
      obtain ⟨hxs, hys⟩ := ih.mp hrest
      exact ⟨⟨by rw [hx, hfirst], hxs⟩, hys⟩
    rintro ⟨⟨hx, hxs⟩, hys⟩
    exact ⟨by rw [hx, hfirst], ih.mpr ⟨hxs, hys⟩⟩

variable {h : RingHeap α} {xs : List (Nat × α)}

lemma linked_congr {h' : RingHeap α} {stop : Nat}
    (hag : ∀ a ∈ xs.map Prod.fst, h' a = h a) (hl : Linked h xs stop) : Linked h' xs stop := by
  induction xs with
  | nil => trivial
  | cons x xs ih =>
    refine ⟨?_, ih (fun a ha => hag a (mem_cons_of_mem _ ha)) hl.2⟩
    rw [hag x.1 (by simp)]
    exact hl.1

variable {tail : Option Nat}

lemma IsRing.congr {h' : RingHeap α} (hr : IsRing h tail xs)
    (hag : ∀ a ∈ xs.map Prod.fst, h' a = h a) : IsRing h' tail xs :=
  ⟨hr.nodup, hr.last, linked_congr hag hr.linked⟩

variable {x : Nat × α}

lemma linked_mem {stop : Nat} (hl : Linked h xs stop) (hx : x ∈ xs) : (h x.1).map RingCell.val = some x.2 := by
  induction xs with
  | nil => exact absurd hx not_mem_nil
  | cons y xs ih =>
    rcases mem_cons.mp hx with rfl | hx
    · rw [hl.1]
      rfl
    · exact ih hl.2 hx

lemma IsRing.val (hr : IsRing h tail xs) (hx : x ∈ xs) : (h x.1).map RingCell.val = some x.2 :=
  linked_mem hr.linked hx

variable {a : Nat}

lemma IsRing.not_mem (hr : IsRing h tail xs) (ha : h a = none) : a ∉ xs.map Prod.fst := by
  intro hmem
  obtain ⟨x, hx, rfl⟩ := mem_map.mp hmem
  have hval := hr.val hx
  rw [ha] at hval
  exact absurd hval (by simp)

lemma IsRing.nil_iff (hr : IsRing h tail xs) : tail = none ↔ xs = [] := by
  rw [hr.last, getLast?_eq_none_iff, map_eq_nil_iff]

variable {t : Nat}

lemma IsRing.split_last (hr : IsRing h (some t) xs) :
    ∃ ys w, xs = ys ++ [(t, w)] ∧ Linked h ys t ∧ h t = some ⟨w, firstOr 0 xs⟩ := by
  have hne : xs ≠ [] := fun h0 => absurd (hr.nil_iff.mpr h0) (by simp)
  obtain ⟨ys, y, rfl⟩ : ∃ ys y, xs = ys ++ [y] := ⟨_, _, (dropLast_append_getLast hne).symm⟩
  have hlast := hr.last
  rw [map_append, map_singleton, getLast?_concat, Option.some.injEq] at hlast
  obtain ⟨hys, hy⟩ := (linked_append h ys y [] _).mp hr.linked
  refine ⟨ys, y.2, by rw [hlast], by rw [hlast]; exact hys, ?_⟩
  rw [hlast]
  exact hy.1

lemma ringAdd_other (h : RingHeap α) (tail : Option Nat) {new : Nat} (v : α) (hnew : a ≠ new)
    (htail : tail ≠ some a) : ringAdd h tail new v a = h a := by
  cases tail with
  | none => exact update_of_ne hnew _ _
  | some t =>
    have hat : a ≠ t := fun hat => htail (by rw [hat])
    rw [ringAdd, setNext, update_of_ne hat, update_of_ne hnew]

lemma IsRing.add (hr : IsRing h tail xs) {new : Nat}
    (hfree : h new = none) (v : α) : IsRing (ringAdd h tail new v) (some new) (xs ++ [(new, v)]) := by
  have hnew := hr.not_mem hfree
  have hnodup : ((xs ++ [(new, v)]).map Prod.fst).Nodup := by
    rw [map_append, map_singleton, nodup_append]
    refine ⟨hr.nodup, nodup_singleton _, ?_⟩
    intro a ha b hb hab
    rw [hab, mem_singleton.mp hb] at ha
    exact hnew ha
  refine ⟨hnodup, by simp, ?_⟩
  cases tail with
  | none =>
    rw [hr.nil_iff.mp rfl]
    exact ⟨update_self _ _ _, trivial⟩
  | some t =>
    obtain ⟨ys, w, rfl, hys, ht⟩ := hr.split_last
    have htnew : t ≠ new := by
      rintro rfl
      rw [hfree] at ht
      exact absurd ht (by simp)
    have hfirst : firstOr 0 (ys ++ [(t, w)] ++ [(new, v)]) = firstOr 0 (ys ++ [(t, w)]) := by
      cases ys with
      | nil => rfl
      | cons y ys => rfl
    have hnext : ringNext h t = firstOr 0 (ys ++ [(t, w)]) := by
      rw [ringNext, ht]
      rfl
    have hcell : ringAdd h (some t) new v new = some ⟨v, firstOr 0 (ys ++ [(t, w)])⟩ := by
      rw [ringAdd, setNext, update_of_ne htnew.symm, update_self, hnext]
    have htail : ringAdd h (some t) new v t = some ⟨w, new⟩ := by
      rw [ringAdd, setNext, update_self, update_of_ne htnew, ht]
      rfl
    rw [hfirst, append_assoc, singleton_append, linked_append]
    refine ⟨linked_congr ?_ hys, htail, hcell, trivial⟩
    intro a ha
    have hnodup' := hr.nodup
    rw [map_append, map_singleton, nodup_append] at hnodup'
    have hat : a ≠ t := fun hat => hnodup'.2.2 a ha t (mem_singleton_self t) hat
    refine ringAdd_other h (some t) v ?_ (fun heq => hat (Option.some.inj heq).symm)
    rintro rfl
    exact hnew (by simp [ha])

lemma IsRing.next_tail (hr : IsRing h (some t) (x :: xs)) : ringNext h t = x.1 := by
  obtain ⟨ys, w, -, -, ht⟩ := hr.split_last
  rw [ringNext, ht]
  rfl

lemma ringDrop_other (h : RingHeap α) (hfirst : a ≠ ringNext h t) (htail : a ≠ t) : (ringDrop h t).1 a = h a := by
  rw [ringDrop]
  split
  · exact update_of_ne hfirst _ _
  dsimp only
  rw [update_of_ne hfirst, setNext, update_of_ne htail]

lemma IsRing.drop {h : RingHeap α} {t : Nat} {x : Nat × α} {xs : List (Nat × α)}
    (hr : IsRing h (some t) (x :: xs)) : IsRing (ringDrop h t).1 (ringDrop h t).2 xs := by
  have hfirst := hr.next_tail
  obtain ⟨hx, hnodup⟩ := nodup_cons.mp hr.nodup
  obtain ⟨ys, w, hsplit, hys, ht⟩ := hr.split_last
  rw [ringDrop, hfirst]
  cases ys with
  | nil =>
    obtain ⟨rfl, rfl⟩ := List.cons.inj hsplit
    rw [if_pos rfl]
    exact isRing_nil _
  | cons y ys =>
    rw [cons_append] at hsplit
    obtain ⟨rfl, rfl⟩ := List.cons.inj hsplit
    have hxt : x.1 ≠ t := fun hxt => hx (by rw [hxt]; simp)
    have hxcell : h x.1 = some ⟨x.2, firstOr 0 (ys ++ [(t, w)])⟩ := by
      rw [hys.1]
      cases ys with
      | nil => rfl
      | cons z ys => rfl
    have hnext : ringNext h x.1 = firstOr 0 (ys ++ [(t, w)]) := by
      rw [ringNext, hxcell]
      rfl
    rw [if_neg hxt]
    refine ⟨hnodup, by simp, ?_⟩
    rw [linked_append]
    refine ⟨linked_congr ?_ hys.2, ?_, trivial⟩
    · intro a ha
      have hat : a ≠ t := by
        rintro rfl
        rw [map_append, map_singleton, nodup_append] at hnodup
        exact hnodup.2.2 a ha a (mem_singleton_self a) rfl
      have hax : a ≠ x.1 := by
        rintro rfl
        exact hx (by simp [ha])
      dsimp only
      rw [update_of_ne hax, setNext, update_of_ne hat]
    dsimp only
    rw [update_of_ne hxt.symm, setNext, update_self, ht, hnext]
    rfl

end Vde
