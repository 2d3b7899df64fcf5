import Mathlib.Data.List.Perm.Subperm
import Mathlib.Order.Lattice

/-!
# Red-black trees with parent links

A node of such a tree knows its parent, so an insertion links a red leaf at its place and then
repairs the colours on the way to the root. The way is kept as the list of the steps that lead
from a place to the root. Repairing changes colours and rotates, and leaves the nodes in order.
-/

namespace Vde

open List

universe u v

variable {α : Type u} {κ : Type v}

inductive RbColor where
  | red
  | black
  deriving DecidableEq, Repr

inductive RbTree (α : Type u) where
  | nil
  | node (color : RbColor) (left : RbTree α) (x : α) (right : RbTree α)

/-- A parent seen from one of its children: on which side the child is, and all the rest. -/
structure RbStep (α : Type u) where
  isLeft : Bool
  color : RbColor
  x : α
  sibling : RbTree α

namespace RbTree

def toList : RbTree α → List α
  | nil => []
  | node _ left x right => left.toList ++ x :: right.toList

def isRed : RbTree α → Bool
  | node .red _ _ _ => true
  | _ => false

def setBlack : RbTree α → RbTree α
  | node _ left x right => node .black left x right
  | nil => nil

def leftSpine : RbTree α → List α
  | nil => []
  | node _ left x _ => x :: left.leftSpine

def rightSpine : RbTree α → List α
  | nil => []
  | node _ _ x right => x :: right.rightSpine

/-- The elements on these two ways, the root once. -/
def outer : RbTree α → List α
  | nil => []
  | node _ left x right => (x :: left.leftSpine) ++ right.rightSpine

end RbTree

def RbStep.fill (s : RbStep α) (t : RbTree α) : RbTree α :=
  if s.isLeft then .node s.color t s.x s.sibling else .node s.color s.sibling s.x t

def RbTree.fill (t : RbTree α) : List (RbStep α) → RbTree α
  | [] => t
  | s :: path => (s.fill t).fill path

def rbRotate (parent gparent : RbStep α) (left : RbTree α) (x : α) (right : RbTree α) : RbTree α :=
  match gparent.isLeft, parent.isLeft with
  | true, true =>
    .node .black (.node .red left x right) parent.x (.node .red parent.sibling gparent.x gparent.sibling)
  | true, false =>
    .node .black (.node .red parent.sibling parent.x left) x (.node .red right gparent.x gparent.sibling)
  | false, true =>
    .node .black (.node .red gparent.sibling gparent.x left) x (.node .red right parent.x parent.sibling)
  | false, false =>
    .node .black (.node .red gparent.sibling gparent.x parent.sibling) parent.x (.node .red left x right)

/-- `rb_insert_color` for the red node with the given children at the end of a way. The root is
black, so a red parent has a parent itself. -/
def rbInsertColor (left : RbTree α) (x : α) (right : RbTree α) : List (RbStep α) → RbTree α
  | parent :: gparent :: path =>
    if parent.color = .red then
      if gparent.sibling.isRed then
        let child := { parent with color := .black }.fill (.node .red left x right)
        if gparent.isLeft then rbInsertColor child gparent.x gparent.sibling.setBlack path
        else rbInsertColor gparent.sibling.setBlack gparent.x child path
      else ((rbRotate parent gparent left x right).fill path).setBlack
    else ((RbTree.node .red left x right).fill (parent :: gparent :: path)).setBlack
  | path => ((RbTree.node .red left x right).fill path).setBlack

def rbBefore : List (RbStep α) → List α
  | [] => []
  | s :: path => rbBefore path ++ if s.isLeft then [] else s.sibling.toList ++ [s.x]

def rbAfter : List (RbStep α) → List α
  | [] => []
  | s :: path => (if s.isLeft then s.x :: s.sibling.toList else []) ++ rbAfter path

variable {t : RbTree α} {x : α}

namespace RbTree

@[simp] lemma toList_setBlack (t : RbTree α) : t.setBlack.toList = t.toList := by
  cases t <;> rfl

lemma toList_fill (t : RbTree α) (path : List (RbStep α)) :
    (t.fill path).toList = rbBefore path ++ t.toList ++ rbAfter path := by
  induction path generalizing t with
  | nil => simp [fill, rbBefore, rbAfter]
  | cons s path ih =>
    rw [fill, ih, RbStep.fill, rbBefore, rbAfter]
    split
    · simp [toList]
    · simp [toList]

lemma mem_leftSpine (h : x ∈ t.leftSpine) : x ∈ t.toList := by
  induction t with
  | nil => simp [leftSpine] at h
  | node color left y right ihl _ =>
    rcases mem_cons.mp h with rfl | h
    · simp [toList]
    · simp [toList, ihl h]

lemma mem_rightSpine (h : x ∈ t.rightSpine) : x ∈ t.toList := by
  induction t with
  | nil => simp [rightSpine] at h
  | node color left y right _ ihr =>
    rcases mem_cons.mp h with rfl | h
    · simp [toList]
    · simp [toList, ihr h]

lemma leftSpine_sublist (t : RbTree α) : t.leftSpine.reverse.Sublist t.toList := by
  induction t with
  | nil => exact Sublist.refl _
  | node color left x right ihl _ =>
    rw [leftSpine, reverse_cons, toList]
    exact ihl.append (Sublist.cons_cons x (nil_sublist _))

lemma rightSpine_sublist (t : RbTree α) : t.rightSpine.Sublist t.toList := by
  induction t with
  | nil => exact Sublist.refl _
  | node color left x right _ ihr =>
    rw [rightSpine, toList]
    exact sublist_append_of_sublist_right (ihr.cons_cons x)

lemma outer_subperm (t : RbTree α) : t.outer.Subperm t.toList := by
  cases t with
  | nil => exact Subperm.refl _
  | node color left x right =>
    have hsub : (left.leftSpine.reverse ++ x :: right.rightSpine).Sublist (node color left x right).toList :=
      (leftSpine_sublist left).append ((rightSpine_sublist right).cons_cons x)
    have hperm : (node color left x right).outer.Perm (left.leftSpine.reverse ++ x :: right.rightSpine) := by
      rw [outer, cons_append]
      exact ((reverse_perm _).symm.append_right _ |>.cons x).trans perm_middle.symm
    exact hperm.subperm.trans hsub.subperm

lemma mem_outer : x ∈ t.outer ↔ x ∈ t.leftSpine ∨ x ∈ t.rightSpine := by
  cases t with
  | nil => simp [outer, leftSpine, rightSpine]
  | node color left y right =>
    simp only [outer, leftSpine, rightSpine, mem_append, mem_cons]
    tauto

end RbTree

lemma toList_rbRotate (parent gparent : RbStep α) (left : RbTree α) (x : α) (right : RbTree α) :
    (rbRotate parent gparent left x right).toList =
    (gparent.fill (parent.fill (.node .red left x right))).toList := by
  obtain ⟨pleft, pcolor, px, psibling⟩ := parent
  obtain ⟨gleft, gcolor, gx, gsibling⟩ := gparent
  cases gleft <;> cases pleft <;> simp [rbRotate, RbStep.fill, RbTree.toList]

lemma toList_rbInsertColor (left : RbTree α) (x : α) (right : RbTree α) (path : List (RbStep α)) :
    (rbInsertColor left x right path).toList =
    rbBefore path ++ (left.toList ++ x :: right.toList) ++ rbAfter path := by
  induction hn : path.length using Nat.strong_induction_on generalizing left x right path with
  | _ n ih =>
  match path with
  | [] => simp [rbInsertColor, RbTree.toList_fill, RbTree.toList]
  | [s] => simp [rbInsertColor, RbTree.toList_fill, RbTree.toList]
  | parent :: gparent :: path =>
    have ih (left : RbTree α) (x : α) (right : RbTree α) :=
      ih path.length (by simp only [length_cons] at hn; omega) left x right path rfl
    have hplain : (RbTree.node .red left x right).toList = left.toList ++ x :: right.toList := rfl
    rw [rbInsertColor]
    split
    · split
      · -- recolouring: the grandparent is the next red node
        have hchild : ({ parent with color := .black }.fill (.node .red left x right)).toList =
            (parent.fill (.node .red left x right)).toList := by
          simp only [RbStep.fill]
          split <;> rfl
        obtain ⟨pleft, pcolor, px, psibling⟩ := parent
        dsimp only
        split
        · rename_i hleft
          rw [ih, RbTree.toList_setBlack, hchild]
          simp only [rbBefore, rbAfter, hleft, RbStep.fill]
          cases pleft <;> simp [RbTree.toList]
        rename_i hright
        rw [ih, RbTree.toList_setBlack, hchild]
        simp only [rbBefore, rbAfter, hright, RbStep.fill]
        cases pleft <;> simp [RbTree.toList]
      rw [RbTree.toList_setBlack, RbTree.toList_fill, toList_rbRotate, ← RbTree.toList_fill]
      change (RbTree.fill (.node .red left x right) (parent :: gparent :: path)).toList = _
      rw [RbTree.toList_fill, hplain]
    · rw [RbTree.toList_setBlack, RbTree.toList_fill, hplain]

variable {path : List (RbStep α)}

section Search

variable [LinearOrder κ] (key : α → κ)

def rbSearch (k : κ) : RbTree α → Option α
  | .nil => none
  | .node _ left x right =>
    if k < key x then rbSearch k left else if key x < k then rbSearch k right else some x

/-- The way down to a key: the element that has it, or the place where it belongs. -/
def rbDescend (k : κ) : RbTree α → List (RbStep α) → α ⊕ List (RbStep α)
  | .nil, path => .inr path
  | .node color left x right, path =>
    if k < key x then rbDescend k left (⟨true, color, x, right⟩ :: path)
    else if key x < k then rbDescend k right (⟨false, color, x, left⟩ :: path)
    else .inl x

def KeySorted (xs : List α) : Prop := xs.Pairwise (fun a b => key a < key b)

variable {key}

lemma keySorted_node {color : RbColor} {left right : RbTree α}
    (h : KeySorted key (RbTree.node color left x right).toList) : KeySorted key left.toList ∧
    KeySorted key right.toList ∧ (∀ y ∈ left.toList, key y < key x) ∧ ∀ y ∈ right.toList, key x < key y := by
  obtain ⟨hl, hr, hlr⟩ := pairwise_append.mp h
  obtain ⟨hx, hr⟩ := pairwise_cons.mp hr
  exact ⟨hl, hr, fun y hy => hlr y hy x (by simp), hx⟩

lemma rbSearch_eq_some (h : KeySorted key t.toList) (k : κ) (x : α) :
    rbSearch key k t = some x ↔ x ∈ t.toList ∧ key x = k := by
  induction t with
  | nil => simp [rbSearch, RbTree.toList]
  | node color left y right ihl ihr =>
    obtain ⟨hl, hr, hleft, hright⟩ := keySorted_node h
    rw [rbSearch, RbTree.toList, mem_append, mem_cons]
    by_cases hlt : k < key y
    · rw [if_pos hlt, ihl hl]
      constructor
      · rintro ⟨hx, hk⟩
        exact ⟨.inl hx, hk⟩
      rintro ⟨hx | rfl | hx, rfl⟩
      · exact ⟨hx, rfl⟩
      · exact absurd hlt (lt_irrefl _)
      · exact absurd (hlt.trans (hright x hx)) (lt_irrefl _)
    rw [if_neg hlt]
    by_cases hgt : key y < k
    · rw [if_pos hgt, ihr hr]
      constructor
      · rintro ⟨hx, hk⟩
        exact ⟨.inr (.inr hx), hk⟩
      rintro ⟨hx | rfl | hx, rfl⟩
      · exact absurd (hgt.trans (hleft x hx)) (lt_irrefl _)
      · exact absurd hgt (lt_irrefl _)
      · exact ⟨hx, rfl⟩
    rw [if_neg hgt]
    have hk : key y = k := le_antisymm (not_lt.mp hlt) (not_lt.mp hgt)
    constructor
    · intro hsome
      obtain rfl := Option.some.inj hsome
      exact ⟨.inr (.inl rfl), hk⟩
    rintro ⟨hx | rfl | hx, hkx⟩
    · exact absurd (hleft x hx) (by rw [hkx, hk]; exact lt_irrefl _)
    · rfl
    · exact absurd (hright x hx) (by rw [hkx, hk]; exact lt_irrefl _)

lemma rbDescend_found {k : κ} : rbDescend key k t path = .inl x ↔ rbSearch key k t = some x := by
  induction t generalizing path with
  | nil => simp [rbDescend, rbSearch]
  | node color left y right ihl ihr =>
    rw [rbDescend, rbSearch]
    split
    · exact ihl
    split
    · exact ihr
    · simp

lemma rbDescend_place {k : κ} {path' : List (RbStep α)} (h : KeySorted key t.toList)
    (hd : rbDescend key k t path = .inr path') (hbefore : ∀ y ∈ rbBefore path, key y < k)
    (hafter : ∀ y ∈ rbAfter path, k < key y) : rbBefore path' ++ rbAfter path' =
    rbBefore path ++ t.toList ++ rbAfter path ∧ (∀ y ∈ rbBefore path', key y < k) ∧ ∀ y ∈ rbAfter path',
    k < key y := by
  induction t generalizing path with
  | nil =>
    simp only [rbDescend, Sum.inr.injEq] at hd
    subst hd
    exact ⟨by simp [RbTree.toList], hbefore, hafter⟩
  | node color left x right ihl ihr =>
    obtain ⟨hl, hr, hleft, hright⟩ := keySorted_node h
    rw [rbDescend] at hd
    by_cases hlt : k < key x
    · rw [if_pos hlt] at hd
      obtain ⟨hlist, hb, ha⟩ := ihl hl hd (by simpa [rbBefore] using hbefore) (by
        intro y hy
        simp only [rbAfter, if_true, mem_append, mem_cons] at hy
        rcases hy with (rfl | hy) | hy
        · exact hlt
        · exact hlt.trans (hright y hy)
        · exact hafter y hy)
      exact ⟨by rw [hlist]; simp [rbBefore, rbAfter, RbTree.toList], hb, ha⟩
    rw [if_neg hlt] at hd
    by_cases hgt : key x < k
    · rw [if_pos hgt] at hd
      obtain ⟨hlist, hb, ha⟩ := ihr hr hd (by
        intro y hy
        simp only [rbBefore, Bool.false_eq_true, if_false, mem_append, mem_singleton] at hy
        rcases hy with hy | hy | rfl
        · exact hbefore y hy
        · exact (hleft y hy).trans hgt
        · exact hgt) (by simpa [rbAfter] using hafter)
      exact ⟨by rw [hlist]; simp [rbBefore, rbAfter, RbTree.toList], hb, ha⟩
    rw [if_neg hgt] at hd
    exact absurd hd (by simp)

lemma rbInsertColor_sorted (h : KeySorted key t.toList)
    (hd : rbDescend key (key x) t [] = .inr path) : KeySorted key (rbInsertColor .nil x .nil path).toList ∧ ∀ y,
    y ∈ (rbInsertColor .nil x .nil path).toList ↔ y = x ∨ y ∈ t.toList := by
  obtain ⟨hlist, hb, ha⟩ := rbDescend_place h hd (by simp [rbBefore]) (by simp [rbAfter])
  simp only [rbBefore, rbAfter, nil_append, append_nil] at hlist
  have hsorted : KeySorted key (rbBefore path ++ rbAfter path) := hlist ▸ h
  obtain ⟨hsb, hsa, hba⟩ := pairwise_append.mp hsorted
  rw [toList_rbInsertColor]
  simp only [RbTree.toList, nil_append]
  constructor
  · rw [KeySorted, append_assoc, pairwise_append]
    refine ⟨hsb, pairwise_cons.mpr ⟨ha, hsa⟩, ?_⟩
    intro y hy z hz
    rcases mem_cons.mp hz with rfl | hz
    · exact hb y hy
    · exact hba y hy z hz
  intro y
  rw [← hlist]
  simp only [mem_append, mem_singleton]
  tauto

end Search

end Vde
