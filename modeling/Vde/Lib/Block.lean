import Mathlib.Data.List.Basic
import Vde.Lib.CInt

/-!
# Blocks of memory

A block of `size` elements, as `malloc` and `realloc` return them; a `NULL` pointer is a block
without elements. An access outside of its block has no result.
-/

namespace Vde

open List Function

universe u

structure Block (α : Type u) where
  size : Nat
  elems : Nat → α

variable {b : Block UInt8}

namespace Block

variable {α : Type u}

def load (b : Block α) (i : Nat) : Option α := if i < b.size then some (b.elems i) else none

def store (b : Block α) (i : Nat) (v : α) : Option (Block α) :=
  if i < b.size then some { b with elems := update b.elems i v } else none

def storeList (b : Block α) (i : Nat) : List α → Option (Block α)
  | [] => some b
  | v :: vs => (b.store i v).bind (fun b => b.storeList (i + 1) vs)

def loadList (b : Block α) (i : Nat) : Nat → Option (List α)
  | 0 => some []
  | n + 1 => (b.load i).bind (fun v => (b.loadList (i + 1) n).map (v :: ·))

def realloc (b : Block α) (n : Nat) (fresh : Nat → α) : Block α :=
  ⟨n, fun i => if i < b.size then b.elems i else fresh i⟩

/-- `realloc` of bytes with a size computed as an `int`. It fails for a size that no object
has. -/
def reallocInt (b : Block UInt8) (n : Int) (fresh : Nat → UInt8) : Block UInt8 :=
  if toSize n ≤ ptrdiffMax then b.realloc (toSize n) fresh else ⟨0, fresh⟩

def strlen (b : Block UInt8) : Option Nat := (range b.size).find? (fun i => b.elems i == 0)

lemma load_eq_some {b : Block α} {i : Nat} {v : α} : b.load i = some v ↔ i < b.size ∧ b.elems i = v := by
  rw [load]
  split
  · next h => simp [h]
  · next h => simp [h]

lemma store_eq_some {b b' : Block α} {i : Nat} {v : α} :
    b.store i v = some b' ↔ i < b.size ∧ b' = { b with elems := update b.elems i v } := by
  rw [store]
  split
  · next h => simp [h, eq_comm]
  · next h => simp [h]

lemma exists_store {b : Block α} {i : Nat} (v : α) (h : i < b.size) : ∃ b', b.store i v = some b' ∧ b'.size =
    b.size ∧ b'.elems i = v ∧ ∀ j, j ≠ i → b'.elems j = b.elems j :=
  ⟨_, if_pos h, rfl, update_self i v b.elems,
    fun _ hj => update_of_ne hj v b.elems⟩

lemma exists_storeList {b : Block α} {i : Nat} {vs : List α} (h : i + vs.length ≤ b.size) : ∃ b', b.storeList i vs =
    some b' ∧ b'.size = b.size ∧ (∀ k, (hk : k < vs.length) → b'.elems (i + k) = vs[k]) ∧ ∀ j,
    (j < i ∨ i + vs.length ≤ j) → b'.elems j = b.elems j := by
  induction vs generalizing b i with
  | nil => exact ⟨b, rfl, rfl, fun k hk => absurd hk (Nat.not_lt_zero k), fun j _ => rfl⟩
  | cons v vs ih =>
    rw [length_cons] at h
    obtain ⟨c, hc, hcs, hci, hcj⟩ := @exists_store _ b i v (by omega)
    obtain ⟨b', hb', hsize, hin, hout⟩ := @ih c (i + 1) (by omega)
    refine ⟨b', ?_, hsize.trans hcs, ?_, ?_⟩
    · rw [storeList, hc, Option.bind_some, hb']
    · intro k hk
      cases k with
      | zero =>
        rw [Nat.add_zero, hout i (Or.inl (Nat.lt_succ_self i)), hci]
        rfl
      | succ k =>
        rw [length_cons] at hk
        rw [show i + (k + 1) = i + 1 + k by omega, hin k (by omega)]
        rfl
    intro j hj
    rw [length_cons] at hj
    rw [hout j (by omega), hcj j (by omega)]

lemma storeList_append (b : Block α) (i : Nat) (vs ws : List α) :
    b.storeList i (vs ++ ws) = (b.storeList i vs).bind (fun b => b.storeList (i + vs.length) ws) := by
  induction vs generalizing b i with
  | nil => rfl
  | cons v vs ih =>
    rw [cons_append, storeList, storeList, Option.bind_assoc, length_cons]
    congr 1
    funext c
    rw [ih, show i + 1 + vs.length = i + (vs.length + 1) by omega]

lemma storeList_singleton (b : Block α) (i : Nat) (v : α) : b.storeList i [v] = b.store i v := by
  rw [storeList]
  cases b.store i v with
  | none => rfl
  | some _ => rfl

lemma loadList_singleton {b : Block α} {i : Nat} {v : α} : b.loadList i 1 = some [v] ↔ b.load i = some v := by
  rw [loadList]
  cases b.load i with
  | none => simp
  | some w => simp [loadList]

lemma loadList_eq {b : Block α} {i : Nat} {vs : List α} (h : i + vs.length ≤ b.size)
    (hvs : ∀ k, (hk : k < vs.length) → b.elems (i + k) = vs[k]) : b.loadList i vs.length = some vs := by
  induction vs generalizing i with
  | nil => rfl
  | cons v vs ih =>
    rw [length_cons] at h
    have hfirst : b.load i = some v := load_eq_some.mpr ⟨by omega, hvs 0 (Nat.zero_lt_succ _)⟩
    have hrest : b.loadList (i + 1) vs.length = some vs := by
      apply ih (by omega)
      intro k hk
      rw [Nat.add_assoc, Nat.add_comm 1 k]
      exact hvs (k + 1) (Nat.succ_lt_succ hk)
    rw [length_cons, loadList, hfirst, Option.bind_some, hrest]
    rfl

lemma loadList_append {b : Block α} {i : Nat} {vs ws : List α} : b.loadList i (vs ++ ws).length = some (vs ++ ws) ↔
    b.loadList i vs.length = some vs ∧ b.loadList (i + vs.length) ws.length = some ws := by
  induction vs generalizing i with
  | nil => exact (and_iff_right rfl).symm
  | cons v vs ih =>
    have hcons : ∀ us : List α, b.loadList i (v :: us).length = some (v :: us) ↔
        b.load i = some v ∧ b.loadList (i + 1) us.length = some us := by
      intro us
      rw [length_cons, loadList]
      cases b.load i with
      | none => simp
      | some w => simp [Option.map_eq_some_iff, and_comm]
    rw [cons_append, hcons, hcons, ih, and_assoc, length_cons, Nat.add_assoc i, Nat.add_comm 1]

lemma size_of_storeList {b b' : Block α} {i : Nat} {vs : List α} (h : b.storeList i vs = some b') :
    b'.size = b.size ∧ (vs ≠ [] → i + vs.length ≤ b.size) := by
  induction vs generalizing b i with
  | nil =>
    rw [storeList, Option.some.injEq] at h
    rw [h]
    exact ⟨rfl, fun hne => absurd rfl hne⟩
  | cons v vs ih =>
    rw [storeList, Option.bind_eq_some_iff] at h
    obtain ⟨c, hc, h⟩ := h
    obtain ⟨hi, rfl⟩ := store_eq_some.mp hc
    obtain ⟨hsize, hlen⟩ := ih h
    refine ⟨hsize, fun _ => ?_⟩
    rw [length_cons]
    cases vs with
    | nil =>
      rw [length_nil]
      omega
    | cons w ws =>
      have hlen := hlen (cons_ne_nil w ws)
      dsimp only at hlen
      omega

@[simp] lemma realloc_size (b : Block α) (n : Nat) (fresh : Nat → α) : (b.realloc n fresh).size = n :=
  rfl

lemma reallocInt_size {n : Int} {fresh : Nat → UInt8} (h0 : 0 ≤ n)
    (h1 : n < 2147483648) : (b.reallocInt n fresh).size = n.toNat := by
  have hn : toSize n = n.toNat := toSize_of_nonneg h0 (by omega)
  rw [reallocInt, hn, if_pos (by rw [ptrdiffMax]; omega), realloc_size]

lemma reallocInt_size_neg {n : Int} {fresh : Nat → UInt8} (h0 : n < 0)
    (h1 : -2147483648 ≤ n) : (b.reallocInt n fresh).size = 0 := by
  have hn : ¬toSize n ≤ ptrdiffMax := by
    rw [toSize, ptrdiffMax]
    omega
  rw [reallocInt, if_neg hn]

lemma strlen_eq_some {n : Nat} : b.strlen = some n ↔ n < b.size ∧ b.elems n = 0 ∧ ∀ i < n, b.elems i ≠ 0 := by
  rw [strlen, find?_eq_some_iff_getElem]
  constructor
  · rintro ⟨h0, i, hi, hin, hbefore⟩
    rw [length_range] at hi
    rw [getElem_range] at hin
    subst hin
    refine ⟨hi, by simpa using h0, fun j hj => ?_⟩
    simpa using hbefore j hj
  rintro ⟨hn, h0, hbefore⟩
  refine ⟨by simpa using h0, n, by simpa using hn, by simp, fun j hj => ?_⟩
  simpa using hbefore j hj

end Block

end Vde
