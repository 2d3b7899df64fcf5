import Mathlib.Data.List.Basic

/-!
# Byte memory

A block of memory is a function from offsets to bytes. `memcpy` stores a list of bytes at
an offset, `memmove` copies a range that may overlap its destination and `readBytes` reads a range
back; the lemmas say what a read sees after a write.
-/

namespace Vde

open List

/-- The contents of a block of memory, by offset. -/
abbrev Mem := Nat → UInt8

def memcpy (mem : Mem) (dst : Nat) (src : List UInt8) : Mem :=
  fun i => if dst ≤ i ∧ i < dst + src.length then src.getD (i - dst) 0 else mem i

def memmove (mem : Mem) (dst src n : Nat) : Mem :=
  fun i => if dst ≤ i ∧ i < dst + n then mem (src + (i - dst)) else mem i

def readBytes (mem : Mem) (off n : Nat) : List UInt8 :=
  (range n).map (fun i => mem (off + i))

@[simp] lemma readBytes_length (mem : Mem) (off n : Nat) : (readBytes mem off n).length = n := by
  simp [readBytes]

lemma readBytes_getElem (mem : Mem) (off n i : Nat) (h : i < (readBytes mem off n).length) :
    (readBytes mem off n)[i] = mem (off + i) := by
  simp [readBytes]

lemma memcpy_inside (mem : Mem) (dst i : Nat) (src : List UInt8) (h : i < src.length) :
    memcpy mem dst src (dst + i) = src[i] := by
  have hi : dst ≤ dst + i ∧ dst + i < dst + src.length := by omega
  simp [memcpy, hi, h]

lemma memcpy_outside (mem : Mem) (dst i : Nat) (src : List UInt8)
    (h : i < dst ∨ dst + src.length ≤ i) : memcpy mem dst src i = mem i := by
  have hi : ¬(dst ≤ i ∧ i < dst + src.length) := by omega
  simp [memcpy, hi]

variable {i : Nat}

lemma memcpy_congr {mem mem' : Mem} (dst : Nat) (src : List UInt8) (h : mem i = mem' i) :
    memcpy mem dst src i = memcpy mem' dst src i := by
  unfold memcpy
  rw [h]

variable {dst : Nat}

lemma memcpy_same {mem : Mem} {src : List UInt8}
    (h : ∀ k, (hk : k < src.length) → dst + k = i → src[k] = mem i) : memcpy mem dst src i = mem i := by
  by_cases hin : dst ≤ i ∧ i < dst + src.length
  · obtain ⟨k, rfl⟩ := Nat.exists_eq_add_of_le hin.1
    have hk : k < src.length := by omega
    rw [memcpy_inside _ _ _ _ hk, h k hk rfl]
  · exact memcpy_outside _ _ _ _ (by omega)

variable {n : Nat}

lemma memcpy_take {mem : Mem} {src : List UInt8} (h : i < dst + n) :
    memcpy mem dst (src.take n) i = memcpy mem dst src i := by
  unfold memcpy
  by_cases hin : dst ≤ i ∧ i < dst + src.length
  · have hin' : dst ≤ i ∧ i < dst + (src.take n).length := by
      rw [length_take]
      omega
    rw [if_pos hin, if_pos hin', getD_eq_getElem?_getD, getD_eq_getElem?_getD,
      getElem?_take_of_lt (by omega)]
  have hin' : ¬(dst ≤ i ∧ i < dst + (src.take n).length) := by
    rw [length_take]
    omega
  rw [if_neg hin, if_neg hin']

lemma readBytes_congr {mem mem' : Mem} {off off' : Nat}
    (h : ∀ i < n, mem (off + i) = mem' (off' + i)) : readBytes mem off n = readBytes mem' off' n := by
  apply map_congr_left
  intro i hi
  exact h i (mem_range.mp hi)

section

variable (mem : Mem)

include mem

lemma readBytes_append (off n m : Nat) :
    readBytes mem off (n + m) = readBytes mem off n ++ readBytes mem (off + n) m := by
  simp only [readBytes, range_add, map_append, map_map]
  congr 1
  apply map_congr_left
  intro i _
  simp [Nat.add_assoc]

lemma readBytes_memcpy_self (dst : Nat) (src : List UInt8) :
    readBytes (memcpy mem dst src) dst src.length = src := by
  apply ext_getElem (by simp)
  intro i hi hs
  rw [readBytes_getElem, memcpy_inside _ _ _ _ hs]

lemma readBytes_memcpy_before (dst off n : Nat) (src : List UInt8)
    (h : off + n ≤ dst) : readBytes (memcpy mem dst src) off n = readBytes mem off n := by
  apply readBytes_congr
  intro i hi
  exact memcpy_outside _ _ _ _ (by omega)

lemma readBytes_memcpy_join (off n : Nat) (src : List UInt8) :
    readBytes (memcpy mem (off + n) src) off (n + src.length) = readBytes mem off n ++ src := by
  rw [readBytes_append, readBytes_memcpy_before _ _ _ _ _ (Nat.le_refl _), readBytes_memcpy_self]

lemma readBytes_take (off : Nat) {k : Nat} (h : k ≤ n) : (readBytes mem off n).take k = readBytes mem off k := by
  obtain ⟨m, rfl⟩ := Nat.exists_eq_add_of_le h
  rw [readBytes_append]
  exact take_left' (readBytes_length mem off k)

lemma readBytes_drop (off : Nat) {k : Nat} (h : k ≤ n) :
    (readBytes mem off n).drop k = readBytes mem (off + k) (n - k) := by
  obtain ⟨m, rfl⟩ := Nat.exists_eq_add_of_le h
  rw [readBytes_append, Nat.add_sub_cancel_left]
  exact drop_left' (readBytes_length mem off k)

lemma memmove_inside (dst src : Nat) (h : i < n) : memmove mem dst src n (dst + i) = mem (src + i) := by
  have hi : dst ≤ dst + i ∧ dst + i < dst + n := by omega
  simp [memmove, hi]

lemma memmove_outside (src : Nat) (h : i < dst ∨ dst + n ≤ i) : memmove mem dst src n i = mem i := by
  have hi : ¬(dst ≤ i ∧ i < dst + n) := by omega
  simp [memmove, hi]

lemma readBytes_memmove_self (dst src n : Nat) : readBytes (memmove mem dst src n) dst n = readBytes mem src n :=
  readBytes_congr (fun _ hi => memmove_inside mem dst src hi)

lemma readBytes_memmove_after (dst src : Nat) {off m : Nat} (h : dst + n ≤ off) :
    readBytes (memmove mem dst src n) off m = readBytes mem off m :=
  readBytes_congr (fun _ _ => memmove_outside mem src (by omega))

lemma readBytes_memcpy_after (dst off n : Nat) (src : List UInt8)
    (h : dst + src.length ≤ off) : readBytes (memcpy mem dst src) off n = readBytes mem off n :=
  readBytes_congr (fun _ _ => memcpy_outside _ _ _ _ (by omega))

lemma memcpy_memcpy (dst : Nat) (a b : List UInt8) :
    memcpy (memcpy mem dst a) (dst + a.length) b = memcpy mem dst (a ++ b) := by
  funext i
  by_cases hb : dst + a.length ≤ i ∧ i < dst + a.length + b.length
  · obtain ⟨k, rfl⟩ := Nat.exists_eq_add_of_le hb.1
    rw [memcpy_inside _ _ _ _ (by omega), Nat.add_assoc, memcpy_inside _ _ _ _ (by rw [length_append]; omega),
      getElem_append_right (by omega)]
    simp only [Nat.add_sub_cancel_left]
  rw [memcpy_outside _ _ _ _ (by omega)]
  by_cases ha : dst ≤ i ∧ i < dst + a.length
  · obtain ⟨k, rfl⟩ := Nat.exists_eq_add_of_le ha.1
    rw [memcpy_inside _ _ _ _ (by omega), memcpy_inside _ _ _ _ (by rw [length_append]; omega),
      getElem_append_left (by omega)]
  · rw [memcpy_outside _ _ _ _ (by omega), memcpy_outside _ _ _ _ (by rw [length_append]; omega)]

end

section Holds

def HoldsBytes (mem : Mem) (off : Nat) (bytes : List UInt8) : Prop := readBytes mem off bytes.length = bytes

variable {mem mem' : Mem} {off : Nat} {a b : List UInt8}

lemma holdsBytes_nil (mem : Mem) (off : Nat) : HoldsBytes mem off [] := rfl

lemma holdsBytes_memcpy (mem : Mem) (off : Nat) (a : List UInt8) : HoldsBytes (memcpy mem off a) off a :=
  readBytes_memcpy_self mem off a

lemma HoldsBytes.congr (h : HoldsBytes mem off a) (heq : ∀ i < a.length, mem' (off + i) = mem (off + i)) :
    HoldsBytes mem' off a :=
  (readBytes_congr heq).trans h

lemma holdsBytes_append : HoldsBytes mem off (a ++ b) ↔ HoldsBytes mem off a ∧ HoldsBytes mem (off + a.length) b := by
  rw [HoldsBytes, length_append, readBytes_append]
  constructor
  · intro h
    exact append_inj h (readBytes_length mem off a.length)
  rintro ⟨ha, hb⟩
  rw [ha, hb]

lemma HoldsBytes.byte (h : HoldsBytes mem off a) (hi : i < a.length) : mem (off + i) = a[i] := by
  have hread := readBytes_getElem mem off a.length i (by rwa [readBytes_length])
  rw [← hread]
  congr 1

end Holds

end Vde
