import Vde.RouterPacket

/-!
# The checksum of the IP header

`net_checksum` adds the words of the header in 32 bits and folds the carry back once. The header is
valid when its words, the checksum among them, add up to a multiple of 65535.
-/

namespace Vde

/-- The words of the header add up to 0xFFFF with all carries folded. -/
def ChecksumValid (vb : VdeBuff) : Prop := 0 < byteSum vb.data 14 20 ∧ byteSum vb.data 14 20 % 65535 = 0

lemma checksumSum_toNat (mem : Mem) (off : Nat) {len : Nat} (h : len ≤ 65535) :
    (checksumSum mem off len).toNat = byteSum mem off len := by
  induction len with
  | zero => rfl
  | succ n ih =>
    have ih := ih (by omega)
    have hle := byteSum_le mem off n
    have hbyte := (mem (off + n)).toNat_lt
    have hval : (BitVec.ofNat 32 (mem (off + n)).toNat).toNat = (mem (off + n)).toNat := by
      rw [BitVec.toNat_ofNat, Nat.mod_eq_of_lt (by omega)]
    have hstep : checksumSum mem off (n + 1) =
        if n % 2 = 1 then checksumSum mem off n + BitVec.ofNat 32 (mem (off + n)).toNat
        else checksumSum mem off n + BitVec.ofNat 32 (mem (off + n)).toNat <<< 8 := by
      rw [checksumSum, List.range_succ, List.foldl_append]
      rfl
    rw [hstep, byteSum]
    split
    · rw [BitVec.toNat_add, ih, hval, Nat.mod_eq_of_lt (by omega)]
    rw [BitVec.toNat_add, ih, BitVec.toNat_shiftLeft, hval, Nat.shiftLeft_eq,
      Nat.mod_eq_of_lt (a := (mem (off + n)).toNat * 2 ^ 8) (by omega), Nat.mod_eq_of_lt (by omega)]

lemma netChecksum_toNat (mem : Mem) (off : Nat) {len : Nat} (h : len ≤ 65535) : (netChecksum mem off len).toNat =
    65535 - (byteSum mem off len % 65536 + byteSum mem off len / 65536) % 65536 := by
  have hsum := checksumSum_toNat mem off h
  have hlt := (checksumSum mem off len).isLt
  have hlow : (checksumSum mem off len &&& 0x0000FFFF).toNat = byteSum mem off len % 65536 := by
    rw [BitVec.toNat_and, hsum]
    exact Nat.and_two_pow_sub_one_eq_mod _ 16
  have hhigh : ((checksumSum mem off len &&& 0xFFFF0000) >>> 16).toNat = byteSum mem off len / 65536 := by
    rw [BitVec.ushiftRight_and_distrib, BitVec.toNat_and, BitVec.toNat_ushiftRight, hsum, Nat.shiftRight_eq_div_pow]
    have hmask : ((0xFFFF0000 : BitVec 32) >>> 16).toNat = 2 ^ 16 - 1 := rfl
    rw [hmask, Nat.and_two_pow_sub_one_eq_mod]
    omega
  simp only [netChecksum]
  rw [BitVec.toNat_setWidth, BitVec.toNat_not, BitVec.toNat_add, hlow, hhigh]
  omega

lemma folded_once_iff {S : Nat} (hS : S < 2 ^ 32) :
    (S + (65535 - (S % 65536 + S / 65536) % 65536)) % 65535 = 0 ↔ S % 65536 + S / 65536 < 65536 := by
  by_cases hcarry : S % 65536 + S / 65536 < 65536
  · have htotal : S + (65535 - (S % 65536 + S / 65536) % 65536) = 65535 * (S / 65536 + 1) := by
      rw [Nat.mod_eq_of_lt hcarry]
      omega
    rw [htotal, Nat.mul_mod_right]
    exact iff_of_true rfl hcarry
  have htotal : S + (65535 - (S % 65536 + S / 65536) % 65536) = 65535 * (S / 65536 + 2) + 1 := by
    have hwrap : (S % 65536 + S / 65536) % 65536 = S % 65536 + S / 65536 - 65536 := by omega
    rw [hwrap]
    omega
  rw [htotal, Nat.mul_add_mod]
  exact iff_of_false (by decide) hcarry

/-! ## One's complement sums -/

def L3.checksum (buf : Mem) (off len : Nat) : BitVec 16 := netChecksum buf off len

/-- Addition of 16-bit numbers in one's complement: a carry comes back at the low end. -/
def onesAdd (a b : Nat) : Nat := if a + b < 65536 then a + b else a + b - 65535

/-- The one's complement sum of the first words in a range of memory, read in network order. -/
def onesSum (mem : Mem) (off : Nat) : Nat → Nat
  | 0 => 0
  | n + 1 => onesAdd (onesSum mem off n) (ntohs (load16 mem (off + 2 * n))).toNat

/-- `sum` returns the complement of the one's complement sum of a buffer, and a buffer that holds this value
in a word that was zero before sums to 0xFFFF. -/
structure ChecksumRight (sum : Mem → Nat → Nat → BitVec 16) (buf : Mem) (off len : Nat) : Prop where
  value : (sum buf off len).toNat = 65535 - onesSum buf off (len / 2)
  filled : ∀ k, k % 2 = 0 → k + 2 ≤ len → load16 buf (off + k) = 0 →
    onesSum (store16 buf (off + k) (ntohs (sum buf off len))) off (len / 2) = 65535

section

variable {mem : Mem} {off n len : Nat}

lemma byteSum_word : byteSum mem off 2 = (ntohs (load16 mem off)).toNat := by
  rw [ntohs_load16_toNat]
  simp only [byteSum, Nat.reduceMod, Nat.reduceEqDiff, if_true, if_false, Nat.zero_add, Nat.add_zero]

lemma onesSum_lt : onesSum mem off n < 65536 := by
  induction n with
  | zero => exact Nat.zero_lt_succ _
  | succ n ih =>
    have hword := (ntohs (load16 mem (off + 2 * n))).isLt
    rw [onesSum, onesAdd]
    split <;> omega

lemma onesSum_mod : onesSum mem off n % 65535 = byteSum mem off (2 * n) % 65535 ∧
    (onesSum mem off n = 0 ↔ byteSum mem off (2 * n) = 0) := by
  induction n with
  | zero => exact ⟨rfl, Iff.rfl⟩
  | succ n ih =>
    obtain ⟨hmod, hzero⟩ := ih
    have hsplit : byteSum mem off (2 * (n + 1)) =
        byteSum mem off (2 * n) + (ntohs (load16 mem (off + 2 * n))).toNat := by
      rw [Nat.mul_succ, byteSum_append mem off 2 (Nat.mul_mod_right 2 n), byteSum_word]
    rw [onesSum, onesAdd, hsplit]
    split
    · constructor <;> omega
    · constructor <;> omega

lemma onesSum_eq : onesSum mem off n =
    if byteSum mem off (2 * n) = 0 then 0 else (byteSum mem off (2 * n) - 1) % 65535 + 1 := by
  obtain ⟨hmod, hzero⟩ := @onesSum_mod mem off n
  have hlt := @onesSum_lt mem off n
  split
  · exact hzero.mpr ‹_›
  · omega

lemma fold_eq {S : Nat} (hS : S < 2 ^ 32) (hpos : 0 < S) : (S - 1) % 65535 + 1 =
    if S % 65536 + S / 65536 < 65536 then S % 65536 + S / 65536 else S % 65536 + S / 65536 - 65535 := by
  split
  · have hform : S - 1 = 65535 * (S / 65536) + (S % 65536 + S / 65536 - 1) := by omega
    rw [hform, Nat.mul_add_mod, Nat.mod_eq_of_lt (by omega)]
    omega
  have hform : S - 1 = 65535 * (S / 65536 + 1) + (S % 65536 + S / 65536 - 65536) := by omega
  rw [hform, Nat.mul_add_mod, Nat.mod_eq_of_lt (by omega)]
  omega

lemma byteSum_store16 {k : Nat} (x : BitVec 16) (hk : k % 2 = 0) (hlen : k + 2 ≤ len)
    (hzero : load16 mem (off + k) = 0) :
    byteSum (store16 mem (off + k) (ntohs x)) off len = byteSum mem off len + x.toNat := by
  have hsplit : ∀ m : Mem, byteSum m off len =
      byteSum m off k + (ntohs (load16 m (off + k))).toNat + byteSum m (off + k + 2) (len - (k + 2)) := by
    intro m
    have hsum : len = k + (2 + (len - (k + 2))) := by omega
    conv_lhs => rw [hsum]
    rw [byteSum_append m off _ hk, byteSum_append m (off + k) _ (by decide), byteSum_word, Nat.add_assoc (byteSum m off k), Nat.add_assoc off]
  have hfront : byteSum (store16 mem (off + k) (ntohs x)) off k = byteSum mem off k :=
    byteSum_congr _ _ _ _ (fun i hi => store16_outside _ _ (by omega))
  have hback : byteSum (store16 mem (off + k) (ntohs x)) (off + k + 2) (len - (k + 2)) =
      byteSum mem (off + k + 2) (len - (k + 2)) :=
    byteSum_congr _ _ _ _ (fun i hi => store16_outside _ _ (by omega))
  have hzero' : (ntohs (load16 mem (off + k))).toNat = 0 := by
    rw [hzero]
    decide
  rw [hsplit, hsplit mem, hfront, hback, load16_store16, ntohs_ntohs, hzero']
  omega

end

/-- The carry is folded once: the checksum is right exactly if this does not carry again. -/
theorem net_checksum_right_iff (buf : Mem) (off : Nat) {len : Nat} (heven : len % 2 = 0) (hlen : len ≤ 65535) :
    (ChecksumRight netChecksum buf off len ↔
      byteSum buf off len % 65536 + byteSum buf off len / 65536 < 65536) ∧
    (ChecksumRight L3.checksum buf off len ↔
      byteSum buf off len % 65536 + byteSum buf off len / 65536 < 65536) := by
  have hwords : 2 * (len / 2) = len := by omega
  have hvalue := netChecksum_toNat buf off hlen
  have hsum := @onesSum_eq buf off (len / 2)
  rw [hwords] at hsum
  have hbound : byteSum buf off len < 2 ^ 32 := by
    have hle := byteSum_le buf off len
    omega
  have hfold := @fold_eq (byteSum buf off len) hbound
  have hright : ChecksumRight netChecksum buf off len ↔
      byteSum buf off len % 65536 + byteSum buf off len / 65536 < 65536 := by
    constructor
    · intro h
      by_contra hcarry
      have hpos : 0 < byteSum buf off len := by omega
      have hval := h.value
      rw [hvalue, hsum, if_neg hpos.ne', hfold hpos, if_neg hcarry] at hval
      omega
    intro hcarry
    refine ⟨?_, ?_⟩
    · rw [hvalue, hsum, Nat.mod_eq_of_lt hcarry]
      by_cases hzero : byteSum buf off len = 0
      · rw [hzero, if_pos rfl]
      · rw [if_neg hzero, hfold (by omega), if_pos hcarry]
    intro k hk hroom hzero
    have htotal : byteSum buf off len +
        (65535 - (byteSum buf off len % 65536 + byteSum buf off len / 65536) % 65536) =
          65535 * (byteSum buf off len / 65536) + 65535 := by
      rw [Nat.mod_eq_of_lt hcarry]
      omega
    rw [onesSum_eq, hwords, byteSum_store16 _ hk hroom hzero, hvalue, htotal, if_neg (by omega),
      Nat.add_sub_assoc (by decide), Nat.mul_add_mod]
  exact ⟨hright, hright⟩

theorem net_checksum_right_words : ChecksumRight netChecksum (memcpy (fun _ => 0) 0 [0x45, 0, 0, 20]) 0 4 ∧
    ChecksumRight L3.checksum (memcpy (fun _ => 0) 0 [0x45, 0, 0, 20]) 0 4 := by
  obtain ⟨hrouter, hl3⟩ :=
    net_checksum_right_iff (memcpy (fun _ => 0) 0 [0x45, 0, 0, 20]) 0 (show 4 % 2 = 0 by decide) (by decide)
  exact ⟨hrouter.mpr (by decide), hl3.mpr (by decide)⟩

/-- The words 0xFFFF, 0xFFFF and 1 add up to 1 with all carries; the checksum is the one of the sum zero. -/
theorem second_carry_lost : ¬(netChecksum (memcpy (fun _ => 0) 0 [255, 255, 255, 255, 0, 1]) 0 6).toNat =
    65535 - onesSum (memcpy (fun _ => 0) 0 [255, 255, 255, 255, 0, 1]) 0 3 := by
  decide

end Vde
