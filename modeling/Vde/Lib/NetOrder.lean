import Mathlib.Algebra.Ring.Nat
import Vde.Lib.Bytes

/-!
# Network byte order

Addresses are kept as they lie in a packet, the first byte lowest, and are turned into numbers
before they are compared. `ntohl` reverses the bytes of a word, so it commutes with the bitwise
operations; a netmask is a word whose number is a row of ones followed by zeros. The fields of a
header are words of two or four bytes at an offset in memory.
-/

namespace Vde

/-- `ntohl` and `htonl` on a little endian machine. -/
def ntohl (x : BitVec 32) : BitVec 32 :=
  x.extractLsb' 0 8 ++ x.extractLsb' 8 8 ++ x.extractLsb' 16 8 ++ x.extractLsb' 24 8

/-- `ntohs` and `htons` on a little endian machine. -/
def ntohs (x : BitVec 16) : BitVec 16 := x.extractLsb' 0 8 ++ x.extractLsb' 8 8

def load16 (mem : Mem) (off : Nat) : BitVec 16 := (mem (off + 1)).toBitVec ++ (mem off).toBitVec

def load32 (mem : Mem) (off : Nat) : BitVec 32 :=
  (mem (off + 3)).toBitVec ++ (mem (off + 2)).toBitVec ++ (mem (off + 1)).toBitVec ++ (mem off).toBitVec

def bytes16 (x : BitVec 16) : List UInt8 := [⟨x.extractLsb' 0 8⟩, ⟨x.extractLsb' 8 8⟩]

def bytes32 (x : BitVec 32) : List UInt8 :=
  [⟨x.extractLsb' 0 8⟩, ⟨x.extractLsb' 8 8⟩, ⟨x.extractLsb' 16 8⟩, ⟨x.extractLsb' 24 8⟩]

def store16 (mem : Mem) (off : Nat) (x : BitVec 16) : Mem := memcpy mem off (bytes16 x)

def store32 (mem : Mem) (off : Nat) (x : BitVec 32) : Mem := memcpy mem off (bytes32 x)

def store8 (mem : Mem) (off : Nat) (x : UInt8) : Mem := memcpy mem off [x]

/-- The netmask with `len` leading ones, in host order. -/
def maskOf (len : Nat) : BitVec 32 := BitVec.ofNat 32 (2 ^ 32 - 2 ^ (32 - len))

def IsNetmask (netmask : BitVec 32) : Prop := ∃ len ≤ 32, ntohl netmask = maskOf len

def masklen (netmask : BitVec 32) : Nat :=
  (List.range 32).countP (fun i => (ntohl netmask).getLsbD i)

lemma getLsbD_ntohl (x : BitVec 32) {i : Nat} (h : i < 32) :
    (ntohl x).getLsbD i = x.getLsbD (24 - 8 * (i / 8) + i % 8) := by
  simp only [ntohl, BitVec.getLsbD_append, BitVec.getLsbD_extractLsb']
  -- one case for each byte of the word
  obtain h0 | h1 | h2 | h3 : i / 8 = 0 ∨ i / 8 = 1 ∨ i / 8 = 2 ∨ i / 8 = 3 := by omega
  · simp [show i < 8 by omega, h0, show i % 8 = i by omega]
  · simp [show ¬i < 8 by omega, show i - 8 < 8 by omega, h1, show i % 8 = i - 8 by omega]
  · simp [show ¬i < 8 by omega, show ¬i - 8 < 8 by omega, show i - 8 - 8 < 8 by omega, h2,
      show i % 8 = i - 8 - 8 by omega]
  · simp [show ¬i < 8 by omega, show ¬i - 8 < 8 by omega, show ¬i - 8 - 8 < 8 by omega,
      show i - 8 - 8 - 8 < 8 by omega, h3, show i % 8 = i - 8 - 8 - 8 by omega]

@[simp] lemma ntohl_and (x y : BitVec 32) : ntohl (x &&& y) = ntohl x &&& ntohl y := by
  apply BitVec.eq_of_getLsbD_eq
  intro i hi
  simp only [getLsbD_ntohl _ hi, BitVec.getLsbD_and]

@[simp] lemma ntohl_ntohl (x : BitVec 32) : ntohl (ntohl x) = x := by
  apply BitVec.eq_of_getLsbD_eq
  intro i hi
  rw [getLsbD_ntohl _ hi, getLsbD_ntohl _ (by omega)]
  congr 1
  omega

@[simp] lemma ntohl_inj {x y : BitVec 32} : ntohl x = ntohl y ↔ x = y := by
  constructor
  · intro h
    rw [← ntohl_ntohl x, h, ntohl_ntohl]
  rintro rfl
  rfl

lemma append_bytes16 (x : BitVec 16) : x.extractLsb' 8 8 ++ x.extractLsb' 0 8 = x := by
  rw [BitVec.extractLsb'_append_extractLsb'_eq_extractLsb' (show 8 = 0 + 8 from rfl)]
  exact BitVec.extractLsb'_eq_self

lemma append_bytes32 (x : BitVec 32) :
    x.extractLsb' 24 8 ++ x.extractLsb' 16 8 ++ x.extractLsb' 8 8 ++ x.extractLsb' 0 8 = x := by
  rw [BitVec.extractLsb'_append_extractLsb'_eq_extractLsb' (show 24 = 16 + 8 from rfl),
    BitVec.extractLsb'_append_extractLsb'_eq_extractLsb' (show 16 = 8 + 8 from rfl),
    BitVec.extractLsb'_append_extractLsb'_eq_extractLsb' (show 8 = 0 + 8 from rfl)]
  exact BitVec.extractLsb'_eq_self

lemma ntohs_low (x : BitVec 16) : (ntohs x).extractLsb' 0 8 = x.extractLsb' 8 8 := by
  rw [ntohs, BitVec.extractLsb'_append_eq_of_add_le (by decide)]
  exact BitVec.extractLsb'_eq_self

lemma ntohs_high (x : BitVec 16) : (ntohs x).extractLsb' 8 8 = x.extractLsb' 0 8 := by
  rw [ntohs, BitVec.extractLsb'_append_eq_of_le (by decide)]
  exact BitVec.extractLsb'_eq_self

@[simp] lemma ntohs_ntohs (x : BitVec 16) : ntohs (ntohs x) = x := by
  conv_lhs => rw [ntohs]
  rw [ntohs_low, ntohs_high, append_bytes16]

section Fields

variable (mem : Mem) {off i : Nat}

lemma store8_same (x : UInt8) : store8 mem off x off = x := by
  simp [store8, memcpy]

lemma store8_outside (x : UInt8) (h : i < off ∨ off + 1 ≤ i) : store8 mem off x i = mem i :=
  memcpy_outside mem off i [x] h

lemma store16_first (x : BitVec 16) : store16 mem off x off = ⟨x.extractLsb' 0 8⟩ := by
  simp [store16, memcpy, bytes16]

lemma store16_second (x : BitVec 16) : store16 mem off x (off + 1) = ⟨x.extractLsb' 8 8⟩ := by
  simp [store16, memcpy, bytes16]

lemma store16_outside (x : BitVec 16) (h : i < off ∨ off + 2 ≤ i) : store16 mem off x i = mem i :=
  memcpy_outside mem off i (bytes16 x) h

lemma store32_outside (x : BitVec 32) (h : i < off ∨ off + 4 ≤ i) : store32 mem off x i = mem i :=
  memcpy_outside mem off i (bytes32 x) h

lemma load16_store16 (x : BitVec 16) : load16 (store16 mem off x) off = x := by
  rw [load16, store16_first, store16_second]
  exact append_bytes16 x

lemma load32_store32 (x : BitVec 32) : load32 (store32 mem off x) off = x := by
  have h (k : Nat) (hk : k < 4) : store32 mem off x (off + k) = (bytes32 x)[k] :=
    memcpy_inside mem off k (bytes32 x) hk
  have h0 := h 0 (by decide)
  rw [Nat.add_zero] at h0
  rw [load32, h0, h 1 (by decide), h 2 (by decide), h 3 (by decide)]
  exact append_bytes32 x

lemma load32_bytes (mem : Mem) (off : Nat) : (load32 mem off).extractLsb' 0 8 = (mem off).toBitVec ∧
    (load32 mem off).extractLsb' 8 8 = (mem (off + 1)).toBitVec ∧ (load32 mem off).extractLsb' 16 8 =
    (mem (off + 2)).toBitVec ∧ (load32 mem off).extractLsb' 24 8 = (mem (off + 3)).toBitVec := by
  refine ⟨?_, ?_, ?_, ?_⟩
  · rw [load32, BitVec.extractLsb'_append_eq_of_add_le (by decide)]
    exact BitVec.extractLsb'_eq_self
  · rw [load32, BitVec.extractLsb'_append_eq_of_le (by decide),
      BitVec.extractLsb'_append_eq_of_add_le (by decide)]
    exact BitVec.extractLsb'_eq_self
  · rw [load32, BitVec.extractLsb'_append_eq_of_le (by decide),
      BitVec.extractLsb'_append_eq_of_le (by decide), BitVec.extractLsb'_append_eq_of_add_le (by decide)]
    exact BitVec.extractLsb'_eq_self
  · rw [load32, BitVec.extractLsb'_append_eq_of_le (by decide),
      BitVec.extractLsb'_append_eq_of_le (by decide), BitVec.extractLsb'_append_eq_of_le (by decide)]
    exact BitVec.extractLsb'_eq_self

end Fields

lemma load16_congr {mem mem' : Mem} {off : Nat} (h : ∀ i < 2, mem (off + i) = mem' (off + i)) :
    load16 mem off = load16 mem' off := by
  have h0 := h 0 (by decide)
  have h1 := h 1 (by decide)
  simp only [Nat.add_zero] at h0
  rw [load16, load16, h0, h1]

lemma load32_congr {mem mem' : Mem} {off : Nat} (h : ∀ i < 4, mem (off + i) = mem' (off + i)) :
    load32 mem off = load32 mem' off := by
  have h0 := h 0 (by decide)
  have h1 := h 1 (by decide)
  have h2 := h 2 (by decide)
  have h3 := h 3 (by decide)
  simp only [Nat.add_zero] at h0
  rw [load32, load32, h0, h1, h2, h3]

lemma ntohs_load16_toNat (mem : Mem) (off : Nat) :
    (ntohs (load16 mem off)).toNat = (mem off).toNat * 256 + (mem (off + 1)).toNat := by
  have hfirst : (load16 mem off).extractLsb' 0 8 = (mem off).toBitVec := by
    rw [load16, BitVec.extractLsb'_append_eq_of_add_le (by decide)]
    exact BitVec.extractLsb'_eq_self
  have hsecond : (load16 mem off).extractLsb' 8 8 = (mem (off + 1)).toBitVec := by
    rw [load16, BitVec.extractLsb'_append_eq_of_le (by decide)]
    exact BitVec.extractLsb'_eq_self
  rw [ntohs, hfirst, hsecond, BitVec.toNat_append,
    ← Nat.shiftLeft_add_eq_or_of_lt (mem (off + 1)).toBitVec.isLt, Nat.shiftLeft_eq]
  rfl

lemma load16_store8_other (mem : Mem) {off off' : Nat} (x : UInt8) (h : off + 2 ≤ off' ∨ off' + 1 ≤ off) :
    load16 (store8 mem off' x) off = load16 mem off :=
  load16_congr (fun _ _ => store8_outside _ _ (by omega))

lemma load16_store16_other (mem : Mem) {off off' : Nat} (x : BitVec 16) (h : off + 2 ≤ off' ∨ off' + 2 ≤ off) :
    load16 (store16 mem off' x) off = load16 mem off :=
  load16_congr (fun _ _ => store16_outside _ _ (by omega))

lemma HoldsBytes.load16 {mem : Mem} {off : Nat} {x : BitVec 16} (h : HoldsBytes mem off (bytes16 x)) :
    load16 mem off = x := by
  rw [← @load16_store16 mem off x]
  apply load16_congr
  intro i hi
  exact (h.byte hi).trans (memcpy_inside _ _ _ _ hi).symm

lemma HoldsBytes.load32 {mem : Mem} {off : Nat} {x : BitVec 32} (h : HoldsBytes mem off (bytes32 x)) :
    load32 mem off = x := by
  rw [← @load32_store32 mem off x]
  apply load32_congr
  intro i hi
  exact (h.byte hi).trans (memcpy_inside _ _ _ _ hi).symm

lemma load32_inj {mem mem' : Mem} {off : Nat} (h : load32 mem off = load32 mem' off) : mem off = mem' off ∧
    mem (off + 1) = mem' (off + 1) ∧ mem (off + 2) = mem' (off + 2) ∧ mem (off + 3) = mem' (off + 3) := by
  obtain ⟨h0, h1, h2, h3⟩ := load32_bytes mem off
  obtain ⟨h0', h1', h2', h3'⟩ := load32_bytes mem' off
  rw [h] at h0 h1 h2 h3
  exact ⟨UInt8.toBitVec_inj.mp (h0.symm.trans h0'), UInt8.toBitVec_inj.mp (h1.symm.trans h1'),
    UInt8.toBitVec_inj.mp (h2.symm.trans h2'), UInt8.toBitVec_inj.mp (h3.symm.trans h3')⟩

lemma maskOf_toNat (len : Nat) : (maskOf len).toNat = 2 ^ 32 - 2 ^ (32 - len) := by
  rw [maskOf, BitVec.toNat_ofNat]
  apply Nat.mod_eq_of_lt
  have := Nat.two_pow_pos (32 - len)
  omega

lemma maskOf_le {len len' : Nat} (h : len ≤ len') : maskOf len ≤ maskOf len' := by
  rw [BitVec.le_def, maskOf_toNat, maskOf_toNat]
  have := Nat.pow_le_pow_right (show 0 < 2 by decide) (show 32 - len' ≤ 32 - len by omega)
  omega

lemma countP_maskOf : ∀ len ≤ 32, (List.range 32).countP (fun i => (maskOf len).getLsbD i) = len := by
  decide +kernel

lemma IsNetmask.eq_of_masklen {m m' : BitVec 32} (hm : IsNetmask m) (hm' : IsNetmask m')
    (h : masklen m = masklen m') : m = m' := by
  obtain ⟨len, hlen, heq⟩ := hm
  obtain ⟨len', hlen', heq'⟩ := hm'
  rw [masklen, masklen, heq, heq', countP_maskOf len hlen, countP_maskOf len' hlen'] at h
  rw [← ntohl_inj, heq, heq', h]

lemma IsNetmask.masklen_le {m m' : BitVec 32} (hm : IsNetmask m) (hm' : IsNetmask m')
    (h : ntohl m ≤ ntohl m') : masklen m ≤ masklen m' := by
  obtain ⟨len, hlen, heq⟩ := hm
  obtain ⟨len', hlen', heq'⟩ := hm'
  rw [masklen, masklen, heq, heq', countP_maskOf len hlen, countP_maskOf len' hlen']
  rcases Nat.le_total len len' with hle | hge
  · exact hle
  have hle := maskOf_le hge
  rw [heq, heq'] at h
  have hsame : maskOf len = maskOf len' := BitVec.le_antisymm h hle
  have hcount := countP_maskOf len hlen
  rw [hsame, countP_maskOf len' hlen'] at hcount
  omega

/-! ## Sums of words -/

/-- The sum of the big endian words of a range of memory; a last odd byte is a high one. -/
def byteSum (mem : Mem) (off : Nat) : Nat → Nat
  | 0 => 0
  | n + 1 => byteSum mem off n + if n % 2 = 1 then (mem (off + n)).toNat else (mem (off + n)).toNat * 256

lemma byteSum_le (mem : Mem) (off n : Nat) : byteSum mem off n ≤ n * 65280 := by
  induction n with
  | zero => exact Nat.le_refl _
  | succ n ih =>
    have hbyte := (mem (off + n)).toNat_lt
    rw [byteSum]
    split <;> omega

lemma byteSum_congr (mem mem' : Mem) (off n : Nat) (h : ∀ i < n, mem (off + i) = mem' (off + i)) :
    byteSum mem off n = byteSum mem' off n := by
  induction n with
  | zero => rfl
  | succ n ih => rw [byteSum, byteSum, ih (fun i hi => h i (by omega)), h n (by omega)]

lemma byteSum_append (mem : Mem) (off : Nat) {n : Nat} (m : Nat) (hn : n % 2 = 0) :
    byteSum mem off (n + m) = byteSum mem off n + byteSum mem (off + n) m := by
  induction m with
  | zero => rfl
  | succ m ih =>
    have hparity : (n + m) % 2 = m % 2 := by omega
    rw [← Nat.add_assoc, byteSum, ih, byteSum, hparity, Nat.add_assoc, Nat.add_assoc]

end Vde
