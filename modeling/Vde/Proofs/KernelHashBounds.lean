import Mathlib.Algebra.Order.Ring.Nat
import Vde.Proofs.KernelMacTable

/-!
# Chains and flushes of the kernel table

The mask is the number of chains rounded up to a power of two, less one; the memory is for the number as it was given. The
flush by key and VLAN removes what meets one of its two tests, and a test that is left out is met by every element.
-/

namespace Vde.Ipn

open Function

/-! ## The mask -/

lemma po2Loop_spec (fuel : Nat) (x rv : BitVec 32) (hfuel : x.toNat < 2 ^ fuel) (hpos : x.toNat < 2 ^ 31) :
    ∃ k, po2Loop fuel x rv = rv <<< k ∧ x.toNat < 2 ^ k ∧ (k = 0 ∨ 2 ^ (k - 1) ≤ x.toNat) := by
  induction fuel generalizing x rv with
  | zero => exact ⟨0, by rw [po2Loop, BitVec.shiftLeft_zero], hfuel, .inl rfl⟩
  | succ fuel ih =>
    by_cases hx : x = 0
    · subst hx
      exact ⟨0, by rw [po2Loop, if_pos rfl, BitVec.shiftLeft_zero], by decide, .inl rfl⟩
    have hxpos : 0 < x.toNat := by
      refine Nat.pos_of_ne_zero fun hzero => hx ?_
      exact BitVec.eq_of_toNat_eq hzero
    have hhalf : (x.sshiftRight 1).toNat = x.toNat / 2 := by
      rw [BitVec.sshiftRight_eq_of_msb_false (BitVec.msb_eq_false_iff_two_mul_lt.mpr (by omega)),
        BitVec.toNat_ushiftRight, Nat.shiftRight_eq_div_pow, Nat.pow_one]
    have hpow : 2 ^ (fuel + 1) = 2 ^ fuel * 2 := Nat.pow_succ _ _
    obtain ⟨k, hloop, hlt, hle⟩ := ih (x.sshiftRight 1) (rv <<< 1) (by omega) (by omega)
    refine ⟨k + 1, ?_, ?_, .inr ?_⟩
    · rw [po2Loop, if_neg hx, hloop, Nat.add_comm k 1, BitVec.shiftLeft_add]
    · have hpow' : 2 ^ (k + 1) = 2 ^ k * 2 := Nat.pow_succ _ _
      omega
    rw [Nat.add_sub_cancel]
    rcases hle with rfl | hle
    · exact hxpos
    cases k with
    | zero => exact hxpos
    | succ k =>
      have hpow' : 2 ^ (k + 1) = 2 ^ k * 2 := Nat.pow_succ _ _
      rw [Nat.add_sub_cancel] at hle
      omega

lemma po2round_spec {size : BitVec 32} (hpos : 0 < size.toInt) :
    ∃ k, (po2round size - 1).toNat = 2 ^ k - 1 ∧ size.toNat ≤ 2 ^ k ∧ (k = 0 ∨ 2 ^ (k - 1) < size.toNat) ∧ k < 32 := by
  have hint := BitVec.toInt_eq_toNat_cond size
  have hsize : 0 < size.toNat ∧ size.toNat < 2 ^ 31 := by
    split at hint
    · omega
    · omega
  have hless : (size - 1).toNat = size.toNat - 1 := by
    rw [BitVec.toNat_sub_of_le (show 1 ≤ size.toNat from hsize.1)]
    rfl
  obtain ⟨k, hloop, hlt, hle⟩ := po2Loop_spec 32 (size - 1) 1 (by omega) (by omega)
  rw [hless] at hlt hle
  have hk : k < 32 := by
    rcases hle with rfl | hle
    · decide
    have hbelow : 2 ^ (k - 1) < 2 ^ 31 := by omega
    have hlt' := (Nat.pow_lt_pow_iff_right (by decide : 1 < 2)).mp hbelow
    omega
  have hone : ((1 : BitVec 32) <<< k).toNat = 2 ^ k := by
    rw [BitVec.toNat_shiftLeft, Nat.shiftLeft_eq]
    have hwidth : 2 ^ k < 2 ^ 32 := Nat.pow_lt_pow_right (by decide) hk
    simpa using hwidth
  have htwo : 0 < 2 ^ k := Nat.two_pow_pos k
  refine ⟨k, ?_, by omega, ?_, hk⟩
  · rw [po2round, hloop, BitVec.toNat_sub_of_le (by rw [BitVec.le_def, hone]; exact htwo), hone]
    rfl
  rcases hle with rfl | hle
  · exact .inl rfl
  · exact .inr (by omega)

lemma hashfun_full {k : Nat} (hk : k < 32) {mask : BitVec 32} (hmask : mask.toNat = 2 ^ k - 1) :
    hashfun ⟨0x9dca, 0xb800, 0, 0⟩ mask = mask := by
  have hones : ∀ j : Fin 32, (0x7fffffff : BitVec 32) &&& BitVec.ofNat 32 (2 ^ j.val - 1) =
      BitVec.ofNat 32 (2 ^ j.val - 1) := by decide +kernel
  have hof : mask = BitVec.ofNat 32 (2 ^ k - 1) := by
    rw [← hmask, BitVec.ofNat_toNat, BitVec.setWidth_eq]
  rw [hof]
  exact hones ⟨k, hk⟩

lemma chain_lt_size_iff {hz : BitVec 64} {size : BitVec 32} {timeout : BitVec 64} {alloc : Bool} {h : IpnHash}
    (hnew : ipnHashNew hz size timeout alloc = some h) :
    (∀ key, h.chain key < h.size) ↔ ∃ k, size.toNat = 2 ^ k := by
  unfold ipnHashNew at hnew
  split_ifs at hnew with hbad
  have hpos : 0 < size.toInt := by
    push Not at hbad
    exact hbad.1
  cases hnew
  obtain ⟨k, hmask, hle, hleast, hk⟩ := po2round_spec hpos
  have htwo : 0 < 2 ^ k := Nat.two_pow_pos k
  constructor
  · intro hin
    have hlast : (hashfun ⟨0x9dca, 0xb800, 0, 0⟩ (po2round size - 1)).toNat < size.toNat := hin _
    rw [hashfun_full hk hmask, hmask] at hlast
    exact ⟨k, by omega⟩
  rintro ⟨j, hj⟩ key
  have hjk : j = k := by
    rw [hj] at hle hleast
    have hle' : j ≤ k := (Nat.pow_le_pow_iff_right (by decide)).mp hle
    rcases hleast with rfl | hleast
    · omega
    have hlt' : k - 1 < j := (Nat.pow_lt_pow_iff_right (by decide)).mp hleast
    omega
  subst hjk
  have hand : (hashfun key (po2round size - 1)).toNat ≤ (po2round size - 1).toNat := by
    rw [hashfun, BitVec.toNat_and]
    exact Nat.and_le_right
  change (hashfun key (po2round size - 1)).toNat < size.toNat
  omega

/-! ## Flushes -/

structure IpnHash.Linked (h : IpnHash) : Prop where
  nodup : h.lrulist.Nodup
  mem : ∀ a, a ∈ h.lrulist ↔ (h.elems a).isSome
  chainNodup : ∀ i, (h.hashtable i).Nodup

/-- What a flush by address and VLAN is for: the elements that have all that is asked for go, from memory and from
every list, and nothing else changes. -/
def FlushRight (key : Option (BitVec 16 × BitVec 16 × BitVec 16)) (vlan : Option (BitVec 16)) (h h' : IpnHash) : Prop :=
  h' = h.restrict fun a => !(h.elems a).any fun e => e.hasAddress key && e.hasVlan vlan

variable {key : Option (BitVec 16 × BitVec 16 × BitVec 16)} {vlan : Option (BitVec 16)} {t : IpnHash}

lemma ipnHashFlushKey_eq (ht : t.Linked) : ipnHashFlushKey key vlan t =
    t.restrict fun a => !(t.elems a).any fun e => e.hasAddress key || e.hasVlan vlan := by
  have heq := flushLoop_eq ht.nodup ht.chainNodup (fun e => e.hasAddress key || e.hasVlan vlan) t.lrulist ht.nodup
    (fun _ => true) (fun _ _ => rfl)
  rw [IpnHash.restrict_true] at heq
  rw [ipnHashFlushKey, heq]
  congr 1
  funext a
  cases he : t.elems a with
  | none => simp
  | some e =>
    have hmem : a ∈ t.lrulist := (ht.mem a).mpr (by rw [he]; rfl)
    simp [hmem]

lemma flushRight_iff (ht : t.Linked) : FlushRight key vlan t (ipnHashFlushKey key vlan t) ↔ ∀ a e, t.elems a =
    some e → (e.hasAddress key = true ↔ e.hasVlan vlan = true) := by
  rw [FlushRight, ipnHashFlushKey_eq ht]
  constructor
  · intro h a e he
    have hsame := congrFun (congrArg IpnHash.elems h) a
    simp only [IpnHash.restrict, he, Option.any_some] at hsame
    cases hkey : e.hasAddress key with
    | true =>
      cases hvlan : e.hasVlan vlan with
      | true => exact Iff.rfl
      | false => simp [hkey, hvlan] at hsame
    | false =>
      cases hvlan : e.hasVlan vlan with
      | true => simp [hkey, hvlan] at hsame
      | false => exact Iff.rfl
  intro h
  congr 1
  funext a
  cases he : t.elems a with
  | none => rfl
  | some e =>
    have hiff := Bool.eq_iff_iff.mpr (h a e he)
    rw [Option.any_some, Option.any_some, hiff, Bool.or_self, Bool.and_self]

/-- For every size and timeout that `ipn_hash_new` accepts the chains of all keys are among those that were allocated
exactly when the size is a power of two; and a flush of a table is right exactly when each of its elements has both the
address and the VLAN asked for or none of them, where all elements have what is not asked for. -/
theorem ipnHash_bounds_iff {hz : BitVec 64} {size : BitVec 32} {timeout : BitVec 64} {alloc : Bool} {h : IpnHash}
    (hnew : ipnHashNew hz size timeout alloc = some h) (key : Option (BitVec 16 × BitVec 16 × BitVec 16))
    (vlan : Option (BitVec 16)) {t : IpnHash} (ht : t.Linked) :
    ((∀ k, h.chain k < h.size) ↔ ∃ n, size.toNat = 2 ^ n) ∧
    (FlushRight key vlan t (ipnHashFlushKey key vlan t) ↔
      ∀ a e, t.elems a = some e → (e.hasAddress key = true ↔ e.hasVlan vlan = true)) :=
  ⟨chain_lt_size_iff hnew, flushRight_iff ht⟩

def oneStation : IpnHash := ipnHashAdd 5 (some 0) stationKey 3 freshKernelHash

lemma oneStation_linked : oneStation.Linked where
  nodup := List.nodup_singleton 0
  mem a := by
    have helems : oneStation.elems = update (fun _ => none) 0 (oneStation.elems 0) := rfl
    have hlist : oneStation.lrulist = [0] := rfl
    rw [helems, hlist, List.mem_singleton]
    by_cases ha : a = 0
    · subst ha
      exact iff_of_true rfl rfl
    rw [update_of_ne ha]
    exact iff_of_false ha (by decide)
  chainNodup i := by
    have hchains : oneStation.hashtable = update (fun _ => []) (oneStation.chain stationKey) [0] := rfl
    rw [hchains]
    by_cases hi : i = oneStation.chain stationKey
    · subst hi
      rw [update_self]
      exact List.nodup_singleton 0
    rw [update_of_ne hi]
    exact List.nodup_nil

theorem ipnHash_bounds_iff_station : (∀ k, freshKernelHash.chain k < freshKernelHash.size) ∧
    FlushRight (some (2, 0, 1)) (some 0) oneStation (ipnHashFlushKey (some (2, 0, 1)) (some 0) oneStation) := by
  obtain ⟨hchains, hflush⟩ := ipnHash_bounds_iff (show ipnHashNew 250 256 30 true = some freshKernelHash from rfl)
    (some (2, 0, 1)) (some 0) oneStation_linked
  refine ⟨hchains.mpr ⟨8, rfl⟩, hflush.mpr fun a e he => ?_⟩
  have helems : oneStation.elems = update (fun _ => none) 0 (oneStation.elems 0) := rfl
  by_cases ha : a = 0
  · subst ha
    cases he
    decide
  rw [helems, update_of_ne ha] at he
  cases he

theorem fourth_of_three_chains :
    (∃ h, ipnHashNew 100 3 30 true = some h ∧ ¬h.chain ⟨0x9dca, 0xb800, 0, 0⟩ < h.size) ∧
    ¬FlushRight (some (7, 7, 7)) none oneStation (ipnHashFlushKey (some (7, 7, 7)) none oneStation) := by
  constructor
  · exact ⟨_, rfl, by decide⟩
  intro hright
  have hgone := congrArg Option.isSome (congrFun (congrArg IpnHash.elems hright) 0)
  have hfalse : false = true := hgone
  cases hfalse

end Vde.Ipn
