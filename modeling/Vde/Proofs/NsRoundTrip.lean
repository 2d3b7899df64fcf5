import Mathlib.Data.List.GetD
import Mathlib.Data.List.Nodup
import Mathlib.Tactic.IntervalCases
import Vde.NsCode

/-!
# What is encoded is decoded

Three bytes and the four characters made of them hold the same 24 bits. The last group takes in
up to two bytes from behind the data; the character in front says how many of the decoded bytes
they are. Both buffers are of the right size as long as the sizes fit an `int`.
-/

namespace Vde

open List Option

/-! ## A group -/

lemma nsMap_length : nsMap.length = 64 := by decide

lemma nsMap_nodup : nsMap.Nodup := by decide +kernel

variable {a b : UInt8}

lemma byte_ext (h : ∀ i < 8, a.toBitVec.getLsbD i = b.toBitVec.getLsbD i) : a = b := by
  apply UInt8.eq_of_toBitVec_eq
  apply BitVec.eq_of_getLsbD_eq
  exact h

lemma sextet_lt (h : a &&& 63 = a) : a.toNat < 64 := by
  rw [← h, UInt8.toNat_and]
  exact Nat.lt_of_le_of_lt Nat.and_le_right (by decide)

lemma sextet_first (a : UInt8) : ((a &&& 252) >>> 2) &&& (63 : UInt8) = (a &&& 252) >>> 2 := by
  apply byte_ext
  intro i hi
  interval_cases i <;> simp

lemma sextet_second (a b : UInt8) : (((a &&& 3) <<< 4) ||| ((b &&& 240) >>> 4)) &&& (63 : UInt8) =
    ((a &&& 3) <<< 4) ||| ((b &&& 240) >>> 4) := by
  apply byte_ext
  intro i hi
  interval_cases i <;> simp

lemma sextet_third (b c : UInt8) : (((b &&& 15) <<< 2) ||| ((c &&& 192) >>> 6)) &&& (63 : UInt8) =
    ((b &&& 15) <<< 2) ||| ((c &&& 192) >>> 6) := by
  apply byte_ext
  intro i hi
  interval_cases i <;> simp

lemma sextet_fourth (c : UInt8) : (c &&& 63) &&& 63 = c &&& 63 := by
  apply byte_ext
  intro i hi
  interval_cases i <;> simp

lemma first_byte (a b : UInt8) :
    (((a &&& 252) >>> 2) <<< 2) ||| (((((a &&& 3) <<< 4) ||| ((b &&& 240) >>> 4)) &&& 48) >>> 4) = a := by
  apply byte_ext
  intro i hi
  interval_cases i <;> simp

lemma second_byte (a b c : UInt8) :
    (((((a &&& 3) <<< 4) ||| ((b &&& 240) >>> 4)) &&& 15) <<< 4) |||
      (((((b &&& 15) <<< 2) ||| ((c &&& 192) >>> 6)) &&& 60) >>> 2) = b := by
  apply byte_ext
  intro i hi
  interval_cases i <;> simp

lemma third_byte (b c : UInt8) :
    (((((b &&& 15) <<< 2) ||| ((c &&& 192) >>> 6)) &&& 3) <<< 6) ||| (c &&& 63) = c := by
  apply byte_ext
  intro i hi
  interval_cases i <;> simp

lemma mapChar_mem {i : UInt8} (h : i.toNat < 64) : mapChar i ∈ nsMap := by
  have hi : i.toNat < nsMap.length := by rwa [nsMap_length]
  rw [mapChar, getD_eq_getElem _ _ hi]
  exact getElem_mem hi

lemma nsMap_ne_zero (h : b ∈ nsMap) : b ≠ 0 := by
  have h0 : (0 : UInt8) ∉ nsMap := by decide +kernel
  intro hb
  exact h0 (hb ▸ h)

variable {i : Nat}

lemma mapChar_inj {j : Nat} (hi : i < 64) (hj : j < 64)
    (h : mapChar (UInt8.ofNat i) = mapChar (UInt8.ofNat j)) : i = j := by
  have hti : (UInt8.ofNat i).toNat = i := UInt8.toNat_ofNat_of_lt' (Nat.lt_trans hi (by decide))
  have htj : (UInt8.ofNat j).toNat = j := UInt8.toNat_ofNat_of_lt' (Nat.lt_trans hj (by decide))
  have hil : i < nsMap.length := by rwa [nsMap_length]
  have hjl : j < nsMap.length := by rwa [nsMap_length]
  rw [mapChar, mapChar, hti, htj, getD_eq_getElem _ _ hil, getD_eq_getElem _ _ hjl] at h
  exact (Nodup.getElem_inj_iff nsMap_nodup).mp h

variable {n : Nat}

lemma initRevmap_prefix (fresh : UInt8 → UInt8) (hn : n ≤ 64) (hi : i < n) :
    (range n).foldl
      (fun revmap i => Function.update revmap (mapChar (UInt8.ofNat i)) (UInt8.ofNat i)) fresh
      (mapChar (UInt8.ofNat i)) = UInt8.ofNat i := by
  induction n with
  | zero => exact absurd hi (Nat.not_lt_zero i)
  | succ n ih =>
    rw [range_succ, foldl_append, foldl_cons, foldl_nil]
    by_cases hin : i = n
    · rw [hin, Function.update_self]
    have hne : mapChar (UInt8.ofNat i) ≠ mapChar (UInt8.ofNat n) := by
      intro h
      exact hin (mapChar_inj (by omega) (by omega) h)
    rw [Function.update_of_ne hne, ih (by omega) (by omega)]

lemma initRevmap_mapChar (fresh : UInt8 → UInt8) {i : UInt8} (hi : i &&& (63 : UInt8) = i) :
    initRevmap fresh (mapChar i) = i := by
  have h := initRevmap_prefix fresh (Nat.le_refl 64) (sextet_lt hi)
  rw [UInt8.ofNat_toNat] at h
  rw [initRevmap, nsMap_length, h]

lemma decodeGroup_encodeGroup (fresh : UInt8 → UInt8) (a b c : UInt8) :
    decodeGroup (initRevmap fresh) ((encodeGroup a b c).getD 0 0) ((encodeGroup a b c).getD 1 0)
      ((encodeGroup a b c).getD 2 0) ((encodeGroup a b c).getD 3 0) = [a, b, c] := by
  simp only [encodeGroup, getD_cons_zero, getD_cons_succ, decodeGroup]
  rw [initRevmap_mapChar fresh (sextet_first a), initRevmap_mapChar fresh (sextet_second a b),
    initRevmap_mapChar fresh (sextet_third b c), initRevmap_mapChar fresh (sextet_fourth c),
    first_byte, second_byte, third_byte]

lemma encodeGroup_mem {c x : UInt8} (h : x ∈ encodeGroup a b c) : x ∈ nsMap := by
  simp only [encodeGroup, mem_cons, not_mem_nil, or_false] at h
  rcases h with rfl | rfl | rfl | rfl
  · exact mapChar_mem (sextet_lt (sextet_first a))
  · exact mapChar_mem (sextet_lt (sextet_second a b))
  · exact mapChar_mem (sextet_lt (sextet_third b c))
  · exact mapChar_mem (sextet_lt (sextet_fourth c))

/-! ## The loops -/

def groups (n : Nat) : Nat := (n + 2) / 3

def groupOf (data : List UInt8) (g : Nat) : List UInt8 :=
  encodeGroup (data.getD (3 * g) 0) (data.getD (3 * g + 1) 0) (data.getD (3 * g + 2) 0)

def Encoded (data : List UInt8) (k n : Nat) (buf : Block UInt8) : Prop :=
  ∀ g, k ≤ g → g < groups n → ∀ q < 4, buf.elems (4 * g + 1 + q) = (groupOf data g).getD q 0

lemma getElem?_eq_getD {data : List UInt8} (h : i < data.length) : data[i]? = some (data.getD i 0) := by
  rw [getD_eq_getElem _ _ h, getElem?_eq_getElem h]

lemma encodeLoop_run {data : List UInt8} {n k fuel : Nat} {buf : Block UInt8} (hdata : data.length = n + 2)
    (hk : k ≤ groups n) (hfuel : groups n < fuel + k) (hsize : 4 * groups n + 1 ≤ buf.size) : ∃ buf',
    encodeLoop data n fuel (3 * k) (4 * k + 1) buf = some (4 * groups n + 1, buf') ∧ buf'.size = buf.size ∧
    (∀ j < 4 * k + 1, buf'.elems j = buf.elems j) ∧ Encoded data k n buf' := by
  induction fuel generalizing k buf with
  | zero => exact absurd hfuel (by omega)
  | succ fuel ih =>
    rw [encodeLoop]
    by_cases hlt : 3 * k < n
    · have hkg : k < groups n := by
        rw [groups]
        omega
      have hlen : (groupOf data k).length = 4 := rfl
      obtain ⟨b, hb, hbs, hin, hout⟩ :=
        @Block.exists_storeList _ buf (4 * k + 1) (groupOf data k) (by rw [hlen]; omega)
      obtain ⟨buf', hrun, hs, hbefore, henc⟩ := @ih (k + 1) b (by omega) (by omega) (by omega)
      refine ⟨buf', ?_, hs.trans hbs, ?_, ?_⟩
      · rw [if_pos (by omega), getElem?_eq_getD (by omega), getElem?_eq_getD (by omega),
          getElem?_eq_getD (by omega)]
        simp only [bind_eq_bind, bind_some]
        rw [groupOf] at hb
        rw [hb, bind_some, ← hrun]
        rfl
      · intro j hj
        rw [hbefore j (by omega), hout j (Or.inl hj)]
      intro g hkg' hg q hq
      by_cases hgk : g = k
      · subst hgk
        rw [hbefore _ (by omega), hin q (by omega), getD_eq_getElem _ _ (by omega)]
      · exact henc g (by omega) hg q hq
    have hkg : k = groups n := by
      rw [groups] at hk ⊢
      omega
    refine ⟨buf, ?_, rfl, fun j _ => rfl, fun g hg hgn => absurd hgn (by omega)⟩
    rw [if_neg (by omega), hkg]

lemma encodeLoop_size {data : List UInt8} {n k fuel off : Nat} {buf buf' : Block UInt8} (hk : k ≤ groups n)
    (h : encodeLoop data n fuel (3 * k) (4 * k + 1) buf = some (off, buf')) : off = 4 * groups n + 1 ∧ buf'.size =
    buf.size := by
  induction fuel generalizing k buf with
  | zero => exact absurd h (by simp [encodeLoop])
  | succ fuel ih =>
    rw [encodeLoop] at h
    by_cases hlt : 3 * k < n
    · rw [if_pos (by omega)] at h
      simp only [bind_eq_bind, bind_eq_some_iff] at h
      obtain ⟨_, _, _, _, _, _, b, hb, h⟩ := h
      have hkg : k < groups n := by
        rw [groups]
        omega
      obtain ⟨hoff, hsize⟩ := @ih (k + 1) b (by omega) h
      exact ⟨hoff, hsize.trans (Block.size_of_storeList hb).1⟩
    rw [if_neg (by omega), some.injEq, Prod.mk.injEq] at h
    have hkg : k = groups n := by
      rw [groups] at hk ⊢
      omega
    exact ⟨by rw [← h.1, hkg], by rw [← h.2]⟩

def Decoded (data : List UInt8) (k n : Nat) (buf : Block UInt8) : Prop :=
  ∀ g, k ≤ g → g < groups n → ∀ q < 3, buf.elems (3 * g + q) = data.getD (3 * g + q) 0

lemma decodeLoop_run {data : List UInt8} {n k fuel : Nat} {e buf : Block UInt8} {fresh : UInt8 → UInt8}
    (he : Encoded data 0 n e) (hes : 4 * groups n + 1 ≤ e.size) (hk : k ≤ groups n) (hfuel : groups n < fuel + k)
    (hsize : 3 * groups n ≤ buf.size) : ∃ buf',
    decodeLoop (initRevmap fresh) e ((4 * groups n + 1 : Nat) : Int) fuel (3 * k) (4 * k + 1) buf =
    some (3 * groups n, buf') ∧ buf'.size = buf.size ∧ (∀ j < 3 * k, buf'.elems j = buf.elems j) ∧
    Decoded data k n buf' := by
  induction fuel generalizing k buf with
  | zero => exact absurd hfuel (by omega)
  | succ fuel ih =>
    rw [decodeLoop]
    by_cases hlt : k < groups n
    · have hload : ∀ q < 4, e.load (4 * k + 1 + q) = some ((groupOf data k).getD q 0) := by
        intro q hq
        apply Block.load_eq_some.mpr
        exact ⟨by omega, he k (Nat.zero_le k) hlt q hq⟩
      have hgroup := decodeGroup_encodeGroup fresh (data.getD (3 * k) 0) (data.getD (3 * k + 1) 0)
        (data.getD (3 * k + 2) 0)
      rw [← groupOf] at hgroup
      obtain ⟨b, hb, hbs, hin, hout⟩ := @Block.exists_storeList _ buf (3 * k)
        [data.getD (3 * k) 0, data.getD (3 * k + 1) 0, data.getD (3 * k + 2) 0]
        (by simp only [length_cons, length_nil]; omega)
      obtain ⟨buf', hrun, hs, hbefore, hdec⟩ := @ih (k + 1) b (by omega) (by omega) (by omega)
      refine ⟨buf', ?_, hs.trans hbs, ?_, ?_⟩
      · have h0 := hload 0 (by omega)
        rw [Nat.add_zero] at h0
        rw [if_pos (by omega), h0, hload 1 (by omega), hload 2 (by omega), hload 3 (by omega)]
        simp only [bind_eq_bind, bind_some]
        rw [hgroup, hb, bind_some, ← hrun]
        rfl
      · intro j hj
        rw [hbefore j (by omega), hout j (Or.inl hj)]
      intro g hkg' hg q hq
      by_cases hgk : g = k
      · subst hgk
        rw [hbefore _ (by omega), hin q (by simpa using hq)]
        interval_cases q <;> rfl
      · exact hdec g (by omega) hg q hq
    have hkg : k = groups n := by omega
    refine ⟨buf, ?_, rfl, fun j _ => rfl, fun g hg hgn => absurd hgn (by omega)⟩
    rw [if_neg (by omega), hkg]

variable {e buf : Block UInt8}

lemma decodeLoop_size {buf' : Block UInt8} {revmap : UInt8 → UInt8} {fuel : Nat} (hn : 0 < n)
    (h : decodeLoop revmap e ((4 * n + 1 : Nat) : Int) fuel 0 1 buf = some (i, buf')) : 0 < buf.size := by
  cases fuel with
  | zero => exact absurd h (by simp [decodeLoop])
  | succ fuel =>
    rw [decodeLoop, if_pos (by omega)] at h
    simp only [bind_eq_bind, bind_eq_some_iff] at h
    obtain ⟨_, _, _, _, _, _, _, _, b, hb, _⟩ := h
    have hlen := (Block.size_of_storeList hb).2 (by simp [decodeGroup])
    simp only [decodeGroup, length_cons] at hlen
    omega

/-! ## The two functions -/

lemma groups_bounds (n : Nat) : n ≤ 3 * groups n ∧ 3 * groups n ≤ n + 2 := by
  rw [groups]
  omega

lemma encodeSize_eq (h : n ≤ 1610612733) : encodeSize n = (4 * groups n + 2 : Nat) := by
  have hg := groups_bounds n
  have hdiv : Int.tdiv (toInt32 ((n : Int) + 2)) 3 = groups n := by
    rw [toInt32_eq (by omega) (by omega), Int.tdiv_eq_ediv_of_nonneg (by omega)]
    omega
  have hmul : toInt32 ((groups n : Int) * 4) = groups n * 4 := toInt32_eq (by omega) (by omega)
  rw [encodeSize, hdiv, hmul, toInt32_eq (by omega) (by omega)]
  omega

lemma encodeSize_bounds (len : Int) : -2147483648 ≤ encodeSize len ∧ encodeSize len < 2147483648 :=
  ⟨le_toInt32 _, toInt32_lt _⟩

lemma encodeCut_eq (n : Nat) : encodeCut n = (3 * groups n - n : Nat) := by
  have hg := groups_bounds n
  rw [encodeCut, Int.tmod_eq_emod_of_nonneg (by omega)]
  by_cases h : (n : Int) % 3 = 0
  · rw [if_neg (not_not.mpr h)]
    omega
  rw [if_pos h]
  omega

structure EncodedBlock (data : List UInt8) (n : Nat) (e : Block UInt8) : Prop where
  size : 4 * groups n + 2 ≤ e.size
  cut : e.elems 0 = mapChar (UInt8.ofNat (3 * groups n - n))
  chars : Encoded data 0 n e
  stop : e.elems (4 * groups n + 1) = 0

section

variable {data : List UInt8} (h : EncodedBlock data n e)

include h

lemma EncodedBlock.elem (hpos : 0 < i) (hi : i < 4 * groups n + 1) :
    e.elems i = (groupOf data ((i - 1) / 4)).getD ((i - 1) % 4) 0 := by
  have hsplit : 4 * ((i - 1) / 4) + 1 + (i - 1) % 4 = i := by omega
  have hchar := h.chars ((i - 1) / 4) (Nat.zero_le _) (by omega) ((i - 1) % 4) (by omega)
  rwa [hsplit] at hchar

lemma EncodedBlock.mem (hi : i < 4 * groups n + 1) : e.elems i ∈ nsMap := by
  by_cases h0 : i = 0
  · rw [h0, h.cut]
    apply mapChar_mem
    have hcut : 3 * groups n - n ≤ 2 := by
      rw [groups]
      omega
    rw [UInt8.toNat_ofNat_of_lt' (Nat.lt_of_le_of_lt hcut (by decide))]
    omega
  have hlen : (i - 1) % 4 < (groupOf data ((i - 1) / 4)).length := Nat.mod_lt _ (by decide)
  rw [h.elem (Nat.pos_of_ne_zero h0) hi, getD_eq_getElem _ _ hlen]
  exact encodeGroup_mem (getElem_mem hlen)

lemma EncodedBlock.strlen : e.strlen = some (4 * groups n + 1) := by
  have hsize := h.size
  apply Block.strlen_eq_some.mpr
  exact ⟨by omega, h.stop, fun i hi => nsMap_ne_zero (h.mem hi)⟩

end

lemma nstxEncode_eq {buf : Block UInt8} {fresh : Nat → UInt8} {data : List UInt8} {n : Nat}
    (hdata : data.length = n + 2) (hn : n ≤ 1610612733) :
    ∃ e, nstxEncode buf fresh data n = some e ∧ EncodedBlock data n e := by
  have hg := groups_bounds n
  have hsize : (buf.reallocInt (encodeSize n) fresh).size = 4 * groups n + 2 := by
    rw [encodeSize_eq hn, Block.reallocInt_size (by omega) (by omega)]
    exact Int.toNat_natCast _
  obtain ⟨b, hb, hbs, hb0, -⟩ := @Block.exists_store _ (buf.reallocInt (encodeSize n) fresh) 0
    (mapChar (UInt8.ofNat (encodeCut n).toNat)) (by omega)
  obtain ⟨c, hrun, hcs, hbefore, henc⟩ :=
    @encodeLoop_run data n 0 (n + 1) b hdata (Nat.zero_le _) (by omega) (by omega)
  obtain ⟨e, he, hes, hstop, hout⟩ := @Block.exists_store _ c (4 * groups n + 1) 0 (by omega)
  refine ⟨e, ?_, ?_⟩
  · rw [nstxEncode]
    simp only [bind_eq_bind]
    rw [hb, bind_some, Int.toNat_natCast, hrun, bind_some, he]
  constructor
  · omega
  · rw [hout 0 (by omega), hbefore 0 (by omega), hb0, encodeCut_eq, Int.toNat_natCast]
  · intro g hg0 hgn q hq
    rw [hout _ (by omega), henc g hg0 hgn q hq]
  · exact hstop

lemma size_of_encoded {room : Block UInt8} {v : UInt8} {data : List UInt8} {fuel : Nat}
    (h : ((room.store 0 v).bind fun b => (encodeLoop data n fuel 0 1 b).bind fun r => r.2.store r.1 0) = some e) :
    4 * groups n + 2 ≤ room.size := by
  simp only [bind_eq_some_iff] at h
  obtain ⟨b, hb, ⟨off, c⟩, hrun, he⟩ := h
  obtain ⟨-, hbeq⟩ := Block.store_eq_some.mp hb
  obtain ⟨hoff, hcs⟩ := @encodeLoop_size data n 0 _ off b c (Nat.zero_le _) hrun
  obtain ⟨hlt, -⟩ := Block.store_eq_some.mp he
  rw [hbeq] at hcs
  dsimp only at hlt hcs
  omega

lemma size_of_nstxEncode {fresh : Nat → UInt8} {data : List UInt8}
    (h : nstxEncode buf fresh data n = some e) : 4 * groups n + 2 ≤ (buf.reallocInt (encodeSize n) fresh).size := by
  rw [nstxEncode] at h
  exact size_of_encoded h

lemma decodeSize_eq {g : Nat} (h : g ≤ 536870910) : decodeSize ((4 * g + 1 : Nat) : Int) = (3 * (g + 1) : Nat) := by
  have hdiv : Int.tdiv (toInt32 (((4 * g + 1 : Nat) : Int) + 3)) 4 = g + 1 := by
    rw [toInt32_eq (by omega) (by omega), Int.tdiv_eq_ediv_of_nonneg (by omega)]
    omega
  rw [decodeSize, hdiv, toInt32_eq (by omega) (by omega)]
  omega

lemma decodeSize_overflow : decodeSize ((4 * 536870911 + 1 : Nat) : Int) = -1610612736 := by
  decide

lemma decoded_of_room {room : Block UInt8} {rev : UInt8 → UInt8} {data : List UInt8}
    (he : EncodedBlock data n e) (hn : n < 2147483648) (hroom : 3 * groups n ≤ room.size) :
    ∃ d : Block UInt8, ((decodeLoop (initRevmap rev) e ((4 * groups n + 1 : Nat) : Int)
        (4 * groups n + 1 + 1) 0 1 room).bind fun r => (e.load 0).bind fun first =>
          some (r.2, toInt32 ((r.1 : Int) - ((initRevmap rev first).toNat : Int)))) =
        some (d, (n : Int)) ∧ n ≤ d.size ∧ ∀ i < n, d.elems i = data.getD i 0 := by
  have hg := groups_bounds n
  have hes := he.size
  obtain ⟨d, hrun, hds, -, hdec⟩ := @decodeLoop_run data n 0 (4 * groups n + 1 + 1) e room rev he.chars
    (by omega) (Nat.zero_le _) (by omega) hroom
  have hcut : initRevmap rev (e.elems 0) = UInt8.ofNat (3 * groups n - n) := by
    rw [he.cut]
    apply initRevmap_mapChar
    have hle : 3 * groups n - n ≤ 2 := by omega
    interval_cases hc : 3 * groups n - n <;> rfl
  have hfirst : e.load 0 = some (e.elems 0) := Block.load_eq_some.mpr ⟨by omega, rfl⟩
  have hval : (UInt8.ofNat (3 * groups n - n)).toNat = 3 * groups n - n :=
    UInt8.toNat_ofNat_of_lt' (Nat.lt_of_le_of_lt (show 3 * groups n - n ≤ 2 by omega) (by decide))
  have hlen : ((3 * groups n : Nat) : Int) - ((3 * groups n - n : Nat) : Int) = n := by omega
  refine ⟨d, ?_, by omega, ?_⟩
  · rw [hrun, bind_some, hfirst, bind_some, hcut, hval, hlen, toInt32_of_lt hn]
  intro i hi
  have hsplit : i = 3 * (i / 3) + i % 3 := by omega
  rw [hsplit]
  exact hdec (i / 3) (Nat.zero_le _) (by omega) _ (by omega)

lemma nstxDecode_of_strlen {fresh : Nat → UInt8} {revmap : UInt8 → UInt8}
    {l : Nat} (h : e.strlen = some l) :
    nstxDecode buf fresh revmap e =
      (decodeLoop revmap e (toInt32 l) ((toInt32 l).toNat + 1) 0 1
        (buf.reallocInt (decodeSize (toInt32 l)) fresh)).bind fun r => (e.load 0).bind fun first =>
          some (r.2, toInt32 ((r.1 : Int) - ((revmap first).toNat : Int))) := by
  rw [nstxDecode, h, bind_eq_bind, bind_some]
  dsimp only
  generalize toInt32 (l : Int) = len
  generalize buf.reallocInt (decodeSize len) fresh = room
  rfl

lemma nstxDecode_eq {buf e : Block UInt8} {fresh : Nat → UInt8} {rev : UInt8 → UInt8} {data : List UInt8} {n : Nat}
    (he : EncodedBlock data n e) (hn : n ≤ 1610612730) : ∃ d, nstxDecode buf fresh (initRevmap rev) e =
    some (d, (n : Int)) ∧ n ≤ d.size ∧ ∀ i < n, d.elems i = data.getD i 0 := by
  have hg := groups_bounds n
  have hsize : (buf.reallocInt (decodeSize ((4 * groups n + 1 : Nat) : Int)) fresh).size =
      3 * (groups n + 1) := by
    rw [decodeSize_eq (by omega), Block.reallocInt_size (by omega) (by omega)]
    exact Int.toNat_natCast _
  have hroom : 3 * groups n ≤
      (buf.reallocInt (decodeSize ((4 * groups n + 1 : Nat) : Int)) fresh).size := by
    rw [hsize]
    omega
  rw [nstxDecode_of_strlen he.strlen, toInt32_of_lt (by omega), Int.toNat_natCast]
  exact decoded_of_room he (by omega) hroom

/-- The buffers are left by earlier calls, with any bytes in the memory that `realloc` adds; two
bytes `x` and `y` follow the data. Both calls stay inside their buffers and give the data back. -/
def CodeRoundTrip (enc dec : Block UInt8) (freshEnc freshDec : Nat → UInt8) (rev : UInt8 → UInt8)
    (data : List UInt8) (x y : UInt8) : Prop :=
  ∃ e, nstxEncode enc freshEnc (data ++ [x, y]) (toInt32 data.length) = some e ∧
    (∃ n, e.strlen = some n ∧ ∀ i < n, e.elems i ∈ nsMap) ∧
    ∃ d, nstxDecode dec freshDec (initRevmap rev) e = some (d, (data.length : Int)) ∧
      data.length ≤ d.size ∧ readBytes d.elems 0 data.length = data

section

variable {enc dec : Block UInt8} {freshEnc freshDec : Nat → UInt8} {rev : UInt8 → UInt8}
  {data : List UInt8} {x y : UInt8}

lemma length_with_tail (data : List UInt8) (x y : UInt8) : (data ++ [x, y]).length = data.length + 2 := by
  rw [length_append]
  rfl

lemma round_trip_of_le (hn : data.length ≤ 1610612730) : CodeRoundTrip enc dec freshEnc freshDec rev data x y := by
  obtain ⟨e, he, hblock⟩ :=
    @nstxEncode_eq enc freshEnc (data ++ [x, y]) data.length (length_with_tail data x y) (by omega)
  obtain ⟨d, hd, hds, hbytes⟩ := @nstxDecode_eq dec e freshDec rev _ _ hblock hn
  refine ⟨e, ?_, ⟨_, hblock.strlen, fun i hi => hblock.mem hi⟩, d, hd, hds, ?_⟩
  · rw [toInt32_of_lt (by omega), he]
  apply ext_getElem (readBytes_length _ _ _)
  intro i hi hid
  rw [readBytes_getElem, Nat.zero_add, hbytes i hid, getD_append _ _ _ _ hid,
    getD_eq_getElem _ _ hid]

lemma not_round_trip_of_lt (hlong : 1610612730 < data.length) :
    ¬CodeRoundTrip enc dec freshEnc freshDec rev data x y := by
  intro h
  obtain ⟨e, he, -, d, hd, -, -⟩ := h
  rw [nstxDecode] at hd
  simp only [bind_eq_bind, bind_eq_some_iff] at hd
  obtain ⟨len, hlen, ⟨i, b⟩, hrun, first, -, hres⟩ := hd
  -- the length that `nstx_decode` returns is an `int`
  have hint : data.length < 2147483648 := by
    have hlt := toInt32_lt ((i : Int) - ((initRevmap rev first).toNat : Int))
    have heq := congrArg Prod.snd (some.inj hres)
    dsimp only at heq
    omega
  have hg := groups_bounds data.length
  rw [toInt32_of_lt hint] at he
  by_cases hn : data.length ≤ 1610612733
  · obtain ⟨e', he', hblock⟩ := nstxEncode_eq (length_with_tail data x y) hn
    rw [he] at he'
    obtain rfl := some.inj he'
    rw [hblock.strlen, some.injEq] at hlen
    have hgroups : groups data.length = 536870911 := by omega
    rw [← hlen, hgroups, toInt32_of_lt (by omega)] at hrun
    have hpos := decodeLoop_size (by decide) hrun
    rw [decodeSize_overflow, Block.reallocInt_size_neg (by decide) (by decide)] at hpos
    exact absurd hpos (Nat.lt_irrefl 0)
  have hroom := size_of_nstxEncode he
  obtain ⟨hle, hlt⟩ := encodeSize_bounds data.length
  by_cases h0 : 0 ≤ encodeSize data.length
  · rw [Block.reallocInt_size h0 hlt] at hroom
    omega
  rw [Block.reallocInt_size_neg (by omega) hle] at hroom
  omega

end

/-- Data comes back unless the size of a buffer is too large for an `int`. -/
theorem code_round_trip_iff (enc dec : Block UInt8) (freshEnc freshDec : Nat → UInt8)
    (rev : UInt8 → UInt8) (data : List UInt8) (x y : UInt8) :
    CodeRoundTrip enc dec freshEnc freshDec rev data x y ↔ data.length ≤ 1610612730 := by
  constructor
  · intro h
    by_contra hlong
    exact not_round_trip_of_lt (Nat.lt_of_not_le hlong) h
  · exact round_trip_of_le

/-- `len + 3` is too large for these zeros, so that `nstx_decode` gets no buffer. -/
theorem long_data_lost :
    ¬CodeRoundTrip ⟨0, fun _ => 0⟩ ⟨0, fun _ => 0⟩ (fun _ => 0) (fun _ => 0) (fun _ => 0)
      (replicate 1610612731 0) 0 0 := by
  apply not_round_trip_of_lt
  rw [length_replicate]
  decide

end Vde
