import Vde.Proofs.CryptcabReplay

/-!
# Encrypting and decrypting through arrays

The final call of `data_decrypt` stores behind all blocks of its input, though the update has kept the last one back. So
the last bytes of a message that is no whole number of blocks go eight bytes too far.
-/

namespace Vde

open List

structure EvpLaws (evp : EvpCipher) : Prop where
  encryptUpdate : ∀ key iv m, ∃ out, evp.encryptUpdate key iv m = some out ∧ out.length = wholeBlocks m.length
  encryptFinal : ∀ key iv m, ∃ last, evp.encryptFinal key iv m = some last ∧ last.length = 8
  decryptUpdate : ∀ key iv m out last, evp.encryptUpdate key iv m = some out → evp.encryptFinal key iv m = some last →
    evp.decryptUpdate key iv (out ++ last) = some (m.take (wholeBlocks m.length))
  decryptFinal : ∀ key iv m out last, evp.encryptUpdate key iv m = some out → evp.encryptFinal key iv m = some last →
    evp.decryptFinal key iv (out ++ last) = some (m.drop (wholeBlocks m.length))

def RoundTrip (disabled : Bool) (evp : EvpCipher) (key iv m : List UInt8) (src dst dst' : Mem) : Prop :=
  let encrypted := dataEncryptInto disabled evp key iv (memcpy src 0 m) dst m.length
  let decrypted := dataDecryptInto disabled evp key iv encrypted.2 dst' encrypted.1.toNat
  decrypted.1 = m.length ∧ readBytes decrypted.2 0 m.length = m

def EvpCipher.encrypted (evp : EvpCipher) (key iv m : List UInt8) : List UInt8 :=
  (evp.encryptUpdate key iv m).getD [] ++ (evp.encryptFinal key iv m).getD []

/-- Behind the whole blocks of the message the array holds the rest of it before the final call: from before, or
because the update has left it there. -/
def RestThere (evp : EvpCipher) (key iv m : List UInt8) (dst : Mem) : Prop :=
  readBytes (memcpy dst (wholeBlocks m.length) (evp.behind key iv (evp.encrypted key iv m)))
    (wholeBlocks m.length) (m.length % 8) = m.drop (wholeBlocks m.length)

section Blocks

lemma wholeBlocks_add_mod (len : Nat) : wholeBlocks len + len % 8 = len := Nat.sub_add_cancel (Nat.mod_le len 8)

lemma wholeBlocks_next (len : Nat) : wholeBlocks (wholeBlocks len + 8) = wholeBlocks len + 8 := by
  rw [wholeBlocks, wholeBlocks]
  omega

end Blocks

section Calls

variable {evp : EvpCipher} {key iv m : List UInt8}

lemma EvpLaws.encryptInto (h : EvpLaws evp) (src dst : Mem) : ∃ out last, evp.encryptUpdate key iv m = some out ∧
    evp.encryptFinal key iv m = some last ∧ evp.encrypted key iv m = out ++ last ∧ (out ++ last).length =
    wholeBlocks m.length + 8 ∧ dataEncryptInto false evp key iv (memcpy src 0 m) dst m.length =
    (((out ++ last).length : Int), memcpy dst 0 (out ++ last)) := by
  obtain ⟨out, hout, hlen⟩ := h.encryptUpdate key iv m
  obtain ⟨last, hlast, height⟩ := h.encryptFinal key iv m
  have hinput : readBytes (memcpy src 0 m) 0 m.length = m := readBytes_memcpy_self src 0 m
  have hstore : memcpy (memcpy dst 0 out) (wholeBlocks m.length) last = memcpy dst 0 (out ++ last) := by
    rw [← hlen, ← memcpy_memcpy, Nat.zero_add]
  refine ⟨out, last, hout, hlast, ?_, ?_, ?_⟩
  · rw [EvpCipher.encrypted, hout, hlast]
    rfl
  · rw [length_append, hlen, height]
  rw [dataEncryptInto, if_neg Bool.false_ne_true, hinput]
  dsimp only
  rw [hout]
  dsimp only
  rw [hlast, length_append]
  dsimp only
  rw [hstore]

lemma EvpLaws.decryptInto (h : EvpLaws evp) {out last : List UInt8} (hout : evp.encryptUpdate key iv m = some out)
    (hlast : evp.encryptFinal key iv m = some last) (hlen : (out ++ last).length = wholeBlocks m.length + 8)
    (src dst : Mem) :
    dataDecryptInto false evp key iv (memcpy src 0 (out ++ last)) dst (out ++ last).length =
      ((m.length : Int), memcpy (memcpy (memcpy dst 0 (m.take (wholeBlocks m.length))) (wholeBlocks m.length)
        (evp.behind key iv (out ++ last))) (wholeBlocks m.length + 8) (m.drop (wholeBlocks m.length))) := by
  have hwhole : wholeBlocks (out ++ last).length = (out ++ last).length := by rw [hlen, wholeBlocks_next]
  have hinput : readBytes (memcpy src 0 (out ++ last)) 0 (out ++ last).length = out ++ last :=
    readBytes_memcpy_self src 0 (out ++ last)
  have htake : (m.take (wholeBlocks m.length)).length = wholeBlocks m.length :=
    length_take_of_le (Nat.sub_le m.length (m.length % 8))
  have hsum : wholeBlocks m.length + (m.drop (wholeBlocks m.length)).length = m.length := by
    rw [length_drop]
    exact Nat.add_sub_of_le (Nat.sub_le m.length (m.length % 8))
  rw [dataDecryptInto, if_neg Bool.false_ne_true, hwhole, hinput]
  dsimp only
  rw [h.decryptUpdate key iv m out last hout hlast]
  dsimp only
  rw [h.decryptFinal key iv m out last hout hlast]
  dsimp only
  rw [htake, hsum, hlen]

lemma readBytes_decrypted (dst : Mem) (behind : List UInt8) :
    readBytes (memcpy (memcpy (memcpy dst 0 (m.take (wholeBlocks m.length))) (wholeBlocks m.length) behind)
        (wholeBlocks m.length + 8) (m.drop (wholeBlocks m.length))) 0 m.length =
      m.take (wholeBlocks m.length) ++
        readBytes (memcpy dst (wholeBlocks m.length) behind) (wholeBlocks m.length) (m.length % 8) := by
  have hmod : m.length % 8 < 8 := Nat.mod_lt _ (by decide)
  have hsum := wholeBlocks_add_mod m.length
  have htake : (m.take (wholeBlocks m.length)).length = wholeBlocks m.length :=
    length_take_of_le (Nat.sub_le m.length (m.length % 8))
  rw [readBytes_memcpy_before _ _ _ _ _ (by omega)]
  have hsplit := readBytes_append (memcpy (memcpy dst 0 (m.take (wholeBlocks m.length))) (wholeBlocks m.length) behind)
    0 (wholeBlocks m.length) (m.length % 8)
  rw [hsum, Nat.zero_add] at hsplit
  rw [hsplit]
  congr 1
  · rw [readBytes_memcpy_before _ _ _ _ _ (by omega)]
    have hself := readBytes_memcpy_self dst 0 (m.take (wholeBlocks m.length))
    rwa [htake] at hself
  apply readBytes_congr
  intro i hi
  apply memcpy_congr
  exact memcpy_outside _ _ _ _ (.inr (by omega))

/-- What `data_decrypt` leaves at the beginning of the array is the message exactly if its rest stands there already. -/
lemma EvpLaws.decryptInto_read (h : EvpLaws evp) {out last : List UInt8} (hout : evp.encryptUpdate key iv m = some out)
    (hlast : evp.encryptFinal key iv m = some last) (hboth : evp.encrypted key iv m = out ++ last)
    (hlen : (out ++ last).length = wholeBlocks m.length + 8) (src dst : Mem) :
    let decrypted := dataDecryptInto false evp key iv (memcpy src 0 (out ++ last)) dst (out ++ last).length
    decrypted.1 = m.length ∧ (readBytes decrypted.2 0 m.length = m ↔ RestThere evp key iv m dst) := by
  intro decrypted
  have hdecrypted : decrypted = _ := h.decryptInto hout hlast hlen src dst
  rw [hdecrypted]
  dsimp only
  rw [readBytes_decrypted, RestThere, hboth]
  refine ⟨rfl, fun heq => ?_, fun hrest => ?_⟩
  · exact append_cancel_left (heq.trans (take_append_drop (wholeBlocks m.length) m).symm)
  rw [hrest]
  exact take_append_drop _ m

def EvpCipher.blowfish (evp : EvpCipher) : Blowfish where
  encrypt key iv m := do
    let out ← evp.encryptUpdate key iv m
    let last ← evp.encryptFinal key iv m
    some (out ++ last)
  decrypt key iv c := do
    let out ← evp.decryptUpdate key iv c
    let rest ← evp.decryptFinal key iv c
    some (out ++ rest)

/-- `dataEncrypt` is what `data_encrypt` stores, and `dataDecrypt` what `data_decrypt` does where the rest of the message
is not left eight bytes too far. -/
lemma EvpLaws.lists (h : EvpLaws evp) {cfg : CabConfig} (hcfg : cfg.cipher = evp.blowfish) (src dst : Mem) :
    ∃ out, dataEncrypt cfg key iv m = some out ∧ dataDecrypt cfg key iv out = some m ∧
      dataEncryptInto cfg.encryptionDisabled evp key iv (memcpy src 0 m) dst m.length =
        ((out.length : Int), memcpy dst 0 out) ∧
      let decrypted := dataDecryptInto cfg.encryptionDisabled evp key iv (memcpy src 0 out) dst out.length
      decrypted.1 = m.length ∧
        (readBytes decrypted.2 0 m.length = m ↔ cfg.encryptionDisabled = true ∨ RestThere evp key iv m dst) := by
  by_cases hdisabled : cfg.encryptionDisabled = true
  · have hinput : readBytes (memcpy src 0 m) 0 m.length = m := readBytes_memcpy_self src 0 m
    have hback : readBytes (memcpy dst 0 m) 0 m.length = m := readBytes_memcpy_self dst 0 m
    refine ⟨m, if_pos hdisabled, if_pos hdisabled, ?_, ?_⟩
    · rw [dataEncryptInto, if_pos hdisabled, hinput]
    simp only [dataDecryptInto, hdisabled, if_pos, hinput, hback, true_or]
    exact ⟨trivial, trivial⟩
  obtain ⟨out, last, hout, hlast, hboth, hlen, hinto⟩ := @EvpLaws.encryptInto evp key iv m h src dst
  have hwhole : (out ++ last).length - (out ++ last).length % 8 = (out ++ last).length := by
    rw [hlen]
    exact wholeBlocks_next m.length
  have hdec : (do
      let out' ← evp.decryptUpdate key iv (out ++ last)
      let rest ← evp.decryptFinal key iv (out ++ last)
      some (out' ++ rest)) = some m := by
    rw [h.decryptUpdate key iv m out last hout hlast, h.decryptFinal key iv m out last hout hlast]
    exact congrArg some (take_append_drop _ m)
  refine ⟨out ++ last, ?_, ?_, ?_, ?_⟩
  · rw [dataEncrypt, if_neg hdisabled, hcfg]
    change (do
      let out ← evp.encryptUpdate key iv m
      let last ← evp.encryptFinal key iv m
      some (out ++ last)) = some (out ++ last)
    rw [hout, hlast]
    rfl
  · rw [dataDecrypt, if_neg hdisabled, hcfg, hwhole, take_length]
    exact hdec
  · rw [Bool.not_eq_true] at hdisabled
    rw [hdisabled, hinto]
  · obtain ⟨hcount, hread⟩ := h.decryptInto_read hout hlast hboth hlen src dst
    rw [Bool.not_eq_true] at hdisabled
    rw [hdisabled]
    exact ⟨hcount, hread.trans (or_iff_right Bool.false_ne_true).symm⟩

end Calls

/-- The message comes back exactly if nothing is encrypted, if it is a whole number of blocks, or if its rest stands in
the array already. -/
theorem round_trip_iff {evp : EvpCipher} (h : EvpLaws evp) (disabled : Bool) (key iv m : List UInt8)
    (src dst dst' : Mem) :
    RoundTrip disabled evp key iv m src dst dst' ↔ disabled = true ∨ m.length % 8 = 0 ∨ RestThere evp key iv m dst' := by
  cases disabled with
  | true =>
    have hinput (mem : Mem) : readBytes (memcpy mem 0 m) 0 m.length = m := readBytes_memcpy_self mem 0 m
    refine iff_of_true ?_ (.inl rfl)
    simp only [RoundTrip, dataEncryptInto, dataDecryptInto, if_pos, hinput, Int.toNat_natCast]
    exact ⟨trivial, trivial⟩
  | false =>
    obtain ⟨out, last, hout, hlast, hboth, hlen, hencrypt⟩ := @EvpLaws.encryptInto evp key iv m h src dst
    obtain ⟨hcount, hread⟩ := h.decryptInto_read hout hlast hboth hlen dst dst'
    have hback : RoundTrip false evp key iv m src dst dst' ↔ RestThere evp key iv m dst' := by
      rw [RoundTrip, hencrypt]
      dsimp only
      rw [Int.toNat_natCast]
      exact ⟨fun hround => hread.mp hround.2, fun hrest => ⟨hcount, hread.mpr hrest⟩⟩
    rw [hback]
    constructor
    · intro hrest
      exact .inr (.inr hrest)
    rintro (hno | hzero | hrest)
    · cases hno
    · have hall : wholeBlocks m.length = m.length := by rw [wholeBlocks, hzero, Nat.sub_zero]
      rw [RestThere, hzero, hall, drop_length]
      rfl
    · exact hrest

section Mask

def xorMask (mask : List UInt8) : Nat → List UInt8 → List UInt8
  | _, [] => []
  | i, b :: bs => (b ^^^ mask.getD i 0) :: xorMask mask (i + 1) bs

variable (mask : List UInt8)

lemma xorMask_length (i : Nat) (bs : List UInt8) : (xorMask mask i bs).length = bs.length := by
  induction bs generalizing i with
  | nil => rfl
  | cons b bs ih => rw [xorMask, length_cons, length_cons, ih]

lemma xorMask_append (i : Nat) (as bs : List UInt8) :
    xorMask mask i (as ++ bs) = xorMask mask i as ++ xorMask mask (i + as.length) bs := by
  induction as generalizing i with
  | nil => rfl
  | cons a as ih =>
    rw [cons_append, xorMask, xorMask, cons_append, ih, length_cons]
    congr 3
    omega

lemma xorMask_twice (i : Nat) (bs : List UInt8) : xorMask mask i (xorMask mask i bs) = bs := by
  induction bs generalizing i with
  | nil => rfl
  | cons b bs ih => rw [xorMask, xorMask, ih, UInt8.xor_assoc, UInt8.xor_self, UInt8.xor_zero]

/-- The last block, filled up with the number of bytes that it lacks. -/
def paddedBlock (rest : List UInt8) : List UInt8 :=
  rest ++ replicate (8 - rest.length) (UInt8.ofNat (8 - rest.length))

def maskCipher : EvpCipher where
  encryptUpdate _ _ m := some (xorMask mask 0 (m.take (wholeBlocks m.length)))
  encryptFinal _ _ m := some (xorMask mask (wholeBlocks m.length) (paddedBlock (m.drop (wholeBlocks m.length))))
  decryptUpdate _ _ c := some ((xorMask mask 0 c).take (c.length - 8))
  behind _ _ _ := []
  decryptFinal _ _ c :=
    let last := (xorMask mask 0 c).drop (c.length - 8)
    some (last.take (8 - (last.getLastD 0).toNat))

lemma paddedBlock_length {rest : List UInt8} (h : rest.length < 8) : (paddedBlock rest).length = 8 := by
  rw [paddedBlock, length_append, length_replicate]
  omega

lemma paddedBlock_take {rest : List UInt8} (h : rest.length < 8) :
    (paddedBlock rest).take (8 - ((paddedBlock rest).getLastD 0).toNat) = rest := by
  have hlast : (paddedBlock rest).getLastD 0 = UInt8.ofNat (8 - rest.length) := by
    obtain ⟨k, hk⟩ : ∃ k, 8 - rest.length = k + 1 := ⟨7 - rest.length, by omega⟩
    rw [paddedBlock, hk, replicate_succ', ← append_assoc]
    simp
  have hnat : (UInt8.ofNat (8 - rest.length)).toNat = 8 - rest.length := by
    rw [UInt8.toNat_ofNat']
    exact Nat.mod_eq_of_lt (by omega)
  rw [hlast, hnat, paddedBlock]
  exact take_left' (by omega)

lemma maskCipher_laws : EvpLaws (maskCipher mask) := by
  have hrest (m : List UInt8) : (m.drop (wholeBlocks m.length)).length < 8 := by
    have hsum := wholeBlocks_add_mod m.length
    rw [length_drop]
    omega
  have htake (m : List UInt8) : (m.take (wholeBlocks m.length)).length = wholeBlocks m.length :=
    length_take_of_le (Nat.sub_le m.length (m.length % 8))
  -- both parts together are the padded message under the mask
  have hboth (m : List UInt8) : xorMask mask 0 (m.take (wholeBlocks m.length)) ++
      xorMask mask (wholeBlocks m.length) (paddedBlock (m.drop (wholeBlocks m.length))) =
        xorMask mask 0 (m.take (wholeBlocks m.length) ++ paddedBlock (m.drop (wholeBlocks m.length))) := by
    rw [xorMask_append, htake, Nat.zero_add]
  have hlen (m : List UInt8) : (xorMask mask 0 (m.take (wholeBlocks m.length) ++
      paddedBlock (m.drop (wholeBlocks m.length)))).length - 8 = wholeBlocks m.length := by
    rw [xorMask_length, length_append, htake, paddedBlock_length (hrest m), Nat.add_sub_cancel]
  refine ⟨?_, ?_, ?_, ?_⟩
  · intro key iv m
    exact ⟨_, rfl, (xorMask_length _ _ _).trans (htake m)⟩
  · intro key iv m
    exact ⟨_, rfl, (xorMask_length _ _ _).trans (paddedBlock_length (hrest m))⟩
  · rintro key iv m out last ⟨⟩ ⟨⟩
    rw [hboth, maskCipher]
    dsimp only
    rw [hlen, xorMask_twice, take_left' (htake m)]
  · rintro key iv m out last ⟨⟩ ⟨⟩
    rw [hboth, maskCipher]
    dsimp only
    rw [hlen, xorMask_twice, drop_left' (htake m), paddedBlock_take (hrest m)]

end Mask

section Runs

/-- Under it 1, 2, .. 8 are encrypted as by Blowfish under `countKey` and `countIv`. -/
def blockMask : List UInt8 := [128, 218, 168, 251, 186, 224, 43, 136, 51, 114, 130, 163, 194, 52, 85, 240]

def byteMask : List UInt8 := [41, 232, 190, 245, 159, 126, 96, 193]

theorem round_trip_block :
    RoundTrip false (maskCipher blockMask) countKey countIv [1, 2, 3, 4, 5, 6, 7, 8] (fun _ => 0) (fun _ => 0)
      (fun _ => 0) :=
  (round_trip_iff (maskCipher_laws blockMask) false countKey countIv [1, 2, 3, 4, 5, 6, 7, 8] (fun _ => 0) (fun _ => 0)
    (fun _ => 0)).mpr (.inr (.inl rfl))

/-- A message of one byte comes back as a zero, and the byte stands eight places further. -/
theorem one_byte_moved :
    EvpLaws (maskCipher byteMask) ∧
      (maskCipher byteMask).encrypted countKey countIv [5] = [44, 239, 185, 242, 152, 121, 103, 198] ∧
      (let decrypted := dataDecryptInto false (maskCipher byteMask) countKey countIv
        (memcpy (fun _ => 0) 0 [44, 239, 185, 242, 152, 121, 103, 198]) (fun _ => 0) 8
      decrypted.1 = 1 ∧ readBytes decrypted.2 0 9 = [0, 0, 0, 0, 0, 0, 0, 0, 5]) ∧
      ¬RoundTrip false (maskCipher byteMask) countKey countIv [5] (fun _ => 0) (fun _ => 0) (fun _ => 0) := by
  refine ⟨maskCipher_laws byteMask, by decide, by decide, ?_⟩
  rintro ⟨-, hback⟩
  revert hback
  decide

end Runs

end Vde
