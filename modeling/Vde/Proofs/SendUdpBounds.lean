import Vde.Proofs.CabBuffers

/-!
# The longest frame of a datagram

`send_udp` crops a frame so that 7 bytes fit behind it. But 12 bytes are stored behind it, and when it is encrypted with
these it grows by up to a block, behind the byte of the type.
-/

namespace Vde

open List

def Blowfish.PadsToBlock (b : Blowfish) : Prop :=
  ∀ key iv src, ∃ out, b.encrypt key iv src = some out ∧ out.length = src.length / 8 * 8 + 8

lemma EvpLaws.padsToBlock {evp : EvpCipher} (h : EvpLaws evp) : evp.blowfish.PadsToBlock := by
  intro key iv src
  obtain ⟨out, hout, hlen⟩ := h.encryptUpdate key iv src
  obtain ⟨last, hlast, height⟩ := h.encryptFinal key iv src
  refine ⟨out ++ last, ?_, ?_⟩
  · change (do
      let out ← evp.encryptUpdate key iv src
      let last ← evp.encryptFinal key iv src
      some (out ++ last)) = some (out ++ last)
    rw [hout, hlast]
    rfl
  rw [length_append, hlen, height, wholeBlocks]
  omega

section Frames

variable {cfg : CabConfig} (mycounter : UInt64) (key iv frame : List UInt8)

lemma sendUdp_unencrypted (hdisabled : cfg.encryptionDisabled = true) :
    sendUdp cfg mycounter key iv frame pktData = some ⟨pktData :: frame.take 1993, mycounter, []⟩ := by
  rw [sendUdp]
  exact if_pos (.inl hdisabled)

lemma sendUdp_encrypted (hdisabled : cfg.encryptionDisabled = false) (h : cfg.cipher.PadsToBlock) :
    (sendUdp cfg mycounter key iv frame pktData).isSome = true ↔ min 1993 frame.length + 12 ≤ 2000 ∧
    (min 1993 frame.length + 12) / 8 * 8 + 8 ≤ 1999 := by
  have hclear : ¬(cfg.encryptionDisabled = true ∨
      pktData ∈ [cmdChallenge, cmdLogin, cmdDeny, cmdAuthOk, cmdKeepalive]) := by
    rw [hdisabled]
    decide
  have htake : (frame.take (cabMaxpkt - 8 + 1)).length = min 1993 frame.length := length_take
  have htrailer := cabTrailer_length mycounter (frame.take (cabMaxpkt - 8 + 1))
  rw [sendUdp]
  dsimp only
  rw [if_neg hclear, if_pos rfl]
  generalize frame.take (cabMaxpkt - 8 + 1) = cropped at htake htrailer ⊢
  generalize cabTrailer mycounter cropped = trailer at htrailer ⊢
  have hpacket : (cropped ++ trailer).length = min 1993 frame.length + 12 := by
    rw [length_append, htake, htrailer]
  rw [htake, htrailer]
  by_cases hbuffer : cabMaxpkt < min 1993 frame.length + 12
  · rw [if_pos hbuffer]
    rw [cabMaxpkt] at hbuffer
    constructor
    · intro hnone
      cases hnone
    rintro ⟨hle, -⟩
    omega
  obtain ⟨out, hout, hlen⟩ := h key iv (cropped ++ trailer)
  have hencrypt : dataEncrypt cfg key iv (cropped ++ trailer) = some out := by
    rw [dataEncrypt, hdisabled, if_neg Bool.false_ne_true, hout]
  rw [if_neg hbuffer, sendEncrypted, hencrypt]
  dsimp only
  rw [hlen, hpacket, cabMaxpkt]
  rw [cabMaxpkt] at hbuffer
  split
  · next hfull =>
    constructor
    · intro hnone
      cases hnone
    rintro ⟨-, hle⟩
    omega
  next hfits =>
  exact iff_of_true rfl ⟨by omega, by omega⟩

end Frames

/-- A frame is sent without a store behind the end of a buffer exactly if nothing is encrypted, or if it is no longer
than 1979 bytes. -/
theorem send_inside_iff (cfg : CabConfig) (h : cfg.cipher.PadsToBlock) (mycounter : UInt64)
    (key iv frame : List UInt8) : (sendUdp cfg mycounter key iv frame pktData).isSome = true ↔
    cfg.encryptionDisabled = true ∨ frame.length ≤ 1979 := by
  cases hdisabled : cfg.encryptionDisabled with
  | true =>
    rw [sendUdp_unencrypted mycounter key iv frame hdisabled]
    exact iff_of_true rfl (.inl rfl)
  | false =>
    rw [sendUdp_encrypted mycounter key iv frame hdisabled h]
    constructor
    · rintro ⟨hbuffer, hout⟩
      right
      omega
    rintro (hno | hle)
    · cases hno
    constructor
    · omega
    · omega

/-- Under it `bareFrame` with its trailer is encrypted as by Blowfish under `countKey` and `countIv`. -/
def bareMask : List UInt8 :=
  zipWith (· ^^^ ·) (bareFrame ++ cabTrailer 1 bareFrame ++ replicate 6 6) bareCipher

def maskConfig : CabConfig :=
  { encType := .ssh, keepalives := false, remoteport := 7667, cipher := (maskCipher bareMask).blowfish }

theorem send_inside_bare : (sendUdp maskConfig 1 countKey countIv bareFrame pktData).isSome = true :=
  (send_inside_iff maskConfig (maskCipher_laws bareMask).padsToBlock 1 countKey countIv bareFrame).mpr (.inr (by decide))

example : (sendUdp maskConfig 1 countKey countIv bareFrame pktData).map UdpOut.datagram =
    some (pktData :: bareCipher) := by
  decide +kernel

/-- Of a frame of 1980 bytes 2000 are stored behind the byte of the type, which are one too many. -/
theorem longer_frame_outside : sendUdp maskConfig 1 countKey countIv (replicate 1980 0) pktData = none := by
  rw [← Option.not_isSome_iff_eq_none]
  rw [sendUdp_encrypted 1 countKey countIv (replicate 1980 0) rfl (maskCipher_laws bareMask).padsToBlock,
    length_replicate]
  decide

end Vde
