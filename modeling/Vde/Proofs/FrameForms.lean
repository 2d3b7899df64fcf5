import Vde.Proofs.RunInvariant

/-!
# Frames with and without a tag

What the two rewriting macros do to the bytes of a frame. A frame that announces a tag but ends
before the sixteen bytes and the protocol field that it implies loses part of its header.
-/

namespace Vde

open List

/-! ## Frames as lists of bytes -/

def frameTagged (frame : List UInt8) : Bool := frame[12]? == some 0x81 && frame[13]? == some 0x00

def frameVlan (frame : List UInt8) : Nat :=
  ((frame.getD 14 0).toNat <<< 8 + (frame.getD 15 0).toNat) &&& 0xfff

def untagFrame (frame : List UInt8) : List UInt8 := frame.take 12 ++ frame.drop 16

def tagFrame (v : Nat) (frame : List UInt8) : List UInt8 :=
  frame.take 12 ++ [0x81, 0x00, UInt8.ofNat (v >>> 8), UInt8.ofNat v] ++ frame.drop 12

def egressFrame (untagged : Bool) (v : Nat) (frame : List UInt8) : List UInt8 :=
  if frameTagged frame then if untagged then untagFrame frame else frame
  else if untagged then frame else tagFrame v frame

def payload (tagged : Bool) (frame : List UInt8) : List UInt8 :=
  if tagged then frame.drop 16 else frame.drop 12

structure Carries (untagged : Bool) (v : Nat) (frame out : List UInt8) : Prop where
  length : ethHeaderSize ≤ out.length
  dest : out.take 6 = frame.take 6
  src : (out.drop 6).take 6 = (frame.drop 6).take 6
  payload : payload (!untagged) out = payload (frameTagged frame) frame
  tagged : untagged = false → frameTagged out = true
  vlan : untagged = false → 16 ≤ out.length → frameVlan out = v
  form : out = egressFrame untagged v frame

section

variable (frame : List UInt8) {v : Nat}

lemma tagFrame_length (h : 12 ≤ frame.length) : (tagFrame v frame).length = frame.length + 4 := by
  unfold tagFrame
  simp only [length_append, length_take, length_drop, length_cons,
    length_nil]
  omega

lemma untagFrame_length (h : 16 ≤ frame.length) : (untagFrame frame).length = frame.length - 4 := by
  unfold untagFrame
  simp only [length_append, length_take, length_drop]
  omega

lemma take_drop_addresses (h : 12 ≤ frame.length) (rest : List UInt8) : (frame.take 12 ++ rest).take 6 =
    frame.take 6 ∧ ((frame.take 12 ++ rest).drop 6).take 6 = (frame.drop 6).take 6 ∧ ∀ k,
    (frame.take 12 ++ rest).drop (12 + k) = rest.drop k := by
  have hlen : (frame.take 12).length = 12 := by
    rw [length_take]
    omega
  refine ⟨?_, ?_, fun k => ?_⟩
  · rw [take_append_of_le_length (by omega), take_take]
    rfl
  · rw [drop_append_of_le_length (by omega), take_append_of_le_length (by
      rw [length_drop]; omega), drop_take, take_take]
    rfl
  rw [drop_append, hlen, drop_eq_nil_of_le (by omega)]
  simp

lemma vlanBytes_toNat (hv : v < 4096) :
    ((UInt8.ofNat (v >>> 8)).toNat <<< 8 + (UInt8.ofNat v).toNat) &&& 0xfff = v := by
  have h255 : (0xfff : Nat) = 2 ^ 12 - 1 := rfl
  rw [h255, Nat.and_two_pow_sub_one_eq_mod, Nat.shiftLeft_eq, UInt8.toNat_ofNat', UInt8.toNat_ofNat',
    Nat.shiftRight_eq_div_pow]
  omega

lemma tagFrame_tag (h : 12 ≤ frame.length) (hv : v < 4096) :
    frameTagged (tagFrame v frame) = true ∧ frameVlan (tagFrame v frame) = v := by
  have hlen : (frame.take 12).length = 12 := by
    rw [length_take]
    omega
  have hget : ∀ k, (tagFrame v frame)[12 + k]? =
      ([0x81, 0x00, UInt8.ofNat (v >>> 8), UInt8.ofNat v] ++ frame.drop 12)[k]? := by
    intro k
    unfold tagFrame
    rw [append_assoc, getElem?_append_right (by omega), hlen, Nat.add_sub_cancel_left]
  have h12 := hget 0
  have h13 := hget 1
  have h14 := hget 2
  have h15 := hget 3
  refine ⟨?_, ?_⟩
  · unfold frameTagged
    rw [h12, h13]
    rfl
  unfold frameVlan
  rw [getD_eq_getElem?_getD, getD_eq_getElem?_getD, h14, h15]
  exact vlanBytes_toNat hv

variable {frame}

lemma carries_egressFrame {untagged : Bool} (hv : v < 4096) (hlen : ethHeaderSize ≤ frame.length)
    (htag : frameTagged frame = true → 16 ≤ frame.length → frameVlan frame = v)
    (hrunt : ¬(frameTagged frame = true ∧ frame.length < 18 ∧ untagged = true)) :
    Carries untagged v frame (egressFrame untagged v frame) := by
  unfold ethHeaderSize at hlen
  unfold egressFrame
  cases ht : frameTagged frame with
  | true =>
    cases untagged with
    | true =>
      have h18 : 18 ≤ frame.length := by
        by_contra hlt
        exact hrunt ⟨ht, by omega, rfl⟩
      obtain ⟨h1, h2, h3⟩ := take_drop_addresses frame (by omega) (frame.drop 16)
      refine ⟨?_, h1, h2, ?_, nofun, nofun, ?_⟩
      · have hl := untagFrame_length frame (by omega)
        simp only [if_true, hl, ethHeaderSize]
        omega
      · rw [ht]
        exact h3 0
      unfold egressFrame
      rw [ht]
    | false =>
      refine ⟨hlen, rfl, rfl, ?_, fun _ => ht, fun _ h16 => htag ht h16, ?_⟩
      · rw [ht]
        rfl
      unfold egressFrame
      rw [ht]
  | false =>
    cases untagged with
    | true =>
      refine ⟨hlen, rfl, rfl, ?_, nofun, nofun, ?_⟩
      · rw [ht]
        rfl
      unfold egressFrame
      rw [ht]
    | false =>
      have hassoc : tagFrame v frame = frame.take 12 ++
          ([0x81, 0x00, UInt8.ofNat (v >>> 8), UInt8.ofNat v] ++ frame.drop 12) := by
        unfold tagFrame
        rw [append_assoc]
      obtain ⟨h1, h2, h3⟩ := take_drop_addresses frame (by omega)
        ([0x81, 0x00, UInt8.ofNat (v >>> 8), UInt8.ofNat v] ++ frame.drop 12)
      rw [← hassoc] at h1 h2 h3
      obtain ⟨htagged, hvlan⟩ := tagFrame_tag frame (by omega) hv
      refine ⟨?_, h1, h2, ?_, fun _ => htagged, fun _ _ => hvlan, ?_⟩
      · have hl := tagFrame_length frame (v := v) (by omega)
        simp only [Bool.false_eq_true, if_false, hl, ethHeaderSize]
        omega
      · rw [ht]
        exact h3 4
      unfold egressFrame
      rw [ht]

end

/-! ## Packets in their buffers -/

section

variable {p : Packet} {v : Nat}

lemma tag2untag_bytes (h : 16 ≤ p.len) : (tag2untag p).bytes = untagFrame p.bytes := by
  have hlen : (p.len - 4).toNat = 12 + (p.len.toNat - 16) := by omega
  unfold untagFrame tag2untag Packet.bytes
  dsimp only
  rw [hlen, readBytes_append, readBytes_memmove_self, readBytes_memmove_after _ _ _ (by omega),
    readBytes_take _ _ (by omega), readBytes_drop _ _ (by omega)]

lemma untag2tag_bytes (hoff : 4 ≤ p.off) (h : 12 ≤ p.len) : (untag2tag v p).bytes = tagFrame v p.bytes := by
  have hlen : (p.len + 4).toNat = 12 + (4 + (p.len.toNat - 12)) := by omega
  have haddr : p.off - 4 + 12 = p.off + 8 := by omega
  have htag := readBytes_memcpy_self (memmove p.mem (p.off - 4) p.off 12) (p.off + 8)
    [0x81, 0x00, UInt8.ofNat (v >>> 8), UInt8.ofNat v]
  unfold tagFrame untag2tag Packet.bytes
  dsimp only [length_cons, length_nil] at htag ⊢
  rw [hlen, readBytes_append, readBytes_append, haddr, htag,
    readBytes_memcpy_before _ _ _ _ _ (by omega), readBytes_memmove_self,
    readBytes_memcpy_after _ _ _ _ _ (by simp), readBytes_memmove_after _ _ _ (by omega),
    readBytes_take _ _ (by omega), readBytes_drop _ _ (by omega), append_assoc]

lemma tag2untag_untag2tag (hoff : 4 ≤ p.off) : (tag2untag (untag2tag v p)).off = p.off ∧
    (tag2untag (untag2tag v p)).len = p.len ∧ ∀ i, p.off ≤ i → (tag2untag (untag2tag v p)).mem i = p.mem i := by
  refine ⟨?_, ?_, fun i hi => ?_⟩
  · change p.off - 4 + 4 = p.off
    omega
  · change p.len + 4 - 4 = p.len
    omega
  have hback : p.off - 4 + 4 = p.off := by omega
  unfold tag2untag untag2tag
  dsimp only
  rw [hback]
  by_cases hlt : i < p.off + 12
  · -- the addresses come back from where they were moved to
    obtain ⟨k, rfl⟩ := Nat.exists_eq_add_of_le hi
    rw [memmove_inside _ _ _ (by omega), memcpy_outside _ _ _ _ (by omega),
      memmove_inside _ _ _ (by omega)]
  rw [memmove_outside _ _ (by omega), memcpy_outside _ _ _ _ (by
    simp only [length_cons, length_nil]; omega), memmove_outside _ _ (by omega)]

variable {stack : Mem} {frame : List UInt8}

lemma recvPacket_bytes : (recvPacket stack frame).bytes = frame :=
  readBytes_memcpy_self stack packetOffset frame

lemma recvPacket_mem {i : Nat} (h : i < frame.length) :
    (recvPacket stack frame).mem ((recvPacket stack frame).off + i) = frame[i] :=
  memcpy_inside stack packetOffset i frame h

lemma recvPacket_isTagged (h : ethHeaderSize ≤ frame.length) :
    (recvPacket stack frame).isTagged = frameTagged frame := by
  unfold ethHeaderSize at h
  unfold Packet.isTagged frameTagged
  rw [recvPacket_mem (by omega), recvPacket_mem (by omega), getElem?_eq_getElem (by omega),
    getElem?_eq_getElem (by omega)]
  simp

lemma recvPacket_tagVlan (h : 16 ≤ frame.length) : (recvPacket stack frame).tagVlan = frameVlan frame := by
  unfold Packet.tagVlan frameVlan
  rw [recvPacket_mem (by omega), recvPacket_mem (by omega), getD_eq_getElem?_getD,
    getD_eq_getElem?_getD, getElem?_eq_getElem (by omega),
    getElem?_eq_getElem (by omega)]
  rfl

lemma egress_bytes {untagged : Bool} (hlen : ethHeaderSize ≤ frame.length)
    (hrunt : ¬(frameTagged frame = true ∧ frame.length < 18 ∧ untagged = true)) :
    (if untagged then untaggedForm (recvPacket stack frame) else taggedForm v (recvPacket stack frame)).bytes =
    egressFrame untagged v frame := by
  have htag : (recvPacket stack frame).isTagged = frameTagged frame := recvPacket_isTagged hlen
  unfold ethHeaderSize at hlen
  unfold egressFrame untaggedForm taggedForm
  rw [htag]
  cases ht : frameTagged frame with
  | true =>
    cases untagged with
    | true =>
      have h18 : 18 ≤ frame.length := by
        by_contra hlt
        exact hrunt ⟨ht, by omega, rfl⟩
      have hint : (16 : Int) ≤ (recvPacket stack frame).len := by
        change (16 : Int) ≤ frame.length
        omega
      simp only [if_true]
      rw [tag2untag_bytes hint, recvPacket_bytes]
    | false => exact recvPacket_bytes
  | false =>
    cases untagged with
    | true => exact recvPacket_bytes
    | false =>
      have hint : (12 : Int) ≤ (recvPacket stack frame).len := by
        change (12 : Int) ≤ frame.length
        omega
      simp only [Bool.false_eq_true, if_false]
      rw [untag2tag_bytes (Nat.le_refl 4) hint, recvPacket_bytes]

lemma runt_bytes (ht : frameTagged frame = true) (hlen : ethHeaderSize ≤ frame.length) :
    (untaggedForm (recvPacket stack frame)).bytes.length = frame.length - 4 := by
  unfold untaggedForm
  rw [recvPacket_isTagged hlen, ht, if_pos rfl]
  unfold tag2untag Packet.bytes
  rw [readBytes_length]
  change ((frame.length : Int) - 4).toNat = frame.length - 4
  omega

end

end Vde
