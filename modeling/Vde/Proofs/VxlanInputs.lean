import Vde.VxlanInput

/-!
# Input bounds of vde_vxlan

Neither handler looks at the number of bytes that it got before it reads the header in its buffer. A datagram or a frame
has to be long enough for every field that is looked at and for every call that is made; a frame longer than 1518 bytes
runs over the end of `struct vxlan_pkt`.
-/

namespace Vde.Vxlan

open List

/-- A handler that got `n` bytes from offset `off` of the structure on looks at header fields only if they were received,
sends between 14 bytes and the bytes of the frame that were received, and writes inside the structure. -/
structure InputRight (off n : Nat) (h : Handled) : Prop where
  looks : ∀ i ∈ h.looks, off ≤ i ∧ i < off + n
  sends : ∀ s ∈ h.sends, 14 ≤ s.len ∧ s.len + pktAt ≤ off + n
  writes : ∀ w ∈ h.writes, w.1 + w.2 ≤ vxlanPktSize

/-- The bytes suffice for what `vxlan_process` finds in the buffer: flags, network, addresses and, for a frame that goes
to the switch, a whole header. -/
def DatagramSuffices (g : Gateway) (stale : Mem) (srcAddr : BitVec 32) (data : List UInt8) (malloc : Option Nat)
    (now : Int) : Prop :=
  let pkt := memcpy stale 0 data
  1 ≤ data.length ∧
    (pkt 0 = 8 → 7 ≤ data.length ∧
      (ntoh24 pkt 4 = g.vxlanId → 20 ≤ data.length ∧
        ((g.findInHashUpdate malloc now (macAt pkt (pktAt + 6)) srcAddr).inward pkt = true → 22 ≤ data.length)))

/-- The bytes suffice for both addresses and, for a frame that goes out, a whole header, and fit in behind the VXLAN
header. -/
def FrameSuffices (g : Gateway) (stale : Mem) (data : List UInt8) (malloc : Option Nat) (now : Int) : Prop :=
  let pkt := memcpy stale pktAt data
  12 ≤ data.length ∧ data.length ≤ ethPktSize ∧
    ((g.findInHashUpdate malloc now (macAt pkt (pktAt + 6)) 1).outward pkt ≠ none → 14 ≤ data.length)

variable {g : Gateway} {stale : Mem} {srcAddr : BitVec 32} {malloc : Option Nat} {now : Int} {r : RecvResult}

lemma RecvResult.value_eq (h : 1 ≤ (r.bytes vxlanPktSize).length) :
    r.value vxlanPktSize = (r.bytes vxlanPktSize).length ∧ (r.bytes vxlanPktSize).length ≤ 1526 := by
  cases r with
  | failed => exact absurd h (by decide)
  | received data => exact ⟨rfl, received_length_le data⟩

lemma RecvResult.bytes_length_le (r : RecvResult) : (r.bytes vxlanPktSize).length ≤ 1526 := by
  cases r with
  | failed => exact Nat.zero_le _
  | received data => exact received_length_le data

lemma frameLen_eq (h : pktAt ≤ (r.bytes vxlanPktSize).length) :
    toSize ((toSize (r.value vxlanPktSize) : Int) - (pktAt : Int)) = (r.bytes vxlanPktSize).length - pktAt := by
  have hpkt : pktAt = 8 := rfl
  obtain ⟨hval, hle⟩ := RecvResult.value_eq (r := r) (by omega)
  rw [hval, toSize_of_nonneg (Int.natCast_nonneg _) (by omega), Int.toNat_natCast,
    toSize_of_nonneg (by omega) (by omega)]
  omega

lemma inputRight_silent_iff {off n : Nat} (last : Nat) {looks : List Nat} (hlow : ∀ i ∈ looks, off ≤ i)
    (hlast : last ∈ looks) (hhigh : ∀ i ∈ looks, i ≤ last) :
    InputRight off n ⟨g, looks, [(off, n)], []⟩ ↔ last < off + n ∧ off + n ≤ vxlanPktSize := by
  constructor
  · intro h
    exact ⟨(h.looks last hlast).2, h.writes (off, n) (mem_singleton.mpr rfl)⟩
  rintro ⟨hlooked, hroom⟩
  refine ⟨fun i hi => ⟨hlow i hi, Nat.lt_of_le_of_lt (hhigh i hi) hlooked⟩, ?_, ?_⟩
  · intro s hs
    cases hs
  intro w hw
  rw [mem_singleton.mp hw]
  exact hroom

lemma inputRight_send_iff (off n last : Nat) (looks : List Nat) (s : Send) (hlow : ∀ i ∈ looks, off ≤ i)
    (hlast : last ∈ looks) (hhigh : ∀ i ∈ looks, i ≤ last) :
    InputRight off n ⟨g, looks, (off, n) :: s.writes, [s]⟩ ↔ (last < off + n ∧ off + n ≤ vxlanPktSize) ∧
    14 ≤ s.len ∧ s.len + pktAt ≤ off + n := by
  have hheader : ∀ w ∈ s.writes, w.1 + w.2 ≤ vxlanPktSize := by
    cases s with
    | plug pkt len => exact fun w hw => by cases hw
    | vxlan addr pkt len =>
      intro w hw
      rw [mem_singleton.mp hw]
      decide
  constructor
  · intro h
    exact ⟨⟨(h.looks last hlast).2, h.writes (off, n) mem_cons_self⟩, h.sends s (mem_singleton.mpr rfl)⟩
  rintro ⟨⟨hlooked, hroom⟩, hlen⟩
  refine ⟨fun i hi => ⟨hlow i hi, Nat.lt_of_le_of_lt (hhigh i hi) hlooked⟩, ?_, ?_⟩
  · intro s' hs'
    rw [mem_singleton.mp hs']
    exact hlen
  intro w hw
  rcases mem_cons.mp hw with rfl | hw
  · exact hroom
  · exact hheader w hw

lemma vxlanProcess_inputRight_iff :
    InputRight 0 (r.bytes vxlanPktSize).length (vxlanProcessRecv g stale srcAddr r malloc now) ↔
    DatagramSuffices g stale srcAddr (r.bytes vxlanPktSize) malloc now := by
  have hroom := r.bytes_length_le
  have hsize : vxlanPktSize = 1526 := rfl
  have hat : pktAt = 8 := rfl
  simp only [DatagramSuffices, vxlanProcessRecv]
  by_cases hflags : memcpy stale 0 (r.bytes vxlanPktSize) 0 = 8
  · by_cases hid : ntoh24 (memcpy stale 0 (r.bytes vxlanPktSize)) 4 = g.vxlanId
    · rw [if_neg (not_not.mpr hflags), if_neg (not_not.mpr hid)]
      generalize g.findInHashUpdate malloc now _ srcAddr = g'
      by_cases hin : g'.inward (memcpy stale 0 (r.bytes vxlanPktSize)) = true
      · rw [if_pos hin]
        have hsend := inputRight_send_iff (g := g') 0 (r.bytes vxlanPktSize).length 19
          (flagsField ++ idField ++ srcField ++ destField)
          (.plug (memcpy stale 0 (r.bytes vxlanPktSize))
            (toSize ((toSize (r.value vxlanPktSize) : Int) - (pktAt : Int))))
          (by decide) (by decide) (by decide)
        refine hsend.trans ?_
        constructor
        · rintro ⟨⟨hlooked, _⟩, hlen, _⟩
          rw [Send.len, frameLen_eq (by omega)] at hlen
          exact ⟨by omega, fun _ => ⟨by omega, fun _ => ⟨by omega, fun _ => by omega⟩⟩⟩
        rintro ⟨_, hrest⟩
        have hwhole := ((hrest hflags).2 hid).2 hin
        rw [Send.len, frameLen_eq (by omega)]
        omega
      rw [if_neg hin, inputRight_silent_iff 19 (by decide) (by decide) (by decide)]
      constructor
      · intro h
        exact ⟨by omega, fun _ => ⟨by omega, fun _ => ⟨by omega, fun hno => absurd hno hin⟩⟩⟩
      rintro ⟨_, hrest⟩
      have haddrs := ((hrest hflags).2 hid).1
      omega
    rw [if_neg (not_not.mpr hflags), if_pos hid,
      inputRight_silent_iff 6 (by decide) (by decide) (by decide)]
    constructor
    · intro h
      exact ⟨by omega, fun _ => ⟨by omega, fun hno => absurd hno hid⟩⟩
    rintro ⟨_, hrest⟩
    have hnet := (hrest hflags).1
    omega
  · rw [if_pos hflags, inputRight_silent_iff 0 (by decide) (by decide) (by decide)]
    constructor
    · intro h
      exact ⟨by omega, fun hno => absurd hno hflags⟩
    rintro ⟨hone, _⟩
    omega

lemma plugProcess_inputRight_iff :
    InputRight pktAt (r.bytes vxlanPktSize).length (plugProcessRecv g stale r malloc now) ↔
    FrameSuffices g stale (r.bytes vxlanPktSize) malloc now := by
  have hsize : vxlanPktSize = 1526 := rfl
  have hpkt : ethPktSize = 1518 := rfl
  have hat : pktAt = 8 := rfl
  unfold plugProcessRecv FrameSuffices
  dsimp only
  generalize g.findInHashUpdate malloc now _ 1 = g'
  cases hout : g'.outward (memcpy stale pktAt (r.bytes vxlanPktSize)) with
  | none =>
    rw [inputRight_silent_iff 19 (by decide) (by decide) (by decide)]
    constructor
    · intro h
      exact ⟨by omega, by omega, fun hno => absurd rfl hno⟩
    rintro ⟨haddrs, hfits, _⟩
    omega
  | some addr =>
    have hsend := inputRight_send_iff (g := g') pktAt (r.bytes vxlanPktSize).length 19 (srcField ++ destField)
      (.vxlan addr (memcpy stale pktAt (r.bytes vxlanPktSize)) (toSize (r.value vxlanPktSize)))
      (by decide) (by decide) (by decide)
    simp only [singleton_append]
    rw [hsend]
    have hlen : 1 ≤ (r.bytes vxlanPktSize).length →
        toSize (r.value vxlanPktSize) = (r.bytes vxlanPktSize).length := by
      intro hone
      obtain ⟨hval, hle⟩ := RecvResult.value_eq hone
      rw [hval, toSize_of_nonneg (Int.natCast_nonneg _) (by omega), Int.toNat_natCast]
    constructor
    · rintro ⟨⟨hlooked, hroom⟩, hlong, _⟩
      rw [Send.len, hlen (by omega)] at hlong
      exact ⟨by omega, by omega, fun _ => hlong⟩
    rintro ⟨haddrs, hfits, hlong⟩
    have hwhole := hlong (Option.some_ne_none _)
    rw [Send.len, hlen (by omega)]
    omega

/-- For every result of `recvfrom` and `vde_recv`, table and old contents of the buffers, the handlers keep to what they
received and to the structure exactly when the bytes suffice for what the handlers find in the buffer. -/
theorem handlers_inputRight_iff (g : Gateway) (stale : Mem) (srcAddr : BitVec 32) (r : RecvResult) (malloc : Option Nat)
    (now : Int) :
    (InputRight 0 (r.bytes vxlanPktSize).length (vxlanProcessRecv g stale srcAddr r malloc now) ↔
      DatagramSuffices g stale srcAddr (r.bytes vxlanPktSize) malloc now) ∧
    (InputRight pktAt (r.bytes vxlanPktSize).length (plugProcessRecv g stale r malloc now) ↔
      FrameSuffices g stale (r.bytes vxlanPktSize) malloc now) :=
  ⟨vxlanProcess_inputRight_iff, plugProcess_inputRight_iff⟩

def newGateway : Gateway := gatewayInit 1 0xEF010101

/-- A datagram without a byte is read for its flags, and a frame of 1526 bytes runs over the end of the structure. -/
theorem unreceived_bytes_read : ¬InputRight 0 0 (vxlanProcessRecv newGateway (fun _ => 0) 0 (.received []) none 0) ∧
    ¬InputRight pktAt 1526 (plugProcessRecv newGateway (fun _ => 0) (.received (replicate 1526 0)) none 0) := by
  constructor
  · intro h
    have hflags := h.looks 0 (by decide)
    exact absurd hflags.2 (by decide)
  intro h
  have hlen : ((RecvResult.received (replicate 1526 0)).bytes vxlanPktSize).length = 1526 := by
    rw [RecvResult.bytes, length_take, length_replicate, vxlanPktSize, Nat.min_self]
  have hwhole := h.writes (pktAt, ((RecvResult.received (replicate 1526 0)).bytes vxlanPktSize).length) ?_
  · rw [hlen] at hwhole
    exact absurd hwhole (by decide)
  unfold plugProcessRecv
  dsimp only
  split
  · exact mem_singleton.mpr rfl
  · exact mem_append_left _ (mem_singleton.mpr rfl)

end Vde.Vxlan
