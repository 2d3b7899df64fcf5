import Vde.Proofs.RouterForward
import Vde.UdpSocket

/-!
# Datagrams from socket to socket

On its way a datagram keeps its length and all that is behind the IP header. So the receiver finds the length of the
data, eight bytes less than the header says, unless its own room is what it compares too early.
-/

namespace Vde

open List

structure CarriesUdp (data : Mem) (size : Nat) (vb : VdeBuff) : Prop where
  len : vb.len = 50 + size
  isIp : ntohs (load16 vb.data 12) = PTYPE_IP
  udpLen : vb.udpLen = size + 8
  data : readBytes vb.data 42 size = readBytes data 0 size

structure Arrives (vb vb' : VdeBuff) : Prop where
  len : vb'.len = vb.len
  data : ∀ i < vb.len, vb'.data i = vb.data i

inductive UdpSent (data : Mem) (size : Nat) : VdeBuff → Prop
  | route (net : RouterNet) (alloc : Bool) (heap : Mem) (port : BitVec 16) (dst : BitVec 32) (dstport : BitVec 16)
      (iface : Nat) (vb : VdeBuff)
      (h : .enqueue iface vb ∈ (vderUdpsocketSendto net alloc heap port data size dst dstport).2) : UdpSent data size vb
  | broadcast (net : RouterNet) (alloc : Bool) (heap : Mem) (port : BitVec 16) (out : Nat) (dst : BitVec 32)
      (dstport : BitVec 16) (iface : Nat) (vb : VdeBuff)
      (h : .enqueue iface vb ∈ (vderUdpsocketSendtoBroadcast net alloc heap port data size out dst dstport).2) :
      UdpSent data size vb

inductive UdpTravels (data : Mem) (size : Nat) : VdeBuff → Prop
  | sent (vb : VdeBuff) (h : UdpSent data size vb) : UdpTravels data size vb
  | hop (vb vb' : VdeBuff) (h : UdpTravels data size vb) (harrives : Arrives vb vb') (alloc : Bool) (heap : Mem)
      (vif : Nat) (net : RouterNet) (iface : Nat) (next : VdeBuff)
      (hnext : .enqueue iface next ∈ (vderPacketRecv alloc heap vif vb' net).2) : UdpTravels data size next

def UdpDelivered (data : Mem) (size : Nat) (b : VdeBuff) : Prop :=
  ∃ vb vb', UdpTravels data size vb ∧ Arrives vb vb' ∧ ∃ alloc heap vif net,
    .udpRecv b ∈ (vderPacketRecv alloc heap vif vb' net).2

structure GetsData (data : Mem) (size len : Nat) (b : VdeBuff) (r : UdpReceipt) : Prop where
  ret : r.ret = (min len size : Nat)
  bytes : readBytes b.data 42 r.copied = readBytes data 0 (min len size)

/-- No more is stored than there is room for, and only bytes of the packet are read: the port, the length and those
that are copied. -/
structure KeepsBounds (len : Nat) (b : VdeBuff) (r : UdpReceipt) : Prop where
  stored : r.copied ≤ len
  header : 40 ≤ b.len
  read : r.copied = 0 ∨ 42 + r.copied ≤ b.len

/-- What the receiver relies on: the ports and the length are there, a length that is less than the room counts the
header, and the packet is as long as the length says or as there is room for. -/
structure LengthHolds (len : Nat) (b : VdeBuff) : Prop where
  header : 40 ≤ b.len
  counted : b.udpLen < len → 8 ≤ b.udpLen
  short : b.udpLen < len → b.udpLen = 8 ∨ 34 + b.udpLen ≤ b.len
  long : len ≤ b.udpLen → 42 + len ≤ b.len

section Travel

variable {data : Mem} {size : Nat} {vb vb' b : VdeBuff} {net : RouterNet}

/-- The payload and the type of a frame, which a router leaves as they are. -/
structure SameTail (vb vb' : VdeBuff) : Prop where
  len : vb'.len = vb.len
  data : ∀ i < vb.len, 34 ≤ i → vb'.data i = vb.data i

lemma SameTail.trans {vb'' : VdeBuff} (h : SameTail vb vb') (h' : SameTail vb' vb'') : SameTail vb vb'' := by
  refine ⟨h'.len.trans h.len, ?_⟩
  intro i hi hpay
  rw [h'.data i (by rwa [h.len]) hpay, h.data i hi hpay]

lemma Arrives.sameTail (h : Arrives vb vb') : SameTail vb vb' := ⟨h.len, fun i hi _ => h.data i hi⟩

lemma OnItsWay.sameTail (h : OnItsWay vb vb') : SameTail vb vb' :=
  ⟨h.len, fun i hi _ => h.data i hi (by omega) (by omega) (by omega)⟩

lemma CarriesUdp.of_sameTail (h : CarriesUdp data size vb) (htail : SameTail vb vb')
    (hip : ntohs (load16 vb'.data 12) = PTYPE_IP) : CarriesUdp data size vb' := by
  have hlen := h.len
  refine ⟨htail.len.trans hlen, hip, ?_, ?_⟩
  · have hfield : load16 vb'.data 38 = load16 vb.data 38 :=
      load16_congr (fun i hi => htail.data (38 + i) (by omega) (by omega))
    rw [VdeBuff.udpLen, hfield]
    exact h.udpLen
  rw [← h.data]
  exact readBytes_congr (fun i hi => htail.data (42 + i) (by omega) (by omega))

lemma writeIpHeader_tail (dstIp : BitVec 32) (protocol : BitVec 8) {i : Nat} (hi : 34 ≤ i) :
    writeIpHeader vb dstIp protocol i = vb.data i := by
  rw [writeIpHeader]
  simp (disch := omega) only [store8_outside, store16_outside, store32_outside]

lemma sendto_tail (dstIp : BitVec 32) (protocol : BitVec 8) (saddr : BitVec 32) (iface out : Nat) (dst : Mac)
    (h : vderSendto net iface
      { vb with data := setIpChecksum (store32 (writeIpHeader vb dstIp protocol) 26 saddr) } dst = .enqueue out vb') :
    SameTail vb vb' ∧ ntohs (load16 vb'.data 12) = PTYPE_IP := by
  rw [vderSendto] at h
  injection h with _ hvb
  subst hvb
  refine ⟨⟨rfl, ?_⟩, ?_⟩
  · intro i _ hi
    dsimp only
    rw [storeMac_outside _ _ (by omega), storeMac_outside _ _ (by omega), setIpChecksum,
      store16_outside _ _ (by omega), store16_outside _ _ (by omega), store32_outside _ _ (by omega),
      writeIpHeader_tail _ _ hi]
  have htype : load16 (writeIpHeader vb dstIp protocol) 12 = ntohs PTYPE_IP := by
    rw [← @load16_store16 vb.data 12 (ntohs PTYPE_IP)]
    apply load16_congr
    intro i hi
    rw [writeIpHeader]
    simp (disch := omega) only [store8_outside, store16_outside, store32_outside]
  have hkept : load16 (storeMac (storeMac (setIpChecksum (store32 (writeIpHeader vb dstIp protocol) 26 saddr)) 0 dst) 6
      (net.macaddr iface)) 12 = load16 (writeIpHeader vb dstIp protocol) 12 := by
    apply load16_congr
    intro i hi
    rw [storeMac_outside _ _ (by omega), storeMac_outside _ _ (by omega), setIpChecksum,
      store16_outside _ _ (by omega), store16_outside _ _ (by omega), store32_outside _ _ (by omega)]
  dsimp only
  rw [hkept, htype, ntohs_ntohs]

lemma vderPacketSend_tail {dstIp : BitVec 32} {protocol : BitVec 8} {iface : Nat}
    (h : .enqueue iface vb' ∈ (vderPacketSend net vb dstIp protocol).2) :
    SameTail vb vb' ∧ ntohs (load16 vb'.data 12) = PTYPE_IP := by
  simp only [vderPacketSend] at h
  cases hro : vderGetRoute net.router.routingTable dstIp with
  | none =>
    rw [hro] at h
    exact absurd h not_mem_nil
  | some ro =>
    cases hae : vderGetArpEntry (net.arpTable ro.iface) (ro.nextHop dstIp) with
    | none =>
      simp only [hro, hae, mem_singleton] at h
      cases h
    | some ae =>
      simp only [hro, hae, mem_singleton] at h
      exact sendto_tail _ _ _ _ _ _ h.symm

lemma udpDatagram_carries (heap : Mem) (port : BitVec 16) (data : Mem) (dstport : BitVec 16) (h : size ≤ 1400) :
    (udpDatagram heap port data (size + 8) dstport).udpLen = size + 8 ∧
    readBytes (udpDatagram heap port data (size + 8) dstport).data 42 size = readBytes data 0 size := by
  constructor
  · rw [VdeBuff.udpLen, udpDatagram]
    dsimp only
    rw [load16_store16_other _ _ (by omega), load16_store16, ntohs_ntohs, BitVec.toNat_ofNat]
    omega
  have hcopy : readBytes (udpDatagram heap port data (size + 8) dstport).data 42 size =
      readBytes (memcpy heap 42 (readBytes data 0 (size + 8))) 42 size := by
    apply readBytes_congr
    intro i _
    rw [udpDatagram]
    dsimp only
    simp (disch := omega) only [store16_outside]
  have hall := readBytes_memcpy_self heap 42 (readBytes data 0 (size + 8))
  rw [readBytes_length] at hall
  rw [hcopy, ← readBytes_take _ _ (Nat.le_add_right size 8), hall, readBytes_take _ _ (Nat.le_add_right size 8)]

lemma UdpSent.carries (h : UdpSent data size vb) (hsize : size ≤ 1400) : CarriesUdp data size vb := by
  have hbuilt {heap : Mem} {port dstport : BitVec 16}
      (htail : SameTail (udpDatagram heap port data (size + 8) dstport) vb ∧ ntohs (load16 vb.data 12) = PTYPE_IP) :
      CarriesUdp data size vb := by
    obtain ⟨⟨hlen, htail⟩, hip⟩ := htail
    obtain ⟨hfield, hdata⟩ := udpDatagram_carries heap port data dstport hsize
    have hblen : (udpDatagram heap port data (size + 8) dstport).len = 50 + size := by
      rw [udpDatagram]
      dsimp only
      omega
    rw [hblen] at hlen htail
    refine ⟨hlen, hip, ?_, ?_⟩
    · rw [← hfield, VdeBuff.udpLen, VdeBuff.udpLen]
      rw [load16_congr (fun i hi => htail (38 + i) (by omega) (by omega))]
    rw [← hdata]
    exact readBytes_congr (fun i hi => htail (42 + i) (by omega) (by omega))
  cases h with
  | route net alloc heap port dst dstport iface _ h =>
    rw [vderUdpsocketSendto] at h
    split at h
    · exact absurd h not_mem_nil
    dsimp only at h
    split at h
    · exact absurd h not_mem_nil
    split at h
    · exact absurd h not_mem_nil
    · exact hbuilt (vderPacketSend_tail h)
  | broadcast net alloc heap port out dst dstport iface _ h =>
    rw [vderUdpsocketSendtoBroadcast] at h
    split at h
    · exact absurd h not_mem_nil
    dsimp only at h
    split at h
    · exact absurd h not_mem_nil
    · exact hbuilt (sendto_tail _ _ _ _ _ _ (mem_singleton.mp h).symm)

lemma vderFilter_udpRecv (buf : VdeBuff) (table : List Filter) (b : VdeBuff) :
    .udpRecv b ∉ (vderFilter buf table).2.2.2 := by
  simp only [vderFilter]
  cases (selectFilter buf table).1 with
  | none => simp
  | some rule =>
    obtain ⟨key, action, priority, statsPackets, statsBytes⟩ := rule
    cases action <;> simp

lemma vderIpInput_calls (net : RouterNet) (packet : VdeBuff) :
    (∀ iface next, .enqueue iface next ∉ (vderIpInput net packet).2) ∧ ∀ b,
    .udpRecv b ∈ (vderIpInput net packet).2 → b = packet := by
  simp only [vderIpInput]
  split
  · simp
  split
  · constructor
    · intro iface next
      split <;> simp
    intro b
    split <;> simp
  split
  · constructor
    · intro iface next
      split <;> simp
    intro b
    split <;> simp
  constructor
  · intro iface next
    split <;> simp
  intro b
  split <;> simp

lemma forwardPacket_tail {packet next : VdeBuff} {iface : Nat} (h : .enqueue iface next ∈ forwardPacket net packet) :
    SameTail packet next ∧ ntohs (load16 next.data 12) = PTYPE_IP := by
  have hway : OnItsWay packet (vderIpDecreaseTtl packet).2 := onItsWay_decreaseTtl ⟨rfl, fun _ _ _ _ _ => rfl⟩
  simp only [forwardPacket] at h
  split at h
  · simp at h
  have hmem : .enqueue iface next ∈ (vderPacketSend net (vderIpDecreaseTtl packet).2
      (vderIpDecreaseTtl packet).2.daddr (vderIpDecreaseTtl packet).2.protocol).2 := by
    split at h
    · simpa using h
    · exact h
  obtain ⟨htail, hip⟩ := vderPacketSend_tail hmem
  exact ⟨hway.sameTail.trans htail, hip⟩

lemma forwardPacket_udpRecv (net : RouterNet) (packet b : VdeBuff) : .udpRecv b ∉ forwardPacket net packet := by
  have hsend (vdb : VdeBuff) (dstIp : BitVec 32) (protocol : BitVec 8) :
      .udpRecv b ∉ (vderPacketSend net vdb dstIp protocol).2 := by
    simp only [vderPacketSend]
    cases vderGetRoute net.router.routingTable dstIp with
    | none => simp
    | some ro =>
      dsimp only
      cases vderGetArpEntry (net.arpTable ro.iface) (ro.nextHop dstIp) with
      | none => simp
      | some ae => simp [vderSendto]
  simp only [forwardPacket]
  split
  · simp
  split
  · simp [hsend]
  · exact hsend _ _ _

lemma mem_handlePacket {packet : VdeBuff} {call : RouterCall} (h : call ∈ handlePacket net packet) :
    call ∈ (vderIpInput net packet).2 ∨ call ∈ forwardPacket net packet := by
  rcases hin : vderIpInput net packet with ⟨forUs, calls⟩
  simp only [handlePacket, hin] at h
  split at h
  · exact .inl h
  · exact .inr h

lemma vderPacketRecv_tail (hip : ntohs (load16 vb.data 12) = PTYPE_IP) {alloc : Bool} {heap : Mem} {vif : Nat} :
    (∀ iface next, .enqueue iface next ∈ (vderPacketRecv alloc heap vif vb net).2 →
        SameTail vb next ∧ ntohs (load16 next.data 12) = PTYPE_IP) ∧
      ∀ b, .udpRecv b ∈ (vderPacketRecv alloc heap vif vb net).2 → SameTail vb b := by
  obtain ⟨hlen, hdata, hquiet⟩ := vderFilter_frame { vb with src := vif } net.filteringTable
  have hmute := vderFilter_udpRecv { vb with src := vif } net.filteringTable
  rcases hf : vderFilter { vb with src := vif } net.filteringTable with ⟨stopped, buf, table, calls⟩
  rw [hf] at hlen hdata hquiet hmute
  dsimp only at hlen hdata hquiet hmute
  have hcopy : OnItsWay vb (copyPacket heap buf) := by
    obtain ⟨hl, hd⟩ := onItsWay_copy heap buf
    rw [hlen, hdata] at hd
    exact ⟨hl.trans hlen, hd⟩
  rw [vderPacketRecv_ip alloc heap vif hip hf]
  split
  · exact ⟨fun _ _ hmem => absurd hmem not_mem_nil, fun _ hmem => absurd hmem not_mem_nil⟩
  split
  · exact ⟨fun iface next hmem => absurd hmem (hquiet iface next), fun b hmem => absurd hmem (hmute b)⟩
  constructor
  · intro iface next hmem
    have hmem := (mem_append.mp hmem).resolve_left (hquiet iface next)
    rcases mem_handlePacket hmem with hinput | hforward
    · exact absurd hinput ((vderIpInput_calls _ _).1 iface next)
    obtain ⟨htail, hnext⟩ := forwardPacket_tail hforward
    exact ⟨hcopy.sameTail.trans htail, hnext⟩
  intro b hmem
  have hmem := (mem_append.mp hmem).resolve_left (hmute b)
  rcases mem_handlePacket hmem with hinput | hforward
  · rw [(vderIpInput_calls _ _).2 b hinput]
    exact hcopy.sameTail
  · exact absurd hforward (forwardPacket_udpRecv _ _ b)

lemma UdpTravels.carries (h : UdpTravels data size vb) (hsize : size ≤ 1400) : CarriesUdp data size vb := by
  induction h with
  | sent vb h => exact h.carries hsize
  | hop vb vb' _ harrives alloc heap vif net iface next hnext ih =>
    have hip : ntohs (load16 vb'.data 12) = PTYPE_IP := by
      rw [load16_congr (fun i hi => harrives.data (12 + i) (by rw [ih.len]; omega))]
      exact ih.isIp
    obtain ⟨htail, hnextIp⟩ := (vderPacketRecv_tail hip).1 iface next hnext
    exact ih.of_sameTail (harrives.sameTail.trans htail) hnextIp

lemma UdpDelivered.spec (h : UdpDelivered data size b) (hsize : size ≤ 1400) :
    b.udpLen = size + 8 ∧ ∀ n ≤ size, readBytes b.data 42 n = readBytes data 0 n := by
  obtain ⟨vb, vb', htravels, harrives, alloc, heap, vif, net, hrecv⟩ := h
  have hvb := htravels.carries hsize
  have hlen := hvb.len
  have hip : ntohs (load16 vb'.data 12) = PTYPE_IP := by
    rw [load16_congr (fun i hi => harrives.data (12 + i) (by omega))]
    exact hvb.isIp
  have htail := harrives.sameTail.trans ((vderPacketRecv_tail hip).2 b hrecv)
  have hdata : readBytes b.data 42 size = readBytes data 0 size := by
    rw [← hvb.data]
    exact readBytes_congr (fun i hi => htail.data (42 + i) (by omega) (by omega))
  refine ⟨?_, ?_⟩
  · rw [← hvb.udpLen, VdeBuff.udpLen, VdeBuff.udpLen]
    rw [load16_congr (fun i hi => htail.data (38 + i) (by omega) (by omega))]
  intro n hn
  rw [← readBytes_take _ _ hn, hdata, readBytes_take _ _ hn]

end Travel

section Receive

variable {b : VdeBuff} {len : Nat}

lemma udpCopyLen_long (h : len ≤ b.udpLen) : udpCopyLen b len = len := by
  rw [udpCopyLen, if_neg (Nat.not_lt.mpr h)]

lemma udpCopyLen_short (h : b.udpLen < len) (h8 : 8 ≤ b.udpLen) : udpCopyLen b len = b.udpLen - 8 := by
  have hlt := (ntohs (load16 b.data 38)).isLt
  rw [udpCopyLen, if_pos h, toSize]
  rw [VdeBuff.udpLen] at h8 ⊢
  omega

lemma udpCopyLen_wraps (h : b.udpLen < len) (h8 : b.udpLen < 8) :
    udpCopyLen b len = 18446744073709551608 + b.udpLen := by
  rw [udpCopyLen, if_pos h, toSize]
  omega

lemma keepsBounds_iff (hlen : 0 < len) (hb : b.len < 2147483648) (ret : Int) (fromport : BitVec 16) :
    KeepsBounds len b ⟨ret, udpCopyLen b len, fromport⟩ ↔ LengthHolds len b := by
  by_cases hshort : b.udpLen < len
  · by_cases h8 : 8 ≤ b.udpLen
    · have hcopy := udpCopyLen_short hshort h8
      constructor
      · rintro ⟨-, hheader, hread⟩
        dsimp only at hread
        exact ⟨hheader, fun _ => h8, fun _ => by omega, fun hle => absurd hshort (Nat.not_lt.mpr hle)⟩
      rintro ⟨hheader, -, hread, -⟩
      have hread := hread hshort
      exact ⟨by dsimp only; omega, hheader, by dsimp only; omega⟩
    have hcopy := udpCopyLen_wraps hshort (Nat.not_le.mp h8)
    constructor
    · rintro ⟨-, -, hread⟩
      dsimp only at hread
      omega
    rintro ⟨-, hcounted, -, -⟩
    exact absurd (hcounted hshort) h8
  have hlong := Nat.not_lt.mp hshort
  have hcopy := udpCopyLen_long hlong
  constructor
  · rintro ⟨-, hheader, hread⟩
    dsimp only at hread
    exact ⟨hheader, fun h => absurd h hshort, fun h => absurd h hshort, fun _ => by omega⟩
  rintro ⟨hheader, -, -, hread⟩
  have hread := hread hlong
  exact ⟨by dsimp only; omega, hheader, by dsimp only; omega⟩

lemma getsData_iff {data : Mem} {size : Nat} (hfield : b.udpLen = size + 8) (hsize : size ≤ 1400)
    (hdata : ∀ n ≤ size, readBytes b.data 42 n = readBytes data 0 n) (fromport : BitVec 16) :
    GetsData data size len b ⟨toInt32 (udpCopyLen b len), udpCopyLen b len, fromport⟩ ↔ len ≤ size ∨
    size + 8 < len := by
  have hint {n : Nat} (hn : n ≤ 1408) : toInt32 n = n := toInt32_of_lt (by omega)
  by_cases hshort : b.udpLen < len
  · have hcopy : udpCopyLen b len = size := by
      rw [udpCopyLen_short hshort (by omega), hfield, Nat.add_sub_cancel]
    have hmin : min len size = size := by omega
    rw [hcopy]
    refine ⟨fun _ => .inr (by omega), fun _ => ⟨?_, ?_⟩⟩
    · dsimp only
      rw [hmin, hint (by omega)]
    dsimp only
    rw [hmin, hdata size (Nat.le_refl _)]
  have hcopy : udpCopyLen b len = len := udpCopyLen_long (Nat.not_lt.mp hshort)
  rw [hcopy]
  constructor
  · rintro ⟨hret, -⟩
    dsimp only at hret
    rw [hint (by omega)] at hret
    omega
  intro h
  have hle : len ≤ size := by omega
  have hmin : min len size = len := Nat.min_eq_left hle
  refine ⟨?_, ?_⟩
  · dsimp only
    rw [hmin, hint (by omega)]
  dsimp only
  rw [hmin, hdata len hle]

/-- A delivered datagram of up to 1400 bytes is received right exactly if the room is not between its size and eight
bytes more; and for any packet the bounds are kept exactly if its lengths hold. -/
theorem udp_received_iff (len : Nat) (hlen : 1 ≤ len) (timeout : Int) (inq : List VdeBuff) :
    (∀ (data : Mem) (size : Nat) (b : VdeBuff), 1 ≤ size → size ≤ 1400 → UdpDelivered data size b →
        ((∃ r, vderUdpsocketRecvfrom (b :: inq) len timeout = (.received r, inq) ∧ GetsData data size len b r) ↔
          len ≤ size ∨ size + 8 < len)) ∧
      ∀ b : VdeBuff, b.len < 2 ^ 31 →
        ((∃ r, vderUdpsocketRecvfrom (b :: inq) len timeout = (.received r, inq) ∧ KeepsBounds len b r) ↔
          LengthHolds len b) := by
  have hrecv (b : VdeBuff) : vderUdpsocketRecvfrom (b :: inq) len timeout =
      (.received ⟨toInt32 (udpCopyLen b len), udpCopyLen b len, load16 b.data 34⟩, inq) := by
    rw [vderUdpsocketRecvfrom, if_neg (by omega)]
  refine ⟨?_, ?_⟩
  · intro data size b _ hsize hdelivered
    obtain ⟨hfield, hdata⟩ := hdelivered.spec hsize
    rw [← getsData_iff hfield hsize hdata (load16 b.data 34), hrecv b]
    simp
  intro b hb
  rw [← keepsBounds_iff hlen hb (toInt32 (udpCopyLen b len)) (load16 b.data 34), hrecv b]
  simp

end Receive

def neighbourNet : RouterNet :=
  { router := { routingTable := [], addressList := fun _ => [{ address := 0x0201000a, netmask := 0x00ffffff }] }
    iflist := [0]
    macaddr := fun _ => ⟨#[2, 0, 0, 0, 0, 2], neighbour_mac⟩
    arpTable := fun _ => arpTableStart
    filteringTable := []
    udpPorts := [0x4500] }

def zeros : Mem := fun _ => 0

lemma four_bytes_delivered : ∃ b, UdpDelivered zeros 4 b := by
  have hsend : ∃ vb, (vderUdpsocketSendto twoNetworks true zeros 0x4400 zeros 4 0x0201000a 0x4500).2 =
      [.enqueue 1 vb] ∧ (vderPacketRecv true zeros 0 vb neighbourNet).2 =
        [.udpRecv (copyPacket zeros { vb with src := 0 })] := by
    refine ⟨_, rfl, ?_⟩
    rfl
  obtain ⟨vb, hsent, hrecv⟩ := hsend
  refine ⟨copyPacket zeros { vb with src := 0 }, vb, vb, .sent vb (.route twoNetworks true zeros 0x4400 0x0201000a 0x4500 1 vb ?_), ⟨rfl, fun _ _ => rfl⟩,
    true, zeros, 0, neighbourNet, ?_⟩
  · rw [hsent]
    exact mem_singleton_self _
  rw [hrecv]
  exact mem_singleton_self _

theorem udp_received_four : ∃ b, UdpDelivered zeros 4 b ∧
    ∃ r, vderUdpsocketRecvfrom [b] 4 0 = (.received r, []) ∧ GetsData zeros 4 4 b r := by
  obtain ⟨b, hb⟩ := four_bytes_delivered
  exact ⟨b, hb, ((udp_received_iff 4 (by decide) 0 []).1 zeros 4 b (by decide) (by decide) hb).mpr (.inl (by decide))⟩

/-- Four bytes and the room for eight, and a packet whose length does not count the header. -/
theorem udp_lengths_missed :
    (¬∀ (data : Mem) (size len : Nat) (b : VdeBuff), 1 ≤ size → size ≤ 1400 → 1 ≤ len → UdpDelivered data size b →
        ∃ r, vderUdpsocketRecvfrom [b] len 0 = (.received r, []) ∧ GetsData data size len b r) ∧
      ¬∀ (len : Nat) (b : VdeBuff), 1 ≤ len → b.len < 2 ^ 31 →
        ∃ r, vderUdpsocketRecvfrom [b] len 0 = (.received r, []) ∧ KeepsBounds len b r := by
  constructor
  · intro h
    obtain ⟨b, hb⟩ := four_bytes_delivered
    obtain ⟨hfield, -⟩ := hb.spec (by decide)
    obtain ⟨r, hr, hret, -⟩ := h zeros 4 8 b (by decide) (by decide) (by decide) hb
    rw [vderUdpsocketRecvfrom, if_neg (by decide), udpCopyLen_long (by rw [hfield]; decide)] at hr
    injection hr with hr _
    injection hr with hr
    rw [← hr] at hret
    dsimp only at hret
    rw [toInt32_of_lt (by decide)] at hret
    exact absurd hret (by decide)
  intro h
  obtain ⟨r, hr, hstored, -, -⟩ := h 1 { len := 1000, src := 0, priority := 0, data := zeros } (by decide) (by decide)
  rw [vderUdpsocketRecvfrom, if_neg (by decide), udpCopyLen_wraps (by decide) (by decide)] at hr
  injection hr with hr _
  injection hr with hr
  rw [← hr] at hstored
  exact absurd hstored (by decide)

end Vde
