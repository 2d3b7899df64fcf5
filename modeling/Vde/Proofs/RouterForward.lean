import Vde.Proofs.InetChecksum

/-!
# What the router forwards

A packet in transit goes out through `vder_packet_send`, which writes a header as if the packet were
the router's own: type of service, identification and fragment fields are set, the time to live
starts again at 64, the source becomes an address of the router and the length that of the frame.
The packet sent is the one received only where the received header had these values.
-/

namespace Vde

/-- The payload that a frame carries: as much as the header says and the frame has. -/
def VdeBuff.payload (vb : VdeBuff) : List UInt8 :=
  readBytes vb.data 34 (min (ntohs vb.totLen).toNat (vb.len - 14) - 20)

structure TransitPacket (net : RouterNet) (vb : VdeBuff) : Prop where
  minLen : 34 ≤ vb.len
  maxLen : vb.len ≤ 1979
  isIp : ntohs (load16 vb.data 12) = PTYPE_IP
  header : vb.data 14 = 0x45
  checksum : ChecksumValid vb
  notLocal : vderIpaddressIsLocal net vb.daddr = false
  notBroadcast : vderIpaddressIsBroadcast net vb.daddr = false

structure SentRight (vb sent : VdeBuff) : Prop where
  saddr : sent.saddr = vb.saddr
  daddr : sent.daddr = vb.daddr
  protocol : sent.protocol = vb.protocol
  ident : sent.ident = vb.ident
  fragOff : sent.fragOff = vb.fragOff
  tos : sent.tos = vb.tos
  payload : sent.payload = vb.payload
  ttl : sent.ttl.toNat + 1 = vb.ttl.toNat
  alive : 1 ≤ sent.ttl.toNat
  checksum : ChecksumValid sent

/-- Whatever is handed to `vder_sendto` is right, and nothing is when the time to live is used up. -/
def ForwardsRight (vb : VdeBuff) (calls : List RouterCall) : Prop :=
  (∀ iface sent, .enqueue iface sent ∈ calls → SentRight vb sent) ∧
    (vb.ttl.toNat ≤ 1 → ∀ iface sent, .enqueue iface sent ∉ calls)

/-- The sum of the header that `vder_packet_send` writes for a packet, without the checksum. -/
def rewrittenSum (vb : VdeBuff) : Nat :=
  0x4500 + (vb.len - 14) + 0x4000 + (0x4000 + vb.protocol.toNat) + byteSum vb.data 26 8

/-- The packet looks like one of the router's own that is sent on the route, with one hop more to
live, and its checksum needs only one folding. -/
structure LooksOwn (net : RouterNet) (ro : Route) (vb : VdeBuff) : Prop where
  ttl : vb.ttl = 65
  tos : vb.tos = 0
  ident : vb.ident = 0
  fragOff : vb.fragOff = ntohs 0x4000
  saddr : vb.saddr = vderGetRightLocalip net ro.iface (ro.nextHop vb.daddr)
  length : vb.len - 14 ≤ (ntohs vb.totLen).toNat ∨ vb.len = 34
  carry : rewrittenSum vb % 65536 + rewrittenSum vb / 65536 < 65536

def PassesOn (alloc : Bool) (vif : Nat) (vb : VdeBuff) (net : RouterNet) : Prop :=
  (loadMac vb.data 0 = net.macaddr vif ∨ loadMac vb.data 0 = macBroadcast) ∧
    (vderFilter { vb with src := vif } net.filteringTable).1 = false ∧ alloc = true

/-- A packet that passes on, with a route, a neighbour and a time to live other than 1, looks like one
of the router's own. -/
def ForwardOk (alloc : Bool) (vif : Nat) (vb : VdeBuff) (net : RouterNet) : Prop :=
  PassesOn alloc vif vb net → vb.ttl ≠ 1 → ∀ ro ae, vderGetRoute net.router.routingTable vb.daddr = some ro →
    vderGetArpEntry (net.arpTable ro.iface) (ro.nextHop vb.daddr) = some ae → LooksOwn net ro vb

def rewrittenData (net : RouterNet) (ro : Route) (packet : VdeBuff) : Mem :=
  store32 (writeIpHeader packet packet.daddr packet.protocol) 26
    (vderGetRightLocalip net ro.iface (ro.nextHop packet.daddr))

def sentPacket (net : RouterNet) (ro : Route) (ae : Nat) (packet : VdeBuff) : VdeBuff :=
  { packet with
    data := storeMac (storeMac (setIpChecksum (rewrittenData net ro packet)) 0
      ((net.arpTable ro.iface).entries ae).macaddr) 6 (net.macaddr ro.iface) }

variable {i : Nat}

section Header

variable (mem : Mem)

lemma storeMac_outside {off : Nat} (mac : Mac) (h : i < off ∨ off + 6 ≤ i) : storeMac mem off mac i = mem i :=
  memcpy_outside mem off i mac.toList (by rwa [Vector.length_toList])

lemma byteSum_header : byteSum mem 14 20 =
    byteSum mem 14 10 + (ntohs (load16 mem 24)).toNat + byteSum mem 26 8 := by
  rw [ntohs_load16_toNat]
  simp only [byteSum, Nat.reduceMod, Nat.reduceEqDiff, if_true, if_false, Nat.reduceAdd]
  omega

lemma byteSum_front :
    byteSum mem 14 10 =
      ((mem 14).toNat * 256 + (mem 15).toNat) + (ntohs (load16 mem 16)).toNat +
        (ntohs (load16 mem 18)).toNat + (ntohs (load16 mem 20)).toNat +
        ((mem 22).toNat * 256 + (mem 23).toNat) := by
  simp only [ntohs_load16_toNat]
  simp only [byteSum, Nat.reduceMod, Nat.reduceEqDiff, if_true, if_false, Nat.reduceAdd]
  omega

lemma byteSum_setIpChecksum (data : Mem) (S : Nat) (hS : byteSum data 14 10 + byteSum data 26 8 = S) :
    byteSum (setIpChecksum data) 14 20 = S + (65535 - (S % 65536 + S / 65536) % 65536) := by
  have hfront : byteSum (store16 data 24 0) 14 10 = byteSum data 14 10 :=
    byteSum_congr _ _ _ _ (fun i hi => store16_outside _ _ (by omega))
  have hback : byteSum (store16 data 24 0) 26 8 = byteSum data 26 8 :=
    byteSum_congr _ _ _ _ (fun i hi => store16_outside _ _ (by omega))
  have hzero : byteSum (store16 data 24 0) 14 20 = S := by
    rw [byteSum_header, hfront, hback, load16_store16, show (ntohs 0).toNat = 0 from rfl, Nat.add_zero]
    exact hS
  have hsum := netChecksum_toNat (store16 data 24 0) 14 (show 20 ≤ 65535 by decide)
  rw [hzero] at hsum
  rw [setIpChecksum, byteSum_header, load16_store16, ntohs_ntohs, hsum,
    byteSum_congr _ (store16 data 24 0) 14 10 (fun i hi => store16_outside _ _ (by omega)),
    byteSum_congr _ (store16 data 24 0) 26 8 (fun i hi => store16_outside _ _ (by omega)),
    hfront, hback]
  omega

end Header

section Sent

variable (net : RouterNet) (ro : Route) (ae : Nat) (packet : VdeBuff)

lemma sentPacket_data (hi : 12 ≤ i) :
    (sentPacket net ro ae packet).data i = setIpChecksum (rewrittenData net ro packet) i := by
  simp only [sentPacket]
  rw [storeMac_outside _ _ (by omega), storeMac_outside _ _ (by omega)]

lemma sentPacket_outside (hi : 12 ≤ i) (hcheck : i < 24 ∨ 26 ≤ i) :
    (sentPacket net ro ae packet).data i = rewrittenData net ro packet i := by
  rw [sentPacket_data net ro ae packet hi, setIpChecksum, store16_outside _ _ (by omega),
    store16_outside _ _ (by omega)]

lemma rewrittenData_saddr :
    load32 (rewrittenData net ro packet) 26 = vderGetRightLocalip net ro.iface (ro.nextHop packet.daddr) := by
  rw [rewrittenData, load32_store32]

lemma rewrittenData_daddr : load32 (rewrittenData net ro packet) 30 = packet.daddr := by
  have h : load32 (rewrittenData net ro packet) 30 =
      load32 (writeIpHeader packet packet.daddr packet.protocol) 30 :=
    load32_congr (fun i hi => store32_outside _ _ (by omega))
  rw [h, writeIpHeader, load32_store32]

lemma rewrittenData_front (hi : i < 26) :
    rewrittenData net ro packet i =
      store8 (store8 (store16 (store16 (store16 (store8 (store8 (store16 packet.data 12 (ntohs PTYPE_IP)) 14 0x45)
        15 0) 20 (ntohs 0x4000)) 16 (ntohs (BitVec.ofNat 16 packet.len - 14))) 18 0) 23 ⟨packet.protocol⟩)
        22 ⟨DEFAULT_TTL⟩ i := by
  rw [rewrittenData, store32_outside _ _ (by omega), writeIpHeader, store32_outside _ _ (by omega)]

lemma rewrittenData_payload (hi : 34 ≤ i) : rewrittenData net ro packet i = packet.data i := by
  rw [rewrittenData, store32_outside _ _ (by omega), writeIpHeader]
  simp (disch := omega) only [store8_outside, store16_outside, store32_outside]

lemma rewrittenData_fields : rewrittenData net ro packet 14 = 0x45 ∧ rewrittenData net ro packet 15 = 0 ∧
    rewrittenData net ro packet 22 = ⟨DEFAULT_TTL⟩ ∧ rewrittenData net ro packet 23 = ⟨packet.protocol⟩ ∧
    load16 (rewrittenData net ro packet) 16 = ntohs (BitVec.ofNat 16 packet.len - 14) ∧
    load16 (rewrittenData net ro packet) 18 = 0 ∧ load16 (rewrittenData net ro packet) 20 = ntohs 0x4000 := by
  have hword {off : Nat} (hlt : off < 24) :=
    load16_congr (fun i (hi : i < 2) => rewrittenData_front net ro packet (show off + i < 26 by omega))
  refine ⟨?_, ?_, ?_, ?_, ?_, ?_, ?_⟩
  · rw [rewrittenData_front net ro packet (by decide)]
    simp (disch := omega) only [store8_outside, store16_outside, store8_same]
  · rw [rewrittenData_front net ro packet (by decide)]
    simp (disch := omega) only [store8_outside, store16_outside, store8_same]
  · rw [rewrittenData_front net ro packet (by decide), store8_same]
  · rw [rewrittenData_front net ro packet (by decide)]
    simp (disch := omega) only [store8_outside, store8_same]
  · rw [hword (by decide)]
    simp (disch := omega) only [load16_store8_other, load16_store16_other, load16_store16]
  · rw [hword (by decide)]
    simp (disch := omega) only [load16_store8_other, load16_store16]
  · rw [hword (by decide)]
    simp (disch := omega) only [load16_store8_other, load16_store16_other, load16_store16]

lemma sentPacket_fields : (sentPacket net ro ae packet).tos = 0 ∧ (sentPacket net ro ae packet).totLen =
    ntohs (BitVec.ofNat 16 packet.len - 14) ∧ (sentPacket net ro ae packet).ident = 0 ∧
    (sentPacket net ro ae packet).fragOff = ntohs 0x4000 ∧ (sentPacket net ro ae packet).ttl = DEFAULT_TTL ∧
    (sentPacket net ro ae packet).protocol = packet.protocol := by
  obtain ⟨-, htos, httl, hproto, hlen, hid, hfrag⟩ := rewrittenData_fields net ro packet
  have hbyte {i : Nat} (hi : 12 ≤ i) (hlt : i < 24) := sentPacket_outside net ro ae packet hi (.inl hlt)
  have hword {off : Nat} (hoff : 12 ≤ off) (hlt : off < 23) :=
    load16_congr (fun i (hi : i < 2) => hbyte (show 12 ≤ off + i by omega) (by omega))
  refine ⟨?_, ?_, ?_, ?_, ?_, ?_⟩
  · rw [VdeBuff.tos, hbyte (by decide) (by decide), htos]
    rfl
  · rw [VdeBuff.totLen, hword (by decide) (by decide), hlen]
  · rw [VdeBuff.ident, hword (by decide) (by decide), hid]
  · rw [VdeBuff.fragOff, hword (by decide) (by decide), hfrag]
  · rw [VdeBuff.ttl, hbyte (by decide) (by decide), httl]
  · rw [VdeBuff.protocol, hbyte (by decide) (by decide), hproto]

lemma sentPacket_addresses : (sentPacket net ro ae packet).saddr =
    vderGetRightLocalip net ro.iface (ro.nextHop packet.daddr) ∧ (sentPacket net ro ae packet).daddr =
    packet.daddr := by
  rw [← rewrittenData_saddr, ← rewrittenData_daddr net ro packet]
  exact ⟨load32_congr (fun i hi => sentPacket_outside net ro ae packet (by omega) (.inr (by omega))),
    load32_congr (fun i hi => sentPacket_outside net ro ae packet (by omega) (.inr (by omega)))⟩

lemma frameLen_toNat {len : Nat} (hlen : 14 ≤ len) (hmax : len < 65536) :
    (BitVec.ofNat 16 len - 14).toNat = len - 14 := by
  have hval : (BitVec.ofNat 16 len).toNat = len := by
    rw [BitVec.toNat_ofNat, Nat.mod_eq_of_lt hmax]
  rw [BitVec.toNat_sub_of_le (by rw [BitVec.le_def, hval]; exact hlen), hval]
  rfl

lemma sentPacket_sum (hlen : 14 ≤ packet.len) (hmax : packet.len < 65536) :
    byteSum (sentPacket net ro ae packet).data 14 20 =
      let S := 0x4500 + (packet.len - 14) + 0x4000 + (0x4000 + packet.protocol.toNat) +
        byteSum (rewrittenData net ro packet) 26 8
      S + (65535 - (S % 65536 + S / 65536) % 65536) := by
  obtain ⟨hversion, htos, httl, hproto, hlength, hid, hfrag⟩ := rewrittenData_fields net ro packet
  rw [byteSum_congr _ _ _ _ (fun i _ => sentPacket_data net ro ae packet (show 12 ≤ 14 + i by omega))]
  apply byteSum_setIpChecksum
  rw [byteSum_front, hversion, htos, httl, hproto, hlength, hid, hfrag, ntohs_ntohs, ntohs_ntohs,
    frameLen_toNat hlen hmax]
  simp only [UInt8.toNat_ofBitVec, DEFAULT_TTL]
  have hzero : (ntohs 0).toNat = 0 := rfl
  have hdf : (0x4000 : BitVec 16).toNat = 0x4000 := rfl
  have hfour : (0x45 : UInt8).toNat = 0x45 := rfl
  have hnil : (0 : UInt8).toNat = 0 := rfl
  have hhops : (64 : BitVec 8).toNat = 64 := rfl
  omega

end Sent

section Forwarding

variable {net : RouterNet} {ro : Route} {ae : Nat} {vb packet : VdeBuff}

structure OnItsWay (vb packet : VdeBuff) : Prop where
  len : packet.len = vb.len
  data : ∀ i < vb.len, i ≠ 22 → i ≠ 24 → i ≠ 25 → packet.data i = vb.data i

section

variable (h : OnItsWay vb packet) (hlen : 34 ≤ vb.len)

include h hlen

lemma OnItsWay.protocol : packet.protocol = vb.protocol := by
  rw [VdeBuff.protocol, h.data 23 (by omega) (by decide) (by decide) (by decide), VdeBuff.protocol]

lemma OnItsWay.daddr : packet.daddr = vb.daddr :=
  load32_congr (fun i hi => h.data (30 + i) (by omega) (by omega) (by omega) (by omega))

lemma rewrittenData_addresses (hsaddr : vb.saddr = vderGetRightLocalip net ro.iface (ro.nextHop vb.daddr)) :
    byteSum (rewrittenData net ro packet) 26 8 = byteSum vb.data 26 8 := by
  have hsource := rewrittenData_saddr net ro packet
  rw [h.daddr hlen, ← hsaddr] at hsource
  have hdest := rewrittenData_daddr net ro packet
  rw [h.daddr hlen] at hdest
  obtain ⟨h26, h27, h28, h29⟩ := load32_inj hsource
  obtain ⟨h30, h31, h32, h33⟩ := load32_inj hdest
  apply byteSum_congr
  intro i hi
  match i, hi with
  | 0, _ => exact h26
  | 1, _ => exact h27
  | 2, _ => exact h28
  | 3, _ => exact h29
  | 4, _ => exact h30
  | 5, _ => exact h31
  | 6, _ => exact h32
  | 7, _ => exact h33

lemma sentPacket_payload (hmax : vb.len ≤ 1979) :
    (sentPacket net ro ae packet).payload = vb.payload ↔ vb.len - 14 ≤ (ntohs vb.totLen).toNat ∨ vb.len = 34 := by
  have hsent : (sentPacket net ro ae packet).payload = readBytes vb.data 34 (vb.len - 34) := by
    have htot := (sentPacket_fields net ro ae packet).2.1
    have hl : (sentPacket net ro ae packet).len = vb.len := h.len
    rw [VdeBuff.payload, htot, ntohs_ntohs, h.len, frameLen_toNat (by omega) (by omega), hl, Nat.min_self]
    apply readBytes_congr
    intro i hi
    rw [sentPacket_outside _ _ _ _ (by omega) (by omega), rewrittenData_payload _ _ _ (by omega)]
    exact h.data (34 + i) (by omega) (by omega) (by omega) (by omega)
  rw [hsent, VdeBuff.payload]
  constructor
  · intro heq
    have hcount := congrArg List.length heq
    rw [readBytes_length, readBytes_length] at hcount
    omega
  intro hcond
  congr 1
  omega

lemma sentPacket_checksum (hmax : vb.len ≤ 1979)
    (hsaddr : vb.saddr = vderGetRightLocalip net ro.iface (ro.nextHop vb.daddr)) :
    ChecksumValid (sentPacket net ro ae packet) ↔ rewrittenSum vb % 65536 + rewrittenSum vb / 65536 < 65536 := by
  have hsum := sentPacket_sum net ro ae packet (by rw [h.len]; omega) (by rw [h.len]; omega)
  rw [h.len, h.protocol hlen, rewrittenData_addresses h hlen hsaddr] at hsum
  change byteSum _ 14 20 =
    rewrittenSum vb + (65535 - (rewrittenSum vb % 65536 + rewrittenSum vb / 65536) % 65536) at hsum
  have hbound : rewrittenSum vb < 2 ^ 32 := by
    have hle := byteSum_le vb.data 26 8
    have hproto := vb.protocol.isLt
    rw [rewrittenSum]
    omega
  have hpos : 0 < rewrittenSum vb := by
    rw [rewrittenSum]
    omega
  rw [ChecksumValid, hsum, folded_once_iff hbound]
  constructor
  · rintro ⟨-, hcarry⟩
    exact hcarry
  intro hcarry
  exact ⟨by omega, hcarry⟩

lemma sentRight_iff (hmax : vb.len ≤ 1979) : SentRight vb (sentPacket net ro ae packet) ↔ LooksOwn net ro vb := by
  obtain ⟨htos, -, hid, hfrag, httl, hproto⟩ := sentPacket_fields net ro ae packet
  obtain ⟨hsaddr, hdaddr⟩ := sentPacket_addresses net ro ae packet
  rw [h.daddr hlen] at hsaddr hdaddr
  rw [h.protocol hlen] at hproto
  have hpayload : (sentPacket net ro ae packet).payload = vb.payload ↔ _ := sentPacket_payload h hlen hmax
  constructor
  · intro hright
    have hsource := hright.saddr.symm.trans hsaddr
    refine ⟨?_, ?_, ?_, ?_, hsource, hpayload.mp hright.payload,
      (sentPacket_checksum h hlen hmax hsource).mp hright.checksum⟩
    · have hhops := hright.ttl
      rw [httl] at hhops
      exact BitVec.eq_of_toNat_eq hhops.symm
    · exact hright.tos.symm.trans htos
    · exact hright.ident.symm.trans hid
    · exact hright.fragOff.symm.trans hfrag
  intro hown
  refine ⟨hsaddr.trans hown.saddr.symm, hdaddr, hproto, hid.trans hown.ident.symm,
    hfrag.trans hown.fragOff.symm, htos.trans hown.tos.symm, hpayload.mpr hown.length, ?_, ?_,
    (sentPacket_checksum h hlen hmax hown.saddr).mpr hown.carry⟩
  · rw [httl, hown.ttl]
    rfl
  rw [httl]
  decide

end

lemma vderIpDecreaseTtl_overdue (packet : VdeBuff) : (vderIpDecreaseTtl packet).1 = true ↔ packet.ttl = 1 := by
  have hdata : (vderIpDecreaseTtl packet).2.ttl = packet.ttl - 1 := by
    simp only [vderIpDecreaseTtl, VdeBuff.ttl]
    rw [store16_outside _ _ (by omega), store8_same]
  have hfirst : (vderIpDecreaseTtl packet).1 = decide ((vderIpDecreaseTtl packet).2.ttl < 1) := rfl
  rw [hfirst, hdata, decide_eq_true_iff]
  generalize packet.ttl = ttl
  revert ttl
  decide

lemma onItsWay_decreaseTtl (h : OnItsWay vb packet) : OnItsWay vb (vderIpDecreaseTtl packet).2 := by
  refine ⟨h.len, ?_⟩
  intro i hi h22 h24 h25
  simp only [vderIpDecreaseTtl]
  rw [store16_outside _ _ (by omega), store8_outside _ _ (by omega)]
  exact h.data i hi h22 h24 h25

lemma vderPacketSend_noRoute (h : vderGetRoute net.router.routingTable packet.daddr = none) :
    vderPacketSend net packet packet.daddr packet.protocol = (-1, []) := by
  simp only [vderPacketSend, h]

lemma vderPacketSend_noNeighbour (h : vderGetRoute net.router.routingTable packet.daddr = some ro)
    (harp : vderGetArpEntry (net.arpTable ro.iface) (ro.nextHop packet.daddr) = none) :
    vderPacketSend net packet packet.daddr packet.protocol =
    (-1, [.arpQuery ro.iface (ro.nextHop packet.daddr)]) := by
  simp only [vderPacketSend, h, harp]

lemma vderPacketSend_sent (h : vderGetRoute net.router.routingTable packet.daddr = some ro)
    (harp : vderGetArpEntry (net.arpTable ro.iface) (ro.nextHop packet.daddr) = some ae) :
    vderPacketSend net packet packet.daddr packet.protocol =
    (0, [.enqueue ro.iface (sentPacket net ro ae packet)]) := by
  simp only [vderPacketSend, h, harp]
  rfl

lemma forwardPacket_enqueue (net : RouterNet) (packet : VdeBuff) (iface : Nat) (sent : VdeBuff) :
    .enqueue iface sent ∈ forwardPacket net packet ↔ packet.ttl ≠ 1 ∧ ∃ ro ae,
    vderGetRoute net.router.routingTable (vderIpDecreaseTtl packet).2.daddr = some ro ∧
    vderGetArpEntry (net.arpTable ro.iface) (ro.nextHop (vderIpDecreaseTtl packet).2.daddr) = some ae ∧ iface =
    ro.iface ∧ sent = sentPacket net ro ae (vderIpDecreaseTtl packet).2 := by
  simp only [forwardPacket]
  by_cases hdue : (vderIpDecreaseTtl packet).1 = true
  · rw [if_pos hdue]
    rw [vderIpDecreaseTtl_overdue] at hdue
    simp [hdue]
  rw [if_neg hdue]
  rw [vderIpDecreaseTtl_overdue] at hdue
  generalize (vderIpDecreaseTtl packet).2 = p
  cases hro : vderGetRoute net.router.routingTable p.daddr with
  | none =>
    rw [vderPacketSend_noRoute hro]
    simp
  | some ro =>
    cases hae : vderGetArpEntry (net.arpTable ro.iface) (ro.nextHop p.daddr) with
    | none =>
      rw [vderPacketSend_noNeighbour hro hae]
      constructor
      · intro hcall
        simp at hcall
      rintro ⟨-, ro', ae', hro', hae', -⟩
      obtain rfl := Option.some.inj hro'
      rw [hae] at hae'
      cases hae'
    | some ae =>
      rw [vderPacketSend_sent hro hae, if_neg (Int.lt_irrefl 0), List.mem_singleton]
      constructor
      · intro hcall
        injection hcall with hiface hsent
        exact ⟨hdue, ro, ae, rfl, hae, hiface, hsent⟩
      rintro ⟨-, ro', ae', hro', hae', rfl, rfl⟩
      obtain rfl := Option.some.inj hro'
      rw [hae] at hae'
      obtain rfl := Option.some.inj hae'
      rfl

lemma vderFilter_frame (buf : VdeBuff) (table : List Filter) : (vderFilter buf table).2.1.len = buf.len ∧
    (vderFilter buf table).2.1.data = buf.data ∧ ∀ iface sent,
    .enqueue iface sent ∉ (vderFilter buf table).2.2.2 := by
  simp only [vderFilter]
  cases (selectFilter buf table).1 with
  | none => simp
  | some rule =>
    obtain ⟨key, action, priority, statsPackets, statsBytes⟩ := rule
    cases action <;> simp

lemma onItsWay_copy (heap : Mem) (buf : VdeBuff) : OnItsWay buf (copyPacket heap buf) := by
  refine ⟨rfl, ?_⟩
  intro i hi _ _ _
  have hlt : i < (readBytes buf.data 0 buf.len).length := by rwa [readBytes_length]
  have hcopy := memcpy_inside heap 0 i (readBytes buf.data 0 buf.len) hlt
  rw [readBytes_getElem, Nat.zero_add] at hcopy
  exact hcopy

lemma copyPacket_ttl (heap : Mem) {buf : VdeBuff} (hlen : 34 ≤ buf.len) : (copyPacket heap buf).ttl = buf.ttl := by
  have hlt : 22 < (readBytes buf.data 0 buf.len).length := by
    rw [readBytes_length]
    omega
  have hcopy := memcpy_inside heap 0 22 (readBytes buf.data 0 buf.len) hlt
  rw [readBytes_getElem, Nat.zero_add] at hcopy
  simp only [VdeBuff.ttl, copyPacket]
  rw [hcopy]

lemma vderPacketRecv_ip (alloc : Bool) (heap : Mem) (vif : Nat) (hip : ntohs (load16 vb.data 12) = PTYPE_IP)
    {stopped : Bool} {buf : VdeBuff} {table : List Filter} {calls : List RouterCall}
    (hf : vderFilter { vb with src := vif } net.filteringTable = (stopped, buf, table, calls)) :
    (vderPacketRecv alloc heap vif vb net).2 =
      if loadMac vb.data 0 ≠ net.macaddr vif ∧ loadMac vb.data 0 ≠ macBroadcast then []
      else if stopped || !alloc then calls
      else calls ++ handlePacket { net with filteringTable := table } (copyPacket heap buf) := by
  have harp : ¬ntohs (load16 vb.data 12) = PTYPE_ARP := by
    rw [hip]
    decide
  simp only [vderPacketRecv, hf]
  by_cases hmac : loadMac vb.data 0 ≠ net.macaddr vif ∧ loadMac vb.data 0 ≠ macBroadcast
  · rw [if_pos hmac, if_pos hmac]
  rw [if_neg hmac, if_neg hmac, if_neg harp, if_pos hip]
  split
  · rfl
  · rfl

lemma handlePacket_transit (hlocal : vderIpaddressIsLocal net packet.daddr = false)
    (hbroadcast : vderIpaddressIsBroadcast net packet.daddr = false) :
    handlePacket net packet = forwardPacket net packet := by
  simp [handlePacket, vderIpInput, hlocal, hbroadcast]

lemma vderPacketRecv_enqueue (h : TransitPacket net vb) (alloc : Bool) (heap : Mem) (vif : Nat) : ∃ packet,
    OnItsWay vb packet ∧ ∀ iface sent, .enqueue iface sent ∈ (vderPacketRecv alloc heap vif vb net).2 ↔
    PassesOn alloc vif vb net ∧ vb.ttl ≠ 1 ∧ ∃ ro ae, vderGetRoute net.router.routingTable vb.daddr = some ro ∧
    vderGetArpEntry (net.arpTable ro.iface) (ro.nextHop vb.daddr) = some ae ∧ iface = ro.iface ∧ sent =
    sentPacket net ro ae packet := by
  obtain ⟨hbuflen, hbufdata, hquiet⟩ := vderFilter_frame { vb with src := vif } net.filteringTable
  simp only [PassesOn]
  rcases hf : vderFilter { vb with src := vif } net.filteringTable with ⟨stopped, buf, table, calls⟩
  rw [hf] at hbuflen hbufdata hquiet
  simp only at hbuflen hbufdata hquiet
  have hcopy : OnItsWay vb (copyPacket heap buf) := by
    obtain ⟨hl, hd⟩ := onItsWay_copy heap buf
    rw [hbuflen, hbufdata] at hd
    exact ⟨hl.trans hbuflen, hd⟩
  have hway := onItsWay_decreaseTtl hcopy
  have httl : (copyPacket heap buf).ttl = vb.ttl := by
    rw [copyPacket_ttl heap (by rw [hbuflen]; exact h.minLen), VdeBuff.ttl, hbufdata, VdeBuff.ttl]
  have hlocal : vderIpaddressIsLocal { net with filteringTable := table } (copyPacket heap buf).daddr = false := by
    rw [hcopy.daddr h.minLen]
    exact h.notLocal
  have hbroadcast : vderIpaddressIsBroadcast { net with filteringTable := table } (copyPacket heap buf).daddr =
      false := by
    rw [hcopy.daddr h.minLen]
    exact h.notBroadcast
  refine ⟨(vderIpDecreaseTtl (copyPacket heap buf)).2, hway, ?_⟩
  intro iface sent
  have hforward := forwardPacket_enqueue { net with filteringTable := table } (copyPacket heap buf) iface sent
  rw [httl, hway.daddr h.minLen] at hforward
  rw [vderPacketRecv_ip alloc heap vif h.isIp hf, handlePacket_transit hlocal hbroadcast]
  by_cases hmac : loadMac vb.data 0 ≠ net.macaddr vif ∧ loadMac vb.data 0 ≠ macBroadcast
  · rw [if_pos hmac]
    constructor
    · intro hmem
      exact absurd hmem List.not_mem_nil
    rintro ⟨⟨hto, -⟩, -⟩
    tauto
  rw [if_neg hmac]
  by_cases hstop : (stopped || !alloc) = true
  · rw [if_pos hstop]
    constructor
    · intro hmem
      exact absurd hmem (hquiet iface sent)
    rintro ⟨⟨-, rfl, rfl⟩, -⟩
    simp at hstop
  rw [if_neg hstop, List.mem_append, hforward]
  have hgo : stopped = false ∧ alloc = true := by simpa using hstop
  constructor
  · rintro (hmem | ⟨hone, hsent⟩)
    · exact absurd hmem (hquiet iface sent)
    · exact ⟨⟨by tauto, hgo⟩, hone, hsent⟩
  rintro ⟨-, hone, hsent⟩
  exact .inr ⟨hone, hsent⟩

lemma forwardOk_of_right (h : TransitPacket net vb) {alloc : Bool} {heap : Mem} {vif : Nat}
    (hright : ForwardsRight vb (vderPacketRecv alloc heap vif vb net).2) : ForwardOk alloc vif vb net := by
  obtain ⟨packet, hway, hsent⟩ := vderPacketRecv_enqueue h alloc heap vif
  intro hpass hone ro ae hro hae
  have hmem := (hsent ro.iface (sentPacket net ro ae packet)).mpr ⟨hpass, hone, ro, ae, hro, hae, rfl, rfl⟩
  exact (sentRight_iff hway h.minLen h.maxLen).mp (hright.1 _ _ hmem)

/-- For every packet in transit, what `vder_packet_recv` hands to `vder_sendto` is the packet received
with its time to live lowered, and nothing if that is used up, if and only if the packet is not handed
over at all or looks like one of the router's own. -/
theorem forwards_right_iff (alloc : Bool) (heap : Mem) (vif : Nat) (vb : VdeBuff) (net : RouterNet)
    (h : TransitPacket net vb) :
    ForwardsRight vb (vderPacketRecv alloc heap vif vb net).2 ↔ ForwardOk alloc vif vb net := by
  constructor
  · exact forwardOk_of_right h
  intro hok
  obtain ⟨packet, hway, hsent⟩ := vderPacketRecv_enqueue h alloc heap vif
  have hall : ∀ iface sent, .enqueue iface sent ∈ (vderPacketRecv alloc heap vif vb net).2 →
      SentRight vb sent := by
    intro iface sent hmem
    obtain ⟨hpass, hone, ro, ae, hro, hae, -, rfl⟩ := (hsent iface sent).mp hmem
    exact (sentRight_iff hway h.minLen h.maxLen).mpr (hok hpass hone ro ae hro hae)
  refine ⟨hall, ?_⟩
  intro hused iface sent hmem
  have hright := hall iface sent hmem
  have httl := hright.ttl
  have halive := hright.alive
  omega

end Forwarding

lemma neighbour_mac : #[(2 : UInt8), 0, 0, 0, 0, 2].size = 6 := rfl

def twoNetworks : RouterNet :=
  { router :=
      { routingTable :=
          [{ destAddr := 0x0001000a, netmask := 0x00ffffff, gateway := 0, metric := 1, iface := 1 },
            { destAddr := 0x0000000a, netmask := 0x00ffffff, gateway := 0, metric := 1, iface := 0 }]
        addressList := fun i => if i = 1 then [⟨0x0101000a, 0x00ffffff⟩] else [⟨0x0100000a, 0x00ffffff⟩] }
    iflist := [0, 1]
    macaddr := fun i => #v[0, 2, 5, 0, 1, UInt8.ofNat i]
    arpTable := fun _ =>
      vderAddArpEntry (arpTableStart.alloc { macaddr := ⟨#[2, 0, 0, 0, 0, 2], neighbour_mac⟩, ipaddr := 0x0201000a }) 0
    filteringTable := []
    udpPorts := [] }

def headerFrame (header : List UInt8) : VdeBuff :=
  { len := 34, src := 0, priority := 0
    data := fun i => ([0, 2, 5, 0, 1, 0, 2, 0, 0, 0, 0, 1, 8, 0] ++ header).getD i 0 }

def ownLikeFrame : VdeBuff :=
  headerFrame [0x45, 0, 0, 20, 0, 0, 0x40, 0, 65, 17, 0x23, 0xd7, 10, 0, 1, 1, 10, 0, 1, 2]

def hostFrame : VdeBuff :=
  headerFrame [0x45, 0, 0, 20, 0x12, 0x34, 0, 0, 64, 17, 0x53, 0xa2, 10, 0, 0, 2, 10, 0, 1, 2]

theorem forwards_right_iff_own : ForwardsRight ownLikeFrame
    (vderPacketRecv true (fun _ => 0) 0 ownLikeFrame twoNetworks).2 := by
  have htransit : TransitPacket twoNetworks ownLikeFrame :=
    ⟨by decide, by decide, by decide, by decide, ⟨by decide, by decide⟩, by decide, by decide⟩
  apply (forwards_right_iff true (fun _ => 0) 0 ownLikeFrame twoNetworks htransit).mpr
  intro _ _ ro ae hro _
  have hroute : vderGetRoute twoNetworks.router.routingTable ownLikeFrame.daddr =
      some { destAddr := 0x0001000a, netmask := 0x00ffffff, gateway := 0, metric := 1, iface := 1 } := by
    decide
  obtain rfl := Option.some.inj (hroute.symm.trans hro)
  exact ⟨by decide, by decide, by decide, by decide, by decide, .inr rfl, by decide⟩

/-- The packet of a host is sent on with another source address. -/
theorem host_frame_rewritten : TransitPacket twoNetworks hostFrame ∧
    ¬ForwardsRight hostFrame (vderPacketRecv true (fun _ => 0) 0 hostFrame twoNetworks).2 := by
  have htransit : TransitPacket twoNetworks hostFrame :=
    ⟨by decide, by decide, by decide, by decide, ⟨by decide, by decide⟩, by decide, by decide⟩
  refine ⟨htransit, ?_⟩
  intro hright
  have hpass : PassesOn true 0 hostFrame twoNetworks := ⟨.inl (by decide), rfl, rfl⟩
  have hown := forwardOk_of_right htransit hright hpass (by decide)
    { destAddr := 0x0001000a, netmask := 0x00ffffff, gateway := 0, metric := 1, iface := 1 } 0
    (by decide) (by decide)
  exact absurd hown.ttl (by decide)

end Vde
