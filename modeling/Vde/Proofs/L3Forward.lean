import Vde.L3

/-!
# Forwarding in vde_l3

`ip_forward` decrements the TTL and increments the checksum as a number in host order, which on a
little endian machine adds 256 to it in network order, the carry going round. That keeps the
header valid unless the checksum is 0xFFFF, where it becomes zero, or the TTL is zero, where it
becomes 255.
-/

namespace Vde.L3

open List Option

def Buff.headerLen (vdb : Buff) : Nat := 4 * (vdb.data 14 &&& 0x0F).toNat

/-- An IPv4 header whose words, the checksum among them, add up to 0xFFFF with all carries folded. -/
structure ValidHeader (vdb : Buff) : Prop where
  ihl : 20 ≤ vdb.headerLen
  positive : 0 < byteSum vdb.data 14 vdb.headerLen
  folded : byteSum vdb.data 14 vdb.headerLen % 65535 = 0

/-- The packet `p` is `vdb` as a router should pass it on. -/
structure ForwardedRight (vdb p : Buff) : Prop where
  ttl : p.ttl.toNat + 1 = vdb.ttl.toNat
  alive : 1 ≤ p.ttl.toNat
  valid : ValidHeader p
  len : p.len = vdb.len
  same : ∀ i, 12 ≤ i → i ≠ 22 → i ≠ 24 → i ≠ 25 → p.data i = vdb.data i

def ForwardRight (r : Router) (vdb : Buff) : Prop :=
  ∀ ret r', parseIp r vdb = .done ret r' →
    r'.queued = r.queued ∨ ∃ i p, r'.queued = (i, p) :: r.queued ∧ ForwardedRight vdb p

/-- The interface through which `ip_send` sends, its place, and the address it sends to. A destination on no
network has one only if the table of routes ends. -/
def hopOf (r : Router) (dst : BitVec 32) : Option (Nat × Iface × BitVec 32) :=
  match isNeightbor r dst with
  | some (i, vif) => some (i, vif, dst)
  | none =>
    if r.routeWild ∨ getGateway r dst = 0 then none
    else (isNeightbor r (getGateway r dst)).map (fun oif => (oif.1, oif.2, getGateway r dst))

/-- The router has a way for the packet: the address of the next hop is known, with the sender of the
packet, and the policy of the interface takes a packet of this length. -/
def Queueable (r : Router) (vdb : Buff) : Prop :=
  ∃ r' i vif hop ae vif', learnArp r vdb = some r' ∧ hopOf r (ntohl vdb.daddr) = some (i, vif, hop) ∧
    getArpEntry r' (ntohl hop) = some ae ∧ enqueue vdb vif = some (true, vif')

/-! ## The header -/

section Header

variable (mem : Mem)

lemma byteSum_header {n : Nat} (h : 20 ≤ n) :
    byteSum mem 14 n =
      byteSum mem 14 8 + ((mem 22).toNat * 256 + (mem 23).toNat + ((mem 24).toNat * 256 + (mem 25).toNat)) +
        byteSum mem 26 (n - 12) := by
  have hsplit : n = 8 + 4 + (n - 12) := by omega
  have hword : byteSum mem 22 4 =
      (mem 22).toNat * 256 + (mem 23).toNat + ((mem 24).toNat * 256 + (mem 25).toNat) := by
    simp only [byteSum, Nat.reduceMod, Nat.reduceEqDiff, if_true, if_false, Nat.reduceAdd]
    omega
  rw [hsplit, byteSum_append mem 14 (n - 12) (by decide), byteSum_append mem 14 4 (by decide), hword]
  simp only [Nat.reduceAdd, Nat.add_sub_cancel_left]

lemma load16_toNat (off : Nat) : (load16 mem off).toNat = (mem (off + 1)).toNat * 256 + (mem off).toNat := by
  rw [load16, BitVec.toNat_append, ← Nat.shiftLeft_add_eq_or_of_lt (mem off).toBitVec.isLt, Nat.shiftLeft_eq]
  rfl

lemma store16_bytes (off : Nat) (x : BitVec 16) :
    (store16 mem off x off).toNat = x.toNat % 256 ∧ (store16 mem off x (off + 1)).toNat = x.toNat / 256 := by
  have hload := load16_toNat (store16 mem off x) off
  rw [load16_store16] at hload
  have hlow := (store16 mem off x off).toNat_lt
  omega

end Header

lemma decrementTtl_ttl (vdb : Buff) : (decrementTtl vdb).ttl = vdb.ttl - 1 := by
  simp only [Buff.ttl, decrementTtl]
  rw [store16_outside _ _ (by omega), store8_same]

lemma decrementTtl_alive {vdb : Buff} (hone : vdb.ttl ≠ 1) : ¬(decrementTtl vdb).ttl < 1 := by
  rw [decrementTtl_ttl]
  intro hlt
  have hzero : vdb.ttl - 1 = 0 := by
    have hlt' := UInt8.lt_iff_toNat_lt.mp hlt
    exact UInt8.toNat_inj.mp (Nat.lt_one_iff.mp hlt')
  apply hone
  rw [← UInt8.sub_add_cancel vdb.ttl 1, hzero]
  rfl

lemma decrementTtl_outside (vdb : Buff) {i : Nat} (h22 : i ≠ 22) (h24 : i ≠ 24) (h25 : i ≠ 25) :
    (decrementTtl vdb).data i = vdb.data i := by
  simp only [decrementTtl]
  rw [store16_outside _ _ (by omega), store8_outside _ _ (by omega)]

lemma decrementTtl_daddr (vdb : Buff) : (decrementTtl vdb).daddr = vdb.daddr :=
  load32_congr (fun _ _ => decrementTtl_outside vdb (by omega) (by omega) (by omega))

lemma decrementTtl_check (vdb : Buff) :
    ((decrementTtl vdb).data 25).toNat * 256 + ((decrementTtl vdb).data 24).toNat =
    ((vdb.data 25).toNat * 256 + (vdb.data 24).toNat + 1) % 65536 := by
  have hold := load16_toNat vdb.data 24
  have hbytes := store16_bytes (store8 vdb.data 22 (vdb.ttl - 1)) 24 (load16 (store8 vdb.data 22 (vdb.ttl - 1)) 24 + 1)
  have hkept : load16 (store8 vdb.data 22 (vdb.ttl - 1)) 24 = load16 vdb.data 24 :=
    load16_store8_other vdb.data _ (by omega)
  rw [hkept, BitVec.toNat_add] at hbytes
  simp only [decrementTtl, hkept]
  simp only [Nat.reduceAdd] at hold hbytes
  have hone : (1 : BitVec 16).toNat = 1 := rfl
  omega

lemma decrementTtl_sum (vdb : Buff) {n : Nat} (h : 20 ≤ n) :
    byteSum (decrementTtl vdb).data 14 n =
      byteSum vdb.data 14 8 + ((vdb.ttl - 1).toNat * 256 + (vdb.data 23).toNat +
        (((decrementTtl vdb).data 24).toNat * 256 + ((decrementTtl vdb).data 25).toNat)) +
        byteSum vdb.data 26 (n - 12) := by
  have hfront : byteSum (decrementTtl vdb).data 14 8 = byteSum vdb.data 14 8 :=
    byteSum_congr _ _ _ _ (fun i hi => decrementTtl_outside vdb (by omega) (by omega) (by omega))
  have hback : byteSum (decrementTtl vdb).data 26 (n - 12) = byteSum vdb.data 26 (n - 12) :=
    byteSum_congr _ _ _ _ (fun i hi => decrementTtl_outside vdb (by omega) (by omega) (by omega))
  have hproto : (decrementTtl vdb).data 23 = vdb.data 23 :=
    decrementTtl_outside vdb (by decide) (by decide) (by decide)
  have httl : (decrementTtl vdb).data 22 = vdb.ttl - 1 := decrementTtl_ttl vdb
  rw [byteSum_header _ h, hfront, hback, hproto, httl]

lemma headerLen_congr {vdb p : Buff} (h : p.data 14 = vdb.data 14) : p.headerLen = vdb.headerLen := by
  unfold Buff.headerLen
  rw [h]

lemma lowered_ttl {ttl : UInt8} (hzero : ttl ≠ 0) (hone : ttl ≠ 1) :
    1 ≤ (ttl - 1).toNat ∧ (ttl - 1).toNat + 1 = ttl.toNat := by
  have h0 : ttl.toNat ≠ 0 := fun h0 => hzero (UInt8.toNat_inj.mp h0)
  have h1 : ttl.toNat ≠ 1 := fun h1 => hone (UInt8.toNat_inj.mp h1)
  have hpos : 1 ≤ ttl.toNat := by omega
  have hdec : (ttl - 1).toNat = ttl.toNat - 1 := UInt8.toNat_sub_of_le _ _ (UInt8.le_iff_toNat_le.mpr hpos)
  omega

lemma carry_cases {l h l' h' : Nat} (hl : l < 256) (hl' : l' < 256) (hsum : h' * 256 + l' = h * 256 + l + 1) :
    (l' = l + 1 ∧ h' = h) ∨ (l = 255 ∧ l' = 0 ∧ h' = h + 1) := by omega

lemma decrementTtl_word (vdb : Buff) {old new : Nat} (hold : (vdb.data 24).toNat * 256 + (vdb.data 25).toNat = old)
    (hnew : ((decrementTtl vdb).data 24).toNat * 256 + ((decrementTtl vdb).data 25).toNat = new) :
    (vdb.check ≠ 0xFFFF → new = old + 256 ∨ new + 65535 = old + 256) ∧ (vdb.check = 0xFFFF → new + 65535 = old) := by
  have hcheck := decrementTtl_check vdb
  have hfield : vdb.check.toNat = (vdb.data 25).toNat * 256 + (vdb.data 24).toNat := load16_toNat vdb.data 24
  have hfull : vdb.check = 0xFFFF ↔ vdb.check.toNat = 65535 := BitVec.toNat_eq
  have hbound := vdb.check.isLt
  have hl := (vdb.data 24).toNat_lt
  have hl' := ((decrementTtl vdb).data 24).toNat_lt
  have hh := (vdb.data 25).toNat_lt
  rw [← hfield] at hcheck
  constructor
  · intro hne
    have hlt : vdb.check.toNat ≠ 65535 := fun heq => hne (hfull.mpr heq)
    rw [Nat.mod_eq_of_lt (by omega), hfield] at hcheck
    rcases carry_cases hl hl' hcheck with ⟨hlow, hhigh⟩ | ⟨hlow, hlow', hhigh⟩
    · left
      omega
    right
    omega
  intro heq
  rw [hfull.mp heq] at hcheck
  rw [hfull.mp heq] at hfield
  omega

lemma valid_decrementTtl_iff {vdb : Buff} (h : ValidHeader vdb) (httl : vdb.ttl ≠ 0) (hone : vdb.ttl ≠ 1) :
    ValidHeader (decrementTtl vdb) ↔ vdb.check ≠ 0xFFFF := by
  have hlen : (decrementTtl vdb).headerLen = vdb.headerLen :=
    headerLen_congr (decrementTtl_outside vdb (by decide) (by decide) (by decide))
  have hsum := decrementTtl_sum vdb h.ihl
  have hold := byteSum_header vdb.data h.ihl
  obtain ⟨hkept, hlost⟩ := decrementTtl_word vdb rfl rfl
  obtain ⟨hpos, hdec⟩ := lowered_ttl httl hone
  have hbyte : (vdb.data 22).toNat = vdb.ttl.toNat := rfl
  have hvalid := h.folded
  rw [hbyte, ← hdec] at hold
  constructor
  · intro hnew hfull
    have hfold := hnew.folded
    have hword := hlost hfull
    rw [hlen] at hfold
    omega
  intro hne
  have hword := hkept hne
  constructor
  · rw [hlen]
    exact h.ihl
  · rw [hlen]
    omega
  rw [hlen]
  rcases hword with hup | hcarry
  · have hsame : byteSum (decrementTtl vdb).data 14 vdb.headerLen = byteSum vdb.data 14 vdb.headerLen := by omega
    rw [hsame, hvalid]
  have hless : byteSum (decrementTtl vdb).data 14 vdb.headerLen + 65535 = byteSum vdb.data 14 vdb.headerLen := by
    omega
  rw [← hless, Nat.add_mod_right] at hvalid
  exact hvalid

/-! ## What ip_send queues -/

/-- The packet with the Ethernet addresses that `hopSend` stores. -/
def addressed (vdb : Buff) (src dst : Mac) : Buff :=
  { vdb with data := memcpy (memcpy vdb.data 6 src.toList) 0 dst.toList }

lemma addressed_outside (vdb : Buff) (src dst : Mac) {i : Nat} (h : 12 ≤ i) :
    (addressed vdb src dst).data i = vdb.data i := by
  have hdst : dst.toList.length = 6 := Vector.length_toList
  have hsrc : src.toList.length = 6 := Vector.length_toList
  simp only [addressed]
  rw [memcpy_outside _ _ _ _ (by omega), memcpy_outside _ _ _ _ (by omega)]

lemma enqueue_taken_congr {vdb vdb' : Buff} (h : vdb'.len = vdb.len) (vif : Iface) :
    (enqueue vdb' vif).map Prod.fst = (enqueue vdb vif).map Prod.fst := by
  unfold enqueue
  cases vif.policy with
  | ufifo => rfl
  | pfifo =>
    simp only [pfifoEnqueue]
    split <;> rfl
  | bfifo =>
    simp only [bfifoEnqueue, h]
    split <;> rfl
  | tbf =>
    simp only [tbfEnqueue, tbfGrow, h]
    split
    · split
      · split <;> rfl
      · rfl
    · rfl

lemma enqueue_taken {vdb vdb' : Buff} {vif vif' : Iface} (henq : enqueue vdb vif = some (true, vif'))
    (h : vdb'.len = vdb.len) : ∃ vif'', enqueue vdb' vif = some (true, vif'') := by
  have htaken := enqueue_taken_congr h vif
  rw [henq] at htaken
  obtain ⟨⟨taken, vif''⟩, henq', htrue⟩ := map_eq_some_iff.mp htaken
  cases htrue
  exact ⟨vif'', henq'⟩

lemma ipSend_hop (r : Router) (vdb : Buff) {i : Nat} {vif : Iface} {hop : BitVec 32}
    (h : hopOf r (ntohl vdb.daddr) = some (i, vif, hop)) : ipSend r vdb = hopSend r i vif hop vdb := by
  unfold hopOf at h
  unfold ipSend
  cases hn : isNeightbor r (ntohl vdb.daddr) with
  | some oif =>
    rw [hn] at h
    cases h
    rfl
  | none =>
    rw [hn] at h
    by_cases hg : r.routeWild = true ∨ getGateway r (ntohl vdb.daddr) = 0
    · simp only [if_pos hg] at h
      cases h
    simp only [if_neg hg] at h
    rw [not_or] at hg
    obtain ⟨oif, hoif, heq⟩ := map_eq_some_iff.mp h
    simp only [ne_eq, hg.1, hg.2, not_false_eq_true, if_true, gatewaySend, hoif]
    cases heq
    rfl

lemma ipSend_no_hop {r r' : Router} {vdb : Buff} {ret : Int} (h : hopOf r (ntohl vdb.daddr) = none)
    (hsend : ipSend r vdb = .done ret r') : r' = r := by
  unfold hopOf at h
  unfold ipSend at hsend
  cases hn : isNeightbor r (ntohl vdb.daddr) with
  | some oif =>
    rw [hn] at h
    cases h
  | none =>
    rw [hn] at h hsend
    by_cases hwild : r.routeWild = true
    · simp only [if_pos hwild] at hsend
      cases hsend
    by_cases hg : getGateway r (ntohl vdb.daddr) = 0
    · simp only [ne_eq, hwild, hg, not_true_eq_false, if_false] at hsend
      cases hsend
      rfl
    simp only [if_neg (not_or.mpr ⟨hwild, hg⟩)] at h
    have hnone : isNeightbor r (getGateway r (ntohl vdb.daddr)) = none := map_eq_none_iff.mp h
    simp only [ne_eq, hwild, hg, not_false_eq_true, if_true, gatewaySend, hnone] at hsend
    cases hsend

/-- What is left alone when the table of addresses grows. -/
structure SameWays (r r' : Router) : Prop where
  ifaces : r'.interfaces = r.interfaces
  routes : r'.routeTable = r.routeTable
  routeWild : r'.routeWild = r.routeWild
  gateway : r'.defaultGw = r.defaultGw
  queued : r'.queued = r.queued

lemma addArpEntry_ways {r r' : Router} {ae : ArpEntry} (h : addArpEntry r ae = some r') : SameWays r r' := by
  unfold addArpEntry at h
  split at h
  · cases h
  cases h
  exact ⟨rfl, rfl, rfl, rfl, rfl⟩

lemma learnArp_ways {r r' : Router} {vdb : Buff} (h : learnArp r vdb = some r') : SameWays r r' := by
  unfold learnArp at h
  split at h
  · cases h
    exact ⟨rfl, rfl, rfl, rfl, rfl⟩
  · exact addArpEntry_ways h

lemma SameWays.iface {r r' : Router} (h : SameWays r r') (addr : BitVec 32) :
    getIfaceByIpaddr r' addr = getIfaceByIpaddr r addr := by
  rw [getIfaceByIpaddr, h.ifaces, getIfaceByIpaddr]

lemma SameWays.hop {r r' : Router} (h : SameWays r r') (dst : BitVec 32) : hopOf r' dst = hopOf r dst := by
  have hnext (addr : BitVec 32) : isNeightbor r' addr = isNeightbor r addr := by rw [isNeightbor, h.ifaces, isNeightbor]
  have hgateway : getGateway r' dst = getGateway r dst := by rw [getGateway, h.routes, h.gateway, getGateway]
  rw [hopOf, hopOf, hnext, hgateway, hnext, h.routeWild]

inductive HopCase (r : Router) (i : Nat) (vif : Iface) (hop : BitVec 32) (vdb : Buff) : Result → Prop
  | wild (hae : getArpEntry r (ntohl hop) = none) (hwild : r.arpWild = true) : HopCase r i vif hop vdb .wild
  | query (hae : getArpEntry r (ntohl hop) = none) (hends : r.arpWild = false) :
      HopCase r i vif hop vdb (.done 0 { r with sent := (i, arpRequest vif hop) :: r.sent })
  | queued (ae : ArpEntry) (vif' : Iface) (hae : getArpEntry r (ntohl hop) = some ae)
      (henq : enqueue (addressed vdb vif.mac ae.mac) vif = some (true, vif')) :
      HopCase r i vif hop vdb (.done 1 { r with
        interfaces := r.interfaces.set i vif', queued := (i, addressed vdb vif.mac ae.mac) :: r.queued })
  | dropped (ae : ArpEntry) (vif' : Iface) (hae : getArpEntry r (ntohl hop) = some ae)
      (henq : enqueue (addressed vdb vif.mac ae.mac) vif = some (false, vif')) :
      HopCase r i vif hop vdb (.done 0 { r with interfaces := r.interfaces.set i vif' })
  | divZero (ae : ArpEntry) (hae : getArpEntry r (ntohl hop) = some ae)
      (henq : enqueue (addressed vdb vif.mac ae.mac) vif = none) : HopCase r i vif hop vdb .divZero

lemma hopSend_case (r : Router) (i : Nat) (vif : Iface) (hop : BitVec 32) (vdb : Buff) :
    HopCase r i vif hop vdb (hopSend r i vif hop vdb) := by
  unfold hopSend
  cases hae : getArpEntry r (ntohl hop) with
  | none =>
    by_cases hwild : r.arpWild = true
    · simp only [if_pos hwild]
      exact .wild hae hwild
    simp only [if_neg hwild]
    exact .query hae (Bool.eq_false_iff.mpr hwild)
  | some ae =>
    have hsame : ({ vdb with data := memcpy (memcpy vdb.data 6 vif.mac.toList) 0 ae.mac.toList } : Buff) =
        addressed vdb vif.mac ae.mac := rfl
    simp only [hsame]
    cases henq : enqueue (addressed vdb vif.mac ae.mac) vif with
    | none => exact .divZero ae hae henq
    | some res =>
      obtain ⟨taken, vif'⟩ := res
      cases taken with
      | false => exact .dropped ae vif' hae henq
      | true => exact .queued ae vif' hae henq

lemma hopSend_done {r r' : Router} {i : Nat} {vif : Iface} {hop : BitVec 32} {vdb : Buff} {ret : Int}
    (h : hopSend r i vif hop vdb = .done ret r') : r'.queued = r.queued ∨ ∃ ae vif', getArpEntry r (ntohl hop) =
    some ae ∧ enqueue (addressed vdb vif.mac ae.mac) vif = some (true, vif') ∧ r'.queued =
    (i, addressed vdb vif.mac ae.mac) :: r.queued := by
  have hcase := hopSend_case r i vif hop vdb
  rw [h] at hcase
  cases hcase with
  | query => exact Or.inl rfl
  | queued ae vif' hae henq => exact Or.inr ⟨ae, vif', hae, henq, rfl⟩
  | dropped ae vif' hae henq => exact Or.inl rfl

lemma hopSend_taken {r : Router} {i : Nat} {vif vif' : Iface} {hop : BitVec 32} {vdb : Buff} {ae : ArpEntry}
    (hae : getArpEntry r (ntohl hop) = some ae)
    (henq : enqueue (addressed vdb vif.mac ae.mac) vif = some (true, vif')) :
    ∃ r', hopSend r i vif hop vdb = .done 1 r' ∧ r'.queued = (i, addressed vdb vif.mac ae.mac) :: r.queued := by
  have hcase := hopSend_case r i vif hop vdb
  generalize hopSend r i vif hop vdb = result at hcase
  cases hcase with
  | wild hnone => exact absurd (hae.symm.trans hnone) (some_ne_none ae)
  | query hnone => exact absurd (hae.symm.trans hnone) (some_ne_none ae)
  | queued ae' vif'' hae' henq' =>
    obtain rfl := some.inj (hae.symm.trans hae')
    exact ⟨_, rfl, rfl⟩
  | dropped ae' vif'' hae' henq' =>
    obtain rfl := some.inj (hae.symm.trans hae')
    exact absurd (henq.symm.trans henq') (by simp)
  | divZero ae' hae' henq' =>
    obtain rfl := some.inj (hae.symm.trans hae')
    exact absurd (henq.symm.trans henq') (some_ne_none _)

lemma parseIp_forward {r rl : Router} {vdb : Buff} (hlearn : learnArp r vdb = some rl)
    (hother : getIfaceByIpaddr r (ntohl vdb.daddr) = none) : parseIp r vdb = ipForward rl vdb := by
  simp only [parseIp, hlearn, (learnArp_ways hlearn).iface, hother]

/-! ## The result -/

lemma addressed_valid_iff (vdb : Buff) (src dst : Mac) : ValidHeader (addressed vdb src dst) ↔ ValidHeader vdb := by
  have hlen : (addressed vdb src dst).headerLen = vdb.headerLen :=
    headerLen_congr (addressed_outside vdb src dst (by decide))
  have hsum : byteSum (addressed vdb src dst).data 14 vdb.headerLen = byteSum vdb.data 14 vdb.headerLen :=
    byteSum_congr _ _ _ _ (fun i _ => addressed_outside vdb src dst (by omega))
  constructor
  · intro h
    exact ⟨hlen ▸ h.ihl, hsum ▸ hlen ▸ h.positive, hsum ▸ hlen ▸ h.folded⟩
  intro h
  exact ⟨hlen.symm ▸ h.ihl, hlen.symm ▸ hsum.symm ▸ h.positive, hlen.symm ▸ hsum.symm ▸ h.folded⟩

lemma forwardedRight_iff {vdb : Buff} (h : ValidHeader vdb) (hone : vdb.ttl ≠ 1) (src dst : Mac) :
    ForwardedRight vdb (addressed (decrementTtl vdb) src dst) ↔ vdb.ttl ≠ 0 ∧ vdb.check ≠ 0xFFFF := by
  have httl : (addressed (decrementTtl vdb) src dst).ttl = vdb.ttl - 1 := by
    rw [← decrementTtl_ttl vdb]
    exact addressed_outside (decrementTtl vdb) src dst (by decide)
  constructor
  · intro hr
    have hpos : vdb.ttl ≠ 0 := by
      intro h0
      have hstep := hr.ttl
      rw [h0] at hstep
      cases hstep
    exact ⟨hpos, (valid_decrementTtl_iff h hpos hone).mp ((addressed_valid_iff _ src dst).mp hr.valid)⟩
  rintro ⟨hpos, hcheck⟩
  obtain ⟨halive, hdec⟩ := lowered_ttl hpos hone
  constructor
  · rw [httl]
    exact hdec
  · rw [httl]
    exact halive
  · exact (addressed_valid_iff _ src dst).mpr ((valid_decrementTtl_iff h hpos hone).mpr hcheck)
  · rfl
  · intro i hi h22 h24 h25
    rw [addressed_outside _ src dst hi]
    exact decrementTtl_outside vdb h22 h24 h25

def plainIface (id : BitVec 8) (mac : Mac) (ipaddr nm : BitVec 32) : Iface :=
  { id := id, mac := mac, ipaddr := ipaddr, nm := nm, qOut := [], policyName := .ufifo, policy := .ufifo
    tcPriv := fun _ => 0 }

def twoNets : Router :=
  { interfaces := [plainIface 0 #v[0, 0xAA, 10, 0, 0, 1] 0x0A000001 0xFFFFFF00,
      plainIface 1 #v[0, 0xAA, 10, 0, 1, 1] 0x0A000101 0xFFFFFF00]
    routeTable := [], routeWild := false, arpTable := [⟨#v[2, 0, 0, 0, 0, 2], ntohl 0x0A000102⟩], arpWild := false
    garbage := fun _ => false, modlist := [.ufifo], modloop := false, defaultGw := 0, queued := [], sent := [] }

def spentPacket : Buff :=
  { data := memcpy (fun _ => 0) 0
      [0, 0xAA, 10, 0, 0, 1, 2, 0, 0, 0, 0, 1, 8, 0, 0x45, 0, 0, 20, 0, 0, 0, 0, 0, 1, 165, 230,
        10, 0, 0, 2, 10, 0, 1, 2]
    len := 34
    room := by decide }

def pingPacket : Buff :=
  { data := memcpy (fun _ => 0) 0
      [0, 0xAA, 10, 0, 0, 1, 2, 0, 0, 0, 0, 1, 8, 0, 0x45, 0, 0, 20, 0, 0, 0, 0, 64, 1, 101, 230,
        10, 0, 0, 2, 10, 0, 1, 2]
    len := 34
    room := by decide }

lemma pingPacket_valid : ValidHeader pingPacket :=
  ⟨by decide +kernel, by decide +kernel, by decide +kernel⟩

lemma pingPacket_other : getIfaceByIpaddr twoNets (ntohl pingPacket.daddr) = none := by
  apply isNone_iff_eq_none.mp
  decide +kernel

def Result.queuedTtls : Result → List (Nat × UInt8)
  | .done _ r => r.queued.map (fun x => (x.1, x.2.ttl))
  | _ => []

/-- A packet has been passed on `n` times, by any routers in any state, none with the address of its destination. -/
inductive Journey (vdb : Buff) : Nat → Buff → Prop
  | start : Journey vdb 0 vdb
  | hop {n : Nat} {p p' : Buff} {r r' : Router} {ret : Int} {i : Nat} (h : Journey vdb n p)
      (hother : getIfaceByIpaddr r (ntohl p.daddr) = none) (hdone : parseIp r p = .done ret r')
      (hqueued : r'.queued = (i, p') :: r.queued) : Journey vdb (n + 1) p'

lemma parseIp_queued {r r' : Router} {p p' : Buff} {ret : Int} {i : Nat}
    (hother : getIfaceByIpaddr r (ntohl p.daddr) = none) (hdone : parseIp r p = .done ret r')
    (hqueued : r'.queued = (i, p') :: r.queued) :
    p.ttl ≠ 1 ∧ ∃ src dst, p' = addressed (decrementTtl p) src dst := by
  cases hlearn : learnArp r p with
  | none =>
    rw [parseIp, hlearn] at hdone
    cases hdone
  | some rl =>
  have hold := (learnArp_ways hlearn).queued
  rw [parseIp_forward hlearn hother, ipForward] at hdone
  rw [← hold] at hqueued
  split at hdone
  · cases hdone
    exact absurd hqueued.symm (cons_ne_self _ _)
  next halive =>
  refine ⟨fun hone => halive ?_, ?_⟩
  · rw [decrementTtl_ttl, hone]
    decide
  cases hhop : hopOf rl (ntohl (decrementTtl p).daddr) with
  | none =>
    rw [ipSend_no_hop hhop hdone] at hqueued
    exact absurd hqueued.symm (cons_ne_self _ _)
  | some way =>
    rw [ipSend_hop _ _ hhop] at hdone
    rcases hopSend_done hdone with hsame | ⟨ae, vif', -, -, hnew⟩
    · exact absurd (hqueued.symm.trans hsame) (cons_ne_self _ _)
    rw [hnew, cons.injEq, Prod.mk.injEq] at hqueued
    exact ⟨_, _, hqueued.1.2.symm⟩

lemma sum_decrementTtl {p : Buff} (hihl : 20 ≤ p.headerLen) (httl : p.ttl ≠ 0) (hone : p.ttl ≠ 1) :
    byteSum (decrementTtl p).data 14 p.headerLen % 65535 =
    (byteSum p.data 14 p.headerLen + if p.check = 0xFFFF then 65279 else 0) % 65535 := by
  have hsum := decrementTtl_sum p hihl
  have hold := byteSum_header p.data hihl
  obtain ⟨hkept, hlost⟩ := decrementTtl_word p rfl rfl
  obtain ⟨-, hdec⟩ := lowered_ttl httl hone
  have hbyte : (p.data 22).toNat = p.ttl.toNat := rfl
  rw [hbyte, ← hdec] at hold
  split
  · next hfull =>
    have hword := hlost hfull
    omega
  next hne =>
  rcases hkept hne with hup | hcarry
  · omega
  · omega

structure Travelled (vdb : Buff) (n : Nat) (p : Buff) : Prop where
  ttl : p.ttl.toNat + n = vdb.ttl.toNat
  alive : 1 ≤ p.ttl.toNat
  len : p.len = vdb.len
  same : ∀ i, 12 ≤ i → i ≠ 22 → i ≠ 24 → i ≠ 25 → p.data i = vdb.data i
  check : p.check.toNat = (vdb.check.toNat + n) % 65536
  sum : 20 ≤ vdb.headerLen → byteSum p.data 14 vdb.headerLen % 65535 =
    (byteSum vdb.data 14 vdb.headerLen + if vdb.check.toNat + n < 65536 then 0 else 65279) % 65535

lemma Travelled.hop {vdb p : Buff} {n : Nat} (h : Travelled vdb n p) (hone : p.ttl ≠ 1) (src dst : Mac) :
    Travelled vdb (n + 1) (addressed (decrementTtl p) src dst) := by
  have hzero : p.ttl ≠ 0 := by
    intro h0
    have halive := h.alive
    rw [h0] at halive
    cases halive
  obtain ⟨halive, hdec⟩ := lowered_ttl hzero hone
  have httl : (addressed (decrementTtl p) src dst).ttl = p.ttl - 1 :=
    (addressed_outside (decrementTtl p) src dst (by decide)).trans (decrementTtl_ttl p)
  have hcheck : (addressed (decrementTtl p) src dst).check.toNat = (p.check.toNat + 1) % 65536 := by
    have hnew := load16_toNat (addressed (decrementTtl p) src dst).data 24
    rw [addressed_outside _ src dst (by decide), addressed_outside _ src dst (by decide)] at hnew
    rw [Buff.check, hnew, Buff.check, load16_toNat]
    exact decrementTtl_check p
  have hfewer := p.ttl.toNat_lt
  have hmany := vdb.ttl.toNat_lt
  refine ⟨?_, ?_, h.len, fun i hi h22 h24 h25 => ?_, ?_, fun hihl => ?_⟩
  · rw [httl]
    have := h.ttl
    omega
  · rw [httl]
    exact halive
  · rw [addressed_outside _ src dst hi, decrementTtl_outside p h22 h24 h25]
    exact h.same i hi h22 h24 h25
  · rw [hcheck, h.check]
    omega
  · have hlen : p.headerLen = vdb.headerLen :=
      headerLen_congr (h.same 14 (by decide) (by decide) (by decide) (by decide))
    have hframe : byteSum (addressed (decrementTtl p) src dst).data 14 vdb.headerLen =
        byteSum (decrementTtl p).data 14 vdb.headerLen :=
      byteSum_congr _ _ _ _ (fun i _ => addressed_outside _ src dst (by omega))
    have hstep := sum_decrementTtl (hlen.symm ▸ hihl) hzero hone
    have hsum := h.sum hihl
    have hfull : p.check = 0xFFFF ↔ p.check.toNat = 65535 := BitVec.toNat_eq
    have hnow := h.check
    have hall := h.ttl
    have hbound := vdb.check.isLt
    rw [hlen] at hstep
    rw [hframe, hstep]
    -- the checksum overflows at most once, as there are fewer hops than values of it
    by_cases hwrap : p.check = 0xFFFF
    · have hvalue := hfull.mp hwrap
      rw [if_pos hwrap]
      split at hsum
      · rw [if_neg (by omega)]
        omega
      · omega
    have hvalue : p.check.toNat ≠ 65535 := fun heq => hwrap (hfull.mpr heq)
    rw [if_neg hwrap]
    split at hsum
    · rw [if_pos (by omega)]
      omega
    rw [if_neg (by omega)]
    omega

/-- A packet is passed on fewer times than its TTL says, by whatever routers, with nothing changed but the TTL, the
checksum and the Ethernet addresses; and its header stays valid exactly as long as the checksum, as the host reads it,
has not been counted past its last value. -/
theorem journey_right {vdb p : Buff} {n : Nat} (h : Journey vdb n p) (hvalid : ValidHeader vdb)
    (httl : vdb.ttl ≠ 0) : n < vdb.ttl.toNat ∧ p.ttl.toNat + n = vdb.ttl.toNat ∧ p.len = vdb.len ∧
    (∀ i, 12 ≤ i → i ≠ 22 → i ≠ 24 → i ≠ 25 → p.data i = vdb.data i) ∧
    (ValidHeader p ↔ vdb.check.toNat + n < 65536) := by
  have htravelled : Travelled vdb n p := by
    induction h with
    | start =>
      have hpos : vdb.ttl.toNat ≠ 0 := fun h0 => httl (UInt8.toNat_inj.mp h0)
      have hbound := vdb.check.isLt
      refine ⟨rfl, by omega, rfl, fun _ _ _ _ _ => rfl, by omega, fun _ => ?_⟩
      rw [if_pos (by omega), Nat.add_zero]
    | hop _ hother hdone hqueued ih =>
      obtain ⟨hone, src, dst, rfl⟩ := parseIp_queued hother hdone hqueued
      exact ih.hop hone src dst
  have hall := htravelled.ttl
  have halive := htravelled.alive
  have hlen : p.headerLen = vdb.headerLen :=
    headerLen_congr (htravelled.same 14 (by decide) (by decide) (by decide) (by decide))
  have hsum := htravelled.sum hvalid.ihl
  have hfolded := hvalid.folded
  refine ⟨by omega, hall, htravelled.len, htravelled.same, ?_⟩
  constructor
  · intro hp
    have hp' := hp.folded
    rw [hlen, hsum] at hp'
    by_contra hmany
    rw [if_neg hmany] at hp'
    omega
  intro hfew
  rw [if_pos hfew] at hsum
  have hheader := byteSum_header p.data (hlen.symm ▸ hvalid.ihl)
  have hbyte : (p.data 22).toNat = p.ttl.toNat := rfl
  refine ⟨hlen.symm ▸ hvalid.ihl, by omega, ?_⟩
  rw [hlen, hsum, Nat.add_zero]
  exact hfolded

theorem journey_right_ping : ∃ p, Journey pingPacket 1 p ∧ 1 < pingPacket.ttl.toNat ∧ p.ttl.toNat + 1 =
    pingPacket.ttl.toNat ∧ p.len = pingPacket.len ∧
    (∀ i, 12 ≤ i → i ≠ 22 → i ≠ 24 → i ≠ 25 → p.data i = pingPacket.data i) ∧
    (ValidHeader p ↔ pingPacket.check.toNat + 1 < 65536) := by
  have hqueued : (parseIp twoNets pingPacket).queuedTtls = [(1, 63)] := by decide +kernel
  cases hparse : parseIp twoNets pingPacket with
  | done ret r =>
    rw [hparse, Result.queuedTtls] at hqueued
    obtain ⟨⟨i, p⟩, rest, hnew, -, hrest⟩ := map_eq_cons_iff.mp hqueued
    rw [map_eq_nil_iff.mp hrest] at hnew
    have hjourney : Journey pingPacket 1 p := .hop .start pingPacket_other hparse hnew
    exact ⟨p, hjourney, journey_right hjourney pingPacket_valid (by decide +kernel)⟩
  | _ =>
    rw [hparse] at hqueued
    cases hqueued

end Vde.L3
