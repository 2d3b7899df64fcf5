import Vde.Dhcp
import Vde.Proofs.ArpBindings

/-!
# Leases

The ARP table is the data base of the DHCP server: a client is known by the entry for its hardware
address, which is looked for on two ways down the tree only, and an address counts as free when the
cursor of the pool comes to it. The leases are right as long as no ARP packet takes an address away
from its client, clients do not share transaction numbers, a client that has an address is found, and
the cursor meets no address in use.
-/

namespace Vde

open List Option

structure Grant where
  client : Mac
  address : BitVec 32
  deriving DecidableEq

structure DhcpRun where
  server : DhcpServer
  grants : List Grant

def dhcpStep (r : DhcpRun) : DhcpEvent → DhcpRun
  | .dhcp alloc stack buffer len =>
    let (s, reply) := dhcpRecv alloc stack buffer len r.server
    { server := s
      grants := (reply.map (fun rep => { client := loadMac buffer 28, address := rep.yiaddr })).toList ++ r.grants }
  | .arp alloc macaddr vdb =>
    { r with server := { r.server with arpTable := (vderParseArp alloc macaddr vdb r.server.arpTable).1 } }

def dhcpMachine : Machine DhcpRun DhcpEvent := { enabled := fun _ _ => True, step := dhcpStep }

def dhcpRunStart (poolStart poolEnd : BitVec 32) : DhcpRun :=
  { server := dhcpStart poolStart poolEnd, grants := [] }

structure LeasesRight (r : DhcpRun) : Prop where
  inPool : ∀ g ∈ r.grants, ipInrange r.server g.address = true
  unique : ∀ g ∈ r.grants, ∀ g' ∈ r.grants, g.address = g'.address → g.client = g'.client
  stable : ∀ g ∈ r.grants, ∀ g' ∈ r.grants, g.client = g'.client → g.address = g'.address

def NotBoundElsewhere (r : DhcpRun) : DhcpEvent → Prop
  | .dhcp alloc stack buffer len =>
    ∀ reply, (dhcpRecv alloc stack buffer len r.server).2 = some reply →
      ∀ mac, r.server.arpTable.macOf reply.yiaddr = some mac → mac = loadMac buffer 28
  | .arp _ _ _ => True

def Leased (s : DhcpServer) (client : Mac) (address : BitVec 32) : Prop :=
  ipInrange s address = true ∧
    ∃ n ∈ s.negotiationList, n.hwaddr = client ∧ ∃ p, n.arp = some p ∧ (s.arpTable.entries p).ipaddr = address

def NewClientOk (alloc : Bool) (hwaddr : Mac) (s : DhcpServer) : Prop :=
  match vderArpGetRecordByMacaddr s.arpTable hwaddr with
  | some p =>
    ipInrange s (s.arpTable.entries p).ipaddr = true → ∀ x, Leased s hwaddr x → x = (s.arpTable.entries p).ipaddr
  | none =>
    alloc = true → ipInrange s s.poolNext = true →
      (∀ x, ¬Leased s hwaddr x) ∧ s.arpTable.macOf s.poolNext = none

/-- No ARP packet binds an address of a negotiation to a hardware address that is not its client's;
a transaction number belongs to one client; and a new negotiation of a client that has an address finds
it, while one of a client that is not found gets an address that is not in the ARP table. -/
def DhcpOk (r : DhcpRun) : DhcpEvent → Prop
  | .dhcp alloc _ buffer len =>
    isOptionsValid buffer 240 (len - 240) = true →
      match getNegotiationByXid r.server (load32 buffer 4) with
      | some dn => dn.hwaddr = loadMac buffer 28
      | none => NewClientOk alloc (loadMac buffer 28) r.server
  | .arp alloc _ vdb =>
    alloc = true → ∀ client, Leased r.server client (load32 vdb.data 28) → client = loadMac vdb.data 22

structure ServerInv (s : DhcpServer) : Prop where
  wf : s.arpTable.Wf
  allocated : ∀ n ∈ s.negotiationList, ∀ p, n.arp = some p → p < s.arpTable.next
  bound : ∀ client x, Leased s client x → s.arpTable.macOf x = some client
  single : ∀ client x y, Leased s client x → Leased s client y → x = y

structure DhcpInv (r : DhcpRun) : Prop where
  server : ServerInv r.server
  granted : ∀ g ∈ r.grants, Leased r.server g.client g.address

lemma DhcpInv.right {r : DhcpRun} (h : DhcpInv r) : LeasesRight r := by
  refine ⟨?_, ?_, ?_⟩
  · intro g hg
    exact (h.granted g hg).1
  · intro g hg g' hg' heq
    have hbound := h.server.bound _ _ (h.granted g hg)
    have hbound' := h.server.bound _ _ (h.granted g' hg')
    rw [heq, hbound'] at hbound
    exact (some.inj hbound).symm
  intro g hg g' hg' heq
  have hleased := h.granted g' hg'
  rw [← heq] at hleased
  exact h.server.single _ _ _ (h.granted g hg) hleased

variable {s : DhcpServer}

section Arp

lemma leased_congr (s s' : DhcpServer) (hlist : s'.negotiationList = s.negotiationList)
    (hrange : ∀ x, ipInrange s' x = ipInrange s x)
    (haddr : ∀ n ∈ s.negotiationList, ∀ p, n.arp = some p →
      (s'.arpTable.entries p).ipaddr = (s.arpTable.entries p).ipaddr) (client : Mac) (x : BitVec 32) :
    Leased s' client x ↔ Leased s client x := by
  rw [Leased, Leased, hlist, hrange]
  constructor
  · rintro ⟨hin, n, hn, hhw, p, hp, hip⟩
    exact ⟨hin, n, hn, hhw, p, hp, (haddr n hn p hp).symm.trans hip⟩
  rintro ⟨hin, n, hn, hhw, p, hp, hip⟩
  exact ⟨hin, n, hn, hhw, p, hp, (haddr n hn p hp).trans hip⟩

lemma addNew_facts {t : ArpTable} (h : t.Wf) (e : ArpEntry) : (vderAddArpEntry (t.alloc e) t.next).Wf ∧
    (vderAddArpEntry (t.alloc e) t.next).next = t.next + 1 ∧
    (∀ p < t.next, ((vderAddArpEntry (t.alloc e) t.next).entries p).ipaddr = (t.entries p).ipaddr) ∧
    ((vderAddArpEntry (t.alloc e) t.next).entries t.next).ipaddr = e.ipaddr ∧ ∀ x,
    (vderAddArpEntry (t.alloc e) t.next).macOf x = if x = e.ipaddr then some e.macaddr else t.macOf x := by
  have hlt : t.next < (t.alloc e).next := Nat.lt_succ_self _
  refine ⟨(h.alloc e).add hlt, vderAddArpEntry_next _ _, ?_, ?_, ?_⟩
  · intro p hp
    rw [vderAddArpEntry_ipaddr, alloc_entries_old hp]
  · rw [vderAddArpEntry_ipaddr, alloc_entries_new]
  intro x
  rw [(h.alloc e).add_macOf hlt, alloc_entries_new, h.alloc_macOf]

lemma ServerInv.newEntry (h : ServerInv s) (e : ArpEntry) (next : BitVec 32)
    (hclient : ∀ client, Leased s client e.ipaddr → client = e.macaddr) :
    ServerInv { s with poolNext := next, arpTable := vderAddArpEntry (s.arpTable.alloc e) s.arpTable.next } ∧
      ∀ client x, Leased
        { s with poolNext := next, arpTable := vderAddArpEntry (s.arpTable.alloc e) s.arpTable.next } client x ↔
          Leased s client x := by
  obtain ⟨hwf, hnext, hold, -, hmac⟩ := addNew_facts h.wf e
  have hleased (client : Mac) (x : BitVec 32) := leased_congr s
    { s with poolNext := next, arpTable := vderAddArpEntry (s.arpTable.alloc e) s.arpTable.next } rfl
    (fun _ => rfl) (fun n hn p hp => hold p (h.allocated n hn p hp)) client x
  refine ⟨⟨hwf, ?_, ?_, ?_⟩, hleased⟩
  · intro n hn p hp
    have hlt := h.allocated n hn p hp
    change p < (vderAddArpEntry (s.arpTable.alloc e) s.arpTable.next).next
    rw [hnext]
    omega
  · intro client x hx
    rw [hleased] at hx
    refine (hmac x).trans ?_
    split
    · rename_i heq
      subst heq
      rw [hclient client hx]
    · exact h.bound client x hx
  intro client x y hx hy
  rw [hleased] at hx hy
  exact h.single client x y hx hy

lemma dhcpStep_arp {r : DhcpRun} (h : DhcpInv r) (alloc : Bool) (macaddr : Mac) (vdb : VdeBuff)
    (hok : DhcpOk r (.arp alloc macaddr vdb)) : DhcpInv (dhcpStep r (.arp alloc macaddr vdb)) := by
  cases alloc with
  | false => exact h
  | true =>
    obtain ⟨hserver, hleased⟩ := h.server.newEntry
      { macaddr := loadMac vdb.data 22, ipaddr := load32 vdb.data 28 } r.server.poolNext (hok rfl)
    exact ⟨hserver, fun g hg => (hleased _ _).mpr (h.granted g hg)⟩

end Arp

variable {p : Nat}

section Message

variable {r : DhcpRun} {alloc : Bool} {xid : BitVec 32} {hwaddr : Mac}

lemma getRecord_mem {t : ArpTable} (h : vderArpGetRecordByMacaddr t hwaddr = some p) :
    p ∈ t.root.toList ∧ (t.entries p).macaddr = hwaddr := by
  rw [vderArpGetRecordByMacaddr, or_eq_some_iff] at h
  rcases h with h | ⟨-, h⟩
  · exact ⟨RbTree.mem_leftSpine (mem_of_find?_eq_some h), by simpa using find?_some h⟩
  · exact ⟨RbTree.mem_rightSpine (mem_of_find?_eq_some h), by simpa using find?_some h⟩

lemma leased_cons (s : DhcpServer) (dn : Negotiation) (client : Mac) (x : BitVec 32) :
    Leased { s with negotiationList := dn :: s.negotiationList } client x ↔
      Leased s client x ∨
        (ipInrange s x = true ∧ dn.hwaddr = client ∧ ∃ p, dn.arp = some p ∧ (s.arpTable.entries p).ipaddr = x) := by
  simp only [Leased]
  constructor
  · rintro ⟨hin, n, hn, hhw, p, hp, hip⟩
    rcases mem_cons.mp hn with rfl | hn
    · exact .inr ⟨hin, hhw, p, hp, hip⟩
    · exact .inl ⟨hin, n, hn, hhw, p, hp, hip⟩
  rintro (⟨hin, n, hn, hhw, p, hp, hip⟩ | ⟨hin, hhw, p, hp, hip⟩)
  · exact ⟨hin, n, mem_cons_of_mem _ hn, hhw, p, hp, hip⟩
  · exact ⟨hin, dn, mem_cons_self, hhw, p, hp, hip⟩

lemma ServerInv.push (h : ServerInv s) (dn : Negotiation)
    (hnew : ∀ p, dn.arp = some p → p < s.arpTable.next)
    (hbound : ∀ p, dn.arp = some p → ipInrange s (s.arpTable.entries p).ipaddr = true →
      s.arpTable.macOf (s.arpTable.entries p).ipaddr = some dn.hwaddr)
    (hsingle : ∀ p, dn.arp = some p → ipInrange s (s.arpTable.entries p).ipaddr = true →
      ∀ x, Leased s dn.hwaddr x → x = (s.arpTable.entries p).ipaddr) :
    ServerInv { s with negotiationList := dn :: s.negotiationList } := by
  refine ⟨h.wf, ?_, ?_, ?_⟩
  · intro n hn p hp
    rcases mem_cons.mp hn with rfl | hn
    · exact hnew p hp
    · exact h.allocated n hn p hp
  · intro client x hx
    rw [leased_cons] at hx
    rcases hx with hx | ⟨hin, rfl, p, hp, rfl⟩
    · exact h.bound client x hx
    · exact hbound p hp hin
  intro client x y hx hy
  rw [leased_cons] at hx hy
  rcases hx with hx | ⟨hin, rfl, p, hp, rfl⟩
  · rcases hy with hy | ⟨hin, rfl, p, hp, rfl⟩
    · exact h.single client x y hx hy
    · exact hsingle p hp hin x hx
  rcases hy with hy | ⟨hin', -, p', hp', rfl⟩
  · exact (hsingle p hp hin y hy).symm
  rw [hp] at hp'
  obtain rfl := some.inj hp'
  rfl

def takeNext (hwaddr : Mac) (s : DhcpServer) : DhcpServer :=
  { s with
    poolNext := ntohl (ntohl s.poolNext + 1)
    arpTable := vderAddArpEntry (s.arpTable.alloc { macaddr := hwaddr, ipaddr := s.poolNext }) s.arpTable.next }

def pushNegotiation (s : DhcpServer) (dn : Negotiation) : DhcpServer :=
  { s with negotiationList := dn :: s.negotiationList }

lemma negotiationFor_known {dn : Negotiation} (h : getNegotiationByXid s xid = some dn) :
    negotiationFor alloc xid hwaddr s = (s, dn) := by
  simp only [negotiationFor, h]

section

variable (h : getNegotiationByXid s xid = none)

include h

lemma negotiationFor_found (hrec : vderArpGetRecordByMacaddr s.arpTable hwaddr = some p) :
    negotiationFor alloc xid hwaddr s = (pushNegotiation s ⟨xid, hwaddr, some p⟩, ⟨xid, hwaddr, some p⟩) := by
  simp only [negotiationFor, h, hrec, pushNegotiation]

lemma negotiationFor_noMemory (hrec : vderArpGetRecordByMacaddr s.arpTable hwaddr = none) :
    negotiationFor false xid hwaddr s = (pushNegotiation s ⟨xid, hwaddr, none⟩, ⟨xid, hwaddr, none⟩) := by
  simp only [negotiationFor, h, hrec, if_true, pushNegotiation]

lemma negotiationFor_next
    (hrec : vderArpGetRecordByMacaddr s.arpTable hwaddr = none) :
    negotiationFor true xid hwaddr s =
      (pushNegotiation (takeNext hwaddr s) ⟨xid, hwaddr, some s.arpTable.next⟩,
        ⟨xid, hwaddr, some s.arpTable.next⟩) := by
  simp only [negotiationFor, h, hrec, Bool.true_eq_false, if_false, pushNegotiation, takeNext]

end

/-- The state and the negotiation for a message: the leases are kept, and if the address of the
negotiation is in the pool, it is leased to the client and was not bound to another one before. -/
structure Negotiated (hwaddr : Mac) (s s' : DhcpServer) (dn : Negotiation) : Prop where
  inv : ServerInv s'
  kept : ∀ client x, Leased s client x → Leased s' client x
  range : ∀ x, ipInrange s' x = ipInrange s x
  leased : ∀ p, dn.arp = some p → ipInrange s (s'.arpTable.entries p).ipaddr = true →
    Leased s' hwaddr (s'.arpTable.entries p).ipaddr
  free : ∀ p, dn.arp = some p → ipInrange s (s'.arpTable.entries p).ipaddr = true →
    ∀ mac, s.arpTable.macOf (s'.arpTable.entries p).ipaddr = some mac → mac = hwaddr

lemma negotiated_known {dn : Negotiation} (h : ServerInv s)
    (hdn : dn ∈ s.negotiationList) (hhw : dn.hwaddr = hwaddr) : Negotiated hwaddr s s dn := by
  have hleased : ∀ p, dn.arp = some p → ipInrange s (s.arpTable.entries p).ipaddr = true →
      Leased s hwaddr (s.arpTable.entries p).ipaddr :=
    fun p hp hin => ⟨hin, dn, hdn, hhw, p, hp, rfl⟩
  refine ⟨h, fun _ _ hx => hx, fun _ => rfl, hleased, ?_⟩
  intro p hp hin mac hmac
  rw [h.bound _ _ (hleased p hp hin)] at hmac
  exact (some.inj hmac).symm

lemma negotiated_found (h : ServerInv s)
    (hrec : vderArpGetRecordByMacaddr s.arpTable hwaddr = some p)
    (hok : ipInrange s (s.arpTable.entries p).ipaddr = true →
      ∀ x, Leased s hwaddr x → x = (s.arpTable.entries p).ipaddr) :
    Negotiated hwaddr s (pushNegotiation s ⟨xid, hwaddr, some p⟩) ⟨xid, hwaddr, some p⟩ := by
  obtain ⟨hmem, hmac⟩ := getRecord_mem hrec
  have hbinding := h.wf.macOf_mem hmem
  rw [hmac] at hbinding
  refine ⟨?_, fun client x hx => (leased_cons s _ client x).mpr (.inl hx), fun _ => rfl, ?_, ?_⟩
  · apply h.push
    · rintro q ⟨⟩
      exact h.wf.allocated p hmem
    · rintro q ⟨⟩ -
      exact hbinding
    rintro q ⟨⟩ hin
    exact hok hin
  · rintro q ⟨⟩ hin
    exact (leased_cons s _ _ _).mpr (.inr ⟨hin, rfl, p, rfl, rfl⟩)
  rintro q ⟨⟩ - mac hbound
  exact some.inj (hbound.symm.trans hbinding)

lemma negotiated_next (h : ServerInv s)
    (hok : ipInrange s s.poolNext = true → (∀ x, ¬Leased s hwaddr x) ∧ s.arpTable.macOf s.poolNext = none) :
    Negotiated hwaddr s (pushNegotiation (takeNext hwaddr s) ⟨xid, hwaddr, some s.arpTable.next⟩)
      ⟨xid, hwaddr, some s.arpTable.next⟩ := by
  obtain ⟨hinv, hleased⟩ := h.newEntry { macaddr := hwaddr, ipaddr := s.poolNext }
    (ntohl (ntohl s.poolNext + 1)) (fun client hleased => by
      have hnone := (hok hleased.1).2
      rw [h.bound client _ hleased] at hnone
      cases hnone)
  obtain ⟨-, hnext, -, hip, hmac⟩ := addNew_facts h.wf { macaddr := hwaddr, ipaddr := s.poolNext }
  have haddr : ((takeNext hwaddr s).arpTable.entries s.arpTable.next).ipaddr = s.poolNext := hip
  refine ⟨?_, ?_, fun _ => rfl, ?_, ?_⟩
  · apply ServerInv.push hinv
    · rintro q ⟨⟩
      exact hnext.symm ▸ Nat.lt_succ_self _
    · rintro q ⟨⟩ -
      exact (hmac _).trans (if_pos hip)
    rintro q ⟨⟩ hin x hx
    rw [hleased] at hx
    change ipInrange s ((takeNext hwaddr s).arpTable.entries s.arpTable.next).ipaddr = true at hin
    rw [haddr] at hin
    exact absurd hx ((hok hin).1 x)
  · intro client x hx
    exact (leased_cons _ _ client x).mpr (.inl ((hleased client x).mpr hx))
  · rintro q ⟨⟩ hin
    exact (leased_cons _ _ _ _).mpr (.inr ⟨hin, rfl, _, rfl, rfl⟩)
  · rintro q ⟨⟩ hin mac hbound
    change ipInrange s ((takeNext hwaddr s).arpTable.entries s.arpTable.next).ipaddr = true at hin
    change s.arpTable.macOf ((takeNext hwaddr s).arpTable.entries s.arpTable.next).ipaddr = some mac at hbound
    rw [haddr] at hin hbound
    rw [(hok hin).2] at hbound
    cases hbound

lemma negotiationFor_inv (h : ServerInv s)
    (hok : match getNegotiationByXid s xid with
      | some dn => dn.hwaddr = hwaddr
      | none => NewClientOk alloc hwaddr s) :
    Negotiated hwaddr s (negotiationFor alloc xid hwaddr s).1 (negotiationFor alloc xid hwaddr s).2 := by
  cases hxid : getNegotiationByXid s xid with
  | some dn =>
    rw [hxid] at hok
    rw [negotiationFor_known hxid]
    exact negotiated_known h (mem_of_find?_eq_some hxid) hok
  | none =>
    rw [hxid] at hok
    simp only [NewClientOk] at hok
    cases hrec : vderArpGetRecordByMacaddr s.arpTable hwaddr with
    | some p =>
      rw [hrec] at hok
      rw [negotiationFor_found hxid hrec]
      exact negotiated_found h hrec hok
    | none =>
      rw [hrec] at hok
      cases alloc with
      | false =>
        rw [negotiationFor_noMemory hxid hrec]
        refine ⟨?_, fun client x hx => (leased_cons s _ client x).mpr (.inl hx), fun _ => rfl, ?_, ?_⟩
        · apply h.push
          · rintro q ⟨⟩
          · rintro q ⟨⟩
          · rintro q ⟨⟩
        · rintro q ⟨⟩
        · rintro q ⟨⟩
      | true =>
        rw [negotiationFor_next hxid hrec]
        exact negotiated_next h (hok rfl)

lemma dhcpStep_dhcp {r : DhcpRun} (h : DhcpInv r) (alloc : Bool) (stack : UInt8) (buffer : Mem) (len : Nat)
    (hok : DhcpOk r (.dhcp alloc stack buffer len)) :
    DhcpInv (dhcpStep r (.dhcp alloc stack buffer len)) ∧ NotBoundElsewhere r (.dhcp alloc stack buffer len) := by
  simp only [dhcpStep, NotBoundElsewhere, dhcpRecv]
  by_cases hvalid : isOptionsValid buffer 240 (len - 240) = false
  · rw [if_pos hvalid]
    exact ⟨h, fun reply hreply => by cases hreply⟩
  rw [if_neg hvalid]
  have hn := negotiationFor_inv h.server (hok (by simpa using hvalid))
  generalize negotiationFor alloc (load32 buffer 4) (loadMac buffer 28) r.server = pair at hn
  obtain ⟨s', dn⟩ := pair
  have hkept : ∀ g ∈ r.grants, Leased s' g.client g.address := fun g hg => hn.kept _ _ (h.granted g hg)
  cases hp : dn.arp with
  | none => exact ⟨⟨hn.inv, hkept⟩, fun reply hreply => by cases hreply⟩
  | some p =>
    by_cases hin : ipInrange s' (s'.arpTable.entries p).ipaddr = false
    · simp only [if_pos hin]
      exact ⟨⟨hn.inv, hkept⟩, fun reply hreply => by cases hreply⟩
    simp only [if_neg hin]
    rw [Bool.not_eq_false, hn.range] at hin
    constructor
    · refine ⟨hn.inv, ?_⟩
      intro g hg
      rcases mem_append.mp hg with hg | hg
      · -- the address just given
        rw [Option.mem_toList, Option.map_map, Option.map_eq_some_iff] at hg
        obtain ⟨t, -, rfl⟩ := hg
        exact hn.leased p hp hin
      · exact hkept g hg
    intro reply hreply mac hmac
    obtain ⟨t, -, rfl⟩ := map_eq_some_iff.mp hreply
    exact hn.free p hp hin mac hmac

end Message

lemma dhcpRunStart_inv (poolStart poolEnd : BitVec 32) : DhcpInv (dhcpRunStart poolStart poolEnd) := by
  have hnone (client : Mac) (x : BitVec 32) : ¬Leased (dhcpRunStart poolStart poolEnd).server client x := by
    rintro ⟨-, n, hn, -⟩
    exact absurd hn not_mem_nil
  refine ⟨⟨⟨List.Pairwise.nil, ?_⟩, ?_, ?_, ?_⟩, ?_⟩
  · intro p hp
    exact absurd hp not_mem_nil
  · intro n hn
    exact absurd hn not_mem_nil
  · intro client x hx
    exact absurd hx (hnone client x)
  · intro client x y hx
    exact absurd hx (hnone client x)
  · intro g hg
    exact absurd hg not_mem_nil

/-- In every run of DHCP messages and ARP packets whose steps meet the condition, the addresses given are
in the pool, different for different clients, the same for the same client, and never bound to another
hardware address when they are given. -/
theorem dhcp_leases_right (poolStart poolEnd : BitVec 32) (es : List DhcpEvent)
    (hes : dhcpMachine.Along DhcpOk (dhcpRunStart poolStart poolEnd) es) :
    dhcpMachine.Always LeasesRight (dhcpRunStart poolStart poolEnd) es ∧
    dhcpMachine.Along NotBoundElsewhere (dhcpRunStart poolStart poolEnd) es := by
  refine Machine.Along.always_and_along DhcpInv (fun _ h => h.right) ?_ (dhcpRunStart_inv poolStart poolEnd) hes
  intro r e h hok
  cases e with
  | dhcp alloc stack buffer len => exact dhcpStep_dhcp h alloc stack buffer len hok
  | arp alloc macaddr vdb => exact ⟨dhcpStep_arp h alloc macaddr vdb hok, trivial⟩

def dhcpMessage (msgType : UInt8) (xid : BitVec 32) (hwaddr : Mac) : Mem :=
  memcpy (memcpy (memcpy (fun _ => 0) 4 (bytes32 xid)) 28 hwaddr.toList) 240
    [DHCPOPT_MSGTYPE, 1, msgType, DHCPOPT_END]

def arpPacket (mac : Mac) (addr : BitVec 32) : VdeBuff :=
  { len := 60, src := 0, priority := 0, data := store32 (storeMac (fun _ => 0) 22 mac) 28 addr }

/-- A client asks and takes what is offered, from the pool 10.0.0.100 to 10.0.0.110. -/
theorem dhcp_leases_right_client :
    dhcpMachine.Always LeasesRight (dhcpRunStart 0x6400000a 0x6e00000a)
        [.dhcp true 0 (dhcpMessage DHCP_MSG_DISCOVER 7 #v[2, 0, 0, 0, 0, 1]) 244,
          .dhcp true 0 (dhcpMessage DHCP_MSG_REQUEST 7 #v[2, 0, 0, 0, 0, 1]) 244] ∧
      dhcpMachine.Along NotBoundElsewhere (dhcpRunStart 0x6400000a 0x6e00000a)
        [.dhcp true 0 (dhcpMessage DHCP_MSG_DISCOVER 7 #v[2, 0, 0, 0, 0, 1]) 244,
          .dhcp true 0 (dhcpMessage DHCP_MSG_REQUEST 7 #v[2, 0, 0, 0, 0, 1]) 244] := by
  apply dhcp_leases_right
  refine ⟨fun _ _ _ => ⟨?_, rfl⟩, ?_, trivial⟩
  · rintro x ⟨-, n, hn, -⟩
    exact absurd hn not_mem_nil
  intro _
  have hknown : getNegotiationByXid (dhcpMachine.step (dhcpRunStart 0x6400000a 0x6e00000a)
        (.dhcp true 0 (dhcpMessage DHCP_MSG_DISCOVER 7 #v[2, 0, 0, 0, 0, 1]) 244)).server
      (load32 (dhcpMessage DHCP_MSG_REQUEST 7 #v[2, 0, 0, 0, 0, 1]) 4) =
        some { xid := 7, hwaddr := #v[2, 0, 0, 0, 0, 1], arp := some 0 } := by
    decide
  rw [hknown]
  decide

/-- A host with a static address has been seen by ARP; a client that asks next is offered its address. -/
theorem dhcp_offers_bound_address :
    ¬dhcpMachine.Along NotBoundElsewhere (dhcpRunStart 0x6400000a 0x6e00000a)
      [.arp true #v[0, 2, 5, 0, 1, 0] (arpPacket #v[2, 0, 0, 0, 0, 9] 0x6400000a),
        .dhcp true 0 (dhcpMessage DHCP_MSG_DISCOVER 7 #v[2, 0, 0, 0, 0, 1]) 244] := by
  rintro ⟨-, hfree, -⟩
  have hsame := hfree
    { replyType := .offer, xid := 7, hwaddr := #v[2, 0, 0, 0, 0, 1], yiaddr := 0x6400000a } (by decide)
    #v[2, 0, 0, 0, 0, 9] (by decide)
  exact absurd hsame (by decide)

end Vde
