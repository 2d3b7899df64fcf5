import Vde.Arp

/-!
# vde_router: the DHCP server

The server keeps a list of negotiations, found by their transaction numbers. A negotiation points to an
ARP entry, which holds the address that is offered: an entry that the ARP table already has for the
hardware address of the client, or a new one with the next address of the pool.
-/

namespace Vde

def DHCPOPT_PAD : UInt8 := 0x00
def DHCPOPT_END : UInt8 := 0xff
def DHCPOPT_MSGTYPE : UInt8 := 0x35
def DHCP_MSG_DISCOVER : UInt8 := 1
def DHCP_MSG_REQUEST : UInt8 := 3

/-- `struct vder_dhcp_negotiation`. -/
structure Negotiation where
  xid : BitVec 32
  hwaddr : Mac
  arp : Option Nat
  deriving DecidableEq

structure DhcpServer where
  negotiationList : List Negotiation
  poolStart : BitVec 32
  poolNext : BitVec 32
  poolEnd : BitVec 32
  arpTable : ArpTable

inductive DhcpReplyType where
  | offer
  | ack
  deriving DecidableEq, Repr

structure DhcpReply where
  replyType : DhcpReplyType
  xid : BitVec 32
  hwaddr : Mac
  yiaddr : BitVec 32
  deriving DecidableEq

def getNegotiationByXid (s : DhcpServer) (xid : BitVec 32) : Option Negotiation :=
  s.negotiationList.find? (fun cur => cur.xid == xid)

def optionsValidLoop (mem : Mem) : Nat → Nat → Int → Bool
  | 0, _, _ => false
  | turns + 1, p, len =>
    if len ≤ 0 then false
    else if mem p = DHCPOPT_END then true
    else if mem p = DHCPOPT_PAD then optionsValidLoop mem turns (p + 1) (len - 1)
    else
      let optLen := (mem (p + 1)).toNat
      optionsValidLoop mem turns (p + 1 + (optLen + 1)) (len - 1 - optLen)

def isOptionsValid (mem : Mem) (p : Nat) (len : Int) : Bool := optionsValidLoop mem len.toNat p len

structure OptionWalk where
  result : Bool
  reads : List Nat
  walked : List Nat

def OptionWalk.after (w : OptionWalk) (reads : List Nat) (p : Nat) : OptionWalk :=
  { w with reads := reads ++ w.reads, walked := p :: w.walked }

def optionsWalkLoop (mem : Mem) : Nat → Nat → Int → OptionWalk
  | 0, _, _ => ⟨false, [], []⟩
  | turns + 1, p, len =>
    if len ≤ 0 then ⟨false, [], []⟩
    else if mem p = DHCPOPT_END then ⟨true, [p], [p]⟩
    else if mem p = DHCPOPT_PAD then (optionsWalkLoop mem turns (p + 1) (len - 1)).after [p] p
    else
      let optLen := (mem (p + 1)).toNat
      (optionsWalkLoop mem turns (p + 1 + (optLen + 1)) (len - 1 - optLen)).after [p, p + 1] p

def optionsWalk (mem : Mem) (p : Nat) (len : Int) : OptionWalk := optionsWalkLoop mem len.toNat p len

/-- A call of `dhcp_get_next_option`: what it returns and stores in `data`, `*len` and `*nextopt`, and the
addresses it reads. -/
structure OptionCall where
  type : UInt8
  data : List UInt8
  len : Nat
  nextopt : Nat
  reads : List Nat

/-- `dhcp_get_next_option` at `p`. For `DHCPOPT_END` and `DHCPOPT_PAD` it clears its parameter `len`, not
`*len`. -/
def dhcpGetNextOption (mem : Mem) (p len : Nat) : OptionCall :=
  if mem p = DHCPOPT_END ∨ mem p = DHCPOPT_PAD then ⟨mem p, List.replicate len 0, len, p + 1, [p]⟩
  else
    let optLen := (mem (p + 1)).toNat
    let len := if optLen < len then optLen else len
    ⟨mem p, readBytes mem (p + 2) len, len, p + 2 + optLen, p :: (p + 1) :: (List.range len).map (p + 2 + ·)⟩

/-- The calls of a loop that goes on until `DHCPOPT_END` and sets `opt_len` to 20 before every call; there is
no result if `DHCPOPT_END` is not reached in so many calls. -/
def optionCalls (mem : Mem) : Nat → Nat → Option (List OptionCall)
  | 0, _ => none
  | calls + 1, p =>
    let call := dhcpGetNextOption mem p 20
    if call.type = DHCPOPT_END then some [call] else (optionCalls mem calls call.nextopt).map (call :: ·)

/-- The loop of `dhcp_recv` over the options. Only the first byte of `opt_data` is looked at; an option
without data leaves it as it was. -/
def optionLoop (mem : Mem) : Nat → Nat → UInt8 → Option DhcpReplyType
  | 0, _, _ => none
  | turns + 1, p, data =>
    if mem p = DHCPOPT_END then none
    else if mem p = DHCPOPT_PAD then optionLoop mem turns (p + 1) 0
    else
      let optLen := (mem (p + 1)).toNat
      let data := if optLen = 0 then data else mem (p + 2)
      if mem p = DHCPOPT_MSGTYPE ∧ data = DHCP_MSG_DISCOVER then some .offer
      else if mem p = DHCPOPT_MSGTYPE ∧ data = DHCP_MSG_REQUEST then some .ack
      else optionLoop mem turns (p + 2 + optLen) data

def ipInrange (s : DhcpServer) (x : BitVec 32) : Bool :=
  ntohl s.poolStart ≤ ntohl x && ntohl x ≤ ntohl s.poolEnd

/-- The negotiation for a message: the one with its transaction number, or a new one. `alloc` tells
whether there is memory for an ARP entry. -/
def negotiationFor (alloc : Bool) (xid : BitVec 32) (hwaddr : Mac) (s : DhcpServer) :
    DhcpServer × Negotiation :=
  match getNegotiationByXid s xid with
  | some dn => (s, dn)
  | none =>
    match vderArpGetRecordByMacaddr s.arpTable hwaddr with
    | some p =>
      let dn : Negotiation := { xid := xid, hwaddr := hwaddr, arp := some p }
      ({ s with negotiationList := dn :: s.negotiationList }, dn)
    | none =>
      if alloc = false then
        let dn : Negotiation := { xid := xid, hwaddr := hwaddr, arp := none }
        ({ s with negotiationList := dn :: s.negotiationList }, dn)
      else
        let p := s.arpTable.next
        let dn : Negotiation := { xid := xid, hwaddr := hwaddr, arp := some p }
        ({ s with
            negotiationList := dn :: s.negotiationList
            poolNext := ntohl (ntohl s.poolNext + 1)
            arpTable := vderAddArpEntry (s.arpTable.alloc { macaddr := hwaddr, ipaddr := s.poolNext }) p },
          dn)

/-- `dhcp_recv`: the transaction number is at offset 4 of the message, the hardware address at 28, and
the options begin at 240. `stack` is what the first byte of `opt_data` holds at the beginning. A second
message for a negotiation that got no ARP entry crashes the server; here it has no answer. -/
def dhcpRecv (alloc : Bool) (stack : UInt8) (buffer : Mem) (len : Nat) (s : DhcpServer) :
    DhcpServer × Option DhcpReply :=
  if isOptionsValid buffer 240 (len - 240) = false then (s, none)
  else
    let (s, dn) := negotiationFor alloc (load32 buffer 4) (loadMac buffer 28) s
    match dn.arp with
    | none => (s, none)
    | some p =>
      let ipaddr := (s.arpTable.entries p).ipaddr
      if ipInrange s ipaddr = false then (s, none)
      else
        (s, (optionLoop buffer (len - 240) 240 stack).map
          (fun t => { replyType := t, xid := dn.xid, hwaddr := dn.hwaddr, yiaddr := ipaddr }))

inductive DhcpEvent where
  | dhcp (alloc : Bool) (stack : UInt8) (buffer : Mem) (len : Nat)
  | arp (alloc : Bool) (macaddr : Mac) (vdb : VdeBuff)

def dhcpStart (poolStart poolEnd : BitVec 32) : DhcpServer :=
  { negotiationList := [], poolStart := poolStart, poolNext := poolStart, poolEnd := poolEnd
    arpTable := arpTableStart }

end Vde
