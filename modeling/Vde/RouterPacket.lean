import Vde.Router
import Vde.Arp

/-!
# vde_router: filter and forwarding

A frame that arrives at an interface of the router passes the filter, is delivered if its destination
is an address of the router, and else goes out again through `vder_packet_send`, which the router
also uses for packets of its own. The filter is a list of rules, the latest first.

What the functions of this file call in other parts of the router is recorded as a list.
-/

namespace Vde

def PTYPE_IP : BitVec 16 := 0x0800
def PTYPE_ARP : BitVec 16 := 0x0806
def PROTO_ICMP : BitVec 8 := 1
def PROTO_UDP : BitVec 8 := 17
def DEFAULT_TTL : BitVec 8 := 64
def PRIO_BESTEFFORT : BitVec 8 := 15

namespace VdeBuff

/-- The fields of `struct iphdr`, which begins at offset 14. -/
def tos (vb : VdeBuff) : BitVec 8 := (vb.data 15).toBitVec
def totLen (vb : VdeBuff) : BitVec 16 := load16 vb.data 16
def ident (vb : VdeBuff) : BitVec 16 := load16 vb.data 18
def fragOff (vb : VdeBuff) : BitVec 16 := load16 vb.data 20
def ttl (vb : VdeBuff) : BitVec 8 := (vb.data 22).toBitVec
def protocol (vb : VdeBuff) : BitVec 8 := (vb.data 23).toBitVec
def check (vb : VdeBuff) : BitVec 16 := load16 vb.data 24
def saddr (vb : VdeBuff) : BitVec 32 := load32 vb.data 26
def daddr (vb : VdeBuff) : BitVec 32 := load32 vb.data 30

/-- The ports, where UDP and TCP have them. -/
def transportSport (vb : VdeBuff) : BitVec 16 := load16 vb.data 34
def transportDport (vb : VdeBuff) : BitVec 16 := load16 vb.data 36

def footprint (vb : VdeBuff) : List UInt8 := readBytes vb.data 14 28

end VdeBuff

inductive FilterAction where
  | accept
  | priority
  | reject
  | drop
  | invalid
  deriving DecidableEq, Repr

/-- The arguments by which a rule is added and deleted. A null pointer stands for any interface, as
does 0 for a protocol, an address or a port and a negative number for the type of service. -/
structure FilterKey where
  srcIface : Option Nat
  proto : BitVec 8
  saddr : Ip4Address
  daddr : Ip4Address
  tos : Int
  sport : BitVec 16
  dport : BitVec 16
  deriving DecidableEq, Repr

structure Filter where
  key : FilterKey
  action : FilterAction
  priority : BitVec 8
  statsPackets : BitVec 32
  statsBytes : BitVec 32
  deriving DecidableEq, Repr

def FilterKey.sameRule (search arg : FilterKey) : Bool :=
  search.srcIface == arg.srcIface && search.saddr.address == arg.saddr.address &&
    search.saddr.netmask == arg.saddr.netmask && search.daddr.address == arg.daddr.address &&
    search.daddr.netmask == arg.daddr.netmask && search.sport == arg.sport && search.dport == arg.dport &&
    search.tos == arg.tos

def vderFilterDel (arg : FilterKey) (table : List Filter) : CallResult × List Filter :=
  if table.any (fun search => search.key.sameRule arg) then
    (⟨0, none⟩, table.eraseP (fun search => search.key.sameRule arg))
  else (⟨-1, some .enoent⟩, table)

/-- `vder_filter_add`. The priority of the new rule is what `malloc` left in its place. -/
def vderFilterAdd (alloc : Bool) (garbage : BitVec 8) (key : FilterKey) (action : FilterAction)
    (_priority : BitVec 8) (table : List Filter) : CallResult × List Filter :=
  if alloc = false then (⟨-1, some .enomem⟩, table)
  else
    (⟨0, none⟩,
      { key := key, action := action, priority := garbage, statsPackets := 0, statsBytes := 0 } :: table)

def Ip4Address.selects (a : Ip4Address) (addr : BitVec 32) : Bool :=
  a.address == 0 || a.address == a.netmask &&& addr

/-- The test of `vder_filter` for one rule; the type of service is cut to a byte. -/
def FilterKey.selects (cur : FilterKey) (buf : VdeBuff) : Bool :=
  (cur.srcIface == none || cur.srcIface == some buf.src) && (cur.proto == 0 || cur.proto == buf.protocol) &&
    (cur.tos < 0 || BitVec.ofInt 8 cur.tos == buf.tos) && cur.saddr.selects buf.saddr &&
    cur.daddr.selects buf.daddr && (cur.sport == 0 || cur.sport == buf.transportSport) &&
    (cur.dport == 0 || cur.dport == buf.transportDport)

def selectFilter (buf : VdeBuff) : List Filter → Option Filter × List Filter
  | [] => (none, [])
  | cur :: rest =>
    if cur.key.selects buf then
      (some cur,
        { cur with
          statsPackets := cur.statsPackets + 1
          statsBytes := cur.statsBytes + BitVec.ofNat 32 buf.len } :: rest)
    else
      let (selected, rest) := selectFilter buf rest
      (selected, cur :: rest)

inductive IcmpError where
  | protocolUnreachable
  | hostUnreachable
  | ttlExpired
  | filterProhibited
  deriving DecidableEq, Repr

inductive RouterCall where
  | enqueue (iface : Nat) (vb : VdeBuff)
  | arpQuery (iface : Nat) (tgt : BitVec 32)
  | icmpSend (dst : BitVec 32) (error : IcmpError) (foot : List UInt8)
  | icmpRecv (vb : VdeBuff)
  | udpRecv (vb : VdeBuff)

/-- `vder_filter`: whether the packet is stopped, the packet, the table and the ICMP error. -/
def vderFilter (buf : VdeBuff) (table : List Filter) : Bool × VdeBuff × List Filter × List RouterCall :=
  let (selected, table) := selectFilter buf table
  match selected with
  | none => (false, buf, table, [])
  | some rule =>
    match rule.action with
    | .priority => (false, { buf with priority := rule.priority }, table, [])
    | .accept => (false, buf, table, [])
    | .reject => (true, buf, table, [.icmpSend buf.saddr .filterProhibited buf.footprint])
    | .drop => (true, buf, table, [])
    | .invalid => (false, buf, table, [])

/-- The parts of the router that the way of a packet depends on. The sockets of UDP are given by their
ports. -/
structure RouterNet where
  router : Router
  iflist : List Nat
  macaddr : Nat → Mac
  arpTable : Nat → ArpTable
  filteringTable : List Filter
  udpPorts : List (BitVec 16)

def vderGetRightLocalip (net : RouterNet) (iface : Nat) (dst : BitVec 32) : BitVec 32 :=
  match (net.router.addressList iface).find? (fun cur => cur.address &&& cur.netmask == dst &&& cur.netmask) with
  | some cur => cur.address
  | none => 0

def vderIpaddressIsLocal (net : RouterNet) (addr : BitVec 32) : Bool :=
  net.iflist.any (fun iface =>
    (net.router.addressList iface).any (fun cur => cur.address == addr || cur.address == dhcpPlaceholder))

def vderIpaddressIsBroadcast (net : RouterNet) (addr : BitVec 32) : Bool :=
  addr == BitVec.allOnes 32 ||
    net.iflist.any (fun iface =>
      (net.router.addressList iface).any (fun cur =>
        cur.address &&& cur.netmask == addr &&& cur.netmask && cur.netmask ||| addr == BitVec.allOnes 32))

def vderSendto (net : RouterNet) (iface : Nat) (vb : VdeBuff) (dst : Mac) : RouterCall :=
  .enqueue iface { vb with data := storeMac (storeMac vb.data 0 dst) 6 (net.macaddr iface) }

def checksumSum (mem : Mem) (off len : Nat) : BitVec 32 :=
  (List.range len).foldl
    (fun sum i =>
      let b := BitVec.ofNat 32 (mem (off + i)).toNat
      if i % 2 = 1 then sum + b else sum + b <<< 8)
    0

def netChecksum (mem : Mem) (off len : Nat) : BitVec 16 :=
  let sum := checksumSum mem off len
  let carry := (sum &&& 0xFFFF0000) >>> 16
  (~~~((sum &&& 0x0000FFFF) + carry)).setWidth 16

def setIpChecksum (data : Mem) : Mem :=
  let data := store16 data 24 0
  store16 data 24 (ntohs (netChecksum data 14 20))

def writeIpHeader (vdb : VdeBuff) (dstIp : BitVec 32) (protocol : BitVec 8) : Mem :=
  let data := store16 vdb.data 12 (ntohs PTYPE_IP)
  let data := store8 data 14 0x45
  let data := store8 data 15 0
  let data := store16 data 20 (ntohs 0x4000)
  let data := store16 data 16 (ntohs (BitVec.ofNat 16 vdb.len - 14))
  let data := store16 data 18 0
  let data := store8 data 23 ⟨protocol⟩
  let data := store8 data 22 ⟨DEFAULT_TTL⟩
  store32 data 30 dstIp

def Route.nextHop (ro : Route) (dstIp : BitVec 32) : BitVec 32 := if ro.gateway ≠ 0 then ro.gateway else dstIp

def vderPacketSend (net : RouterNet) (vdb : VdeBuff) (dstIp : BitVec 32) (protocol : BitVec 8) :
    Int × List RouterCall :=
  let data := writeIpHeader vdb dstIp protocol
  match vderGetRoute net.router.routingTable dstIp with
  | none => (-1, [])
  | some ro =>
    let destination := ro.nextHop dstIp
    let data := setIpChecksum (store32 data 26 (vderGetRightLocalip net ro.iface destination))
    match vderGetArpEntry (net.arpTable ro.iface) destination with
    | none => (-1, [.arpQuery ro.iface destination])
    | some ae =>
      (0, [vderSendto net ro.iface { vdb with data := data } ((net.arpTable ro.iface).entries ae).macaddr])

def vderIpDecreaseTtl (vdb : VdeBuff) : Bool × VdeBuff :=
  let data := store8 vdb.data 22 ⟨vdb.ttl - 1⟩
  let vdb := { vdb with data := store16 data 24 (vdb.check + 1) }
  (vdb.ttl < 1, vdb)

def vderIpInput (net : RouterNet) (vb : VdeBuff) : Bool × List RouterCall :=
  let isBroadcast := vderIpaddressIsBroadcast net vb.daddr
  if !vderIpaddressIsLocal net vb.daddr && !isBroadcast then (false, [])
  else
    let (recvd, calls) :=
      if vb.protocol = PROTO_ICMP then (true, [RouterCall.icmpRecv vb])
      else if vb.protocol = PROTO_UDP then (net.udpPorts.contains vb.transportDport, [.udpRecv vb])
      else (false, [])
    (true, calls ++ if !recvd && !isBroadcast then [.icmpSend vb.saddr .protocolUnreachable vb.footprint] else [])

/-- The end of `vder_packet_recv` for a packet that is not for the router. The array that holds the
footprint is shorter in the source than what is copied into it; here it has the room. -/
def forwardPacket (net : RouterNet) (packet : VdeBuff) : List RouterCall :=
  let sender := packet.saddr
  let foot := packet.footprint
  let (overdue, packet) := vderIpDecreaseTtl packet
  if overdue then [.icmpSend sender .ttlExpired foot]
  else
    let (ret, calls) := vderPacketSend net packet packet.daddr packet.protocol
    if ret < 0 then calls ++ [.icmpSend sender .hostUnreachable foot] else calls

/-- The packet buffer that `vder_packet_recv` allocates; `heap` is what `malloc` finds in its memory. -/
def copyPacket (heap : Mem) (vb : VdeBuff) : VdeBuff :=
  { vb with data := memcpy heap 0 (readBytes vb.data 0 vb.len), priority := PRIO_BESTEFFORT }

def handlePacket (net : RouterNet) (packet : VdeBuff) : List RouterCall :=
  let (forUs, calls) := vderIpInput net packet
  if forUs then calls else forwardPacket net packet

/-- `vder_packet_recv` for a frame that `vder_recv` has stored in `vb`; `alloc` tells whether there is memory. The copy
of 28 bytes into `foot[16]` goes 12 bytes over its end; the model supposes that these belong to nothing else. -/
def vderPacketRecv (alloc : Bool) (heap : Mem) (vif : Nat) (vb : VdeBuff) (net : RouterNet) :
    RouterNet × List RouterCall :=
  let vb := { vb with src := vif }
  let dst := loadMac vb.data 0
  if dst ≠ net.macaddr vif ∧ dst ≠ macBroadcast then (net, [])
  else if ntohs (load16 vb.data 12) = PTYPE_ARP then
    let (table, reply) := vderParseArp alloc (net.macaddr vif) vb (net.arpTable vif)
    ({ net with arpTable := fun i => if i = vif then table else net.arpTable i },
      reply.toList.map (fun r => vderSendto net vif r.1 r.2))
  else if ntohs (load16 vb.data 12) = PTYPE_IP then
    let (stopped, vb, table, calls) := vderFilter vb net.filteringTable
    let net := { net with filteringTable := table }
    if stopped || !alloc then (net, calls) else (net, calls ++ handlePacket net (copyPacket heap vb))
  else (net, [])

end Vde
