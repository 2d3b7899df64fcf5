import Vde.Packet

/-!
# vde_vxlan

A gateway between a local switch and the gateways of a VXLAN. A frame of the switch goes out in a
datagram, to the gateway behind which its destination was seen or to a multicast group; a datagram
of the same network goes to the switch. The table is that of the switch in a copy of its own, with an
address in the place of the port: 1 stands for the local switch, 0 is not found.
-/

namespace Vde.Vxlan

def vxlanPktSize : Nat := 1526
def pktAt : Nat := 8
def ethPktSize : Nat := 1518

def ntoh24 (mem : Mem) (off : Nat) : BitVec 32 :=
  (mem off).toBitVec.setWidth 32 <<< 16 ||| (mem (off + 1)).toBitVec.setWidth 32 <<< 8 |||
    (mem (off + 2)).toBitVec.setWidth 32

def hton24 (mem : Mem) (off : Nat) (v : BitVec 32) : Mem :=
  memcpy mem off [⟨v.extractLsb' 16 8⟩, ⟨v.extractLsb' 8 8⟩, ⟨v.extractLsb' 0 8⟩]

/-- The options, the table and the time of the last collection. `vxlanAddr` is as in memory, in network
order, like all addresses. -/
structure Gateway where
  vxlanId : BitVec 32
  vxlanAddr : BitVec 32
  hash : HashTable
  lastT : Int

/-- What a handler hands to the system: a frame for `vde_send`, or a datagram for `sendto` and its
address. The length is a `size_t`. -/
inductive Output where
  | vdeSend (data : Mem) (len : Nat)
  | sendto (addr : BitVec 32) (data : Mem) (len : Nat)

def Gateway.vlan (g : Gateway) : Nat := (g.vxlanId.signExtend 64).toNat

def Gateway.findInHash (g : Gateway) (dst : BitVec 48) : BitVec 32 :=
  BitVec.ofNat 32 ((Vde.findInHash g.hash dst g.vlan).getD 0)

def Gateway.findInHashUpdate (g : Gateway) (malloc : Option Nat) (now : Int) (src : BitVec 48)
    (port : BitVec 32) : Gateway :=
  { g with hash := (Vde.findInHashUpdate malloc now src g.vlan port.toNat g.hash).2 }

def isBroadcast (mem : Mem) (off : Nat) : Bool :=
  mem off == 0xFF && mem (off + 1) == 0xFF && mem (off + 2) == 0xFF && mem (off + 3) == 0xFF &&
    mem (off + 4) == 0xFF && mem (off + 5) == 0xFF

def vxlanSend (g : Gateway) (addr : BitVec 32) (pkt : Mem) (len : Nat) : Output :=
  let pkt := memcpy pkt 0 (List.replicate pktAt 0)
  let pkt := memcpy pkt 0 [8]
  .sendto (if addr ≠ 0 then addr else g.vxlanAddr) (hton24 pkt 4 g.vxlanId) (len + pktAt)

def plugSend (pkt : Mem) (len : Nat) : Output := .vdeSend (fun i => pkt (pktAt + i)) len

/-- `plug_process` on a frame that `vde_recv` finds, in a buffer with old contents. The call may store as
many bytes as the whole structure has; `none` is a frame that does not fit in behind the header. -/
def plugProcess (g : Gateway) (stale : Mem) (frame : List UInt8) (malloc : Option Nat) (now : Int) :
    Option (Gateway × List Output) :=
  let frame := frame.take vxlanPktSize
  if ethPktSize < frame.length then none
  else
    let pkt := memcpy stale pktAt frame
    let nx := frame.length
    let g := g.findInHashUpdate malloc now (macAt pkt (pktAt + 6)) 1
    if isBroadcast pkt pktAt then some (g, [vxlanSend g 0 pkt nx])
    else
      let destAddr := g.findInHash (macAt pkt pktAt)
      if destAddr = 0 then some (g, [vxlanSend g 0 pkt nx])
      else if 1 < destAddr then some (g, [vxlanSend g destAddr pkt nx])
      else some (g, [])

/-- A datagram from another gateway, whose address is learned for the source of the frame. -/
def vxlanProcess (g : Gateway) (stale : Mem) (srcAddr : BitVec 32) (datagram : List UInt8)
    (malloc : Option Nat) (now : Int) : Gateway × List Output :=
  let datagram := datagram.take vxlanPktSize
  let pkt := memcpy stale 0 datagram
  -- the length of the frame is a difference of size_t values
  let len := (datagram.length + 2 ^ 64 - pktAt) % 2 ^ 64
  if pkt 0 ≠ 8 then (g, [])
  else if ntoh24 pkt 4 ≠ g.vxlanId then (g, [])
  else
    let g := g.findInHashUpdate malloc now (macAt pkt (pktAt + 6)) srcAddr
    if isBroadcast pkt pktAt then (g, [plugSend pkt len])
    else
      let destAddr := g.findInHash (macAt pkt pktAt)
      if destAddr = 0 ∨ destAddr = 1 then (g, [plugSend pkt len]) else (g, [])

/-- `hash_gc`, at the end of each turn of the main loop. -/
def hashGc (now : Int) (g : Gateway) : Gateway :=
  if 2 < now - g.lastT then { g with hash := Vde.hashGc now g.hash, lastT := now } else g

def gatewayInit (vxlanId vxlanAddr : BitVec 32) : Gateway :=
  { vxlanId := vxlanId, vxlanAddr := vxlanAddr, hash := hashInit 128, lastT := 0 }

end Vde.Vxlan
