import Vde.Port

/-!
# The packet path

`handle_in_packet` and the rewriting of packets between their tagged and untagged forms. A packet
lies in a `bipacket` buffer, four bytes after its start, so that there is room for a tag. What is
in the buffer past the received bytes is not initialised.
-/

namespace Vde

def ethHeaderSize : Nat := 14

def sizeofPacket : Nat := 1518

def packetOffset : Nat := 4

structure Packet where
  mem : Mem
  off : Nat
  len : Int

def Packet.bytes (p : Packet) : List UInt8 := readBytes p.mem p.off p.len.toNat

def tag2untag (p : Packet) : Packet :=
  { mem := memmove p.mem (p.off + 4) p.off 12
    off := p.off + 4
    len := p.len - 4 }

/-- `UNTAG2TAG`; the tag is written over the end of the old source address. -/
def untag2tag (vlan : Nat) (p : Packet) : Packet :=
  let mem := memmove p.mem (p.off - 4) p.off 12
  { mem := memcpy mem (p.off + 8) [0x81, 0x00, UInt8.ofNat (vlan >>> 8), UInt8.ofNat vlan]
    off := p.off - 4
    len := p.len + 4 }

/-- The address at offset `off`, with its first byte lowest. -/
def macAt (mem : Mem) (off : Nat) : BitVec 48 :=
  (mem (off + 5)).toBitVec ++ (mem (off + 4)).toBitVec ++ (mem (off + 3)).toBitVec ++
    (mem (off + 2)).toBitVec ++ (mem (off + 1)).toBitVec ++ (mem off).toBitVec

def isBroadcast (mem : Mem) (off : Nat) : Bool := mem off &&& 1 == 1

def isBpdu (p : Packet) : Bool := memcmp (readBytes p.mem p.off 6) bpduaddr == 0

def Packet.isTagged (p : Packet) : Bool := p.mem (p.off + 12) == 0x81 && p.mem (p.off + 13) == 0x00

def Packet.tagVlan (p : Packet) : Nat :=
  ((p.mem (p.off + 14)).toNat <<< 8 + (p.mem (p.off + 15)).toNat) &&& 0xfff

def ingressVlan (port : Nat) (pt : Port) (p : Packet) (s : Switch) : Option Nat :=
  if p.isTagged then
    if s.check .table p.tagVlan port then some p.tagVlan else none
  else if pt.vlanuntag = noVlan then none
  else some pt.vlanuntag

def floodPorts (t : Tab) (vlan port : Nat) (packet : List UInt8) (s : Switch) : Switch :=
  s.forPorts t vlan (fun i s => if i ≠ port then sendPacketPort i packet s else s)

/-- A packet without a known destination, first in the form in which it came. -/
def flood (vlan port : Nat) (p : Packet) (s : Switch) : Switch :=
  if p.isTagged then
    floodPorts .bcuntag vlan port (tag2untag p).bytes (floodPorts .bctag vlan port p.bytes s)
  else
    floodPorts .bctag vlan port (untag2tag vlan p).bytes (floodPorts .bcuntag vlan port p.bytes s)

def unicast (vlan port tarport : Nat) (p : Packet) (s : Switch) : Switch :=
  if tarport = port then s
  else
    match s.portv tarport with
    | none => s.crash
    | some target =>
      let p' :=
        if p.isTagged then if target.vlanuntag = vlan then tag2untag p else p
        else if target.vlanuntag = vlan then p else untag2tag vlan p
      sendPacketPort tarport p'.bytes s

/-- What follows the tests of `handle_in_packet`: learn the source, then send. `malloc` is the
address of a new entry of the table, if one is needed. -/
def switchPacket (malloc : Option Nat) (vlan port : Nat) (p : Packet) (s : Switch) : Switch :=
  let s :=
    if isBroadcast p.mem (p.off + 6) then s
    else { s with hash := (findInHashUpdate malloc s.now (macAt p.mem (p.off + 6)) vlan port s.hash).2 }
  if isBroadcast p.mem p.off then flood vlan port p s
  else
    match findInHash s.hash (macAt p.mem p.off) vlan with
    | none => flood vlan port p s
    | some tarport => unicast vlan port tarport p s

def hubPacket (port : Nat) (p : Packet) (s : Switch) : Switch :=
  (List.range' 1 (s.numports - 1)).foldl (fun s i =>
    if i ≠ port ∧ (s.portv i).isSome then sendPacketPort i p.bytes s else s) s

/-- A hub sends every frame to all; a switch learns the source and looks for the destination in the VLAN of the frame. -/
def handleInPacket (malloc : Option Nat) (port : Nat) (p : Packet) (s : Switch) : Switch :=
  if s.hub then hubPacket port p s
  else
    match s.portv port with
    | none => s.crash
    | some pt =>
      match ingressVlan port pt p s with
      | none => s
      | some vlan =>
        if isBpdu p && s.fstp then fstInBpdu port p.mem p.off p.len.toNat vlan p.isTagged s
        else if s.check .notlearning vlan port then s
        else switchPacket malloc vlan port p s

/-- The packet that `handle_io` passes on after `recv` has written `frame` in its buffer, which
held `stack` before. Shorter packets than a header are dropped. -/
def recvPacket (stack : Mem) (frame : List UInt8) : Packet :=
  ⟨memcpy stack packetOffset frame, packetOffset, frame.length⟩

end Vde
