import Vde.Lib.CInt
import Vde.RouterPacket

/-!
# vde_router: UDP sockets

A datagram is built with its header counted twice: the buffer is longer by the eight bytes of a header than the
packet needs, and as many bytes behind the data are copied into it. The receiver copies as many bytes as the length
in the header says, or as the caller has room for.
-/

namespace Vde

def vderPacketBroadcast (net : RouterNet) (vdb : VdeBuff) (iface : Nat) (dstIp : BitVec 32) (protocol : BitVec 8) :
    RouterCall :=
  let data := writeIpHeader vdb dstIp protocol
  let saddr := if dstIp ≠ BitVec.allOnes 32 then vderGetRightLocalip net iface dstIp else 0
  vderSendto net iface { vdb with data := setIpChecksum (store32 data 26 saddr) } macBroadcast

/-- The packet buffer of `vder_udpsocket_sendto` and `vder_udpsocket_sendto_broadcast`, with `len` already enlarged;
`heap` is what `malloc` finds in its memory, and `data` the memory from the caller's data on. -/
def udpDatagram (heap : Mem) (port : BitVec 16) (data : Mem) (len : Nat) (dstport : BitVec 16) : VdeBuff :=
  let datagram := memcpy heap 42 (readBytes data 0 len)
  let datagram := store16 datagram 34 port
  let datagram := store16 datagram 36 dstport
  let datagram := store16 datagram 38 (ntohs (BitVec.ofNat 16 len))
  { len := 42 + len
    src := 0 -- a null pointer, which nobody looks at
    priority := PRIO_BESTEFFORT
    data := store16 datagram 40 0 }

def vderUdpsocketSendto (net : RouterNet) (alloc : Bool) (heap : Mem) (port : BitVec 16) (data : Mem) (len : Nat)
    (dst : BitVec 32) (dstport : BitVec 16) : CallResult × List RouterCall :=
  if len = 0 then (⟨-1, some .einval⟩, [])
  else
    let len := len + 8
    if (vderGetRoute net.router.routingTable dst).isNone then (⟨-1, some .ehostunreach⟩, [])
    else if alloc = false then (⟨-1, none⟩, [])
    else (⟨toInt32 len, none⟩, (vderPacketSend net (udpDatagram heap port data len dstport) dst PROTO_UDP).2)

def vderUdpsocketSendtoBroadcast (net : RouterNet) (alloc : Bool) (heap : Mem) (port : BitVec 16) (data : Mem)
    (len : Nat) (iface : Nat) (dst : BitVec 32) (dstport : BitVec 16) : CallResult × List RouterCall :=
  if len = 0 then (⟨-1, some .einval⟩, [])
  else
    let len := len + 8
    if alloc = false then (⟨-1, none⟩, [])
    else (⟨toInt32 len, none⟩, [vderPacketBroadcast net (udpDatagram heap port data len dstport) iface dst PROTO_UDP])

namespace VdeBuff

def udpLen (b : VdeBuff) : Nat := (ntohs (load16 b.data 38)).toNat

end VdeBuff

/-- What `vder_udpsocket_recvfrom` hands out of a packet: its result, the number of bytes that `memcpy` moves from
behind the header to the caller's buffer, and the port. -/
structure UdpReceipt where
  ret : Int
  copied : Nat
  fromport : BitVec 16

def udpCopyLen (b : VdeBuff) (len : Nat) : Nat := if b.udpLen < len then toSize ((b.udpLen : Int) - 8) else len

inductive UdpRecv where
  | failed (r : CallResult)
  | nothing
  | blocked
  | received (r : UdpReceipt)

/-- `vder_udpsocket_recvfrom`; `inq` is what the socket holds when the waiting is over. -/
def vderUdpsocketRecvfrom (inq : List VdeBuff) (len : Nat) (timeout : Int) : UdpRecv × List VdeBuff :=
  if len = 0 then (.failed ⟨-1, some .einval⟩, inq)
  else
    match inq with
    | [] => (if timeout < 0 then .blocked else .nothing, [])
    | b :: inq =>
      let n := udpCopyLen b len
      (.received { ret := toInt32 n, copied := n, fromport := load16 b.data 34 }, inq)

end Vde
