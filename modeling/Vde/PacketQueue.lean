import Vde.Lib.RingList
import Vde.PollTable

/-!
# Packet queues

With `VDE_PQ2` every endpoint has a queue for the packets that its sender would block on. The
queues are circular lists held by their tail; a packet that waits at several endpoints is stored
once, in a buffer that counts the elements referring to it.
-/

namespace Vde

open Function

/-- `struct packetbuf` with the packet behind it, `len` bytes long; `count` is a `short`. -/
structure PacketBuf where
  packet : List UInt8
  count : Int
  deriving DecidableEq, Repr

abbrev BufHeap := Nat → Option PacketBuf

structure PqHeap where
  elems : RingHeap Nat
  bufs : BufHeap

structure Malloc where
  elem : Nat → RingHeap Nat → Option Nat
  buf : Nat → BufHeap → Option Nat
  elem_free : ∀ i h a, elem i h = some a → h a = none
  buf_free : ∀ i h a, buf i h = some a → h a = none

structure PqAdded where
  heap : PqHeap
  tail : Option Nat
  tmp : Option Nat
  added : Nat

def tmpBuf (m : Malloc) (i : Nat) (bufs : BufHeap) (packet : List UInt8) (tmp : Option Nat) :
    Option (Nat × BufHeap) :=
  match tmp with
  | some b => some (b, bufs)
  | none => (m.buf i bufs).map (fun b => (b, update bufs b (some ⟨packet, 0⟩)))

def vdepqAdd (m : Malloc) (i : Nat) (h : PqHeap) (tail : Option Nat) (packet : List UInt8)
    (tmp : Option Nat) : PqAdded :=
  match m.elem i h.elems with
  | none => ⟨h, tail, tmp, 0⟩
  | some newelem =>
    match tmpBuf m i h.bufs packet tmp with
    | none => ⟨h, tail, none, 0⟩
    | some (b, bufs) =>
      let bufs := update bufs b
        ((bufs b).map (fun pb => { pb with count := (pb.count + 1).bmod 65536 }))
      ⟨⟨ringAdd h.elems tail newelem b, bufs⟩, some newelem, some b, 1⟩

def packetbufDel (bufs : BufHeap) (b : Nat) : BufHeap :=
  match bufs b with
  | none => bufs
  | some pb =>
    let count := (pb.count - 1).bmod 65536
    if count = 0 then update bufs b none
    else update bufs b (some { pb with count := count })

/-- `first->vdepq_pb` for the queue with tail `t`. -/
def firstBuf (h : PqHeap) (t : Nat) : Nat := ((h.elems (ringNext h.elems t)).map RingCell.val).getD 0

def bufPacket (bufs : BufHeap) (b : Nat) : List UInt8 := ((bufs b).map PacketBuf.packet).getD []

def deleteFirst (h : PqHeap) (t : Nat) : PqHeap × Option Nat :=
  let r := ringDrop h.elems t
  (⟨r.1, packetbufDel h.bufs (firstBuf h t)⟩, r.2)

/-- `vdepq_del`; a queue of `turns` elements is empty afterwards. -/
def vdepqDel : Nat → PqHeap → Option Nat → PqHeap × Option Nat
  | turns + 1, h, some t =>
    let r := deleteFirst h t
    vdepqDel turns r.1 r.2
  | _, h, tail => (h, tail)

structure PqTried where
  heap : PqHeap
  tail : Option Nat
  sent : List (List UInt8)

/-- `vdepq_try`, for a queue of at most `turns` elements; `blocks i` says whether call `i` of the
sender returns `-EWOULDBLOCK`. -/
def vdepqTry (blocks : Nat → Bool) : Nat → Nat → PqHeap → Option Nat → PqTried
  | turns + 1, i, h, some t =>
    if blocks i then ⟨h, some t, []⟩
    else
      let packet := bufPacket h.bufs (firstBuf h t)
      let r := deleteFirst h t
      let rest := vdepqTry blocks turns (i + 1) r.1 r.2
      { rest with sent := packet :: rest.sent }
  | _, _, h, tail => ⟨h, tail, []⟩

/-- The history of a packet offered to an endpoint: what the queue held and could hold, whether
`vdepq_add` failed, and whether the packet was neither sent nor queued. -/
structure QueueOffer where
  packet : List UInt8
  count : Int
  max : Int
  refused : Bool
  skipped : Bool
  deriving DecidableEq, Repr

/-- The fields of `struct endpoint` that the queues are about, with its address and two histories:
the packets offered, and those that the sender took (with success or an error, but not
`-EWOULDBLOCK`). -/
structure PqEndpoint where
  id : Nat
  fdCtl : Nat
  fdData : Nat
  vdepq : Option Nat
  vdepqCount : Int
  vdepqMax : Int
  offers : List QueueOffer
  taken : List (List UInt8)
  deriving DecidableEq, Repr

structure PqState where
  heap : PqHeap
  eps : List PqEndpoint
  poll : PollTable

def pollOut : BitVec 16 := 0x0004#16

def PqState.ep (s : PqState) (id : Nat) : Option PqEndpoint := s.eps.find? (fun e => e.id == id)

def setEp (ep : PqEndpoint) (eps : List PqEndpoint) : List PqEndpoint :=
  eps.map (fun e => if e.id = ep.id then ep else e)

/-- What `SEND_PACKET_PORT` does with an endpoint that has packets waiting or would block, once the
packet was added to its queue or not. -/
def queuePacket (packet : List UInt8) (r : PqAdded) (s : PqState) (ep : PqEndpoint) : PqState :=
  let count := ep.vdepqCount + r.added
  let offer : QueueOffer :=
    { packet := packet, count := ep.vdepqCount, max := ep.vdepqMax
      refused := decide (ep.vdepqCount < ep.vdepqMax) && decide (r.added = 0)
      skipped := decide (r.added = 0) }
  { heap := r.heap
    eps := setEp { ep with vdepq := r.tail, vdepqCount := count, offers := ep.offers ++ [offer] } s.eps
    poll := if count = 1 then mainloopPollmaskAdd ep.fdData pollOut s.poll else s.poll }

def sendEndpoint (m : Malloc) (blocks : Nat → Bool) (packet : List UInt8) (i : Nat) (tmp : Option Nat)
    (s : PqState) (ep : PqEndpoint) : PqState × Option Nat :=
  if ep.vdepqCount ≠ 0 ∨ blocks i = true then
    let r : PqAdded := if ep.vdepqCount < ep.vdepqMax then vdepqAdd m i s.heap ep.vdepq packet tmp
      else ⟨s.heap, ep.vdepq, tmp, 0⟩
    (queuePacket packet r s ep, r.tmp)
  else
    let offer : QueueOffer := ⟨packet, ep.vdepqCount, ep.vdepqMax, false, false⟩
    ({ s with eps := setEp { ep with offers := ep.offers ++ [offer], taken := ep.taken ++ [packet] } s.eps },
      tmp)

/-- `SEND_PACKET_PORT` for the endpoints of one port or, with the same `TMPBUF`, of several. -/
def sendPacketQueued (m : Malloc) (blocks : Nat → Bool) (packet : List UInt8) :
    Nat → Option Nat → List Nat → PqState → PqState
  | _, _, [], s => s
  | i, tmp, id :: ids, s =>
    match s.ep id with
    | none => sendPacketQueued m blocks packet (i + 1) tmp ids s
    | some ep =>
      let r := sendEndpoint m blocks packet i tmp s ep
      sendPacketQueued m blocks packet (i + 1) r.2 ids r.1

def handleOutPacket (blocks : Nat → Bool) (s : PqState) (ep : PqEndpoint) : PqState :=
  let r := vdepqTry blocks ep.vdepqCount.toNat 0 s.heap ep.vdepq
  let count := ep.vdepqCount - r.sent.length
  { heap := r.heap
    eps := setEp { ep with vdepq := r.tail, vdepqCount := count, taken := ep.taken ++ r.sent } s.eps
    poll := if count = 0 then mainloopPollmaskDel ep.fdData pollOut s.poll else s.poll }

def setqlenEp (s : PqState) (ep : PqEndpoint) (len : Nat) : PqState :=
  { s with eps := setEp { ep with vdepqMax := len } s.eps }

/-- `rec_close_ep` at the endpoint it finds; its descriptors are removed by `delep`. -/
def closeEp (s : PqState) (ep : PqEndpoint) : PqState :=
  { heap := (vdepqDel ep.vdepqCount.toNat s.heap ep.vdepq).1
    eps := s.eps.filter (fun e => !decide (e.id = ep.id))
    poll := removeFd ep.fdCtl (removeFd ep.fdData s.poll) }

/-- A new endpoint, as in `setup_ep`, whose data descriptor is added to the poll tables; `a` is the
address of its record there and `stdqlen` the length of its queue. -/
def openEp (s : PqState) (id fdCtl fdData : Nat) (type : BitVec 8) (a stdqlen : Nat) : PqState :=
  { s with
    eps := ⟨id, fdCtl, fdData, none, 0, stdqlen, [], []⟩ :: s.eps
    poll := addFd fdData type id a s.poll }

end Vde
