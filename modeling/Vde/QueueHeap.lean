import Vde.Lib.NextChain
import Vde.OverNs

/-!
# The queries that wait for an answer

The server keeps the queries it has received, with their names, until it has data for an answer.
`nstx_getpacket` takes the first name of a datagram that is a DNS packet and queues it.
-/

namespace Vde

/-- `struct nstxqueue`, without the link to the next one. -/
structure NstxQueue where
  id : Nat
  timeout : Int
  name : Block UInt8
  peer : Nat

def queueNameSize : Nat := 257

def strcpy (dst : Block UInt8) (src : List UInt8) : Option (Block UInt8) :=
  dst.storeList 0 (cString src ++ [0])

def finditem (id : Nat) (queue : List NstxQueue) : Option NstxQueue := queue.find? (fun q => q.id == id)

def nameField : Option (List UInt8) → Option (Block UInt8)
  | some name => strcpy ⟨queueNameSize, fun _ => 0⟩ name
  | none => some ⟨queueNameSize, fun _ => 0⟩

/-- `queueitem`; a `NULL` pointer is `none`. There is no result if the name is copied past the end of
its field. -/
def queueitem (id : Nat) (name : Option (List UInt8)) (peer : Option Nat) (now qtimeout : Int)
    (queue : List NstxQueue) : Option (List NstxQueue) :=
  if (finditem id queue).isSome then some queue
  else (nameField name).map (fun field => queue ++ [⟨id, now + qtimeout, field, peer.getD 0⟩])

def dnsGetquerydata (pkt : DnsPkt) : Option (List UInt8) × DnsPkt :=
  match pkt.query with
  | [] => (none, pkt)
  | q :: query => (q.data, { pkt with query := query })

def queryPassed (buf : List UInt8) : Except Fault (Option (Nat × List UInt8)) := do
  match ← dnsExtractpkt buf with
  | (_, none) => return none
  | (_, some pkt) => return (dnsGetquerydata pkt).1.map (fun name => (pkt.id, name))

def queueQuery (buf : List UInt8) (peer : Nat) (now qtimeout : Int) (queue : List NstxQueue) :
    Except Fault (Option (List NstxQueue)) := do
  match ← queryPassed buf with
  | none => return some queue
  | some (id, name) => return queueitem id (some name) (some peer) now qtimeout queue

/-!
## In memory

The records of the queue are linked by `next`, `0` is `NULL`. `dequeueitem` leaves the record it returns
allocated until its next call. A result is missing where a record is used or freed that is not allocated, where
a name is copied past the end of its field, and where a loop does not end.
-/

structure QueueItem extends NstxQueue where
  next : Nat

def clearedItem : QueueItem := ⟨⟨0, 0, ⟨queueNameSize, fun _ => 0⟩, 0⟩, 0⟩

/-- `qhead` and `qlen`, the `tmp` of `dequeueitem`, and the records that are allocated. -/
structure QueueHeap where
  items : Nat → QueueItem
  allocated : List Nat
  qhead : Nat
  qlen : Int
  tmp : Nat

def queueHeapInit : QueueHeap := ⟨fun _ => clearedItem, [], 0, 0, 0⟩

namespace QueueHeap

def next (s : QueueHeap) (a : Nat) : Nat := (s.items a).next

def setNext (ptr n : Nat) (s : QueueHeap) : QueueHeap :=
  { s with items := Function.update s.items ptr ⟨(s.items ptr).toNstxQueue, n⟩ }

/-- The other fields of a record. -/
def setItem (ptr : Nat) (item : NstxQueue) (s : QueueHeap) : QueueHeap :=
  { s with items := Function.update s.items ptr ⟨item, s.next ptr⟩ }

def isLive (s : QueueHeap) (a : Nat) : Bool := decide (a ∈ s.allocated)

/-- A loop over the queue that comes by more records than there are goes around in circles. -/
def turns (s : QueueHeap) : Nat := s.allocated.length + 1

def finditem (id : Nat) (s : QueueHeap) : Option Nat :=
  walkChain s.isLive s.next (fun a => (s.items a).id == id) s.turns s.qhead

def link (ptr : Nat) (s : QueueHeap) : Option QueueHeap :=
  if s.qhead = 0 then some { s with qhead := ptr }
  else
    (walkChain s.isLive s.next (fun a => s.next a == 0) s.turns s.qhead).map (fun tmp => s.setNext tmp ptr)

def queueitem (qtimeout now : Int) (ptr id : Nat) (name : Option (List UInt8)) (peer : Option Nat) (s : QueueHeap) :
    Option QueueHeap := do
  let found ← s.finditem id
  if found ≠ 0 then return s
  else
    let s := { s with
      qlen := s.qlen + 1
      allocated := ptr :: s.allocated
      items := Function.update s.items ptr clearedItem }
    let s ← s.link ptr
    let field ← nameField name
    return s.setItem ptr ⟨id, now + qtimeout, field, peer.getD 0⟩

/-- `queueid`; its argument becomes an `unsigned short`. -/
def queueid (qtimeout now : Int) (ptr id : Nat) (s : QueueHeap) : Option QueueHeap :=
  s.queueitem qtimeout now ptr (id % 65536) none none

def free (a : Nat) (s : QueueHeap) : Option QueueHeap :=
  if a ∈ s.allocated then some { s with allocated := s.allocated.erase a } else none

def freeTmp (s : QueueHeap) : Option QueueHeap := if s.tmp ≠ 0 then s.free s.tmp else some s

def unlinkLoop (id : Int) : Nat → Nat → Nat → QueueHeap → Option (QueueHeap × Nat)
  | 0, _, _, _ => none
  | turns + 1, ptr, tmp, s =>
    if tmp = 0 then some (s, 0)
    else if s.isLive tmp then
      if (s.items tmp).id = id then
        some ({ s.setNext ptr (s.next tmp) with qlen := s.qlen - 1 }, tmp)
      else unlinkLoop id turns tmp (s.next tmp) s
    else none

/-- `dequeueitem`, with the record it returns. -/
def dequeueitem (id : Int) (s : QueueHeap) : Option (QueueHeap × Nat) :=
  if s.qhead = 0 then some (s, 0)
  else do
    let s ← s.freeTmp
    if s.isLive s.qhead then
      if id < 0 ∨ (s.items s.qhead).id = id then
        return ({ s with tmp := s.qhead, qhead := s.next s.qhead, qlen := s.qlen - 1 }, s.qhead)
      else
        let r ← unlinkLoop id s.turns s.qhead (s.next s.qhead) s
        return ({ r.1 with tmp := r.2 }, r.2)
    else none

def timeoutLoop (now : Int) : Nat → QueueHeap → Option (QueueHeap × List NstxQueue)
  | 0, _ => none
  | turns + 1, s =>
    if s.qhead = 0 then some (s, [])
    else if s.isLive s.qhead then
      if (s.items s.qhead).timeout ≤ now then do
        let item := (s.items s.qhead).toNstxQueue
        let s ← { s with qhead := s.next s.qhead, qlen := s.qlen - 1 }.free s.qhead
        let r ← timeoutLoop now turns s
        return (r.1, item :: r.2)
      else some (s, [])
    else none

def timeoutqueue (now : Int) (s : QueueHeap) : Option (QueueHeap × List NstxQueue) := timeoutLoop now s.turns s

end QueueHeap

/-- The calls; an identifier is an `unsigned short`, and `ptr` is what `malloc` would return. -/
inductive NsQueueEvent where
  | queueitem (now : Int) (ptr id : Nat) (name : Option (List UInt8)) (peer : Option Nat)
  | queueid (now : Int) (ptr id : Nat)
  | dequeueitem (id : Int)
  | timeoutqueue (now : Int)

structure NsQueueRun where
  heap : QueueHeap
  clock : Int
  fault : Bool

def NsQueueEvent.result (qtimeout : Int) (s : QueueHeap) : NsQueueEvent → Option QueueHeap
  | .queueitem now ptr id name peer => s.queueitem qtimeout now ptr (id % 65536) name peer
  | .queueid now ptr id => s.queueid qtimeout now ptr id
  | .dequeueitem id => (s.dequeueitem id).map Prod.fst
  | .timeoutqueue now => (s.timeoutqueue now).map Prod.fst

def NsQueueEvent.time (clock : Int) : NsQueueEvent → Int
  | .queueitem now _ _ _ _ => now
  | .queueid now _ _ => now
  | .dequeueitem _ => clock
  | .timeoutqueue now => now

def nsQueueStep (qtimeout : Int) (s : NsQueueRun) (e : NsQueueEvent) : NsQueueRun :=
  match e.result qtimeout s.heap with
  | some heap => { s with heap := heap, clock := e.time s.clock }
  | none => { s with fault := true }

/-- The clock does not go back, and `malloc` returns a record that is not in use. -/
def NsQueueEvent.Legal (s : NsQueueRun) (e : NsQueueEvent) : Prop :=
  s.clock ≤ e.time s.clock ∧ match e with
    | .queueitem _ ptr _ _ _ => ptr ≠ 0 ∧ ptr ∉ s.heap.allocated
    | .queueid _ ptr _ => ptr ≠ 0 ∧ ptr ∉ s.heap.allocated
    | _ => True

def nsQueueMachine (qtimeout : Int) : Machine NsQueueRun NsQueueEvent :=
  ⟨fun s e => e.Legal s, nsQueueStep qtimeout⟩

def nsQueueInit (clock : Int) : NsQueueRun := ⟨queueHeapInit, clock, false⟩

def drqlen : Int := 10

/-- How the loop of the client that sends empty packets ends: with enough queries, by `exit`, by a `memcpy` of a
negative length (in the second turn of the call, as the `NULL` pointer of the first is not copied from), or by a fault
of the queue. -/
inductive RefillEnd where
  | full (s : QueueHeap)
  | exited
  | badCopy
  | faulted
  | running

/-- The loop `while (queuelen() < DRQLEN) nstxc_send_packet(NULL, 0)`, with the time, the bytes behind the fragment and
what `malloc` returns in each turn. -/
def refillLoop (qtimeout : Int) (suf : List UInt8) (chan : Nat) (now : Nat → Nat) (behind : Nat → UInt8 × UInt8)
    (malloc : Nat → QueueHeap → Nat) : Nat → Nat → NsClient → QueueHeap → RefillEnd
  | 0, _, _, _ => .running
  | turns + 1, k, c, s =>
    if s.qlen < drqlen then
      match nstxcSendPacket 1 suf c (now k) chan (fun _ => behind k) [] with
      | .sent _ nsid =>
        match s.queueid qtimeout (now k) (malloc k s) c.nsid with
        | some s => refillLoop qtimeout suf chan now behind malloc turns (k + 1) ⟨c.nextId (now k) + 1, nsid⟩ s
        | none => .faulted
      | .noSpace => .exited
      | .badCopy => .badCopy
      | .running => .running
    else .full s

end Vde
