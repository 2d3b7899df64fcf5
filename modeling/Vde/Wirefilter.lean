import Vde.Lib.BinHeap
import Vde.Lib.CInt
import Vde.Lib.Machine
import Vde.Stream

/-!
# wirefilter

The filter between two wires. `splitpacket` cuts the bytes read from a wire into packets, each
with its two byte header, and calls `handle_packet` on them. Packets that have to wait stand in a
priority queue, ordered by the time they are due and by a counter; `packet_dequeue` writes those
whose time has come.
-/

namespace Vde

open Function

inductive Dir where
  | LR
  | RL
  deriving DecidableEq, Repr

def Dir.index : Dir → Nat
  | .LR => 0
  | .RL => 1

/-- The static variables of `splitpacket`. The array `fragment` is declared `[BUFSIZE][2]`, so
`fragment[dir]` starts `2 * dir` bytes into the block that both directions share; `fragp` holds
offsets in that block. -/
structure SplitState where
  fragment : Mem
  fragp : Dir → Nat
  rnx : Dir → Nat
  remaining : Dir → Nat

def splitInit : SplitState :=
  { fragment := fun _ => 0, fragp := fun _ => 0, rnx := fun _ => 0, remaining := fun _ => 0 }

def fragmentAt (dir : Dir) : Nat := 2 * dir.index

inductive SplitCall where
  | handlePacket (dir : Dir) (buf : List UInt8)
  | printlog (size rnx : Nat)
  deriving DecidableEq, Repr

/-- The bytes read from a wire: the `size` bytes of the chunk, and the byte that lies in memory
right behind them. -/
structure Chunk where
  buf : List UInt8
  after : UInt8
  deriving DecidableEq, Repr

/-- The `while (size > 0)` loop of `splitpacket`. With one byte left `buf[1]` is the byte behind
the chunk. A turn that goes on takes at least two bytes. -/
def splitLoop (dir : Dir) (after : UInt8) :
    Nat → SplitState → List UInt8 → List SplitCall × SplitState
  | fuel + 1, st, b0 :: buf =>
    let rnx := (b0.toNat <<< 8) + (buf.headD after).toNat
    let size := buf.length + 1
    if maxPacket < rnx then
      ([.printlog size rnx], { st with rnx := update st.rnx dir 0 })
    else if size < rnx + 2 then
      ([], { fragment := memcpy st.fragment (fragmentAt dir) (b0 :: buf)
             fragp := update st.fragp dir (fragmentAt dir + size)
             rnx := update st.rnx dir rnx
             remaining := update st.remaining dir (rnx + 2 - size) })
    else
      let r := splitLoop dir after fuel { st with rnx := update st.rnx dir 0 }
        ((b0 :: buf).drop (rnx + 2))
      (.handlePacket dir ((b0 :: buf).take (rnx + 2)) :: r.1, r.2)
  | _, st, _ => ([], st)

/-- The beginning of a packet that the chunk does not finish is kept in the buffer of its direction. -/
def splitpacket (dir : Dir) (st : SplitState) (c : Chunk) : List SplitCall × SplitState :=
  if c.buf.length = 0 then ([], st)
  else if 0 < st.rnx dir then
    let amount := min (st.remaining dir) c.buf.length
    let rest := c.buf.drop amount
    let st' : SplitState :=
      { st with
        fragment := memcpy st.fragment (st.fragp dir) (c.buf.take amount)
        remaining := update st.remaining dir (st.remaining dir - amount)
        fragp := update st.fragp dir (st.fragp dir + amount) }
    if st'.remaining dir = 0 then
      let r := splitLoop dir c.after rest.length
        { st' with rnx := update st'.rnx dir 0 } rest
      (.handlePacket dir (readBytes st'.fragment (fragmentAt dir) (st'.rnx dir + 2)) :: r.1, r.2)
    else splitLoop dir c.after rest.length st' rest
  else splitLoop dir c.after c.buf.length st c.buf

def splitChunks (dir : Dir) (st : SplitState) : List Chunk → List SplitCall × SplitState
  | [] => ([], st)
  | c :: cs =>
    let r := splitpacket dir st c
    let rs := splitChunks dir r.2 cs
    (r.1 ++ rs.1, rs.2)

def handled (calls : List SplitCall) : List (Dir × List UInt8) :=
  calls.filterMap (fun
    | .handlePacket dir buf => some (dir, buf)
    | .printlog _ _ => none)

/-- `struct packpq`. `buf` is the copy that `packet_enqueue` makes, so it has `size` bytes. -/
structure Packpq where
  when : Nat
  counter : Nat
  dir : Dir
  buf : List UInt8
  size : Nat
  deriving DecidableEq, Repr

def sentinel : Packpq := { when := 0, counter := 0, dir := .LR, buf := [], size := 0 }

def pqChunk : Nat := 100

/-- The comparison of times and, for the same time, of counters that the loops of the queue
make. -/
def Packpq.before (a b : Packpq) : Bool :=
  a.when < b.when || (a.when == b.when && a.counter < b.counter)

/-- The globals of the delay queue. `maxpq` is the number of pointers allocated for `pqh`, zero as
long as `pqh` is `NULL`; `fault` is set when an element is stored behind the last of them. -/
structure DelayQueue where
  pqh : Nat → Packpq
  npq : Nat
  maxpq : Nat
  maxwhen : Nat
  counter : Nat
  delayBufsize : Dir → Int
  nofifo : Bool
  fault : Bool

/-- The globals at the start, in the given mode. -/
def delayInit (nofifo : Bool) : DelayQueue :=
  { pqh := fun _ => sentinel, npq := 0, maxpq := 0, maxwhen := 0, counter := 0
    delayBufsize := fun _ => 0, nofifo := nofifo, fault := false }

/-- The running maximum, the counter and the time that `packet_enqueue` finds for a packet whose
time would be `time`. -/
def schedule (q : DelayQueue) (time : Nat) : Nat × Nat × Nat :=
  let maxwhen := if q.maxwhen < time then time else q.maxwhen
  let counter := if q.maxwhen < time then 0 else q.counter
  if q.nofifo = false ∧ time ≤ maxwhen then (maxwhen, (counter + 1) % 4294967296, maxwhen)
  else (maxwhen, counter, time)

/-- The array grows before the packet is stored, if the packets already there fill it. -/
def packetEnqueue (q : DelayQueue) (now : Nat) (dir : Dir) (buf : List UInt8) (delms : Nat) :
    DelayQueue :=
  let (maxwhen, counter, time) := schedule q ((now + delms) % 18446744073709551616)
  let new : Packpq :=
    { when := time, counter := counter, dir := dir, buf := buf, size := buf.length }
  let pqh := if q.maxpq = 0 then update q.pqh 0 sentinel else q.pqh
  let allocated := if q.maxpq = 0 then pqChunk else q.maxpq
  let maxpq := if allocated ≤ q.npq then allocated + pqChunk else allocated
  let k := q.npq + 1
  { pqh := siftUp Packpq.before pqh new k k
    npq := k
    maxpq := maxpq
    maxwhen := maxwhen
    counter := counter
    delayBufsize := update q.delayBufsize dir (toInt32 (q.delayBufsize dir + buf.length))
    nofifo := q.nofifo
    -- the first place written is pqh[k]
    fault := q.fault || decide (maxpq ≤ k) }

/-- One turn of the loop of `packet_dequeue`, after the packet in the root was written. -/
def removeRoot (q : DelayQueue) : DelayQueue :=
  let top := q.pqh 1
  let n := q.npq - 1
  { q with
    pqh := siftDown Packpq.before q.pqh (q.pqh q.npq) n n 1
    npq := n
    delayBufsize := update q.delayBufsize top.dir
      (toInt32 (q.delayBufsize top.dir - top.size)) }

/-- The `while` loop of `packet_dequeue`; every turn writes one packet, so `npq` is enough
fuel. -/
def dequeueLoop (now : Nat) : Nat → DelayQueue → List Packpq × DelayQueue
  | fuel + 1, q =>
    if 0 < q.npq ∧ (q.pqh 1).when ≤ now then
      let r := dequeueLoop now fuel (removeRoot q)
      (q.pqh 1 :: r.1, r.2)
    else ([], q)
  | 0, q => ([], q)

/-- `packet_dequeue` at the clock reading `now`: the packets it passes to `writepacket` and the
queue it leaves. -/
def packetDequeue (q : DelayQueue) (now : Nat) : List Packpq × DelayQueue :=
  dequeueLoop now q.npq q

/-- The places of the heap that the loop of `packet_enqueue` reads and writes. -/
def siftUpPlaces (h : Nat → Packpq) (x : Packpq) : Nat → Nat → List Nat
  | 0, k => [k]
  | fuel + 1, k =>
    if x.before (h (k / 2)) then
      k / 2 :: k :: siftUpPlaces (update h k (h (k / 2))) x fuel (k / 2)
    else [k / 2, k]

/-- The places that the loop of `packet_dequeue` over one packet reads and writes. -/
def siftDownPlaces (h : Nat → Packpq) (x : Packpq) (n : Nat) : Nat → Nat → List Nat
  | 0, k => [k]
  | fuel + 1, k =>
    if k ≤ n / 2 then
      let j := firstChild Packpq.before h n k
      let read := if 2 * k < n then [2 * k, 2 * k + 1, j] else [j]
      if x.before (h j) then read ++ [k]
      else read ++ k :: siftDownPlaces (update h k (h j)) x n fuel j
    else [k]

def newPacket (q : DelayQueue) (now : Nat) (dir : Dir) (buf : List UInt8) (delms : Nat) : Packpq :=
  let s := schedule q ((now + delms) % 18446744073709551616)
  { when := s.2.2, counter := s.2.1, dir := dir, buf := buf, size := buf.length }

def enqueuePlaces (q : DelayQueue) (now : Nat) (dir : Dir) (buf : List UInt8) (delms : Nat) : List Nat :=
  let pqh := if q.maxpq = 0 then update q.pqh 0 sentinel else q.pqh
  (if q.maxpq = 0 then [0] else []) ++
    siftUpPlaces pqh (newPacket q now dir buf delms) (q.npq + 1) (q.npq + 1)

def dequeuePlaces (now : Nat) : Nat → DelayQueue → List Nat
  | fuel + 1, q =>
    if 0 < q.npq then
      if (q.pqh 1).when ≤ now then
        1 :: q.npq :: siftDownPlaces q.pqh (q.pqh q.npq) (q.npq - 1) (q.npq - 1) 1 ++
          dequeuePlaces now fuel (removeRoot q)
      else [1]
    else []
  | 0, _ => []

/-- A packet given to `packet_enqueue`, with the time it asks for. -/
structure Offer where
  dir : Dir
  buf : List UInt8
  due : Nat
  deriving DecidableEq, Repr

/-- A packet passed to `writepacket`, with the clock reading of that call. -/
structure Written where
  packet : Packpq
  now : Nat
  deriving DecidableEq, Repr

/-- The delay queue with what has gone in and out of it, the last clock reading, and the reading
of the last call if that was `packet_dequeue`. -/
structure DelayRun where
  q : DelayQueue
  clock : Nat
  offered : List Offer
  written : List Written
  swept : Option Nat

inductive DelayEvent where
  | enqueue (now : Nat) (dir : Dir) (buf : List UInt8) (delms : Nat)
  | dequeue (now : Nat)

def DelayEvent.now : DelayEvent → Nat
  | .enqueue now _ _ _ => now
  | .dequeue now => now

def delayStep (s : DelayRun) : DelayEvent → DelayRun
  | .enqueue now dir buf delms =>
    { q := packetEnqueue s.q now dir buf delms
      clock := now
      offered := s.offered ++ [⟨dir, buf, now + delms⟩]
      written := s.written
      swept := none }
  | .dequeue now =>
    { q := (packetDequeue s.q now).2
      clock := now
      offered := s.offered
      written := s.written ++ (packetDequeue s.q now).1.map (fun p => ⟨p, now⟩)
      swept := some now }

/-- The calls of `packet_enqueue` and `packet_dequeue` in any order, on a clock that does not go
back. -/
def delayMachine : Machine DelayRun DelayEvent :=
  { enabled := fun s e => s.clock ≤ e.now ∧ e.now < 18446744073709551616
    step := delayStep }

def delayStart : DelayRun :=
  { q := delayInit false, clock := 0, offered := [], written := [], swept := none }

end Vde
