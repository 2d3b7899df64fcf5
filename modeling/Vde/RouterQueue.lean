import Mathlib.Algebra.Ring.Nat
import Vde.Lib.Bytes
import Vde.Lib.Machine
import Mathlib.Data.Fintype.Basic

/-!
# vde_router: the queues of an interface

An interface has one output queue and 32 queues for the priorities. The output queue has a
semaphore of its own, the others share one. `enqueue` posts the semaphore for each packet it
accepts, unless the queue is under the token policy: then the timer posts it, at the rate that was
configured. `prio_dequeue` waits for the shared semaphore and serves the first queue that has
something.

The packets between `head` and `tail` are a list. The calls are atomic: each of them works under
the lock of its queue.
-/

namespace Vde

/-- `struct vde_buff`. The length is an `int` that nobody makes negative; the interface a packet
came from is named by its number. -/
structure VdeBuff where
  len : Nat
  src : Nat
  priority : BitVec 8
  data : Mem

/-- `enum queue_policy_e` with the member of `union policy_opt_e` that belongs to it. -/
inductive QueuePolicy where
  | unlimited
  | fifo (limit statsDrop : BitVec 32)
  | red (min max : BitVec 32) (P : Rat) (limit statsDrop statsProbabilityDrop : BitVec 32)
  | token (limit statsDrop : BitVec 32) (interval : Nat)

def QueuePolicy.isToken : QueuePolicy → Bool
  | token _ _ _ => true
  | _ => false

structure RouterQueue where
  n : BitVec 32
  size : BitVec 32
  packets : List VdeBuff
  policy : QueuePolicy

/-- What `qred_may_enqueue` decides before it draws a number. -/
inductive RedChoice where
  | accept
  | draw (probability : Rat)
  | drop

/-- The cases of `qred_may_enqueue`, with exact numbers in place of doubles. -/
def redChoice (min max : BitVec 32) (P : Rat) (limit size : BitVec 32) : RedChoice :=
  if size < min then .accept
  else if size < max then .draw (P * (size.toNat - min.toNat / ((max.toNat : Rat) - min.toNat)))
  else if size < limit then .draw P
  else .drop

/-- `may_enqueue` of the policy in force, which also counts what it drops. `draw p` is the outcome
of `drand48() < p`. -/
def mayEnqueue (draw : Rat → Bool) (q : RouterQueue) : Bool × QueuePolicy :=
  match q.policy with
  | .unlimited => (true, .unlimited)
  | .fifo limit statsDrop =>
    if q.size < limit then (true, .fifo limit statsDrop) else (false, .fifo limit (statsDrop + 1))
  | .red min max P limit statsDrop statsProbabilityDrop =>
    match redChoice min max P limit q.size with
    | .accept => (true, q.policy)
    | .draw p =>
      if draw p then (false, .red min max P limit statsDrop (statsProbabilityDrop + 1)) else (true, q.policy)
    | .drop => (false, .red min max P limit (statsDrop + 1) statsProbabilityDrop)
  | .token limit statsDrop interval =>
    if q.size < limit then (true, .token limit statsDrop interval)
    else (false, .token limit (statsDrop + 1) interval)

inductive QueueId where
  | out
  | prio (i : Fin 32)
  deriving DecidableEq

inductive Semaphore where
  | out
  | prio
  deriving DecidableEq

def QueueId.semaphore : QueueId → Semaphore
  | out => .out
  | prio _ => .prio

structure TimedDequeue where
  lastOut : Nat
  interval : BitVec 32
  q : QueueId

/-- The queues of an interface, its semaphores, and those entries of `Router.timed_dequeue` that
belong to it. The global lock is held for ever after `vder_timed_dequeue_add` found no memory. -/
structure IfaceQueues where
  queue : QueueId → RouterQueue
  sem : Semaphore → Nat
  timedDequeue : List TimedDequeue
  configLocked : Bool

def SEM_VALUE_MAX : Nat := 2147483647

namespace IfaceQueues

def semPost (s : IfaceQueues) (c : Semaphore) : IfaceQueues :=
  { s with
    sem := fun c' =>
      if c' = c then if s.sem c < SEM_VALUE_MAX then s.sem c + 1 else s.sem c else s.sem c' }

def semWait (s : IfaceQueues) (c : Semaphore) : IfaceQueues :=
  { s with sem := fun c' => if c' = c then s.sem c - 1 else s.sem c' }

def setQueue (s : IfaceQueues) (id : QueueId) (q : RouterQueue) : IfaceQueues :=
  { s with queue := fun id' => if id' = id then q else s.queue id' }

end IfaceQueues

inductive QueueOutcome where
  | nothing
  | accepted (id : QueueId) (b : VdeBuff)
  | taken (id : QueueId) (b : VdeBuff)

def enqueue (draw : Rat → Bool) (id : QueueId) (b : VdeBuff) (s : IfaceQueues) :
    IfaceQueues × QueueOutcome :=
  let q := s.queue id
  let (may, policy) := mayEnqueue draw q
  if may = false then (s.setQueue id { q with policy := policy }, .nothing)
  else
    let s := s.setQueue id
      { n := q.n + 1, size := q.size + BitVec.ofNat 32 b.len, packets := q.packets ++ [b], policy := policy }
    (if policy.isToken then s else s.semPost id.semaphore, .accepted id b)

/-- The packet at the head of a queue leaves it. The counter `n` says when the queue is empty. -/
def RouterQueue.takeHead (q : RouterQueue) : Option VdeBuff × RouterQueue :=
  match q.packets with
  | [] => (none, q)
  | ret :: next =>
    (some ret,
      { q with
        n := q.n - 1, size := q.size - BitVec.ofNat 32 ret.len
        packets := if q.n - 1 = 0 then [] else next })

/-- The end of `dequeue` and of `prio_dequeue` for a queue with a packet. -/
def takeFrom (id : QueueId) (s : IfaceQueues) : IfaceQueues × QueueOutcome :=
  match (s.queue id).takeHead with
  | (some ret, q) => (s.setQueue id q, .taken id ret)
  | (none, _) => (s, .nothing)

def servedQueue (s : IfaceQueues) : Option (Fin 32) :=
  (List.finRange 32).find? (fun i => (s.queue (.prio i)).size != 0 && (s.queue (.prio i)).n != 0)

def prioDequeue (s : IfaceQueues) : IfaceQueues × QueueOutcome :=
  let s := s.semWait .prio
  match servedQueue s with
  | none => (s, .nothing)
  | some i => takeFrom (.prio i) s

/-- `dequeue`, for the output queue after its `sem_wait` came back. -/
def dequeue (id : QueueId) (s : IfaceQueues) : IfaceQueues × QueueOutcome :=
  match id with
  | .prio _ => (s, .nothing)
  | .out =>
    let s := s.semWait .out
    if (s.queue .out).n = 0 then (s, .nothing) else takeFrom .out s

def vderTimedDequeueDel (id : QueueId) (s : IfaceQueues) : IfaceQueues :=
  { s with timedDequeue := s.timedDequeue.eraseP (fun cur => cur.q == id) }

/-- `vder_timed_dequeue_add`; without memory it returns with the lock held. -/
def vderTimedDequeueAdd (alloc : Bool) (clock : Nat) (id : QueueId) (interval : BitVec 32) (s : IfaceQueues) :
    IfaceQueues :=
  if alloc = false then { s with configLocked := true }
  else { s with timedDequeue := { lastOut := clock, interval := interval, q := id } :: s.timedDequeue }

def leaveToken (id : QueueId) (s : IfaceQueues) : IfaceQueues :=
  if (s.queue id).policy.isToken then vderTimedDequeueDel id s else s

def setPolicy (id : QueueId) (policy : QueuePolicy) (s : IfaceQueues) : IfaceQueues :=
  s.setQueue id { s.queue id with policy := policy }

def qunlimitedSetup (id : QueueId) (s : IfaceQueues) : IfaceQueues :=
  setPolicy id .unlimited (leaveToken id s)

def qfifoSetup (id : QueueId) (limit : BitVec 32) (s : IfaceQueues) : IfaceQueues :=
  setPolicy id (.fifo limit 0) (leaveToken id s)

def qredSetup (id : QueueId) (min max : BitVec 32) (P : Rat) (limit : BitVec 32) (s : IfaceQueues) :
    IfaceQueues :=
  setPolicy id (.red min max P limit 0 0) (leaveToken id s)

def IDEAL_PACKET_SIZE : Nat := 1500

def tokenInterval (bitrate : BitVec 32) : Nat := 1000000 * IDEAL_PACKET_SIZE / (bitrate >>> 3).toNat

def qtokenSetup (alloc : Bool) (clock : Nat) (id : QueueId) (bitrate limit : BitVec 32) (s : IfaceQueues) :
    IfaceQueues :=
  setPolicy id (.token limit 0 (tokenInterval bitrate))
    (vderTimedDequeueAdd alloc clock id (BitVec.ofNat 32 (tokenInterval bitrate)) (leaveToken id s))

/-- One turn of the inner loop of `vder_timer_loop`, for the entry at a place of the list. -/
def timerTick (k now : Nat) (s : IfaceQueues) : IfaceQueues :=
  match s.timedDequeue[k]? with
  | none => s
  | some cur =>
    let lastOut := min (cur.lastOut + cur.interval.toNat) now
    let s := s.semPost cur.q.semaphore
    { s with timedDequeue := s.timedDequeue.set k { cur with lastOut := lastOut } }

inductive QueueEvent where
  | enqueue (draw : Rat → Bool) (id : QueueId) (b : VdeBuff)
  | dequeue (id : QueueId)
  | prioDequeue
  | tick (k now : Nat)
  | unlimited (id : QueueId)
  | fifo (id : QueueId) (limit : BitVec 32)
  | red (id : QueueId) (min max : BitVec 32) (P : Rat) (limit : BitVec 32)
  | token (alloc : Bool) (clock : Nat) (id : QueueId) (bitrate limit : BitVec 32)

def queueCall (s : IfaceQueues) : QueueEvent → IfaceQueues × QueueOutcome
  | .enqueue draw id b => enqueue draw id b s
  | .dequeue id => dequeue id s
  | .prioDequeue => prioDequeue s
  | .tick k now => (timerTick k now s, .nothing)
  | .unlimited id => (qunlimitedSetup id s, .nothing)
  | .fifo id limit => (qfifoSetup id limit s, .nothing)
  | .red id min max P limit => (qredSetup id min max P limit s, .nothing)
  | .token alloc clock id bitrate limit => (qtokenSetup alloc clock id bitrate limit s, .nothing)

def MayLeaveToken (s : IfaceQueues) (id : QueueId) : Prop :=
  (s.queue id).policy.isToken = true → s.configLocked = false

/-- The calls that come back in a state: a semaphore is waited for until it can be taken, a lock until
it is free, the timer posts only when an interval is over, and `qtoken_setup` divides by an eighth of
the bitrate. -/
def QueueEnabled (s : IfaceQueues) : QueueEvent → Prop
  | .enqueue _ _ _ => True
  | .dequeue id => id = .out → 0 < s.sem .out
  | .prioDequeue => 0 < s.sem .prio
  | .tick k now =>
    s.configLocked = false ∧ ∃ cur, s.timedDequeue[k]? = some cur ∧ cur.lastOut + cur.interval.toNat < now
  | .unlimited id => MayLeaveToken s id
  | .fifo id _ => MayLeaveToken s id
  | .red id _ _ _ _ => MayLeaveToken s id
  | .token _ _ _ bitrate _ => s.configLocked = false ∧ bitrate >>> 3 ≠ 0

def queueInit : RouterQueue := { n := 0, size := 0, packets := [], policy := .unlimited }

def ifaceQueuesStart : IfaceQueues :=
  { queue := fun _ => queueInit, sem := fun _ => 0, timedDequeue := [], configLocked := false }

end Vde
