import Vde.Ipn
import Vde.Lib.Machine
import Vde.Lib.RefPool

/-!
# Messages of an IPN network

Calls write, deliver and read the messages of one network, shut nodes down and release them, one step at a
time. A message is shared by its recipients: each has an item for it in one of its two queues. The queues
of a node change under its `msglock`, the network under `ipnn_mutex`; an injection goes on without the mutex
when it finds `recinject` set. Messages, nodes and calls are known by their addresses.
-/

namespace Vde.Ipn

open Function

def XRCV_SHUTDOWN : BitVec 8 := 5

/-- The messages of a network, with `count` of each `struct msgpool_item` and `msgpool_nelem`:
`ipn_msgpool_alloc`, `ipn_msgpool_hold` and `ipn_msgpool_put` are the operations of the pool. -/
abbrev MsgPool := RefPool Nat

/-- `++` and `--` of an `unsigned short`. -/
def inc16 (c : Nat) : Nat := (c + 1) % 65536

def dec16 (c : Nat) : Nat := (c + 65535) % 65536

/-- `struct ipn_node`, as far as messages go. `connected` says that it is in `connectqueue`, `ipn` that it has its
network, and `oobNumnodes` is `IPN_NODEFLAG_OOB_NUMNODES`. -/
structure MsgNode where
  connected : Bool
  ipn : Bool
  netdev : Bool
  oobNumnodes : Bool
  shutdown : BitVec 8
  msgqueue : List Nat
  oobmsgqueue : List Nat
  totmsgcount : Nat
  oobmsgcount : Nat

/-- How far `ipn_terminate_node` has come with a node: it has the mutex; the node is off its list and `msgqueue` is
flushed; `oobmsgqueue` is flushed; the node has no network any more. -/
inductive Stage where
  | begin
  | flushed
  | flushedOob
  | detached
  deriving DecidableEq

inductive Change where
  | connect
  | shutdown (n : Nat)
  | release (n : Nat) (stage : Stage)
  deriving DecidableEq

/-- Where a call is. A writer has its message until it has put it: before it is copied, before the flag is looked at,
before the mutex, with the mutex, in `ipn_p_handlemsg` (with the next recipient, if one is found; `nested` if it
went on because of the flag), after the flag was cleared, and before the put. A reader has taken an item off a
queue. A change may send an out-of-band message about the counters. At last a released node is freed. -/
inductive MsgPhase where
  | write (m : Nat)
  | test (m : Nat)
  | down (m : Nat)
  | locked (m : Nat)
  | handle (m : Nat) (next : Option Nat) (nested : Bool)
  | cleared (m : Nat)
  | put (m : Nat)
  | read (m : Nat)
  | change (c : Change) (oob : Option Nat)
  | free (n : Nat)
  deriving DecidableEq

/-- The network. `live` are the nodes that are not freed and `calls` the calls that go on; a fault is the use of a
freed node or of a NULL pointer. -/
structure MsgState where
  lossless : Bool
  msgpoolSize : Nat
  live : Finset Nat
  node : Nat → MsgNode
  pool : MsgPool
  calls : Finset Nat
  phase : Nat → MsgPhase
  ipnnMutex : Option Nat
  recinject : Bool
  fault : Bool

namespace MsgState

def setNode (s : MsgState) (n : Nat) (node : MsgNode) : MsgState :=
  { s with node := update s.node n node }

def goto (s : MsgState) (c : Nat) (phase : MsgPhase) : MsgState :=
  { s with phase := update s.phase c phase }

def enter (s : MsgState) (c : Nat) (phase : MsgPhase) : MsgState :=
  { s.goto c phase with calls := insert c s.calls }

def leave (s : MsgState) (c : Nat) : MsgState := { s with calls := s.calls.erase c }

def wild (s : MsgState) : MsgState := { s with fault := true }

section

variable (s : MsgState) (n c : Nat) (node : MsgNode) (p : MsgPhase)

@[simp] lemma setNode_live : (s.setNode n node).live = s.live := rfl
@[simp] lemma setNode_node : (s.setNode n node).node = update s.node n node := rfl
@[simp] lemma setNode_calls : (s.setNode n node).calls = s.calls := rfl
@[simp] lemma setNode_phase : (s.setNode n node).phase = s.phase := rfl
@[simp] lemma setNode_pool : (s.setNode n node).pool = s.pool := rfl
@[simp] lemma goto_live : (s.goto c p).live = s.live := rfl
@[simp] lemma goto_node : (s.goto c p).node = s.node := rfl
@[simp] lemma goto_calls : (s.goto c p).calls = s.calls := rfl
@[simp] lemma goto_phase : (s.goto c p).phase = update s.phase c p := rfl
@[simp] lemma goto_pool : (s.goto c p).pool = s.pool := rfl
@[simp] lemma enter_live : (s.enter c p).live = s.live := rfl
@[simp] lemma enter_node : (s.enter c p).node = s.node := rfl
@[simp] lemma enter_calls : (s.enter c p).calls = insert c s.calls := rfl
@[simp] lemma enter_phase : (s.enter c p).phase = update s.phase c p := rfl
@[simp] lemma enter_pool : (s.enter c p).pool = s.pool := rfl

end

end MsgState

/-- `ipn_proto_sendmsg`; `alloc` tells whether there is memory for an item. `ipn_netdev_sendmsg` copies the message. -/
def ipnProtoSendmsg (s : MsgState) (n m : Nat) (alloc : Bool) : MsgState :=
  if n ∉ s.live then s.wild
  else
    let node := s.node n
    if node.netdev then s
    else if node.shutdown &&& RCV_SHUTDOWN ≠ 0 then s
    else if !node.ipn then s.wild
    else if (s.lossless ∨ node.totmsgcount < s.msgpoolSize) ∧ alloc then
      { s.setNode n { node with totmsgcount := inc16 node.totmsgcount, msgqueue := node.msgqueue ++ [m] } with
        pool := s.pool.hold m }
    else s

def ipnProtoOobsendmsg (s : MsgState) (n m : Nat) (alloc : Bool) : MsgState :=
  if n ∉ s.live then s.wild
  else
    let node := s.node n
    if node.netdev then s
    else if node.shutdown &&& RCV_SHUTDOWN_NO_OOB ≠ 0 then s
    else if !node.ipn then s.wild
    else if (s.lossless ∨ node.oobmsgcount < s.msgpoolSize) ∧ alloc then
      { s.setNode n { node with
          totmsgcount := inc16 node.totmsgcount
          oobmsgcount := inc16 node.oobmsgcount
          oobmsgqueue := node.oobmsgqueue ++ [m] } with
        pool := s.pool.hold m }
    else s

def ipnFlushRecvqueue (s : MsgState) (n : Nat) : MsgState :=
  if n ∉ s.live then s.wild
  else
    let node := s.node n
    { s.setNode n { node with
        msgqueue := []
        totmsgcount := node.msgqueue.foldl (fun c _ => dec16 c) node.totmsgcount } with
      pool := node.msgqueue.foldl RefPool.put s.pool }

def ipnFlushOobrecvqueue (s : MsgState) (n : Nat) : MsgState :=
  if n ∉ s.live then s.wild
  else
    let node := s.node n
    { s.setNode n { node with
        oobmsgqueue := []
        totmsgcount := node.oobmsgqueue.foldl (fun c _ => dec16 c) node.totmsgcount
        oobmsgcount := node.oobmsgqueue.foldl (fun c _ => dec16 c) node.oobmsgcount } with
      pool := node.oobmsgqueue.foldl RefPool.put s.pool }

/-- The first part of `ipn_node_read`, up to `spin_unlock`: the item that is taken, out-of-band messages first. It does
not end while there is none. -/
def ipnNodeRead (node : MsgNode) : Option (Nat × MsgNode) :=
  if node.shutdown &&& XRCV_SHUTDOWN = XRCV_SHUTDOWN then none
  else if node.totmsgcount = 0 then none
  else
    match node.oobmsgqueue with
    | m :: rest => some (m, { node with
        oobmsgqueue := rest
        oobmsgcount := dec16 node.oobmsgcount
        totmsgcount := dec16 node.totmsgcount })
    | [] =>
      match node.msgqueue with
      | m :: rest => some (m, { node with msgqueue := rest, totmsgcount := dec16 node.totmsgcount })
      | [] => none

/-! ## Steps -/

/-- A step of a call. The names say which part of the code it is; `other` is an injection in another network that sets
or clears the flag, and `setShutdown` what `ipn_shutdown` and `ipn_setsockopt` do to `shutdown` without the mutex. -/
inductive MsgEvent where
  | write (c m : Nat)
  | copy (c : Nat) (ok : Bool)
  | test (c : Nat)
  | down (c : Nat) (got : Bool)
  | set (c : Nat)
  | pick (c n : Nat)
  | send (c : Nat) (oob alloc : Bool)
  | clear (c : Nat)
  | up (c : Nat)
  | handled (c : Nat)
  | put (c : Nat)
  | read (c n : Nat)
  | consume (c : Nat)
  | setShutdown (n : Nat) (shutdown : BitVec 8)
  | lockConnect (c n : Nat) (netdev oobNumnodes : Bool) (shutdown : BitVec 8)
  | lockShutdown (c n : Nat)
  | lockRelease (c n : Nat)
  | countAlloc (c m : Nat)
  | countSend (c n : Nat) (alloc : Bool)
  | countPut (c : Nat)
  | flush (c : Nat)
  | upChange (c : Nat)
  | freeNode (c : Nat)
  | other (recinject : Bool)

/-- A change goes on: a node that is shut down for reading is flushed; one that is released is taken off its list and
flushed, then its out-of-band queue is flushed, then it has no network. -/
def changeStep (s : MsgState) (c : Nat) : Change → MsgState
  | .connect => s
  | .shutdown n => if (s.node n).shutdown &&& RCV_SHUTDOWN ≠ 0 then ipnFlushRecvqueue s n else s
  | .release n .begin =>
    (ipnFlushRecvqueue (s.setNode n { s.node n with connected := false }) n).goto c
      (.change (.release n .flushed) none)
  | .release n .flushed => (ipnFlushOobrecvqueue s n).goto c (.change (.release n .flushedOob) none)
  | .release n .flushedOob =>
    (s.setNode n { s.node n with ipn := false }).goto c (.change (.release n .detached) none)
  | .release _ .detached => s

def upChange (s : MsgState) (c : Nat) : Change → MsgState
  | .release n _ =>
    { (s.setNode n { s.node n with shutdown := SHUTDOWN_XMASK }).goto c (.free n) with ipnnMutex := none }
  | _ => { s.leave c with ipnnMutex := none }

/-- One step of a call: a message is allocated, handed over, read or given back, or a node comes, changes or goes. -/
def msgStep (s : MsgState) : MsgEvent → MsgState
  | .write c m => { s.enter c (.write m) with pool := s.pool.alloc m }
  | .copy c ok =>
    match s.phase c with
    | .write m => s.goto c (if ok then .test m else .put m)
    | _ => s
  | .test c =>
    match s.phase c with
    | .test m => s.goto c (if s.recinject then .handle m none true else .down m)
    | _ => s
  | .down c got =>
    match s.phase c with
    | .down m => if got then { s.goto c (.locked m) with ipnnMutex := some c } else s.goto c (.put m)
    | _ => s
  | .set c =>
    match s.phase c with
    | .locked m => { s.goto c (.handle m none false) with recinject := true }
    | _ => s
  | .pick c n =>
    match s.phase c with
    | .handle m _ nested => s.goto c (.handle m (some n) nested)
    | _ => s
  | .send c oob alloc =>
    match s.phase c with
    | .handle m (some n) nested =>
      (if oob then ipnProtoOobsendmsg s n m alloc else ipnProtoSendmsg s n m alloc).goto c (.handle m none nested)
    | _ => s
  | .clear c =>
    match s.phase c with
    | .handle m _ false => { s.goto c (.cleared m) with recinject := false }
    | _ => s
  | .up c =>
    match s.phase c with
    | .cleared m => { s.goto c (.put m) with ipnnMutex := none }
    | _ => s
  | .handled c =>
    match s.phase c with
    | .handle m _ true => s.goto c (.put m)
    | _ => s
  | .put c =>
    match s.phase c with
    | .put m => { s.leave c with pool := s.pool.put m }
    | _ => s
  | .read c n =>
    match ipnNodeRead (s.node n) with
    | some (m, node) => (s.setNode n node).enter c (.read m)
    | none => s
  | .consume c =>
    match s.phase c with
    | .read m => { s.leave c with pool := s.pool.put m }
    | _ => s
  | .setShutdown n shutdown => s.setNode n { s.node n with shutdown := shutdown }
  | .lockConnect c n netdev oobNumnodes shutdown =>
    { (s.setNode n
        { connected := true, ipn := true, netdev := netdev, oobNumnodes := oobNumnodes, shutdown := shutdown
          msgqueue := [], oobmsgqueue := [], totmsgcount := 0, oobmsgcount := 0 }).enter c (.change .connect none) with
      live := insert n s.live
      ipnnMutex := some c }
  | .lockShutdown c n => { s.enter c (.change (.shutdown n) none) with ipnnMutex := some c }
  | .lockRelease c n => { s.enter c (.change (.release n .begin) none) with ipnnMutex := some c }
  | .countAlloc c m =>
    match s.phase c with
    | .change ch none => { s.goto c (.change ch (some m)) with pool := s.pool.alloc m }
    | _ => s
  | .countSend c n alloc =>
    match s.phase c with
    | .change _ (some m) => ipnProtoOobsendmsg s n m alloc
    | _ => s
  | .countPut c =>
    match s.phase c with
    | .change ch (some m) => { s.goto c (.change ch none) with pool := s.pool.put m }
    | _ => s
  | .flush c =>
    match s.phase c with
    | .change ch none => changeStep s c ch
    | _ => s
  | .upChange c =>
    match s.phase c with
    | .change ch none => upChange s c ch
    | _ => s
  | .freeNode c =>
    match s.phase c with
    | .free n => { s.leave c with live := s.live.erase n }
    | _ => s
  | .other recinject => { s with recinject := recinject }

def MsgState.In (s : MsgState) (c : Nat) (phase : MsgPhase) : Prop := c ∈ s.calls ∧ s.phase c = phase

def MsgState.MutexFree (s : MsgState) (c : Nat) : Prop := c ∉ s.calls ∧ s.ipnnMutex = none

def MsgPhase.releases (n : Nat) : MsgPhase → Bool
  | .change (.release n' _) _ => n' = n
  | .free n' => n' = n
  | _ => false

/-- Calls begin when they are free and go on through the phases. Messages and nodes come at free addresses, the mutex
is got when it is free, recipients are found in `connectqueue`, and a node is released once and not shut down then. -/
def MsgEvent.Legal (s : MsgState) : MsgEvent → Prop
  | .write c m => c ∉ s.calls ∧ m ∉ s.pool.live
  | .copy c _ => ∃ m, s.In c (.write m)
  | .test c => ∃ m, s.In c (.test m)
  | .down c got => (∃ m, s.In c (.down m)) ∧ (got = true → s.ipnnMutex = none)
  | .set c => ∃ m, s.In c (.locked m)
  | .pick c n => (∃ m nested, s.In c (.handle m none nested)) ∧ n ∈ s.live ∧ (s.node n).connected = true
  | .send c _ _ => ∃ m n nested, s.In c (.handle m (some n) nested)
  | .clear c => ∃ m, s.In c (.handle m none false)
  | .up c => ∃ m, s.In c (.cleared m)
  | .handled c => ∃ m, s.In c (.handle m none true)
  | .put c => ∃ m, s.In c (.put m)
  | .read c n => c ∉ s.calls ∧ n ∈ s.live ∧ (ipnNodeRead (s.node n)).isSome
  | .consume c => ∃ m, s.In c (.read m)
  | .setShutdown n _ => n ∈ s.live
  | .lockConnect c n _ _ _ => s.MutexFree c ∧ n ∉ s.live
  | .lockShutdown c n => s.MutexFree c ∧ n ∈ s.live ∧ ∀ c' ∈ s.calls, (s.phase c').releases n = false
  | .lockRelease c n => s.MutexFree c ∧ n ∈ s.live ∧ ∀ c' ∈ s.calls, (s.phase c').releases n = false
  | .countAlloc c m => (∃ ch, s.In c (.change ch none) ∧ ∀ n stage, ch = .release n stage → stage = .detached) ∧
      m ∉ s.pool.live
  | .countSend c n _ => (∃ ch m, s.In c (.change ch (some m))) ∧ n ∈ s.live ∧ (s.node n).connected = true ∧
      (s.node n).oobNumnodes = true
  | .countPut c => ∃ ch m, s.In c (.change ch (some m))
  | .flush c => ∃ ch, s.In c (.change ch none)
  | .upChange c => ∃ ch, s.In c (.change ch none) ∧ ∀ n stage, ch = .release n stage → stage = .detached
  | .freeNode c => ∃ n, s.In c (.free n)
  | .other _ => True

def msgMachine : Machine MsgState MsgEvent where
  enabled s e := s.fault = false ∧ e.Legal s
  step := msgStep

def msgInit (lossless : Bool) (msgpoolSize : Nat) : MsgState :=
  { lossless := lossless, msgpoolSize := msgpoolSize, live := ∅
    node := fun _ => { connected := false, ipn := false, netdev := false, oobNumnodes := false, shutdown := 0
                       msgqueue := [], oobmsgqueue := [], totmsgcount := 0, oobmsgcount := 0 }
    pool := .empty, calls := ∅, phase := fun _ => .free 0, ipnnMutex := none, recinject := false, fault := false }

end Vde.Ipn
