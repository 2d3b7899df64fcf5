import Vde.Proofs.IpnPorts

/-!
# Readers and writers of an IPN network

A network counts the nodes that can read and those that can write, for the out-of-band messages about
them. Five functions change the counters, each by a call of `ipn_net_update_counters`.
-/

namespace Vde.Ipn

open Function

structure CountState where
  ipn : State
  numreaders : Nat → Int
  numwriters : Nat → Int

/-- A call of `ipn_net_update_counters`: `(shutdown & RCV_SHUTDOWN)?0:chg` for the readers of a network, and the same
with `SEND_SHUTDOWN` for its writers. -/
structure CounterChange where
  net : Nat
  shutdown : BitVec 8
  chg : Int

namespace CounterChange

def amount (c : CounterChange) (flag : BitVec 8) : Int := if c.shutdown &&& flag ≠ 0 then 0 else c.chg

end CounterChange

def ipnNetUpdateCounters (c : CountState) (chg : CounterChange) : CountState :=
  { c with
    numreaders := update c.numreaders chg.net (c.numreaders chg.net + chg.amount RCV_SHUTDOWN)
    numwriters := update c.numwriters chg.net (c.numwriters chg.net + chg.amount SEND_SHUTDOWN) }

def CountState.newNet (c : CountState) (k : Nat) : CountState :=
  { c with numreaders := update c.numreaders k 0, numwriters := update c.numwriters k 0 }

def ipnConnectChange (s : State) (n : Nat) (node : Node) (lock netLock : Bool) (path : ConnectPath) :
    Option CounterChange :=
  let (err, s) := ipnConnect s n node lock netLock path
  if err ≠ 0 then none
  else
    match s.nodes n with
    | none => none
    | some node => node.ipn.map fun k => { net := k, shutdown := node.shutdown, chg := 1 }

def ipnTerminateChange (node : Node) (netLock : Bool) : Option CounterChange :=
  if !netLock then none
  else node.ipn.map fun k => { net := k, shutdown := node.shutdown, chg := -1 }

def ipnReleaseChange (node : Node) (lock netLock : Bool) : Option CounterChange :=
  if !lock then none else ipnTerminateChange node netLock

/-- The call in `ipn_node_create_connect`, when the node has a port and nothing has changed its `shutdown`, or that
of the release when it was interrupted at the network. -/
def ipnNodeCreateConnectChange (s : State) (n k : Nat) (locks : OpenLocks) : Option CounterChange :=
  if (ipnNodeCreateConnect s n k locks).1 = 0 then some { net := k, shutdown := ipnNodeCreate.shutdown, chg := 1 }
  else if locks.lock && !locks.netLock then
    ipnReleaseChange { ipnNodeCreate with ipn := some k } locks.releaseLock locks.releaseNetLock
  else none

/-- `ipn_chrdev_open` comes to `ipn_node_create_connect` with some permission and memory for a node. -/
def ipnChrdevOpenChange (s : State) (n k : Nat) (modeRead modeWrite : Bool) (mayRead mayWrite : Int) (alloc : Bool)
    (locks : OpenLocks) : Option CounterChange :=
  let rcv := !modeRead || mayRead == -EACCES || mayRead == -EROFS
  let send := !modeWrite || mayWrite == -EACCES
  if (rcv && send) || !alloc then none else ipnNodeCreateConnectChange s n k locks

def ipnShutdownChange (node : Node) (mode : Int) (netLock : Bool) : Option CounterChange :=
  let mode := BitVec.ofInt 8 (mode + 1) &&& (RCV_SHUTDOWN ||| SEND_SHUTDOWN)
  if !netLock then none
  else if node.sock = some .connected ∧ node.shutdown ||| mode ≠ node.shutdown then
    node.ipn.map fun k => { net := k, shutdown := node.shutdown ||| mode, chg := -1 }
  else none

def IpnEvent.change (s : State) : IpnEvent → Option CounterChange
  | .connect n lock netLock path => (s.nodes n).bind fun node => ipnConnectChange s n node lock netLock path
  | .chrdevOpen n k modeRead modeWrite mayRead mayWrite alloc locks _ =>
    ipnChrdevOpenChange s n k modeRead modeWrite mayRead mayWrite alloc locks
  | .shutdown n mode netLock => (s.nodes n).bind fun node => ipnShutdownChange node mode netLock
  | .release n lock netLock => (s.nodes n).bind fun node => ipnReleaseChange node lock netLock
  | _ => none

def IpnEvent.makes (s : State) : IpnEvent → Option Nat
  | .bind n lock registered (.created k) => (s.nodes n).bind fun node =>
    if (ipnBind s n node lock registered (.created k)).1 = 0 then some k else none
  | _ => none

def countStep (c : CountState) (e : IpnEvent) : CountState :=
  let c' := { c with ipn := ipnStep c.ipn e }
  match e.change c.ipn with
  | some chg => ipnNetUpdateCounters c' chg
  | none =>
    match e.makes c.ipn with
    | some k => c'.newNet k
    | none => c'

def countMachine : Machine CountState IpnEvent where
  enabled c e := c.ipn.fault = false ∧ e.Legal c.ipn
  step := countStep

def countInit : CountState := { ipn := ipnInit, numreaders := fun _ => 0, numwriters := fun _ => 0 }

end Vde.Ipn
