import Vde.IpnMsg

/-!
# The limit of a message pool

Sockets and network devices put messages into the pool of a network. `ipn_msgpool_alloc_locking` makes a writer wait for
room, `ipn_msgpool_alloc` gives a device no message or one. Both look at `msgpool_nelem` before they allocate, so other
calls may come in between.
-/

namespace Vde.Ipn

open Function

def ipnMsgpoolAllocRefuses (leaky lossless : Bool) (nelem : Int) (msgpoolSize : Nat) : Bool :=
  leaky && lossless && decide (nelem < msgpoolSize)

def ipnMsgpoolAllocLockingPasses (lossless : Bool) (nelem : Int) (msgpoolSize : Nat) : Bool :=
  !lossless || !decide ((msgpoolSize : Int) ≤ nelem)

structure FrameResult where
  full : Bool
  refused : Bool

/-- The pool with the calls that have passed a test and not yet allocated, sockets in `writers` and devices in `devices`
with what the pool was; the messages that calls hold, and those in the receive queues. `peak` is the largest number
of writers that had passed at one time, and `frames` the history of the devices. -/
structure PoolRun where
  pool : MsgPool
  lossless : Bool
  msgpoolSize : Nat
  writers : Finset Nat
  devices : Nat → Option Bool
  holding : Nat → Option Nat
  queued : Multiset Nat
  peak : Nat
  frames : List FrameResult

namespace PoolRun

def full (s : PoolRun) : Bool := decide ((s.msgpoolSize : Int) ≤ s.pool.nelem)

def Free (s : PoolRun) (c : Nat) : Prop := c ∉ s.writers ∧ s.devices c = none ∧ s.holding c = none

def hold (s : PoolRun) (c m : Nat) : PoolRun :=
  { s with pool := s.pool.alloc m, holding := update s.holding c (some m) }

end PoolRun

/-- The steps of the calls: a writer or a frame of a device is tested; a call that has passed allocates, if there is
memory; a message is queued for a node; the call puts its message; and a message is read. -/
inductive PoolEvent where
  | writeTest (c : Nat)
  | frameTest (c : Nat)
  | alloc (c m : Nat) (mem : Bool)
  | deliver (c : Nat)
  | put (c : Nat)
  | read (m : Nat)

/-- The test of the pool and the allocation behind it are two steps; other writers and frames come between them. -/
def poolStep (s : PoolRun) : PoolEvent → PoolRun
  | .writeTest c =>
    if ipnMsgpoolAllocLockingPasses s.lossless s.pool.nelem s.msgpoolSize then
      let writers := insert c s.writers
      { s with writers := writers, peak := max s.peak writers.card }
    else s
  | .frameTest c =>
    if ipnMsgpoolAllocRefuses true s.lossless s.pool.nelem s.msgpoolSize then
      { s with frames := s.frames ++ [{ full := s.full, refused := true }] }
    else { s with devices := update s.devices c (some s.full) }
  | .alloc c m mem =>
    if c ∈ s.writers then
      let s := { s with writers := s.writers.erase c }
      if mem then s.hold c m else s
    else
      match s.devices c with
      | none => s
      | some full =>
        let s := { s with
          devices := update s.devices c none
          frames := s.frames ++ [{ full := full, refused := !mem }] }
        if mem then s.hold c m else s
  | .deliver c =>
    match s.holding c with
    | none => s
    | some m => { s with pool := s.pool.hold m, queued := m ::ₘ s.queued }
  | .put c =>
    match s.holding c with
    | none => s
    | some m => { s with pool := s.pool.put m, holding := update s.holding c none }
  | .read m => { s with pool := s.pool.put m, queued := s.queued.erase m }

/-- Calls begin when they are free, allocate when they have passed and hold what they put; messages come at free addresses
and are read from the queues. -/
def PoolEvent.Legal (s : PoolRun) : PoolEvent → Prop
  | .writeTest c => s.Free c
  | .frameTest c => s.Free c
  | .alloc c m _ => (c ∈ s.writers ∨ s.devices c ≠ none) ∧ m ∉ s.pool.live
  | .deliver c => s.holding c ≠ none
  | .put c => s.holding c ≠ none
  | .read m => m ∈ s.queued

def poolMachine : Machine PoolRun PoolEvent where
  enabled s e := e.Legal s
  step := poolStep

def poolInit (lossless : Bool) (msgpoolSize : Nat) : PoolRun where
  pool := .empty
  lossless := lossless
  msgpoolSize := msgpoolSize
  writers := ∅
  devices := fun _ => none
  holding := fun _ => none
  queued := 0
  peak := 0
  frames := []

end Vde.Ipn
