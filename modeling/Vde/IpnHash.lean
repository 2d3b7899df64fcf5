import Mathlib.Data.List.Basic

/-!
# The MAC address table of the kernel switch

An element is in the chain of its key and in the list of all elements, to whose end it moves when its
address is seen. Elements are known by their addresses in memory. The timer collects from the front of
the list.
-/

namespace Vde.Ipn

/-- The key of an element: the three words of the address and the VLAN. -/
structure HashKey where
  key0 : BitVec 16
  key1 : BitVec 16
  key2 : BitVec 16
  vlan : BitVec 16
  deriving DecidableEq

structure IpnHashElem where
  key : HashKey
  port : Int
  expiretime : BitVec 64

/-- `struct ipn_hash`, and the elements in memory. `size` is the number of chains, and `hashtimer` the time for
which the timer is set, if it is pending. -/
structure IpnHash where
  elems : Nat → Option IpnHashElem
  size : Nat
  hashtable : Nat → List Nat
  lrulist : List Nat
  mask : BitVec 32
  timeout : BitVec 64
  hashtimer : Option (BitVec 64)

def po2Loop : Nat → BitVec 32 → BitVec 32 → BitVec 32
  | 0, _, rv => rv
  | fuel + 1, x, rv => if x = 0 then rv else po2Loop fuel (x.sshiftRight 1) (rv <<< 1)

/-- `po2round`, for the values of an `int` above 0. -/
def po2round (vx : BitVec 32) : BitVec 32 := po2Loop 32 (vx - 1) 1

/-- `hashfun`. The products wrap, and the shifts keep the sign. -/
def hashfun (key : HashKey) (mask : BitVec 32) : BitVec 32 :=
  let x := key.key0.setWidth 32 * 0x03050000 + key.key1.setWidth 32 * 0x0709 + key.key2.setWidth 32 * 0x0b0d0000 +
    key.vlan.setWidth 32 * 0x1113
  (x ^^^ x.sshiftRight 12 ^^^ x.sshiftRight 8 ^^^ x.sshiftRight 4) &&& mask

/-- `ipn_hash_new`, with `none` for an error; `hz` is `HZ` and `alloc` tells whether there is memory for the
chains. -/
def ipnHashNew (hz : BitVec 64) (size : BitVec 32) (timeout : BitVec 64) (alloc : Bool) : Option IpnHash :=
  if size.toInt ≤ 0 ∨ timeout = 0 then none
  else if !alloc then none
  else some {
    elems := fun _ => none
    size := size.toNat
    hashtable := fun _ => []
    lrulist := []
    mask := po2round size - 1
    timeout := timeout * hz
    hashtimer := none }

namespace IpnHash

def chain (h : IpnHash) (key : HashKey) : Nat := (hashfun key h.mask).toNat

/-- `list_del(&elem->lrunode)` and `hlist_del(&elem->hashnode)`: the element leaves the chain that it is in. -/
def unlink (h : IpnHash) (a : Nat) : IpnHash :=
  { h with lrulist := h.lrulist.erase a, hashtable := fun i => (h.hashtable i).erase a }

def del (h : IpnHash) (a : Nat) : IpnHash :=
  { h.unlink a with elems := Function.update h.elems a none }

def findElem (h : IpnHash) (key : HashKey) : Option Nat :=
  (h.hashtable (h.chain key)).find? fun a => (h.elems a).any fun elem => elem.key == key

end IpnHash

def flushLoop (p : IpnHashElem → Bool) : List Nat → IpnHash → IpnHash
  | [], h => h
  | a :: rest, h =>
    match h.elems a with
    | none => flushLoop p rest h
    | some elem => flushLoop p rest (if p elem then h.del a else h)

def ipnHashFlush (h : IpnHash) : IpnHash := flushLoop (fun _ => true) h.lrulist h

def IpnHashElem.hasAddress (elem : IpnHashElem) (key : Option (BitVec 16 × BitVec 16 × BitVec 16)) : Bool :=
  key.all fun k => elem.key.key0 == k.1 && elem.key.key1 == k.2.1 && elem.key.key2 == k.2.2

def IpnHashElem.hasVlan (elem : IpnHashElem) (vlan : Option (BitVec 16)) : Bool := vlan.all fun v => elem.key.vlan == v

/-- `ipn_hash_flush_key`; its two tests are joined by `||`. -/
def ipnHashFlushKey (key : Option (BitVec 16 × BitVec 16 × BitVec 16)) (vlan : Option (BitVec 16)) (h : IpnHash) :
    IpnHash :=
  flushLoop (fun elem => elem.hasAddress key || elem.hasVlan vlan) h.lrulist h

def ipnHashFlushPort (port : Int) (h : IpnHash) : IpnHash := flushLoop (fun elem => elem.port == port) h.lrulist h

/-- The loop of `ipn_hash_timer_expired`; `next` is a `long`. -/
def timerLoop (jiffies64 : BitVec 64) : List Nat → IpnHash → IpnHash
  | [], h => h
  | a :: rest, h =>
    match h.elems a with
    | none => h
    | some elem =>
      let next := elem.expiretime - jiffies64
      if next.toInt < 0 then timerLoop jiffies64 rest (h.del a)
      else { h with hashtimer := some (jiffies64 + next) }

/-- `ipn_hash_timer_expired`. The timer is not pending any more when it runs. -/
def ipnHashTimerExpired (jiffies64 : BitVec 64) (h : IpnHash) : IpnHash :=
  timerLoop jiffies64 h.lrulist { h with hashtimer := none }

def ipnHashLink (h : IpnHash) (jiffies64 : BitVec 64) (a : Nat) (key : HashKey) (port : Int) : IpnHash :=
  { h with
    elems := Function.update h.elems a (some ⟨key, port, jiffies64 + h.timeout⟩)
    lrulist := h.lrulist ++ [a]
    hashtable := Function.update h.hashtable (h.chain key) (a :: h.hashtable (h.chain key))
    hashtimer := if h.hashtimer.isSome then h.hashtimer else some (jiffies64 + h.timeout) }

/-- `ipn_hash_add`; `alloc` is what `kmem_cache_alloc` returns. A timeout of 0 means a hub. -/
def ipnHashAdd (jiffies64 : BitVec 64) (alloc : Option Nat) (key : HashKey) (port : Int) (h : IpnHash) : IpnHash :=
  match h.findElem key with
  | some a => ipnHashLink (h.unlink a) jiffies64 a key port
  | none =>
    if 0 < h.timeout then
      match alloc with
      | none => h
      | some a => ipnHashLink h jiffies64 a key port
    else h

def ipnHashFind (key : HashKey) (h : IpnHash) : Int :=
  match (h.findElem key).bind h.elems with
  | none => -1
  | some elem => elem.port

end Vde.Ipn
