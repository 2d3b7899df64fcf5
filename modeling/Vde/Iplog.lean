import Mathlib.Algebra.Ring.Nat
import Vde.Lib.Bytes

/-!
# The iplog plugin

The plugin keeps a hash table of the addresses it has seen, and logs each one that is new or has moved to another port. A
collision list is the list of its entries, which stands for the links in both directions.
-/

namespace Vde.Iplog

def IP_HASH_SIZE : Nat := 1024

/-- `struct ip_hash_entry`; `ipaddr` has `len` bytes. -/
structure IpHashEntry where
  lastSeen : Int
  port : Int
  vlan : Nat
  srcmac : List UInt8
  len : Nat
  ipaddr : List UInt8

def ipHashFactors : List Nat := [1, 2, 3, 5, 7, 11, 13, 17, 19, 23, 29, 31, 37, 41, 43, 47]

def ipHash (len : Nat) (addr : List UInt8) : Nat :=
  (List.zipWith (fun f b => f * b.toNat) (if len = 4 then ipHashFactors.take 4 else ipHashFactors) addr).sum %
    IP_HASH_SIZE

/-- The arguments of `ip_find_in_hash_update`. -/
structure Logged where
  len : Nat
  addr : List UInt8
  srcmac : List UInt8
  vlan : Nat
  port : Int
  deriving DecidableEq

/-- What `ip_find_in_hash_update` finds: the time, whether `malloc` has memory, and what is in the `srcmac` of a new
entry. -/
structure Found where
  now : Int
  alloc : Bool
  fresh : List UInt8

/-- The table, with the lines that were logged; the user and the description of the port are left out of a line. -/
structure IpLog where
  iph : Nat → List IpHashEntry
  lines : List Logged

/-- The condition of the search loop. A longer address is compared with what is behind a shorter one, too. -/
def goesOn (p : Logged) (e : IpHashEntry) : Bool := e.ipaddr.take p.len != p.addr && e.len == p.len && e.vlan == p.vlan

def differs (p : Logged) (e : IpHashEntry) : Bool := e.port != p.port || e.vlan != p.vlan || e.srcmac != p.srcmac

def update (p : Logged) (now : Int) (e : IpHashEntry) : IpHashEntry :=
  if differs p e then { e with lastSeen := now, port := p.port, vlan := p.vlan, srcmac := p.srcmac }
  else { e with lastSeen := now }

def newEntry (p : Logged) (found : Found) : IpHashEntry where
  lastSeen := 0
  port := -1
  vlan := p.vlan
  srcmac := found.fresh
  len := p.len
  ipaddr := p.addr

def ipFindInHashUpdate (t : IpLog) (p : Logged) (found : Found) : IpLog :=
  let k := ipHash p.len p.addr
  match (t.iph k).dropWhile (goesOn p) with
  | e :: rest =>
    { iph := Function.update t.iph k ((t.iph k).takeWhile (goesOn p) ++ update p found.now e :: rest)
      lines := if differs p e then t.lines ++ [p] else t.lines }
  | [] =>
    if found.alloc then
      let e := newEntry p found
      { iph := Function.update t.iph k (update p found.now e :: t.iph k)
        lines := if differs p e then t.lines ++ [p] else t.lines }
    else t

def ipForAllHash (deletes : IpHashEntry → Bool) (t : IpLog) : IpLog :=
  { t with iph := fun k => if k < IP_HASH_SIZE then (t.iph k).filter fun e => !deletes e else t.iph k }

def ipHashGc (now expire : Int) (t : IpLog) : IpLog := ipForAllHash (fun e => e.lastSeen ≤ now - expire) t

def iplogPortMinus (port : Int) (t : IpLog) : IpLog := ipForAllHash (fun e => port == e.port) t

/-! ## Packets -/

structure LogAddr where
  addr : List UInt8
  mask : List UInt8

def inRange (addr : List UInt8) (scan : LogAddr) : Bool := List.zipWith (· &&& ·) addr scan.mask == scan.addr

structure Ranges where
  ip4loghead : List LogAddr
  ip6loghead : List LogAddr

/-- What `iplog_pktin` hands over of a frame. In a frame with a tag the headers are taken to be four bytes behind their
place, and the source address with them. -/
def iplogPktin (ranges : Ranges) (buf : Mem) (port : Int) : Option Logged :=
  let tagged := buf 12 == 0x81 && buf 13 == 0
  let vlan := if tagged then ((buf 14).toNat * 256 + (buf 15).toNat) &&& 0xfff else 0
  let ph := if tagged then 4 else 0
  if buf (ph + 12) = 8 ∧ buf (ph + 13) = 0 ∧ buf (ph + 14) = 0x45 then
    let addr := readBytes buf (ph + 26) 4
    if ranges.ip4loghead.any (inRange addr) then some ⟨4, addr, readBytes buf (ph + 6) 6, vlan, port⟩ else none
  else if buf (ph + 12) = 0x86 ∧ buf (ph + 13) = 0xdd ∧ buf (ph + 14) = 0x60 then
    let addr := readBytes buf (ph + 22) 16
    if ranges.ip6loghead.any (inRange addr) then some ⟨16, addr, readBytes buf (ph + 6) 6, vlan, port⟩ else none
  else none

end Vde.Iplog
