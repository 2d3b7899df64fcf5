import Mathlib.Algebra.Ring.Int.Defs
import Mathlib.Algebra.Ring.Nat
import Vde.Lib.BackList

/-!
# The MAC address table of the switch

The table is an array of chains; the key of an entry packs the address and the VLAN in one word.
Addresses are 48 bit words in the byte order of a little endian machine, so that the first byte
on the wire is the lowest one. Entries age: the garbage collector drops those not seen for
`gc_expire` seconds, and an address changes port only after `min_persistence` seconds of silence.
-/

namespace Vde

/-- The results of the management commands: 0 or one of the error codes. -/
inductive Errno where
  | ok
  | einval
  | enxio
  | eaddrinuse
  | enospc
  | eexist
  | enomem
  | enoent
  deriving DecidableEq, Repr

/-- `struct hash_entry` without its links. -/
structure HashData where
  lastSeen : Int
  port : Nat
  dst : BitVec 64
  deriving DecidableEq

/-- The variables of the table. `allocs` counts the entries ever allocated: no chain is longer,
so it is enough fuel for the loops along a chain. -/
structure HashTable where
  hashBits : Nat
  heap : Heap HashData
  allocs : Nat
  minPersistence : Int
  gcExpire : Int

def HashTable.size (t : HashTable) : Nat := 2 ^ t.hashBits

def calcHash (bits : Nat) (src : BitVec 64) : Nat :=
  let src := src ^^^ (src >>> 33)
  let src := src * 0xff51afd7ed558ccd#64
  let src := src ^^^ (src >>> 33)
  let src := src * 0xc4ceb9fe1a85ec53#64
  (src &&& BitVec.ofNat 64 (2 ^ bits - 1)).toNat

def extmac (mac : BitVec 48) (vlan : Nat) : BitVec 64 :=
  (mac.extractLsb' 0 32).setWidth 64 +
    (((mac.extractLsb' 32 16).setWidth 64 + (BitVec.ofNat 64 vlan <<< 16)) <<< 32)

def emac2vlan (x : BitVec 64) : BitVec 16 := (x >>> 48).setWidth 16

def findEntry (t : HashTable) (key : BitVec 64) : Option Nat :=
  t.heap.walk (fun e => e.dst == key) t.allocs (t.heap.heads (calcHash t.hashBits key))

def findInHash (t : HashTable) (dst : BitVec 48) (vlan : Nat) : Option Nat :=
  ((findEntry t (extmac dst vlan)).bind t.heap.val).map HashData.port

/-- `find_in_hash_update` at time `now`, with the address returned by `malloc` if it is called.
The result is the port seen before, `none` when there is no memory for a new entry. -/
def findInHashUpdate (malloc : Option Nat) (now : Int) (src : BitVec 48) (vlan port : Nat)
    (t : HashTable) : Option Nat × HashTable :=
  let esrc := extmac src vlan
  match (findEntry t esrc).bind (fun a => (t.heap.val a).map (fun e => (a, e))) with
  | none =>
    match malloc with
    | none => (none, t)
    | some a =>
      -- the new entry has this port, so it is stamped at once
      (some port,
        { t with heap := t.heap.push (calcHash t.hashBits esrc) a ⟨now, port, esrc⟩,
                 allocs := t.allocs + 1 })
  | some (a, e) =>
    if e.port ≠ port then
      if t.minPersistence < now - e.lastSeen then
        (some e.port, { t with heap := t.heap.setVal a ⟨now, port, e.dst⟩ })
      else (some e.port, t)
    else (some e.port, { t with heap := t.heap.setVal a ⟨now, e.port, e.dst⟩ })

def deleteHash (dst : BitVec 48) (vlan : Nat) (t : HashTable) : HashTable :=
  match findEntry t (extmac dst vlan) with
  | none => t
  | some a => { t with heap := t.heap.unlink a }

/-- `for_all_hash` with an iterator that deletes the entries that satisfy `p`. -/
def forAllHash (p : HashData → Bool) (t : HashTable) : HashTable :=
  { t with heap :=
      (List.range t.size).foldl (fun hp i => hp.sweep p t.allocs (hp.heads i)) t.heap }

def hashDeletePort (port : Nat) : HashTable → HashTable :=
  forAllHash (fun e => e.port == port)

def hashDeleteVlan (vlan : Nat) : HashTable → HashTable :=
  forAllHash (fun e => emac2vlan e.dst == BitVec.ofNat 16 vlan)

def hashDeleteVlanport (vlan port : Nat) : HashTable → HashTable :=
  forAllHash (fun e => emac2vlan e.dst == BitVec.ofNat 16 vlan && e.port == port)

/-- `hash_delete_vlanports`; the set of ports is given by its membership test. -/
def hashDeleteVlanports (vlan : Nat) (setofports : Nat → Bool) : HashTable → HashTable :=
  forAllHash (fun e => emac2vlan e.dst == BitVec.ofNat 16 vlan && setofports e.port)

def hashFlush : HashTable → HashTable := forAllHash (fun _ => true)

def hashGc (now : Int) (t : HashTable) : HashTable :=
  forAllHash (fun e => decide (e.lastSeen + t.gcExpire < now)) t

def shiftsToZero : Nat → Nat → Nat
  | 0, _ => 0
  | fuel + 1, x => if x = 0 then 0 else shiftsToZero fuel (x >>> 1) + 1

/-- `po2round`, for the values of an `int`. -/
def po2round (vx : Nat) : Nat := if vx = 0 then 0 else shiftsToZero 32 (vx - 1)

def hashInitBits (bits : Nat) (t : HashTable) : HashTable :=
  { t with hashBits := bits, heap := { t.heap with heads := fun _ => none } }

def hashResize (hashSize : Int) (t : HashTable) : Errno × HashTable :=
  if 0 < hashSize then (.ok, hashInitBits (po2round hashSize.toNat) (hashFlush t))
  else (.einval, t)

def hashSetMinper (e : Int) (t : HashTable) : HashTable := { t with minPersistence := e }

def hashSetGcExpire (e : Int) (t : HashTable) : HashTable := { t with gcExpire := e }

def hashInit (hashSize : Nat) : HashTable :=
  { hashBits := po2round hashSize
    heap := ⟨fun _ => none, fun _ => none⟩
    allocs := 0
    minPersistence := 3
    gcExpire := 100 }

end Vde
