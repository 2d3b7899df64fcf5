import Vde.Lib.NetOrder
import Vde.Lib.RbTree
import Vde.RouterQueue

/-!
# vde_router: the ARP table

The ARP entries of an interface hang in a red-black tree ordered by address. An entry is a record of
its own: it can be pointed to from elsewhere, and it need not be in the tree, since an addition for
an address that is already there only changes the hardware address of the entry found.
-/

namespace Vde

abbrev Mac := Vector UInt8 6

def macBroadcast : Mac := Vector.replicate 6 0xff

def loadMac (mem : Mem) (off : Nat) : Mac := Vector.ofFn (fun i => mem (off + i))

def storeMac (mem : Mem) (off : Nat) (mac : Mac) : Mem := memcpy mem off mac.toList

structure ArpEntry where
  macaddr : Mac
  ipaddr : BitVec 32
  deriving DecidableEq

structure ArpTable where
  entries : Nat → ArpEntry
  next : Nat
  root : RbTree Nat

namespace ArpTable

/-- The number by which the tree is ordered. -/
def key (t : ArpTable) (p : Nat) : Nat := (ntohl (t.entries p).ipaddr).toNat

def setMac (t : ArpTable) (p : Nat) (mac : Mac) : ArpTable :=
  { t with entries := fun q => if q = p then { t.entries p with macaddr := mac } else t.entries q }

def alloc (t : ArpTable) (e : ArpEntry) : ArpTable :=
  { t with entries := fun q => if q = t.next then e else t.entries q, next := t.next + 1 }

end ArpTable

def vderAddArpEntry (t : ArpTable) (p : Nat) : ArpTable :=
  match rbDescend t.key (t.key p) t.root [] with
  | .inl entry => t.setMac entry (t.entries p).macaddr
  | .inr path => { t with root := rbInsertColor .nil p .nil path }

def vderGetArpEntry (t : ArpTable) (addr : BitVec 32) : Option Nat :=
  rbSearch t.key (ntohl addr).toNat t.root

/-- `vder_arp_get_record_by_macaddr`: the way that always goes left, then the one that always goes
right. -/
def vderArpGetRecordByMacaddr (t : ArpTable) (mac : Mac) : Option Nat :=
  ((t.root.leftSpine).find? (fun p => (t.entries p).macaddr == mac)).or
    ((t.root.rightSpine).find? (fun p => (t.entries p).macaddr == mac))

def EINVAL : Int := 22

/-- The first loop of `vder_arp_get_neighbors`: what the vector holds behind it, and whether the
function has returned from it. -/
def neighborsLeft (t : ArpTable) (vectorSize : Int) :
    RbTree Nat → List (BitVec 32) → List (BitVec 32) × Bool
  | .nil, neighbors => (neighbors, false)
  | .node _ left entry _, neighbors =>
    let neighbors := neighbors ++ [(t.entries entry).ipaddr]
    if (neighbors.length : Int) = vectorSize then (neighbors, true)
    else neighborsLeft t vectorSize left neighbors

def neighborsRight (t : ArpTable) (vectorSize : Int) :
    RbTree Nat → List (BitVec 32) → List (BitVec 32)
  | .nil, neighbors => neighbors
  | .node _ _ entry right, neighbors =>
    let neighbors := neighbors ++ [(t.entries entry).ipaddr]
    if (neighbors.length : Int) = vectorSize then neighbors
    else neighborsRight t vectorSize right neighbors

def vderArpGetNeighbors (t : ArpTable) (vectorSize : Int) : Int × List (BitVec 32) :=
  if vectorSize ≤ 0 then (-EINVAL, [])
  else
    match neighborsLeft t vectorSize t.root [], t.root with
    | (neighbors, true), _ => (neighbors.length, neighbors)
    | (neighbors, false), .nil => (neighbors.length, neighbors)
    | (neighbors, false), .node _ _ _ right =>
      let neighbors := neighborsRight t vectorSize right neighbors
      (neighbors.length, neighbors)

def ARP_REQUEST : BitVec 16 := 1
def ARP_REPLY : BitVec 16 := 2

/-- `vder_arp_reply`, up to its `vder_sendto`: the copy that is sent and where it goes to. The
priority is set only after the copy has been made. -/
def vderArpReply (macaddr : Mac) (vdb : VdeBuff) : VdeBuff × Mac :=
  let dst := loadMac vdb.data 22
  let data := store16 vdb.data 20 (ntohs ARP_REPLY)
  let data := storeMac data 32 dst
  let data := storeMac data 22 macaddr
  let ipaddr := load32 data 28
  let data := store32 data 28 (load32 data 38)
  let data := store32 data 38 ipaddr
  ({ vdb with data := data }, dst)

def vderParseArp (alloc : Bool) (macaddr : Mac) (vdb : VdeBuff) (t : ArpTable) :
    ArpTable × Option (VdeBuff × Mac) :=
  if alloc = false then (t, none)
  else
    let ae := t.next
    let t := t.alloc { macaddr := loadMac vdb.data 22, ipaddr := load32 vdb.data 28 }
    (vderAddArpEntry t ae,
      if ntohs (load16 vdb.data 20) = ARP_REQUEST then some (vderArpReply macaddr vdb) else none)

def arpTableStart : ArpTable :=
  { entries := fun _ => { macaddr := Vector.replicate 6 0, ipaddr := 0 }, next := 0, root := .nil }

end Vde
