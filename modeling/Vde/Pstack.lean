import Mathlib.Data.List.Basic

/-!
# Reassembly in vde_over_ns

A frame travels in fragments, each with a `struct nstxhdr` in front. `nstx_handlepacket` collects
the fragments of a frame in an item of `nstx_list` and hands the frame on when its last missing
fragment has arrived. Items that get no fragment for `NSTX_TIMEOUT` seconds are given up.
-/

namespace Vde

structure Nstxhdr where
  magic : Nat
  seq : Nat
  chan : Nat
  id : Nat
  flags : Nat
  deriving DecidableEq, Repr

def nstxMagic : Nat := 0xb4

def nstxLF : Nat := 0x1

def nstxTimeout : Nat := 30

/-- The header in memory. The fields of 4, 4, 12 and 4 bits keep the low bits of what is assigned
to them; the first field of a unit lies in its low bits, as on x86. -/
def Nstxhdr.toBytes (h : Nstxhdr) : List UInt8 :=
  [UInt8.ofNat h.magic, UInt8.ofNat (h.seq % 16 + 16 * (h.chan % 16)), UInt8.ofNat (h.id % 256),
    UInt8.ofNat (h.id / 256 % 16 + 16 * (h.flags % 16))]

/-- The header at the beginning of a packet of at least four bytes. -/
def Nstxhdr.ofBytes (ptr : List UInt8) : Nstxhdr :=
  let b := fun i => (ptr.getD i 0).toNat
  { magic := b 0, seq := b 1 % 16, chan := b 1 / 16, id := b 2 + 256 * (b 3 % 16), flags := b 3 / 16 }

/-- `struct clist`, without the link. -/
structure Clist where
  seq : Nat
  data : List UInt8
  deriving DecidableEq, Repr

structure NstxItem where
  id : Nat
  timestamp : Nat
  frc : Nat
  chunks : List Clist
  deriving DecidableEq, Repr

def getItemById (list : List NstxItem) (id : Nat) : Option NstxItem :=
  list.find? (fun it => it.id == id)

def allocItem (list : List NstxItem) (id : Nat) : List NstxItem :=
  { id := id, timestamp := 0, frc := 0, chunks := [] } :: list

def storeItem (item : NstxItem) : List NstxItem → List NstxItem
  | [] => []
  | it :: list => if it.id = item.id then item :: list else it :: storeItem item list

def unlinkItem (id : Nat) : List NstxItem → List NstxItem
  | [] => []
  | it :: list => if it.id = id then list else it :: unlinkItem id list

def itemData (item : NstxItem) : List UInt8 := (item.chunks.map Clist.data).flatten

/-- The search of `add_data_chunk` behind the chunk `prev`, whose number is smaller. -/
def insertBehind (new : Clist) : List Clist → List Clist
  | [] => [new]
  | next :: rest =>
    if next.seq < new.seq then next :: insertBehind new rest
    else if next.seq = new.seq then next :: rest
    else new :: next :: rest

def addDataChunk (chunks : List Clist) (new : Clist) : List Clist :=
  match chunks with
  | [] => [new]
  | first :: rest =>
    if first.seq = new.seq then first :: rest
    else if new.seq < first.seq then new :: first :: rest
    else first :: insertBehind new rest

def findSequence : Nat → List Clist → Nat
  | i, [] => i
  | i, c :: list => if c.seq = i then findSequence (i + 1) list else i

def addData (item : NstxItem) (pkt : Nstxhdr) (payload : List UInt8) (now : Nat) : NstxItem × Bool :=
  let frc := if pkt.flags &&& nstxLF ≠ 0 then pkt.seq + 1 else item.frc
  let chunks := addDataChunk item.chunks ⟨pkt.seq, payload⟩
  ({ id := item.id, timestamp := now % 4294967296, frc := frc, chunks := chunks },
    decide (frc ≠ 0) && decide (findSequence 0 chunks = frc))

/-- `check_timeouts` at the clock reading `now`; both sides are `unsigned int`. -/
def checkTimeouts (list : List NstxItem) (now : Nat) : List NstxItem :=
  list.filter (fun it =>
    !decide ((it.timestamp + nstxTimeout) % 4294967296 < now % 4294967296))

/-- `nstx_handlepacket`. The clock is read twice, by `add_data` and by `check_timeouts`. The second
component is the frame passed to `nstx_usepacket`, if there is one. A `NULL` packet is dropped like
one that is too short. -/
def nstxHandlepacket (list : List NstxItem) (ptr : List UInt8) (now check : Nat) :
    List NstxItem × Option (List UInt8) :=
  if ptr.length < 4 then (list, none)
  else
    let pkt := Nstxhdr.ofBytes ptr
    if pkt.id = 0 then (list, none)
    else
      let list := if (getItemById list pkt.id).isNone then allocItem list pkt.id else list
      match getItemById list pkt.id with
      | none => (list, none)
      | some item =>
        let (item, complete) := addData item pkt (ptr.drop 4) now
        if complete then
          (checkTimeouts (unlinkItem pkt.id list) check, some (itemData item))
        else (checkTimeouts (storeItem item list) check, none)

end Vde
