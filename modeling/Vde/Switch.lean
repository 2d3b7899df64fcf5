import Vde.HashTable
import Vde.Lib.BitArray

/-!
# The state of the switch

The variables of `port.c` and `fstp.c` and the operations on them that the two files share. The
bit arrays of VLAN `v` are selected by their field name: the first four belong to `vlant[v]`, the
others to `fsttab[v]`. A write through a null pointer ends the process, which `trap` records.
Ports, endpoints and tables are always allocated successfully, and there is no packet filter.
-/

namespace Vde

open Function

def numOfVlan : Nat := 4095

def noVlan : Nat := 0xfff

def notInPool : BitVec 32 := 0x8000#32

def noId : BitVec 32 := BitVec.allOnes 32

def defaultCost : Int := 20000000

structure Endpoint where
  port : Nat
  fdCtl : Int
  fdData : Int
  deriving DecidableEq

/-- `struct port`; the traffic counters and the sender functions are left out. -/
structure Port where
  ep : List Endpoint
  flag : BitVec 32
  vlanuntag : Nat
  user : BitVec 32
  group : BitVec 32
  curuser : BitVec 32
  cost : Int

/-- The bit arrays kept for a VLAN. -/
inductive Tab where
  | table
  | bctag
  | bcuntag
  | notlearning
  | untag
  | tagged
  | backup
  | edge
  | rcvhist (index : Bool)
  deriving DecidableEq

structure Vlst where
  root : List UInt8
  rootcost : List UInt8
  dessw : List UInt8
  port : List UInt8
  rootport : Nat
  bonusport : Nat
  bonuscost : Int
  tctime : Int
  roottimestamp : Int

structure Tx where
  port : Nat
  ep : List Endpoint
  packet : List UInt8
  deriving DecidableEq

structure Switch where
  /-- `HUB_TAG` of the flags of `port.c` -/
  hub : Bool
  numports : Nat
  portv : Nat → Option Port
  validvlan : Bac
  tabs : Tab → Nat → Option BitArray
  /-- `FSTP_TAG` of the flags of `fstp.c` -/
  fstp : Bool
  fsttab : Nat → Option Vlst
  rcvhistindex : Bool
  hellocounter : Nat
  switchmac : List UInt8
  myid : List UInt8
  /-- `outpacket.header.src` and `outpacket.stp_bridge` -/
  outSrc : List UInt8
  outBridge : List UInt8
  hash : HashTable
  now : Int
  sent : List Tx
  trap : Bool

namespace Switch

def crash (s : Switch) : Switch := { s with trap := true }

def check (t : Tab) (v p : Nat) (s : Switch) : Bool := (s.tabs t v).any (fun x => baCheck x p)

def store (t : Tab) (v : Nat) (x : Option BitArray) (s : Switch) : Switch :=
  { s with tabs := update s.tabs t (update (s.tabs t) v x) }

def set (t : Tab) (v p : Nat) (s : Switch) : Switch :=
  match s.tabs t v with
  | none => s.crash
  | some x => s.store t v (some (baSet x p))

def clr (t : Tab) (v p : Nat) (s : Switch) : Switch :=
  match s.tabs t v with
  | none => s.crash
  | some x => s.store t v (some (baClr x p))

def words (t : Tab) (v : Nat) (s : Switch) : BitArray := (s.tabs t v).getD baAlloc

def forPorts (t : Tab) (v : Nat) (body : Nat → Switch → Switch) (s : Switch) : Switch :=
  match s.tabs t v with
  | none => s.crash
  | some _ => baForall (words t v) s.numports body s

def forVlans (body : Nat → Switch → Switch) (s : Switch) : Switch :=
  bacForall Switch.validvlan numOfVlan body s

def valid (v : Nat) (s : Switch) : Bool := bacCheck s.validvlan v

def active (p : Nat) (s : Switch) : Bool := (s.portv p).any (fun port => !port.ep.isEmpty)

def untagged (v p : Nat) (s : Switch) : Bool := (s.portv p).any (fun port => port.vlanuntag == v)

def setPort (p : Nat) (port : Option Port) (s : Switch) : Switch :=
  { s with portv := update s.portv p port }

def setFst (v : Nat) (f : Vlst) (s : Switch) : Switch :=
  { s with fsttab := update s.fsttab v (some f) }

end Switch

def sendPacketPort (portno : Nat) (packet : List UInt8) (s : Switch) : Switch :=
  match s.portv portno with
  | none => s.crash
  | some port => { s with sent := s.sent ++ [⟨portno, port.ep, packet⟩] }

inductive PortStatus where
  | discarding
  | learning
  | forwarding
  deriving DecidableEq

def PortStatus.code : PortStatus → Nat
  | discarding => 0
  | learning => 1
  | forwarding => 3

def portSetStatus (portno vlan : Nat) (status : PortStatus) (s : Switch) : Switch :=
  if s.check .table vlan portno then
    match status with
    | .discarding =>
      ((s.set .notlearning vlan portno).clr .bctag vlan portno).clr .bcuntag vlan portno
    | .learning =>
      ((s.clr .notlearning vlan portno).clr .bctag vlan portno).clr .bcuntag vlan portno
    | .forwarding =>
      let s := s.clr .notlearning vlan portno
      match s.portv portno with
      | none => s.crash
      | some port =>
        if port.vlanuntag = vlan then s.set .bcuntag vlan portno else s.set .bctag vlan portno
  else s

def portGetStatus (portno vlan : Nat) (s : Switch) : PortStatus :=
  if s.check .notlearning vlan portno then .discarding
  else if s.check .bctag vlan portno || s.check .bcuntag vlan portno then .forwarding
  else .learning

end Vde
