import Vde.Lib.Bytes
import Vde.Switch

/-!
# The fast spanning tree protocol

The functions of `fstp.c`. A BPDU announces a root switch, the cost of the path to it, and the
switch and port that sent it; a better announcement than the stored one makes the receiving port
the root port, after all other ports that speak the protocol have been blocked.
-/

namespace Vde

def memcmp : List UInt8 → List UInt8 → Int
  | a :: as, b :: bs => if a < b then -1 else if b < a then 1 else memcmp as bs
  | _, _ => 0

def nstringtol : List UInt8 → Nat := List.foldl (fun n b => n * 256 + b.toNat) 0

def ltonstring (l : Int) : List UInt8 :=
  let n := (l % 2 ^ 32).toNat
  [UInt8.ofNat (n >>> 24), UInt8.ofNat (n >>> 16), UInt8.ofNat (n >>> 8), UInt8.ofNat n]

def helloperiod : Int := 4

def bpduaddr : List UInt8 := [0x01, 0x80, 0xc2, 0x00, 0x00, 0x00]

structure Bpdu where
  version : UInt8
  type : UInt8
  flags : UInt8
  root : List UInt8
  rootcost : List UInt8
  bridge : List UInt8
  port : List UInt8

/-- `struct fstbpdu` at offset `off` of the packet buffer. -/
def bpduAt (mem : Mem) (off : Nat) : Bpdu :=
  { version := mem (off + 19)
    type := mem (off + 20)
    flags := mem (off + 21)
    root := readBytes mem (off + 22) 8
    rootcost := readBytes mem (off + 30) 4
    bridge := readBytes mem (off + 34) 8
    port := readBytes mem (off + 42) 2 }

def fstpActive (vlan port : Nat) (s : Switch) : Bool :=
  s.check (.rcvhist false) vlan port || s.check (.rcvhist true) vlan port

def stpFlags (vlan port : Nat) (f : Vlst) (agr tc tcack : Nat) (s : Switch) : UInt8 :=
  UInt8.ofNat (tc ||| (if s.check .backup vlan port then 1 <<< 1 else 1 <<< 2) |||
    ((if f.rootport ≠ port then 1 else 0) <<< 3) ||| ((portGetStatus port vlan s).code <<< 4) |||
    (agr <<< 6) ||| (tcack <<< 7))

def bpduAge (f : Vlst) (now : Int) : Int :=
  let nowvlan := if f.rootport = 0 then 0 else now
  let age := Int.bmod (nowvlan - f.roottimestamp) (2 ^ 32)
  if age > 0xffff then 0xffff else age

def bpduTail (port : Nat) (f : Vlst) (flags : UInt8) (age : Int) (s : Switch) : List UInt8 :=
  [0x42, 0x42, 0x03, 0, 0, 2, 2, flags] ++ f.root ++ f.rootcost ++ s.outBridge ++
    [(0x80 : UInt8) ||| UInt8.ofNat (port >>> 4), UInt8.ofNat port] ++
    [UInt8.ofNat (age % 256).toNat, UInt8.ofNat (age / 256 % 256).toNat, 40, 0, 4, 0, 0, 0, 0]

def outpacket (port : Nat) (f : Vlst) (flags : UInt8) (age : Int) (s : Switch) : List UInt8 :=
  bpduaddr ++ s.outSrc ++ [0x00, 0x27] ++ bpduTail port f flags age s

def outtagpacket (vlan port : Nat) (f : Vlst) (flags : UInt8) (age : Int) (s : Switch) :
    List UInt8 :=
  bpduaddr ++ s.outSrc ++ [0x81, 0x00, UInt8.ofNat (vlan >>> 8 &&& 0xf), UInt8.ofNat vlan, 0x00, 0x27]
    ++ bpduTail port f flags age s

def Vlst.reset (myid : List UInt8) (f : Vlst) : Vlst :=
  { f with
    root := myid
    rootcost := List.replicate 4 0
    dessw := List.replicate 8 0xff
    port := List.replicate 2 0
    rootport := 0
    roottimestamp := 0 }

def Switch.allocFst (vlan : Nat) (s : Switch) : Switch :=
  let empty := some baAlloc
  let s := ((s.store .untag vlan empty).store .tagged vlan empty).store .edge vlan empty
  ((s.store (.rcvhist false) vlan empty).store (.rcvhist true) vlan empty).store .backup vlan empty

def unblock (vlan port : Nat) (s : Switch) : Switch :=
  portSetStatus port vlan .forwarding (s.clr .backup vlan port)

def fstnewvlan (vlan : Nat) (s : Switch) : Switch :=
  match s.fsttab vlan with
  | none =>
    let f : Vlst := ⟨[], [], [], [], 0, 0, 0, 0, 0⟩
    let s := (s.allocFst vlan).setFst vlan (f.reset s.myid)
    s.forPorts .backup vlan (unblock vlan)
  | some f =>
    let s := s.setFst vlan (f.reset s.myid)
    s.forPorts .backup vlan (unblock vlan)

def fstremovevlan (vlan : Nat) (s : Switch) : Errno × Switch :=
  match s.fsttab vlan with
  | none => (.enoent, s)
  | some _ =>
    let s := ((s.store .untag vlan none).store .tagged vlan none).store .backup vlan none
    let s := ((s.store .edge vlan none).store (.rcvhist false) vlan none).store (.rcvhist true) vlan none
    (.ok, { s with fsttab := Function.update s.fsttab vlan none })

def fstSendbpdu (vlan port agr tc tcack : Nat) (s : Switch) : Switch :=
  if s.fstp then
    match s.fsttab vlan with
    | none => s.crash
    | some f =>
      let flags := stpFlags vlan port f agr tc tcack s
      let age := bpduAge f s.now
      let s := if s.check .untag vlan port then
          sendPacketPort port (outpacket port f flags age s) s else s
      if s.check .tagged vlan port then
        sendPacketPort port (outtagpacket vlan port f flags age s) s else s
  else s

def designated (vlan genport port : Nat) (s : Switch) : Bool :=
  port != genport && !s.check .backup vlan port && !s.check .edge vlan port &&
    fstpActive vlan port s

def topologyChange (vlan genport : Nat) (s : Switch) : Switch :=
  match s.fsttab vlan with
  | none => s.crash
  | some f =>
    let s := s.setFst vlan { f with tctime := s.now }
    let s := { s with hash := hashDeleteVlan vlan s.hash }
    let send := fun port s =>
      if designated vlan genport port s then fstSendbpdu vlan port 0 1 0 s else s
    (s.forPorts .untag vlan send).forPorts .tagged vlan send

def fastprotocol (vlan newrootport : Nat) (s : Switch) : Switch :=
  let block := fun port s =>
    if designated vlan newrootport port s then
      fstSendbpdu vlan port 0 0 0
        ((portSetStatus port vlan .discarding s).set .backup vlan port)
    else s
  let s := (s.forPorts .untag vlan block).forPorts .tagged vlan block
  fstSendbpdu vlan newrootport 1 0 0 (unblock vlan newrootport s)

/-- The comparison of a BPDU with the stored information: positive for a better one. -/
def compareBpdu (f : Vlst) (p : Bpdu) : Int :=
  let valroot := memcmp f.root p.root
  if valroot ≠ 0 then valroot
  else
    let val := memcmp f.rootcost p.rootcost
    if val ≠ 0 then val
    else
      let val := memcmp f.dessw p.bridge
      if val ≠ 0 then val else memcmp f.port p.port

def addPortCost (port : Nat) (f : Vlst) (cost : Int) (p : Bpdu) : Bpdu :=
  let bonus := if port = f.bonusport then f.bonuscost else 0
  { p with rootcost := ltonstring (nstringtol p.rootcost + (cost - bonus)) }

def newRoot (port vlan : Nat) (f : Vlst) (p : Bpdu) (s : Switch) : Switch :=
  let s := if memcmp f.root (s.outSrc ++ [0x00, 0x27]) ≤ 0 then fstnewvlan vlan s else s
  match s.fsttab vlan with
  | none => s.crash
  | some f =>
    let s := s.setFst vlan
      { f with
        root := p.root
        rootcost := p.rootcost
        dessw := p.bridge
        port := p.port
        rootport := port
        roottimestamp := s.now % 2 ^ 32 }
    topologyChange vlan port (fastprotocol vlan port s)

def longerPath (port vlan : Nat) (p : Bpdu) (s : Switch) : Switch :=
  if p.flags &&& 0x0c = 0x04 then
    if s.check .backup vlan port then topologyChange vlan port (unblock vlan port s) else s
  else
    if s.check .backup vlan port then s
    else topologyChange vlan port (portSetStatus port vlan .discarding (s.set .backup vlan port))

def goodBpdu (port vlan : Nat) (p : Bpdu) (s : Switch) : Switch :=
  let s := if p.flags &&& 0x01 ≠ 0 then topologyChange vlan port s else s
  match s.fsttab vlan, s.portv port with
  | some f, some pt =>
    let p := addPortCost port f pt.cost p
    let val := compareBpdu f p
    if val = 0 then s.setFst vlan { f with roottimestamp := s.now % 2 ^ 32 }
    else if 0 < val ∨ (port = f.rootport ∧ val < 0) then newRoot port vlan f p s
    else if memcmp f.root p.root = 0 then longerPath port vlan p s
    else fstSendbpdu vlan port 0 0 0 s
  | _, _ => s.crash

def packetBpdu (mem : Mem) (off : Nat) (tagged : Bool) : Bpdu :=
  bpduAt mem (if tagged then off + 4 else off)

def faultyBpdu (p : Bpdu) (len : Nat) (tagged : Bool) : Bool :=
  let len : Int := if tagged then len - 4 else len
  len < 51 ∨ p.version ≠ 2 ∨ p.type ≠ 2

/-- `fst_in_bpdu`; `off` is the place of the packet in the buffer. -/
def fstInBpdu (port : Nat) (mem : Mem) (off len vlan : Nat) (tagged : Bool) (s : Switch) : Switch :=
  match s.fsttab vlan with
  | none => s.crash
  | some _ =>
    if s.check .edge vlan port then s
    else
      let s := s.set (.rcvhist s.rcvhistindex) vlan port
      let p := packetBpdu mem off tagged
      if faultyBpdu p len tagged then s else goodBpdu port vlan p s

def fstaddport (vlan port : Nat) (tagged : Bool) (s : Switch) : Switch :=
  let s := if tagged then (s.set .tagged vlan port).clr .untag vlan port
    else (s.set .untag vlan port).clr .tagged vlan port
  let s := (s.clr .backup vlan port).clr .edge vlan port
  let s := (s.clr (.rcvhist false) vlan port).clr (.rcvhist true) vlan port
  topologyChange vlan port (fstSendbpdu vlan port 0 0 0 s)

def fstdelport (vlan port : Nat) (s : Switch) : Switch :=
  let s := (s.clr .untag vlan port).clr .tagged vlan port
  let s := (s.clr .backup vlan port).clr .edge vlan port
  match s.fsttab vlan with
  | none => s.crash
  | some f => topologyChange vlan port (if port = f.rootport then fstnewvlan vlan s else s)

def fstHelloVlan (now : Int) (vlan : Nat) (s : Switch) : Switch :=
  match s.fsttab vlan with
  | none => s.crash
  | some f =>
    -- the comparison is one of unsigned numbers
    let s := if f.rootport ≠ 0 ∧ 3 * helloperiod < (now - f.roottimestamp) % 2 ^ 32 then
        fstnewvlan vlan s else s
    match s.fsttab vlan with
    | none => s.crash
    | some f =>
      let age := bpduAge f now
      let s := s.forPorts .untag vlan (fun port s =>
        if s.check .edge vlan port then s
        else sendPacketPort port (outpacket port f (stpFlags vlan port f 1 0 0 s) age s) s)
      s.forPorts .tagged vlan (fun port s =>
        if s.check .edge vlan port then s
        else sendPacketPort port (outtagpacket vlan port f (stpFlags vlan port f 1 0 0 s) age s) s)

def fstUpdatebackup (index : Bool) (vlan : Nat) (s : Switch) : Switch :=
  let s := s.forPorts .backup vlan (fun port s =>
    if fstpActive vlan port s then s else unblock vlan port s)
  s.store (.rcvhist index) vlan ((s.tabs (.rcvhist index) vlan).map (fun x => baZap x s.numports))

def fstHello (s : Switch) : Switch :=
  let s := { s with hellocounter := s.hellocounter + 1 }
  let s := s.forVlans (fstHelloVlan s.now)
  if s.hellocounter &&& 0x3 = 0 then
    let s := { s with rcvhistindex := !s.rcvhistindex }
    s.forVlans (fstUpdatebackup s.rcvhistindex)
  else s

def fstinitpkt (s : Switch) : Switch :=
  { s with outSrc := s.switchmac, outBridge := s.myid }

def fstpStop (s : Switch) : Switch :=
  { s with fstp := false }.forVlans fstnewvlan

def fstpshutdown (s : Switch) : Switch := if s.fstp then fstpStop s else s

def fstpsetonoff (val : Int) (s : Switch) : Switch :=
  if s.hub then s
  else if s.fstp = decide (val ≠ 0) then s
  else if val ≠ 0 then { fstinitpkt s with fstp := true }
  else fstpStop s

/-- `fstsetbonus`; the argument is `none` when it cannot be read as three numbers. -/
def fstsetbonus (arg : Option (Int × Int × Int)) (s : Switch) : Errno × Switch :=
  match arg with
  | none => (.einval, s)
  | some (vlan, port, cost) =>
    if vlan < 0 ∨ numOfVlan ≤ vlan ∨ port < 0 ∨ s.numports ≤ port then (.einval, s)
    else if !s.valid vlan.toNat then (.enxio, s)
    else
      match s.fsttab vlan.toNat with
      | none => (.ok, s.crash)
      | some f => (.ok, s.setFst vlan.toNat { f with bonusport := port.toNat, bonuscost := cost })

def fstsetedge (arg : Option (Int × Int × Int)) (s : Switch) : Errno × Switch :=
  match arg with
  | none => (.einval, s)
  | some (vlan, port, val) =>
    if vlan < 0 ∨ numOfVlan ≤ vlan ∨ port < 0 ∨ s.numports ≤ port then (.einval, s)
    else if !s.valid vlan.toNat then (.enxio, s)
    else
      let v := vlan.toNat
      let p := port.toNat
      if val ≠ 0 then
        let s := s.set .edge v p
        -- the source tests `untag` twice and never `tagged`
        (.ok, if s.check .untag v p || s.check .untag v p then portSetStatus p v .forwarding s else s)
      else (.ok, (s.clr .edge v p).clr .backup v p)

def fstsetnumports (val : Nat) (s : Switch) : Switch :=
  { s with tabs := fun t v =>
      match t with
      | .table | .bctag | .bcuntag | .notlearning => s.tabs t v
      | _ => if v < numOfVlan then (s.tabs t v).map (fun x => baRealloc x s.numports val)
             else s.tabs t v }

end Vde
