import Vde.Fstp

/-!
# Ports, endpoints and VLANs

The management functions of `port.c`. A port becomes active with its first endpoint: the VLANs of
`table` are then copied to `bctag` and `bcuntag`, the sets of the ports that get broadcasts with
and without a tag. The arguments of the commands are numbers, or `none` where the text of the
command does not contain them.
-/

namespace Vde

def vlancreateNocheck (vlan : Nat) (s : Switch) : Switch :=
  let empty := some baAlloc
  let s := (s.store .table vlan empty).store .bctag vlan empty
  let s := (s.store .bcuntag vlan empty).store .notlearning vlan empty
  let s := fstnewvlan vlan s
  { s with validvlan := bacSet s.validvlan vlan }

def firstFree (s : Switch) : Nat :=
  ((List.range' 1 (s.numports - 1)).find? (fun i =>
    (s.portv i).all (fun port => port.ep.isEmpty && port.flag &&& notInPool == 0#32))).getD s.numports

/-- The port that `alloc_port` chooses: 0 asks for a free one, and a negative number is the port of
the management client. -/
def allocIndex (portno : Int) (s : Switch) : Nat :=
  if portno = 0 then firstFree s else if portno < 0 then 0 else portno.toNat

def newPort : Port := ⟨[], 0#32, 0, noId, noId, noId, defaultCost⟩

def allocPort (portno : Int) (s : Switch) : Option Nat × Switch :=
  let i := allocIndex portno s
  if s.numports ≤ i then (none, s)
  else
    match s.portv i with
    | some _ => (some i, s)
    | none => (some i, (s.setPort i (some newPort)).set .table 0 i)

def freePort (portno : Nat) (s : Switch) : Switch :=
  if portno < s.numports then
    match s.portv portno with
    | none => s
    | some port =>
      if port.ep = [] then
        (s.setPort portno none).forVlans (fun i s => s.clr .table i portno)
      else s
  else s

def checkportAc (belongs : BitVec 32 → BitVec 32 → Bool) (port : Port) (user : BitVec 32) : Bool :=
  if port.user = noId ∧ port.group = noId then true
  else if user = 0 ∨ (port.user ≠ noId ∧ port.user = user) then true
  else port.group ≠ noId ∧ belongs user port.group

def activate (portno : Nat) (port : Port) (s : Switch) : Switch :=
  let s := s.forVlans (fun i s =>
    if s.check .table i portno then
      fstaddport i portno (i != port.vlanuntag) (s.set .bctag i portno)
    else s)
  if port.vlanuntag ≠ noVlan then
    ((s.set .bcuntag port.vlanuntag portno).clr .bctag port.vlanuntag portno).clr
      .notlearning port.vlanuntag portno
  else s

def attach (belongs : BitVec 32 → BitVec 32 → Bool) (portno : Nat) (fdCtl fdData : Int)
    (user : BitVec 32) (port : Port) (s : Switch) : Errno × Switch :=
  let curuser := if port.ep = [] ∧ checkportAc belongs port user then user else port.curuser
  let port := { port with curuser := curuser }
  let s := s.setPort portno (some port)
  if curuser = user then
    let s := s.setPort portno (some { port with ep := ⟨portno, fdCtl, fdData⟩ :: port.ep })
    (.ok, if port.ep = [] then activate portno port s else s)
  else (.eaddrinuse, s)

def setupEp (belongs : BitVec 32 → BitVec 32 → Bool) (portno fdCtl fdData : Int) (user : BitVec 32)
    (s : Switch) : Errno × Switch :=
  match allocPort portno s with
  | (none, s) => (.enomem, s)
  | (some portno, s) =>
    if s.trap then (.ok, s)
    else
      match s.portv portno with
      | none => (.ok, s.crash)
      | some port => attach belongs portno fdCtl fdData user port s

/-- `attach` where `mem` says whether there is memory for the endpoint. Without it the user that got access
stays in the port. -/
def attachMem (belongs : BitVec 32 → BitVec 32 → Bool) (mem : Bool) (portno : Nat) (fdCtl fdData : Int)
    (user : BitVec 32) (port : Port) (s : Switch) : Errno × Switch :=
  if mem then attach belongs portno fdCtl fdData user port s
  else
    let curuser := if port.ep = [] ∧ checkportAc belongs port user then user else port.curuser
    (if curuser = user then .enomem else .eaddrinuse, s.setPort portno (some { port with curuser := curuser }))

/-- `setup_ep` where the `malloc` of the endpoint may fail. -/
def setupEpMem (belongs : BitVec 32 → BitVec 32 → Bool) (mem : Bool) (portno fdCtl fdData : Int)
    (user : BitVec 32) (s : Switch) : Errno × Switch :=
  match allocPort portno s with
  | (none, s) => (.enomem, s)
  | (some portno, s) =>
    if s.trap then (.ok, s)
    else
      match s.portv portno with
      | none => (.ok, s.crash)
      | some port => attachMem belongs mem portno fdCtl fdData user port s

def inactivate (portno : Nat) (port : Port) (s : Switch) : Switch :=
  let s := { s with hash := hashDeletePort portno s.hash }
  let s := s.setPort portno (some { port with curuser := noId })
  let s := s.forVlans (fun i s => fstdelport i portno (s.clr .bctag i portno))
  if port.vlanuntag < noVlan then s.clr .bcuntag port.vlanuntag portno else s

def closeEpPortFd (portno fdCtl : Int) (s : Switch) : Errno × Switch :=
  if 0 ≤ portno ∧ portno < s.numports then
    match s.portv portno.toNat with
    | none => (.enxio, s)
    | some port =>
      let rv := if port.ep.any (fun e => e.fdCtl == fdCtl) then Errno.ok else Errno.enxio
      let port := { port with ep := port.ep.eraseP (fun e => e.fdCtl == fdCtl) }
      let s := s.setPort portno.toNat (some port)
      (rv, if port.ep = [] then inactivate portno.toNat port s else s)
  else (.einval, s)

def portsetnumports (val : Int) (s : Switch) : Errno × Switch :=
  if 0 < val then
    let n := val.toNat
    if (List.range' n (s.numports - n)).any (fun i => (s.portv i).isSome) then (.eaddrinuse, s)
    else
      let s := { s with tabs := fun t v =>
        match t with
        | .table | .bctag | .bcuntag | .notlearning =>
          if v < numOfVlan then (s.tabs t v).map (fun x => baRealloc x s.numports n) else s.tabs t v
        | _ => s.tabs t v }
      let s := { s with portv := fun i => if s.numports ≤ i ∧ i < n then none else s.portv i }
      (.ok, { fstsetnumports n s with numports := n })
  else (.einval, s)

/-- The tests that most commands about a port begin with. -/
def withPort (port : Int) (f : Nat → Port → Errno × Switch) (s : Switch) : Errno × Switch :=
  if port < 0 ∨ s.numports ≤ port then (.einval, s)
  else
    match s.portv port.toNat with
    | none => (.enxio, s)
    | some p => f port.toNat p

def portallocatable (arg : Option (Int × Int)) (s : Switch) : Errno × Switch :=
  match arg with
  | none => (.einval, s)
  | some (port, value) =>
    withPort port (fun i p =>
      let flag := if value ≠ 0 then p.flag &&& ~~~notInPool else p.flag ||| notInPool
      (.ok, s.setPort i (some { p with flag := flag }))) s

/-- `portsetuser`; the second argument is the user it names, if there is one. -/
def portsetuser (arg : Option (Int × Option (BitVec 32))) (s : Switch) : Errno × Switch :=
  match arg with
  | none => (.einval, s)
  | some (port, user) =>
    withPort port (fun i p =>
      match user with
      | none => (.einval, s)
      | some user => (.ok, s.setPort i (some { p with user := user }))) s

def portsetgroup (arg : Option (Int × Option (BitVec 32))) (s : Switch) : Errno × Switch :=
  match arg with
  | none => (.einval, s)
  | some (port, group) =>
    withPort port (fun i p =>
      match group with
      | none => (.einval, s)
      | some group => (.ok, s.setPort i (some { p with group := group }))) s

def portremove (val : Int) (s : Switch) : Errno × Switch :=
  withPort val (fun i p => if p.ep = [] then (.ok, freePort i s) else (.eaddrinuse, s)) s

def reserve (port : Nat) (s : Switch) : Switch :=
  match s.portv port with
  | none => s.crash
  | some p => s.setPort port (some { p with flag := p.flag ||| notInPool })

def portcreate (val : Int) (s : Switch) : Errno × Switch :=
  if val < 0 ∨ s.numports ≤ val then (.einval, s)
  else if (s.portv val.toNat).isSome then (.eexist, s)
  else
    match allocPort val s with
    | (none, s) => (.enospc, s)
    | (some port, s) => (.ok, if s.trap then s else reserve port s)

def portcreateauto (s : Switch) : Errno × Switch :=
  match allocPort 0 s with
  | (none, s) => (.enospc, s)
  | (some port, s) => (.ok, if s.trap then s else reserve port s)

def portsethub (val : Int) (s : Switch) : Switch :=
  if val ≠ 0 then { fstpshutdown s with hub := true } else { s with hub := false }

def moveTables (i : Nat) (p : Port) (v : Nat) (s : Switch) : Switch :=
  let oldvlan := p.vlanuntag
  let s :=
    if p.ep ≠ [] then
      let s := if oldvlan ≠ noVlan then s.clr .bcuntag oldvlan i else s
      let s := if v ≠ noVlan then (s.set .bcuntag v i).clr .bctag v i else s
      let s := if oldvlan ≠ noVlan then fstdelport oldvlan i s else s
      if v ≠ noVlan then fstaddport v i false s else s
    else s
  let s := if oldvlan ≠ noVlan then s.clr .table oldvlan i else s
  if v ≠ noVlan then s.set .table v i else s

def portsetvlan (arg : Option (Int × Int)) (s : Switch) : Errno × Switch :=
  match arg with
  | none => (.einval, s)
  | some (port, vlan) =>
    if vlan < 0 ∨ numOfVlan < vlan ∨ port < 0 ∨ s.numports ≤ port then (.einval, s)
    else
      let v := vlan.toNat
      let i := port.toNat
      match s.portv i with
      | none => (.enxio, s)
      | some p =>
        if v ≠ noVlan ∧ !s.valid v then (.enxio, s)
        else
          let s := s.setPort i (some { p with vlanuntag := noVlan })
          let s := moveTables i p v { s with hash := hashDeletePort i s.hash }
          (.ok, s.setPort i (some { p with vlanuntag := v }))

def vlancreate (vlan : Int) (s : Switch) : Errno × Switch :=
  if 0 < vlan ∧ vlan < numOfVlan - 1 then
    if s.valid vlan.toNat then (.eexist, s) else (.ok, vlancreateNocheck vlan.toNat s)
  else (.einval, s)

/-- A VLAN goes only if no port is in its table. -/
def vlanremove (vlan : Int) (s : Switch) : Errno × Switch :=
  if 0 ≤ vlan ∧ vlan < numOfVlan then
    let v := vlan.toNat
    if s.valid v then
      let used := baForall (fun _ => s.words .table v) s.numports (fun _ used => used + 1) 0
      if used ≠ 0 then (.eaddrinuse, s)
      else
        let s := { s with validvlan := bacClr s.validvlan v }
        let s := (s.store .table v none).store .bctag v none
        let s := (s.store .bcuntag v none).store .notlearning v none
        (.ok, (fstremovevlan v s).2)
    else (.enxio, s)
  else (.einval, s)

def withVlanPort (arg : Option (Int × Int)) (f : Nat → Nat → Port → Errno × Switch) (s : Switch) :
    Errno × Switch :=
  match arg with
  | none => (.einval, s)
  | some (vlan, port) =>
    if vlan < 0 ∨ numOfVlan - 1 ≤ vlan ∨ port < 0 ∨ s.numports ≤ port then (.einval, s)
    else if !s.valid vlan.toNat then (.enxio, s)
    else
      match s.portv port.toNat with
      | none => (.enxio, s)
      | some p => f vlan.toNat port.toNat p

def vlanaddport (arg : Option (Int × Int)) (s : Switch) : Errno × Switch :=
  withVlanPort arg (fun v i p =>
    let s := if p.ep ≠ [] ∧ p.vlanuntag ≠ v then fstaddport v i true (s.set .bctag v i) else s
    (.ok, s.set .table v i)) s

def vlandelport (arg : Option (Int × Int)) (s : Switch) : Errno × Switch :=
  withVlanPort arg (fun v i p =>
    if p.vlanuntag = v then (.eaddrinuse, s)
    else
      let s := if p.ep ≠ [] then fstdelport v i (s.clr .bctag v i) else s
      let s := s.clr .table v i
      (.ok, { s with hash := hashDeletePort i s.hash })) s

def portInit (initnumports : Nat) (switchmac : List UInt8) (priority : Nat) (hub fstp : Bool)
    (hash : HashTable) (now : Int) : Switch :=
  let myid := [UInt8.ofNat (priority >>> 8), UInt8.ofNat priority] ++ switchmac
  let s : Switch :=
    { hub := hub
      numports := initnumports
      portv := fun _ => none
      validvlan := bacAlloc
      tabs := fun _ _ => none
      fstp := fstp
      fsttab := fun _ => none
      rcvhistindex := false
      hellocounter := 0
      switchmac := switchmac
      myid := myid
      outSrc := List.replicate 6 0
      outBridge := List.replicate 8 0
      hash := hash
      now := now
      sent := []
      trap := false }
  vlancreateNocheck 0 (if fstp then fstinitpkt s else s)

end Vde
